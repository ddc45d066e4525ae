import InstrumentResponse.Decimal.Rounding

/-!
# The fewest digits that read back

The reals that round to the double `m * 2 ^ q` form an interval around it, whose ends belong to it
if and only if `m` is even.  `shortest` looks for the coarsest decimal grid with a point in that
interval and takes the point nearest to the double; of two equally near ones it takes the larger.
-/

namespace InstrumentResponse.Decimal

/-- Four times the mantissas of the ends of the rounding interval of `m * 2 ^ q`: the gap below a
power of two is half as wide as the gap above it, except at the least exponent. -/
def roundingEnds (m : Nat) (q : Int) : Nat × Nat :=
  (if m = twoTo 52 ∧ -1074 < q then 4 * m - 1 else 4 * m - 2, 4 * m + 2)

/-- The point of the grid of `n` digits in the rounding interval of `m * 2 ^ q` that is nearest to
it; `e` is the exponent of its first digit. -/
def onGrid? (m : Nat) (q e : Int) (n : Nat) : Option Digits :=
  let s : Int := e - n + 1
  let scaled (a : Nat) := timesTen (numerator a (q - 2)) (-s)
  let step := timesTen (denominator (q - 2)) s
  let (low, high) := roundingEnds m q
  let value := scaled (4 * m)
  let k := value / step
  let inside (a b : Nat) : Bool := if m % 2 = 0 then a ≤ b else a < b
  let down := inside (scaled low) (k * step)
  let up := inside ((k + 1) * step) (scaled high)
  let nearerUp := step ≤ 2 * (value - k * step)
  if up && (nearerUp || !down) then some (.carry (k + 1) n e)
  else if down then some (.carry k n e)
  else none

/-- The fewest decimal digits that read back as `m * 2 ^ q`. -/
def shortest (m : Nat) (q : Int) : Digits :=
  if m = 0 then ⟨0, 1, 0⟩
  else
    let e := leadingExponent (numerator m q) (denominator q)
    ((List.range' 1 17).findSome? (onGrid? m q e)).getD
      (significant 17 (numerator m q) (denominator q))

end InstrumentResponse.Decimal
