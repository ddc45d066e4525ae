/-!
# Scalars

Responses are computed in doubles and reasoned about in exact numbers.  Everything that computes
one is therefore written over a type `α` of scalars.

* `Scalar α`: the four operations, comparisons, and the roundings that phases need.
* `Analytic α`: also the functions that complex amplitudes need.

Comparisons are those of the scalar type itself: for doubles they are false as soon as one side
is not a number, and `==` holds between the two zeros.
-/

namespace InstrumentResponse

/-- Numbers that a chain of filters can be described with. -/
class Scalar (α : Type) extends Add α, Sub α, Mul α, Div α, Neg α, NatCast α, LT α, LE α, BEq α where
  abs : α → α
  /-- The least whole number that is not below a number. -/
  ceil : α → α
  /-- The whole part of a number, 0 below 0. -/
  wholePart : α → Nat
  isFinite : α → Bool
  decidableLT : DecidableLT α
  decidableLE : DecidableLE α

/-- Scalars with square roots, angles and powers. -/
class Analytic (α : Type) extends Scalar α where
  pi : α
  sin : α → α
  cos : α → α
  /-- The angle of the point whose ordinate is first and abscissa second, in `(-π, π]`. -/
  atan2 : α → α → α
  /-- The length of the hypotenuse over two legs. -/
  hypot : α → α → α
  log10 : α → α
  /-- A power with a real exponent. -/
  pow : α → α → α

namespace Scalar

variable {α : Type} [Scalar α]

instance : DecidableLT α := decidableLT

instance : DecidableLE α := decidableLE

instance (priority := 200) ofNat (n : Nat) : OfNat α n := ⟨(n : α)⟩

instance : Inhabited α := ⟨0⟩

/-- The larger of two numbers, the other one if one of them is not a number. -/
def larger (a b : α) : α := if b ≤ a ∨ (b == b) = false then a else b

/-- The smaller of two numbers, the other one if one of them is not a number. -/
def smaller (a b : α) : α := if a ≤ b ∨ (b == b) = false then a else b

/-- The sum of a list, added from the left. -/
def sum (xs : List α) : α := xs.foldl (· + ·) 0

/-- A power with a whole exponent, by squaring: `power r a n` is `r * a ^ n`. -/
def powerFrom (r a : α) (n : Nat) : α :=
  if h : n < 2 then
    if n = 0 then r else r * a
  else
    powerFrom (if n % 2 = 1 then r * a else r) (a * a) (n / 2)
termination_by n
decreasing_by omega

/-- A power with a whole exponent. -/
def power (a : α) (n : Nat) : α := powerFrom 1 a n

end Scalar

/-! ## Doubles -/

/-- The double nearest to `π`. -/
def piDouble : Float := 3.141592653589793

/-- Square root of `x * x + y * y` for `0 ≤ y ≤ x`, the root followed by one correcting step. -/
def legsRoot (x y : Float) : Float :=
  let h := Float.sqrt (x * x + y * y)
  if h ≤ 2 * y then
    let d := h - y
    h - (x * (2 * d - x) + (d - 2 * (x - y)) * d) / (2 * h)
  else
    let d := h - x
    h - (2 * d * (x - 2 * y) + ((4 * d - y) * y + d * d)) / (2 * h)

/-- The length of the hypotenuse over two legs of doubles.  Legs that would overflow or vanish when
squared are scaled by a power of two first; an infinite leg wins over one that is not a number. -/
def hypotDouble (x y : Float) : Float :=
  let a := x.abs
  let b := y.abs
  if a.isInf || b.isInf then 1 / 0
  else if a.isNaN || b.isNaN then 0 / 0
  else
    let l := if b ≤ a then a else b
    let s := if b ≤ a then b else a
    if s ≤ l * 5.551115123125783e-17 then l + s
    else if 1e150 < l then legsRoot (l * tiny) (s * tiny) * huge
    else if s < 1e-140 then legsRoot (l * huge) (s * huge) * tiny
    else legsRoot l s
where
  /-- The double `2 ^ 600`. -/
  huge : Float := 4.149515568880993e180
  /-- The double `2 ^ (-600)`. -/
  tiny : Float := 2.409919865102884e-181

instance : Scalar Float where
  natCast n := Float.ofNat n
  abs := Float.abs
  ceil := Float.ceil
  wholePart x := x.toUInt64.toNat
  isFinite := Float.isFinite
  decidableLT := inferInstance
  decidableLE := inferInstance

instance : Analytic Float where
  pi := piDouble
  sin := Float.sin
  cos := Float.cos
  atan2 := Float.atan2
  hypot := hypotDouble
  log10 := Float.log10
  pow := Float.pow

end InstrumentResponse
