/-!
# The exact value of a double

A finite double is a sign and a magnitude `m * 2 ^ q` with whole `m` and `q`.  `magnitude` reads both
off the 64 bits: the biased exponent 0 stands for the subnormal numbers, 2047 for what is infinite
or not a number.
-/

namespace InstrumentResponse.Decimal

/-- The size of a double. -/
inductive Magnitude where
  | notANumber
  | infinite
  /-- The number `mantissa * 2 ^ exponent`. -/
  | finite (mantissa : Nat) (exponent : Int)
deriving DecidableEq, Repr

/-- A power of two. -/
def twoTo (n : Nat) : Nat := Nat.pow 2 n

/-- The sign bit. -/
def isNegative (x : Float) : Bool := twoTo 63 ≤ x.toBits.toNat

/-- The size that 64 bits stand for. -/
def magnitudeOfBits (n : Nat) : Magnitude :=
  let biased : Nat := n / twoTo 52 % twoTo 11
  let fraction : Nat := n % twoTo 52
  if biased = 2047 then
    if fraction = 0 then .infinite else .notANumber
  else if biased = 0 then .finite fraction (-1074)
  else .finite (twoTo 52 + fraction) ((biased : Int) - 1075)

/-- The size of a double. -/
def magnitude (x : Float) : Magnitude := magnitudeOfBits x.toBits.toNat

/-- The numerator of `m * 2 ^ q` as a fraction of whole numbers. -/
def numerator (m : Nat) (q : Int) : Nat := m * twoTo q.toNat

/-- The denominator of `m * 2 ^ q` as a fraction of whole numbers. -/
def denominator (q : Int) : Nat := twoTo (-q).toNat

end InstrumentResponse.Decimal
