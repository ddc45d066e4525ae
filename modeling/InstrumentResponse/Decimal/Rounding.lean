import InstrumentResponse.Decimal.Double

/-!
# Rounding to a decimal grid

* `roundDiv`: the whole number nearest to a fraction, a tie going to the even one.
* `leadingExponent`: the decimal exponent of the first digit of a positive fraction.
* `significant`: a fraction rounded to a given number of significant digits.
-/

namespace InstrumentResponse.Decimal

/-- A power of ten. -/
def tenTo (n : Nat) : Nat := Nat.pow 10 n

/-- The whole number nearest to `num / den`; a tie goes to the even one. -/
def roundDiv (num den : Nat) : Nat :=
  let k := num / den
  let r := num % den
  if den < 2 * r ∨ (2 * r = den ∧ k % 2 = 1) then k + 1 else k

/-- The number of decimal digits of a whole number, none for 0. -/
def digitCount (n : Nat) : Nat := if n = 0 then 0 else digitCount (n / 10) + 1
termination_by n
decreasing_by omega

/-- The whole number `a * 10 ^ e` for `0 ≤ e`, and `a` otherwise. -/
def timesTen (a : Nat) (e : Int) : Nat := a * tenTo e.toNat

/-- The exponent `e` with `10 ^ e ≤ num / den < 10 ^ (e + 1)`. -/
def leadingExponent (num den : Nat) : Int :=
  let e : Int := (digitCount num : Int) - digitCount den
  if timesTen den e ≤ timesTen num (-e) then e else e - 1

/-- Decimal digits: `coefficient` has `length` digits, and the first one has the weight
`10 ^ exponent`. -/
structure Digits where
  coefficient : Nat
  length : Nat
  exponent : Int
deriving DecidableEq, Repr

/-- A coefficient that may have become one digit too long. -/
def Digits.carry (c length : Nat) (e : Int) : Digits :=
  if c = tenTo length then ⟨tenTo (length - 1), length, e + 1⟩ else ⟨c, length, e⟩

/-- The number of `n` significant digits nearest to `num / den`, a tie going to the even last
digit. -/
def significant (n num den : Nat) : Digits :=
  if num = 0 then ⟨0, n, 0⟩
  else
    let e := leadingExponent num den
    let s : Int := n - 1 - e
    .carry (roundDiv (timesTen num s) (timesTen den (-s))) n e

end InstrumentResponse.Decimal
