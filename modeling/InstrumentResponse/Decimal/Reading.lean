import InstrumentResponse.Decimal.Rounding
import InstrumentResponse.Text.Capital

/-!
# Reading numbers

* `readDouble`: a decimal numeral, or the word for what is infinite or not a number, as the nearest
  double.
* `readInteger`, `readNatural`: digits with an optional sign, between bounds.

Only ASCII digits count, and a text is read as a whole: blanks around it are not numbers.
-/

namespace InstrumentResponse.Decimal

def isDigit (c : Char) : Bool := '0' ≤ c && c ≤ '9'

/-- The value of a run of digits, put after the digits of `n`. -/
def digitsValue (n : Nat) (cs : List Char) : Nat :=
  cs.foldl (fun n c => 10 * n + (c.toNat - '0'.toNat)) n

/-- The whole number that a text of digits denotes; a text without digits is none. -/
def readDigits? (cs : List Char) : Option Nat :=
  if cs.isEmpty || !cs.all isDigit then none else some (digitsValue 0 cs)

/-- A sign and what follows it: is it a minus sign? -/
def cutSign : List Char → Bool × List Char
  | '-' :: cs => (true, cs)
  | '+' :: cs => (false, cs)
  | cs => (false, cs)

/-- A whole number with an optional sign between two bounds. -/
def readInteger? (low high : Int) (s : String) : Option Int :=
  let (negative, cs) := cutSign s.toList
  (readDigits? cs).bind fun n =>
    let v : Int := if negative then -(n : Int) else n
    if low ≤ v ∧ v ≤ high then some v else none

/-- A natural number with an optional plus sign up to a bound. -/
def readNatural? (high : Nat) (s : String) : Option Nat :=
  let cs :=
    match s.toList with
    | '+' :: cs => cs
    | cs => cs
  (readDigits? cs).bind fun n => if n ≤ high then some n else none

/-- A whole number of 32 bits with a sign. -/
def readSigned32? (s : String) : Option Int := readInteger? (-2147483648) 2147483647 s

/-- A whole number of 64 bits with a sign. -/
def readSigned64? (s : String) : Option Int :=
  readInteger? (-9223372036854775808) 9223372036854775807 s

/-- The greatest whole number of 32 bits. -/
def greatest32 : Nat := 4294967295

/-- The greatest whole number of 64 bits. -/
def greatest64 : Nat := 18446744073709551615

/-- A numeral: its digits denote `coefficient`, to be multiplied by `10 ^ exponent`. -/
structure Numeral where
  negative : Bool
  coefficient : Nat
  exponent : Int
deriving DecidableEq, Repr

/-- The exponent after the digits of a numeral: nothing, or a mark and a whole number. -/
def readExponent? : List Char → Option Int
  | [] => some 0
  | c :: cs =>
    if c = 'e' ∨ c = 'E' then
      let (negative, ds) := cutSign cs
      (readDigits? ds).map fun n => if negative then -(n : Int) else n
    else none

/-- A numeral has digits with at most one point, and an optional exponent. -/
def readNumeral? (s : List Char) : Option Numeral :=
  let (negative, cs) := cutSign s
  let before := cs.takeWhile isDigit
  let rest := cs.dropWhile isDigit
  let (after, tail) :=
    match rest with
    | '.' :: ds => (ds.takeWhile isDigit, ds.dropWhile isDigit)
    | ds => ([], ds)
  if before.isEmpty && after.isEmpty then none
  else
    (readExponent? tail).map fun e =>
      ⟨negative, digitsValue 0 (before ++ after), e - after.length⟩

/-- The double nearest to a numeral.  Numerals from `10 ^ 400` on are infinite and those below
`10 ^ (-400)` vanish, whatever their digits. -/
def Numeral.toDouble (x : Numeral) : Float :=
  let leading := x.exponent + digitCount x.coefficient
  let v : Float :=
    if x.coefficient = 0 ∨ leading < -400 then 0
    else if 400 < leading then 1 / 0
    else Float.ofScientific x.coefficient (x.exponent < 0) x.exponent.natAbs
  if x.negative then -v else v

/-- The double nearest to some decimal digits. -/
def Digits.toDouble (negative : Bool) (d : Digits) : Float :=
  Numeral.toDouble ⟨negative, d.coefficient, d.exponent - d.length + 1⟩

/-- The double nearest to the decimal of `n` digits that is nearest to a double. -/
def roundTo (n : Nat) (x : Float) : Float :=
  match magnitude x with
  | .finite m q => (significant n (numerator m q) (denominator q)).toDouble (isNegative x)
  | _ => x

/-- The double that a text denotes, if it denotes one. -/
def readDouble? (s : String) : Option Float :=
  let (negative, cs) := cutSign s.toList
  let word := String.ofList (cs.map Text.lowerChar)
  if word = "inf" ∨ word = "infinity" then some (if negative then -(1 / 0) else 1 / 0)
  else if word = "nan" then some (0 / 0)
  else (readNumeral? s.toList).map Numeral.toDouble

end InstrumentResponse.Decimal
