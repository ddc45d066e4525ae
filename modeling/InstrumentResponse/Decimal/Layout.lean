import InstrumentResponse.Decimal.Shortest

/-!
# Numbers as text

A `Layout` says how a double is written with an exponent: how many digits, the mark before the
exponent, whether a plus sign is written, and the words for what is not a finite number.  `plain`
writes all digits without an exponent, `fixed` a given number of decimal places.
-/

namespace InstrumentResponse.Decimal

/-- The decimal digits of a whole number, `0` for zero. -/
def digitText (n : Nat) : List Char := Nat.toDigits 10 n

/-- Zeros in front of a text up to a width. -/
def padLeft (width : Nat) (c : Char) (cs : List Char) : List Char :=
  List.replicate (width - cs.length) c ++ cs

/-- A whole number with at least `width` digits. -/
def padded (width n : Nat) : String := String.ofList (padLeft width '0' (digitText n))

/-- The digits of a decimal, as many as it has. -/
def Digits.text (d : Digits) : List Char := padLeft d.length '0' (digitText d.coefficient)

/-- How numbers are written with an exponent. -/
structure Layout where
  /-- The number of significant digits, or the fewest that read back. -/
  significant : Option Nat
  mark : Char
  /-- Is a plus sign written before an exponent? -/
  plus : Bool
  exponentWidth : Nat
  notANumber : String
  infinity : String
deriving DecidableEq, Repr

namespace Layout

/-- The digits of the double `m * 2 ^ q`. -/
def digits (l : Layout) (m : Nat) (q : Int) : Digits :=
  match l.significant with
  | none => shortest m q
  | some n => Decimal.significant n (numerator m q) (denominator q)

def exponentText (l : Layout) (e : Int) : String :=
  let sign := if e < 0 then "-" else if l.plus then "+" else ""
  sign ++ padded l.exponentWidth e.natAbs

/-- One digit, the others after a point, and the exponent. -/
def writeDigits (l : Layout) (d : Digits) : String :=
  let mantissa :=
    match d.text with
    | first :: second :: rest => first :: '.' :: second :: rest
    | cs => cs
  String.ofList mantissa ++ String.singleton l.mark ++ l.exponentText d.exponent

/-- The text of a double. -/
def write (l : Layout) (x : Float) : String :=
  match magnitude x with
  | .notANumber => l.notANumber
  | .infinite => (if isNegative x then "-" else "") ++ l.infinity
  | .finite m q => (if isNegative x then "-" else "") ++ l.writeDigits (l.digits m q)

end Layout

/-- Digits without an exponent: zeros fill up to the point on either side. -/
def positional (d : Digits) : String :=
  let cs := d.text
  if d.exponent < 0 then
    "0." ++ String.ofList (List.replicate (d.exponent.natAbs - 1) '0' ++ cs)
  else
    let whole := d.exponent.toNat + 1
    if cs.length ≤ whole then String.ofList (cs ++ List.replicate (whole - cs.length) '0')
    else String.ofList (cs.take whole) ++ "." ++ String.ofList (cs.drop whole)

/-- The fewest digits of a double that read back, without an exponent. -/
def plain (x : Float) : String :=
  let sign := if isNegative x then "-" else ""
  match magnitude x with
  | .notANumber => "NaN"
  | .infinite => sign ++ "inf"
  | .finite m q => sign ++ positional (shortest m q)

/-- A double with `places` digits after the point, a tie going to the even last digit. -/
def fixed (places : Nat) (x : Float) : String :=
  let sign := if isNegative x then "-" else ""
  match magnitude x with
  | .notANumber => "NaN"
  | .infinite => sign ++ "inf"
  | .finite m q =>
    let n := roundDiv (numerator m q * tenTo places) (denominator q)
    let cs := padLeft (places + 1) '0' (digitText n)
    let whole := cs.length - places
    let point := if places = 0 then "" else "."
    sign ++ String.ofList (cs.take whole) ++ point ++ String.ofList (cs.drop whole)

/-- A whole number with its sign. -/
def whole (n : Int) : String :=
  (if n < 0 then "-" else "") ++ String.ofList (digitText n.natAbs)

/-- A natural number. -/
def natural (n : Nat) : String := String.ofList (digitText n)

end InstrumentResponse.Decimal
