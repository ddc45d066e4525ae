import InstrumentResponse.Decimal.Layout
import InstrumentResponse.Decimal.Reading
import InstrumentResponse.Scalar
import InstrumentResponse.Text.Words

/-!
# Instants

An instant is a day of a year and a time of that day to the microsecond.

* `Clock.read?`: the form `HH[:MM[:SS[.ffff]]]`.
* `Instant.read?`: the form `YYYY,DDD[,HH[:MM[:SS[.ffff]]]]`, which epochs are given in.
* `Instant.ordinalText`: the same form, with seconds and without a fraction.
* `Instant.dateText`: the form `YYYY-MM-DDTHH:MM:SS[.fff[fff]]`.
-/

namespace InstrumentResponse

/-- A time of day. -/
structure Clock where
  hour : Nat
  minute : Nat
  second : Nat
  microsecond : Nat
deriving DecidableEq, Repr, Inhabited

/-- A day of a year and a time of that day. -/
structure Instant where
  year : Int
  /-- The day of the year, from 1 on. -/
  day : Nat
  clock : Clock
deriving DecidableEq, Repr, Inhabited

/-! ## The calendar -/

/-- Does a year have a 29 February? -/
def isLeap (year : Int) : Bool := year % 4 == 0 && (year % 100 != 0 || year % 400 == 0)

def daysInYear (year : Int) : Nat := if isLeap year then 366 else 365

/-- The days of each month. -/
def monthLengths (year : Int) : List Nat :=
  [31, if isLeap year then 29 else 28, 31, 30, 31, 30, 31, 31, 30, 31, 30, 31]

/-- The month and day that are `day - 1` days after the first of month `month`, where `lengths` are
those of `month` and the following ones. -/
def monthAndDay (month day : Nat) : List Nat → Nat × Nat
  | [] => (month, day)
  | n :: rest => if day ≤ n then (month, day) else monthAndDay (month + 1) (day - n) rest

/-- The least year of the calendar. -/
def firstYear : Int := -262143

/-- The greatest year of the calendar. -/
def lastYear : Int := 262142

namespace Clock

def midnight : Clock := ⟨0, 0, 0, 0⟩

/-- Times are in order. -/
def before (a b : Clock) : Bool :=
  a.hour < b.hour || (a.hour == b.hour &&
    (a.minute < b.minute || (a.minute == b.minute &&
      (a.second < b.second || (a.second == b.second && a.microsecond < b.microsecond)))))

/-- A fraction of a second in microseconds; a half goes up, and the last microsecond of a second
takes all that lies above it. -/
def microseconds (fraction : Float) : Nat :=
  match Decimal.magnitude (fraction * 1e6) with
  | .finite m q =>
    let num := Decimal.numerator m q
    let den := Decimal.denominator q
    min ((2 * num + den) / (2 * den)) 999999
  | _ => 999999

/-- Seconds with a fraction, of a minute. -/
def ofSeconds? (hour minute : Nat) (seconds : Float) : Option Clock :=
  if 0 ≤ seconds ∧ seconds < 60 then
    let second := Scalar.wholePart seconds
    if hour < 24 ∧ minute < 60 then
      some ⟨hour, minute, second, microseconds (seconds - Float.ofNat second)⟩
    else none
  else none

/-- Reads `HH[:MM[:SS[.ffff]]]`. -/
def read? (s : String) : Option Clock :=
  match Text.firstPieces ':' 2 (Text.trimChars s.toList) with
  | [h] => do
    ofSeconds? (← Decimal.readNatural? Decimal.greatest32 h) 0 0
  | [h, m] => do
    ofSeconds? (← Decimal.readNatural? Decimal.greatest32 h) (← Decimal.readNatural? Decimal.greatest32 m) 0
  | [h, m, s] => do
    ofSeconds? (← Decimal.readNatural? Decimal.greatest32 h) (← Decimal.readNatural? Decimal.greatest32 m)
      (← Decimal.readDouble? s)
  | _ => none

/-- Hours, minutes and seconds. -/
def text (c : Clock) : String :=
  Decimal.padded 2 c.hour ++ ":" ++ Decimal.padded 2 c.minute ++ ":" ++ Decimal.padded 2 c.second

/-- Hours, minutes and seconds, with milliseconds or microseconds unless there are none. -/
def fullText (c : Clock) : String :=
  let fraction :=
    if c.microsecond = 0 then ""
    else if c.microsecond % 1000 = 0 then "." ++ Decimal.padded 3 (c.microsecond / 1000)
    else "." ++ Decimal.padded 6 c.microsecond
  c.text ++ fraction

end Clock

namespace Instant

/-- Instants are in order. -/
def before (a b : Instant) : Bool :=
  a.year < b.year || (a.year == b.year &&
    (a.day < b.day || (a.day == b.day && a.clock.before b.clock)))

/-- A day of a year of the calendar. -/
def ofDay? (year : Int) (day : Nat) (clock : Clock) : Option Instant :=
  if firstYear ≤ year ∧ year ≤ lastYear ∧ 1 ≤ day ∧ day ≤ daysInYear year then
    some ⟨year, day, clock⟩
  else none

/-- Reads `YYYY,DDD[,HH[:MM[:SS[.ffff]]]]`; without a time of day the instant is midnight. -/
def read? (s : String) : Option Instant :=
  match Text.firstPieces ',' 2 (Text.trimChars s.toList) with
  | [y, d] => do
    ofDay? (← Decimal.readSigned32? (Text.trim y))
      (← Decimal.readNatural? Decimal.greatest32 (Text.trim d))
      .midnight
  | [y, d, c] => do
    let clock ← if (Text.trim c).isEmpty then some .midnight else Clock.read? c
    ofDay? (← Decimal.readSigned32? (Text.trim y))
      (← Decimal.readNatural? Decimal.greatest32 (Text.trim d)) clock
  | _ => none

/-- A year with at least four digits; a sign marks those that need more, or stand before year 0. -/
def yearText (year : Int) : String :=
  if year < 0 then "-" ++ Decimal.padded 4 year.natAbs
  else if 9999 < year then "+" ++ Decimal.padded 4 year.natAbs
  else Decimal.padded 4 year.natAbs

/-- Year, day of the year, and time of day to the second. -/
def ordinalText (t : Instant) : String :=
  yearText t.year ++ "," ++ Decimal.padded 3 t.day ++ "," ++ t.clock.text

/-- Year, month, day, and time of day. -/
def dateText (t : Instant) : String :=
  let (month, day) := monthAndDay 1 t.day (monthLengths t.year)
  yearText t.year ++ "-" ++ Decimal.padded 2 month ++ "-" ++ Decimal.padded 2 day ++ "T" ++
    t.clock.fullText

end Instant

end InstrumentResponse
