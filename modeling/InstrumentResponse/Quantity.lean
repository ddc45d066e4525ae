import InstrumentResponse.Scalar
import InstrumentResponse.Text.Capital
import InstrumentResponse.Text.Words

/-!
# Physical quantities

What a stage takes in and gives out.  Unit descriptions such as `M/S - Velocity in Meters Per
Second` are told by how they begin, without regard to case.

* `Quantity.read`: the quantity of a unit description.
* `scaleToMeters`: the factor from nanometers, millimeters or centimeters to meters.
-/

namespace InstrumentResponse

/-- The quantity at the input or output of a stage. -/
inductive Quantity where
  /-- A unit that is not known. -/
  | undefined
  | displacement
  | velocity
  | acceleration
  | counts
  | volts
  /-- A unit that was deliberately not looked at. -/
  | undecoded
  | pressure
  | fluxDensity
  | temperature
deriving DecidableEq, Repr, Inhabited

namespace Quantity

/-- The short code of a quantity. -/
def code : Quantity → String
  | undefined => "UNDEF"
  | displacement => "DIS"
  | velocity => "VEL"
  | acceleration => "ACC"
  | counts => "COUNTS"
  | volts => "VOLTS"
  | undecoded => "DEF"
  | pressure => "PA"
  | fluxDensity => "T"
  | temperature => "C"

/-- All quantities. -/
def all : List Quantity :=
  [undefined, displacement, velocity, acceleration, counts, volts, undecoded, pressure, fluxDensity,
    temperature]

/-- The quantity with a code. -/
def ofCode? (s : String) : Option Quantity := all.find? (·.code == s)

/-- Is it displacement, velocity or acceleration of the ground? -/
def isGroundMotion : Quantity → Bool
  | displacement | velocity | acceleration => true
  | _ => false

/-- Does a text begin with a symbol of meters, perhaps of centi-, nano- or millimeters, and `tail`
right after it? -/
def startsMeter (tail cs : List Char) : Bool :=
  ('M' :: tail).isPrefixOf cs ||
    match cs with
    | c :: rest => (c == 'C' || c == 'N' || c == 'M') && ('M' :: tail).isPrefixOf rest
    | [] => false

/-- The ground motion that a description in capitals begins with. -/
def groundMotion? (cs : List Char) : Option Quantity :=
  if startsMeter "/S**2".toList cs || startsMeter "/SEC**2".toList cs then some acceleration
  else if startsMeter "/S".toList cs then some velocity
  else if startsMeter [] cs then some displacement
  else none

/-- A description in the form in which it is told: without blanks around it, in capitals. -/
def symbol (name : String) : List Char := Text.capitals (Text.trimChars name.toList)

/-- The quantity of a unit description. -/
def read (name : String) : Quantity :=
  let cs := symbol name
  if "PA".toList.isPrefixOf cs then pressure
  else if "T -".toList.isPrefixOf cs then fluxDensity
  else if "C -".toList.isPrefixOf cs then temperature
  else
    match groundMotion? cs with
    | some q => q
    | none =>
      if "COUNT".toList.isPrefixOf cs || "DIGITAL".toList.isPrefixOf cs then counts
      else if "V".toList.isPrefixOf cs then volts
      else undefined

end Quantity

/-- The factor that turns a response per nanometer, millimeter or centimeter of ground motion into
one per meter; 1 for every other unit. -/
def scaleToMeters {α : Type} [Scalar α] (name : String) : α :=
  let cs := Quantity.symbol name
  if (Quantity.groundMotion? cs).isNone then 1
  else if "NM".toList.isPrefixOf cs then 1000000000
  else if "MM".toList.isPrefixOf cs then 1000
  else if "CM".toList.isPrefixOf cs then 100
  else 1

end InstrumentResponse
