import InstrumentResponse.Channel
import InstrumentResponse.Record.Decoder

/-!
# Blockettes

Each element of a stage is written as the records of one blockette.  A blockette comes in two forms
with different numbers: inline, where it names the stage it belongs to, and as an entry of a
dictionary, where the stage is named by the reference around it and the fields stand further on.

* `Decoder.element`: the element of a blockette, its stage and its units.
* `Decoder.advances_element`: an inline element takes at least one line.
* `Decoder.reference`: the stages that a reference describes through dictionary entries.
-/

namespace InstrumentResponse.Record

/-- Where a blockette stands. -/
inductive Form where
  | inline
  | dictionary
deriving DecidableEq, Repr

/-- The blockettes that hold an element of a stage. -/
inductive Kind where
  | poleZero
  | coefficients
  | list
  | generic
  | decimation
  | gain
  | fir
  | polynomial
deriving DecidableEq, Repr

/-- The number of a blockette. -/
def Kind.blockette : Kind → Form → Nat
  | poleZero, .inline => 53
  | coefficients, .inline => 54
  | list, .inline => 55
  | generic, .inline => 56
  | decimation, .inline => 57
  | gain, .inline => 58
  | fir, .inline => 61
  | polynomial, .inline => 62
  | fir, .dictionary => 41
  | polynomial, .dictionary => 42
  | poleZero, .dictionary => 43
  | coefficients, .dictionary => 44
  | list, .dictionary => 45
  | generic, .dictionary => 46
  | decimation, .dictionary => 47
  | gain, .dictionary => 48

/-- All blockettes that hold an element. -/
def Kind.all : List Kind :=
  [poleZero, coefficients, list, generic, decimation, gain, fir, polynomial]

/-- The blockette with a number. -/
def Kind.ofBlockette? (form : Form) (blockette : Nat) : Option Kind :=
  all.find? (·.blockette form == blockette)

/-- The field of the transfer function type, for the blockettes that have one. -/
def Form.typeField : Form → Nat
  | .inline => 3
  | .dictionary => 5

/-- The first field after the names of the stage and of the transfer function type. -/
def Kind.firstField : Kind → Form → Nat
  | poleZero, .inline | coefficients, .inline | polynomial, .inline => 5
  | fir, _ => 6
  | poleZero, .dictionary | coefficients, .dictionary | polynomial, .dictionary => 6
  | _, .inline => 4
  | _, .dictionary => 5

/-- The units of a stage as a blockette gives them. -/
structure Units where
  input : Quantity
  output : Quantity
  inputName : String
deriving DecidableEq, Repr

/-- An element as a blockette gives it. -/
structure Decoded where
  /-- The stage, none for an entry of a dictionary. -/
  sequence : Option Nat
  units : Option Units
  element : Element Float
deriving DecidableEq, Repr

/-- A stage with one more element; it takes the units of the first element that has some. -/
def absorb (s : Stage Float) (d : Decoded) : Stage Float :=
  let s := { s with elements := s.elements ++ [d.element] }
  match d.units with
  | some u =>
    if s.hasUnits then s
    else { s with input := u.input, output := u.output, inputName := u.inputName }
  | none => s

namespace Line

/-- The value of a line as the number of a stage. -/
def sequence (l : Line) : Except ReadFault Nat := l.smallCount .sequenceNumber

/-- Where the roots of a pole-zero filter lie. -/
def plane (l : Line) : Except ReadFault RootPlane := do
  match ← l.code with
  | 'A' => return .laplace
  | 'B' => return .hertz
  | 'D' => return .digital
  | c => throw (l.refuse (.transferType c))

def symmetry (l : Line) : Except ReadFault Symmetry := do
  match ← l.code with
  | 'A' => return .asymmetric
  | 'B' => return .odd
  | 'C' => return .even
  | c => throw (l.refuse (.symmetryCode c))

/-- The transfer function type must be the one that a blockette allows. -/
def expectType (l : Line) (expected : Char) (refusal : Char → Cause) : Except ReadFault Unit := do
  let c ← l.code
  if c = expected then return () else throw (l.refuse (refusal c))

/-- The value of a row, which may begin with an index. -/
def indexedValue (l : Line) : Except ReadFault Float :=
  l.numberAt (if 2 ≤ l.tokens.length then 1 else 0)

/-- The error of a row `index value error`, 0 if it is left out. -/
def indexedError (l : Line) : Except ReadFault Float :=
  if 3 ≤ l.tokens.length then l.numberAt 2 else .ok 0

/-- A row with a root. -/
def root (l : Line) : Except ReadFault (Phasor Float) := do
  let re ← l.numberAt 1
  let im ← l.numberAt 2
  return ⟨re, im⟩

/-- A row of a response list, which may begin with an index. -/
def listRow (l : Line) : Except ReadFault (Float × Float × Float) := do
  let offset ←
    match l.tokens.length with
    | 6 => pure 1
    | 5 => pure 0
    | n => throw (l.refuse (.rowFormat n))
  let frequency ← l.numberAt offset
  let amplitude ← l.numberAt (offset + 1)
  let phase ← l.numberAt (offset + 3)
  return (frequency, amplitude, phase)

/-- A row with a corner, which may begin with an index. -/
def corner (l : Line) : Except ReadFault (Float × Float) := do
  let offset := if 3 ≤ l.tokens.length then 1 else 0
  let frequency ← l.numberAt offset
  let slope ← l.numberAt (offset + 1)
  return (frequency, slope)

/-- A row with a coefficient and its error. -/
def coefficientRow (l : Line) : Except ReadFault (Float × Float) := do
  let value ← l.indexedValue
  let error ← l.indexedError
  return (value, error)

end Line

namespace Decoder

/-- The stage of an inline blockette. -/
def sequence (form : Form) (blockette field : Nat) : Decoder (Option Nat) :=
  match form with
  | .inline => do
    let l ← take blockette field
    return some (← l.sequence)
  | .dictionary => pure none

theorem advances_sequence (blockette field : Nat) : (sequence .inline blockette field).Advances :=
  (advances_take blockette field).bind _

/-- The value of a record as a number. -/
def decimal (blockette field : Nat) : Decoder Float := do
  let l ← take blockette field
  l.decimal

/-- The value of a record as a count. -/
def count (blockette field : Nat) : Decoder Nat := do
  let l ← take blockette field
  l.count

theorem advances_count (blockette field : Nat) : (count blockette field).Advances :=
  (advances_take blockette field).bind _

/-- The first character of the value of a record. -/
def code (blockette field : Nat) : Decoder Char := do
  let l ← take blockette field
  l.code

/-- A unit description and the quantity it stands for, unless units are left undecoded. -/
def unit (undecoded : Bool) (blockette field : Nat) : Decoder (Quantity × String) := do
  let l ← take blockette field
  let name ← l.value
  if undecoded then return (.undecoded, name)
  let quantity := Quantity.read name
  if quantity = .undefined then noteUnit name
  return (quantity, name)

/-- The input and output units of a stage, in two records. -/
def units (undecoded : Bool) (blockette field : Nat) : Decoder Units := do
  let (input, inputName) ← unit undecoded blockette field
  let (output, _) ← unit undecoded blockette (field + 1)
  return ⟨input, output, inputName⟩

/-! ## The blockettes -/

variable [Memory]

def poleZero (form : Form) (undecoded : Bool) : Decoder Decoded := do
  let b := Kind.poleZero.blockette form
  let first := Kind.poleZero.firstField form
  let typeLine ← take b form.typeField
  let plane ← typeLine.plane
  let sequence ← sequence form b 4
  let units ← units undecoded b first
  let scale ← decimal b (first + 2)
  let scaleFrequency ← decimal b (first + 3)
  let zeroCount ← count b (first + 4)
  let poleCount ← count b (first + 9)
  let zeros ← table b (first + 5) zeroCount "zeros" Line.root
  let poles ← table b (first + 10) poleCount "poles" Line.root
  return ⟨sequence, some units, .filter (.poleZero ⟨plane, scale, scaleFrequency, zeros, poles⟩)⟩

/-- Coefficients without a denominator are the taps of a finite impulse response. -/
def coefficientsFilter (numerator denominator : List Float) : Filter Float :=
  if denominator.isEmpty then .fir ⟨.asymmetric, numerator, 1⟩
  else .recursive ⟨numerator, denominator, 1⟩

def coefficients (form : Form) (undecoded : Bool) : Decoder Decoded := do
  let b := Kind.coefficients.blockette form
  let first := Kind.coefficients.firstField form
  let typeLine ← take b form.typeField
  typeLine.expectType 'D' .coefficientsType
  let sequence ← sequence form b 4
  let units ← units undecoded b first
  let numeratorCount ← count b (first + 2)
  let denominatorCount ← count b (first + 5)
  let numerator ← table b (first + 3) numeratorCount "numerators" Line.indexedValue
  let denominator ← table b (first + 6) denominatorCount "denominators" Line.indexedValue
  return ⟨sequence, some units, .filter (coefficientsFilter numerator denominator)⟩

def list (form : Form) (undecoded : Bool) : Decoder Decoded := do
  let b := Kind.list.blockette form
  let first := Kind.list.firstField form
  let sequence ← sequence form b 3
  let units ← units undecoded b first
  let rowCount ← count b (first + 2)
  let rows ← table b (first + 3) rowCount "response list rows" Line.listRow
  return ⟨sequence, some units,
    .filter (.list ⟨rows.map (·.1), rows.map (·.2.1), rows.map (·.2.2)⟩)⟩

def generic (form : Form) (undecoded : Bool) : Decoder Decoded := do
  let b := Kind.generic.blockette form
  let first := Kind.generic.firstField form
  let sequence ← sequence form b 3
  let units ← units undecoded b first
  let cornerCount ← count b (first + 2)
  let corners ← table b (first + 3) cornerCount "corners" Line.corner
  return ⟨sequence, some units, .filter (.generic ⟨corners.map (·.1), corners.map (·.2)⟩)⟩

/-- The sample interval of a sampling rate, 0 for the rate 0. -/
def intervalOfRate (rate : Float) : Float := if rate == 0 then 0 else 1 / rate

def decimation (form : Form) : Decoder Decoded := do
  let b := Kind.decimation.blockette form
  let first := Kind.decimation.firstField form
  let sequence ← sequence form b 3
  let rate ← decimal b first
  let factorLine ← take b (first + 1)
  let factor ← factorLine.smallCount fun _ => .decimationFactor
  let offsetLine ← take b (first + 2)
  let offset ← offsetLine.smallCount fun _ => .decimationOffset
  let estimatedDelay ← decimal b (first + 3)
  let appliedCorrection ← decimal b (first + 4)
  return ⟨sequence, none,
    .decimation ⟨intervalOfRate rate, factor, offset, estimatedDelay, appliedCorrection⟩⟩

/-- The calibrations after a gain are counted but not looked at. -/
def gain (form : Form) : Decoder Decoded := do
  let b := Kind.gain.blockette form
  let first := Kind.gain.firstField form
  let sequence ← sequence form b 3
  let value ← decimal b first
  let frequency ← decimal b (first + 1)
  let calibrations ← count b (first + 2)
  let _ ← rows b (first + 3) calibrations "calibrations" fun _ => .ok ()
  return ⟨sequence, none, .gain ⟨value, frequency⟩⟩

def fir (form : Form) (undecoded : Bool) : Decoder Decoded := do
  let b := Kind.fir.blockette form
  let first := Kind.fir.firstField form
  let sequence ← sequence form b 3
  let symmetryLine ← take b 5
  let symmetry ← symmetryLine.symmetry
  let units ← units undecoded b first
  let tapCount ← count b (first + 2)
  let taps ← table b (first + 3) tapCount "FIR coefficients" Line.indexedValue
  return ⟨sequence, some units, .filter (.fir ⟨symmetry, taps, 1⟩)⟩

def polynomial (form : Form) (undecoded : Bool) : Decoder Decoded := do
  let b := Kind.polynomial.blockette form
  let first := Kind.polynomial.firstField form
  let typeLine ← take b form.typeField
  typeLine.expectType 'P' .polynomialType
  let sequence ← sequence form b 4
  let units ← units undecoded b first
  let approximation ← code b (first + 2)
  let frequencyUnit ← code b (first + 3)
  let lowerFrequency ← decimal b (first + 4)
  let upperFrequency ← decimal b (first + 5)
  let lowerBound ← decimal b (first + 6)
  let upperBound ← decimal b (first + 7)
  let maxError ← decimal b (first + 8)
  let coefficientCount ← count b (first + 9)
  let rows ← table b (first + 10) coefficientCount "polynomial coefficients" Line.coefficientRow
  return ⟨sequence, some units, .filter (.polynomial
    { approximation, frequencyUnit, lowerFrequency, upperFrequency, lowerBound, upperBound, maxError,
      coefficients := rows.map (·.1), errors := rows.map (·.2) })⟩

/-- The element of a blockette. -/
def element (kind : Kind) (form : Form) (undecoded : Bool) : Decoder Decoded :=
  match kind with
  | .poleZero => poleZero form undecoded
  | .coefficients => coefficients form undecoded
  | .list => list form undecoded
  | .generic => generic form undecoded
  | .decimation => decimation form
  | .gain => gain form
  | .fir => fir form undecoded
  | .polynomial => polynomial form undecoded

/-- An inline element takes at least one line. -/
theorem advances_element (kind : Kind) (undecoded : Bool) :
    (element kind .inline undecoded).Advances := by
  cases kind with
  | poleZero | coefficients | polynomial => exact (advances_take _ _).bind _
  | list | generic | decimation | gain | fir => exact (advances_sequence _ _).bind _

/-! ## References -/

/-- The elements of a referenced stage: `n` dictionary entries. -/
def entriesOf (undecoded : Bool) (s : Stage Float) : Nat → Decoder (Stage Float)
  | 0 => pure s
  | n + 1 => do
    match ← peek with
    | none => endOfInput 60 5
    | some l =>
      match Kind.ofBlockette? .dictionary l.blockette with
      | some kind =>
        let d ← element kind .dictionary undecoded
        entriesOf undecoded (absorb s d) n
      | none =>
        fail (l.refuse (if l.blockette = 60 then .stageCut else .strayFilter l.blockette))

/-- A referenced stage. -/
def referencedStage (undecoded : Bool) : Decoder (Stage Float) := do
  let l ← take 60 4
  let sequence ← l.sequence
  let responses ← count 60 5
  entriesOf undecoded (.empty sequence) responses

/-- The `n` stages of a reference after its first, each of which repeats the number of stages. -/
def otherStages (undecoded : Bool) (stageCount : Nat) : Nat → Decoder (List (Stage Float))
  | 0 => pure []
  | n + 1 => do
    let l ← take 60 3
    let again ← l.count
    if again = stageCount then
      let s ← referencedStage undecoded
      let rest ← otherStages undecoded stageCount n
      return s :: rest
    else fail (l.refuse (.stageCount again stageCount))

/-- The stages of a reference whose number of stages has been read, which are refused before any of
them is read if they cannot be held. -/
def stagesOf (undecoded : Bool) (stageCount : Nat) : Decoder (List (Stage Float)) :=
  if Memory.canHold "referenced stages" stageCount then
    if stageCount = 0 then pure []
    else do
      let s ← referencedStage undecoded
      let rest ← otherStages undecoded stageCount (stageCount - 1)
      return s :: rest
  else fail (.unreservable "referenced stages" stageCount)

/-- The stages that a reference describes. -/
def reference (undecoded : Bool) : Decoder (List (Stage Float)) := do
  let stageCount ← count 60 3
  stagesOf undecoded stageCount

theorem advances_reference (undecoded : Bool) : (reference undecoded).Advances :=
  (advances_count 60 3).bind _

end Decoder

end InstrumentResponse.Record
