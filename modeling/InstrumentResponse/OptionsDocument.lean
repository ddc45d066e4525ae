import InstrumentResponse.Json
import InstrumentResponse.Options

/-!
# Options as a JSON document

`Options.ofDocument?` reads options from a JSON object.  Members that are missing keep their standard
values, members that are not known are passed over, and a known one must not be repeated.  An array
gives the options in their order; it may end early.
-/

namespace InstrumentResponse

namespace Json

def bool? : Json → Option Bool
  | .bool b => some b
  | _ => none

/-- A number as a double; it must not be too large for one. -/
def double? : Json → Option Float
  | .number numeral => (Decimal.readDouble? numeral).filter (·.isFinite)
  | _ => none

/-- A whole number of 32 bits. -/
def stageNumber? : Json → Option Nat
  | .number numeral => (Decimal.readDigits? numeral.toList).filter (· ≤ Decimal.greatest32)
  | _ => none

/-- A value that may be null. -/
def orNull? {β : Type} (read : Json → Option β) : Json → Option (Option β)
  | .null => some none
  | v => (read v).map some

/-- The name of a choice: a string, or an object whose only member has that key and is null. -/
def name? : Json → Option String
  | .string s => s
  | .object [(s, .null)] => s
  | _ => none

end Json

namespace OutputUnit

/-- The output unit of a choice in a document. -/
def ofDocument? (v : Json) : Option OutputUnit :=
  match v.name? with
  | some "Displacement" => some displacement
  | some "Velocity" => some velocity
  | some "Acceleration" => some acceleration
  | some "Default" => some asInput
  | _ => none

end OutputUnit

namespace ListMode

/-- The list mode of a choice in a document. -/
def ofDocument? (v : Json) : Option ListMode :=
  match v.name? with
  | some "Native" => some native
  | some "InterpolateInput" => some interpolateInput
  | some "InterpolateOutput" => some interpolateOutput
  | _ => none

end ListMode

namespace Document

/-- A setting of a structure that can be read from a document. -/
structure Setting (σ : Type) where
  key : String
  /-- The structure with the setting replaced by what a value denotes. -/
  set : Json → σ → Option σ

variable {σ : Type}

/-- Settings from members of an object, in the order of the members. -/
def ofMembers (settings : List (Setting σ)) :
    List (Option String × Json) → List String → σ → Option σ
  | [], _, s => some s
  | (none, _) :: _, _, _ => none
  | (some key, v) :: rest, seen, s =>
    match settings.find? (·.key == key) with
    | none => ofMembers settings rest seen s
    | some setting =>
      if seen.contains key then none
      else (setting.set v s).bind (ofMembers settings rest (key :: seen))

/-- Settings from the items of an array, in the order of the settings. -/
def ofItems : List (Setting σ) → List Json → σ → Option σ
  | _, [], s => some s
  | [], _ :: _, _ => none
  | setting :: settings, v :: items, s => (setting.set v s).bind (ofItems settings items)

end Document

namespace StageRange

/-- The bounds of a range in a document. -/
def settings : List (Document.Setting StageRange) :=
  [⟨"start", fun v r => (v.orNull? Json.stageNumber?).map fun start => { r with start }⟩,
    ⟨"stop", fun v r => (v.orNull? Json.stageNumber?).map fun stop => { r with stop }⟩]

/-- A range in a document: an object, or an array of both bounds. -/
def ofDocument? : Json → Option StageRange
  | .object members => Document.ofMembers settings members [] all
  | .array items => if items.length = 2 then Document.ofItems settings items all else none
  | _ => none

end StageRange

namespace Options

/-- The options in a document, in their order. -/
def settings : List (Document.Setting (Options Float)) :=
  [⟨"stages", fun v o => (StageRange.ofDocument? v).map fun stages => { o with stages }⟩,
    ⟨"use_documented_sensitivity",
      fun v o => v.bool?.map fun useDocumented => { o with useDocumented }⟩,
    ⟨"use_estimated_delay",
      fun v o => v.bool?.map fun useEstimatedDelay => { o with useEstimatedDelay }⟩,
    ⟨"list_mode", fun v o => (ListMode.ofDocument? v).map fun listMode => { o with listMode }⟩,
    ⟨"output_unit",
      fun v o => (OutputUnit.ofDocument? v).map fun outputUnit => { o with outputUnit }⟩,
    ⟨"polynomial_operating_point",
      fun v o => (v.orNull? Json.double?).map fun operatingPoint => { o with operatingPoint }⟩,
    ⟨"default_units", fun v o => v.bool?.map fun undecoded => { o with undecoded }⟩]

/-- The options that a document denotes. -/
def ofDocument? (text : String) : Option (Options Float) :=
  match Json.read? text with
  | some (.object members) => Document.ofMembers settings members [] standard
  | some (.array items) => Document.ofItems settings items standard
  | _ => none

end Options

end InstrumentResponse
