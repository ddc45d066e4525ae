import InstrumentResponse.Filter
import InstrumentResponse.Instant
import InstrumentResponse.Quantity

/-!
# Channels

A channel of a station is described, for one epoch, by the chain of stages that its signal runs
through.  Stage 0 stands apart: its gain is the documented sensitivity of the whole chain.
-/

namespace InstrumentResponse

/-- The four codes of a channel. -/
structure ChannelId where
  network : String
  station : String
  location : String
  channel : String
deriving DecidableEq, Repr, Inhabited

/-- The four codes with points between them. -/
def ChannelId.text (c : ChannelId) : String :=
  c.network ++ "." ++ c.station ++ "." ++ c.location ++ "." ++ c.channel

/-- The list with its first element on which `f` is defined replaced by the value there. -/
def replaceFirst {β : Type} (f : β → Option β) : List β → List β
  | [] => []
  | b :: rest =>
    match f b with
    | some replaced => replaced :: rest
    | none => b :: replaceFirst f rest

/-- A stage of a chain. -/
structure Stage (α : Type) where
  sequence : Nat
  input : Quantity
  output : Quantity
  /-- The unit description that `input` was read from. -/
  inputName : String
  elements : List (Element α)
deriving DecidableEq, Repr

namespace Stage

variable {α : Type}

/-- A stage without elements and units. -/
def empty (sequence : Nat) : Stage α := ⟨sequence, .undefined, .undefined, "", []⟩

/-- The first filter of a stage. -/
def filter? (s : Stage α) : Option (Filter α) := s.elements.findSome? Element.filter?

/-- The first decimation of a stage. -/
def decimation? (s : Stage α) : Option (Decimation α) := s.elements.findSome? Element.decimation?

/-- The first gain of a stage. -/
def gain? (s : Stage α) : Option (Gain α) := s.elements.findSome? Element.gain?

/-- Does a stage hold gains, and nothing else? -/
def isGainOnly (s : Stage α) : Bool := !s.elements.isEmpty && s.elements.all (·.gain?.isSome)

/-- Is a unit known, or deliberately not looked at? -/
def hasUnits (s : Stage α) : Bool := s.input != .undefined || s.output != .undefined

/-- The sample interval that the filter of a stage works at, 0 without a decimation. -/
def interval [Scalar α] (s : Stage α) : α := s.decimation?.elim 0 (·.interval)

/-- A stage with its first filter replaced. -/
def withFilter (s : Stage α) (f : Filter α) : Stage α :=
  { s with elements := replaceFirst (fun e => e.filter?.map fun _ => .filter f) s.elements }

/-- A stage with its first gain replaced. -/
def withGain (s : Stage α) (g : Gain α) : Stage α :=
  { s with elements := replaceFirst (fun e => e.gain?.map fun _ => .gain g) s.elements }

/-- A stage with its first response list replaced, none if it has no list. -/
def withList? (s : Stage α) (l : ResponseList α) : Option (Stage α) :=
  if s.elements.any (·.list?.isSome) then
    some { s with
      elements := replaceFirst (fun e => e.list?.map fun _ => .filter (.list l)) s.elements }
  else none

end Stage

/-- Delays and sampling of a chain, in seconds. -/
structure Timing (α : Type) where
  /-- The group delays that the filters have by their lengths. -/
  computedDelay : α
  estimatedDelay : α
  appliedCorrection : α
  /-- The sample interval after the last decimation. -/
  interval : α
deriving DecidableEq, Repr

/-- One epoch of a channel. -/
structure Channel (α : Type) where
  id : ChannelId
  start : Option Instant
  /-- The end of the epoch, none if it is still open. -/
  stop : Option Instant
  stages : List (Stage α)
  /-- The documented sensitivity, of value 0 if there is none. -/
  documented : Gain α
  /-- The product of the gains of the stages. -/
  computed : α
  timing : Timing α
  /-- The factor that turns the response into one per meter. -/
  unitScale : α
deriving DecidableEq, Repr

namespace Channel

variable {α : Type}

/-- A channel without stages. -/
def empty [Scalar α] (id : ChannelId) (start stop : Option Instant) : Channel α :=
  ⟨id, start, stop, [], ⟨0, 0⟩, 0, ⟨0, 0, 0, 0⟩, 1⟩

/-- The elements of all stages. -/
def elements (c : Channel α) : List (Element α) := c.stages.flatMap (·.elements)

/-- The first response list of a channel. -/
def list? (c : Channel α) : Option (ResponseList α) := c.elements.findSome? Element.list?

/-- A channel with its first response list replaced. -/
def withList (c : Channel α) (l : ResponseList α) : Channel α :=
  { c with stages := replaceFirst (·.withList? l) c.stages }

def isPolynomial (c : Channel α) : Bool := c.elements.any Element.isPolynomial

/-- The input of the first stage that has units. -/
def input (c : Channel α) : Quantity := (c.stages.find? (·.hasUnits)).elim .undefined (·.input)

/-- The output of the last stage that has units. -/
def output (c : Channel α) : Quantity :=
  (c.stages.reverse.find? (·.hasUnits)).elim .undefined (·.output)

end Channel

end InstrumentResponse
