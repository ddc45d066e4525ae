import InstrumentResponse.Report
import InstrumentResponse.Transfer

/-!
# Normalizing a chain

Gains are measured at different frequencies.  `Chain.normalize` moves those of a range of stages to
one reference frequency: the filter of a stage is scaled to modulus 1 there, and the gain takes up
the change, so that the sensitivity of the chain is the product of its gains.

A fault leaves the stages before it normalized, and the channel itself as it was.
-/

namespace InstrumentResponse

namespace Chain

variable {α : Type} [Analytic α]

/-- The frequency that gains are moved to: that of the documented sensitivity, otherwise that of the
last gain that has one. -/
def referenceFrequency (c : Channel α) : α :=
  if c.documented.value == 0 then
    ((c.stages.reverse.filterMap (·.gain?)).find? (!·.frequency == 0)).elim c.documented.frequency
      (·.frequency)
  else c.documented.frequency

/-- Is a gain measured, or a filter scaled, at another frequency than `f`? -/
def isStale (f : α) (main : Filter α) (gain : Gain α) : Bool :=
  !(gain.frequency == f) || main.scaleFrequency?.any (!· == f)

/-- A gain moved to `f` hertz, and the filter beside it with modulus 1 there; the filter is left
with scale 1 if it lets nothing through at one of the two frequencies. -/
def move (f interval : α) (main : Filter α) (gain : Gain α) :
    Filter α × Except (ChainFault α) (Gain α) :=
  let bare := main.withScale 1
  let modulus (x : α) : α := (bare.response? x interval).elim 0 (·.norm)
  let there := modulus gain.frequency
  let here := modulus f
  if there == 0 || here == 0 then
    (bare, .error (.nullResponse main.kind gain.frequency f))
  else
    ((main.withScale (1 / here)).withScaleFrequency f, .ok ⟨gain.value / there * here, f⟩)

/-- A stage with a gain, both moved to `f` hertz if need be, and the moved gain. -/
def normalizeStage (f : α) (s : Stage α) (gain : Gain α) :
    Stage α × Except (ChainFault α) (Gain α) :=
  match s.filter? with
  | none => (s, .ok gain)
  | some main =>
    if isStale f main gain && (main.response? f s.interval).isSome then
      match move f s.interval main gain with
      | (moved, .error fault) => (s.withFilter moved, .error fault)
      | (moved, .ok gain) => ((s.withFilter moved).withGain gain, .ok gain)
    else (s, .ok gain)

/-- The stages as normalization leaves them, and `product` times the gains in range.  Stages 0 are
passed over. -/
def normalizeStages (range : StageRange) (f : α) (product : α) :
    List (Stage α) → List (Stage α) × Except (Fault α) α
  | [] => ([], .ok product)
  | s :: rest =>
    let onward (s : Stage α) (product : α) :=
      let (others, result) := normalizeStages range f product rest
      (s :: others, result)
    if s.sequence = 0 ∨ range.contains s.sequence = false then onward s product
    else
      match s.gain? with
      | none => onward s product
      | some gain =>
        match normalizeStage f s gain with
        | (s, .error fault) => (s :: rest, .error (.chain s.sequence fault))
        | (s, .ok gain) => onward s (product * gain.value)

/-- The stages apart from stages 0. -/
def numbered (c : Channel α) : List (Stage α) := c.stages.filter (·.sequence != 0)

/-- Why the gains of a channel cannot be moved at all: its only stage has none, or one is 0. -/
def gainFault? (c : Channel α) : Option (Fault α) :=
  let missing :=
    match numbered c with
    | [only] => if only.gain?.isNone && !c.isPolynomial then some only.sequence else none
    | _ => none
  match missing with
  | some sequence => some (.chain sequence .noGain)
  | none =>
    (c.stages.find? fun s => s.gain?.any (·.value == 0)).map fun s => .chain s.sequence .zeroGain

/-- A warning if the product of the gains is a twentieth or more off the documented sensitivity. -/
def compareSensitivity (id : ChannelId) (documented computed : α) : List (Warning α) :=
  if documented == 0 then []
  else
    let difference := Scalar.abs (documented - computed) / Scalar.abs documented
    if 1 / 20 ≤ difference then [.sensitivityDiffers computed documented (difference * 100) id]
    else []

/-- Moves the gains of the stages in a range to the reference frequency. -/
def normalize (range : StageRange) : Step α Unit := fun c =>
  match gainFault? c with
  | some fault => (c, .fail fault)
  | none =>
    match normalizeStages range (referenceFrequency c) 1 c.stages with
    | (stages, .error fault) => ({ c with stages }, .fail fault)
    | (stages, .ok computed) =>
      let documented :=
        if (numbered c).length = 1 then { c.documented with value := computed } else c.documented
      let isWhole := (numbered c).all fun s => range.contains s.sequence
      let warnings :=
        if isWhole then compareSensitivity c.id documented.value computed else []
      ({ c with stages, computed, documented }, ⟨warnings, .ok ()⟩)

end Chain

end InstrumentResponse
