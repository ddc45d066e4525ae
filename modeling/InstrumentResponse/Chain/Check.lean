import InstrumentResponse.Chain.Canonical

/-!
# Checking a chain

`Chain.check` accepts a channel whose stages can be evaluated: at most one filter, decimation and
gain in each, and units that fit from stage to stage.  It leaves every stage with a filter as that
filter in canonical form, the decimation and the gain, and writes down the documented sensitivity
and the sums of the delays.

A fault is found in one stage.  That stage is left without elements, the ones before it as if the
check had succeeded, the ones after it and the channel itself as they were.
-/

namespace InstrumentResponse

namespace Chain

/-- The elements of a stage, each at its place. -/
structure Parts (α : Type) where
  filter : Option (Filter α)
  decimation : Option (Decimation α)
  gain : Option (Gain α)

/-- No elements. -/
def Parts.none {α : Type} : Parts α := ⟨.none, .none, .none⟩

/-- What a stage has to know of the chain around it. -/
structure Surroundings where
  id : ChannelId
  /-- How many stages of the chain hold more than gains. -/
  functional : Nat

/-- What the stages of a chain pass on from one to the next. -/
structure Passed (α : Type) where
  timing : Timing α
  /-- The last gain of a stage 0. -/
  documented : Option (Gain α)
  /-- The last stage with a filter, apart from stages 0, and what it gives out. -/
  previous : Option (Nat × Quantity)

variable {α : Type} [Scalar α]

/-- What the first stage is given. -/
def Passed.start : Passed α := ⟨⟨0, 0, 0, 0⟩, none, none⟩

/-- A filter in canonical form, if it may stand in a stage at all. -/
def accept (around : Surroundings) (sequence : Nat) : Filter α → Report α (Filter α)
  | .fir h => do return .fir (← h.canonical around.id)
  | .generic corners => do
    .warn (.genericIgnored sequence around.id)
    return .generic corners
  | .list l =>
    if 1 < around.functional then .fail (.chain sequence .listNotAlone) else .done (.list l)
  | f => .done f

/-- One more element in its place. -/
def place (around : Surroundings) (sequence : Nat) (parts : Parts α) :
    Element α → Report α (Parts α)
  | .decimation d =>
    if parts.decimation.isSome then .fail (.chain sequence .secondDecimation)
    else .done { parts with decimation := some d }
  | .gain g =>
    if parts.gain.isSome then .fail (.chain sequence .secondGain)
    else .done { parts with gain := some g }
  | .filter f =>
    if parts.filter.isSome then .fail (.chain sequence .secondFilter)
    else do return { parts with filter := some (← accept around sequence f) }

/-- The merged elements of a stage, each in its place. -/
def arrange (around : Surroundings) (s : Stage α) : Report α (Parts α) := do
  let merged ← .ofExcept ((merge s.elements).mapError (.chain s.sequence))
  merged.foldlM (place around s.sequence) .none

/-- The timing of a chain with one more filter. -/
def Passed.timingAfter (p : Passed α) (f : Filter α) : Option (Decimation α) → Timing α
  | none => p.timing
  | some d =>
    let t := p.timing
    { computedDelay :=
        if 0 < f.tapCount then t.computedDelay + ((f.tapCount : α) - 1) / 2 * d.interval
        else t.computedDelay
      estimatedDelay := t.estimatedDelay + d.estimatedDelay
      appliedCorrection := t.appliedCorrection + d.appliedCorrection
      interval := d.interval * (d.factor : α) }

omit [Scalar α] in
/-- The gain of stage 0 is the documented sensitivity. -/
def Passed.documentedAfter (p : Passed α) (s : Stage α) (gain : Option (Gain α)) : Option (Gain α) :=
  if s.sequence = 0 then gain.or p.documented else p.documented

/-- Why a filter cannot stand where it does. -/
def misfit? (p : Passed α) (s : Stage α) (f : Filter α) (decimation : Option (Decimation α)) :
    Option (Fault α) :=
  if s.input = .undefined ∨ s.output = .undefined then some (.chain s.sequence .undefinedUnits)
  else if decimation.isNone && f.isSampled then
    some (.chain s.sequence (.decimationMissing f.kind))
  else
    match p.previous with
    | none => none
    | some (previous, output) =>
      if output = s.input then none
      else some (.unitsMismatch previous output s.sequence s.input)

/-- The gain of a stage with a filter, 1 if it has none. -/
def gainOr (around : Surroundings) (sequence : Nat) : Option (Gain α) → Report α (Gain α)
  | some g => .done g
  | none => do
    .warn (.gainAssumed sequence around.id)
    return ⟨1, 1⟩

/-- A stage in canonical form, and what it passes on. -/
def checkStage (around : Surroundings) (p : Passed α) (s : Stage α) :
    Report α (Stage α × Passed α) := do
  let parts ← arrange around s
  let documented := p.documentedAfter s parts.gain
  match parts.filter with
  | none =>
    if parts.decimation.isSome then .fail (.chain s.sequence .strayDecimation)
    else return ({ s with elements := parts.gain.toList.map .gain }, { p with documented })
  | some f =>
    match misfit? p s f parts.decimation with
    | some fault => .fail fault
    | none =>
      let gain ← gainOr around s.sequence parts.gain
      let elements := [.filter f] ++ parts.decimation.toList.map .decimation ++ [.gain gain]
      return ({ s with elements },
        { timing := p.timingAfter f parts.decimation
          documented
          previous := if s.sequence = 0 then p.previous else some (s.sequence, s.output) })

/-- The stages as the check leaves them, and what the last one passes on. -/
def checkStages (around : Surroundings) (p : Passed α) :
    List (Stage α) → List (Stage α) × Report α (Passed α)
  | [] => ([], .done p)
  | s :: rest =>
    match checkStage around p s with
    | ⟨warnings, .error fault⟩ => ({ s with elements := [] } :: rest, ⟨warnings, .error fault⟩)
    | ⟨warnings, .ok (checked, passed)⟩ =>
      let (others, report) := checkStages around passed rest
      (checked :: others, ⟨warnings ++ report.warnings, report.result⟩)

/-- Checks a channel and brings it into canonical form. -/
def check : Step α Unit := fun c =>
  let around := ⟨c.id, c.stages.countP (!·.isGainOnly)⟩
  let (stages, report) := checkStages around .start c.stages
  match report.result with
  | .error fault => ({ c with stages }, ⟨report.warnings, .error fault⟩)
  | .ok passed =>
    ({ c with
        stages
        documented := passed.documented.getD ⟨0, 0⟩
        timing := passed.timing }, ⟨report.warnings, .ok ()⟩)

end Chain

end InstrumentResponse
