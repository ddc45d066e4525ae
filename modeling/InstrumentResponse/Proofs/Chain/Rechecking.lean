import InstrumentResponse.Proofs.Chain.CanonicalForm

/-!
# Checking a chain twice

A chain in canonical form is a fixed point of the check, in exact numbers, apart from the documented
sensitivity: a stage 0 with a filter and without a gain is given the gain 1, and a second check
takes that for a documented one.

* `Filter.canonicalForm_canonicalForm`: filters in canonical form stay as they are.
* `Kindred`: stages that the check cannot tell apart; `check_of_kindred`: if it accepts the one
  chain, it accepts the other.
* `check_of_settled`: a kindred chain in canonical form is left as it is.
* `check_check_eq_iff`: when a second check changes nothing.
-/

namespace InstrumentResponse

open Chain

variable {α : Type}

/-! ## Stages that the check cannot tell apart -/

/-- A stage is gains only if it has a gain, and neither a filter nor a decimation. -/
theorem Stage.Holds.isGainOnly_eq {s : Stage α} {q : Parts α} (h : s.Holds q) :
    s.isGainOnly = (q.filter.isNone && q.gain.isSome) := by
  cases hFilter : q.filter with
  | none =>
    have hJoined : filters (joined s.elements) = [] := by rw [h.filter_eq, hFilter]; rfl
    have hFilters : filters s.elements = [] := (filters_joined_eq_nil_iff _).mp hJoined
    have hSame : joined s.elements = s.elements := joined_of_filters_nil hFilters
    have hDecimations : decimations s.elements = [] := by
      rw [← hSame, h.decimation_eq, h.filter_of_decimation hFilter]
      rfl
    have hElements : s.elements = q.gain.toList.map .gain := by
      rw [← h.gain_eq, hSame]
      exact eq_map_gain hFilters hDecimations
    rw [isGainOnly, hElements]
    cases q.gain <;> rfl
  | some f =>
    have hFilters : filters s.elements ≠ [] := by
      intro hNone
      have hJoined := h.filter_eq
      rw [(filters_joined_eq_nil_iff _).mpr hNone, hFilter] at hJoined
      cases hJoined
    have hSome : s.elements.all (·.gain?.isSome) = false := by
      rw [← Bool.not_eq_true]
      intro hAll
      apply hFilters
      refine List.filterMap_eq_nil_iff.mpr fun e he => ?_
      have hGain := List.all_eq_true.mp hAll e he
      rcases e with f | d | g
      · cases hGain
      · rfl
      · rfl
    rw [isGainOnly, hSome, Bool.and_false]
    rfl

def Filter.isList : Filter α → Bool
  | .list _ => true
  | _ => false

/-- What the check looks at in a filter: whether it works on samples, whether it is a table, and the
number of its taps. -/
def Filter.traits (f : Filter α) : Bool × Bool × Nat := (f.isSampled, f.isList, f.tapCount)

namespace Chain

/-- Stages that the check cannot tell apart. -/
structure Kindred (s t : Stage α) : Prop where
  sequence_eq : t.sequence = s.sequence
  input_eq : t.input = s.input
  output_eq : t.output = s.output
  holds : t.Holds t.parts
  traits_eq : t.parts.filter.map Filter.traits = s.parts.filter.map Filter.traits
  decimation_eq : t.parts.decimation = s.parts.decimation
  gain_eq : s.parts.filter = none → t.parts.gain.isSome = s.parts.gain.isSome

theorem Kindred.filter_eq_none_iff {s t : Stage α} (h : Kindred s t) :
    t.parts.filter = none ↔ s.parts.filter = none := by
  have hTraits := h.traits_eq
  constructor
  · intro hNone
    rw [hNone] at hTraits
    exact Option.map_eq_none_iff.mp hTraits.symm
  · intro hNone
    rw [hNone] at hTraits
    exact Option.map_eq_none_iff.mp hTraits

theorem Kindred.exists_filter {s t : Stage α} (h : Kindred s t) {f : Filter α}
    (hf : t.parts.filter = some f) :
    ∃ g, s.parts.filter = some g ∧ g.traits = f.traits := by
  have hTraits := h.traits_eq
  rw [hf] at hTraits
  exact Option.map_eq_some_iff.mp hTraits.symm

theorem Kindred.isGainOnly_eq {s t : Stage α} (h : Kindred s t) (hs : s.Holds s.parts) :
    t.isGainOnly = s.isGainOnly := by
  rw [h.holds.isGainOnly_eq, hs.isGainOnly_eq]
  cases hFilter : s.parts.filter with
  | none => rw [h.filter_eq_none_iff.mpr hFilter, h.gain_eq hFilter]
  | some g =>
    cases hOther : t.parts.filter with
    | none =>
      rw [h.filter_eq_none_iff.mp hOther] at hFilter
      cases hFilter
    | some f => rfl

theorem Kindred.hasFilter_iff {s t : Stage α} (h : Kindred s t) (hs : s.Holds s.parts) :
    HasFilter t ↔ HasFilter s := by
  rw [HasFilter, HasFilter, h.holds.filter_eq, hs.filter_eq, ne_eq, ne_eq,
    Option.toList_eq_nil_iff, Option.toList_eq_nil_iff, h.filter_eq_none_iff]

theorem Kindred.feeds_eq {s t : Stage α} (h : Kindred s t) (hs : s.Holds s.parts) :
    feeds t = feeds s := by
  have hEmpty : (filters (joined t.elements)).isEmpty = (filters (joined s.elements)).isEmpty := by
    rw [Bool.eq_iff_iff, List.isEmpty_iff, List.isEmpty_iff]
    exact not_iff_not.mp (h.hasFilter_iff hs)
  rw [feeds, feeds, hEmpty, h.sequence_eq]

theorem mayStand_of_isList {functional : Nat} {f g : Filter α} (hList : g.isList = f.isList)
    (h : MayStand functional g) : MayStand functional f := by
  intro l hf
  rw [hf] at hList
  cases g with
  | list l' => exact h l' rfl
  | _ => cases hList

theorem Kindred.stageWellFormed {functional : Nat} {s t : Stage α} (h : Kindred s t)
    (hs : s.Holds s.parts) (hWell : StageWellFormed functional s) :
    StageWellFormed functional t where
  filters_le := by
    rw [h.holds.filter_eq]
    exact length_toList_le_one _
  decimations_le := by
    rw [h.holds.decimation_eq]
    exact length_toList_le_one _
  gains_le := by
    rw [h.holds.gain_eq]
    exact length_toList_le_one _
  filter_of_decimation := by
    intro hDecimation hNone
    rw [h.holds.filter_eq, Option.toList_eq_nil_iff] at hNone
    rw [h.holds.decimation_eq, h.holds.filter_of_decimation hNone] at hDecimation
    exact hDecimation rfl
  units := by
    intro hFilter
    rw [h.input_eq, h.output_eq]
    exact hWell.units ((h.hasFilter_iff hs).mp hFilter)
  decimation_of_samples := by
    intro f hf hSamples
    rw [h.holds.filter_eq, Option.mem_toList] at hf
    obtain ⟨g, hg, hTraits⟩ := h.exists_filter hf
    have hSampled : g.isSampled = f.isSampled := congrArg (·.1) hTraits
    have hMem : g ∈ filters (joined s.elements) := by
      rw [hs.filter_eq, Option.mem_toList, hg]
    rw [h.holds.decimation_eq, h.decimation_eq, ← hs.decimation_eq]
    exact hWell.decimation_of_samples g hMem
      ((isSampled_iff g).mp (hSampled.trans ((isSampled_iff f).mpr hSamples)))
  list_alone := by
    intro f hf
    rw [h.holds.filter_eq, Option.mem_toList] at hf
    obtain ⟨g, hg, hTraits⟩ := h.exists_filter hf
    have hList : g.isList = f.isList := congrArg (·.2.1) hTraits
    have hMem : g ∈ filters (joined s.elements) := by
      rw [hs.filter_eq, Option.mem_toList, hg]
    exact mayStand_of_isList hList (hWell.list_alone g hMem)

/-! ## Chains that the check cannot tell apart -/

theorem countP_of_kindred {stages others : List (Stage α)} (h : List.Forall₂ Kindred stages others)
    (hHolds : ∀ s ∈ stages, s.Holds s.parts) :
    others.countP (!·.isGainOnly) = stages.countP (!·.isGainOnly) := by
  induction h with
  | nil => rfl
  | @cons s t stages others hKindred _ ih =>
    obtain ⟨hs, hRest⟩ := List.forall_mem_cons.mp hHolds
    rw [List.countP_cons, List.countP_cons, ih hRest, hKindred.isGainOnly_eq hs]

theorem decimationsOf_of_kindred {stages others : List (Stage α)}
    (h : List.Forall₂ Kindred stages others) : decimationsOf others = decimationsOf stages := by
  induction h with
  | nil => rfl
  | @cons s t stages others hKindred _ ih =>
    cases hDecimation : s.parts.decimation with
    | none =>
      rw [decimationsOf_cons_none hDecimation,
        decimationsOf_cons_none (hKindred.decimation_eq.trans hDecimation), ih]
    | some d =>
      rw [decimationsOf_cons_some hDecimation,
        decimationsOf_cons_some (hKindred.decimation_eq.trans hDecimation), ih]

variable [Scalar α]

/-- If the stages of one chain are accepted, so are kindred ones, whatever they are called. -/
theorem checkStages_of_kindred {around around' : Surroundings}
    (hFunctional : around'.functional = around.functional) {stages others : List (Stage α)}
    (h : List.Forall₂ Kindred stages others) {p q : Passed α} (hPrevious : q.previous = p.previous)
    {passed : Passed α} (hOk : (checkStages around p stages).2.result = .ok passed) :
    ∃ passed', (checkStages around' q others).2.result = .ok passed' := by
  induction h generalizing p q with
  | nil => exact ⟨q, rfl⟩
  | @cons s t stages others hKindred _ ih =>
    obtain ⟨checked, next, hStage, hRest, -⟩ := checkStages_cons_eq_ok hOk
    obtain ⟨hWell, hFits, hNext⟩ := of_checkStage_eq_ok hStage
    have hs : s.Holds s.parts := (checkStage_eq_ok hStage).1
    have hWell' : StageWellFormed around'.functional t := by
      rw [hFunctional]
      exact hKindred.stageWellFormed hs hWell
    have hFits' : HasFilter t → ∀ prev, q.previous = some prev → prev.2 = t.input := by
      intro hFilter prev hPrev
      rw [hPrevious] at hPrev
      rw [hKindred.input_eq]
      exact hFits ((hKindred.hasFilter_iff hs).mp hFilter) prev hPrev
    obtain ⟨⟨checked', next'⟩, hStage'⟩ := exists_checkStage hWell' hFits'
    have hNext' : next'.previous = next.previous := by
      rw [(of_checkStage_eq_ok hStage').2.2, hNext, hKindred.feeds_eq hs, hKindred.sequence_eq,
        hKindred.output_eq, hPrevious]
    obtain ⟨passed', hPassed'⟩ := ih hNext' hRest
    exact ⟨passed', checkStages_ok_cons hStage' hPassed'⟩

/-- If the one channel is accepted, so is one with kindred stages. -/
theorem check_of_kindred {c d : Channel α} (h : List.Forall₂ Kindred c.stages d.stages)
    (hOk : (check c).2.result = .ok ()) : (check d).2.result = .ok () := by
  have hHolds := (canonical_of_check hOk).2
  obtain ⟨passed, hStages⟩ := (check_eq_ok_iff_checkStages c).mp hOk
  exact (check_eq_ok_iff_checkStages d).mpr
    (checkStages_of_kindred (countP_of_kindred h hHolds) h rfl hStages)

theorem Kindred.tapDelay?_eq {s t : Stage α} (h : Kindred s t) : t.tapDelay? = s.tapDelay? := by
  rw [Stage.tapDelay?, Stage.tapDelay?, h.decimation_eq]
  cases hOther : t.parts.filter with
  | none => rw [h.filter_eq_none_iff.mp hOther]
  | some f =>
    obtain ⟨g, hg, hTraits⟩ := h.exists_filter hOther
    have hTaps : g.tapCount = f.tapCount := congrArg (·.2.2) hTraits
    rw [hg]
    cases s.parts.decimation with
    | none => rfl
    | some d => simp only [hTaps]

theorem tapDelaysOf_of_kindred {stages others : List (Stage α)}
    (h : List.Forall₂ Kindred stages others) : tapDelaysOf others = tapDelaysOf stages := by
  induction h with
  | nil => rfl
  | @cons s t stages others hKindred _ ih =>
    cases hDelay : s.tapDelay? with
    | none =>
      rw [tapDelaysOf_cons_none hDelay,
        tapDelaysOf_cons_none (hKindred.tapDelay?_eq.trans hDelay), ih]
    | some x =>
      rw [tapDelaysOf_cons_some hDelay,
        tapDelaysOf_cons_some (hKindred.tapDelay?_eq.trans hDelay), ih]

theorem timingOf_of_kindred {stages others : List (Stage α)}
    (h : List.Forall₂ Kindred stages others) : timingOf others = timingOf stages := by
  rw [timingOf, timingOf, decimationsOf_of_kindred h, tapDelaysOf_of_kindred h]

/-- A channel whose stages are in canonical form, and kindred to those of an accepted one, keeps
its stages and is given the delays of that one. -/
theorem check_of_settled {c d : Channel α} (h : List.Forall₂ Kindred c.stages d.stages)
    (hSettled : ∀ t ∈ d.stages, t.canonical = t) (hOk : (check c).2.result = .ok ()) :
    (check d).2.result = .ok () ∧
      (check d).1 =
        { d with documented := documentedOf d.stages, timing := timingOf c.stages } := by
  have hOther := check_of_kindred h hOk
  refine ⟨hOther, ?_⟩
  rw [(canonical_of_check hOther).1, Channel.canonical, timingOf_of_kindred h,
    List.map_congr_left hSettled, List.map_id']

/-! ## The canonical form of a canonical form -/

/-- The parts of a stage in canonical form. -/
def Parts.canonical (q : Parts α) : Parts α :=
  match q.filter with
  | .none => ⟨.none, .none, q.gain⟩
  | .some f => ⟨some f.canonicalForm, q.decimation, some (q.gain.getD ⟨1, 1⟩)⟩

omit [Scalar α] in
/-- The filter, the decimation and the gain, as far as they are there. -/
def Parts.elements (q : Parts α) : List (Element α) :=
  q.filter.toList.map .filter ++ (q.decimation.toList.map .decimation ++ q.gain.toList.map .gain)

omit [Scalar α] in
theorem holds_of_elements_eq {s : Stage α} {q : Parts α} (h : s.elements = q.elements)
    (hFilter : q.filter = none → q.decimation = none) : s.Holds q := by
  have hRest : filters (q.decimation.toList.map Element.decimation ++
      q.gain.toList.map Element.gain) = [] := by
    cases q.decimation <;> cases q.gain <;> rfl
  have hJoined : joined s.elements = q.elements := by
    rw [h, Parts.elements]
    cases q.filter with
    | none => exact joined_of_filters_nil hRest
    | some f => exact joinedFrom_of_filters_nil _ hRest
  have hFilters : filters q.elements = q.filter.toList := by
    rw [Parts.elements, filters_append, hRest, List.append_nil]
    cases q.filter <;> rfl
  have hDecimations : decimations q.elements = q.decimation.toList := by
    rw [Parts.elements]
    cases q.filter <;> cases q.decimation <;> cases q.gain <;> rfl
  have hGains : gains q.elements = q.gain.toList := by
    rw [Parts.elements]
    cases q.filter <;> cases q.decimation <;> cases q.gain <;> rfl
  exact ⟨hJoined ▸ hFilters, hJoined ▸ hDecimations, hJoined ▸ hGains, hFilter⟩

theorem elements_canonical (s : Stage α) : s.canonical.elements = s.parts.canonical.elements := by
  rw [Stage.canonical, Parts.canonicalElements, Parts.canonical]
  cases s.parts.filter <;> rfl

theorem filter_canonical_eq_none (q : Parts α) (h : q.canonical.filter = none) :
    q.canonical.decimation = none := by
  rw [Parts.canonical] at h ⊢
  cases hFilter : q.filter with
  | none => rfl
  | some f =>
    rw [hFilter] at h
    cases h

theorem holds_canonical (s : Stage α) : s.canonical.Holds s.parts.canonical :=
  holds_of_elements_eq (elements_canonical s) (filter_canonical_eq_none s.parts)

theorem parts_canonical (s : Stage α) : s.canonical.parts = s.parts.canonical :=
  (holds_canonical s).parts_eq

/-- A stage with its parts in place is canonical if its filter is, and has a gain beside it. -/
theorem canonical_eq_self {s : Stage α} {q : Parts α} (h : s.elements = q.elements)
    (hCanonical : q.canonical = q) : s.canonical = s := by
  have hParts : s.parts = q := by
    refine (holds_of_elements_eq h ?_).parts_eq
    rw [← hCanonical]
    exact filter_canonical_eq_none q
  have hElements : s.canonical.elements = s.elements := by
    rw [elements_canonical, hParts, hCanonical, h]
  exact congrArg (fun es => { s with elements := es }) hElements

theorem isList_canonicalForm (f : Filter α) : f.canonicalForm.isList = f.isList := by
  cases f <;> rfl

theorem isSampled_canonicalForm (f : Filter α) : f.canonicalForm.isSampled = f.isSampled := by
  cases f with
  | fir h =>
    have hEmpty := isEmpty_canonical (Fir.result_canonical default h)
    rw [Filter.canonicalForm, Filter.isSampled, Filter.isSampled, hEmpty]
  | _ => rfl

theorem traits_canonicalForm (f : Filter α) : f.canonicalForm.traits = f.traits := by
  rw [Filter.traits, Filter.traits, isSampled_canonicalForm, isList_canonicalForm,
    f.tapCount_canonicalForm]

theorem kindred_canonical {s : Stage α} (h : s.Holds s.parts) : Kindred s s.canonical where
  sequence_eq := rfl
  input_eq := rfl
  output_eq := rfl
  holds := by
    rw [parts_canonical]
    exact holds_canonical s
  traits_eq := by
    rw [parts_canonical, Parts.canonical]
    cases s.parts.filter with
    | none => rfl
    | some f => exact congrArg some (traits_canonicalForm f)
  decimation_eq := by
    rw [parts_canonical, Parts.canonical]
    cases hFilter : s.parts.filter with
    | none => exact (h.filter_of_decimation hFilter).symm
    | some f => rfl
  gain_eq := by
    intro hFilter
    rw [parts_canonical, Parts.canonical, hFilter]

/-! ## Assumed gains -/

/-- The gain of a filter that has none. -/
def assumedGain : Gain α := ⟨1, 1⟩

/-- Does a stage have a gain once it is checked, its own or an assumed one? -/
def isGained (s : Stage α) : Bool := s.parts.filter.isSome || s.parts.gain.isSome

/-- The stages 0 that have a gain once they are checked. -/
def gainedZeros (stages : List (Stage α)) : List (Stage α) :=
  stages.filter fun s => s.sequence == 0 && isGained s

omit [Scalar α] in
theorem gainedZeros_cons (s : Stage α) (stages : List (Stage α)) :
    gainedZeros (s :: stages) =
      if s.sequence = 0 ∧ isGained s = true then s :: gainedZeros stages
      else gainedZeros stages := by
  by_cases hGained : s.sequence = 0 ∧ isGained s = true
  · rw [if_pos hGained, gainedZeros, List.filter_cons_of_pos (by simpa using hGained)]
    rfl
  · rw [if_neg hGained, gainedZeros, List.filter_cons_of_neg (by simpa using hGained)]
    rfl

omit [Scalar α] in
theorem sensitivitiesOf_eq_filterMap (stages : List (Stage α)) :
    sensitivitiesOf stages = (gainedZeros stages).filterMap fun s => s.parts.gain := by
  induction stages with
  | nil => rfl
  | cons s stages ih =>
    rw [sensitivitiesOf_cons, gainedZeros_cons, ih]
    by_cases hZero : s.sequence = 0
    · cases hGain : s.parts.gain with
      | some g => simp [hZero, hGain, isGained]
      | none => cases hFilter : s.parts.filter <;> simp [hZero, hGain, hFilter, isGained]
    · simp [hZero]

theorem sensitivitiesOf_map_canonical (stages : List (Stage α)) :
    sensitivitiesOf (stages.map Stage.canonical) =
      (gainedZeros stages).map fun s => s.parts.gain.getD assumedGain := by
  induction stages with
  | nil => rfl
  | cons s stages ih =>
    have hSequence : s.canonical.sequence = s.sequence := rfl
    rw [List.map_cons, sensitivitiesOf_cons, gainedZeros_cons, ih, hSequence, parts_canonical,
      Parts.canonical]
    by_cases hZero : s.sequence = 0
    · cases hFilter : s.parts.filter with
      | some f => simp [hZero, hFilter, isGained, assumedGain]
      | none => cases hGain : s.parts.gain <;> simp [hZero, hGain, hFilter, isGained]
    · simp [hZero]

/-- What a second check documents: the gain of the last stage 0 that is left with one. -/
theorem documentedOf_map_canonical (stages : List (Stage α)) :
    documentedOf (stages.map Stage.canonical) =
      (gainedZeros stages).getLast?.elim ⟨0, 0⟩ fun s => s.parts.gain.getD assumedGain := by
  rw [documentedOf, sensitivitiesOf_map_canonical, List.getLast?_map]
  cases (gainedZeros stages).getLast? <;> rfl

theorem documentedOf_of_gain {stages : List (Stage α)} {s : Stage α} {g : Gain α}
    (hLast : (gainedZeros stages).getLast? = some s) (hGain : s.parts.gain = some g) :
    documentedOf stages = g := by
  obtain ⟨before, hSplit⟩ := List.getLast?_eq_some_iff.mp hLast
  have hOwn : [s].filterMap (fun s => s.parts.gain) = [g] := by simp [hGain]
  rw [documentedOf, sensitivitiesOf_eq_filterMap, hSplit, List.filterMap_append, hOwn,
    List.getLast?_concat]
  rfl

theorem documentedOf_map_canonical_eq_iff (stages : List (Stage α)) :
    documentedOf (stages.map Stage.canonical) = documentedOf stages ↔
      ∀ s, (gainedZeros stages).getLast? = some s → s.parts.gain = none →
        documentedOf stages = assumedGain := by
  rw [documentedOf_map_canonical]
  cases hLast : (gainedZeros stages).getLast? with
  | none =>
    have hNone : documentedOf stages = ⟨0, 0⟩ := by
      rw [documentedOf, sensitivitiesOf_eq_filterMap, List.getLast?_eq_none_iff.mp hLast]
      rfl
    refine ⟨fun _ s hs => ?_, fun _ => hNone.symm⟩
    cases hs
  | some s =>
    cases hGain : s.parts.gain with
    | some g =>
      refine ⟨?_, fun _ => ?_⟩
      · rintro - _ ⟨rfl⟩ hNone
        rw [hGain] at hNone
        cases hNone
      · rw [documentedOf_of_gain hLast hGain, Option.elim_some, hGain, Option.getD_some]
    | none =>
      rw [Option.elim_some, hGain, Option.getD_none]
      refine ⟨?_, fun h => (h s rfl hGain).symm⟩
      rintro h _ ⟨rfl⟩ -
      exact h.symm

end Chain

/-! ## Exact numbers -/

namespace Fir

variable {α : Type} [ExactScalar α]

theorem sum_of_excess? {taps : List α} {sum : α} (h : excess? taps = some sum) :
    Scalar.sum taps = sum ∧ sum ≠ 0 := by
  rw [excess?] at h
  split at h
  · next hExcess =>
    obtain ⟨hNonzero, -⟩ := Bool.and_eq_true_iff.mp hExcess
    obtain ⟨-, hNonzero⟩ := Bool.and_eq_true_iff.mp hNonzero
    cases h
    refine ⟨rfl, fun hZero => ?_⟩
    rw [hZero, ExactScalar.numeral_zero, ExactScalar.beq_self] at hNonzero
    cases hNonzero
  · cases h

theorem excess?_of_sum_one {taps : List α} (h : Scalar.sum taps = 1) : excess? taps = none := by
  have hNear : ¬((@OfNat.ofNat α 1 (Scalar.ofNat 1)) / (@OfNat.ofNat α 50 (Scalar.ofNat 50)) <
      Scalar.abs (Scalar.sum taps - @OfNat.ofNat α 1 (Scalar.ofNat 1))) := by
    rw [h, ExactScalar.abs_eq, ExactScalar.numeral_one, sub_self, abs_zero, not_lt]
    exact div_nonneg zero_le_one (Nat.cast_nonneg 50)
  rw [excess?]
  simp only [hNear, decide_false, Bool.and_false]
  rfl

/-- Taps that have been divided by their sum need not be divided again. -/
theorem excess?_unitSum (taps : List α) : excess? (unitSum taps) = none := by
  rw [unitSum]
  cases hExcess : excess? taps with
  | none => exact hExcess
  | some sum =>
    obtain ⟨hSum, hNonzero⟩ := sum_of_excess? hExcess
    apply excess?_of_sum_one
    rw [ExactScalar.sum_map_div, hSum, div_self hNonzero]

theorem unitSum_unitSum (taps : List α) : unitSum (unitSum taps) = unitSum taps := by
  rw [unitSum.eq_def (unitSum taps), excess?_unitSum]

theorem canonicalForm_canonicalForm (h : Fir α) :
    h.canonicalForm.canonicalForm = h.canonicalForm := by
  rcases h with ⟨symmetry, taps, scale⟩
  cases symmetry with
  | asymmetric =>
    have hForm : (⟨.asymmetric, taps, scale⟩ : Fir α).canonicalForm =
        folded ⟨.asymmetric, unitSum taps, scale⟩ := rfl
    have hAgain : (⟨.asymmetric, unitSum taps, scale⟩ : Fir α).canonicalForm =
        folded ⟨.asymmetric, unitSum taps, scale⟩ := by
      rw [canonicalForm]
      simp only [unitSum_unitSum]
    rw [hForm]
    by_cases hSymmetric : isSymmetric (unitSum taps) = true
    · -- stored by half, and so left alone the second time
      by_cases hEven : (unitSum taps).length % 2 = 0
      · simp only [folded, hSymmetric, hEven, if_true, canonicalForm]
      · simp only [folded, hSymmetric, hEven, if_true, if_false, canonicalForm]
    · have hAll : folded ⟨.asymmetric, unitSum taps, scale⟩ =
          (⟨.asymmetric, unitSum taps, scale⟩ : Fir α) := if_neg hSymmetric
      rw [hAll, hAgain, hAll]
  | odd => rfl
  | even => rfl

end Fir

variable {α : Type} [ExactScalar α]

theorem Filter.canonicalForm_canonicalForm (f : Filter α) :
    f.canonicalForm.canonicalForm = f.canonicalForm := by
  cases f with
  | fir h => exact congrArg Filter.fir h.canonicalForm_canonicalForm
  | _ => rfl

theorem Chain.Parts.canonical_canonical (q : Parts α) : q.canonical.canonical = q.canonical := by
  rcases q with ⟨filter, decimation, gain⟩
  cases filter with
  | none => rfl
  | some f => simp only [canonical, Filter.canonicalForm_canonicalForm, Option.getD_some]

/-- The canonical form of a stage is canonical. -/
theorem Stage.canonical_canonical (s : Stage α) : s.canonical.canonical = s.canonical :=
  canonical_eq_self (elements_canonical s) s.parts.canonical_canonical

namespace Chain

theorem kindred_map_canonical {stages : List (Stage α)} (h : ∀ s ∈ stages, s.Holds s.parts) :
    List.Forall₂ Kindred stages (stages.map Stage.canonical) :=
  List.forall₂_map_right_iff.mpr (List.forall₂_same.mpr fun s hs => kindred_canonical (h s hs))

/-! ## The second check -/

/-- A second check leaves all but the documented sensitivity as it is. -/
theorem check_check {c : Channel α} (h : (check c).2.result = .ok ()) :
    (check (check c).1).2.result = .ok () ∧
      (check (check c).1).1 =
        { (check c).1 with documented := documentedOf (c.stages.map Stage.canonical) } := by
  obtain ⟨hCanonical, hHolds⟩ := canonical_of_check h
  have hSettled : ∀ t ∈ (check c).1.stages, t.canonical = t := by
    rw [hCanonical]
    intro t ht
    obtain ⟨s, -, rfl⟩ := List.mem_map.mp ht
    exact s.canonical_canonical
  have hKindred : List.Forall₂ Kindred c.stages (check c).1.stages := by
    rw [hCanonical]
    exact kindred_map_canonical hHolds
  obtain ⟨hOk, hAgain⟩ := check_of_settled hKindred hSettled h
  refine ⟨hOk, ?_⟩
  rw [hAgain, hCanonical]
  rfl

/-- **A second check changes nothing but the documented sensitivity**, and that only if the last
stage 0 with a gain has it from the first check: it then becomes 1 at 1 Hz, whatever it was. -/
theorem check_check_eq_iff (c : Channel α) (h : (check c).2.result = .ok ()) :
    (check (check c).1).2.result = .ok () ∧
      (check (check c).1).1 =
        { (check c).1 with documented := (check (check c).1).1.documented } ∧
      ((check (check c).1).1 = (check c).1 ↔
        ∀ s, (gainedZeros c.stages).getLast? = some s → s.parts.gain = none →
          (check c).1.documented = assumedGain) := by
  obtain ⟨hOk, hAgain⟩ := check_check h
  have hDocumented : (check c).1.documented = documentedOf c.stages := by
    rw [(canonical_of_check h).1]
    rfl
  refine ⟨hOk, ?_, ?_⟩
  · rw [hAgain]
  · rw [hAgain, hDocumented, ← documentedOf_map_canonical_eq_iff, ← hDocumented]
    constructor
    · intro hSame
      exact congrArg Channel.documented hSame
    · intro hSame
      rw [hSame]

theorem check_check_digitizer :
    (check digitizer).2.result = .ok () ∧
      (check (check digitizer).1).1 = (check digitizer).1 := by
  have h : (check digitizer).2.result = .ok () := by decide +kernel
  refine ⟨h, (check_check_eq_iff digitizer h).2.2.mpr ?_⟩
  intro s hLast hNone
  have hGain : (gainedZeros digitizer.stages).getLast?.bind (fun s => s.parts.gain) =
      some ⟨1000, 5⟩ := by decide +kernel
  rw [hLast, Option.bind_some, hNone] at hGain
  cases hGain

/-- A sensor in stage 0, without a gain. -/
def unnumberedSensor : Channel ℚ :=
  { Channel.empty ⟨"IU", "ANMO", "00", "BHZ"⟩ none none with
    stages :=
      [⟨0, .velocity, .volts, "M/S - Velocity in Meters Per Second",
        [.filter (.poleZero ⟨.laplace, 1, 1, [], [⟨-6, 0⟩]⟩)]⟩] }

/-- The gain that the first check assumes is taken for a documented sensitivity by the second. -/
theorem check_check_unnumberedSensor :
    (check unnumberedSensor).2.result = .ok () ∧
      (check unnumberedSensor).1.documented = ⟨0, 0⟩ ∧
      (check (check unnumberedSensor).1).1.documented = ⟨1, 1⟩ ∧
      (check (check unnumberedSensor).1).1 ≠ (check unnumberedSensor).1 := by
  decide +kernel

end Chain

end InstrumentResponse
