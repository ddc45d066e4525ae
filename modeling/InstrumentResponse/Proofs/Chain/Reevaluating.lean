import InstrumentResponse.Evaluation
import InstrumentResponse.Proofs.Chain.Rechecking
import InstrumentResponse.Proofs.Chain.Renormalizing

/-!
# Evaluating a channel twice

An evaluation leaves the channel checked and normalized.  A check of that restores the documented
sensitivity, if none of the stages 0 has a filter; the normalization after it then finds the same
reference frequency, and comes to the same channel.

* `evaluateChannel_of_aligned`, `evaluateChannel_of_ok`, `of_evaluateChannel_eq_ok`: an evaluation
  in its steps.
* `kindred_of_normalizedTo`: a normalized stage is in canonical form.
* `check_of_normalized`: the check of a channel that was normalized.
* `evaluateChannel_evaluateChannel`: the second evaluation.
-/

namespace InstrumentResponse

variable {α : Type}

open Chain

section Evaluation

variable [Analytic α] {options : Options α} {requested : List α} {c : Channel α} {r : Response α}

/-- The frequencies of a channel whose list is not interpolated. -/
def frequenciesOf (requested : List α) (c : Channel α) : List α :=
  c.list?.elim requested (·.frequencies)

theorem align_of_ne {mode : ListMode} (h : mode ≠ .interpolateInput) (requested : List α)
    (c : Channel α) :
    (align mode requested c).1 = c ∧
      (align mode requested c).2.result = .ok (frequenciesOf requested c) := by
  rw [align, frequenciesOf]
  cases c.list? with
  | none => exact ⟨rfl, rfl⟩
  | some l =>
    cases mode with
    | interpolateInput => exact absurd rfl h
    | native => exact ⟨rfl, rfl⟩
    | interpolateOutput => exact ⟨rfl, rfl⟩

/-- What is calculated from a channel that is checked and normalized. -/
def responseOf (options : Options α) (frequencies : List α) (n : Channel α) :
    Except (Fault α) (Response α) :=
  (calculate options n frequencies).map (⟨n.id, frequencies, ·⟩)

/-- The steps of an evaluation after the check, at known frequencies. -/
def finish (options : Options α) (frequencies : List α) : Step α (Response α) :=
  normalize options.stages >>= fun _ => .ofReport (.ofExcept ∘ responseOf options frequencies)

theorem finish_of_ok {frequencies : List α}
    (hNormalize : (normalize options.stages c).2.result = .ok ()) :
    (finish options frequencies c).1 = (normalize options.stages c).1 ∧
      (finish options frequencies c).2.result =
        responseOf options frequencies (normalize options.stages c).1 :=
  Step.bind_of_ok hNormalize fun _ => .ofReport (.ofExcept ∘ responseOf options frequencies)

/-- An evaluation whose check and alignment succeed. -/
theorem evaluateChannel_of_aligned {frequencies : List α} (hCheck : (check c).2.result = .ok ())
    (hAlign : (align options.listMode requested (check c).1).2.result = .ok frequencies) :
    (evaluateChannel options requested c).1 =
        (finish options frequencies (align options.listMode requested (check c).1).1).1 ∧
      (evaluateChannel options requested c).2.result =
        (finish options frequencies (align options.listMode requested (check c).1).1).2.result := by
  have hFirst := Step.bind_of_ok hCheck fun _ => align options.listMode requested >>= finish options
  have hSecond := Step.bind_of_ok hAlign (finish options)
  exact ⟨hFirst.1.trans hSecond.1, hFirst.2.trans hSecond.2⟩

/-- The frequencies are known as soon as the check succeeds. -/
theorem evaluateChannel_of_check (hMode : options.listMode ≠ .interpolateInput)
    (hCheck : (check c).2.result = .ok ()) (requested : List α) :
    (evaluateChannel options requested c).1 =
        (finish options (frequenciesOf requested (check c).1) (check c).1).1 ∧
      (evaluateChannel options requested c).2.result =
        (finish options (frequenciesOf requested (check c).1) (check c).1).2.result := by
  obtain ⟨hSame, hAligned⟩ := align_of_ne hMode requested (check c).1
  have hFinish := evaluateChannel_of_aligned hCheck hAligned
  rwa [hSame] at hFinish

/-- An evaluation whose check and normalization succeed. -/
theorem evaluateChannel_of_ok (hMode : options.listMode ≠ .interpolateInput)
    (hCheck : (check c).2.result = .ok ())
    (hNormalize : (normalize options.stages (check c).1).2.result = .ok ()) (requested : List α) :
    (evaluateChannel options requested c).1 = (normalize options.stages (check c).1).1 ∧
      (evaluateChannel options requested c).2.result =
        responseOf options (frequenciesOf requested (check c).1)
          (normalize options.stages (check c).1).1 := by
  obtain ⟨hChannel, hResult⟩ := evaluateChannel_of_check hMode hCheck requested
  obtain ⟨hNormalized, hResponse⟩ := finish_of_ok hNormalize
  exact ⟨hChannel.trans hNormalized, hResult.trans hResponse⟩

theorem of_evaluateChannel_eq_ok (hMode : options.listMode ≠ .interpolateInput)
    (h : (evaluateChannel options requested c).2.result = .ok r) :
    (check c).2.result = .ok () ∧ (normalize options.stages (check c).1).2.result = .ok () := by
  obtain ⟨_, hCheck⟩ := Step.exists_of_bind_ok h
  rw [(evaluateChannel_of_check hMode hCheck requested).2] at h
  obtain ⟨_, hNormalize⟩ := Step.exists_of_bind_ok h
  exact ⟨hCheck, hNormalize⟩

end Evaluation

/-! ## Checking what was normalized -/

theorem Filter.traits_withScale (main : Filter α) (scale : α) :
    (main.withScale scale).traits = main.traits := by
  cases main <;> rfl

theorem Filter.traits_withScaleFrequency (main : Filter α) (f : α) :
    (main.withScaleFrequency f).traits = main.traits := by
  cases main <;> rfl

section Scales

variable [Scalar α]

theorem Filter.canonicalForm_withScale (main : Filter α) (scale : α) :
    (main.withScale scale).canonicalForm = main.canonicalForm.withScale scale := by
  cases main with
  | fir h =>
    rcases h with ⟨symmetry, taps, old⟩
    cases symmetry with
    | asymmetric =>
      refine congrArg Filter.fir ?_
      change Fir.folded ⟨.asymmetric, Fir.unitSum taps, scale⟩ =
        { Fir.folded ⟨.asymmetric, Fir.unitSum taps, old⟩ with scale }
      unfold Fir.folded
      by_cases hSymmetric : Fir.isSymmetric (Fir.unitSum taps) = true
      · rw [if_pos hSymmetric, if_pos hSymmetric]
      · rw [if_neg hSymmetric, if_neg hSymmetric]
    | odd => rfl
    | even => rfl
  | _ => rfl

theorem Filter.canonicalForm_withScaleFrequency (main : Filter α) (f : α) :
    (main.withScaleFrequency f).canonicalForm = main.canonicalForm.withScaleFrequency f := by
  cases main <;> rfl

end Scales

namespace Chain

theorem filter?_of_elements_eq {s : Stage α} {q : Parts α} (h : s.elements = q.elements) :
    s.filter? = q.filter := by
  rw [Stage.filter?, h, Parts.elements]
  cases q.filter <;> cases q.decimation <;> cases q.gain <;> rfl

theorem gain?_of_elements_eq {s : Stage α} {q : Parts α} (h : s.elements = q.elements) :
    s.gain? = q.gain := by
  rw [Stage.gain?, h, Parts.elements]
  cases q.filter <;> cases q.decimation <;> cases q.gain <;> rfl

/-- A stage with its parts in place keeps them there when it is moved. -/
theorem elements_moved {s : Stage α} {q : Parts α} (h : s.elements = q.elements)
    {main filter : Filter α} {gain g : Gain α} (hFilter : q.filter = some main)
    (hGain : q.gain = some gain) :
    ((s.withFilter filter).withGain g).elements =
      ({ q with filter := some filter, gain := some g } : Parts α).elements := by
  rw [Stage.withGain, Stage.withFilter, h]
  rcases q with ⟨_ | main, decimation, _ | gain⟩
  · cases hFilter
  · cases hFilter
  · cases hGain
  · cases decimation <;> rfl

section Canonical

variable [Scalar α]

theorem canonicalForm_of_canonical {q : Parts α} (h : q.canonical = q) {main : Filter α}
    (hFilter : q.filter = some main) : main.canonicalForm = main := by
  have hSame := congrArg Parts.filter h
  rw [Parts.canonical, hFilter] at hSame
  exact Option.some.inj hSame

theorem canonical_moved {q : Parts α} {filter : Filter α} (h : filter.canonicalForm = filter)
    (g : Gain α) :
    ({ q with filter := some filter, gain := some g } : Parts α).canonical =
      { q with filter := some filter, gain := some g } := by
  rw [Parts.canonical]
  simp only [h, Option.getD_some]

/-- A stage in canonical form has its parts in place. -/
theorem elements_of_canonical {s : Stage α} (h : s.canonical = s) :
    s.elements = s.parts.elements ∧ s.parts.canonical = s.parts := by
  have hParts : s.parts.canonical = s.parts := by
    rw [← parts_canonical, h]
  refine ⟨?_, hParts⟩
  have hElements := elements_canonical s
  rwa [h, hParts] at hElements

end Canonical

section Again

variable [ExactAnalytic α] {range : StageRange} {f : α}

/-- A stage in canonical form is left in canonical form by a normalization, and looks the same to
the check. -/
theorem kindred_of_normalizedTo {s t : Stage α} (hCanonical : s.canonical = s)
    (h : NormalizedTo range f s t) : Kindred s t ∧ t.canonical = t := by
  obtain ⟨hElements, hParts⟩ := elements_of_canonical hCanonical
  cases h with
  | kept _ =>
    refine ⟨⟨rfl, rfl, rfl, holds_of_elements_eq hElements ?_, rfl, rfl, fun _ => rfl⟩, hCanonical⟩
    rw [← hParts]
    exact filter_canonical_eq_none s.parts
  | @moved gain g main filter hPart hGain hFilter hResponse hMove =>
    rw [filter?_of_elements_eq hElements] at hFilter
    rw [gain?_of_elements_eq hElements] at hGain
    -- another filter and another gain stand where the old ones did
    have hMoved : ((s.withFilter filter).withGain g).elements = _ :=
      elements_moved hElements hFilter hGain
    have hHolds := holds_of_elements_eq hMoved nofun
    have hSame := hHolds.parts_eq
    have hMain := canonicalForm_of_canonical hParts hFilter
    obtain ⟨-, rfl, -⟩ := move_eq_ok_iff.mp hMove
    refine ⟨⟨rfl, rfl, rfl, ?_, ?_, ?_, ?_⟩, canonical_eq_self hMoved (canonical_moved ?_ g)⟩
    · rwa [hSame]
    · rw [hSame, hFilter, Option.map_some, Option.map_some, Filter.traits_withScaleFrequency,
        Filter.traits_withScale]
    · rw [hSame]
    · intro hNone
      rw [hFilter] at hNone
      cases hNone
    · rw [Filter.canonicalForm_withScaleFrequency, Filter.canonicalForm_withScale, hMain]

theorem kindreds_of_normalizedTo {stages others : List (Stage α)}
    (hCanonical : ∀ s ∈ stages, s.canonical = s)
    (h : List.Forall₂ (NormalizedTo range f) stages others) :
    List.Forall₂ Kindred stages others ∧ ∀ t ∈ others, t.canonical = t := by
  induction h with
  | nil => exact ⟨.nil, nofun⟩
  | cons hTo _ ih =>
    obtain ⟨hs, hRest⟩ := List.forall_mem_cons.mp hCanonical
    obtain ⟨hKindred, ht⟩ := kindred_of_normalizedTo hs hTo
    obtain ⟨hKindreds, hOthers⟩ := ih hRest
    exact ⟨.cons hKindred hKindreds, List.forall_mem_cons.mpr ⟨ht, hOthers⟩⟩

/-- Stages 0 are not normalized. -/
theorem sensitivitiesOf_of_normalizedTo {stages others : List (Stage α)}
    (h : List.Forall₂ (NormalizedTo range f) stages others) :
    sensitivitiesOf others = sensitivitiesOf stages := by
  induction h with
  | nil => rfl
  | @cons s t stages others hTo _ ih =>
    rw [sensitivitiesOf_cons, sensitivitiesOf_cons, hTo.sequence_eq, ih]
    by_cases hZero : s.sequence = 0
    · cases hTo with
      | kept _ => rfl
      | moved hPart _ _ _ _ => exact absurd (.inl hZero) (takesPart_iff.mp hPart)
    · rw [if_neg hZero, if_neg hZero]

/-- A check of a channel that was normalized restores the documented sensitivity, and leaves the
rest as it is. -/
theorem check_of_normalized {k n : Channel α} (hOk : (check k).2.result = .ok ())
    (hCanonical : ∀ s ∈ k.stages, s.canonical = s) (h : Normalized range k n) :
    (check n).2.result = .ok () ∧
      (check n).1 =
        { n with documented := documentedOf k.stages, timing := timingOf k.stages } := by
  obtain ⟨hKindred, hSettled⟩ := kindreds_of_normalizedTo hCanonical h.stages_to
  have hDocumented : documentedOf n.stages = documentedOf k.stages := by
    rw [documentedOf, documentedOf, sensitivitiesOf_of_normalizedTo h.stages_to]
  rw [← hDocumented]
  exact check_of_settled hKindred hSettled hOk

/-! ## The second evaluation -/

omit [ExactAnalytic α] in
theorem parts_filter_of_filter? {s : Stage α} (h : s.filter? = none) : s.parts.filter = none := by
  have hFilters : filters s.elements = [] :=
    List.filterMap_eq_nil_iff.mpr (List.findSome?_eq_none_iff.mp h)
  rw [Stage.parts, (filters_joined_eq_nil_iff s.elements).mpr hFilters]
  rfl

/-- Gains are assumed beside filters only. -/
theorem documentedOf_map_canonical_of_plain {stages : List (Stage α)}
    (h : ∀ s ∈ stages, s.sequence = 0 → s.filter? = none) :
    documentedOf (stages.map Stage.canonical) = documentedOf stages := by
  refine (documentedOf_map_canonical_eq_iff stages).mpr fun s hLast hNone => ?_
  obtain ⟨hs, hGained⟩ := List.mem_filter.mp (List.mem_of_getLast? hLast)
  obtain ⟨hZero, hGained⟩ := Bool.and_eq_true_iff.mp hGained
  rw [isGained, parts_filter_of_filter? (h s hs (beq_iff_eq.mp hZero)), hNone] at hGained
  cases hGained

/-- The check of what an evaluation leaves restores the documented sensitivity of the first check,
and changes nothing else. -/
theorem check_of_evaluated {c n : Channel α}
    (hPlain : ∀ s ∈ c.stages, s.sequence = 0 → s.filter? = none)
    (hCheck : (check c).2.result = .ok ()) (h : Normalized range (check c).1 n) :
    (check n).2.result = .ok () ∧
      (check n).1 = { n with documented := (check c).1.documented } := by
  have hAgain := (check_check hCheck).1
  obtain ⟨hCanonical, hHolds⟩ := canonical_of_check hCheck
  have hTiming : timingOf (c.stages.map Stage.canonical) = n.timing := by
    rw [timingOf_of_kindred (kindred_map_canonical hHolds), h.channel_eq, hCanonical]
    rfl
  -- from here on the checked channel is the canonical one, of which a check can start again
  rw [hCanonical] at h hAgain ⊢
  have hStages : ∀ s ∈ c.canonical.stages, s.canonical = s := by
    intro s hs
    obtain ⟨s, -, rfl⟩ := List.mem_map.mp hs
    exact s.canonical_canonical
  obtain ⟨hOk, hLeft⟩ := check_of_normalized hAgain hStages h
  refine ⟨hOk, hLeft.trans ?_⟩
  have hDocumented : documentedOf c.canonical.stages = c.canonical.documented :=
    documentedOf_map_canonical_of_plain hPlain
  rw [hDocumented]
  change ({ n with documented := _, timing := timingOf (c.stages.map Stage.canonical) } :
    Channel α) = _
  rw [hTiming]

end Again

end Chain

/-- **An evaluation can be repeated.**  If no stage 0 has a filter and lists are not interpolated, a
second evaluation of the channel that the first one leaves gives the same response, and leaves the
channel as it is. -/
theorem evaluateChannel_evaluateChannel [ExactAnalytic α] (options : Options α) (requested : List α)
    (c : Channel α) (r : Response α)
    (hPlain : ∀ s ∈ c.stages, s.sequence = 0 → s.filter? = none)
    (hMode : options.listMode ≠ .interpolateInput)
    (h : (evaluateChannel options requested c).2.result = .ok r) :
    (evaluateChannel options requested (evaluateChannel options requested c).1).2.result = .ok r ∧
      (evaluateChannel options requested (evaluateChannel options requested c).1).1 =
        (evaluateChannel options requested c).1 := by
  obtain ⟨hCheck, hNormalize⟩ := of_evaluateChannel_eq_ok hMode h
  obtain ⟨hLeft, hResult⟩ := evaluateChannel_of_ok hMode hCheck hNormalize requested
  have hNormalized := normalized_of_ok hNormalize
  rw [hLeft]
  rw [hResult] at h
  generalize (normalize options.stages (check c).1).1 = n at hNormalized h
  -- the second check takes back what the normalization did to the channel, but not to its stages
  obtain ⟨hAgain, hRestored⟩ := check_of_evaluated hPlain hCheck hNormalized
  obtain ⟨hMoved, hSame⟩ := hNormalized.restored
  rw [← hRestored] at hMoved hSame
  obtain ⟨hLast, hResponse⟩ := evaluateChannel_of_ok hMode hAgain hMoved requested
  have hFrequencies :
      frequenciesOf requested (check n).1 = frequenciesOf requested (check c).1 := by
    have hList : (check n).1.list? = (check c).1.list? := by
      rw [hRestored]
      exact hNormalized.list?_eq
    rw [frequenciesOf, frequenciesOf, hList]
  rw [hLast, hResponse, hSame, hFrequencies]
  exact ⟨h, rfl⟩

theorem evaluateChannel_evaluateChannel_flatSensor :
    ∃ r, (∀ s ∈ flatSensor.stages, s.sequence = 0 → s.filter? = none) ∧
      (Options.standard : Options ℝ).listMode ≠ .interpolateInput ∧
      (evaluateChannel .standard [1] flatSensor).2.result = .ok r ∧
      (evaluateChannel .standard [1] (evaluateChannel .standard [1] flatSensor).1).2.result =
        .ok r := by
  have hPlain : ∀ s ∈ flatSensor.stages, s.sequence = 0 → s.filter? = none := by
    intro s hs hZero
    obtain rfl | rfl := List.mem_pair.mp hs
    · cases hZero
    · rfl
  have hCheck : (check flatSensor).2.result = .ok () ∧ (check flatSensor).1 = flatSensor :=
    ⟨rfl, rfl⟩
  have hMode : (Options.standard : Options ℝ).listMode ≠ .interpolateInput := nofun
  have hNormalize :
      (normalize (Options.standard : Options ℝ).stages (check flatSensor).1).2.result = .ok () := by
    rw [hCheck.2]
    exact normalize_flatSensor
  obtain ⟨r, hr⟩ : ∃ r, (evaluateChannel .standard [1] flatSensor).2.result = .ok r := by
    have hLeft : (normalize (Options.standard : Options ℝ).stages flatSensor).1 = _ :=
      channel_of_normalize gainFault?_flatSensor normalizeStages_flatSensor
    rw [(evaluateChannel_of_ok hMode hCheck.1 hNormalize [1]).2, hCheck.2, hLeft]
    exact ⟨_, rfl⟩
  exact ⟨r, hPlain, hMode, hr,
    (evaluateChannel_evaluateChannel .standard [1] flatSensor r hPlain hMode hr).1⟩

end InstrumentResponse
