import InstrumentResponse.Chain.Calculate
import InstrumentResponse.Proofs.Chain.Joining
import InstrumentResponse.Proofs.Chain.Renormalizing

/-!
# Stages out of range

A normalization looks at the gains of all stages, and a calculation at the units of all of them.
Neither looks at the filter or the decimation of a stage out of range, so that two chains that
differ in nothing else come to the same response.

* `Stage.AgreeWithin`, `Channel.AgreeWithin`: stages and channels that differ out of range only.
* `gainFault?_eq`, `referenceFrequency_eq`, `input_eq`: what depends on all stages of a chain.
* `normalizeStages_agreeWithin`, `normalize_agreeWithin`: a normalization of both.
* `calculate_eq`: a calculation of both.
* `calculate_normalize_agreeWithin`: one after the other.
-/

namespace InstrumentResponse

open Chain

variable {α : Type}

/-! ## Agreement -/

/-- Two stages agree within a range: they are the same, apart from the filter and the decimation of
a stage out of range. -/
structure Stage.AgreeWithin (range : StageRange) (s t : Stage α) : Prop where
  sequence_eq : t.sequence = s.sequence
  input_eq : t.input = s.input
  output_eq : t.output = s.output
  inputName_eq : t.inputName = s.inputName
  gains_eq : gains t.elements = gains s.elements
  inside : range.contains s.sequence = true → t.elements = s.elements

/-- Two channels agree within a range: they have the same name, sensitivities and factor to meters,
and their stages agree. -/
structure Channel.AgreeWithin (range : StageRange) (c d : Channel α) : Prop where
  id_eq : d.id = c.id
  documented_eq : d.documented = c.documented
  computed_eq : d.computed = c.computed
  unitScale_eq : d.unitScale = c.unitScale
  stages : List.Forall₂ (Stage.AgreeWithin range) c.stages d.stages

namespace Stage.AgreeWithin

variable {range : StageRange} {s t : Stage α}

theorem refl (range : StageRange) (s : Stage α) : s.AgreeWithin range s :=
  ⟨rfl, rfl, rfl, rfl, rfl, fun _ => rfl⟩

theorem eq_of_contains (h : s.AgreeWithin range t) (hInside : range.contains s.sequence = true) :
    t = s := by
  cases s
  cases t
  rw [Stage.mk.injEq]
  exact ⟨h.sequence_eq, h.input_eq, h.output_eq, h.inputName_eq, h.inside hInside⟩

theorem gain?_eq (h : s.AgreeWithin range t) : t.gain? = s.gain? := by
  rw [gain?, gain?, ← List.head?_filterMap, ← List.head?_filterMap]
  exact congrArg List.head? h.gains_eq

theorem takesPart_eq (h : s.AgreeWithin range t) : takesPart range t = takesPart range s := by
  rw [takesPart, takesPart, h.sequence_eq]

theorem hasUnits_eq (h : s.AgreeWithin range t) : t.hasUnits = s.hasUnits := by
  rw [hasUnits, hasUnits, h.input_eq, h.output_eq]

end Stage.AgreeWithin

/-! ## What depends on all stages -/

theorem Stage.AgreeWithin.sequences_eq {range : StageRange} {stages others : List (Stage α)}
    (h : List.Forall₂ (Stage.AgreeWithin range) stages others) :
    others.map (·.sequence) = stages.map (·.sequence) := by
  induction h with
  | nil => rfl
  | cons hStage _ ih => rw [List.map_cons, List.map_cons, hStage.sequence_eq, ih]

theorem find?_rel {β : Type} {R : β → β → Prop} {p : β → Bool} {l l' : List β}
    (h : List.Forall₂ R l l') (hp : ∀ b b', R b b' → p b' = p b) :
    Option.Rel R (l.find? p) (l'.find? p) := by
  induction h with
  | nil => exact .none
  | @cons b b' l l' hb _ ih =>
    rw [List.find?_cons, List.find?_cons, hp b b' hb]
    cases p b with
    | true => exact .some hb
    | false => exact ih

namespace Channel.AgreeWithin

variable {range : StageRange} {c d : Channel α}

theorem gains_eq (h : c.AgreeWithin range d) :
    d.stages.filterMap (·.gain?) = c.stages.filterMap (·.gain?) := by
  have hStages := h.stages
  generalize c.stages = stages at hStages ⊢
  generalize d.stages = others at hStages ⊢
  induction hStages with
  | nil => rfl
  | cons hStage _ ih => rw [List.filterMap_cons, List.filterMap_cons, hStage.gain?_eq, ih]

theorem numbered (h : c.AgreeWithin range d) :
    List.Forall₂ (Stage.AgreeWithin range) (numbered c) (numbered d) := by
  refine List.rel_filter (fun s t hStage => ?_) h.stages
  change (s.sequence != 0) = true ↔ (t.sequence != 0) = true
  rw [hStage.sequence_eq]

theorem input_eq (h : c.AgreeWithin range d) : d.input = c.input := by
  rw [Channel.input, Channel.input]
  have hFirst := find?_rel h.stages fun s t (hStage : s.AgreeWithin range t) => hStage.hasUnits_eq
  generalize c.stages.find? (·.hasUnits) = first at hFirst ⊢
  generalize d.stages.find? (·.hasUnits) = first' at hFirst ⊢
  cases hFirst with
  | none => rfl
  | some hStage => exact hStage.input_eq

/-- The stages in range are the same. -/
theorem filter_contains_eq (h : c.AgreeWithin range d) :
    d.stages.filter (range.contains ·.sequence) = c.stages.filter (range.contains ·.sequence) := by
  have hStages := h.stages
  generalize c.stages = stages at hStages ⊢
  generalize d.stages = others at hStages ⊢
  induction hStages with
  | nil => rfl
  | @cons s t stages others hStage _ ih =>
    rw [List.filter_cons, List.filter_cons, hStage.sequence_eq, ih]
    by_cases hInside : range.contains s.sequence = true
    · rw [if_pos hInside, if_pos hInside, hStage.eq_of_contains hInside]
    · rw [if_neg hInside, if_neg hInside]

section Analytic

variable [Analytic α]

theorem referenceFrequency_eq (h : c.AgreeWithin range d) :
    referenceFrequency d = referenceFrequency c := by
  rw [Chain.referenceFrequency_eq, Chain.referenceFrequency_eq, List.filterMap_reverse,
    List.filterMap_reverse, h.gains_eq, h.documented_eq]

end Analytic

end Channel.AgreeWithin

namespace Chain

variable [Analytic α] {range : StageRange} {c d : Channel α}

/-- Where each stage has a gain, only one of value 0 can be wrong. -/
theorem gainFault?_of_gains (h : ∀ s ∈ c.stages, s.gain?.isSome = true) :
    gainFault? c =
      (c.stages.find? fun s => s.gain?.any (·.value == 0)).map fun s =>
        .chain s.sequence .zeroGain := by
  have hNumbered : ∀ s ∈ numbered c, s.gain?.isSome = true := fun s hs =>
    h s (List.mem_filter.mp hs).1
  rw [gainFault?]
  generalize numbered c = stages at hNumbered ⊢
  rcases stages with _ | ⟨s, _ | ⟨s', rest⟩⟩
  · rfl
  · have hGain : s.gain?.isNone = false := by
      rw [Option.isNone_eq_false_iff]
      exact hNumbered s List.mem_cons_self
    dsimp only
    rw [hGain, Bool.false_and, if_neg Bool.false_ne_true]
  · rfl

theorem gainFault?_eq (h : c.AgreeWithin range d)
    (hGains : ∀ s ∈ c.stages, s.gain?.isSome = true) : gainFault? d = gainFault? c := by
  have hGains' : ∀ t ∈ d.stages, t.gain?.isSome = true := by
    have hStages := h.stages
    generalize c.stages = stages at hStages hGains
    generalize d.stages = others at hStages
    induction hStages with
    | nil => exact nofun
    | cons hStage _ ih =>
      obtain ⟨hs, hRest⟩ := List.forall_mem_cons.mp hGains
      refine List.forall_mem_cons.mpr ⟨?_, ih hRest⟩
      rwa [hStage.gain?_eq]
  rw [gainFault?_of_gains hGains, gainFault?_of_gains hGains']
  have hFirst := find?_rel (p := fun s => s.gain?.any (·.value == 0)) h.stages
    fun s t (hStage : s.AgreeWithin range t) => by rw [hStage.gain?_eq]
  generalize c.stages.find? _ = first at hFirst ⊢
  generalize d.stages.find? _ = first' at hFirst ⊢
  cases hFirst with
  | none => rfl
  | some hStage => rw [Option.map_some, Option.map_some, hStage.sequence_eq]

/-! ## Normalization -/

/-- Stages that agree are normalized alike: those in range are the same, and the other ones are
passed over. -/
theorem normalizeStages_agreeWithin (f product : α) {stages others : List (Stage α)}
    (h : List.Forall₂ (Stage.AgreeWithin range) stages others) :
    (normalizeStages range f product others).2 = (normalizeStages range f product stages).2 ∧
      List.Forall₂ (Stage.AgreeWithin range) (normalizeStages range f product stages).1
        (normalizeStages range f product others).1 := by
  induction h generalizing product with
  | nil => exact ⟨rfl, .nil⟩
  | @cons s t stages others hStage hRest ih =>
    by_cases hPassed : takesPart range s = true → s.gain? = none
    · have hPassed' : takesPart range t = true → t.gain? = none := by
        rwa [hStage.takesPart_eq, hStage.gain?_eq]
      obtain ⟨hResult, hStages⟩ := ih product
      rw [normalizeStages_passed hPassed, normalizeStages_passed hPassed']
      exact ⟨hResult, .cons hStage hStages⟩
    · obtain ⟨hPart, hSome⟩ := Classical.not_imp.mp hPassed
      obtain ⟨gain, hGain⟩ := Option.ne_none_iff_exists'.mp hSome
      -- a stage that takes part is in range
      have hSame : t = s := hStage.eq_of_contains (Bool.and_eq_true_iff.mp hPart).2
      subst hSame
      rcases hMoved : normalizeStage f t gain with ⟨moved, fault | g⟩
      · rw [normalizeStages_fault hPart hGain hMoved, normalizeStages_fault hPart hGain hMoved]
        exact ⟨rfl, .cons (.refl range moved) hRest⟩
      · obtain ⟨hResult, hStages⟩ := ih (product * g.value)
        rw [normalizeStages_gain hPart hGain hMoved, normalizeStages_gain hPart hGain hMoved]
        exact ⟨hResult, .cons (.refl range moved) hStages⟩

/-- Channels that agree are normalized with the same outcome and the same warnings, and agree
afterwards. -/
theorem normalize_agreeWithin (h : c.AgreeWithin range d)
    (hGains : ∀ s ∈ c.stages, s.gain?.isSome = true) :
    (normalize range d).2 = (normalize range c).2 ∧
      (normalize range c).1.AgreeWithin range (normalize range d).1 := by
  rw [normalize, normalize, gainFault?_eq h hGains, h.referenceFrequency_eq]
  cases gainFault? c with
  | some fault => exact ⟨rfl, h⟩
  | none =>
    dsimp only
    obtain ⟨hResult, hStages⟩ := normalizeStages_agreeWithin (referenceFrequency c)
      (Scalar.ofNat 1).ofNat h.stages
    generalize normalizeStages range (referenceFrequency c) _ c.stages = r at hResult hStages ⊢
    generalize normalizeStages range (referenceFrequency c) _ d.stages = r' at hResult hStages ⊢
    rcases r with ⟨stages, fault | computed⟩
    · rcases r' with ⟨others, result⟩
      cases hResult
      exact ⟨rfl, h.id_eq, h.documented_eq, h.computed_eq, h.unitScale_eq, hStages⟩
    · rcases r' with ⟨others, result⟩
      cases hResult
      have hWhole := congrArg (List.all · range.contains)
        (Stage.AgreeWithin.sequences_eq h.numbered)
      rw [List.all_map, List.all_map] at hWhole
      change (numbered d).all (fun s => range.contains s.sequence) =
        (numbered c).all (fun s => range.contains s.sequence) at hWhole
      dsimp only
      rw [h.id_eq, h.documented_eq, h.numbered.length_eq, hWhole]
      exact ⟨rfl, rfl, rfl, rfl, h.unitScale_eq, hStages⟩

/-! ## Calculation -/

/-- Channels that agree have the same response. -/
theorem calculate_eq {options : Options α} (h : c.AgreeWithin options.stages d)
    (frequencies : List α) : calculate options d frequencies = calculate options c frequencies := by
  have hAny := congrArg (List.any · options.stages.contains)
    (Stage.AgreeWithin.sequences_eq h.stages)
  rw [List.any_map, List.any_map] at hAny
  change d.stages.any (fun s => options.stages.contains s.sequence) =
    c.stages.any (fun s => options.stages.contains s.sequence) at hAny
  have hResponse : ∀ f index, responseAt options d f index = responseAt options c f index := by
    intro f index
    rw [responseAt, responseAt, totalResponse, totalResponse, h.filter_contains_eq, h.input_eq,
      h.unitScale_eq, sensitivity, sensitivity, h.documented_eq, h.computed_eq]
  rw [calculate, calculate, hAny]
  simp only [hResponse]

/-- **Stages out of range do not leak into a response.**  Two channels in which every stage has a
gain, and which differ in nothing but the filters and the decimations of stages out of range, are
normalized with the same outcome and the same warnings, and then have the same response or the same
fault. -/
theorem calculate_normalize_agreeWithin (options : Options α) (frequencies : List α)
    (c d : Channel α) (h : c.AgreeWithin options.stages d)
    (hGains : ∀ s ∈ c.stages, s.gain?.isSome = true) :
    (normalize options.stages d).2 = (normalize options.stages c).2 ∧
      calculate options (normalize options.stages d).1 frequencies =
        calculate options (normalize options.stages c).1 frequencies := by
  obtain ⟨hReport, hAgree⟩ := normalize_agreeWithin h hGains
  exact ⟨hReport, calculate_eq hAgree frequencies⟩

/-- A sensor before a digitizer with some taps and a sample interval. -/
noncomputable def recorder (taps : List ℝ) (interval : ℝ) : Channel ℝ :=
  { flatSensor with
    stages :=
      [flatStage 1,
        ⟨2, .volts, .counts, "V",
          [.filter (.fir ⟨.odd, taps, 1⟩), .decimation ⟨interval, 2, 0, 0, 0⟩, .gain ⟨400, 1⟩]⟩,
        statedSensitivity] }

/-- The range of the first stage alone. -/
def sensorOnly : StageRange := ⟨some 1, some 1⟩

theorem calculate_normalize_agreeWithin_recorder :
    (recorder [1, 2] 1).AgreeWithin sensorOnly (recorder [3] 5) ∧
      (∀ s ∈ (recorder [1, 2] 1).stages, s.gain?.isSome = true) ∧
      (normalize sensorOnly (recorder [1, 2] 1)).2.result = .ok () ∧
      (normalize sensorOnly (recorder [3] 5)).2 = (normalize sensorOnly (recorder [1, 2] 1)).2 ∧
      calculate { Options.standard with stages := sensorOnly }
          (normalize sensorOnly (recorder [3] 5)).1 [1, 10] =
        calculate { Options.standard with stages := sensorOnly }
          (normalize sensorOnly (recorder [1, 2] 1)).1 [1, 10] := by
  have hAgree : (recorder [1, 2] 1).AgreeWithin sensorOnly (recorder [3] 5) :=
    ⟨rfl, rfl, rfl, rfl, .cons (.refl _ _)
      (.cons ⟨rfl, rfl, rfl, rfl, rfl, nofun⟩ (.cons (.refl _ _) .nil))⟩
  have hGains : ∀ s ∈ (recorder [1, 2] 1).stages, s.gain?.isSome = true := by
    intro s hs
    obtain rfl | rfl | rfl := List.mem_cons.mp hs |>.imp_right List.mem_pair.mp
    · rfl
    · rfl
    · rfl
  have hOk : (normalize sensorOnly (recorder [1, 2] 1)).2.result = .ok () := by
    have hFault : gainFault? (recorder [1, 2] 1) = none := by
      refine gainFault?_eq_none_of_ne_zero (List.forall_mem_cons.mpr ⟨?_, List.forall_mem_cons.mpr
        ⟨?_, List.forall_mem_singleton.mpr ?_⟩⟩)
      · exact ⟨⟨20, 1⟩, rfl, by norm_num⟩
      · exact ⟨⟨400, 1⟩, rfl, by norm_num⟩
      · exact ⟨⟨100, 5⟩, rfl, by norm_num⟩
    have hReference : referenceFrequency (recorder [1, 2] 1) = 5 := referenceFrequency_flatSensor _
    refine normalize_eq_ok_iff.mpr ⟨hFault, ?_⟩
    rw [hReference]
    exact ⟨_, _, normalizeStages_gain rfl rfl normalizeStage_flatStage _ _⟩
  obtain ⟨hReport, hResponse⟩ :=
    calculate_normalize_agreeWithin { Options.standard with stages := sensorOnly } [1, 10]
      (recorder [1, 2] 1) (recorder [3] 5) hAgree hGains
  exact ⟨hAgree, hGains, hOk, hReport, hResponse⟩

end Chain

end InstrumentResponse
