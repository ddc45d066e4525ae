import InstrumentResponse.Proofs.Chain.FailedCheck
import InstrumentResponse.Proofs.Chain.MovedGains

/-!
# What a normalization touches

A normalization works in place.  It may change the scale of the first filter and the first gain of
each stage in range, and three numbers that stand for the whole chain; where it fails, it leaves the
stages that it has not come to, and the channel itself, as they were.

* `Filter.Rescaled`, `Retouched`: what may be changed in a filter and in a stage.
* `TouchedTo`, `NormalizedTo.touchedTo`: what becomes of each stage, and of its gain.
* `gainsWithin`, `gainProduct_eq`: the computed sensitivity is a product of gains.
* `Halted`, `normalizeStages_eq_error`: what is left where a normalization fails.
* `normalize_touches`: both together.
-/

namespace InstrumentResponse

open Chain

variable {α : Type}

/-! ## Frames -/

/-- The same filter with another scale: no root, tap or coefficient is changed. -/
inductive Filter.Rescaled : Filter α → Filter α → Prop
  | poleZero (pz : PoleZero α) (scale scaleFrequency : α) :
      Rescaled (.poleZero pz) (.poleZero { pz with scale, scaleFrequency })
  | fir (h : Fir α) (scale : α) : Rescaled (.fir h) (.fir { h with scale })
  | recursive (r : Recursive α) (scale : α) : Rescaled (.recursive r) (.recursive { r with scale })

/-- A gain holds at `f` hertz: at just this frequency, or at one that counts as equal. -/
def Gain.HoldsAt [Scalar α] (f : α) (g : Gain α) : Prop := g.frequency = f ∨ (g.frequency == f) = true

/-- Has a stage a filter with a response of its own? -/
def Stage.responds (s : Stage α) : Bool := s.filter?.any Filter.hasResponse

theorem Filter.rescaled_of_hasResponse {main : Filter α} (h : main.hasResponse = true)
    (scale f : α) : main.Rescaled ((main.withScale scale).withScaleFrequency f) := by
  cases main with
  | poleZero pz => exact .poleZero pz scale f
  | fir taps => exact .fir taps scale
  | recursive r => exact .recursive r scale
  | list l => cases h
  | generic corners => cases h
  | polynomial p => cases h

namespace Chain

/-- A stage is the same, or only its first filter and its first gain are changed: the one has another
scale, the other one another value and holds at `f` hertz. -/
inductive Retouched (f : α) (s : Stage α) : Stage α → Prop
  | same : Retouched f s s
  | moved {main filter : Filter α} {gain : Gain α} (value : α) (hFilter : s.filter? = some main)
      (hGain : s.gain? = some gain) (hRescaled : main.Rescaled filter) :
      Retouched f s ((s.withFilter filter).withGain ⟨value, f⟩)

/-- The gains of the stages that are normalized, in their order. -/
def gainsWithin (range : StageRange) (stages : List (Stage α)) : List (Gain α) :=
  (stages.filter (takesPart range)).filterMap (·.gain?)

variable [Analytic α] {range : StageRange} {f : α} {s t : Stage α}

/-- What a normalization to `f` hertz makes of a stage. -/
structure TouchedTo (range : StageRange) (f : α) (s t : Stage α) : Prop where
  retouched : Retouched f s t
  /-- A stage 0, or one out of range, is not touched. -/
  outside : takesPart range s = false → t = s
  /-- Neither is a stage without a gain, -/
  gainless : s.gain? = none → t = s
  /-- nor one without a filter that has a response of its own. -/
  unresponsive : s.responds = false → t = s
  /-- In every other one the gain ends up at `f` hertz. -/
  holds : takesPart range s = true → s.responds = true → ∀ gain, s.gain? = some gain →
    ∃ g, t.gain? = some g ∧ g.HoldsAt f

theorem NormalizedTo.touchedTo (h : NormalizedTo range f s t) : TouchedTo range f s t := by
  cases h with
  | kept hSettled =>
    refine ⟨.same, fun _ => rfl, fun _ => rfl, fun _ => rfl, ?_⟩
    intro hPart hResponds gain hGain
    obtain ⟨main, hFilter, hResponse⟩ := (Option.any_eq_true _ _).mp hResponds
    have hStale := hSettled hPart gain main hGain hFilter hResponse
    rw [isStale, Bool.or_eq_false_iff, Bool.not_eq_false'] at hStale
    exact ⟨gain, hGain, .inr hStale.1⟩
  | moved hPart hGain hFilter hResponse hMove =>
    obtain ⟨-, rfl, rfl⟩ := move_eq_ok_iff.mp hMove
    refine ⟨.moved _ hFilter hGain (Filter.rescaled_of_hasResponse hResponse _ f), ?_, ?_, ?_, ?_⟩
    · intro hOut
      rw [hPart] at hOut
      cases hOut
    · intro hNone
      rw [hGain] at hNone
      cases hNone
    · intro hSilent
      rw [Stage.responds, hFilter, Option.any_some, hResponse] at hSilent
      cases hSilent
    · intro _ _ gain _
      exact ⟨_, Stage.gain?_moved hGain hFilter, .inl rfl⟩

/-! ## The computed sensitivity -/

theorem foldl_timesGain_eq (stages : List (Stage α)) (product : α) :
    stages.foldl (timesGain range) product =
      (gainsWithin range stages).foldl (fun product g => product * g.value) product := by
  induction stages generalizing product with
  | nil => rfl
  | cons s stages ih =>
    rw [List.foldl_cons, ih, timesGain, gainsWithin, gainsWithin, List.filter_cons]
    by_cases hPart : takesPart range s = true
    · rw [if_pos hPart, if_pos hPart, List.filterMap_cons]
      cases s.gain? <;> rfl
    · rw [if_neg hPart, if_neg hPart]

theorem gainProduct_eq (range : StageRange) (stages : List (Stage α)) :
    gainProduct range stages =
      (gainsWithin range stages).foldl (fun product g => product * g.value) 1 :=
  foldl_timesGain_eq stages _

/-- What a normalization that succeeds makes of a channel. -/
structure Touched (range : StageRange) (c n : Channel α) : Prop where
  stages : List.Forall₂ (TouchedTo range (referenceFrequency c)) c.stages n.stages
  /-- The computed sensitivity is the product of the gains in range, as they are now. -/
  computed_eq : n.computed =
    (gainsWithin range n.stages).foldl (fun product g => product * g.value) 1
  /-- It becomes the documented one if there is but one stage. -/
  documented_eq : n.documented =
    if (numbered c).length = 1 then { c.documented with value := n.computed } else c.documented
  /-- Nothing else is changed. -/
  channel_eq : n = { c with stages := n.stages, computed := n.computed, documented := n.documented }

theorem Normalized.touched {c n : Channel α} (h : Normalized range c n) : Touched range c n where
  stages := h.stages_to.imp fun _ _ hTo => hTo.touchedTo
  computed_eq := by rw [h.computed_eq, gainProduct_eq]
  documented_eq := h.documented_eq
  channel_eq := h.channel_eq

/-! ## Where a normalization fails -/

/-- What a normalization that fails leaves of a channel, and why it fails. -/
inductive Halted (range : StageRange) (c : Channel α) : Fault α → Channel α → Prop
  /-- A gain is missing or 0, and the whole channel is as it was. -/
  | gain {s : Stage α} {fault : ChainFault α} (hMem : s ∈ c.stages)
      (hFault : fault = .noGain ∨ fault = .zeroGain) : Halted range c (.chain s.sequence fault) c
  /-- A filter lets nothing through.  It is left with scale 1, the stages before it are normalized,
  and those after it are as they were. -/
  | null {before stages after : List (Stage α)} {s : Stage α} {main : Filter α} {gain : Gain α}
      (hSplit : c.stages = before ++ s :: after)
      (hBefore : List.Forall₂ (TouchedTo range (referenceFrequency c)) before stages)
      (hPart : takesPart range s = true) (hFilter : s.filter? = some main)
      (hGain : s.gain? = some gain) :
      Halted range c
        (.chain s.sequence (.nullResponse main.kind gain.frequency (referenceFrequency c)))
        { c with stages := stages ++ s.withFilter (main.withScale 1) :: after }

theorem normalizeStage_eq_error {gain : Gain α} {fault : ChainFault α}
    (h : normalizeStage f s gain = (t, .error fault)) :
    ∃ main, s.filter? = some main ∧ t = s.withFilter (main.withScale 1) ∧
      fault = .nullResponse main.kind gain.frequency f := by
  rw [normalizeStage] at h
  cases hFilter : s.filter? with
  | none =>
    rw [hFilter] at h
    cases h
  | some main =>
    rw [hFilter] at h
    dsimp only at h
    split at h
    · rcases hMove : move f s.interval main gain with ⟨moved, e | g⟩
      · rw [hMove] at h
        obtain ⟨-, rfl, rfl⟩ := move_eq_error_iff.mp hMove
        cases h
        exact ⟨main, rfl, rfl, rfl⟩
      · rw [hMove] at h
        cases h
    · cases h

/-- One stage is at fault: those before it are normalized, and those after it are left as they
were. -/
theorem normalizeStages_eq_error {stages all : List (Stage α)} {product : α} {fault : Fault α}
    (h : normalizeStages range f product stages = (all, .error fault)) :
    ∃ before normalized s main gain after, stages = before ++ s :: after ∧
      List.Forall₂ (NormalizedTo range f) before normalized ∧ takesPart range s = true ∧
      s.filter? = some main ∧ s.gain? = some gain ∧
      fault = .chain s.sequence (.nullResponse main.kind gain.frequency f) ∧
      all = normalized ++ s.withFilter (main.withScale 1) :: after := by
  induction stages generalizing product all with
  | nil => cases h
  | cons s stages ih =>
    -- a stage that is passed over or normalized stands before the one at fault
    have hLater {t : Stage α} {product' : α} (hTo : NormalizedTo range f s t)
        (hRest : normalizeStages range f product (s :: stages) =
          (t :: (normalizeStages range f product' stages).1,
            (normalizeStages range f product' stages).2)) :
        ∃ before normalized u main gain after, s :: stages = before ++ u :: after ∧
          List.Forall₂ (NormalizedTo range f) before normalized ∧ takesPart range u = true ∧
          u.filter? = some main ∧ u.gain? = some gain ∧
          fault = .chain u.sequence (.nullResponse main.kind gain.frequency f) ∧
          all = normalized ++ u.withFilter (main.withScale 1) :: after := by
      rw [hRest] at h
      obtain ⟨rfl, hFault⟩ := Prod.ext_iff.mp h
      obtain ⟨before, normalized, u, main, gain, after, rfl, hBefore, hPart, hFilter, hGain, hEq,
        hAll⟩ := ih (Prod.ext rfl hFault)
      exact ⟨s :: before, t :: normalized, u, main, gain, after, rfl, .cons hTo hBefore, hPart,
        hFilter, hGain, hEq, congrArg (t :: ·) hAll⟩
    by_cases hPassed : takesPart range s = true → s.gain? = none
    · refine hLater (.kept ?_) (normalizeStages_passed hPassed f product stages)
      intro hPart gain _ hGain
      rw [hPassed hPart] at hGain
      cases hGain
    · obtain ⟨hPart, hSome⟩ := Classical.not_imp.mp hPassed
      obtain ⟨gain, hGain⟩ := Option.ne_none_iff_exists'.mp hSome
      rcases hStage : normalizeStage f s gain with ⟨t, e | g⟩
      · rw [normalizeStages_fault hPart hGain hStage] at h
        obtain ⟨main, hFilter, rfl, rfl⟩ := normalizeStage_eq_error hStage
        cases h
        exact ⟨[], [], s, main, gain, stages, rfl, .nil, hPart, hFilter, hGain, rfl, rfl⟩
      · exact hLater (normalizeStage_eq_ok hPart hGain hStage).1
          (normalizeStages_gain hPart hGain hStage product stages)

/-- A channel whose gains cannot be moved has a stage without a gain, or with a gain of 0. -/
theorem gainFault?_eq_some {c : Channel α} {fault : Fault α} (h : gainFault? c = some fault) :
    ∃ s ∈ c.stages, ∃ e, fault = .chain s.sequence e ∧ (e = .noGain ∨ e = .zeroGain) := by
  have hZero : ∀ {fault : Fault α},
      (c.stages.find? fun s => s.gain?.any (·.value == 0)).map
        (fun s => Fault.chain s.sequence ChainFault.zeroGain) = some fault →
      ∃ s ∈ c.stages, ∃ e, fault = .chain s.sequence e ∧ (e = .noGain ∨ e = .zeroGain) := by
    intro fault hFound
    obtain ⟨s, hs, rfl⟩ := Option.map_eq_some_iff.mp hFound
    exact ⟨s, List.mem_of_find?_eq_some hs, _, rfl, .inr rfl⟩
  rw [gainFault?] at h
  rcases hNumbered : numbered c with _ | ⟨only, _ | ⟨second, rest⟩⟩
  · rw [hNumbered] at h
    exact hZero h
  · rw [hNumbered] at h
    dsimp only at h
    cases hMissing : only.gain?.isNone && !c.isPolynomial with
    | true =>
      rw [hMissing] at h
      cases h
      have hOnly : only ∈ numbered c := hNumbered ▸ List.mem_singleton_self only
      exact ⟨only, (List.mem_filter.mp hOnly).1, _, rfl, .inl rfl⟩
    | false =>
      rw [hMissing] at h
      exact hZero h
  · rw [hNumbered] at h
    exact hZero h

theorem halted_of_error {c : Channel α} {fault : Fault α}
    (h : (normalize range c).2.result = .error fault) : Halted range c fault (normalize range c).1 := by
  rw [normalize] at h ⊢
  cases hGains : gainFault? c with
  | some e =>
    rw [hGains] at h
    cases h
    obtain ⟨s, hs, e', rfl, hKind⟩ := gainFault?_eq_some hGains
    exact .gain hs hKind
  | none =>
    rw [hGains] at h
    dsimp only at h ⊢
    rcases hStages : normalizeStages range (referenceFrequency c) 1 c.stages with ⟨all, e | computed⟩
    · rw [hStages] at h
      cases h
      obtain ⟨before, normalized, s, main, gain, after, hSplit, hBefore, hPart, hFilter, hGain, rfl,
        rfl⟩ := normalizeStages_eq_error hStages
      exact .null hSplit (hBefore.imp fun _ _ hTo => hTo.touchedTo) hPart hFilter hGain
    · rw [hStages] at h
      cases h

/-- **What a normalization touches.**  Where it succeeds, only the first filter and the first gain of
stages in range are changed, and the sensitivities of the channel; where it fails, nothing that
stands for the whole channel is changed, nor any stage behind the one at fault. -/
theorem normalize_touches (range : StageRange) (c : Channel α) :
    ((normalize range c).2.result = .ok () → Touched range c (normalize range c).1) ∧
      ∀ fault, (normalize range c).2.result = .error fault →
        Halted range c fault (normalize range c).1 :=
  ⟨fun hOk => (normalized_of_ok hOk).touched, fun _ hError => halted_of_error hError⟩

/-! ## A sensor that is normalized, and one that is not -/

/-- The rising sensor in a chain whose sensitivity is documented at 0 hertz, where it is deaf. -/
noncomputable def deafSensor : Channel ℝ := { risingSensor with documented := ⟨100, 0⟩ }

theorem normalize_deafSensor : (normalize .all deafSensor).2.result =
    .error (.chain 1 (.nullResponse "PZ-ANALOG" 1 0)) := by
  have hFault : gainFault? deafSensor = none := by
    refine gainFault?_eq_none_of_ne_zero (List.forall_mem_cons.mpr
      ⟨?_, List.forall_mem_singleton.mpr ?_⟩)
    · exact ⟨⟨20, 1⟩, rfl, by norm_num⟩
    · exact ⟨⟨100, 5⟩, rfl, by norm_num⟩
  have hReference : referenceFrequency deafSensor = 0 := by
    have hDocumented : (deafSensor.documented.value == (Scalar.ofNat 0).ofNat) = false :=
      ExactScalar.beq_zero_eq_false_iff.mpr (by norm_num [deafSensor])
    rw [referenceFrequency_eq, hDocumented, if_neg Bool.false_ne_true]
    rfl
  have hStale : isStale 0 (.poleZero ⟨.hertz, 1, 1, [⟨0, 0⟩], []⟩) (⟨20, 1⟩ : Gain ℝ) = true := by
    norm_num [isStale, beq_real]
  have hMove (interval : ℝ) : move 0 interval (.poleZero ⟨.hertz, 1, 1, [⟨0, 0⟩], []⟩) ⟨20, 1⟩ =
      (.poleZero ⟨.hertz, (Scalar.ofNat 1).ofNat, 1, [⟨0, 0⟩], []⟩,
        .error (.nullResponse "PZ-ANALOG" 1 0)) := by
    rw [move_eq_error_iff]
    simp only [bareModulus_rising]
    refine ⟨.inr ?_, rfl, rfl⟩
    rw [abs_zero, ← ExactScalar.numeral_zero]
    exact ExactScalar.beq_self _
  have hStages : (normalizeStages .all 0 (Scalar.ofNat 1).ofNat deafSensor.stages).2 =
      .error (.chain 1 (.nullResponse "PZ-ANALOG" 1 0)) :=
    congrArg Prod.snd (normalizeStages_fault rfl rfl
      (normalizeStage_of_fault rfl rfl hStale (hMove _)) _ _)
  exact result_of_normalizeStages_error hFault (hReference ▸ hStages)

theorem normalize_touches_sensors :
    (normalize .all risingSensor).2.result = .ok () ∧
      Touched .all risingSensor (normalize .all risingSensor).1 ∧
      (normalize .all deafSensor).2.result = .error (.chain 1 (.nullResponse "PZ-ANALOG" 1 0)) ∧
      Halted .all deafSensor (.chain 1 (.nullResponse "PZ-ANALOG" 1 0))
        (normalize .all deafSensor).1 :=
  ⟨normalize_risingSensor, (normalize_touches .all risingSensor).1 normalize_risingSensor,
    normalize_deafSensor, (normalize_touches .all deafSensor).2 _ normalize_deafSensor⟩

end Chain

end InstrumentResponse
