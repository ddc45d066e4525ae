import InstrumentResponse.Chain.Check
import InstrumentResponse.Proofs.Chain.NormalizedStages
import InstrumentResponse.Proofs.Scalar.Modulus

/-!
# Normalizing a chain twice

Normalization moves the gains of a chain to a reference frequency, and finds them there the next
time.  A second one therefore changes nothing, in exact numbers, as long as it has the same
reference frequency.

* `Normalized`: what a normalization that succeeds makes of a channel.
* `firstFrequency_moved`, `Normalized.referenceFrequency_again`: where the second one moves gains.
* `Normalized.stays`, `Normalized.moves_again`: what it leaves, with and without the reference
  frequency of the first one.
* `normalize_normalize_iff`: when a second normalization changes nothing.
-/

namespace InstrumentResponse

namespace Chain

variable {α : Type}

/-! ## Channels -/

section Channels

variable [Analytic α] {range : StageRange} {c n : Channel α}

/-- The documented sensitivity after a normalization: its value is that of the gains if there is but
one stage. -/
def rescaled (c : Channel α) (computed : α) : Gain α :=
  if (numbered c).length = 1 then { c.documented with value := computed } else c.documented

theorem normalize_eq_ok_iff :
    (normalize range c).2.result = .ok () ↔ gainFault? c = none ∧
      ∃ stages computed,
        normalizeStages range (referenceFrequency c) 1 c.stages = (stages, .ok computed) := by
  rw [normalize]
  cases gainFault? c with
  | some fault => exact ⟨nofun, nofun⟩
  | none =>
    dsimp only
    rcases normalizeStages range (referenceFrequency c) 1 c.stages with ⟨stages, fault | computed⟩
    · exact ⟨nofun, fun ⟨_, _, _, h⟩ => nomatch h⟩
    · exact ⟨fun _ => ⟨rfl, stages, computed, rfl⟩, fun _ => rfl⟩

theorem channel_of_normalize {stages : List (Stage α)} {computed : α}
    (hFault : gainFault? c = none)
    (hStages : normalizeStages range (referenceFrequency c) 1 c.stages = (stages, .ok computed)) :
    (normalize range c).1 = { c with stages, computed, documented := rescaled c computed } := by
  rw [normalize, hFault]
  dsimp only
  rw [hStages]
  rfl

theorem result_of_normalizeStages_error {fault : Fault α} (hFault : gainFault? c = none)
    (hStages : (normalizeStages range (referenceFrequency c) 1 c.stages).2 = .error fault) :
    (normalize range c).2.result = .error fault := by
  rw [normalize, hFault]
  dsimp only
  generalize normalizeStages range (referenceFrequency c) 1 c.stages = outcome at hStages ⊢
  obtain ⟨stages, result⟩ := outcome
  cases hStages
  rfl

theorem gainFault?_eq_none_iff : gainFault? c = none ↔
    (∀ s, numbered c = [s] → s.gain?.isSome = true ∨ c.isPolynomial = true) ∧
      ∀ s ∈ c.stages, ∀ g, s.gain? = some g → (g.value == 0) = false := by
  have hZero : (c.stages.find? fun s => s.gain?.any (·.value == 0)) = none ↔
      ∀ s ∈ c.stages, ∀ g, s.gain? = some g → (g.value == 0) = false := by
    rw [List.find?_eq_none]
    refine forall₂_congr fun s _ => ?_
    cases s.gain? with
    | none => simp
    | some g => simp
  rw [← hZero, gainFault?]
  rcases numbered c with _ | ⟨s, _ | ⟨s', rest⟩⟩
  · simp
  · cases hGain : s.gain? <;> cases c.isPolynomial <;> simp [hGain]
  · simp

/-- What a normalization that succeeds makes of a channel. -/
structure Normalized (range : StageRange) (c n : Channel α) : Prop where
  fault_eq : gainFault? c = none
  stages_to : List.Forall₂ (NormalizedTo range (referenceFrequency c)) c.stages n.stages
  computed_eq : n.computed = gainProduct range n.stages
  documented_eq : n.documented = rescaled c n.computed
  /-- Nothing else is changed. -/
  channel_eq : n = { c with stages := n.stages, computed := n.computed, documented := n.documented }

theorem normalized_of_ok (h : (normalize range c).2.result = .ok ()) :
    Normalized range c (normalize range c).1 := by
  obtain ⟨hFault, stages, computed, hStages⟩ := normalize_eq_ok_iff.mp h
  obtain ⟨hTo, hComputed⟩ := normalizeStages_eq_ok hStages
  rw [channel_of_normalize hFault hStages]
  exact ⟨hFault, hTo, hComputed, rfl, rfl⟩

theorem Normalized.numbered_to (h : Normalized range c n) :
    List.Forall₂ (NormalizedTo range (referenceFrequency c)) (numbered c) (numbered n) := by
  refine List.rel_filter (fun s t hTo => ?_) h.stages_to
  change (s.sequence != 0) = true ↔ (t.sequence != 0) = true
  rw [hTo.sequence_eq]

theorem Normalized.rescaled_eq (h : Normalized range c n) :
    rescaled n n.computed = n.documented := by
  rw [rescaled, ← h.numbered_to.length_eq, h.documented_eq, rescaled]
  by_cases hOne : (numbered c).length = 1
  · rw [if_pos hOne, if_pos hOne]
  · rw [if_neg hOne, if_neg hOne]

theorem Normalized.map_elements_eq {γ : Type} {p : Element α → γ} (h : Normalized range c n)
    (hGain : ∀ g g' : Gain α, p (.gain g) = p (.gain g'))
    (hFilter : ∀ (main : Filter α) (x y : α),
      p (.filter ((main.withScale x).withScaleFrequency y)) = p (.filter main)) :
    n.elements.map p = c.elements.map p := by
  rw [Channel.elements, Channel.elements, List.map_flatMap, List.map_flatMap]
  have hStages := h.stages_to
  generalize c.stages = stages at hStages ⊢
  generalize n.stages = others at hStages ⊢
  induction hStages with
  | nil => rfl
  | cons hTo _ ih => rw [List.flatMap_cons, List.flatMap_cons, ih, hTo.map_eq hGain hFilter]

theorem Normalized.isPolynomial_eq (h : Normalized range c n) :
    n.isPolynomial = c.isPolynomial := by
  refine any_of_map_eq (h.map_elements_eq (fun _ _ => rfl) fun main x y => ?_)
  cases main <;> rfl

theorem Normalized.map_list?_eq (h : Normalized range c n) :
    n.elements.map Element.list? = c.elements.map Element.list? := by
  refine h.map_elements_eq (fun _ _ => rfl) fun main x y => ?_
  cases main <;> rfl

theorem Normalized.list?_eq (h : Normalized range c n) : n.list? = c.list? :=
  findSome?_of_map_eq h.map_list?_eq

/-! ## The reference frequency -/

/-- The frequency of the first gain that has one. -/
def firstFrequency (otherwise : α) (gains : List (Gain α)) : α :=
  (gains.find? (!·.frequency == 0)).elim otherwise (·.frequency)

theorem firstFrequency_cons (otherwise : α) (g : Gain α) (gains : List (Gain α)) :
    firstFrequency otherwise (g :: gains) =
      if g.frequency == 0 then firstFrequency otherwise gains else g.frequency := by
  rw [firstFrequency, List.find?_cons]
  cases g.frequency == 0 <;> rfl

/-- The first gain that has a frequency keeps it, if gains are moved to just there. -/
theorem firstFrequency_moved {gains moved : List (Gain α)} {f otherwise : α}
    (h : List.Forall₂ (MovedTo f) gains moved) (hFirst : firstFrequency otherwise gains = f) :
    firstFrequency otherwise moved = f := by
  induction h with
  | nil => exact hFirst
  | @cons gain g gains moved hMoved _ ih =>
    rw [firstFrequency_cons] at hFirst ⊢
    by_cases hNone : (g.frequency == 0) = true
    · rw [if_pos hNone]
      apply ih
      obtain rfl | hAt := hMoved
      · rwa [if_pos hNone] at hFirst
      · -- the old gain stood at `f` or had no frequency, and `f` is none
        by_cases hOther : (gain.frequency == 0) = true
        · rwa [if_pos hOther] at hFirst
        · rw [if_neg hOther] at hFirst
          rw [hFirst, ← hAt] at hOther
          exact absurd hNone hOther
    · rw [if_neg hNone]
      obtain rfl | hAt := hMoved
      · rwa [if_neg hNone] at hFirst
      · exact hAt

theorem referenceFrequency_eq (c : Channel α) : referenceFrequency c =
    if c.documented.value == 0 then
      firstFrequency c.documented.frequency (c.stages.reverse.filterMap (·.gain?))
    else c.documented.frequency := rfl

/-- The reference frequency is kept as long as the documented sensitivity is. -/
theorem referenceFrequency_of_normalizedTo
    (hTo : List.Forall₂ (NormalizedTo range (referenceFrequency c)) c.stages n.stages)
    (hSame : n.documented = c.documented) : referenceFrequency n = referenceFrequency c := by
  have hGains : List.Forall₂ (MovedTo (referenceFrequency c))
      (c.stages.reverse.filterMap (·.gain?)) (n.stages.reverse.filterMap (·.gain?)) :=
    List.rel_filterMap (fun _ _ hStage => hStage.gain?_rel) (List.forall₂_reverse_iff.mpr hTo)
  by_cases hNone : (c.documented.value == 0) = true
  · rw [referenceFrequency_eq n, hSame, if_pos hNone]
    refine firstFrequency_moved hGains ?_
    rw [referenceFrequency_eq c, if_pos hNone]
  · rw [referenceFrequency_eq n, referenceFrequency_eq c, hSame, if_neg hNone, if_neg hNone]

end Channels

/-! ## The second reference frequency -/

section Again

variable [ExactAnalytic α] {range : StageRange} {c n : Channel α}

/-- Nothing is wrong with gains of which there is one in each stage, and none is 0. -/
theorem gainFault?_eq_none_of_ne_zero
    (h : ∀ s ∈ c.stages, ∃ g, s.gain? = some g ∧ g.value ≠ 0) : gainFault? c = none := by
  refine gainFault?_eq_none_iff.mpr ⟨fun s hOnly => ?_, fun s hs g hg => ?_⟩
  · have hs : s ∈ numbered c := hOnly ▸ List.mem_singleton_self s
    obtain ⟨g, hg, -⟩ := h s (List.mem_filter.mp hs).1
    exact .inl (Option.isSome_iff_exists.mpr ⟨g, hg⟩)
  · obtain ⟨g', hg', hValue⟩ := h s hs
    rw [hg] at hg'
    cases hg'
    exact ExactScalar.beq_zero_eq_false_iff.mpr hValue

namespace Normalized

theorem values_ne_zero (h : Normalized range c n) :
    ∀ t ∈ n.stages, ∀ g, t.gain? = some g → g.value ≠ 0 := by
  refine Chain.values_ne_zero h.stages_to fun s hs g hg => ?_
  exact ExactScalar.beq_zero_eq_false_iff.mp ((gainFault?_eq_none_iff.mp h.fault_eq).2 s hs g hg)

theorem computed_ne_zero (h : Normalized range c n) : n.computed ≠ 0 := by
  rw [h.computed_eq, gainProduct]
  refine foldl_timesGain_ne_zero ?_ h.values_ne_zero
  rw [ExactScalar.numeral_one]
  exact one_ne_zero

/-- Nothing is wrong with the gains of a channel that was normalized. -/
theorem gainFault?_eq_none (h : Normalized range c n) : gainFault? n = none := by
  refine gainFault?_eq_none_iff.mpr ⟨?_, fun t ht g hg => ?_⟩
  · -- a lone stage was alone before, and has a gain if it had one
    intro t hOnly
    have hNumbered := h.numbered_to
    rw [hOnly] at hNumbered
    cases hNumbered' : numbered c with
    | nil =>
      rw [hNumbered'] at hNumbered
      cases hNumbered
    | cons s rest =>
      rw [hNumbered'] at hNumbered
      obtain ⟨hTo, hRest⟩ := List.forall₂_cons.mp hNumbered
      rw [List.forall₂_nil_right_iff] at hRest
      rw [hRest] at hNumbered'
      rw [hTo.isSome_gain?_eq, h.isPolynomial_eq]
      exact (gainFault?_eq_none_iff.mp h.fault_eq).1 s hNumbered'
  · exact ExactScalar.beq_zero_eq_false_iff.mpr (h.values_ne_zero t ht g hg)

end Normalized

/-- A channel that has nothing to be moved, and whose sums are up to date, is left as it is. -/
theorem normalize_eq_self_iff {d : Channel α} (hFault : gainFault? d = none)
    (hComputed : d.computed = gainProduct range d.stages)
    (hRescaled : rescaled d d.computed = d.documented) :
    (normalize range d).2.result = .ok () ∧ (normalize range d).1 = d ↔
      ∀ t ∈ d.stages, Settled range (referenceFrequency d) t := by
  constructor
  · rintro ⟨hOk, hSame⟩
    have hTo := (normalized_of_ok hOk).stages_to
    rw [hSame] at hTo
    exact settled_of_normalizedTo hTo
  · intro hSettled
    have hStages := normalizeStages_of_settled hSettled (Scalar.ofNat 1).ofNat
    have hProduct : d.stages.foldl (timesGain range) (Scalar.ofNat 1).ofNat = d.computed :=
      hComputed.symm
    refine ⟨normalize_eq_ok_iff.mpr ⟨hFault, _, _, hStages⟩, ?_⟩
    rw [channel_of_normalize hFault hStages, hProduct, hRescaled]

/-- With the documented sensitivity of before, a normalization comes to the same once more. -/
theorem Normalized.restored (h : Normalized range c n) :
    (normalize range { n with documented := c.documented }).2.result = .ok () ∧
      (normalize range { n with documented := c.documented }).1 = n := by
  have hFault : gainFault? { n with documented := c.documented } = none := h.gainFault?_eq_none
  have hReference : referenceFrequency { n with documented := c.documented } =
      referenceFrequency c := referenceFrequency_of_normalizedTo h.stages_to rfl
  have hStages : normalizeStages range (referenceFrequency { n with documented := c.documented })
      (Scalar.ofNat 1).ofNat n.stages = (n.stages, .ok n.computed) := by
    rw [hReference, h.computed_eq]
    exact normalizeStages_of_settled (settled_of_normalizedTo h.stages_to) _
  have hDocumented : rescaled { n with documented := c.documented } n.computed = n.documented := by
    have hNumbered : numbered { n with documented := c.documented } = numbered n := rfl
    rw [h.documented_eq, rescaled, rescaled, h.numbered_to.length_eq, hNumbered]
  refine ⟨normalize_eq_ok_iff.mpr ⟨hFault, _, _, hStages⟩, ?_⟩
  rw [channel_of_normalize hFault hStages, hDocumented]

/-- Does a normalization lose the frequency that it moved gains to?  The sensitivity of a chain of
one stage is written down in its place, and the frequency documented with it stays. -/
def ForgetsReference (range : StageRange) (c : Channel α) : Prop :=
  (numbered c).length = 1 ∧ referenceFrequency c ≠ c.documented.frequency ∧
    ∃ s ∈ c.stages, Movable range s

/-- The reference frequency of a channel that was normalized. -/
theorem Normalized.referenceFrequency_again (h : Normalized range c n) :
    referenceFrequency n =
      if (numbered c).length = 1 then c.documented.frequency else referenceFrequency c := by
  by_cases hOne : (numbered c).length = 1
  · have hDocumented : n.documented = { c.documented with value := n.computed } := by
      rw [h.documented_eq, rescaled, if_pos hOne]
    have hValue := ExactScalar.beq_zero_eq_false_iff.mpr h.computed_ne_zero
    rw [if_pos hOne, referenceFrequency_eq, hDocumented]
    dsimp only
    rw [hValue, if_neg Bool.false_ne_true]
  · rw [if_neg hOne]
    refine referenceFrequency_of_normalizedTo h.stages_to ?_
    rw [h.documented_eq, rescaled, if_neg hOne]

/-- What was normalized stays as it is at the same reference frequency. -/
theorem Normalized.stays (h : Normalized range c n)
    (hKept : ¬ ForgetsReference range c) :
    (normalize range n).2.result = .ok () ∧ (normalize range n).1 = n := by
  refine (normalize_eq_self_iff h.gainFault?_eq_none h.computed_eq h.rescaled_eq).mpr ?_
  refine (forall_settled_iff (settled_of_normalizedTo h.stages_to)).mpr ?_
  rw [h.referenceFrequency_again, exists_movable_iff h.stages_to]
  by_cases hOne : (numbered c).length = 1
  · rw [if_pos hOne]
    by_cases hSame : referenceFrequency c = c.documented.frequency
    · exact .inl hSame.symm
    · exact .inr fun hMovable => hKept ⟨hOne, hSame, hMovable⟩
  · rw [if_neg hOne]
    exact .inl rfl

/-- What was normalized does not stay as it is without the reference frequency. -/
theorem Normalized.moves_again (h : Normalized range c n)
    (hForgets : ForgetsReference range c) :
    ¬ ((normalize range n).2.result = .ok () ∧ (normalize range n).1 = n) := by
  obtain ⟨hOne, hOther, hMovable⟩ := hForgets
  intro hSame
  have hSettled :=
    (normalize_eq_self_iff h.gainFault?_eq_none h.computed_eq h.rescaled_eq).mp hSame
  rw [forall_settled_iff (settled_of_normalizedTo h.stages_to), h.referenceFrequency_again,
    if_pos hOne, exists_movable_iff h.stages_to] at hSettled
  obtain hEq | hNone := hSettled
  · exact hOther hEq.symm
  · exact hNone hMovable

end Again

/-! ## Two sensors -/

theorem beq_real (a b : ℝ) : (a == b) = decide (a = b) := rfl

theorem bareModulus_rootless (interval scale scaleFrequency f : ℝ) :
    bareModulus interval (.poleZero ⟨.laplace, scale, scaleFrequency, [], []⟩) f = 1 := by
  change (((1 : Phasor ℝ) / 1).scale (Scalar.ofNat 1).ofNat).norm = 1
  rw [Phasor.div_one, ExactScalar.numeral_one, Phasor.scale_one, Phasor.one_eq]
  change √((1 : ℝ) ^ 2 + 0 ^ 2) = 1
  norm_num

/-- A sensor without roots, whose scale and gain hold at `f` hertz. -/
noncomputable def flatStage (f : ℝ) : Stage ℝ :=
  ⟨1, .velocity, .volts, "M/S", [.filter (.poleZero ⟨.laplace, 1, f, [], []⟩), .gain ⟨20, f⟩]⟩

/-- The sensitivity of a whole chain. -/
noncomputable def statedSensitivity : Stage ℝ :=
  ⟨0, .undefined, .undefined, "", [.gain ⟨100, 5⟩]⟩

/-- A sensor that is measured at another frequency than the whole chain. -/
noncomputable def flatSensor : Channel ℝ :=
  { Channel.empty ⟨"IU", "ANMO", "00", "BHZ"⟩ none none with
    stages := [flatStage 1, statedSensitivity]
    documented := ⟨100, 5⟩ }

/-- Gains are moved to the frequency of the documented sensitivity, whatever the stages are. -/
theorem referenceFrequency_flatSensor (stages : List (Stage ℝ)) :
    referenceFrequency { flatSensor with stages } = 5 := by
  have hDocumented : (flatSensor.documented.value == (Scalar.ofNat 0).ofNat) = false :=
    ExactScalar.beq_zero_eq_false_iff.mpr (by norm_num [flatSensor])
  rw [referenceFrequency_eq]
  dsimp only
  rw [hDocumented, if_neg Bool.false_ne_true]
  rfl

theorem gainFault?_flatSensor : gainFault? flatSensor = none := by
  refine gainFault?_eq_none_of_ne_zero (List.forall_mem_cons.mpr
    ⟨?_, List.forall_mem_singleton.mpr ?_⟩)
  · exact ⟨⟨20, 1⟩, rfl, by norm_num⟩
  · exact ⟨⟨100, 5⟩, rfl, by norm_num⟩

theorem move_flatSensor (interval : ℝ) :
    move 5 interval (.poleZero ⟨.laplace, 1, 1, [], []⟩) ⟨20, 1⟩ =
      (.poleZero ⟨.laplace, 1, 5, [], []⟩, .ok ⟨20, 5⟩) := by
  rw [move_eq_ok_iff]
  simp only [bareModulus_rootless, ExactScalar.numeral_one]
  refine ⟨⟨?_, ?_⟩, ?_, ?_⟩
  · exact ExactScalar.beq_zero_eq_false_iff.mpr one_ne_zero
  · exact ExactScalar.beq_zero_eq_false_iff.mpr one_ne_zero
  · rw [div_one]
    rfl
  · norm_num

theorem normalizeStage_flatStage :
    normalizeStage 5 (flatStage 1) ⟨20, 1⟩ = (flatStage 5, .ok ⟨20, 5⟩) := by
  have hStale : isStale 5 (.poleZero ⟨.laplace, 1, 1, [], []⟩) (⟨20, 1⟩ : Gain ℝ) = true := by
    norm_num [isStale, beq_real]
  exact normalizeStage_of_move rfl rfl hStale (move_flatSensor _)

theorem normalizeStages_flatSensor :
    normalizeStages .all (referenceFrequency flatSensor) (Scalar.ofNat 1).ofNat flatSensor.stages =
      ([flatStage 5, statedSensitivity], .ok ((Scalar.ofNat 1).ofNat * 20)) := by
  rw [referenceFrequency_flatSensor flatSensor.stages]
  exact normalizeStages_gain rfl rfl normalizeStage_flatStage _ _

theorem normalize_flatSensor : (normalize .all flatSensor).2.result = .ok () :=
  normalize_eq_ok_iff.mpr ⟨gainFault?_flatSensor, _, _, normalizeStages_flatSensor⟩

/-! ## Normalizing twice -/

/-- **A second normalization changes nothing**, unless the first one has lost the reference
frequency: that of a chain of one stage without a documented sensitivity, which is then moved again
or cannot be moved at all. -/
theorem normalize_normalize_iff [ExactAnalytic α] (range : StageRange) (c : Channel α)
    (h : (normalize range c).2.result = .ok ()) :
    ((normalize range (normalize range c).1).2.result = .ok () ∧
        (normalize range (normalize range c).1).1 = (normalize range c).1) ↔
      ¬ ForgetsReference range c :=
  ⟨fun hSame hForgets => (normalized_of_ok h).moves_again hForgets hSame,
    (normalized_of_ok h).stays⟩

theorem normalize_normalize_flatSensor :
    (normalize .all flatSensor).2.result = .ok () ∧
      (normalize .all (normalize .all flatSensor).1).2.result = .ok () ∧
      (normalize .all (normalize .all flatSensor).1).1 = (normalize .all flatSensor).1 := by
  refine ⟨normalize_flatSensor,
    (normalize_normalize_iff .all flatSensor normalize_flatSensor).mpr ?_⟩
  intro hForgets
  exact hForgets.2.1 (referenceFrequency_flatSensor flatSensor.stages)

/-- A sensor alone, whose sensitivity is not documented. -/
noncomputable def loneSensor : Channel ℝ :=
  { Channel.empty ⟨"IU", "ANMO", "00", "BHZ"⟩ none none with
    stages :=
      [⟨1, .velocity, .volts, "M/S - Velocity in Meters Per Second",
        [.filter (.poleZero ⟨.laplace, 1, 1, [⟨0, 0⟩], [⟨-6, 0⟩]⟩), .gain ⟨100, 1⟩]⟩] }

/-- The gain of the lone sensor is left where it is, and the reference frequency is lost. -/
theorem normalize_normalize_loneSensor :
    (check loneSensor).2.result = .ok () ∧ (check loneSensor).1 = loneSensor ∧
      (normalize .all loneSensor).2.result = .ok () ∧
      ¬ ((normalize .all (normalize .all loneSensor).1).2.result = .ok () ∧
        (normalize .all (normalize .all loneSensor).1).1 = (normalize .all loneSensor).1) := by
  have hOne : ((1 : ℝ) == (Scalar.ofNat 0).ofNat) = false :=
    ExactScalar.beq_zero_eq_false_iff.mpr one_ne_zero
  have hReference : referenceFrequency loneSensor = 1 := by
    have hNone : (loneSensor.documented.value == (Scalar.ofNat 0).ofNat) = true :=
      ExactScalar.beq_self _
    have hGains : loneSensor.stages.reverse.filterMap (·.gain?) = [⟨100, 1⟩] := rfl
    rw [referenceFrequency_eq, hNone, if_pos rfl, hGains, firstFrequency_cons]
    dsimp only
    rw [hOne, if_neg Bool.false_ne_true]
  have hOk : (normalize .all loneSensor).2.result = .ok () := by
    have hFault : gainFault? loneSensor = none :=
      gainFault?_eq_none_of_ne_zero
        (List.forall_mem_singleton.mpr ⟨⟨100, 1⟩, rfl, by norm_num⟩)
    -- scale and gain hold at 1 hertz already
    have hSettled : ∀ s ∈ loneSensor.stages, Settled .all (referenceFrequency loneSensor) s := by
      intro s hs _ gain main hGain hMain _
      obtain rfl := List.mem_singleton.mp hs
      cases hGain
      cases hMain
      simp [hReference, isStale, Filter.scaleFrequency?, beq_real]
    exact normalize_eq_ok_iff.mpr ⟨hFault, _, _, normalizeStages_of_settled hSettled _⟩
  refine ⟨rfl, rfl, hOk, (normalized_of_ok hOk).moves_again ⟨rfl, ?_, _, List.mem_cons_self, ?_⟩⟩
  · have hUndocumented : loneSensor.documented.frequency = 0 := ExactScalar.numeral_zero
    rw [hReference, hUndocumented]
    exact one_ne_zero
  · exact ⟨rfl, rfl, rfl⟩

end Chain

end InstrumentResponse
