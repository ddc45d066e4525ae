import InstrumentResponse.Proofs.Scalar.Modulus
import InstrumentResponse.Proofs.Chain.Reevaluating

/-!
# What a moved gain still tells

A gain holds at one frequency, together with the filter beside it.  When a normalization moves both
to another frequency, the gain times the modulus of the filter is at every frequency what it was
before, relative to the modulus at the old frequency of the gain.  This needs that the response of a
filter is proportional to its scale, and one is not: that of a boxcar, which a check stores by half.

* `Filter.isBoxcar_canonicalForm`: a check leaves no boxcars.
* `Filter.response?_withScale`: the response of a filter that is no boxcar, at every scale.
* `exists_response?_moved`: the response of a filter that was moved.
* `gain_mul_modulus`: what a moved gain tells at every frequency.
* `normalize_keepsGains`: the stages that a normalization moves.
-/

namespace InstrumentResponse

variable {α : Type}

/-! ## Boxcars -/

section Boxcars

variable [Scalar α]

/-- Are all taps given, and all the same? -/
def Fir.isBoxcar (h : Fir α) : Bool :=
  h.symmetry == .asymmetric && h.taps.head?.any fun a => h.taps.all (· == a)

/-- Is a filter an impulse response of equal taps? -/
def Filter.isBoxcar : Filter α → Bool
  | .fir h => h.isBoxcar
  | _ => false

end Boxcars

section Canonical

variable [ExactScalar α]

theorem Fir.nearlyEqual_self (a : α) : nearlyEqual a a = true := by
  have hLarger : Scalar.larger (Scalar.abs a) (Scalar.abs a) = |a| := by
    rw [Scalar.larger, ite_self, ExactScalar.abs_eq]
  rw [nearlyEqual, decide_eq_true_iff, hLarger, ExactScalar.abs_eq, sub_self, abs_zero,
    ExactScalar.numeral_one]
  exact mul_nonneg (div_nonneg zero_le_one (Nat.cast_nonneg _)) (abs_nonneg a)

/-- Equal taps read the same from both ends. -/
theorem Fir.isSymmetric_of_all_eq {taps : List α} {a : α} (h : taps.all (· == a) = true) :
    isSymmetric taps = true := by
  have hAll : ∀ b ∈ taps, b = a := fun b hb =>
    (ExactScalar.beq_iff b a).mp (List.all_eq_true.mp h b hb)
  rw [isSymmetric, List.all_eq_true]
  rintro ⟨b, b'⟩ hPair
  obtain ⟨hb, hb'⟩ := List.of_mem_zip hPair
  rw [hAll b hb, hAll b' (List.mem_of_mem_drop (List.mem_reverse.mp hb'))]
  exact nearlyEqual_self a

theorem Fir.isBoxcar_folded (h : Fir α) : h.folded.isBoxcar = false := by
  rw [folded]
  by_cases hSymmetric : isSymmetric h.taps = true
  · rw [if_pos hSymmetric, isBoxcar]
    by_cases hEven : h.taps.length % 2 = 0
    · rw [if_pos hEven]
      rfl
    · rw [if_neg hEven]
      rfl
  · rw [if_neg hSymmetric, isBoxcar, Bool.and_eq_false_iff]
    refine .inr ?_
    rw [← Bool.not_eq_true, Option.any_eq_true]
    rintro ⟨a, -, hAll⟩
    exact hSymmetric (isSymmetric_of_all_eq hAll)

/-- No canonical form is a boxcar. -/
theorem Filter.isBoxcar_canonicalForm (f : Filter α) : f.canonicalForm.isBoxcar = false := by
  cases f with
  | fir h =>
    rcases h with ⟨symmetry, taps, scale⟩
    cases symmetry with
    | asymmetric => exact Fir.isBoxcar_folded _
    | odd => rfl
    | even => rfl
  | _ => rfl

end Canonical

/-! ## Responses at every scale -/

/-- A filter with scale 1. -/
def Filter.bare [Scalar α] (main : Filter α) : Filter α := main.withScale 1

section Scales

variable [ExactAnalytic α]

theorem Fir.symmetricResponse_scale (h : Fir α) (w interval t : α) :
    symmetricResponse { h with scale := t } w interval =
      (symmetricResponse { h with scale := (Scalar.ofNat 1).ofNat } w interval).scale t := by
  unfold symmetricResponse
  dsimp only
  cases h.taps.getLast? with
  | none => exact (Phasor.zero_scale t).symm
  | some last => exact (Phasor.real_scale _ t).symm

theorem Fir.asymmetricResponse_scale {h : Fir α}
    (hTaps : (h.taps.head?.any fun a => h.taps.all (· == a)) = false) (w interval t : α) :
    asymmetricResponse { h with scale := t } w interval =
      (asymmetricResponse { h with scale := (Scalar.ofNat 1).ofNat } w interval).scale t := by
  rcases h with ⟨symmetry, _ | ⟨a, rest⟩, old⟩
  · exact (Phasor.zero_scale t).symm
  · have hUnequal : ¬ ((a :: rest).all (· == a) = true) := Bool.eq_false_iff.mp hTaps
    rw [asymmetricResponse, asymmetricResponse]
    dsimp only
    rw [if_neg hUnequal, if_neg hUnequal, Phasor.scale_one_scale]

/-- The response of an impulse response that is no boxcar is proportional to its scale. -/
theorem Fir.response_scale {h : Fir α} (hBoxcar : h.isBoxcar = false) (w interval t : α) :
    Fir.response { h with scale := t } w interval =
      (Fir.response { h with scale := (Scalar.ofNat 1).ofNat } w interval).scale t := by
  rcases h with ⟨symmetry, taps, old⟩
  cases symmetry with
  | asymmetric =>
    exact asymmetricResponse_scale (h := ⟨.asymmetric, taps, old⟩) hBoxcar w interval t
  | odd => exact symmetricResponse_scale ⟨.odd, taps, old⟩ w interval t
  | even => exact symmetricResponse_scale ⟨.even, taps, old⟩ w interval t

/-- The response of a filter that is no boxcar is proportional to its scale. -/
theorem Filter.response?_withScale {main : Filter α} (hBoxcar : main.isBoxcar = false)
    (f interval t : α) :
    (main.withScale t).response? f interval =
      (main.bare.response? f interval).map (·.scale t) := by
  cases main with
  | poleZero pz =>
    rcases pz with ⟨plane, old, scaleFrequency, zeros, poles⟩
    cases plane with
    | laplace => exact congrArg some (Phasor.scale_one_scale _ t).symm
    | hertz => exact congrArg some (Phasor.scale_one_scale _ t).symm
    | digital =>
      change (if zeros.isEmpty && poles.isEmpty then none else some _) =
        (if zeros.isEmpty && poles.isEmpty then none else some _).map _
      cases zeros.isEmpty && poles.isEmpty with
      | true => rfl
      | false => exact congrArg some (Phasor.scale_one_scale _ t).symm
  | fir h =>
    rw [bare, withScale, withScale, response?, response?]
    dsimp only
    rw [h.response_scale hBoxcar]
    cases h.taps.isEmpty <;> rfl
  | recursive r => exact congrArg some (Phasor.scale_one_scale _ t).symm
  | list l => rfl
  | generic corners => rfl
  | polynomial p => rfl

theorem Filter.response?_withScaleFrequency (main : Filter α) (x f interval : α) :
    (main.withScaleFrequency x).response? f interval = main.response? f interval := by
  cases main with
  | poleZero pz =>
    rcases pz with ⟨plane, scale, old, zeros, poles⟩
    cases plane <;> rfl
  | _ => rfl

omit [ExactAnalytic α] in
theorem Filter.scaleFrequency?_withScaleFrequency {main : Filter α} {f x : α}
    (h : (main.withScaleFrequency f).scaleFrequency? = some x) : x = f := by
  cases main with
  | poleZero pz =>
    cases h
    rfl
  | _ => cases h

end Scales

/-! ## Moved gains -/

namespace Chain

/-- A stage whose gain and filter have to be moved to `f` hertz: it takes part, its filter has a
response, and one of the two holds at another frequency. -/
structure Stale [Scalar α] (range : StageRange) (f : α) (s : Stage α) (main : Filter α)
    (gain : Gain α) : Prop where
  sequence_ne : s.sequence ≠ 0
  inRange : range.contains s.sequence = true
  filter_eq : s.filter? = some main
  gain_eq : s.gain? = some gain
  responds : main.hasResponse = true
  elsewhere : gain.frequency ≠ f ∨ ∃ x, main.scaleFrequency? = some x ∧ x ≠ f

/-- A filter and a gain that were moved to `f` hertz, and tell the same as before where the gain
held. -/
structure KeepsGain (f : ℝ) (main : Filter ℝ) (gain : Gain ℝ) (t : Stage ℝ) (filter : Filter ℝ)
    (g : Gain ℝ) : Prop where
  filter_eq : t.filter? = some filter
  gain_eq : t.gain? = some g
  /-- The filter is the same, at another scale. -/
  scaled : ∃ scale, filter = (main.withScale scale).withScaleFrequency f
  frequency_eq : g.frequency = f
  scaleFrequency_eq : ∀ x, filter.scaleFrequency? = some x → x = f
  modulus_eq : ∃ v, filter.response? f t.interval = some v ∧ v.norm = 1
  value_eq : ∃ v, filter.response? gain.frequency t.interval = some v ∧
    g.value * v.norm = gain.value

section Moved

variable {f interval : ℝ} {main filter : Filter ℝ} {gain g : Gain ℝ}

/-- The modulus of a filter with scale 1, where it has a response. -/
theorem exists_response?_bare (hResponse : main.hasResponse = true) (x interval : ℝ) :
    ∃ v, main.bare.response? x interval = some v ∧ bareModulus interval main x = v.norm := by
  have hSome : (main.bare.response? x interval).isSome = true := by
    rw [isSome_response?, Filter.bare, Filter.hasResponse_withScale, hResponse]
  obtain ⟨v, hv⟩ := Option.isSome_iff_exists.mp hSome
  refine ⟨v, hv, ?_⟩
  change (main.bare.response? x interval).elim _ _ = _
  rw [hv, Option.elim_some]

/-- The response of a filter that was moved to modulus 1 at `f` hertz. -/
theorem exists_response?_moved (hResponse : main.hasResponse = true)
    (hBoxcar : main.isBoxcar = false) (hMove : move f interval main gain = (filter, .ok g))
    (x : ℝ) :
    ∃ v, filter.response? x interval = some v ∧
      v.norm = bareModulus interval main x / bareModulus interval main f := by
  obtain ⟨-, rfl, -⟩ := move_eq_ok_iff.mp hMove
  obtain ⟨here, -, hHere⟩ := exists_response?_bare hResponse f interval
  obtain ⟨there, hResponds, hThere⟩ := exists_response?_bare hResponse x interval
  refine ⟨there.scale (1 / here.norm), ?_, ?_⟩
  · rw [Filter.response?_withScaleFrequency, Filter.response?_withScale hBoxcar, hResponds, hHere,
      Option.map_some, ExactScalar.numeral_one]
  · rw [Phasor.norm_scale_one_div, hHere, hThere]

/-- What a moved gain tells at any frequency, relative to the modulus where it held before. -/
theorem gain_mul_modulus (hResponse : main.hasResponse = true) (hBoxcar : main.isBoxcar = false)
    (hMove : move f interval main gain = (filter, .ok g)) (x : ℝ) :
    ∃ v, filter.response? x interval = some v ∧
      g.value * v.norm =
        gain.value * (bareModulus interval main x / bareModulus interval main gain.frequency) := by
  obtain ⟨v, hResponds, hNorm⟩ := exists_response?_moved hResponse hBoxcar hMove x
  obtain ⟨⟨-, hHere⟩, -, rfl⟩ := move_eq_ok_iff.mp hMove
  have hNonzero := ExactScalar.beq_zero_eq_false_iff.mp hHere
  refine ⟨v, hResponds, ?_⟩
  rw [hNorm, mul_assoc, mul_div_cancel₀ _ hNonzero, div_mul_eq_mul_div, mul_div_assoc]

end Moved

section Normalized

variable {range : StageRange} {f : ℝ} {s t : Stage ℝ} {main : Filter ℝ} {gain : Gain ℝ}

theorem Stale.not_settled (h : Stale range f s main gain) : ¬ Settled range f s := by
  intro hSettled
  have hPart : takesPart range s = true := takesPart_iff.mpr fun hOut => by
    obtain hZero | hOutside := hOut
    · exact h.sequence_ne hZero
    · rw [h.inRange] at hOutside
      cases hOutside
  have hHolds := hSettled hPart gain main h.gain_eq h.filter_eq h.responds
  rw [isStale, Bool.or_eq_false_iff, Bool.not_eq_false', ExactScalar.beq_iff] at hHolds
  obtain hGain | ⟨x, hScale, hOther⟩ := h.elsewhere
  · exact hGain hHolds.1
  · have hSame := hHolds.2
    rw [hScale, Option.any_some, Bool.not_eq_false', ExactScalar.beq_iff] at hSame
    exact hOther hSame

theorem NormalizedTo.interval_eq (h : NormalizedTo range f s t) : t.interval = s.interval := by
  have hDecimation : t.decimation? = s.decimation? :=
    findSome?_of_map_eq (h.map_eq (fun _ _ => rfl) fun _ _ _ => rfl)
  rw [Stage.interval, Stage.interval, hDecimation]

/-- A stale stage is moved, and keeps its gain. -/
theorem NormalizedTo.keepsGain (hTo : NormalizedTo range f s t) (h : Stale range f s main gain)
    (hBoxcar : main.isBoxcar = false) : ∃ filter g, KeepsGain f main gain t filter g := by
  have hInterval := hTo.interval_eq
  cases hTo with
  | kept hSettled => exact absurd hSettled h.not_settled
  | @moved gain' g main' filter hPart hGain hFilter hResponse hMove =>
    obtain rfl := Option.some.inj (hGain.symm.trans h.gain_eq)
    obtain rfl := Option.some.inj (hFilter.symm.trans h.filter_eq)
    obtain ⟨⟨hThere, hHere⟩, hScaled, hMoved⟩ := move_eq_ok_iff.mp hMove
    refine ⟨filter, g, Stage.filter?_moved hGain hFilter, Stage.gain?_moved hGain hFilter,
      ⟨_, hScaled.symm⟩, ?_, ?_, ?_, ?_⟩
    · rw [← hMoved]
    · intro x hx
      rw [← hScaled] at hx
      exact Filter.scaleFrequency?_withScaleFrequency hx
    · obtain ⟨v, hResponds, hNorm⟩ := exists_response?_moved hResponse hBoxcar hMove f
      rw [div_self (ExactScalar.beq_zero_eq_false_iff.mp hHere)] at hNorm
      rw [hInterval]
      exact ⟨v, hResponds, hNorm⟩
    · obtain ⟨v, hResponds, hValue⟩ := gain_mul_modulus hResponse hBoxcar hMove gain'.frequency
      rw [div_self (ExactScalar.beq_zero_eq_false_iff.mp hThere), mul_one] at hValue
      rw [hInterval]
      exact ⟨v, hResponds, hValue⟩

/-- No filter of a channel that was checked is a boxcar. -/
theorem isBoxcar_of_check {c : Channel ℝ} (hCheck : (check c).2.result = .ok ())
    (hs : s ∈ (check c).1.stages) (hMain : s.filter? = some main) : main.isBoxcar = false := by
  rw [(canonical_of_check hCheck).1] at hs
  obtain ⟨u, -, rfl⟩ := List.mem_map.mp hs
  obtain ⟨hElements, hParts⟩ := elements_of_canonical u.canonical_canonical
  rw [filter?_of_elements_eq hElements] at hMain
  rw [← canonicalForm_of_canonical hParts hMain]
  exact main.isBoxcar_canonicalForm

/-- **A moved gain keeps what it tells.**  Each stage that a normalization has to move ends up with
its gain and the scale of its filter at the reference frequency, where the filter has modulus 1, and
the new gain times the modulus of the new filter is the old gain where that one held.  A pole at one
of the two frequencies is no exception: a quotient by 0 is 0 here, as a null response is, and the
normalization does not succeed. -/
theorem normalize_keepsGains (range : StageRange) (c : Channel ℝ)
    (hCheck : (check c).2.result = .ok ())
    (hNormalize : (normalize range (check c).1).2.result = .ok ()) :
    List.Forall₂
      (fun s t => ∀ main gain, Stale range (referenceFrequency (check c).1) s main gain →
        ∃ filter g, KeepsGain (referenceFrequency (check c).1) main gain t filter g)
      (check c).1.stages (normalize range (check c).1).1.stages := by
  refine List.forall₂_iff_zip.mpr ⟨(normalized_of_ok hNormalize).stages_to.length_eq, ?_⟩
  intro s t hPair main gain hStale
  have hTo := (List.forall₂_iff_zip.mp (normalized_of_ok hNormalize).stages_to).2 hPair
  exact hTo.keepsGain hStale
    (isBoxcar_of_check hCheck (List.of_mem_zip hPair).1 hStale.filter_eq)

end Normalized

/-! ## A sensor that follows its input -/

/-- A sensor whose response rises with the frequency, scaled to modulus 1 at `f` hertz. -/
noncomputable def risingStage (scale value f : ℝ) : Stage ℝ :=
  ⟨1, .velocity, .volts, "M/S",
    [.filter (.poleZero ⟨.hertz, scale, f, [⟨0, 0⟩], []⟩), .gain ⟨value, f⟩]⟩

/-- Such a sensor, measured at another frequency than the whole chain. -/
noncomputable def risingSensor : Channel ℝ :=
  { flatSensor with stages := [risingStage 1 20 1, statedSensitivity] }

theorem bareModulus_rising (interval scale scaleFrequency f : ℝ) :
    bareModulus interval (.poleZero ⟨.hertz, scale, scaleFrequency, [⟨0, 0⟩], []⟩) f = |f| := by
  have hFactor : (⟨0, f⟩ - ⟨0, 0⟩ : Phasor ℝ) = ⟨0, f⟩ := by
    change (⟨0 - 0, f - 0⟩ : Phasor ℝ) = ⟨0, f⟩
    rw [sub_zero, sub_zero]
  change ((1 * (⟨(Scalar.ofNat 0).ofNat, f⟩ - ⟨0, 0⟩) / 1 : Phasor ℝ).scale
    (Scalar.ofNat 1).ofNat).norm = |f|
  rw [ExactScalar.numeral_zero, hFactor, Phasor.one_mul, Phasor.div_one, ExactScalar.numeral_one,
    Phasor.scale_one]
  change √((0 : ℝ) ^ 2 + f ^ 2) = |f|
  rw [zero_pow two_ne_zero, zero_add, Real.sqrt_sq_eq_abs]

theorem move_risingSensor (interval : ℝ) :
    move 5 interval (.poleZero ⟨.hertz, 1, 1, [⟨0, 0⟩], []⟩) ⟨20, 1⟩ =
      (.poleZero ⟨.hertz, 1 / 5, 5, [⟨0, 0⟩], []⟩, .ok ⟨100, 5⟩) := by
  rw [move_eq_ok_iff]
  simp only [bareModulus_rising, ExactScalar.numeral_one]
  refine ⟨⟨?_, ?_⟩, ?_, ?_⟩
  · exact ExactScalar.beq_zero_eq_false_iff.mpr (by norm_num)
  · exact ExactScalar.beq_zero_eq_false_iff.mpr (by norm_num)
  · rw [Nat.abs_ofNat]
    rfl
  · norm_num

theorem normalize_risingSensor : (normalize .all risingSensor).2.result = .ok () := by
  have hFault : gainFault? risingSensor = none := by
    refine gainFault?_eq_none_of_ne_zero (List.forall_mem_cons.mpr
      ⟨?_, List.forall_mem_singleton.mpr ?_⟩)
    · exact ⟨⟨20, 1⟩, rfl, by norm_num⟩
    · exact ⟨⟨100, 5⟩, rfl, by norm_num⟩
  have hReference : referenceFrequency risingSensor = 5 := referenceFrequency_flatSensor _
  have hStale : isStale 5 (.poleZero ⟨.hertz, 1, 1, [⟨0, 0⟩], []⟩) (⟨20, 1⟩ : Gain ℝ) = true := by
    norm_num [isStale, beq_real]
  refine normalize_eq_ok_iff.mpr ⟨hFault, ?_⟩
  rw [hReference]
  exact ⟨_, _, normalizeStages_gain rfl rfl
    (normalizeStage_of_move rfl rfl hStale (move_risingSensor _)) _ _⟩

theorem normalize_keepsGains_risingSensor :
    (check risingSensor).2.result = .ok () ∧ (check risingSensor).1 = risingSensor ∧
      (normalize .all risingSensor).2.result = .ok () ∧
      Stale .all 5 (risingStage 1 20 1) (.poleZero ⟨.hertz, 1, 1, [⟨0, 0⟩], []⟩) ⟨20, 1⟩ ∧
      ∃ t others filter g, (normalize .all risingSensor).1.stages = t :: others ∧
        KeepsGain 5 (.poleZero ⟨.hertz, 1, 1, [⟨0, 0⟩], []⟩) ⟨20, 1⟩ t filter g := by
  have hReference : referenceFrequency risingSensor = 5 := referenceFrequency_flatSensor _
  have hStale : Stale .all 5 (risingStage 1 20 1)
      (.poleZero ⟨.hertz, 1, 1, [⟨0, 0⟩], []⟩) ⟨20, 1⟩ :=
    ⟨one_ne_zero, rfl, rfl, rfl, rfl, .inl (by norm_num)⟩
  have hKept := normalize_keepsGains .all risingSensor rfl normalize_risingSensor
  change List.Forall₂ _ [risingStage 1 20 1, statedSensitivity]
    (normalize .all risingSensor).1.stages at hKept
  obtain ⟨t, others, hFirst, -, hStages⟩ := List.forall₂_cons_left_iff.mp hKept
  obtain ⟨filter, g, hMoved⟩ := hFirst _ _ (hReference ▸ hStale)
  refine ⟨rfl, rfl, normalize_risingSensor, hStale, t, others, filter, g, hStages, ?_⟩
  exact hReference ▸ hMoved

end Chain

end InstrumentResponse
