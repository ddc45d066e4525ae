import InstrumentResponse.Proofs.Chain.AdjacentRanges
import InstrumentResponse.Proofs.Chain.Touched
import InstrumentResponse.Proofs.Scalar.Kinds

/-!
# Normalizing to what is not a number

A normalization divides by the moduli of filters, and looks at them before: a modulus of 0 is a
fault.  In doubles a modulus may also be infinite or not be a number, as that of an analog filter is
at one of its poles.  Such a modulus is not 0, so the normalization goes on with it, and what it
comes to takes the place of scales, gains and the sensitivity of the whole channel.

* `Moves`, `Passes`: a filter and a gain that are moved, and what is asked of them before;
  `normalizable_iff`: nothing else is.
* `Channel.numbers`: all numbers of a channel; `Channel.isSpoiled`: is one of those that a
  normalization stores none?
* `Spoils`, `isSpoiled_normalizedStage`: where that comes from in a stage.
* `PoleZero.HasPoleAt`, `spoils_of_pole`: poles.
* `normalize_isSpoiled_iff`: when a normalization that succeeds stores what is not a number.
-/

namespace InstrumentResponse

open Chain

variable {α : Type}

/-! ## The numbers of a channel -/

/-- All numbers of a filter. -/
def Filter.numbers : Filter α → List α
  | poleZero pz =>
    pz.scale :: pz.scaleFrequency :: (pz.zeros ++ pz.poles).flatMap fun z => [z.re, z.im]
  | fir h => h.scale :: h.taps
  | recursive r => r.scale :: (r.numerator ++ r.denominator)
  | list l => l.frequencies ++ l.amplitudes ++ l.phases
  | generic corners => corners.frequencies ++ corners.slopes
  | polynomial p =>
    [p.lowerFrequency, p.upperFrequency, p.lowerBound, p.upperBound, p.maxError] ++
      p.coefficients ++ p.errors

/-- All numbers of an element. -/
def Element.numbers : Element α → List α
  | filter f => f.numbers
  | decimation d => [d.interval, d.estimatedDelay, d.appliedCorrection]
  | gain g => [g.value, g.frequency]

/-- All numbers of a channel. -/
def Channel.numbers (c : Channel α) : List α :=
  c.elements.flatMap Element.numbers ++
    [c.documented.value, c.documented.frequency, c.computed, c.timing.computedDelay,
      c.timing.estimatedDelay, c.timing.appliedCorrection, c.timing.interval, c.unitScale]

/-- The scale of a filter, if it has one. -/
def Filter.scale? : Filter α → Option α
  | poleZero pz => some pz.scale
  | fir h => some h.scale
  | recursive r => some r.scale
  | _ => none

/-- The number that a normalization sets in an element: the scale of a filter or the value of a
gain. -/
def Element.setting? : Element α → Option α
  | filter f => f.scale?
  | decimation _ => none
  | gain g => some g.value

theorem Filter.scale_mem_numbers {f : Filter α} {x : α} (h : f.scale? = some x) :
    x ∈ f.numbers := by
  cases f with
  | poleZero pz =>
    cases h
    exact List.mem_cons_self
  | fir taps =>
    cases h
    exact List.mem_cons_self
  | recursive r =>
    cases h
    exact List.mem_cons_self
  | list l => cases h
  | generic corners => cases h
  | polynomial p => cases h

theorem Element.setting_mem_numbers {e : Element α} {x : α} (h : e.setting? = some x) :
    x ∈ e.numbers := by
  cases e with
  | filter f => exact Filter.scale_mem_numbers h
  | decimation d => cases h
  | gain g =>
    cases h
    exact List.mem_cons_self

theorem Filter.scale?_moved {main : Filter α} (h : main.hasResponse = true) (scale f : α) :
    ((main.withScale scale).withScaleFrequency f).scale? = some scale := by
  cases main with
  | poleZero pz => rfl
  | fir taps => rfl
  | recursive r => rfl
  | list l => cases h
  | generic corners => cases h
  | polynomial p => cases h

/-! ## Stages that are moved -/

namespace Chain

section Stages

variable [Analytic α] {range : StageRange} {f : α} {s : Stage α} {main : Filter α} {gain : Gain α}

/-- A filter and a gain of a stage are moved to `f` hertz: the stage takes part, its filter has a
response, and one of the two holds at another frequency. -/
structure Moves (range : StageRange) (f : α) (s : Stage α) (main : Filter α) (gain : Gain α) :
    Prop where
  takesPart : takesPart range s = true
  filter_eq : s.filter? = some main
  gain_eq : s.gain? = some gain
  responds : main.hasResponse = true
  stale : isStale f main gain = true

/-- What is asked of a filter before it is moved: neither modulus is 0. -/
def Passes (f interval : α) (main : Filter α) (gain : Gain α) : Prop :=
  (bareModulus interval main gain.frequency == 0) = false ∧
    (bareModulus interval main f == 0) = false

theorem settled_iff : Settled range f s ↔ ∀ main gain, ¬ Moves range f s main gain := by
  constructor
  · intro hSettled main gain ⟨hPart, hMain, hGain, hResponse, hStale⟩
    rw [hSettled hPart gain main hGain hMain hResponse] at hStale
    cases hStale
  · intro hNone hPart gain main hGain hMain hResponse
    refine Bool.eq_false_iff.mpr fun hStale => ?_
    exact hNone main gain ⟨hPart, hMain, hGain, hResponse, hStale⟩

/-- A filter scaled to modulus 1 at `f` hertz. -/
def movedFilter (f interval : α) (main : Filter α) : Filter α :=
  (main.withScale (1 / bareModulus interval main f)).withScaleFrequency f

/-- A gain moved to `f` hertz. -/
def movedGain (f interval : α) (main : Filter α) (gain : Gain α) : Gain α :=
  ⟨gain.value / bareModulus interval main gain.frequency * bareModulus interval main f, f⟩

theorem Moves.normalizeStage_eq (h : Moves range f s main gain)
    (hPasses : Passes f s.interval main gain) :
    normalizeStage f s gain =
      ((s.withFilter (movedFilter f s.interval main)).withGain (movedGain f s.interval main gain),
        .ok (movedGain f s.interval main gain)) :=
  normalizeStage_of_move h.filter_eq h.responds h.stale (move_eq_ok_iff.mpr ⟨hPasses, rfl, rfl⟩)

theorem Moves.normalizedStage_eq (h : Moves range f s main gain)
    (hPasses : Passes f s.interval main gain) :
    normalizedStage range f s =
      (s.withFilter (movedFilter f s.interval main)).withGain
        (movedGain f s.interval main gain) := by
  rw [normalizedStage, if_pos h.takesPart, h.gain_eq, Option.elim_some, h.normalizeStage_eq hPasses]

theorem normalizedStage_of_settled (h : Settled range f s) : normalizedStage range f s = s := by
  rw [normalizedStage]
  split
  · next hPart =>
    cases hGain : s.gain? with
    | none => rfl
    | some gain => rw [Option.elim_some, normalizeStage_of_settled h hPart hGain]
  · rfl

theorem exists_moves_of_not_settled (h : ¬ Settled range f s) :
    ∃ main gain, Moves range f s main gain := by
  rw [settled_iff] at h
  push Not at h
  exact h

/-- Only a modulus of 0 hinders a stage from being normalized. -/
theorem normalizable_iff : Normalizable range f s ↔
    ∀ main gain, Moves range f s main gain → Passes f s.interval main gain := by
  constructor
  · intro hStage main gain hMoves
    obtain ⟨t, g, hOk⟩ := hStage hMoves.takesPart gain hMoves.gain_eq
    rcases hMove : move f s.interval main gain with ⟨filter, fault | g'⟩
    · rw [normalizeStage_of_fault hMoves.filter_eq hMoves.responds hMoves.stale hMove] at hOk
      cases hOk
    · exact (move_eq_ok_iff.mp hMove).1
  · intro hPasses hPart gain hGain
    by_cases hSettled : Settled range f s
    · exact ⟨_, _, normalizeStage_of_settled hSettled hPart hGain⟩
    · obtain ⟨main, gain', hMoves⟩ := exists_moves_of_not_settled hSettled
      obtain rfl := Option.some.inj (hGain.symm.trans hMoves.gain_eq)
      exact ⟨_, _, hMoves.normalizeStage_eq (hPasses main gain hMoves)⟩

end Stages

end Chain

/-! ## What is not a number -/

/-- Is the scale or the value that a normalization sets in an element not a number? -/
def Element.isSpoiled (e : Element Float) : Bool := e.setting?.any Float.isNaN

/-- Is one of the numbers that a normalization sets in a channel not a number? -/
def Channel.isSpoiled (c : Channel Float) : Bool :=
  c.elements.any Element.isSpoiled || c.computed.isNaN

theorem Channel.isSpoiled_iff (c : Channel Float) : c.isSpoiled = true ↔
    (∃ s ∈ c.stages, s.elements.any Element.isSpoiled = true) ∨ c.computed.isNaN = true := by
  rw [isSpoiled, Bool.or_eq_true, elements, List.any_flatMap, List.any_eq_true]

namespace Chain

variable {range : StageRange} {f interval : Float} {s : Stage Float} {main : Filter Float}
  {gain : Gain Float}

/-- Moving a filter and a gain to `f` hertz leaves one of them without a number: one of the two
moduli is not a number, or the gain comes to 0 beside the first and the second is infinite. -/
def Spoils (f interval : Float) (main : Filter Float) (gain : Gain Float) : Prop :=
  (bareModulus interval main gain.frequency).isNaN = true ∨
    (bareModulus interval main f).isNaN = true ∨
    (gain.value / bareModulus interval main gain.frequency == 0) = true ∧
      (bareModulus interval main f).isInf = true

theorem isSpoiled_movedFilter (hResponse : main.hasResponse = true) :
    Element.isSpoiled (.filter (movedFilter f interval main)) =
      (bareModulus interval main f).isNaN := by
  have hOne : (1 : Float).isNaN = false ∧ (1 : Float).isInf = false ∧
      ((1 : Float) == 0) = false := by
    decide +kernel
  have hScale : Element.setting? (.filter (movedFilter f interval main)) =
      some ((1 : Float) / bareModulus interval main f) := Filter.scale?_moved hResponse _ f
  rw [Element.isSpoiled, hScale, Option.any_some, Double.isNaN_div, hOne.1, hOne.2.1, hOne.2.2]
  simp

theorem isSpoiled_movedGain (hFinite : gain.value.isFinite = true)
    (hPasses : Passes f interval main gain) :
    Element.isSpoiled (.gain (movedGain f interval main gain)) = true ↔
      Spoils f interval main gain := by
  obtain ⟨hThere, hHere⟩ := hPasses
  change (bareModulus interval main gain.frequency == (0 : Float)) = false at hThere
  change (bareModulus interval main f == (0 : Float)) = false at hHere
  change (gain.value / bareModulus interval main gain.frequency *
    bareModulus interval main f).isNaN = true ↔ _
  rw [Double.isNaN_mul, Double.isNaN_div, hThere, hHere, (Double.not_isNaN_of_isFinite hFinite).1,
    (Double.not_isNaN_of_isFinite hFinite).2, Spoils]
  simp only [Bool.false_or, Bool.false_and, Bool.and_false, Bool.or_false, Bool.or_eq_true,
    Bool.and_eq_true, or_assoc]

/-- All numbers that a normalization may set in a stage are finite before. -/
def Sound (s : Stage Float) : Prop :=
  ∀ e ∈ s.elements, ∀ x, e.setting? = some x → x.isFinite = true

theorem Sound.any_isSpoiled (h : Sound s) : s.elements.any Element.isSpoiled = false := by
  refine List.any_eq_false.mpr fun e he hSpoiled => ?_
  obtain ⟨x, hSetting, hNaN⟩ := (Option.any_eq_true _ _).mp hSpoiled
  rw [(Double.not_isNaN_of_isFinite (h e he x hSetting)).1] at hNaN
  cases hNaN

theorem Sound.isFinite_gain (h : Sound s) (hGain : s.gain? = some gain) :
    gain.value.isFinite = true :=
  h _ (Stage.gain_mem_of_gain? hGain) _ rfl

/-- A stage that is moved, and was sound before. -/
theorem isSpoiled_normalizedStage (hSound : Sound s) (hMoves : Moves range f s main gain)
    (hPasses : Passes f s.interval main gain) :
    (normalizedStage range f s).elements.any Element.isSpoiled = true ↔
      Spoils f s.interval main gain := by
  rw [hMoves.normalizedStage_eq hPasses,
    Stage.any_moved hMoves.filter_eq hMoves.gain_eq hSound.any_isSpoiled, Bool.or_eq_true,
    isSpoiled_movedFilter hMoves.responds,
    isSpoiled_movedGain (hSound.isFinite_gain hMoves.gain_eq) hPasses]
  exact or_iff_right_of_imp fun hHere => .inr (.inl hHere)

theorem exists_isSpoiled_iff {stages : List (Stage Float)} (hSound : ∀ s ∈ stages, Sound s)
    (hStages : ∀ s ∈ stages, Normalizable range f s) :
    (∃ s ∈ stages, (normalizedStage range f s).elements.any Element.isSpoiled = true) ↔
      ∃ s ∈ stages, ∃ main gain, Moves range f s main gain ∧ Spoils f s.interval main gain := by
  refine exists_congr fun s => and_congr_right fun hs => ?_
  have hMoved : ∀ {main gain}, Moves range f s main gain →
      ((normalizedStage range f s).elements.any Element.isSpoiled = true ↔
        Spoils f s.interval main gain) := fun hMoves =>
    isSpoiled_normalizedStage (hSound s hs) hMoves (normalizable_iff.mp (hStages s hs) _ _ hMoves)
  constructor
  · intro hSpoiled
    by_cases hSettled : Settled range f s
    · rw [normalizedStage_of_settled hSettled, (hSound s hs).any_isSpoiled] at hSpoiled
      cases hSpoiled
    · obtain ⟨main, gain, hMoves⟩ := exists_moves_of_not_settled hSettled
      exact ⟨main, gain, hMoves, (hMoved hMoves).mp hSpoiled⟩
  · rintro ⟨main, gain, hMoves, hSpoils⟩
    exact (hMoved hMoves).mpr hSpoils

/-! ## The sensitivity -/

theorem isNaN_gainProduct_iff (range : StageRange) (stages : List (Stage Float)) :
    (gainProduct range stages).isNaN = true ↔
      (∃ g ∈ gainsWithin range stages, g.value.isNaN = true) ∨
        Double.Clashes 1 ((gainsWithin range stages).map (·.value)) := by
  have hOne : (1 : Float).isNaN = false := by decide +kernel
  have hProduct : gainProduct range stages =
      ((gainsWithin range stages).map (·.value)).foldl (· * ·) 1 := by
    rw [gainProduct_eq, List.foldl_map]
  rw [hProduct, Double.isNaN_foldl_mul_iff, hOne]
  simp

/-- A gain that is not a number spoils its stage. -/
theorem any_isSpoiled_of_gainsWithin {stages : List (Stage Float)} {g : Gain Float}
    (hg : g ∈ gainsWithin range stages) (hNaN : g.value.isNaN = true) :
    ∃ t ∈ stages, t.elements.any Element.isSpoiled = true := by
  obtain ⟨t, ht, hGain⟩ := List.mem_filterMap.mp hg
  exact ⟨t, List.mem_of_mem_filter ht,
    List.any_eq_true.mpr ⟨_, Stage.gain_mem_of_gain? hGain, hNaN⟩⟩

/-- Nothing is said about a sensitivity that is not a number. -/
theorem compareSensitivity_of_isNaN (id : ChannelId) (documented : Float) {computed : Float}
    (h : computed.isNaN = true) : compareSensitivity id documented computed = [] := by
  have hDifference : ((documented - computed).abs / documented.abs).isNaN = true := by
    rw [Double.isNaN_div, Double.isNaN_abs, Double.isNaN_sub_right documented h]
    simp
  rw [compareSensitivity]
  split
  · rfl
  · exact if_neg (Double.not_le_of_isNaN _ hDifference)

end Chain

/-! ## Poles -/

/-- An analog filter has a pole at `f` hertz. -/
def PoleZero.HasPoleAt [Analytic α] (pz : PoleZero α) (f : α) : Prop :=
  pz.plane ≠ .digital ∧ ∃ p ∈ pz.poles, (0 == p.re) = true ∧ (pz.ordinate f == p.im) = true

namespace Phasor

/-- Both components are zeros or not numbers. -/
def Vanishing (z : Phasor Float) : Prop := Double.Vanishing z.re ∧ Double.Vanishing z.im

variable {z w : Phasor Float}

theorem Vanishing.mul_left (h : z.Vanishing) (w : Phasor Float) : (z * w).Vanishing :=
  ⟨(h.1.mul_left w.re).sub (h.2.mul_left w.im), (h.1.mul_left w.im).add (h.2.mul_left w.re)⟩

theorem Vanishing.mul_right (h : w.Vanishing) (z : Phasor Float) : (z * w).Vanishing :=
  ⟨(h.1.mul_right z.re).sub (h.2.mul_right z.im), (h.2.mul_right z.re).add (h.1.mul_right z.im)⟩

theorem vanishing_foldl_mul {zs : List (Phasor Float)}
    (h : z.Vanishing ∨ ∃ w ∈ zs, w.Vanishing) : (zs.foldl (· * ·) z).Vanishing := by
  induction zs generalizing z with
  | nil => exact h.resolve_right (by simp)
  | cons w zs ih =>
    apply ih
    obtain hFirst | hFactor := h
    · exact .inl (hFirst.mul_left w)
    · obtain hNext | hLater := (List.exists_mem_cons_iff _ _ _).mp hFactor
      · exact .inl (hNext.mul_right z)
      · exact .inr hLater

/-- Nothing can be divided by what vanishes in both components. -/
theorem isNaN_div (z : Phasor Float) (h : w.Vanishing) :
    (z / w).re.isNaN = true ∧ (z / w).im.isNaN = true := by
  have hNorm : Double.Vanishing w.normSq := (h.1.mul_left w.re).add (h.2.mul_left w.im)
  exact ⟨((h.1.mul_right z.re).add (h.2.mul_right z.im)).isNaN_div hNorm,
    ((h.1.mul_right z.im).sub (h.2.mul_right z.re)).isNaN_div hNorm⟩

end Phasor

theorem isNaN_hypotDouble {x y : Float} (hx : x.isNaN = true) (hy : y.isNaN = true) :
    (hypotDouble x y).isNaN = true := by
  have hx' : x.abs.isNaN = true := by rw [Double.isNaN_abs, hx]
  have hy' : y.abs.isNaN = true := by rw [Double.isNaN_abs, hy]
  rw [hypotDouble]
  dsimp only
  rw [Double.not_isInf_of_isNaN hx', Double.not_isInf_of_isNaN hy', hx', Bool.true_or, Bool.or_self,
    if_neg Bool.false_ne_true, if_pos rfl]
  decide +kernel

/-- An analog filter has no modulus at a pole. -/
theorem PoleZero.isNaN_analogResponse (pz : PoleZero Float) {f : Float} (h : pz.HasPoleAt f) :
    (pz.analogResponse f).norm.isNaN = true := by
  obtain ⟨-, p, hp, hRe, hIm⟩ := h
  have hFactor : (⟨0, pz.ordinate f⟩ - p : Phasor Float).Vanishing :=
    ⟨Double.vanishing_sub_of_beq hRe, Double.vanishing_sub_of_beq hIm⟩
  have hDenominator :
      (Phasor.prod (pz.poles.map ((⟨0, pz.ordinate f⟩ : Phasor Float) - ·))).Vanishing :=
    Phasor.vanishing_foldl_mul (.inr ⟨_, List.mem_map_of_mem hp, hFactor⟩)
  obtain ⟨hReal, hImaginary⟩ := Phasor.isNaN_div
    (Phasor.prod (pz.zeros.map ((⟨0, pz.ordinate f⟩ : Phasor Float) - ·))) hDenominator
  refine isNaN_hypotDouble ?_ ?_
  · exact (Double.isNaN_mul _ _).trans (by rw [hReal]; simp)
  · exact (Double.isNaN_mul _ _).trans (by rw [hImaginary]; simp)

namespace Chain

/-! ## Normalizing -/

theorem isNaN_bareModulus {pz : PoleZero Float} {f : Float} (interval : Float)
    (h : pz.HasPoleAt f) :
    (bareModulus interval (.poleZero pz) f).isNaN = true := by
  rcases pz with ⟨plane, scale, scaleFrequency, zeros, poles⟩
  cases plane with
  | laplace => exact PoleZero.isNaN_analogResponse ⟨.laplace, 1, scaleFrequency, zeros, poles⟩ h
  | hertz => exact PoleZero.isNaN_analogResponse ⟨.hertz, 1, scaleFrequency, zeros, poles⟩ h
  | digital => exact absurd rfl h.1

theorem spoils_of_pole {pz : PoleZero Float} {f : Float} {gain : Gain Float} (interval : Float)
    (h : pz.HasPoleAt f ∨ pz.HasPoleAt gain.frequency) :
    Spoils f interval (.poleZero pz) gain := by
  obtain hHere | hThere := h
  · exact .inr (.inl (isNaN_bareModulus interval hHere))
  · exact .inl (isNaN_bareModulus interval hThere)

theorem sound_of_numbers {c : Channel Float} (h : ∀ x ∈ c.numbers, x.isFinite = true) :
    ∀ s ∈ c.stages, Sound s := by
  intro s hs e he x hSetting
  refine h x (List.mem_append_left _ (List.mem_flatMap.mpr ⟨e, ?_, ?_⟩))
  · exact List.mem_flatMap.mpr ⟨s, hs, he⟩
  · exact Element.setting_mem_numbers hSetting

/-- What a normalization that succeeds leaves that is not a number. -/
theorem isSpoiled_normalize_iff {range : StageRange} {c : Channel Float}
    (hFinite : ∀ x ∈ c.numbers, x.isFinite = true) (hOk : (normalize range c).2.result = .ok ()) :
    (normalize range c).1.isSpoiled = true ↔
      (∃ s ∈ c.stages, ∃ main gain, Moves range (referenceFrequency c) s main gain ∧
          Spoils (referenceFrequency c) s.interval main gain) ∨
        Double.Clashes 1 ((gainsWithin range (normalize range c).1.stages).map (·.value)) := by
  obtain ⟨hFault, hStages⟩ := normalize_eq_ok_iff_normalizable.mp hOk
  have hStagesEq : (normalize range c).1.stages =
      c.stages.map (normalizedStage range (referenceFrequency c)) := by
    rw [channel_of_normalize hFault (normalizeStages_eq_ok_iff.mpr ⟨hStages, rfl, rfl⟩)]
  rw [Channel.isSpoiled_iff, (normalized_of_ok hOk).computed_eq, isNaN_gainProduct_iff, ← or_assoc,
    ← exists_isSpoiled_iff (sound_of_numbers hFinite) hStages]
  refine or_congr_left ?_
  constructor
  · intro hSpoiled
    -- a gain that is not a number is found among the elements already
    have hElements : ∃ t ∈ (normalize range c).1.stages,
        t.elements.any Element.isSpoiled = true :=
      hSpoiled.elim id fun ⟨g, hg, hNaN⟩ => any_isSpoiled_of_gainsWithin hg hNaN
    obtain ⟨t, ht, hAny⟩ := hElements
    rw [hStagesEq] at ht
    obtain ⟨s, hs, rfl⟩ := List.mem_map.mp ht
    exact ⟨s, hs, hAny⟩
  · rintro ⟨s, hs, hAny⟩
    refine .inl ⟨_, ?_, hAny⟩
    rw [hStagesEq]
    exact List.mem_map_of_mem hs

theorem warnings_of_isNaN {range : StageRange} {c : Channel Float}
    (hOk : (normalize range c).2.result = .ok ())
    (hNaN : (normalize range c).1.computed.isNaN = true) : (normalize range c).2.warnings = [] := by
  obtain ⟨hFault, stages, computed, hStages⟩ := normalize_eq_ok_iff.mp hOk
  rw [channel_of_normalize hFault hStages] at hNaN
  rw [normalize, hFault]
  dsimp only
  rw [hStages]
  dsimp only
  split
  · exact compareSensitivity_of_isNaN _ _ hNaN
  · rfl

/-- **When a normalization stores what is not a number.**  It fails for a gain of 0 or a missing
one, or for a modulus of 0, and for nothing else.  Where it succeeds on a channel of finite numbers,
a scale, a gain or the sensitivity is not a number just if moving a stage spoils it, as a pole of an
analog filter at one of the two frequencies does, or if an infinity meets a zero in the product of
the gains; and of a sensitivity that is not a number there is no warning. -/
theorem normalize_isSpoiled_iff (range : StageRange) (c : Channel Float)
    (hFinite : ∀ x ∈ c.numbers, x.isFinite = true) :
    ((normalize range c).2.result = .ok () ↔ gainFault? c = none ∧
        ∀ s ∈ c.stages, ∀ main gain, Moves range (referenceFrequency c) s main gain →
          Passes (referenceFrequency c) s.interval main gain) ∧
      ((normalize range c).2.result = .ok () →
        ((normalize range c).1.isSpoiled = true ↔
          (∃ s ∈ c.stages, ∃ main gain, Moves range (referenceFrequency c) s main gain ∧
              Spoils (referenceFrequency c) s.interval main gain) ∨
            Double.Clashes 1 ((gainsWithin range (normalize range c).1.stages).map (·.value)))) ∧
      (∀ s ∈ c.stages, ∀ pz gain, Moves range (referenceFrequency c) s (.poleZero pz) gain →
        pz.HasPoleAt (referenceFrequency c) ∨ pz.HasPoleAt gain.frequency →
          Spoils (referenceFrequency c) s.interval (.poleZero pz) gain) ∧
      ((normalize range c).2.result = .ok () → (normalize range c).1.computed.isNaN = true →
        (normalize range c).2.warnings = []) := by
  refine ⟨?_, isSpoiled_normalize_iff hFinite, ?_, warnings_of_isNaN⟩
  · simp only [normalize_eq_ok_iff_normalizable, normalizable_iff]
  · intro s _ pz gain _ hPole
    exact spoils_of_pole s.interval hPole

/-! ## Two sensors with a pole -/

/-- A sensor that resonates without damping at 1 hertz, where its gain was measured. -/
def resonator : Channel Float :=
  { Channel.empty ⟨"IU", "ANMO", "00", "BHZ"⟩ none none with
    stages :=
      [⟨1, .velocity, .volts, "M/S",
        [.filter (.poleZero ⟨.hertz, 1, 1, [], [⟨0, 1⟩, ⟨0, -1⟩]⟩), .gain ⟨100, 1⟩]⟩]
    documented := ⟨100, 2⟩ }

theorem normalize_isSpoiled_iff_resonator :
    (∀ x ∈ resonator.numbers, x.isFinite = true) ∧
      (normalize .all resonator).2.result = .ok () ∧
      (normalize .all resonator).1.isSpoiled = true := by
  have hFinite : ∀ x ∈ resonator.numbers, x.isFinite = true := by decide +kernel
  obtain ⟨-, hSpoiled, hPole, -⟩ := normalize_isSpoiled_iff .all resonator hFinite
  have hOk : (normalize .all resonator).2.result = .ok () := by decide +kernel
  have hMoves : Moves .all (referenceFrequency resonator) (resonator.stages.head (by decide))
      (.poleZero ⟨.hertz, 1, 1, [], [⟨0, 1⟩, ⟨0, -1⟩]⟩) ⟨100, 1⟩ :=
    ⟨rfl, rfl, rfl, rfl, by decide +kernel⟩
  refine ⟨hFinite, hOk, (hSpoiled hOk).mpr (.inl ⟨_, List.head_mem _, _, _, hMoves, ?_⟩)⟩
  refine hPole _ (List.head_mem _) _ _ hMoves (.inr ⟨by decide, _, List.mem_cons_self, ?_, ?_⟩)
  · decide +kernel
  · decide +kernel

/-- A sensor with a pole at 0 hertz, where the sensitivity of the whole chain is documented. -/
def integrator : Channel Float :=
  { Channel.empty ⟨"IU", "ANMO", "00", "BHZ"⟩ none none with
    stages :=
      [⟨1, .velocity, .volts, "M/S - Velocity in Meters Per Second",
          [.filter (.poleZero ⟨.laplace, 1, 1, [], [⟨0, 0⟩]⟩), .gain ⟨100, 1⟩]⟩,
        ⟨0, .undefined, .undefined, "", [.gain ⟨100, 0⟩]⟩]
    documented := ⟨100, 0⟩ }

/-- The integrator is normalized without a fault or a warning, and neither the scale of its filter
nor its gain nor its sensitivity is a number any more. -/
theorem normalize_integrator :
    (∀ x ∈ integrator.numbers, x.isFinite = true) ∧
      (check integrator).2.result = .ok () ∧ (check integrator).1 = integrator ∧
      (normalize .all integrator).2.result = .ok () ∧ (normalize .all integrator).2.warnings = [] ∧
      (normalize .all integrator).1.elements =
        [.filter (.poleZero ⟨.laplace, 0 / 0, 0, [], [⟨0, 0⟩]⟩), .gain ⟨0 / 0, 0⟩,
          .gain ⟨100, 0⟩] ∧
      (normalize .all integrator).1.computed = 0 / 0 ∧ (0 / 0 : Float).isNaN = true := by
  decide +kernel

end Chain

end InstrumentResponse
