import InstrumentResponse.Proofs.Scalar.Modulus
import InstrumentResponse.Chain.Calculate
import InstrumentResponse.Proofs.Chain.Renormalizing
import InstrumentResponse.Proofs.Outcomes

/-!
# Responses of adjacent ranges

A normalization works on each stage by itself, and gains are moved to the same frequency whatever
the range is.  A stage of a range is therefore left the same by the normalization of a larger range,
and what a range of stages comes to is the product of what its parts come to, wherever the stages
stand in the chain.

* `StageRange.Splits`: a range is made up of two others; `StageRange.splits_adjacent`: adjacent
  ones.
* `normalizedStage`, `normalizeStages_eq_ok_iff`: a normalization, stage by stage.
* `gainProduct_splits`, `totalResponse_splits`: the gains and the filters of a range.
* `responseWithin_adjacent`: the responses of adjacent ranges.
-/

namespace InstrumentResponse

open Chain

/-! ## Ranges in two parts -/

/-- A range is made up of two others that have no stage in common. -/
structure StageRange.Splits (whole lower upper : StageRange) : Prop where
  contains_eq (n : Nat) : whole.contains n = (lower.contains n || upper.contains n)
  disjoint (n : Nat) : lower.contains n = true → upper.contains n = false

theorem StageRange.contains_bounded (a b n : Nat) :
    contains ⟨some a, some b⟩ n = decide (a ≤ n ∧ n ≤ b) := by
  rw [Bool.decide_and]
  rfl

theorem StageRange.splits_adjacent {a b c : Nat} (hLower : a ≤ b) (hUpper : b < c) :
    Splits ⟨some a, some c⟩ ⟨some a, some b⟩ ⟨some (b + 1), some c⟩ where
  contains_eq n := by
    rw [contains_bounded, contains_bounded, contains_bounded, ← Bool.decide_or, decide_eq_decide]
    omega
  disjoint n := by
    rw [contains_bounded, contains_bounded, decide_eq_true_iff, decide_eq_false_iff_not]
    omega

namespace Chain

variable {α : Type}

/-! ## Normalization, stage by stage -/

section Stages

variable [Analytic α] {range : StageRange} {f : α} {s : Stage α}

theorem sequence_normalizeStage (f : α) (s : Stage α) (gain : Gain α) :
    (normalizeStage f s gain).1.sequence = s.sequence := by
  rw [normalizeStage]
  split
  · rfl
  · split
    · split
      · rfl
      · rfl
    · rfl

/-- Nothing hinders a stage from being normalized. -/
def Normalizable (range : StageRange) (f : α) (s : Stage α) : Prop :=
  takesPart range s = true → ∀ gain, s.gain? = some gain →
    ∃ t g, normalizeStage f s gain = (t, .ok g)

/-- A stage as a normalization to `f` hertz leaves it. -/
def normalizedStage (range : StageRange) (f : α) (s : Stage α) : Stage α :=
  if takesPart range s then s.gain?.elim s fun gain => (normalizeStage f s gain).1 else s

theorem normalizedStage_passed (h : takesPart range s = true → s.gain? = none) :
    normalizedStage range f s = s := by
  rw [normalizedStage]
  split
  · next hPart => rw [h hPart, Option.elim_none]
  · rfl

theorem sequence_normalizedStage (range : StageRange) (f : α) (s : Stage α) :
    (normalizedStage range f s).sequence = s.sequence := by
  rw [normalizedStage]
  split
  · cases s.gain? with
    | none => rfl
    | some gain => exact sequence_normalizeStage f s gain
  · rfl

theorem takesPart_normalizedStage (range part : StageRange) (f : α) (s : Stage α) :
    takesPart part (normalizedStage range f s) = takesPart part s := by
  rw [takesPart, takesPart, sequence_normalizedStage]

/-- A stage that takes part in both of two ranges, or in none, is left the same. -/
theorem normalizedStage_congr {range' : StageRange}
    (h : takesPart range' s = takesPart range s) (f : α) :
    normalizedStage range' f s = normalizedStage range f s := by
  rw [normalizedStage, normalizedStage, h]

/-- One step of a normalization that nothing hinders. -/
theorem normalizeStages_of_normalizable (h : Normalizable range f s) (product : α)
    (stages : List (Stage α)) :
    normalizeStages range f product (s :: stages) =
      (normalizedStage range f s ::
          (normalizeStages range f (timesGain range product (normalizedStage range f s)) stages).1,
        (normalizeStages range f (timesGain range product (normalizedStage range f s))
          stages).2) := by
  by_cases hPassed : takesPart range s = true → s.gain? = none
  · rw [normalizeStages_passed hPassed, normalizedStage_passed hPassed, timesGain_passed hPassed]
  · obtain ⟨hPart, hSome⟩ := Classical.not_imp.mp hPassed
    obtain ⟨gain, hGain⟩ := Option.ne_none_iff_exists'.mp hSome
    obtain ⟨t, g, hStage⟩ := h hPart gain hGain
    obtain ⟨hTo, hMoved⟩ := normalizeStage_eq_ok hPart hGain hStage
    have hSame : normalizedStage range f s = t := by
      rw [normalizedStage, if_pos hPart, hGain, Option.elim_some, hStage]
    rw [normalizeStages_gain hPart hGain hStage, hSame,
      timesGain_gain (hTo.takesPart_eq.trans hPart) hMoved]

theorem normalizable_of_eq_ok {product computed : α} {stages all : List (Stage α)}
    (h : normalizeStages range f product (s :: stages) = (all, .ok computed)) :
    Normalizable range f s := by
  intro hPart gain hGain
  rcases hStage : normalizeStage f s gain with ⟨t, fault | g⟩
  · rw [normalizeStages_fault hPart hGain hStage] at h
    cases h
  · exact ⟨t, g, rfl⟩

/-- A normalization succeeds if nothing hinders any of the stages, and works on each by itself. -/
theorem normalizeStages_eq_ok_iff {stages all : List (Stage α)} {product computed : α} :
    normalizeStages range f product stages = (all, .ok computed) ↔
      (∀ s ∈ stages, Normalizable range f s) ∧ all = stages.map (normalizedStage range f) ∧
        computed = all.foldl (timesGain range) product := by
  induction stages generalizing product all with
  | nil =>
    constructor
    · intro h
      cases h
      exact ⟨nofun, rfl, rfl⟩
    · rintro ⟨-, rfl, rfl⟩
      rfl
  | cons s stages ih =>
    rw [List.forall_mem_cons, List.map_cons]
    constructor
    · intro h
      have hs := normalizable_of_eq_ok h
      rw [normalizeStages_of_normalizable hs] at h
      obtain ⟨rfl, hResult⟩ := Prod.ext_iff.mp h
      obtain ⟨hOthers, hMap, hComputed⟩ := ih.mp (Prod.ext rfl hResult)
      exact ⟨⟨hs, hOthers⟩, congrArg (_ :: ·) hMap, hComputed⟩
    · rintro ⟨⟨hs, hOthers⟩, rfl, hComputed⟩
      rw [normalizeStages_of_normalizable hs, ih.mpr ⟨hOthers, rfl, hComputed⟩]

theorem normalize_eq_ok_iff_normalizable {c : Channel α} :
    (normalize range c).2.result = .ok () ↔
      gainFault? c = none ∧ ∀ s ∈ c.stages, Normalizable range (referenceFrequency c) s := by
  rw [normalize_eq_ok_iff]
  refine and_congr_right fun _ => ⟨?_, fun h => ⟨_, _, normalizeStages_eq_ok_iff.mpr ⟨h, rfl, rfl⟩⟩⟩
  rintro ⟨stages, computed, hStages⟩
  exact (normalizeStages_eq_ok_iff.mp hStages).1

/-- The response of a range of stages of a checked channel: their gains are moved first. -/
def responseWithin (options : Options α) (range : StageRange) (c : Channel α)
    (frequencies : List α) : Except (Fault α) (List (Phasor α)) := do
  (normalize range c).2.result
  calculate { options with stages := range } (normalize range c).1 frequencies

/-- Once its gains are moved, what is left of a channel has the response of the range. -/
theorem responseWithin_of_normalizeStages {options : Options α} {c : Channel α}
    {frequencies : List α} {stages : List (Stage α)} {computed : α} (hFault : gainFault? c = none)
    (hStages : normalizeStages range (referenceFrequency c) 1 c.stages = (stages, .ok computed)) :
    responseWithin options range c frequencies =
      calculate { options with stages := range }
        { c with stages, computed, documented := rescaled c computed } frequencies := by
  have hResult : (normalize range c).2.result = .ok () :=
    normalize_eq_ok_iff.mpr ⟨hFault, _, _, hStages⟩
  rw [responseWithin, hResult, channel_of_normalize hFault hStages]
  rfl

end Stages

/-! ## What takes part -/

section Parts

variable {whole lower upper : StageRange}

theorem takesPart_splits (h : whole.Splits lower upper) (s : Stage α) :
    takesPart whole s = (takesPart lower s || takesPart upper s) := by
  rw [takesPart, takesPart, takesPart, h.contains_eq, Bool.and_or_distrib_left]

theorem not_takesPart_of_splits (h : whole.Splits lower upper) {s : Stage α}
    (hLower : takesPart lower s = true) : takesPart upper s = false := by
  obtain ⟨-, hInside⟩ := Bool.and_eq_true_iff.mp hLower
  rw [takesPart, h.disjoint _ hInside, Bool.and_false]

variable [Analytic α] {f : α} {s : Stage α}

theorem Normalizable.of_splits (h : whole.Splits lower upper)
    (hLower : Normalizable lower f s) (hUpper : Normalizable upper f s) :
    Normalizable whole f s := by
  intro hPart
  rw [takesPart_splits h, Bool.or_eq_true] at hPart
  exact hPart.elim hLower hUpper

end Parts

/-! ## Gains -/

section Gains

variable [ExactAnalytic α] {whole lower upper : StageRange} {f : α}

theorem timesGain_eq (range : StageRange) (product : α) (s : Stage α) :
    timesGain range product s =
      product * if takesPart range s then s.gain?.elim 1 (·.value) else 1 := by
  rw [timesGain]
  cases takesPart range s with
  | false => simp
  | true => cases s.gain? <;> simp

theorem timesGain_splits (h : whole.Splits lower upper) (f x y : α) (s : Stage α) :
    timesGain lower x (normalizedStage lower f s) * timesGain upper y (normalizedStage upper f s) =
      timesGain whole (x * y) (normalizedStage whole f s) := by
  rw [timesGain_eq, timesGain_eq, timesGain_eq, takesPart_normalizedStage,
    takesPart_normalizedStage, takesPart_normalizedStage]
  have hWhole := takesPart_splits h s
  cases hLower : takesPart lower s with
  | true =>
    rw [hLower, Bool.true_or] at hWhole
    rw [hWhole, not_takesPart_of_splits h hLower,
      normalizedStage_congr (hWhole.trans hLower.symm) f]
    simp only [if_true, Bool.false_eq_true, if_false]
    ring
  | false =>
    rw [hLower, Bool.false_or] at hWhole
    rw [hWhole, normalizedStage_congr hWhole f]
    simp only [Bool.false_eq_true, if_false]
    ring

theorem foldl_timesGain_splits (h : whole.Splits lower upper) (f x y : α)
    (stages : List (Stage α)) :
    (stages.map (normalizedStage lower f)).foldl (timesGain lower) x *
        (stages.map (normalizedStage upper f)).foldl (timesGain upper) y =
      (stages.map (normalizedStage whole f)).foldl (timesGain whole) (x * y) := by
  induction stages generalizing x y with
  | nil => rfl
  | cons s stages ih =>
    simp only [List.map_cons, List.foldl_cons]
    rw [ih, timesGain_splits h]

/-- The product of the gains of a range is that of its parts. -/
theorem gainProduct_splits (h : whole.Splits lower upper) (f : α) (stages : List (Stage α)) :
    gainProduct lower (stages.map (normalizedStage lower f)) *
        gainProduct upper (stages.map (normalizedStage upper f)) =
      gainProduct whole (stages.map (normalizedStage whole f)) := by
  rw [gainProduct, gainProduct, gainProduct, foldl_timesGain_splits h, ExactScalar.numeral_one,
    one_mul]

end Gains

/-! ## Responses -/

section Responses

variable [ExactAnalytic α] {whole lower upper : StageRange} {options : Options α} {f : α}

/-- A product of factors with one more of them that is known. -/
theorem foldlM_times_cons {β : Type} {factor : β → Except (Fault α) (Phasor α)} {b : β}
    {l : List β} {v t : Phasor α}
    (h : (b :: l).foldlM (fun v b => return v * (← factor b)) v = .ok t) :
    ∃ r, factor b = .ok r ∧ l.foldlM (fun v b => return v * (← factor b)) (v * r) = .ok t := by
  rw [List.foldlM_cons] at h
  cases hFactor : factor b with
  | error fault =>
    rw [hFactor] at h
    cases h
  | ok r =>
    rw [hFactor] at h
    exact ⟨r, rfl, h⟩

/-- The product of the factors of a list is that of two parts of it, in whatever order they
stand. -/
theorem foldlM_filter_or {β : Type} {factor : β → Except (Fault α) (Phasor α)} {p q : β → Bool}
    (hDisjoint : ∀ b, p b = true → q b = false) {l : List β} {v w t u : Phasor α}
    (ht : (l.filter p).foldlM (fun v b => return v * (← factor b)) v = .ok t)
    (hu : (l.filter q).foldlM (fun v b => return v * (← factor b)) w = .ok u) :
    (l.filter fun b => p b || q b).foldlM (fun v b => return v * (← factor b)) (v * w) =
      .ok (t * u) := by
  induction l generalizing v w with
  | nil =>
    cases ht
    cases hu
    rfl
  | cons b l ih =>
    rw [List.filter_cons] at ht hu ⊢
    by_cases hp : p b = true
    · rw [hDisjoint b hp, if_neg Bool.false_ne_true] at hu
      rw [if_pos hp] at ht
      obtain ⟨r, hFactor, hRest⟩ := foldlM_times_cons ht
      rw [hp, Bool.true_or, if_pos rfl, List.foldlM_cons, hFactor]
      show List.foldlM _ (v * w * r) _ = _
      rw [Phasor.mul_right_comm]
      exact ih hRest hu
    · rw [if_neg hp] at ht
      rw [Bool.not_eq_true] at hp
      by_cases hq : q b = true
      · rw [if_pos hq] at hu
        obtain ⟨r, hFactor, hRest⟩ := foldlM_times_cons hu
        rw [hp, hq, Bool.false_or, if_pos rfl, List.foldlM_cons, hFactor]
        show List.foldlM _ (v * w * r) _ = _
        rw [Phasor.mul_assoc]
        exact ih ht hRest
      · rw [if_neg hq] at hu
        rw [Bool.not_eq_true] at hq
        rw [hp, hq, Bool.false_or, if_neg Bool.false_ne_true]
        exact ih ht hu

/-- The stages of a part of a range are left the same by a normalization of the whole range. -/
theorem filter_map_normalizedStage {part : StageRange}
    (h : ∀ n, part.contains n = true → whole.contains n = true) (f : α)
    (stages : List (Stage α)) :
    (stages.map (normalizedStage part f)).filter (part.contains ·.sequence) =
      (stages.map (normalizedStage whole f)).filter (part.contains ·.sequence) := by
  rw [List.filter_map, List.filter_map]
  have hInside (range : StageRange) : ((part.contains ·.sequence) ∘ normalizedStage range f) =
      fun s => part.contains s.sequence := by
    funext s
    show part.contains (normalizedStage range f s).sequence = _
    rw [sequence_normalizedStage]
  rw [hInside, hInside]
  refine List.map_congr_left fun s hs => normalizedStage_congr ?_ f
  have hPart := (List.mem_filter.mp hs).2
  rw [takesPart, takesPart, hPart, h _ hPart]

/-- The product of the filters of a range is that of its parts. -/
theorem totalResponse_splits (h : whole.Splits lower upper) {stages : List (Stage α)} {x : α}
    {index : Nat} {v w : Phasor α}
    (hLower : totalResponse { options with stages := lower }
      (stages.map (normalizedStage lower f)) x index = .ok v)
    (hUpper : totalResponse { options with stages := upper }
      (stages.map (normalizedStage upper f)) x index = .ok w) :
    totalResponse { options with stages := whole } (stages.map (normalizedStage whole f)) x index =
      .ok (v * w) := by
  have hWholeOfLower : ∀ n, lower.contains n = true → whole.contains n = true := by
    intro n hn
    rw [h.contains_eq, hn, Bool.true_or]
  have hWholeOfUpper : ∀ n, upper.contains n = true → whole.contains n = true := by
    intro n hn
    rw [h.contains_eq, hn, Bool.or_true]
  rw [totalResponse] at hLower hUpper ⊢
  rw [filter_map_normalizedStage hWholeOfLower] at hLower
  rw [filter_map_normalizedStage hWholeOfUpper] at hUpper
  have hBoth := foldlM_filter_or (fun s : Stage α => h.disjoint s.sequence) hLower hUpper
  rw [Phasor.one_mul] at hBoth
  simp only [h.contains_eq]
  exact hBoth

/-- The stages of a channel as a normalization of a range leaves them. -/
def stagesWithin (range : StageRange) (c : Channel α) : List (Stage α) :=
  c.stages.map (normalizedStage range (referenceFrequency c))

/-- The response of a range of stages at one frequency, in the units of the input. -/
def valueWithin (options : Options α) (range : StageRange) (c : Channel α) (x : α) (index : Nat) :
    Except (Fault α) (Phasor α) :=
  (totalResponse { options with stages := range } (stagesWithin range c) x index).map
    (·.scale (gainProduct range (stagesWithin range c)))

variable {c : Channel α} {frequencies : List α} {values : List (Phasor α)}

theorem any_stagesWithin (range : StageRange) (c : Channel α) :
    (stagesWithin range c).any (range.contains ·.sequence) =
      c.stages.any (range.contains ·.sequence) := by
  rw [stagesWithin, List.any_map]
  refine congrArg (List.any c.stages) (funext fun s => ?_)
  show range.contains (normalizedStage range _ s).sequence = _
  rw [sequence_normalizedStage]

theorem channel_of_normalizable {range : StageRange} (hFault : gainFault? c = none)
    (h : ∀ s ∈ c.stages, Normalizable range (referenceFrequency c) s) :
    (normalize range c).1 =
      { c with
        stages := stagesWithin range c
        computed := gainProduct range (stagesWithin range c)
        documented := rescaled c (gainProduct range (stagesWithin range c)) } :=
  channel_of_normalize hFault (normalizeStages_eq_ok_iff.mpr ⟨h, rfl, rfl⟩)

/-- When a range of stages has a response: nothing hinders its normalization, a stage is in range,
and the response can be told at each frequency. -/
theorem responseWithin_eq_ok_iff (hUnits : options.outputUnit = .asInput)
    (hComputed : options.useDocumented = false) (hScale : c.unitScale = 1) {range : StageRange} :
    responseWithin options range c frequencies = .ok values ↔
      (gainFault? c = none ∧ ∀ s ∈ c.stages, Normalizable range (referenceFrequency c) s) ∧
        c.stages.any (range.contains ·.sequence) = true ∧
        frequencies.zipIdx.mapM (fun p => valueWithin options range c p.1 p.2) = .ok values := by
  rw [responseWithin, ← normalize_eq_ok_iff_normalizable]
  cases hResult : (normalize range c).2.result with
  | error fault => exact ⟨nofun, fun h => nomatch h.1⟩
  | ok =>
    obtain ⟨hFault, hStages⟩ := normalize_eq_ok_iff_normalizable.mp hResult
    rw [channel_of_normalizable hFault hStages, and_iff_right rfl]
    have hValue : ∀ x index, responseAt { options with stages := range }
        { c with
          stages := stagesWithin range c
          computed := gainProduct range (stagesWithin range c)
          documented := rescaled c (gainProduct range (stagesWithin range c)) } x index =
        valueWithin options range c x index := by
      intro x index
      rw [responseAt, valueWithin]
      dsimp only
      cases totalResponse { options with stages := range } (stagesWithin range c) x index with
      | error fault => rfl
      | ok total =>
        show Except.ok
          (convert _ _ options.outputUnit (Phasor.scale (total.scale _) c.unitScale)) = _
        rw [hUnits, hScale, Phasor.scale_one, sensitivity]
        dsimp only
        rw [hComputed, if_neg Bool.false_ne_true]
        rfl
    show calculate _ _ _ = _ ↔ _
    rw [calculate]
    dsimp only
    rw [any_stagesWithin]
    simp only [hValue]
    split
    · next hAny => exact (and_iff_right hAny).symm
    · next hAny => exact ⟨nofun, fun h => absurd h.1 hAny⟩

theorem valueWithin_splits (h : whole.Splits lower upper) {x : α} {index : Nat} {v w : Phasor α}
    (hLower : valueWithin options lower c x index = .ok v)
    (hUpper : valueWithin options upper c x index = .ok w) :
    valueWithin options whole c x index = .ok (v * w) := by
  rw [valueWithin] at hLower hUpper ⊢
  cases hTotal : totalResponse { options with stages := lower } (stagesWithin lower c) x index with
  | error fault =>
    rw [hTotal] at hLower
    cases hLower
  | ok t =>
    cases hTotal' :
        totalResponse { options with stages := upper } (stagesWithin upper c) x index with
    | error fault =>
      rw [hTotal'] at hUpper
      cases hUpper
    | ok u =>
      rw [hTotal] at hLower
      rw [hTotal'] at hUpper
      cases hLower
      cases hUpper
      have hWhole : totalResponse { options with stages := whole } (stagesWithin whole c) x index =
          .ok (t * u) :=
        totalResponse_splits h hTotal hTotal'
      have hGain : gainProduct lower (stagesWithin lower c) *
          gainProduct upper (stagesWithin upper c) = gainProduct whole (stagesWithin whole c) :=
        gainProduct_splits h _ _
      rw [hWhole, Phasor.scale_mul_scale, hGain]
      rfl

/-- The response of a range is the product of those of its parts, which hold all its stages. -/
theorem responseWithin_splits (hUnits : options.outputUnit = .asInput)
    (hComputed : options.useDocumented = false) (hScale : c.unitScale = 1)
    (h : whole.Splits lower upper) {v w : List (Phasor α)}
    (hLower : responseWithin options lower c frequencies = .ok v)
    (hUpper : responseWithin options upper c frequencies = .ok w) :
    responseWithin options whole c frequencies = .ok (v.zipWith (· * ·) w) := by
  obtain ⟨⟨hFault, hStagesLower⟩, hAnyLower, hValuesLower⟩ :=
    (responseWithin_eq_ok_iff hUnits hComputed hScale).mp hLower
  obtain ⟨⟨-, hStagesUpper⟩, -, hValuesUpper⟩ :=
    (responseWithin_eq_ok_iff hUnits hComputed hScale).mp hUpper
  refine (responseWithin_eq_ok_iff hUnits hComputed hScale).mpr ⟨⟨hFault, ?_⟩, ?_, ?_⟩
  · intro s hs
    exact .of_splits h (hStagesLower s hs) (hStagesUpper s hs)
  · obtain ⟨s, hs, hInside⟩ := List.any_eq_true.mp hAnyLower
    refine List.any_eq_true.mpr ⟨s, hs, ?_⟩
    rw [h.contains_eq, hInside, Bool.true_or]
  · exact mapM_eq_ok_zipWith (fun _ _ _ => valueWithin_splits h) hValuesLower hValuesUpper

theorem length_of_responseWithin (hUnits : options.outputUnit = .asInput)
    (hComputed : options.useDocumented = false) (hScale : c.unitScale = 1) {range : StageRange}
    (h : responseWithin options range c frequencies = .ok values) :
    values.length = frequencies.length := by
  have hValues := ((responseWithin_eq_ok_iff hUnits hComputed hScale).mp h).2.2
  rw [length_of_mapM_eq_ok hValues, List.length_zipIdx]

/-- **The responses of adjacent ranges of stages multiply**: what a chain comes to from stage `l` to
stage `n` is the product of what it comes to up to stage `m` and after it, at every frequency.
Responses are in the units of the input and scaled by the computed sensitivity, and each of the
three starts from the same channel.  If its two parts have a response, the whole range has one
too. -/
theorem responseWithin_adjacent (c : Channel α) (frequencies : List α) {l m n : Nat}
    (hFirst : l ≤ m) (hLast : m < n) (hUnits : options.outputUnit = .asInput)
    (hComputed : options.useDocumented = false) (hScale : c.unitScale = 1) {v w : List (Phasor α)}
    (hLower : responseWithin options ⟨some l, some m⟩ c frequencies = .ok v)
    (hUpper : responseWithin options ⟨some (m + 1), some n⟩ c frequencies = .ok w) :
    v.length = frequencies.length ∧ w.length = frequencies.length ∧
      responseWithin options ⟨some l, some n⟩ c frequencies = .ok (v.zipWith (· * ·) w) :=
  ⟨length_of_responseWithin hUnits hComputed hScale hLower,
    length_of_responseWithin hUnits hComputed hScale hUpper,
    responseWithin_splits hUnits hComputed hScale (StageRange.splits_adjacent hFirst hLast)
      hLower hUpper⟩

end Responses

/-- An amplifier after a sensor, which lets through the more the faster its input changes. -/
noncomputable def amplifier : Stage ℝ :=
  ⟨2, .volts, .volts, "V",
    [.filter (.poleZero ⟨.hertz, 1 / 5, 5, [⟨0, 0⟩], []⟩), .gain ⟨400, 5⟩]⟩

/-- A sensor and its amplifier. -/
noncomputable def amplifiedSensor : Channel ℝ :=
  { flatSensor with stages := [flatStage 1, amplifier, statedSensitivity] }

theorem responseWithin_adjacent_amplifiedSensor :
    (check amplifiedSensor).2.result = .ok () ∧ (check amplifiedSensor).1 = amplifiedSensor ∧
      ∃ v w : List (Phasor ℝ),
        responseWithin { Options.standard with outputUnit := .asInput } ⟨some 1, some 1⟩
          amplifiedSensor [1, 10] = .ok v ∧
        responseWithin { Options.standard with outputUnit := .asInput } ⟨some 2, some 2⟩
          amplifiedSensor [1, 10] = .ok w ∧
        responseWithin { Options.standard with outputUnit := .asInput } ⟨some 1, some 2⟩
          amplifiedSensor [1, 10] = .ok (v.zipWith (· * ·) w) := by
  have hFault : gainFault? amplifiedSensor = none := by
    refine gainFault?_eq_none_of_ne_zero (List.forall_mem_cons.mpr ⟨?_, List.forall_mem_cons.mpr
      ⟨?_, List.forall_mem_singleton.mpr ?_⟩⟩)
    · exact ⟨⟨20, 1⟩, rfl, by norm_num⟩
    · exact ⟨⟨400, 5⟩, rfl, by norm_num⟩
    · exact ⟨⟨100, 5⟩, rfl, by norm_num⟩
  have hReference : referenceFrequency amplifiedSensor = 5 := referenceFrequency_flatSensor _
  have hSensor : normalizeStages ⟨some 1, some 1⟩ (referenceFrequency amplifiedSensor)
      (Scalar.ofNat 1).ofNat amplifiedSensor.stages =
        ([flatStage 5, amplifier, statedSensitivity], .ok ((Scalar.ofNat 1).ofNat * 20)) := by
    rw [hReference]
    exact normalizeStages_gain rfl rfl normalizeStage_flatStage _ _
  -- the amplifier is measured at 5 hertz already
  have hAmplifier : normalizeStages ⟨some 2, some 2⟩ (referenceFrequency amplifiedSensor)
      (Scalar.ofNat 1).ofNat amplifiedSensor.stages =
        (amplifiedSensor.stages, .ok ((Scalar.ofNat 1).ofNat * 400)) := by
    have hSettled : Settled ⟨some 2, some 2⟩ (5 : ℝ) amplifier := by
      intro _ gain main hGain hMain _
      cases hGain
      cases hMain
      simp [isStale, Filter.scaleFrequency?, beq_real]
    have hKept : normalizeStage 5 amplifier ⟨400, 5⟩ = (amplifier, .ok ⟨400, 5⟩) :=
      normalizeStage_of_settled hSettled rfl rfl
    have hOut : takesPart ⟨some 2, some 2⟩ (flatStage 1) = true → (flatStage 1).gain? = none := by
      intro hPart
      cases show false = true from hPart
    rw [hReference]
    show normalizeStages _ _ _ (flatStage 1 :: amplifier :: [statedSensitivity]) = _
    rw [normalizeStages_passed hOut, normalizeStages_gain rfl rfl hKept]
    rfl
  have hLower : ∃ v, responseWithin { Options.standard with outputUnit := .asInput }
      ⟨some 1, some 1⟩ amplifiedSensor [1, 10] = .ok v := by
    rw [responseWithin_of_normalizeStages hFault hSensor]
    exact ⟨_, rfl⟩
  have hUpper : ∃ w, responseWithin { Options.standard with outputUnit := .asInput }
      ⟨some 2, some 2⟩ amplifiedSensor [1, 10] = .ok w := by
    rw [responseWithin_of_normalizeStages hFault hAmplifier]
    exact ⟨_, rfl⟩
  obtain ⟨v, hLower⟩ := hLower
  obtain ⟨w, hUpper⟩ := hUpper
  exact ⟨rfl, rfl, v, w, hLower, hUpper, (responseWithin_adjacent amplifiedSensor [1, 10] le_rfl
    Nat.one_lt_two rfl rfl ExactScalar.numeral_one hLower hUpper).2.2⟩

end Chain

end InstrumentResponse
