import InstrumentResponse.Chain.Normalize
import InstrumentResponse.Proofs.Scalar.Exact

/-!
# What a normalization makes of stages

A stage in range is moved to a frequency if it has a gain and a filter with a response that hold at
another one.  Afterwards there is nothing to be moved in it.

* `replaceFirst_of_findSome?`: a list around the element that is replaced; `Stage.map_moved`: what
  does not look at the filter or the gain of a stage sees no difference.
* `move_eq_ok_iff`: a filter and a gain that are moved.
* `Settled`: a stage with nothing to be moved; `NormalizedTo`: what a normalization makes of a
  stage; `NormalizedTo.settled`: it is settled afterwards.
* `normalizeStages_eq_ok`, `normalizeStages_of_settled`: the stages of a chain.
-/

namespace InstrumentResponse

variable {α : Type}

/-! ## Replaced elements -/

theorem replaceFirst_append {β : Type} {f : β → Option β} {before : List β} {b b' : β}
    (hBefore : ∀ e ∈ before, f e = none) (hb : f b = some b') (rest : List β) :
    replaceFirst f (before ++ b :: rest) = before ++ b' :: rest := by
  induction before with
  | nil =>
    rw [List.nil_append, replaceFirst, hb]
    rfl
  | cons e before ih =>
    obtain ⟨he, hRest⟩ := List.forall_mem_cons.mp hBefore
    rw [List.cons_append, replaceFirst, he]
    exact congrArg (e :: ·) (ih hRest)

/-- A list around the element in it that is replaced. -/
theorem replaceFirst_of_findSome? {β γ : Type} {p : β → Option γ} {l : List β} {x : γ}
    (h : l.findSome? p = some x) :
    ∃ before b rest, l = before ++ b :: rest ∧ p b = some x ∧ (∀ e ∈ before, p e = none) ∧
      ∀ b', replaceFirst (fun e => (p e).map fun _ => b') l = before ++ b' :: rest := by
  obtain ⟨before, b, rest, rfl, hb, hBefore⟩ := List.findSome?_eq_some_iff.mp h
  refine ⟨before, b, rest, rfl, hb, hBefore, fun b' => replaceFirst_append ?_ ?_ rest⟩
  · intro e he
    rw [hBefore e he, Option.map_none]
  · rw [hb, Option.map_some]

/-- Replacing the first element that has a part of some kind replaces the first of these parts. -/
theorem filterMap_replaceFirst {β γ : Type} {p : β → Option γ} {b' : β} {x : γ}
    (hb' : p b' = some x) (l : List β) :
    (replaceFirst (fun b => (p b).map fun _ => b') l).filterMap p =
      (l.filterMap p).modifyHead fun _ => x := by
  induction l with
  | nil => rfl
  | cons b l ih =>
    cases hb : p b with
    | none =>
      rw [replaceFirst, hb, List.filterMap_cons_none hb]
      exact (List.filterMap_cons_none hb).trans ih
    | some y =>
      rw [replaceFirst, hb, List.filterMap_cons_some hb]
      exact List.filterMap_cons_some hb'

/-- What replacing an element does not change in it, it does not change in the list. -/
theorem map_replaceFirst_of {β δ : Type} {f : β → Option β} {q : β → δ}
    (h : ∀ b b', f b = some b' → q b' = q b) (l : List β) :
    (replaceFirst f l).map q = l.map q := by
  induction l with
  | nil => rfl
  | cons b l ih =>
    rw [replaceFirst]
    cases hb : f b with
    | none => exact congrArg (q b :: ·) ih
    | some b' => exact congrArg (· :: l.map q) (h b b' hb)

theorem findSome?_replaceFirst {β γ : Type} {p : β → Option γ} {l : List β} {x y : γ}
    (h : l.findSome? p = some x) {b' : β} (hb' : p b' = some y) :
    (replaceFirst (fun e => (p e).map fun _ => b') l).findSome? p = some y := by
  rw [← List.head?_filterMap, filterMap_replaceFirst hb', List.head?_modifyHead,
    List.head?_filterMap, h, Option.map_some]

theorem map_replaceFirst {β γ δ : Type} {p : β → Option γ} {q : β → δ} {l : List β} {x : γ}
    (h : l.findSome? p = some x) {b' : β} (hSame : ∀ b, p b = some x → q b' = q b) :
    (replaceFirst (fun e => (p e).map fun _ => b') l).map q = l.map q := by
  obtain ⟨before, b, rest, hSplit, hb, -, hReplaced⟩ := replaceFirst_of_findSome? h
  rw [hReplaced, hSplit, List.map_append, List.map_append, List.map_cons, List.map_cons,
    hSame b hb]

theorem any_replaceFirst {β γ : Type} {p : β → Option γ} {q : β → Bool} {l : List β} {x : γ}
    (h : l.findSome? p = some x) (hq : ∀ b, p b = some x → q b = false) (b' : β) :
    (replaceFirst (fun b => (p b).map fun _ => b') l).any q = (l.any q || q b') := by
  obtain ⟨before, b, rest, rfl, hb, -, hReplaced⟩ := replaceFirst_of_findSome? h
  rw [hReplaced, List.any_append, List.any_append, List.any_cons, List.any_cons, hq b hb,
    Bool.false_or, Bool.or_comm (q b'), Bool.or_assoc]

theorem findSome?_of_map_eq {β γ : Type} {p : β → Option γ} {l l' : List β}
    (h : l'.map p = l.map p) : l'.findSome? p = l.findSome? p := by
  have hFirst := congrArg (List.findSome? id) h
  rwa [List.findSome?_map, List.findSome?_map] at hFirst

theorem any_of_map_eq {β γ : Type} {p : β → Bool} {q : γ → Bool} {l : List β} {l' : List γ}
    (h : l'.map q = l.map p) : l'.any q = l.any p := by
  have hAny := congrArg (List.any · id) h
  rwa [List.any_map, List.any_map] at hAny

namespace Stage

variable {s : Stage α} {main filter : Filter α} {gain g : Gain α}

theorem filter?_withFilter (h : s.filter? = some main) : (s.withFilter filter).filter? = some filter :=
  findSome?_replaceFirst h rfl

theorem gain?_withGain (h : s.gain? = some gain) : (s.withGain g).gain? = some g :=
  findSome?_replaceFirst h rfl

/-- A stage with another filter looks the same to what does not tell the two filters apart. -/
theorem map_withFilter {γ : Type} {p : Element α → γ} (h : s.filter? = some main)
    (hSame : p (.filter filter) = p (.filter main)) :
    (s.withFilter filter).elements.map p = s.elements.map p := by
  refine map_replaceFirst h fun e he => ?_
  rcases e with f | d | g
  · cases he
    exact hSame
  · cases he
  · cases he

theorem map_withGain {γ : Type} {p : Element α → γ} (h : s.gain? = some gain)
    (hSame : p (.gain g) = p (.gain gain)) :
    (s.withGain g).elements.map p = s.elements.map p := by
  refine map_replaceFirst h fun e he => ?_
  rcases e with f | d | g
  · cases he
  · cases he
  · cases he
    exact hSame

theorem gain?_withFilter (h : s.filter? = some main) : (s.withFilter filter).gain? = s.gain? :=
  findSome?_of_map_eq (map_withFilter h rfl)

theorem filter?_withGain (h : s.gain? = some gain) : (s.withGain g).filter? = s.filter? :=
  findSome?_of_map_eq (map_withGain h rfl)

/-! A stage with another filter and another gain. -/

theorem gain?_moved (hGain : s.gain? = some gain) (hFilter : s.filter? = some main) :
    ((s.withFilter filter).withGain g).gain? = some g :=
  gain?_withGain ((gain?_withFilter hFilter).trans hGain)

theorem filter?_moved (hGain : s.gain? = some gain) (hFilter : s.filter? = some main) :
    ((s.withFilter filter).withGain g).filter? = some filter := by
  rw [filter?_withGain ((gain?_withFilter hFilter).trans hGain), filter?_withFilter hFilter]

theorem map_moved {γ : Type} {p : Element α → γ} (hGain : s.gain? = some gain)
    (hFilter : s.filter? = some main) (hSameFilter : p (.filter filter) = p (.filter main))
    (hSameGain : p (.gain g) = p (.gain gain)) :
    ((s.withFilter filter).withGain g).elements.map p = s.elements.map p := by
  rw [map_withGain ((gain?_withFilter hFilter).trans hGain) hSameGain,
    map_withFilter hFilter hSameFilter]

theorem filter_mem_of_filter? (h : s.filter? = some main) : .filter main ∈ s.elements := by
  obtain ⟨e, he, hMain⟩ := List.exists_of_findSome?_eq_some h
  cases e with
  | filter f =>
    cases hMain
    exact he
  | decimation d => cases hMain
  | gain g => cases hMain

theorem gain_mem_of_gain? (h : s.gain? = some gain) : .gain gain ∈ s.elements := by
  obtain ⟨e, he, hGain⟩ := List.exists_of_findSome?_eq_some h
  cases e with
  | filter f => cases hGain
  | decimation d => cases hGain
  | gain g =>
    cases hGain
    exact he

/-- What holds of no element of a stage holds of a replaced one at most. -/
theorem any_moved {q : Element α → Bool} (hFilter : s.filter? = some main)
    (hGain : s.gain? = some gain) (hq : s.elements.any q = false) (filter : Filter α) (g : Gain α) :
    ((s.withFilter filter).withGain g).elements.any q = (q (.filter filter) || q (.gain g)) := by
  have hNone : ∀ e ∈ s.elements, q e = false := fun e he =>
    Bool.eq_false_iff.mpr (List.any_eq_false.mp hq e he)
  have hOldFilter : ∀ e : Element α, e.filter? = some main → q e = false := by
    intro e he
    cases e with
    | filter f =>
      cases he
      exact hNone _ (filter_mem_of_filter? hFilter)
    | decimation d => cases he
    | gain g => cases he
  have hOldGain : ∀ e : Element α, e.gain? = some gain → q e = false := by
    intro e he
    cases e with
    | filter f => cases he
    | decimation d => cases he
    | gain g =>
      cases he
      exact hNone _ (gain_mem_of_gain? hGain)
  have hGain' : (s.withFilter filter).gain? = some gain := (gain?_withFilter hFilter).trans hGain
  rw [withGain, any_replaceFirst hGain' hOldGain, withFilter, any_replaceFirst hFilter hOldFilter, hq,
    Bool.false_or]

end Stage

/-! ## Filters with a response of their own -/

/-- Does a filter have a response of its own? -/
def Filter.hasResponse : Filter α → Bool
  | .poleZero pz => pz.plane != .digital || !pz.isRootless
  | .fir h => !h.taps.isEmpty
  | .recursive _ => true
  | _ => false

theorem Filter.hasResponse_withScale (main : Filter α) (scale : α) :
    (main.withScale scale).hasResponse = main.hasResponse := by
  cases main <;> rfl

theorem Filter.hasResponse_withScaleFrequency (main : Filter α) (f : α) :
    (main.withScaleFrequency f).hasResponse = main.hasResponse := by
  cases main <;> rfl

namespace Chain

section Response

variable [Analytic α]

/-- Whether a filter has a response does not depend on where it is looked at. -/
theorem isSome_response? (main : Filter α) (f interval : α) :
    (main.response? f interval).isSome = main.hasResponse := by
  cases main with
  | poleZero pz =>
    rcases pz with ⟨plane, scale, scaleFrequency, zeros, poles⟩
    cases plane with
    | laplace => rfl
    | hertz => rfl
    | digital =>
      rw [Filter.response?, Filter.hasResponse]
      cases hRoots : PoleZero.isRootless ⟨.digital, scale, scaleFrequency, zeros, poles⟩ <;>
        simp
  | fir h =>
    rw [Filter.response?, Filter.hasResponse]
    cases hTaps : h.taps.isEmpty <;> simp
  | recursive r => rfl
  | list l => rfl
  | generic corners => rfl
  | polynomial p => rfl

/-- The modulus of a filter with scale 1. -/
def bareModulus (interval : α) (main : Filter α) (f : α) : α :=
  ((main.withScale 1).response? f interval).elim 0 (·.norm)

/-- A filter that is moved is scaled, and its gain by as much the other way round. -/
theorem move_eq_ok_iff {f interval : α} {main moved : Filter α} {gain g : Gain α} :
    move f interval main gain = (moved, .ok g) ↔
      ((bareModulus interval main gain.frequency == 0) = false ∧
        (bareModulus interval main f == 0) = false) ∧
      (main.withScale (1 / bareModulus interval main f)).withScaleFrequency f = moved ∧
      (⟨gain.value / bareModulus interval main gain.frequency * bareModulus interval main f, f⟩ :
        Gain α) = g := by
  change (if bareModulus interval main gain.frequency == 0 || bareModulus interval main f == 0
    then _ else _) = _ ↔ _
  rw [← Bool.or_eq_false_iff]
  cases bareModulus interval main gain.frequency == 0 || bareModulus interval main f == 0 with
  | true => exact ⟨nofun, nofun⟩
  | false =>
    rw [if_neg Bool.false_ne_true, Prod.mk.injEq, Except.ok.injEq]
    exact (and_iff_right rfl).symm

/-- A filter that lets nothing through at one of the two frequencies is left with scale 1. -/
theorem move_eq_error_iff {f interval : α} {main moved : Filter α} {gain : Gain α}
    {fault : ChainFault α} :
    move f interval main gain = (moved, .error fault) ↔
      ((bareModulus interval main gain.frequency == 0) = true ∨
        (bareModulus interval main f == 0) = true) ∧
      main.withScale 1 = moved ∧ .nullResponse main.kind gain.frequency f = fault := by
  change (if bareModulus interval main gain.frequency == 0 || bareModulus interval main f == 0
    then _ else _) = _ ↔ _
  rw [← Bool.or_eq_true]
  cases bareModulus interval main gain.frequency == 0 || bareModulus interval main f == 0 with
  | true =>
    rw [if_pos rfl, Prod.mk.injEq, Except.error.injEq]
    exact (and_iff_right rfl).symm
  | false => exact ⟨nofun, nofun⟩

end Response

/-! ## Settled stages -/

/-- Is a stage one of those that are normalized? -/
def takesPart (range : StageRange) (s : Stage α) : Bool :=
  s.sequence != 0 && range.contains s.sequence

section Stages

variable [Analytic α] {range : StageRange} {f : α} {s t : Stage α}

/-- A stage has nothing that is to be moved to `f`. -/
def Settled (range : StageRange) (f : α) (s : Stage α) : Prop :=
  takesPart range s = true → ∀ gain main, s.gain? = some gain → s.filter? = some main →
    main.hasResponse = true → isStale f main gain = false

/-- What a normalization to `f` makes of a stage. -/
inductive NormalizedTo (range : StageRange) (f : α) (s : Stage α) : Stage α → Prop
  | kept (hSettled : Settled range f s) : NormalizedTo range f s s
  | moved {gain g : Gain α} {main filter : Filter α} (hPart : takesPart range s = true)
      (hGain : s.gain? = some gain) (hFilter : s.filter? = some main)
      (hResponse : main.hasResponse = true)
      (hMove : move f s.interval main gain = (filter, .ok g)) :
      NormalizedTo range f s ((s.withFilter filter).withGain g)

theorem normalizeStage_eq_ok {gain g : Gain α}
    (hPart : takesPart range s = true) (hGain : s.gain? = some gain)
    (h : normalizeStage f s gain = (t, .ok g)) :
    NormalizedTo range f s t ∧ t.gain? = some g := by
  rw [normalizeStage] at h
  cases hFilter : s.filter? with
  | none =>
    rw [hFilter] at h
    cases h
    refine ⟨.kept ?_, hGain⟩
    intro _ gain' main _ hMain
    rw [hFilter] at hMain
    cases hMain
  | some main =>
    rw [hFilter] at h
    dsimp only at h
    rw [isSome_response?] at h
    split at h
    · next hBoth =>
      obtain ⟨-, hResponse⟩ := Bool.and_eq_true_iff.mp hBoth
      split at h
      · cases h
      · next filter _ hMove =>
        cases h
        exact ⟨.moved hPart hGain hFilter hResponse hMove, Stage.gain?_moved hGain hFilter⟩
    · next hNot =>
      cases h
      refine ⟨.kept ?_, hGain⟩
      intro _ gain' main' hGain' hMain' hResponse
      rw [hGain] at hGain'
      rw [hFilter] at hMain'
      cases hGain'
      cases hMain'
      rw [hResponse, Bool.and_true, Bool.not_eq_true] at hNot
      exact hNot

theorem normalizeStage_of_settled {gain : Gain α}
    (hSettled : Settled range f s) (hPart : takesPart range s = true)
    (hGain : s.gain? = some gain) : normalizeStage f s gain = (s, .ok gain) := by
  rw [normalizeStage]
  cases hFilter : s.filter? with
  | none => rfl
  | some main =>
    dsimp only
    rw [isSome_response?]
    cases hResponse : main.hasResponse with
    | false => rw [Bool.and_false, if_neg Bool.false_ne_true]
    | true =>
      rw [hSettled hPart gain main hGain hFilter hResponse, Bool.false_and,
        if_neg Bool.false_ne_true]

theorem normalizeStage_of_move {gain g : Gain α} {main filter : Filter α}
    (hFilter : s.filter? = some main) (hResponse : main.hasResponse = true)
    (hStale : isStale f main gain = true) (hMove : move f s.interval main gain = (filter, .ok g)) :
    normalizeStage f s gain = ((s.withFilter filter).withGain g, .ok g) := by
  rw [normalizeStage, hFilter]
  dsimp only
  rw [isSome_response?, hResponse, hStale, Bool.and_true, if_pos rfl, hMove]

theorem normalizeStage_of_fault {gain : Gain α} {main filter : Filter α} {fault : ChainFault α}
    (hFilter : s.filter? = some main) (hResponse : main.hasResponse = true)
    (hStale : isStale f main gain = true)
    (hMove : move f s.interval main gain = (filter, .error fault)) :
    normalizeStage f s gain = (s.withFilter filter, .error fault) := by
  rw [normalizeStage, hFilter]
  dsimp only
  rw [isSome_response?, hResponse, hStale, Bool.and_true, if_pos rfl, hMove]

theorem NormalizedTo.sequence_eq (h : NormalizedTo range f s t) : t.sequence = s.sequence := by
  cases h with
  | kept _ => rfl
  | moved _ _ _ _ _ => rfl

theorem NormalizedTo.takesPart_eq (h : NormalizedTo range f s t) :
    takesPart range t = takesPart range s := by
  rw [takesPart, takesPart, h.sequence_eq]

/-- Another gain in the place of one, at `f` if it is not the same. -/
def MovedTo (f : α) (gain g : Gain α) : Prop := g = gain ∨ g.frequency = f

theorem NormalizedTo.gain?_rel (h : NormalizedTo range f s t) :
    Option.Rel (MovedTo f) s.gain? t.gain? := by
  cases h with
  | kept _ =>
    cases s.gain? with
    | none => exact .none
    | some gain => exact .some (.inl rfl)
  | moved hPart hGain hFilter hResponse hMove =>
    obtain ⟨-, -, rfl⟩ := move_eq_ok_iff.mp hMove
    rw [Stage.gain?_moved hGain hFilter, hGain]
    exact .some (.inr rfl)

theorem NormalizedTo.isSome_gain?_eq (h : NormalizedTo range f s t) :
    t.gain?.isSome = s.gain?.isSome := by
  have hRel := h.gain?_rel
  generalize s.gain? = gain at hRel ⊢
  generalize t.gain? = g at hRel ⊢
  cases hRel <;> rfl

/-- A moved filter is the old one with another scale. -/
theorem NormalizedTo.map_eq {γ : Type} {p : Element α → γ} (h : NormalizedTo range f s t)
    (hGain : ∀ g g' : Gain α, p (.gain g) = p (.gain g'))
    (hFilter : ∀ (main : Filter α) (x y : α),
      p (.filter ((main.withScale x).withScaleFrequency y)) = p (.filter main)) :
    t.elements.map p = s.elements.map p := by
  cases h with
  | kept _ => rfl
  | moved hPart hGain' hFilter' hResponse hMove =>
    obtain ⟨-, rfl, -⟩ := move_eq_ok_iff.mp hMove
    exact Stage.map_moved hGain' hFilter' (hFilter _ _ _) (hGain _ _)

theorem NormalizedTo.hasResponse_eq (h : NormalizedTo range f s t) :
    t.filter?.map Filter.hasResponse = s.filter?.map Filter.hasResponse := by
  cases h with
  | kept _ => rfl
  | moved hPart hGain hFilter hResponse hMove =>
    obtain ⟨-, rfl, -⟩ := move_eq_ok_iff.mp hMove
    rw [Stage.filter?_moved hGain hFilter, hFilter, Option.map_some, Option.map_some,
      Filter.hasResponse_withScaleFrequency, Filter.hasResponse_withScale]

/-! ## The stages of a chain -/

omit [Analytic α] in
theorem takesPart_iff : takesPart range s = true ↔
    ¬(s.sequence = 0 ∨ range.contains s.sequence = false) := by
  rw [takesPart, Bool.and_eq_true, bne_iff_ne, not_or, Bool.not_eq_false]

/-- `product` times the gain of a stage that is normalized. -/
def timesGain (range : StageRange) (product : α) (s : Stage α) : α :=
  if takesPart range s then s.gain?.elim product fun g => product * g.value else product

/-- The product of the gains of the stages that are normalized. -/
def gainProduct (range : StageRange) (stages : List (Stage α)) : α :=
  stages.foldl (timesGain range) 1

theorem timesGain_passed (h : takesPart range s = true → s.gain? = none) (product : α) :
    timesGain range product s = product := by
  rw [timesGain]
  split
  · next hPart => rw [h hPart, Option.elim_none]
  · rfl

theorem timesGain_gain {gain : Gain α}
    (hPart : takesPart range s = true) (hGain : s.gain? = some gain) (product : α) :
    timesGain range product s = product * gain.value := by
  rw [timesGain, if_pos hPart, hGain, Option.elim_some]

theorem normalizeStages_passed (h : takesPart range s = true → s.gain? = none) (f product : α)
    (stages : List (Stage α)) :
    normalizeStages range f product (s :: stages) =
      (s :: (normalizeStages range f product stages).1,
        (normalizeStages range f product stages).2) := by
  rw [normalizeStages]
  by_cases hPart : takesPart range s = true
  · rw [if_neg (takesPart_iff.mp hPart), h hPart]
  · rw [if_pos (not_not.mp (mt takesPart_iff.mpr hPart))]

theorem normalizeStages_gain {gain g : Gain α} (hPart : takesPart range s = true)
    (hGain : s.gain? = some gain) (hStage : normalizeStage f s gain = (t, .ok g)) (product : α)
    (stages : List (Stage α)) :
    normalizeStages range f product (s :: stages) =
      (t :: (normalizeStages range f (product * g.value) stages).1,
        (normalizeStages range f (product * g.value) stages).2) := by
  rw [normalizeStages, if_neg (takesPart_iff.mp hPart), hGain]
  simp only [hStage]

theorem normalizeStages_fault {gain : Gain α} {fault : ChainFault α}
    (hPart : takesPart range s = true) (hGain : s.gain? = some gain)
    (hStage : normalizeStage f s gain = (t, .error fault)) (product : α)
    (stages : List (Stage α)) :
    normalizeStages range f product (s :: stages) =
      (t :: stages, .error (.chain t.sequence fault)) := by
  rw [normalizeStages, if_neg (takesPart_iff.mp hPart), hGain]
  simp only [hStage]

theorem normalizeStages_cons_eq_ok {product computed : α}
    {stages all : List (Stage α)}
    (h : normalizeStages range f product (s :: stages) = (all, .ok computed)) :
    ∃ t rest, all = t :: rest ∧ NormalizedTo range f s t ∧
      normalizeStages range f (timesGain range product t) stages = (rest, .ok computed) := by
  -- a stage without a gain to look at is passed over, any other one is kept or moved
  by_cases hPassed : takesPart range s = true → s.gain? = none
  · rw [normalizeStages_passed hPassed] at h
    obtain ⟨rfl, hResult⟩ := Prod.ext_iff.mp h
    refine ⟨s, _, rfl, .kept ?_, ?_⟩
    · intro hPart gain _ hGain
      rw [hPassed hPart] at hGain
      cases hGain
    · rw [timesGain_passed hPassed]
      exact Prod.ext rfl hResult
  · obtain ⟨hPart, hSome⟩ := Classical.not_imp.mp hPassed
    obtain ⟨gain, hGain⟩ := Option.ne_none_iff_exists'.mp hSome
    rcases hStage : normalizeStage f s gain with ⟨t, fault | g⟩
    · rw [normalizeStages_fault hPart hGain hStage] at h
      cases h
    · rw [normalizeStages_gain hPart hGain hStage] at h
      obtain ⟨hTo, hMoved⟩ := normalizeStage_eq_ok hPart hGain hStage
      obtain ⟨rfl, hResult⟩ := Prod.ext_iff.mp h
      refine ⟨t, _, rfl, hTo, ?_⟩
      rw [timesGain_gain (hTo.takesPart_eq.trans hPart) hMoved]
      exact Prod.ext rfl hResult

theorem normalizeStages_eq_ok {product computed : α}
    {stages all : List (Stage α)}
    (h : normalizeStages range f product stages = (all, .ok computed)) :
    List.Forall₂ (NormalizedTo range f) stages all ∧
      computed = all.foldl (timesGain range) product := by
  induction stages generalizing product all with
  | nil =>
    cases h
    exact ⟨.nil, rfl⟩
  | cons s stages ih =>
    obtain ⟨t, rest, rfl, hTo, hRest⟩ := normalizeStages_cons_eq_ok h
    obtain ⟨hOthers, hComputed⟩ := ih hRest
    exact ⟨.cons hTo hOthers, hComputed⟩

theorem normalizeStages_of_settled {stages : List (Stage α)}
    (h : ∀ s ∈ stages, Settled range f s) (product : α) :
    normalizeStages range f product stages =
      (stages, .ok (stages.foldl (timesGain range) product)) := by
  induction stages generalizing product with
  | nil => rfl
  | cons s stages ih =>
    obtain ⟨hs, hRest⟩ := List.forall_mem_cons.mp h
    by_cases hPassed : takesPart range s = true → s.gain? = none
    · rw [normalizeStages_passed hPassed, ih hRest, List.foldl_cons, timesGain_passed hPassed]
    · obtain ⟨hPart, hSome⟩ := Classical.not_imp.mp hPassed
      obtain ⟨gain, hGain⟩ := Option.ne_none_iff_exists'.mp hSome
      rw [normalizeStages_gain hPart hGain (normalizeStage_of_settled hs hPart hGain), ih hRest,
        List.foldl_cons, timesGain_gain hPart hGain]

end Stages

/-! ## Exact numbers -/

section Exact

variable [ExactAnalytic α] {range : StageRange} {f : α}

/-- A stage that was normalized is settled. -/
theorem NormalizedTo.settled {s t : Stage α} (h : NormalizedTo range f s t) :
    Settled range f t := by
  cases h with
  | kept hSettled => exact hSettled
  | @moved gain g main filter hPart hGain hFilter hResponse hMove =>
    intro _ gain' main' hGain' hMain' _
    rw [Stage.gain?_moved hGain hFilter] at hGain'
    rw [Stage.filter?_moved hGain hFilter] at hMain'
    cases hGain'
    cases hMain'
    obtain ⟨-, rfl, rfl⟩ := move_eq_ok_iff.mp hMove
    have hSame : (f == f) = true := ExactScalar.beq_self f
    rw [isStale, hSame]
    cases main with
    | poleZero pz =>
      change (false || !(f == f)) = false
      rw [hSame]
      rfl
    | _ => rfl

theorem settled_of_normalizedTo {stages others : List (Stage α)}
    (h : List.Forall₂ (NormalizedTo range f) stages others) : ∀ t ∈ others, Settled range f t := by
  induction h with
  | nil => exact nofun
  | cons hTo _ ih => exact List.forall_mem_cons.mpr ⟨hTo.settled, ih⟩

theorem NormalizedTo.value_ne_zero {s t : Stage α} (h : NormalizedTo range f s t)
    (hs : ∀ g, s.gain? = some g → g.value ≠ 0) {g : Gain α} (hg : t.gain? = some g) :
    g.value ≠ 0 := by
  cases h with
  | kept _ => exact hs g hg
  | moved hPart hGain hFilter hResponse hMove =>
    obtain ⟨⟨hThere, hHere⟩, -, rfl⟩ := move_eq_ok_iff.mp hMove
    rw [Stage.gain?_moved hGain hFilter] at hg
    cases hg
    exact mul_ne_zero
      (div_ne_zero (hs _ hGain) (ExactScalar.beq_zero_eq_false_iff.mp hThere))
      (ExactScalar.beq_zero_eq_false_iff.mp hHere)

theorem values_ne_zero {stages others : List (Stage α)}
    (h : List.Forall₂ (NormalizedTo range f) stages others)
    (hs : ∀ s ∈ stages, ∀ g, s.gain? = some g → g.value ≠ 0) :
    ∀ t ∈ others, ∀ g, t.gain? = some g → g.value ≠ 0 := by
  induction h with
  | nil => exact nofun
  | cons hTo _ ih =>
    obtain ⟨hFirst, hRest⟩ := List.forall_mem_cons.mp hs
    exact List.forall_mem_cons.mpr ⟨fun g => hTo.value_ne_zero hFirst, ih hRest⟩

theorem foldl_timesGain_ne_zero {stages : List (Stage α)} {product : α} (hProduct : product ≠ 0)
    (h : ∀ s ∈ stages, ∀ g, s.gain? = some g → g.value ≠ 0) :
    stages.foldl (timesGain range) product ≠ 0 := by
  induction stages generalizing product with
  | nil => exact hProduct
  | cons s stages ih =>
    obtain ⟨hs, hRest⟩ := List.forall_mem_cons.mp h
    refine ih ?_ hRest
    rw [timesGain]
    split
    · cases hGain : s.gain? with
      | none => exact hProduct
      | some g => exact mul_ne_zero hProduct (hs g hGain)
    · exact hProduct

/-- Has a stage something that could be moved: a gain, and a filter with a response? -/
def Movable (range : StageRange) (s : Stage α) : Prop :=
  takesPart range s = true ∧ s.gain?.isSome = true ∧ s.filter?.map Filter.hasResponse = some true

theorem settled_of_not_movable {s : Stage α} (h : ¬ Movable range s) : Settled range f s := by
  intro hPart gain main hGain hMain hResponse
  refine absurd ⟨hPart, ?_, ?_⟩ h
  · rw [hGain, Option.isSome_some]
  · rw [hMain, Option.map_some, hResponse]

/-- A stage with something to be moved is settled at one frequency only. -/
theorem Settled.frequency_unique {s : Stage α} {f' : α} (hMovable : Movable range s)
    (h : Settled range f s) (h' : Settled range f' s) : f' = f := by
  obtain ⟨hPart, hSome, hMap⟩ := hMovable
  obtain ⟨gain, hGain⟩ := Option.isSome_iff_exists.mp hSome
  obtain ⟨main, hMain, hResponse⟩ := Option.map_eq_some_iff.mp hMap
  have hAt : ∀ {x : α}, Settled range x s → gain.frequency = x := by
    intro x hSettled
    have hStale := hSettled hPart gain main hGain hMain hResponse
    rw [isStale, Bool.or_eq_false_iff, Bool.not_eq_false'] at hStale
    exact (ExactScalar.beq_iff _ _).mp hStale.1
  exact (hAt h').symm.trans (hAt h)

theorem forall_settled_iff {stages : List (Stage α)} {f' : α}
    (h : ∀ s ∈ stages, Settled range f s) :
    (∀ s ∈ stages, Settled range f' s) ↔ (f' = f ∨ ¬ ∃ s ∈ stages, Movable range s) := by
  constructor
  · intro h'
    by_cases hMovable : ∃ s ∈ stages, Movable range s
    · obtain ⟨s, hs, hMove⟩ := hMovable
      exact .inl (Settled.frequency_unique hMove (h s hs) (h' s hs))
    · exact .inr hMovable
  · rintro (rfl | hNone) s hs
    · exact h s hs
    · exact settled_of_not_movable fun hMove => hNone ⟨s, hs, hMove⟩

theorem NormalizedTo.movable_iff {s t : Stage α} (h : NormalizedTo range f s t) :
    Movable range t ↔ Movable range s := by
  rw [Movable, Movable, h.takesPart_eq, h.isSome_gain?_eq, h.hasResponse_eq]

theorem exists_movable_iff {stages others : List (Stage α)}
    (h : List.Forall₂ (NormalizedTo range f) stages others) :
    (∃ t ∈ others, Movable range t) ↔ ∃ s ∈ stages, Movable range s := by
  induction h with
  | nil => exact Iff.rfl
  | cons hTo _ ih => rw [List.exists_mem_cons_iff, List.exists_mem_cons_iff, hTo.movable_iff, ih]

end Exact

end Chain

end InstrumentResponse
