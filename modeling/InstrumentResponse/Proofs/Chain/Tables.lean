import InstrumentResponse.Proofs.Chain.Reevaluating
import InstrumentResponse.Proofs.Interpolation.Requests

/-!
# The table of a chain

A chain that was checked holds at most one response list.  Once the list is aligned with the
frequencies of the response it has a row for each of them, and a normalization leaves it alone.

* `any_canonical`: what the elements of a checked stage have in common with the old ones.
* `length_lists_check`, `isSome_list?_check`: a checked chain has at most one list, and one if there
  was any; `forall_lists_check`: what it has in common with those before.
* `lists_withList`: the lists of a channel in which the first one is replaced.
* `Serves`, `of_align_eq_ok`, `Normalized.serves`: an aligned list has a row for each frequency.
* `outlines_check`, `outlines_withList`, `Normalized.outlines_eq`: polynomials stay where they are.
-/

namespace InstrumentResponse

variable {α : Type}

namespace Chain

/-! ## Checked stages -/

section Checked

variable [Scalar α]

theorem filters_canonical (s : Stage α) :
    filters s.canonical.elements = (s.parts.filter.map Filter.canonicalForm).toList := by
  rw [elements_canonical, Parts.elements, Parts.canonical]
  cases s.parts.filter with
  | none => cases s.parts.gain <;> rfl
  | some f => cases s.parts.decimation <;> rfl

omit [Scalar α] in
theorem any_eq_any_filters {p : Element α → Bool} (hDecimation : ∀ d, p (.decimation d) = false)
    (hGain : ∀ g, p (.gain g) = false) (es : List (Element α)) :
    es.any p = (filters es).any fun f => p (.filter f) := by
  induction es with
  | nil => rfl
  | cons e es ih =>
    rw [List.any_cons, ih]
    rcases e with f | d | g
    · rfl
    · rw [hDecimation d]
      rfl
    · rw [hGain g]
      rfl

/-- A checked stage has the same kinds of filters as the old one. -/
theorem any_canonical {p : Element α → Bool} {s : Stage α} (h : s.Holds s.parts)
    (hDecimation : ∀ d, p (.decimation d) = false) (hGain : ∀ g, p (.gain g) = false)
    (hFir : ∀ f f', p (.filter (.fir f)) = p (.filter (.fir f')))
    (hList : ∀ l l', p (.filter (.list l)) = p (.filter (.list l'))) :
    s.canonical.elements.any p = s.elements.any p := by
  have hJoined : ∀ a b both, continued? a b = some both → p both = (p a || p b) := by
    intro a b both hBoth
    obtain ⟨l, l', rfl, rfl, rfl⟩ | ⟨f, f', g, rfl, rfl, rfl⟩ := continued?_cases hBoth
    · rw [hList l (l.append l'), hList l' (l.append l'), Bool.or_self]
    · rw [hFir f g, hFir f' g, Bool.or_self]
  have hCanonical : ∀ f : Filter α, p (.filter f.canonicalForm) = p (.filter f) := by
    intro f
    cases f with
    | fir h => exact hFir _ _
    | _ => rfl
  rw [← any_joined hJoined s.elements, any_eq_any_filters hDecimation hGain,
    any_eq_any_filters hDecimation hGain, filters_canonical, h.filter_eq]
  cases s.parts.filter with
  | none => rfl
  | some f => simp only [Option.map_some, Option.toList_some, List.any_cons, hCanonical]

end Checked

/-! ## Lists -/

/-- The response lists among some elements. -/
def lists (es : List (Element α)) : List (ResponseList α) := es.filterMap Element.list?

theorem lists_append (a b : List (Element α)) : lists (a ++ b) = lists a ++ lists b :=
  List.filterMap_append

/-- The table of a filter that is one. -/
def table? : Filter α → Option (ResponseList α)
  | .list l => some l
  | _ => none

theorem lists_eq (es : List (Element α)) : lists es = (filters es).filterMap table? := by
  rw [lists, filters, List.filterMap_filterMap]
  refine congrArg (List.filterMap · es) (funext fun e => ?_)
  rcases e with f | d | g
  · cases f <;> rfl
  · rfl
  · rfl

theorem head?_lists (c : Channel α) : (lists c.elements).head? = c.list? :=
  List.head?_filterMap

/-- The tables of some stages, one for each stage that has one. -/
def tablesOf (stages : List (Stage α)) : List (ResponseList α) :=
  stages.filterMap fun s => s.parts.filter.bind table?

section CheckedLists

variable [Scalar α] {c : Channel α}

theorem lists_canonical (s : Stage α) :
    lists s.canonical.elements = (s.parts.filter.bind table?).toList := by
  rw [lists_eq, filters_canonical]
  cases s.parts.filter with
  | none => rfl
  | some f => cases f <;> rfl

theorem lists_check (h : (check c).2.result = .ok ()) :
    lists (check c).1.elements = tablesOf c.stages := by
  rw [(canonical_of_check h).1]
  change lists ((c.stages.map Stage.canonical).flatMap (·.elements)) = _
  rw [tablesOf]
  induction c.stages with
  | nil => rfl
  | cons s stages ih =>
    rw [List.map_cons, List.flatMap_cons, lists_append, ih, lists_canonical, List.filterMap_cons]
    cases s.parts.filter.bind table? <;> rfl

omit [Scalar α] in
theorem parts_filter_of_table {s : Stage α} {l : ResponseList α}
    (h : s.parts.filter.bind table? = some l) : s.parts.filter = some (.list l) := by
  obtain ⟨f, hFilter, hTable⟩ := Option.bind_eq_some_iff.mp h
  cases f with
  | list l' =>
    cases hTable
    exact hFilter
  | _ => cases hTable

/-- A checked chain has at most one list. -/
theorem length_lists_check (h : (check c).2.result = .ok ()) :
    (lists (check c).1.elements).length ≤ 1 := by
  obtain ⟨-, hHolds⟩ := canonical_of_check h
  have hWell := (check_eq_ok_iff c).mp h
  rw [lists_check h]
  have hCount : (tablesOf c.stages).length ≤ c.stages.countP (!·.isGainOnly) := by
    rw [tablesOf, List.length_filterMap_eq_countP]
    refine List.countP_mono_left fun s hs hSome => ?_
    obtain ⟨l, hTable⟩ := Option.isSome_iff_exists.mp hSome
    rw [(hHolds s hs).isGainOnly_eq, parts_filter_of_table hTable]
    rfl
  cases hTables : tablesOf c.stages with
  | nil => exact Nat.zero_le 1
  | cons l rest =>
    rw [hTables] at hCount
    obtain ⟨s, hs, hTable⟩ := List.mem_filterMap.mp
      (show l ∈ tablesOf c.stages from hTables ▸ List.mem_cons_self)
    have hMem : .list l ∈ filters (joined s.elements) := by
      rw [(hHolds s hs).filter_eq, parts_filter_of_table hTable]
      exact List.mem_singleton_self _
    exact hCount.trans ((hWell.stages s hs).list_alone _ hMem l rfl)

/-- A check takes away no list altogether. -/
theorem isSome_list?_check (h : (check c).2.result = .ok ()) :
    (check c).1.list?.isSome = c.list?.isSome := by
  obtain ⟨hCanonical, hHolds⟩ := canonical_of_check h
  rw [hCanonical, Channel.list?, Channel.list?, List.isSome_findSome?, List.isSome_findSome?]
  change ((c.stages.map Stage.canonical).flatMap (·.elements)).any _ =
    (c.stages.flatMap (·.elements)).any _
  rw [List.any_flatMap, List.any_flatMap, List.any_map]
  refine any_of_map_eq (List.map_congr_left fun s hs => ?_)
  exact any_canonical (hHolds s hs) (fun _ => rfl) (fun _ => rfl) (fun _ _ => rfl) fun _ _ => rfl

/-- What two lists have in common with the rows of both, the lists of a checked chain have in common
with the old ones. -/
theorem forall_lists_check {P : ResponseList α → Prop}
    (hP : ∀ a b : ResponseList α, P a → P b → P (a.append b)) (h : (check c).2.result = .ok ())
    (hAll : ∀ l ∈ lists c.elements, P l) : ∀ l ∈ lists (check c).1.elements, P l := by
  obtain ⟨-, hHolds⟩ := canonical_of_check h
  rw [lists_check h]
  intro l hl
  obtain ⟨s, hs, hTable⟩ := List.mem_filterMap.mp hl
  have hElements : ∀ e ∈ s.elements, ∀ l, e.list? = some l → P l := by
    intro e he l hList
    exact hAll l (List.mem_filterMap.mpr ⟨e, List.mem_flatMap.mpr ⟨s, hs, he⟩, hList⟩)
  have hJoined : ∀ e ∈ joined s.elements, ∀ l, e.list? = some l → P l := by
    refine forall_mem_joined (fun a b both hBoth ha hb l hList => ?_) hElements
    obtain ⟨l₁, l₂, rfl, rfl, rfl⟩ | ⟨f₁, f₂, f, rfl, rfl, rfl⟩ := continued?_cases hBoth
    · cases hList
      exact hP l₁ l₂ (ha l₁ rfl) (hb l₂ rfl)
    · cases hList
  have hMem : .list l ∈ filters (joined s.elements) := by
    rw [(hHolds s hs).filter_eq, parts_filter_of_table hTable]
    exact List.mem_singleton_self _
  obtain ⟨e, he, hFilter⟩ := List.mem_filterMap.mp hMem
  refine hJoined e he l ?_
  rcases e with f | d | g
  · cases hFilter
    rfl
  · cases hFilter
  · cases hFilter

end CheckedLists

/-! ## Replaced lists -/

theorem lists_withList? {s t : Stage α} {l : ResponseList α} (h : s.withList? l = some t) :
    lists t.elements = (lists s.elements).modifyHead (fun _ => l) ∧ lists s.elements ≠ [] := by
  rw [Stage.withList?] at h
  split at h
  · next hAny =>
    cases h
    refine ⟨filterMap_replaceFirst (p := Element.list?) rfl s.elements, fun hNil => ?_⟩
    obtain ⟨e, he, hSome⟩ := List.any_eq_true.mp hAny
    rw [List.filterMap_eq_nil_iff.mp hNil e he] at hSome
    cases hSome
  · cases h

theorem lists_of_withList?_eq_none {s : Stage α} {l : ResponseList α} (h : s.withList? l = none) :
    lists s.elements = [] := by
  rw [Stage.withList?] at h
  split at h
  · cases h
  · next hNone =>
    refine List.filterMap_eq_nil_iff.mpr fun e he => ?_
    rw [← Option.not_isSome_iff_eq_none]
    exact fun hSome => hNone (List.any_eq_true.mpr ⟨e, he, hSome⟩)

/-- A channel with another list has the other ones as before. -/
theorem lists_withList (c : Channel α) (l : ResponseList α) :
    lists (c.withList l).elements = (lists c.elements).modifyHead fun _ => l := by
  rw [Channel.withList, Channel.elements, Channel.elements]
  dsimp only
  induction c.stages with
  | nil => rfl
  | cons s stages ih =>
    rw [replaceFirst, List.flatMap_cons, lists_append]
    cases hReplaced : s.withList? l with
    | none =>
      rw [lists_of_withList?_eq_none hReplaced, List.nil_append, ← ih]
      exact (lists_append _ _).trans (congrArg (· ++ _) (lists_of_withList?_eq_none hReplaced))
    | some t =>
      obtain ⟨hLists, hSome⟩ := lists_withList? hReplaced
      refine (lists_append _ _).trans ?_
      rw [hLists]
      cases hFirst : lists s.elements with
      | nil => exact absurd hFirst hSome
      | cons first rest => rfl

/-! ## Aligned lists -/

/-- Each list among some elements has `rows` rows. -/
def Serves (rows : Nat) (es : List (Element α)) : Prop :=
  ∀ l ∈ lists es, l.amplitudes.length = rows ∧ l.phases.length = rows

/-- The columns of each response list of a channel are as long as each other. -/
def RectangularLists (c : Channel α) : Prop := ∀ l ∈ lists c.elements, l.Rectangular

/-- Where the polynomials of a chain are: the sequence number of each stage, and whether there is a
polynomial in it. -/
def outlines (c : Channel α) : List (Nat × Bool) :=
  c.stages.map fun s => (s.sequence, s.elements.any Element.isPolynomial)

theorem lists_eq_nil {c : Channel α} (h : c.list? = none) : lists c.elements = [] := by
  rwa [← head?_lists, List.head?_eq_none_iff] at h

theorem lists_eq_singleton {c : Channel α} {l : ResponseList α}
    (hOne : (lists c.elements).length ≤ 1) (h : c.list? = some l) : lists c.elements = [l] := by
  rw [← head?_lists] at h
  obtain ⟨rest, hLists⟩ := List.head?_eq_some_iff.mp h
  rw [hLists, List.length_cons] at hOne
  rw [hLists, List.length_eq_zero_iff.mp (Nat.le_zero.mp (Nat.le_of_succ_le_succ hOne))]

theorem serves_singleton {es : List (Element α)} {l : ResponseList α} (hLists : lists es = [l])
    (hl : l.Rectangular) : Serves l.frequencies.length es := by
  intro l' hl'
  rw [hLists, List.mem_singleton] at hl'
  rw [hl']
  exact ⟨hl.length_amplitudes, hl.length_phases⟩

section Aligned

variable [Scalar α] {c : Channel α}

theorem outlines_check (h : (check c).2.result = .ok ()) : outlines (check c).1 = outlines c := by
  obtain ⟨hCanonical, hHolds⟩ := canonical_of_check h
  rw [hCanonical, outlines, outlines]
  change (c.stages.map Stage.canonical).map _ = _
  rw [List.map_map]
  refine List.map_congr_left fun s hs => congrArg (s.sequence, ·) ?_
  exact any_canonical (hHolds s hs) (fun _ => rfl) (fun _ => rfl) (fun _ _ => rfl) fun _ _ => rfl

omit [Scalar α] in
theorem outlines_withList (c : Channel α) (l : ResponseList α) :
    outlines (c.withList l) = outlines c := by
  refine map_replaceFirst_of (fun s t hReplaced => ?_) c.stages
  rw [Stage.withList?] at hReplaced
  split at hReplaced
  · cases hReplaced
    refine congrArg (s.sequence, ·) (any_of_map_eq (map_replaceFirst_of (fun e e' he => ?_) _))
    obtain ⟨l', hList, rfl⟩ := Option.map_eq_some_iff.mp he
    rcases e with f | d | g
    · cases f with
      | list l => rfl
      | _ => cases hList
    · cases hList
    · cases hList
  · cases hReplaced

end Aligned

section Alignment

variable [Analytic α] {c : Channel α} {mode : ListMode} {requested frequencies : List α}

/-- The frequencies that a channel is calculated at: the requested ones without a response list,
those of the list, or the requested ones that it can serve if it is interpolated. -/
def alignedFrequencies (mode : ListMode) (requested : List α) (c : Channel α) : List α :=
  c.list?.elim requested fun l =>
    if mode = .interpolateInput then l.kept requested else l.frequencies

theorem of_align_interpolateInput {l : ResponseList α} (hList : c.list? = some l)
    (h : (align .interpolateInput requested c).2.result = .ok frequencies) :
    ∃ aligned, (l.interpolate requested).result = .ok aligned ∧
      (align .interpolateInput requested c).1 = c.withList aligned ∧
      aligned.frequencies = frequencies := by
  rw [align, hList] at h ⊢
  dsimp only at h ⊢
  generalize l.interpolate requested = report at h ⊢
  rcases report with ⟨warnings, fault | aligned⟩
  · cases h
  · cases h
    exact ⟨aligned, rfl, rfl, rfl⟩

/-- An aligned channel has a row for each frequency. -/
theorem of_align_eq_ok (hRectangular : RectangularLists c) (hOne : (lists c.elements).length ≤ 1)
    (h : (align mode requested c).2.result = .ok frequencies) :
    frequencies = alignedFrequencies mode requested c ∧
      Serves frequencies.length (align mode requested c).1.elements ∧
      outlines (align mode requested c).1 = outlines c := by
  rw [alignedFrequencies]
  cases hList : c.list? with
  | none =>
    rw [align, hList] at h ⊢
    cases h
    refine ⟨rfl, fun l hl => ?_, rfl⟩
    rw [lists_eq_nil hList] at hl
    cases hl
  | some l =>
    have hLists := lists_eq_singleton hOne hList
    rw [Option.elim_some]
    by_cases hMode : mode = .interpolateInput
    · subst hMode
      obtain ⟨aligned, hRows, hChannel, rfl⟩ := of_align_interpolateInput hList h
      obtain ⟨hKept, hAligned⟩ := ResponseList.interpolate_eq_ok hRows
      have hReplaced : lists (c.withList aligned).elements = [aligned] := by
        rw [lists_withList, hLists, List.modifyHead_cons]
      rw [if_pos rfl, hChannel]
      exact ⟨hKept, serves_singleton hReplaced hAligned, outlines_withList c aligned⟩
    · obtain ⟨hSame, hResult⟩ := align_of_ne hMode requested c
      rw [hResult, frequenciesOf, hList] at h
      cases h
      rw [if_neg hMode, hSame]
      have hMem : l ∈ lists c.elements := hLists ▸ List.mem_singleton_self l
      exact ⟨rfl, serves_singleton hLists (hRectangular l hMem), rfl⟩

/-! ## Normalized lists -/

theorem Normalized.serves {range : StageRange} {n : Channel α} {rows : Nat}
    (h : Normalized range c n) (hServes : Serves rows c.elements) : Serves rows n.elements := by
  have hLists : lists n.elements = lists c.elements := by
    have hKept := congrArg (List.filterMap id) h.map_list?_eq
    rwa [List.filterMap_map, List.filterMap_map] at hKept
  rwa [Serves, hLists]

theorem Normalized.outlines_eq {range : StageRange} {n : Channel α} (h : Normalized range c n) :
    outlines n = outlines c := by
  rw [outlines, outlines]
  have hStages := h.stages_to
  generalize c.stages = stages at hStages ⊢
  generalize n.stages = others at hStages ⊢
  induction hStages with
  | nil => rfl
  | @cons s t stages others hTo _ ih =>
    have hAny : t.elements.any Element.isPolynomial = s.elements.any Element.isPolynomial :=
      any_of_map_eq (hTo.map_eq (fun _ _ => rfl) fun main x y => by cases main <;> rfl)
    rw [List.map_cons, List.map_cons, ih, hTo.sequence_eq, hAny]

end Alignment

end Chain

end InstrumentResponse
