import InstrumentResponse.Chain.Canonical

/-!
# Joined elements

* `joined`: the elements of a stage with neighbouring lists, and neighbouring impulse responses of
  equal symmetry, joined into one.
* `any_joined`, `forall_mem_joined`: what joined elements have in common with the ones before.
* `merge_cases`: merging gives these elements, unless two filters are left that are no
  continuations.
-/

namespace InstrumentResponse.Chain

variable {α : Type}

/-- Two neighbouring elements as one, if the second one continues the first. -/
def continued? : Element α → Element α → Option (Element α)
  | .filter (.list a), .filter (.list b) => some (.filter (.list (a.append b)))
  | .filter (.fir a), .filter (.fir b) =>
    if a.symmetry = b.symmetry then some (.filter (.fir { a with taps := a.taps ++ b.taps }))
    else none
  | _, _ => none

/-- An element and those after it, with continuations joined. -/
def joinedFrom (element : Element α) : List (Element α) → List (Element α)
  | [] => [element]
  | next :: rest =>
    match continued? element next with
    | some both => joinedFrom both rest
    | none => element :: joinedFrom next rest

/-- Elements with continuations joined. -/
def joined : List (Element α) → List (Element α)
  | [] => []
  | element :: rest => joinedFrom element rest

/-- The filters among some elements. -/
def filters (es : List (Element α)) : List (Filter α) := es.filterMap Element.filter?

/-- The decimations among some elements. -/
def decimations (es : List (Element α)) : List (Decimation α) := es.filterMap Element.decimation?

/-- The gains among some elements. -/
def gains (es : List (Element α)) : List (Gain α) := es.filterMap Element.gain?

@[simp] theorem filters_append (a b : List (Element α)) :
    filters (a ++ b) = filters a ++ filters b := List.filterMap_append

@[simp] theorem decimations_append (a b : List (Element α)) :
    decimations (a ++ b) = decimations a ++ decimations b := List.filterMap_append

@[simp] theorem gains_append (a b : List (Element α)) : gains (a ++ b) = gains a ++ gains b :=
  List.filterMap_append

theorem joinedFrom_of_some {a b both : Element α} (h : continued? a b = some both)
    (rest : List (Element α)) : joinedFrom a (b :: rest) = joinedFrom both rest := by
  rw [joinedFrom, h]

theorem joinedFrom_of_none {a b : Element α} (h : continued? a b = none)
    (rest : List (Element α)) : joinedFrom a (b :: rest) = a :: joinedFrom b rest := by
  rw [joinedFrom, h]

/-- Only lists and impulse responses are joined, each with its like. -/
theorem continued?_cases {a b both : Element α} (h : continued? a b = some both) :
    (∃ l l', a = .filter (.list l) ∧ b = .filter (.list l') ∧
      both = .filter (.list (l.append l'))) ∨
      ∃ f f' g, a = .filter (.fir f) ∧ b = .filter (.fir f') ∧ both = .filter (.fir g) := by
  unfold continued? at h
  split at h
  · cases h
    exact .inl ⟨_, _, rfl, rfl, rfl⟩
  · split at h
    · cases h
      exact .inr ⟨_, _, _, rfl, rfl, rfl⟩
    · cases h
  · cases h

/-- Only filters continue each other. -/
theorem isFilter_of_continued {a b both : Element α} (h : continued? a b = some both) :
    a.filter?.isSome = true ∧ both.filter?.isSome = true := by
  obtain ⟨l, l', rfl, rfl, rfl⟩ | ⟨f, f', g, rfl, rfl, rfl⟩ := continued?_cases h
  · exact ⟨rfl, rfl⟩
  · exact ⟨rfl, rfl⟩

/-- Two elements are joined if the second one continues the first, and refused only if both are
filters and it does not. -/
theorem join?_cases (a b : Element α) :
    join? a b = .ok (continued? a b) ∨
      (∃ fault, join? a b = .error fault) ∧ continued? a b = none ∧
        a.filter?.isSome = true ∧ b.filter?.isSome = true := by
  rcases a with f | d | g
  · rcases b with h | d | g
    · cases f <;> cases h <;> simp [join?, continued?, Element.filter?]
    · exact .inl (by cases f <;> rfl)
    · exact .inl (by cases f <;> rfl)
  · exact .inl rfl
  · exact .inl rfl

/-! The next element is joined, kept apart or refused. -/

theorem mergeFrom_of_some {e next both : Element α} (h : join? e next = .ok (some both))
    (rest : List (Element α)) : mergeFrom e (next :: rest) = mergeFrom both rest := by
  rw [mergeFrom, h]
  rfl

theorem mergeFrom_of_none {e next : Element α} (h : join? e next = .ok none)
    (rest : List (Element α)) :
    mergeFrom e (next :: rest) = (mergeFrom next rest).map (e :: ·) := by
  rw [mergeFrom, h]
  show (mergeFrom next rest >>= fun others => pure (e :: others)) = _
  cases mergeFrom next rest <;> rfl

theorem mergeFrom_of_error {e next : Element α} {fault : ChainFault α}
    (h : join? e next = .error fault) (rest : List (Element α)) :
    mergeFrom e (next :: rest) = .error fault := by
  rw [mergeFrom, h]
  rfl

theorem length_filters_cons {e : Element α} (h : e.filter?.isSome = true)
    (es : List (Element α)) : (filters (e :: es)).length = (filters es).length + 1 := by
  obtain ⟨f, hf⟩ := Option.isSome_iff_exists.mp h
  rw [filters, List.filterMap_cons_some hf]
  rfl

theorem length_filters_le_cons (e : Element α) (es : List (Element α)) :
    (filters es).length ≤ (filters (e :: es)).length := by
  rw [filters, filters, List.filterMap_cons]
  split
  · exact Nat.le_refl _
  · exact Nat.le_succ _

/-- A filter is left after joining what continues it. -/
theorem filters_joinedFrom_pos {e : Element α} (h : e.filter?.isSome = true)
    (rest : List (Element α)) : 0 < (filters (joinedFrom e rest)).length := by
  induction rest generalizing e with
  | nil =>
    rw [joinedFrom, length_filters_cons h]
    exact Nat.succ_pos _
  | cons next rest ih =>
    cases hc : continued? e next with
    | some both =>
      rw [joinedFrom_of_some hc]
      exact ih (isFilter_of_continued hc).2
    | none =>
      rw [joinedFrom_of_none hc, length_filters_cons h]
      exact Nat.succ_pos _

theorem mergeFrom_cases (element : Element α) (rest : List (Element α)) :
    mergeFrom element rest = .ok (joinedFrom element rest) ∨
      (∃ fault, mergeFrom element rest = .error fault) ∧
        1 < (filters (joinedFrom element rest)).length := by
  induction rest generalizing element with
  | nil => exact .inl rfl
  | cons next rest ih =>
    obtain hjoin | ⟨⟨fault, hjoin⟩, hc, helement, hnext⟩ := join?_cases element next
    · cases hc : continued? element next with
      | some both =>
        rw [joinedFrom_of_some hc, mergeFrom_of_some (hjoin.trans (congrArg _ hc))]
        exact ih both
      | none =>
        rw [joinedFrom_of_none hc, mergeFrom_of_none (hjoin.trans (congrArg _ hc))]
        obtain hok | ⟨⟨fault, herror⟩, hlt⟩ := ih next
        · exact .inl (by rw [hok]; rfl)
        · exact .inr ⟨⟨fault, by rw [herror]; rfl⟩,
            Nat.lt_of_lt_of_le hlt (length_filters_le_cons _ _)⟩
    · rw [joinedFrom_of_none hc, mergeFrom_of_error hjoin, length_filters_cons helement]
      exact .inr ⟨⟨fault, rfl⟩, Nat.succ_lt_succ (filters_joinedFrom_pos hnext rest)⟩

/-- Merging gives the joined elements, unless two filters are left that are no continuations. -/
theorem merge_cases (es : List (Element α)) :
    merge es = .ok (joined es) ∨
      (∃ fault, merge es = .error fault) ∧ 1 < (filters (joined es)).length := by
  cases es with
  | nil => exact .inl rfl
  | cons element rest => exact mergeFrom_cases element rest

/-! ## What joined elements have in common -/

/-- What one of two joined elements has, the joined one has. -/
theorem any_joinedFrom {p : Element α → Bool}
    (hp : ∀ a b both, continued? a b = some both → p both = (p a || p b)) (e : Element α)
    (rest : List (Element α)) : (joinedFrom e rest).any p = (e :: rest).any p := by
  induction rest generalizing e with
  | nil => rfl
  | cons next rest ih =>
    cases hContinued : continued? e next with
    | some both =>
      rw [joinedFrom_of_some hContinued, ih, List.any_cons, List.any_cons, List.any_cons,
        hp e next both hContinued, Bool.or_assoc]
    | none => rw [joinedFrom_of_none hContinued, List.any_cons, ih, ← List.any_cons]

theorem any_joined {p : Element α → Bool}
    (hp : ∀ a b both, continued? a b = some both → p both = (p a || p b)) (es : List (Element α)) :
    (joined es).any p = es.any p := by
  cases es with
  | nil => rfl
  | cons e rest => exact any_joinedFrom hp e rest

/-- What two elements have, the joined one has. -/
theorem forall_mem_joinedFrom {P : Element α → Prop}
    (hP : ∀ a b both, continued? a b = some both → P a → P b → P both) {e : Element α}
    {rest : List (Element α)} (h : ∀ x ∈ e :: rest, P x) : ∀ x ∈ joinedFrom e rest, P x := by
  induction rest generalizing e with
  | nil => exact h
  | cons next rest ih =>
    obtain ⟨hFirst, hOthers⟩ := List.forall_mem_cons.mp h
    obtain ⟨hNext, hRest⟩ := List.forall_mem_cons.mp hOthers
    cases hContinued : continued? e next with
    | some both =>
      rw [joinedFrom_of_some hContinued]
      exact ih (List.forall_mem_cons.mpr ⟨hP e next both hContinued hFirst hNext, hRest⟩)
    | none =>
      rw [joinedFrom_of_none hContinued]
      exact List.forall_mem_cons.mpr ⟨hFirst, ih (List.forall_mem_cons.mpr ⟨hNext, hRest⟩)⟩

theorem forall_mem_joined {P : Element α → Prop}
    (hP : ∀ a b both, continued? a b = some both → P a → P b → P both) {es : List (Element α)}
    (h : ∀ x ∈ es, P x) : ∀ x ∈ joined es, P x := by
  cases es with
  | nil => exact nofun
  | cons e rest => exact forall_mem_joinedFrom hP h

/-! ## Elements that are not joined -/

theorem filters_cons_eq_nil_iff {e : Element α} {es : List (Element α)} :
    filters (e :: es) = [] ↔ e.filter? = none ∧ filters es = [] := by
  cases hFilter : e.filter? with
  | none => rw [filters, List.filterMap_cons_none hFilter]; simp [filters]
  | some f => rw [filters, List.filterMap_cons_some hFilter]; simp

theorem continued?_of_not_filter (a : Element α) {b : Element α} (h : b.filter? = none) :
    continued? a b = none := by
  rcases b with f | d | g
  · cases h
  · rcases a with f | d | g
    · cases f <;> rfl
    · rfl
    · rfl
  · rcases a with f | d | g
    · cases f <;> rfl
    · rfl
    · rfl

theorem joinedFrom_of_filters_nil (e : Element α) {rest : List (Element α)}
    (h : filters rest = []) : joinedFrom e rest = e :: rest := by
  induction rest generalizing e with
  | nil => rfl
  | cons next rest ih =>
    obtain ⟨hNext, hRest⟩ := filters_cons_eq_nil_iff.mp h
    rw [joinedFrom_of_none (continued?_of_not_filter e hNext), ih next hRest]

/-- Only filters are joined. -/
theorem joined_of_filters_nil {es : List (Element α)} (h : filters es = []) : joined es = es := by
  cases es with
  | nil => rfl
  | cons e es => exact joinedFrom_of_filters_nil e (filters_cons_eq_nil_iff.mp h).2

theorem filters_of_filters_joinedFrom {e : Element α} {rest : List (Element α)}
    (h : filters (joinedFrom e rest) = []) : filters (e :: rest) = [] := by
  induction rest generalizing e with
  | nil => exact h
  | cons next rest ih =>
    cases hContinued : continued? e next with
    | some both =>
      rw [joinedFrom_of_some hContinued] at h
      have hPos := filters_joinedFrom_pos (isFilter_of_continued hContinued).2 rest
      rw [h] at hPos
      cases hPos
    | none =>
      rw [joinedFrom_of_none hContinued] at h
      obtain ⟨hFirst, hRest⟩ := filters_cons_eq_nil_iff.mp h
      exact filters_cons_eq_nil_iff.mpr ⟨hFirst, ih hRest⟩

/-- Joining takes away no filter altogether. -/
theorem filters_joined_eq_nil_iff (es : List (Element α)) :
    filters (joined es) = [] ↔ filters es = [] := by
  constructor
  · intro h
    cases es with
    | nil => rfl
    | cons e es => exact filters_of_filters_joinedFrom h
  · intro h
    rw [joined_of_filters_nil h, h]

theorem eq_map_gain {es : List (Element α)} (hFilters : filters es = [])
    (hDecimations : decimations es = []) : es = (gains es).map .gain := by
  induction es with
  | nil => rfl
  | cons e es ih =>
    rcases e with f | d | g
    · cases hFilters
    · cases hDecimations
    · exact congrArg (Element.gain g :: ·) (ih hFilters hDecimations)

end InstrumentResponse.Chain
