import InstrumentResponse.Text.Words

/-!
# Parts between separators

The parts of a list between its separators, told without the recursion that cuts them out.

* `separator_induction`: a list is free of separators, or a free part, a separator and the list
  behind it.
* `piecesOf_append_separator`: a list may be cut at any of its separators first.
* `IsPiece`, `mem_piecesOf_iff`: the parts are the stretches without separators that separators or
  the ends of the list bound.
* `pieces_eq_iff`: the parts of a text are the texts without separators that it is joined from.
-/

namespace InstrumentResponse.Text

variable {α : Type} {p : α → Bool}

/-- A list is free of separators, or its first separator cuts it in two. -/
theorem separator_induction {motive : List α → Prop} (p : α → Bool)
    (last : ∀ l, (∀ c ∈ l, p c = false) → motive l)
    (cut : ∀ l c rest, (∀ d ∈ l, p d = false) → p c = true → motive rest →
      motive (l ++ c :: rest)) : ∀ cs, motive cs := by
  intro cs
  induction hn : cs.length using Nat.strongRecOn generalizing cs with
  | ind n ih =>
    cases hFind : cs.find? p with
    | none => exact last cs fun c hc => by simpa using List.find?_eq_none.mp hFind c hc
    | some c =>
      obtain ⟨hc, l, rest, rfl, hl⟩ := List.find?_eq_some_iff_append.mp hFind
      have hFree : ∀ d ∈ l, p d = false := fun d hd => by simpa using hl d hd
      have hLength : rest.length < n := by
        rw [← hn, List.length_append, List.length_cons]
        omega
      exact cut l c rest hFree hc (ih _ hLength rest rfl)

/-! ## Cutting -/

theorem piecesOf_ne_nil (p : α → Bool) (cs : List α) : piecesOf p cs ≠ [] := by
  cases cs with
  | nil => simp [piecesOf_nil]
  | cons c cs =>
    rw [piecesOf_cons]
    split
    · simp
    · cases piecesOf p cs <;> simp [consHead]

theorem piecesOf_of_forall {l : List α} (hl : ∀ d ∈ l, p d = false) : piecesOf p l = [l] := by
  induction l with
  | nil => rfl
  | cons d l ih =>
    rw [piecesOf_cons, hl d List.mem_cons_self, ih (fun e he => hl e (List.mem_cons_of_mem _ he))]
    rfl

/-- A list is cut in two at any of its separators. -/
theorem piecesOf_append_separator {c : α} (hc : p c = true) (a b : List α) :
    piecesOf p (a ++ c :: b) = piecesOf p a ++ piecesOf p b := by
  induction a with
  | nil => rw [List.nil_append, piecesOf_cons, if_pos hc, piecesOf_nil]; rfl
  | cons d a ih =>
    rw [List.cons_append, piecesOf_cons, piecesOf_cons, ih]
    split
    · rfl
    · obtain ⟨w, ws, hw⟩ := List.exists_cons_of_ne_nil (piecesOf_ne_nil p a)
      rw [hw]
      rfl

theorem piecesOf_append_cons {l : List α} {c : α} (hl : ∀ d ∈ l, p d = false) (hc : p c = true)
    (rest : List α) : piecesOf p (l ++ c :: rest) = l :: piecesOf p rest := by
  rw [piecesOf_append_separator hc, piecesOf_of_forall hl, List.singleton_append]

/-- A part of a list without separators, which a separator or an end of the list bounds on either
side. -/
structure IsPiece (p : α → Bool) (cs w : List α) : Prop where
  free : ∀ c ∈ w, p c = false
  bounded : ∃ before after, cs = before ++ w ++ after ∧
    (∀ c ∈ before.getLast?, p c = true) ∧ ∀ c ∈ after.head?, p c = true

/-- A part of what follows a separator is a part of the whole. -/
theorem IsPiece.behind {c : α} {cs w : List α} (h : IsPiece p cs w) (hc : p c = true)
    (a : List α) : IsPiece p (a ++ c :: cs) w := by
  obtain ⟨hFree, before, after, rfl, hBefore, hAfter⟩ := h
  refine ⟨hFree, a ++ c :: before, after, by simp, ?_, hAfter⟩
  rw [List.getLast?_append, List.getLast?_cons]
  cases hLast : before.getLast? with
  | none => simpa using hc
  | some d => simpa using hBefore d hLast

theorem isPiece_of_mem {cs w : List α} (h : w ∈ piecesOf p cs) : IsPiece p cs w := by
  induction cs using separator_induction p with
  | last l hl =>
    rw [piecesOf_of_forall hl, List.mem_singleton] at h
    subst h
    exact ⟨hl, [], [], by simp, by simp, by simp⟩
  | cut l c rest hl hc ih =>
    rw [piecesOf_append_cons hl hc, List.mem_cons] at h
    rcases h with rfl | h
    · exact ⟨hl, [], c :: rest, by simp, by simp, by simpa using hc⟩
    · exact (ih h).behind hc l

/-- The first part, and those after the separator behind it. -/
theorem IsPiece.mem {cs w : List α} (h : IsPiece p cs w) : w ∈ piecesOf p cs := by
  obtain ⟨hFree, before, after, rfl, hBefore, hAfter⟩ := h
  -- the part heads what the separator before it leaves
  have hHead : w ∈ piecesOf p (w ++ after) := by
    cases after with
    | nil => simp [piecesOf_of_forall hFree]
    | cons c after => simp [piecesOf_append_cons hFree (hAfter c rfl)]
  rcases List.eq_nil_or_concat before with rfl | ⟨a, c, rfl⟩
  · exact hHead
  · have hc : p c = true := hBefore c (by simp)
    have hSplit : a.concat c ++ w ++ after = a ++ c :: (w ++ after) := by simp
    rw [hSplit, piecesOf_append_separator hc]
    exact List.mem_append_right _ hHead

/-- The parts of a list are those that separators or its ends bound. -/
theorem mem_piecesOf_iff {cs w : List α} : w ∈ piecesOf p cs ↔ IsPiece p cs w :=
  ⟨isPiece_of_mem, IsPiece.mem⟩

/-! ## Joining -/

theorem piecesOf_eq_splitOnP (p : α → Bool) (cs : List α) : piecesOf p cs = cs.splitOnP p := by
  induction cs with
  | nil => rw [piecesOf_nil, List.splitOnP_nil]
  | cons c cs ih =>
    rw [piecesOf_cons, List.splitOnP_cons_eq_if_modifyHead, ← ih]
    obtain ⟨w, ws, hParts⟩ := List.exists_cons_of_ne_nil (piecesOf_ne_nil p cs)
    rw [hParts]
    rfl

section Joining

variable {c : Char} {s w : String}

theorem pieces_eq (c : Char) (s : String) :
    pieces c s = (s.toList.splitOn c).map String.ofList := by
  rw [pieces, piecesBy, piecesOf_eq_splitOnP, List.splitOn_eq_splitOnP]

theorem not_mem_of_mem_pieces (h : w ∈ pieces c s) : c ∉ w.toList := by
  obtain ⟨cs, hcs, rfl⟩ := List.mem_map.mp h
  rw [String.toList_ofList]
  intro hc
  simpa using (isPiece_of_mem hcs).free c hc

/-- The parts of a text with the separator between them are the text. -/
theorem intercalate_pieces (c : Char) (s : String) :
    (String.singleton c).intercalate (pieces c s) = s := by
  apply String.toList_injective
  rw [String.toList_intercalate, pieces_eq, List.map_map]
  simp

/-- A text is cut into some parts if and only if none of them holds the separator and the text is
joined from them. -/
theorem pieces_eq_iff {ws : List String} (hws : ws ≠ []) : pieces c s = ws ↔
    (∀ w ∈ ws, c ∉ w.toList) ∧ s = (String.singleton c).intercalate ws := by
  constructor
  · rintro rfl
    exact ⟨fun w => not_mem_of_mem_pieces, (intercalate_pieces c s).symm⟩
  · rintro ⟨hFree, rfl⟩
    have hParts : ∀ l ∈ ws.map String.toList, c ∉ l := by simpa using hFree
    rw [pieces_eq, String.toList_intercalate, String.toList_singleton,
      List.splitOn_intercalate c hParts (by simpa using hws), List.map_map]
    simp

end Joining

end InstrumentResponse.Text
