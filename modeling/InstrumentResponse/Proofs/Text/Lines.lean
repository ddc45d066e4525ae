import InstrumentResponse.Proofs.Text.Pieces

/-!
# Lines with their ends

`linesOf` drops what ends a line.  `rawLines` keeps it, so that a text can be cut between two lines
and put together again.

* `line_induction`: a text is empty, one line without an end, or a line and the text after it.
* `flatten_rawLines`: cutting a text into lines loses nothing.
* `linesOf_eq_map_bareLine`: without their ends these are the lines of the text.
* `rawLines_parts`: lines stay lines when a text is cut between two of them.
-/

namespace InstrumentResponse.Text

/-- The lines of a text, each with the line feed that ends it. -/
def rawLines : List Char → List (List Char)
  | [] => []
  | c :: cs => if c = '\n' then [c] :: rawLines cs else consHead c (rawLines cs)

/-- A line without its end. -/
def bareLine (l : List Char) : List Char :=
  if l.getLast? = some '\n' then dropReturn l.dropLast else l

/-- A text is empty, a line that no line feed ends, or a line and the text after it. -/
theorem line_induction {motive : List Char → Prop} (nil : motive [])
    (last : ∀ l, l ≠ [] → '\n' ∉ l → motive l)
    (line : ∀ l rest, '\n' ∉ l → motive rest → motive (l ++ '\n' :: rest)) :
    ∀ cs, motive cs := by
  refine separator_induction (· == '\n') ?_ ?_
  · intro l hFree
    by_cases he : l = []
    · rw [he]
      exact nil
    · exact last l he fun hm => by simpa using hFree _ hm
  · intro l c rest hFree hc ih
    obtain rfl : c = '\n' := beq_iff_eq.mp hc
    exact line l rest (fun hm => by simpa using hFree _ hm) ih

/-! ## Raw lines -/

theorem rawLines_append_lineFeed {l : List Char} (h : '\n' ∉ l) (rest : List Char) :
    rawLines (l ++ '\n' :: rest) = (l ++ ['\n']) :: rawLines rest := by
  induction l with
  | nil => simp [rawLines]
  | cons c l ih =>
    have hc : c ≠ '\n' := fun he => h (he ▸ List.mem_cons_self)
    rw [List.cons_append, rawLines, if_neg hc, ih (fun hm => h (List.mem_cons_of_mem _ hm))]
    rfl

theorem rawLines_of_not_mem {l : List Char} (hl : l ≠ []) (h : '\n' ∉ l) : rawLines l = [l] := by
  induction l with
  | nil => exact absurd rfl hl
  | cons c l ih =>
    have hc : c ≠ '\n' := fun he => h (he ▸ List.mem_cons_self)
    rw [rawLines, if_neg hc]
    cases l with
    | nil => rfl
    | cons d l =>
      rw [ih (by simp) (fun hm => h (List.mem_cons_of_mem _ hm))]
      rfl

theorem flatten_rawLines (cs : List Char) : (rawLines cs).flatten = cs := by
  induction cs using line_induction with
  | nil => rfl
  | last l hl h => simp [rawLines_of_not_mem hl h]
  | line l rest h ih => simp [rawLines_append_lineFeed h, ih]

theorem rawLines_parts {cs : List Char} {a b : List (List Char)} (h : rawLines cs = a ++ b) :
    rawLines a.flatten = a ∧ rawLines b.flatten = b := by
  induction a generalizing cs with
  | nil =>
    have hb : rawLines cs = b := h
    exact ⟨rfl, by rw [← hb, flatten_rawLines]⟩
  | cons l a ih =>
    cases cs using line_induction with
    | nil => simp [rawLines] at h
    | last l' hl hn =>
      rw [rawLines_of_not_mem hl hn, List.cons_append, List.cons.injEq] at h
      obtain ⟨rfl, hab⟩ := h
      obtain ⟨rfl, rfl⟩ := List.append_eq_nil_iff.mp hab.symm
      exact ⟨by simpa using rawLines_of_not_mem hl hn, rfl⟩
    | line l' rest hn _ =>
      rw [rawLines_append_lineFeed hn, List.cons_append, List.cons.injEq] at h
      obtain ⟨rfl, hab⟩ := h
      obtain ⟨ha, hb⟩ := ih hab
      refine ⟨?_, hb⟩
      rw [List.flatten_cons, List.append_assoc, List.singleton_append,
        rawLines_append_lineFeed hn, ha]

/-- Lines that were written one after the other are read back. -/
theorem rawLines_flatten_map {ls : List (List Char)} (h : ∀ l ∈ ls, '\n' ∉ l) :
    rawLines (ls.map (· ++ ['\n'])).flatten = ls.map (· ++ ['\n']) := by
  induction ls with
  | nil => rfl
  | cons l ls ih =>
    rw [List.map_cons, List.flatten_cons, List.append_assoc, List.singleton_append,
      rawLines_append_lineFeed (h l List.mem_cons_self),
      ih (fun m hm => h m (List.mem_cons_of_mem _ hm))]

/-! ## Lines without their ends -/

theorem beq_lineFeed_false {l : List Char} (h : '\n' ∉ l) : ∀ d ∈ l, (d == '\n') = false := by
  intro d hd
  exact beq_false_of_ne fun he => h (he ▸ hd)

theorem linesOf_append_lineFeed {l : List Char} (h : '\n' ∉ l) (rest : List Char) :
    linesOf (l ++ '\n' :: rest) = dropReturn l :: linesOf rest := by
  obtain ⟨last, earlier, he⟩ : ∃ last earlier,
      (piecesOf (· == '\n') rest).reverse = last :: earlier :=
    List.exists_cons_of_ne_nil (by simpa using piecesOf_ne_nil _ rest)
  unfold linesOf
  rw [piecesOf_append_cons (beq_lineFeed_false h) (by decide), List.reverse_cons, he]
  by_cases hl : last.isEmpty <;> simp [hl]

theorem linesOf_of_not_mem {l : List Char} (hl : l ≠ []) (h : '\n' ∉ l) : linesOf l = [l] := by
  unfold linesOf
  rw [piecesOf_of_forall (beq_lineFeed_false h)]
  simp [hl]

theorem bareLine_append_lineFeed (l : List Char) : bareLine (l ++ ['\n']) = dropReturn l := by
  simp [bareLine]

theorem bareLine_of_not_mem {l : List Char} (h : '\n' ∉ l) : bareLine l = l := by
  rw [bareLine, if_neg]
  intro hl
  exact h (List.mem_of_getLast? hl)

theorem linesOf_eq_map_bareLine (cs : List Char) : linesOf cs = (rawLines cs).map bareLine := by
  induction cs using line_induction with
  | nil => rfl
  | last l hl h =>
    rw [linesOf_of_not_mem hl h, rawLines_of_not_mem hl h, List.map_singleton,
      bareLine_of_not_mem h]
  | line l rest h ih =>
    rw [linesOf_append_lineFeed h, rawLines_append_lineFeed h, List.map_cons,
      bareLine_append_lineFeed, ih]

theorem prefix_of_dropReturn (cs : List Char) : dropReturn cs <+: cs := by
  rw [dropReturn]
  split
  · exact List.dropLast_prefix cs
  · exact List.prefix_refl cs

/-- No line holds a line feed. -/
theorem not_mem_of_mem_linesOf {cs l : List Char} (h : l ∈ linesOf cs) : '\n' ∉ l := by
  induction cs using line_induction with
  | nil => cases h
  | last last hLast hNone =>
    rw [linesOf_of_not_mem hLast hNone, List.mem_singleton] at h
    rwa [h]
  | line first rest hNone ih =>
    rw [linesOf_append_lineFeed hNone] at h
    rcases List.mem_cons.mp h with rfl | h
    · intro hm
      exact hNone ((prefix_of_dropReturn first).subset hm)
    · exact ih h

end InstrumentResponse.Text
