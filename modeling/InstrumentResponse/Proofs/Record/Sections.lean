import Mathlib.Data.List.Forall2
import InstrumentResponse.Proofs.Record.Renumbering
import InstrumentResponse.Proofs.Text.Lines

/-!
# The parts of a text that hold one channel

A text is cut before each line that opens a channel.

* `preamble_append_join`: nothing is lost, so a text is what stands before its first channel and the
  texts of its channels.
* `entries_channelText`: the text of a channel begins with its header and holds no other one.
* `length_channelTexts`: there are as many of them as headers.
-/

namespace InstrumentResponse.Record

/-! ## Cutting a list -/

section

variable {α : Type} (p : α → Bool)

/-- A list cut before each element that satisfies `p`: what stands before the first one, and the
parts that begin with one. -/
def cutBefore : List α → List α × List (List α)
  | [] => ([], [])
  | x :: xs =>
    if p x then ([], (x :: (cutBefore xs).1) :: (cutBefore xs).2)
    else (x :: (cutBefore xs).1, (cutBefore xs).2)

theorem cutBefore_append (xs : List α) : (cutBefore p xs).1 ++ (cutBefore p xs).2.flatten = xs := by
  induction xs with
  | nil => rfl
  | cons x xs ih =>
    rw [cutBefore]
    split
    · rw [List.nil_append, List.flatten_cons, List.cons_append, ih]
    · rw [List.cons_append, ih]

theorem forall_fst_cutBefore (xs : List α) : ∀ x ∈ (cutBefore p xs).1, p x = false := by
  induction xs with
  | nil => simp [cutBefore]
  | cons x xs ih =>
    rw [cutBefore]
    split
    · simp
    · next h =>
      intro y hy
      rcases List.mem_cons.mp hy with rfl | hy
      · exact Bool.eq_false_iff.mpr h
      · exact ih y hy

/-- An element that satisfies `p`, and others that do not. -/
def IsPart (part : List α) : Prop :=
  ∃ x rest, part = x :: rest ∧ p x = true ∧ ∀ y ∈ rest, p y = false

theorem isPart_cutBefore (xs : List α) : ∀ part ∈ (cutBefore p xs).2, IsPart p part := by
  induction xs with
  | nil => simp [cutBefore]
  | cons x xs ih =>
    rw [cutBefore]
    split
    · next h =>
      intro part hp
      rcases List.mem_cons.mp hp with rfl | hp
      · exact ⟨x, _, rfl, h, forall_fst_cutBefore p xs⟩
      · exact ih part hp
    · exact ih

end

/-! ## Numbered entries -/

/-- The record lines among some lines, the first of which has a given number. -/
def entriesFrom (number : Nat) : List (List Char) → List Entry
  | [] => []
  | l :: ls => (Entry.ofLine? (Text.bareLine l) number).toList ++ entriesFrom (number + 1) ls

theorem entriesFrom_append (number : Nat) (a b : List (List Char)) :
    entriesFrom number (a ++ b) = entriesFrom number a ++ entriesFrom (number + a.length) b := by
  induction a generalizing number with
  | nil => rfl
  | cons l a ih =>
    rw [List.cons_append, entriesFrom, entriesFrom, ih, List.append_assoc, List.length_cons,
      Nat.add_assoc, Nat.add_comm 1]

theorem filterMap_zipIdx_map_bareLine (number : Nat) (ls : List (List Char)) :
    (((ls.map Text.bareLine).zipIdx number).filterMap fun (line, n) => Entry.ofLine? line n) =
      entriesFrom number ls := by
  induction ls generalizing number with
  | nil => rfl
  | cons l ls ih =>
    rw [List.map_cons, List.zipIdx_cons, List.filterMap_cons, entriesFrom, ih]
    dsimp only
    cases Entry.ofLine? (Text.bareLine l) number <;> rfl

theorem entries_eq_entriesFrom (text : String) :
    entries text = entriesFrom 1 (Text.rawLines text.toList) := by
  rw [← filterMap_zipIdx_map_bareLine, ← Text.linesOf_eq_map_bareLine]
  rfl

theorem same_read (m n : Nat) (text : String) :
    Entry.Same (Entry.read m text) (Entry.read n text) := by
  unfold Entry.read
  dsimp only
  split
  · exact .record _ n
  · exact .damaged m n text

/-- The entries of a line under two numbers: none, or the same. -/
theorem ofLine_cases (line : List Char) (m n : Nat) :
    (Entry.ofLine? line m = none ∧ Entry.ofLine? line n = none) ∨
      ∃ e e', Entry.ofLine? line m = some e ∧ Entry.ofLine? line n = some e' ∧ Entry.Same e e' := by
  unfold Entry.ofLine?
  split
  · exact .inl ⟨rfl, rfl⟩
  · exact .inl ⟨rfl, rfl⟩
  · exact .inr ⟨_, _, rfl, rfl, same_read m n _⟩

theorem same_entriesFrom (m n : Nat) (ls : List (List Char)) :
    List.Forall₂ Entry.Same (entriesFrom m ls) (entriesFrom n ls) := by
  induction ls generalizing m n with
  | nil => exact .nil
  | cons l ls ih =>
    rw [entriesFrom, entriesFrom]
    rcases ofLine_cases (Text.bareLine l) m n with ⟨h, h'⟩ | ⟨e, e', h, h', hs⟩
    · rw [h, h']
      exact ih _ _
    · rw [h, h']
      exact .cons hs (ih _ _)

/-! ## Texts line by line -/

/-- A text of some lines. -/
def textOf (ls : List String) : String := String.join (ls.map (· ++ "\n"))

theorem toList_textOf (ls : List String) :
    (textOf ls).toList = ((ls.map String.toList).map (· ++ ['\n'])).flatten := by
  induction ls with
  | nil => rfl
  | cons l ls ih =>
    rw [textOf, List.map_cons, String.join_cons, String.toList_append, String.toList_append]
    exact congrArg _ ih

theorem rawLines_textOf {ls : List String} (h : ∀ l ∈ ls, '\n' ∉ l.toList) :
    Text.rawLines (textOf ls).toList = (ls.map String.toList).map (· ++ ['\n']) := by
  rw [toList_textOf]
  exact Text.rawLines_flatten_map (by simpa using h)

theorem entries_textOf {ls : List String} (h : ∀ l ∈ ls, '\n' ∉ l.toList) :
    entries (textOf ls) = entriesFrom 1 ((ls.map String.toList).map (· ++ ['\n'])) := by
  rw [entries_eq_entriesFrom, rawLines_textOf h]

theorem lineCount_textOf {ls : List String} (h : ∀ l ∈ ls, '\n' ∉ l.toList) :
    lineCount (textOf ls) = ls.length := by
  rw [lineCount, Text.linesOf_eq_map_bareLine, rawLines_textOf h]
  simp

/-! ## Parts of a text -/

/-- Does a line open a channel? -/
def opensChannel (line : List Char) : Bool :=
  (Entry.ofLine? (Text.bareLine line) 0).any Entry.isHeader

theorem headless_entriesFrom {ls : List (List Char)} (h : ∀ l ∈ ls, opensChannel l = false)
    (number : Nat) : Headless (entriesFrom number ls) := by
  induction ls generalizing number with
  | nil => exact fun e he => absurd he List.not_mem_nil
  | cons l ls ih =>
    intro e he
    rcases List.mem_append.mp he with he | he
    · have hl := h l List.mem_cons_self
      rcases ofLine_cases (Text.bareLine l) 0 number with ⟨_, h'⟩ | ⟨e₀, e', h₀, h', hs⟩
      · rw [h'] at he
        exact absurd he (by simp)
      · rw [h', Option.toList_some, List.mem_singleton] at he
        rw [opensChannel, h₀, Option.any_some] at hl
        rw [he, hs.isHeader_eq, hl]
    · exact ih (fun l hl => h l (List.mem_cons_of_mem _ hl)) _ e he

/-- The entries of a part: the header that opens it, and no other one. -/
theorem entriesFrom_part {part : List (List Char)} (h : IsPart opensChannel part) (number : Nat) :
    ∃ l es, entriesFrom number part = .record l :: es ∧ l.isHeader = true ∧ Headless es := by
  obtain ⟨line, rest, rfl, hline, hrest⟩ := h
  rcases ofLine_cases (Text.bareLine line) 0 number with ⟨h₀, _⟩ | ⟨e₀, e, h₀, h', hs⟩
  · rw [opensChannel, h₀] at hline
    cases hline
  · rw [opensChannel, h₀, Option.any_some, ← hs.isHeader_eq] at hline
    rw [entriesFrom, h', Option.toList_some, List.singleton_append]
    rcases e with l | ⟨n, text⟩
    · exact ⟨l, _, rfl, hline, headless_entriesFrom hrest _⟩
    · cases hline

/-- What stands in a text before its first channel. -/
def preamble (text : String) : String :=
  String.ofList (cutBefore opensChannel (Text.rawLines text.toList)).1.flatten

/-- The texts of the channels of a text, each from its header up to the next one. -/
def channelTexts (text : String) : List String :=
  (cutBefore opensChannel (Text.rawLines text.toList)).2.map fun part => String.ofList part.flatten

theorem toList_join_ofList (parts : List (List (List Char))) :
    (String.join (parts.map fun part => String.ofList part.flatten)).toList =
      parts.flatten.flatten := by
  induction parts with
  | nil => rfl
  | cons part parts ih => simp [String.join_cons, ih]

theorem preamble_append_join (text : String) :
    preamble text ++ String.join (channelTexts text) = text := by
  apply String.toList_inj.mp
  rw [String.toList_append, preamble, channelTexts, toList_join_ofList, String.toList_ofList,
    ← List.flatten_append, cutBefore_append, Text.flatten_rawLines]

/-- The lines of a part are those of its text. -/
theorem rawLines_part {cs : List Char} {before : List (List Char)}
    {parts : List (List (List Char))} (h : Text.rawLines cs = before ++ parts.flatten) :
    ∀ part ∈ parts, Text.rawLines part.flatten = part := by
  intro part hp
  obtain ⟨a, b, rfl⟩ := List.append_of_mem hp
  have hcut : Text.rawLines cs = (before ++ a.flatten) ++ (part ++ b.flatten) := by
    rw [h, List.flatten_append, List.flatten_cons, List.append_assoc]
  exact (Text.rawLines_parts (Text.rawLines_parts hcut).2).1

theorem rawLines_cutBefore (text : String) :
    Text.rawLines text.toList = (cutBefore opensChannel (Text.rawLines text.toList)).1 ++
      (cutBefore opensChannel (Text.rawLines text.toList)).2.flatten :=
  (cutBefore_append opensChannel _).symm

theorem headless_preamble (text : String) : Headless (entries (preamble text)) := by
  rw [entries_eq_entriesFrom, preamble, String.toList_ofList,
    (Text.rawLines_parts (rawLines_cutBefore text)).1]
  exact headless_entriesFrom (forall_fst_cutBefore opensChannel _) 1

/-- The text of a channel begins with its header and holds no other one. -/
theorem entries_channelText {text part : String} (h : part ∈ channelTexts text) :
    ∃ l es, entries part = .record l :: es ∧ l.isHeader = true ∧ Headless es := by
  obtain ⟨ls, hls, rfl⟩ := List.mem_map.mp h
  rw [entries_eq_entriesFrom, String.toList_ofList, rawLines_part (rawLines_cutBefore text) ls hls]
  exact entriesFrom_part (isPart_cutBefore opensChannel _ ls hls) 1

theorem countP_headless {es : List Entry} (h : Headless es) : es.countP Entry.isHeader = 0 :=
  List.countP_eq_zero.mpr fun e he => by rw [h e he]; exact Bool.false_ne_true

theorem countP_entriesFrom_parts {parts : List (List (List Char))}
    (h : ∀ part ∈ parts, IsPart opensChannel part) (number : Nat) :
    (entriesFrom number parts.flatten).countP Entry.isHeader = parts.length := by
  induction parts generalizing number with
  | nil => rfl
  | cons part parts ih =>
    obtain ⟨l, es, he, hl, hes⟩ := entriesFrom_part (h part List.mem_cons_self) number
    rw [List.flatten_cons, entriesFrom_append, he, List.countP_append, List.countP_cons,
      countP_headless hes, ih (fun p hp => h p (List.mem_cons_of_mem _ hp))]
    simp only [Entry.isHeader, hl, if_true, List.length_cons]
    omega

/-- A text has as many channels as headers. -/
theorem length_channelTexts (text : String) :
    (channelTexts text).length = (entries text).countP Entry.isHeader := by
  rw [entries_eq_entriesFrom, rawLines_cutBefore, entriesFrom_append, List.countP_append,
    countP_headless (headless_entriesFrom (forall_fst_cutBefore opensChannel _) 1),
    countP_entriesFrom_parts (isPart_cutBefore opensChannel _), channelTexts, List.length_map,
    Nat.zero_add]

end InstrumentResponse.Record
