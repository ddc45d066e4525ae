import Mathlib.Data.Nat.Digits.Defs
import InstrumentResponse.Proofs.Record.Isolation

/-!
# Which lines are records

A line is a record line if its text up to the first blank is `BxxxFyy` or `BxxxFyy-zz`.  The reader
takes decimal digits of any script for `x`, `y` and `z`, but knows the values of ASCII digits only.

* `Grouped p`: the groups of digits of a prefix, where `p` says what a digit is.
* `readPrefix?_of_grouped`, `exists_grouped`: the reader accepts exactly the prefixes in digits of
  any script, and knows the number of a group if it is in ASCII digits.
* `readsExactly_iff`: which lines are read as the ASCII grammar has it, and what becomes of the
  others: a line whose blockette is not in ASCII digits is passed over in a body.
-/

namespace InstrumentResponse.Record

open Text (isBlank isDecimalDigit)

/-! ## Groups of digits -/

/-- The digits of a prefix `BxxxFyy` or `BxxxFyy-zz` in groups, where `p` says what a digit is. -/
inductive Grouped (p : Char → Bool) :
    List Char → List Char → List Char → Option (List Char) → Prop
  | field {b f : List Char} (hb : b.length = 3) (hf : f.length = 2) (hp : (b ++ f).all p = true) :
      Grouped p ('B' :: (b ++ 'F' :: f)) b f none
  | range {b f z : List Char} (hb : b.length = 3) (hf : f.length = 2) (hz : z.length = 2)
      (hp : (b ++ f ++ z).all p = true) :
      Grouped p ('B' :: (b ++ 'F' :: (f ++ '-' :: z))) b f (some z)

/-- The number that some digits denote, the first one the most significant. -/
def denoted (cs : List Char) : Nat := Nat.ofDigits 10 (cs.map fun c => c.toNat - '0'.toNat).reverse

/-- The number of a group, if it is in ASCII digits. -/
def asciiNumber? (cs : List Char) : Option Nat :=
  if cs.all Decimal.isDigit then some (denoted cs) else none

theorem digitsValue_eq (n : Nat) (cs : List Char) :
    Decimal.digitsValue n cs = n * 10 ^ cs.length + denoted cs := by
  induction cs generalizing n with
  | nil => simp [Decimal.digitsValue, denoted]
  | cons c cs ih =>
    have hStep : Decimal.digitsValue n (c :: cs) =
        Decimal.digitsValue (10 * n + (c.toNat - '0'.toNat)) cs := rfl
    have hDenoted : denoted (c :: cs) = denoted cs + 10 ^ cs.length * (c.toNat - '0'.toNat) := by
      simp [denoted, Nat.ofDigits_append]
    rw [hStep, ih, hDenoted, List.length_cons, Nat.pow_succ]
    ring

theorem readDigits?_eq {cs : List Char} (h : cs ≠ []) :
    Decimal.readDigits? cs = asciiNumber? cs := by
  have hValue : Decimal.digitsValue 0 cs = denoted cs := by rw [digitsValue_eq]; omega
  have hSome : cs.isEmpty = false := List.isEmpty_eq_false_iff.mpr h
  rw [Decimal.readDigits?, asciiNumber?, hValue, hSome]
  cases cs.all Decimal.isDigit <;> rfl

theorem isDecimalDigit_of_ascii {c : Char} (h : Decimal.isDigit c = true) :
    isDecimalDigit c = true := by
  refine Text.isDecimalDigit_of_isDigit ?_
  simpa [Decimal.isDigit, Char.isDigit, Char.le_def] using h

namespace Grouped

variable {p q : Char → Bool} {cs b f b' f' : List Char} {z z' : Option (List Char)}

/-- A group is a part of the prefix, and not empty. -/
theorem ne_nil (h : Grouped p cs b f z) : b ≠ [] ∧ f ≠ [] ∧ ∀ g ∈ z, g ≠ [] := by
  cases h with
  | field hb hf hp =>
    refine ⟨?_, ?_, by simp⟩
    · rintro rfl; simp at hb
    · rintro rfl; simp at hf
  | range hb hf hz hp =>
    refine ⟨?_, ?_, ?_⟩
    · rintro rfl; simp at hb
    · rintro rfl; simp at hf
    · rintro g ⟨rfl⟩ rfl
      simp at hz

/-- Every digit of a group is one. -/
theorem all_digits (h : Grouped p cs b f z) : b.all p = true ∧ f.all p = true ∧
    ∀ g ∈ z, g.all p = true := by
  cases h with
  | field hb hf hp =>
    rw [List.all_append, Bool.and_eq_true] at hp
    exact ⟨hp.1, hp.2, by simp⟩
  | range hb hf hz hp =>
    rw [List.all_append, List.all_append, Bool.and_eq_true, Bool.and_eq_true] at hp
    refine ⟨hp.1.1, hp.1.2, ?_⟩
    rintro g ⟨rfl⟩
    exact hp.2

/-- What is a digit may be told more generously. -/
theorem mono (h : Grouped p cs b f z) (hpq : ∀ c, p c = true → q c = true) :
    Grouped q cs b f z := by
  have hAll : ∀ {ds : List Char}, ds.all p = true → ds.all q = true := by
    intro ds hds
    rw [List.all_eq_true] at hds ⊢
    exact fun c hc => hpq c (hds c hc)
  cases h with
  | field hb hf hp => exact .field hb hf (hAll hp)
  | range hb hf hz hp => exact .range hb hf hz (hAll hp)

/-- A prefix is made of its digits and its letters. -/
theorem digit_or_letter (h : Grouped p cs b f z) :
    ∀ c ∈ cs, p c = true ∨ c ∈ ['B', 'F', '-'] := by
  intro c hc
  obtain ⟨hb, hf, hz⟩ := h.all_digits
  rw [List.all_eq_true] at hb hf
  cases h with
  | field =>
    simp only [List.mem_cons, List.mem_append] at hc ⊢
    rcases hc with hc | hc | hc | hc
    · simp [hc]
    · exact .inl (hb c hc)
    · simp [hc]
    · exact .inl (hf c hc)
  | range =>
    simp only [List.mem_cons, List.mem_append] at hc ⊢
    rcases hc with hc | hc | hc | hc | hc | hc
    · simp [hc]
    · exact .inl (hb c hc)
    · simp [hc]
    · exact .inl (hf c hc)
    · simp [hc]
    · exact .inl (List.all_eq_true.mp (hz _ rfl) c hc)

/-- The numbers of the groups, if all digits are ASCII digits. -/
theorem asciiNumbers (h : Grouped Decimal.isDigit cs b f z) :
    asciiNumber? b = some (denoted b) ∧ asciiNumber? f = some (denoted f) ∧
      z.bind asciiNumber? = z.map denoted := by
  obtain ⟨hb, hf, hz⟩ := h.all_digits
  refine ⟨if_pos hb, if_pos hf, ?_⟩
  cases z with
  | none => rfl
  | some g => exact if_pos (hz g rfl)

end Grouped

/-! ## Prefixes -/

theorem prefixNumber_eq {cs : List Char} (h : cs ≠ []) :
    prefixNumber cs = (asciiNumber? cs).getD 0 := by
  rw [prefixNumber, readDigits?_eq h]

/-- A prefix in digits of any script is accepted, with the numbers that its ASCII digits denote. -/
theorem readPrefix?_of_grouped {cs b f : List Char} {z : Option (List Char)}
    (h : Grouped isDecimalDigit cs b f z) :
    readPrefix? cs =
      some ((asciiNumber? b).getD 0, (asciiNumber? f).getD 0, z.bind asciiNumber?) := by
  obtain ⟨hbNe, hfNe, hzNe⟩ := h.ne_nil
  rw [← prefixNumber_eq hbNe, ← prefixNumber_eq hfNe]
  cases h with
  | field hb hf hp =>
    obtain ⟨a, b, c, rfl⟩ := List.length_eq_three.mp hb
    obtain ⟨d, e, rfl⟩ := List.length_eq_two.mp hf
    exact if_pos hp
  | range hb hf hz hp =>
    obtain ⟨a, b, c, rfl⟩ := List.length_eq_three.mp hb
    obtain ⟨d, e, rfl⟩ := List.length_eq_two.mp hf
    obtain ⟨g, h, rfl⟩ := List.length_eq_two.mp hz
    rw [Option.bind_some, ← readDigits?_eq (hzNe _ rfl)]
    exact if_pos hp

theorem exists_grouped {cs : List Char} {r : Nat × Nat × Option Nat} (h : readPrefix? cs = some r) :
    ∃ b f z, Grouped isDecimalDigit cs b f z := by
  unfold readPrefix? at h
  split at h
  · next a b c d e =>
    by_cases hp : [a, b, c, d, e].all isDecimalDigit = true
    · exact ⟨_, _, _, .field (b := [a, b, c]) (f := [d, e]) rfl rfl hp⟩
    · rw [if_neg hp] at h
      cases h
  · next a b c d e f g =>
    by_cases hp : [a, b, c, d, e, f, g].all isDecimalDigit = true
    · exact ⟨_, _, _, .range (b := [a, b, c]) (f := [d, e]) (z := [f, g]) rfl rfl rfl hp⟩
    · rw [if_neg hp] at h
      cases h
  · cases h

/-! ## Lines -/

/-- What stands before the first blank of a line. -/
def headOf (text : String) : List Char := text.toList.takeWhile (!isBlank ·)

/-- What stands from the first blank of a line on. -/
def restOf (text : String) : String := String.ofList (text.toList.dropWhile (!isBlank ·))

/-- Whoever meets a line refuses it as malformed. -/
def Refused (number : Nat) (text : String) : Prop :=
  ∀ lines rest, Decoder.peek.run lines (Entry.read number text :: rest) =
    ⟨[], .error (.line number 0 0 text .malformed), rest⟩

/-- A line is read as a record if it has a prefix in ASCII digits, with the numbers that these
denote, and is refused otherwise. -/
structure ReadsExactly (number : Nat) (text : String) : Prop where
  accepted : ∀ b f z, Grouped Decimal.isDigit (headOf text) b f z → Entry.read number text =
    .record ⟨number, text, denoted b, denoted f, z.map denoted, restOf text⟩
  refused : (¬ ∃ b f z, Grouped Decimal.isDigit (headOf text) b f z) → Refused number text

variable {number : Nat} {text : String}

theorem read_of_grouped {b f : List Char} {z : Option (List Char)}
    (h : Grouped isDecimalDigit (headOf text) b f z) :
    Entry.read number text = .record ⟨number, text, (asciiNumber? b).getD 0,
      (asciiNumber? f).getD 0, z.bind asciiNumber?, restOf text⟩ := by
  have hTold : readPrefix? (text.toList.takeWhile (!isBlank ·)) = some _ := readPrefix?_of_grouped h
  rw [Entry.read, hTold]
  rfl

theorem read_of_ascii {b f : List Char} {z : Option (List Char)}
    (h : Grouped Decimal.isDigit (headOf text) b f z) :
    Entry.read number text =
      .record ⟨number, text, denoted b, denoted f, z.map denoted, restOf text⟩ := by
  obtain ⟨hb, hf, hz⟩ := h.asciiNumbers
  rw [read_of_grouped (h.mono fun _ => isDecimalDigit_of_ascii), hb, hf, hz]
  rfl

/-- A line is refused if and only if its head is no prefix in digits of any script. -/
theorem refused_iff :
    Refused number text ↔ ¬ ∃ b f z, Grouped isDecimalDigit (headOf text) b f z := by
  constructor
  · rintro hRefused ⟨b, f, z, h⟩
    have hPeek := hRefused 0 []
    rw [read_of_grouped h] at hPeek
    cases hPeek
  · intro hNone lines rest
    have hTold : readPrefix? (text.toList.takeWhile (!isBlank ·)) = none := by
      cases hRead : readPrefix? (text.toList.takeWhile (!isBlank ·)) with
      | none => rfl
      | some r => exact absurd (exists_grouped hRead) hNone
    rw [Entry.read, hTold]
    rfl

/-- A line without a number of its blockette is passed over in a body. -/
theorem stagesFrom_of_foreign [Memory] {b f : List Char} {z : Option (List Char)}
    (h : Grouped isDecimalDigit (headOf text) b f z) (hb : asciiNumber? b = none)
    (undecoded : Bool) (lines : Nat) (stages : List (Stage Float)) (rest : List Entry) :
    Decoder.stagesFrom undecoded lines stages (Entry.read number text :: rest) =
      Decoder.stagesFrom undecoded lines stages rest := by
  rw [read_of_grouped h, hb]
  exact Decoder.stagesFrom_pass _ _ _ (show 0 ≠ 50 by decide)
    (Decoder.bodyRecord?_none (show 0 ≠ 60 by decide) rfl) _

theorem ReadsExactly.exists_ascii (h : ReadsExactly number text)
    (hGrouped : ∃ b f z, Grouped isDecimalDigit (headOf text) b f z) :
    ∃ b f z, Grouped Decimal.isDigit (headOf text) b f z := by
  by_contra hNone
  exact refused_iff.mp (h.refused hNone) hGrouped

/-- **Which lines are records.**  A line is read as the grammar in ASCII digits has it, and refused
if it does not follow it, unless its head is a prefix in decimal digits that are not all ASCII
digits.  Such a line is read too, with 0 for the blockette and the field and nothing for the last
field where their digits are not ASCII digits; with 0 for the blockette a body passes over it. -/
theorem readsExactly_iff [Memory] (number : Nat) (text : String) :
    (ReadsExactly number text ↔
      ((∃ b f z, Grouped isDecimalDigit (headOf text) b f z) →
        ∃ b f z, Grouped Decimal.isDigit (headOf text) b f z)) ∧
    (Refused number text ↔ ¬ ∃ b f z, Grouped isDecimalDigit (headOf text) b f z) ∧
    ∀ b f z, Grouped isDecimalDigit (headOf text) b f z →
      Entry.read number text = .record ⟨number, text, (asciiNumber? b).getD 0,
        (asciiNumber? f).getD 0, z.bind asciiNumber?, restOf text⟩ ∧
      (asciiNumber? b = none → ∀ undecoded lines stages rest,
        Decoder.stagesFrom undecoded lines stages (Entry.read number text :: rest) =
          Decoder.stagesFrom undecoded lines stages rest) := by
  refine ⟨⟨ReadsExactly.exists_ascii, ?_⟩, refused_iff, ?_⟩
  · intro hAscii
    exact ⟨fun b f z h => read_of_ascii h, fun hNone => refused_iff.mpr (mt hAscii hNone)⟩
  · intro b f z h
    exact ⟨read_of_grouped h, stagesFrom_of_foreign h⟩

/-- A channel with a gain, the prefixes of whose records are in other digits. -/
def foreignGain : String :=
  textOf ["B050F03 Station: A", "B050F16 Network: B", "B052F04 Channel: C",
    "B052F22 Start: 2020,001", "B052F23 End: No Ending Time",
    "B\u0660\u0665\u0668F03 Stage: 1", "B\u0660\u0665\u0668F04 Gain: 2",
    "B\u0660\u0665\u0668F05 Frequency: 1", "B\u0660\u0665\u0668F06 Calibrations: 0"]

/-- Its records vanish, and nothing is said about it. -/
theorem foreignGain_vanishes :
    ¬ ReadsExactly 6 "B\u0660\u0665\u0668F03 Stage: 1" ∧
      (channels (fun _ => true) false foreignGain).map
        (fun item => item.result.toOption.map (·.stages)) = [some []] := by
  constructor
  · intro hExact
    have hHead : headOf "B\u0660\u0665\u0668F03 Stage: 1" =
        'B' :: (['\u0660', '\u0665', '\u0668'] ++ 'F' :: ['0', '3']) := by decide +kernel
    have hGrouped : Grouped isDecimalDigit (headOf "B\u0660\u0665\u0668F03 Stage: 1")
        ['\u0660', '\u0665', '\u0668'] ['0', '3'] none := by
      rw [hHead]
      exact .field rfl rfl (by decide +kernel)
    obtain ⟨b, f, z, h⟩ := hExact.exists_ascii ⟨_, _, _, hGrouped⟩
    have hDigit := h.digit_or_letter '\u0660' (by rw [hHead]; decide)
    revert hDigit
    decide
  · rw [channels_eq_leadingFault_append, leadingFault, foreignGain,
      entries_textOf (by decide +kernel), lineCount_textOf (by decide +kernel)]
    decide +kernel

end InstrumentResponse.Record
