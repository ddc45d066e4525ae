import Mathlib.Data.List.TakeWhile
import Mathlib.Tactic.GCongr
import Mathlib.Tactic.Ring
import InstrumentResponse.Decimal.Layout
import InstrumentResponse.Decimal.Reading
import InstrumentResponse.Text.Blank

/-!
# Texts of digits

Whole numbers are written in ASCII digits, with zeros in front of them up to a width.

* `IsDigitsOf`: a text of digits and the number that it denotes; `isDigitsOf_padded`: as numbers are
  written.
* `digitsValue_cons`, `digitsValue_lt`: the weights of digits.
* `IsDigitsOf.readDigits?`, `IsDigitsOf.readNatural?`, `IsDigitsOf.readInteger?`,
  `IsDigitsOf.readDouble?`: what is read off such a text.
-/

namespace InstrumentResponse.Decimal

/-- A text of digits that denotes the number `n`. -/
structure IsDigitsOf (cs : List Char) (n : Nat) : Prop where
  ne_nil : cs ≠ []
  digits : ∀ c ∈ cs, isDigit c = true
  value : digitsValue 0 cs = n

/-! ## Writing -/

theorem digitsValue_eq_ofDigitChars (n : Nat) (cs : List Char) :
    digitsValue n cs = Nat.ofDigitChars 10 cs n := by
  rw [digitsValue, Nat.ofDigitChars_eq_foldl]

theorem isDigitsOf_digitText (n : Nat) : IsDigitsOf (digitText n) n where
  ne_nil := Nat.toDigits_ne_nil
  digits := by
    intro c hc
    have hDigit := Nat.isDigit_of_mem_toDigits (by omega) (by omega) hc
    simpa [isDigit, Char.isDigit, Char.le_def] using hDigit
  value := by rw [digitsValue_eq_ofDigitChars, digitText, Nat.ofDigitChars_ten_toDigits]

theorem length_padLeft {width : Nat} {c : Char} {cs : List Char} (h : cs.length ≤ width) :
    (padLeft width c cs).length = width := by
  simp [padLeft]
  omega

theorem length_digitText_le {n width : Nat} (hWidth : 0 < width) (h : n < 10 ^ width) :
    (digitText n).length ≤ width :=
  (Nat.length_toDigits_le_iff (by omega) hWidth).mpr h

theorem le_length_padLeft (width : Nat) (c : Char) (cs : List Char) :
    width ≤ (padLeft width c cs).length := by
  simp [padLeft]
  omega

namespace IsDigitsOf

variable {cs : List Char} {n : Nat}

/-- Zeros in front change nothing. -/
theorem padLeft (h : IsDigitsOf cs n) (width : Nat) :
    IsDigitsOf (Decimal.padLeft width '0' cs) n where
  ne_nil := by simp [Decimal.padLeft, h.ne_nil]
  digits := by
    intro c hc
    rcases List.mem_append.mp hc with hc | hc
    · rw [List.eq_of_mem_replicate hc]
      rfl
    · exact h.digits c hc
  value := by
    rw [Decimal.padLeft, digitsValue_eq_ofDigitChars, Nat.ofDigitChars_append,
      Nat.ofDigitChars_replicate_zero, Nat.mul_zero, ← digitsValue_eq_ofDigitChars]
    exact h.value

end IsDigitsOf

theorem isDigitsOf_padded (width n : Nat) : IsDigitsOf (padded width n).toList n := by
  rw [padded, String.toList_ofList]
  exact (isDigitsOf_digitText n).padLeft width

/-- The first digit has the greatest weight. -/
theorem digitsValue_cons (c : Char) (cs : List Char) :
    digitsValue 0 (c :: cs) = 10 ^ cs.length * (c.toNat - '0'.toNat) + digitsValue 0 cs := by
  have hStep : digitsValue 0 (c :: cs) = digitsValue (10 * 0 + (c.toNat - '0'.toNat)) cs := rfl
  rw [hStep, digitsValue_eq_ofDigitChars, Nat.ofDigitChars_eq_ofDigitChars_zero, Nat.mul_zero,
    Nat.zero_add, ← digitsValue_eq_ofDigitChars]

theorem toNat_of_isDigit {c : Char} (h : isDigit c = true) : 48 ≤ c.toNat ∧ c.toNat ≤ 57 := by
  simp [isDigit, Char.le_def, UInt32.le_iff_toNat_le] at h
  exact h

theorem digitsValue_lt {cs : List Char} (h : ∀ c ∈ cs, isDigit c = true) :
    digitsValue 0 cs < 10 ^ cs.length := by
  induction cs with
  | nil => simp [digitsValue]
  | cons c cs ih =>
    have hRest := ih fun d hd => h d (List.mem_cons_of_mem _ hd)
    have hDigit := toNat_of_isDigit (h c List.mem_cons_self)
    have hMost : c.toNat - '0'.toNat ≤ 9 := by
      show c.toNat - 48 ≤ 9
      omega
    rw [digitsValue_cons, List.length_cons, Nat.pow_succ]
    calc 10 ^ cs.length * (c.toNat - '0'.toNat) + digitsValue 0 cs
        < 10 ^ cs.length * (c.toNat - '0'.toNat) + 10 ^ cs.length := by omega
      _ ≤ 10 ^ cs.length * 9 + 10 ^ cs.length := by gcongr
      _ = 10 ^ cs.length * 10 := by ring

/-! ## Reading -/

theorem isBlank_of_isDigit {c : Char} (h : isDigit c = true) : Text.isBlank c = false := by
  have hDigit := toNat_of_isDigit h
  simp [Text.isBlank]
  omega

/-- A digit is no sign. -/
theorem cutSign_of_isDigit {c : Char} (h : isDigit c = true) (cs : List Char) :
    cutSign (c :: cs) = (false, c :: cs) := by
  unfold cutSign
  split
  · next hMinus =>
    cases hMinus
    exact absurd h (by decide)
  · next hPlus =>
    cases hPlus
    exact absurd h (by decide)
  · rfl

/-- A run of digits ends before what is no digit. -/
theorem takeWhile_isDigit {cs : List Char} (h : ∀ c ∈ cs, isDigit c = true) {d : Char}
    (hd : isDigit d = false) (rest : List Char) : (cs ++ d :: rest).takeWhile isDigit = cs ∧
      (cs ++ d :: rest).dropWhile isDigit = d :: rest := by
  rw [List.takeWhile_append_of_pos h, List.dropWhile_append_of_pos h]
  simp [hd]

namespace IsDigitsOf

variable {cs : List Char} {c : Char} {n : Nat} {s : String}

theorem not_mem (h : IsDigitsOf cs n) (hc : isDigit c = false) : c ∉ cs := by
  intro hMem
  rw [h.digits c hMem] at hc
  cases hc

theorem not_blank (h : IsDigitsOf cs n) : ∀ c ∈ cs, Text.isBlank c = false :=
  fun c hc => isBlank_of_isDigit (h.digits c hc)

theorem readDigits? (h : IsDigitsOf cs n) : Decimal.readDigits? cs = some n := by
  simp [Decimal.readDigits?, h.ne_nil, List.all_eq_true.mpr h.digits, h.value]

theorem cutSign (h : IsDigitsOf cs n) : Decimal.cutSign cs = (false, cs) := by
  obtain ⟨c, rest, rfl⟩ := List.exists_cons_of_ne_nil h.ne_nil
  exact cutSign_of_isDigit (h.digits c List.mem_cons_self) rest

theorem readNatural? {high : Nat} (h : IsDigitsOf s.toList n) (hHigh : n ≤ high) :
    Decimal.readNatural? high s = some n := by
  unfold Decimal.readNatural?
  split
  · next hPlus => exact absurd (hPlus ▸ List.mem_cons_self ..) (h.not_mem (c := '+') (by decide))
  · simp [h.readDigits?, hHigh]

/-- A whole number is read off the digits behind its sign. -/
theorem readInteger? {low high : Int} {negative : Bool} (h : IsDigitsOf cs n)
    (hSign : Decimal.cutSign s.toList = (negative, cs))
    (hLow : low ≤ if negative then -(n : Int) else n)
    (hHigh : (if negative then -(n : Int) else n) ≤ high) :
    Decimal.readInteger? low high s = some (if negative then -(n : Int) else n) := by
  simp only [Decimal.readInteger?, hSign, h.readDigits?, Option.bind_some]
  exact if_pos ⟨hLow, hHigh⟩

theorem readNumeral? (h : IsDigitsOf cs n) : Decimal.readNumeral? cs = some ⟨false, n, 0⟩ := by
  have hTake : cs.takeWhile isDigit = cs := List.takeWhile_eq_self_iff.mpr h.digits
  have hDrop : cs.dropWhile isDigit = [] := List.dropWhile_eq_nil_iff.mpr h.digits
  simp [Decimal.readNumeral?, h.cutSign, hTake, hDrop, h.ne_nil, readExponent?, h.value]

/-- Digits are the same in lower case. -/
theorem map_lowerChar (h : IsDigitsOf cs n) : cs.map Text.lowerChar = cs := by
  rw [List.map_congr_left (g := id) ?_, List.map_id]
  intro c hc
  have hDigit := h.digits c hc
  apply if_neg
  simp [isDigit, Char.le_def, UInt32.le_iff_toNat_le] at hDigit ⊢
  omega

/-- No word for what is infinite or not a number is made of digits. -/
theorem ne_word (h : IsDigitsOf cs n) {c : Char} {word : List Char} (hc : isDigit c = false) :
    cs ≠ c :: word := by
  intro hSame
  exact h.not_mem hc (hSame ▸ List.mem_cons_self ..)

theorem readDouble? (h : IsDigitsOf s.toList n) :
    Decimal.readDouble? s = some (Numeral.toDouble ⟨false, n, 0⟩) := by
  have hInf : ¬ (String.ofList s.toList = "inf" ∨ String.ofList s.toList = "infinity") := by
    rintro (hWord | hWord)
    · exact h.ne_word (c := 'i') (by decide) (String.ofList_injective hWord)
    · exact h.ne_word (c := 'i') (by decide) (String.ofList_injective hWord)
  have hNan : ¬ String.ofList s.toList = "nan" := fun hWord =>
    h.ne_word (c := 'n') (by decide) (String.ofList_injective hWord)
  simp only [Decimal.readDouble?, h.cutSign, h.map_lowerChar, h.readNumeral?, if_neg hInf,
    if_neg hNan, Option.map_some]

end IsDigitsOf

end InstrumentResponse.Decimal
