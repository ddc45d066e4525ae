import InstrumentResponse.Response
import InstrumentResponse.Proofs.Decimal.DigitTexts
import InstrumentResponse.Proofs.Decimal.SignificantDigits
import InstrumentResponse.Proofs.Scalar.Bits

/-!
# Numbers in tables

The numbers of a table are written with seven digits and an exponent.

* `TableText`: the form of such a number; `TableText.readNumeral?_chars`: the number that it denotes
  is the one that is read off it.
* `exists_tableText`: seven digits with an exponent are written in that form.
* `TableText.IsOf`: what is written for a double; `TableText.exists_isOf`: for every finite one.
* `tableNumber_nearest`: the number that is written is the nearest one with seven digits, so that
  doubles in order are written as numbers in order.
-/

namespace InstrumentResponse

open Decimal (isDigit digitsValue HasDigits)

/-- A number as it is written in tables: perhaps a minus sign, a digit, a point, six digits, the
letter E, a sign, and an exponent of at least two digits. -/
structure TableText where
  negative : Bool
  first : Char
  others : List Char
  negativeExponent : Bool
  exponent : List Char
  isDigit_first : isDigit first = true
  isDigit_others : ∀ c ∈ others, isDigit c = true
  length_others : others.length = 6
  isDigit_exponent : ∀ c ∈ exponent, isDigit c = true
  length_exponent : 2 ≤ exponent.length

namespace TableText

variable {t u : TableText}

def chars (t : TableText) : List Char :=
  (if t.negative then ['-'] else []) ++ t.first :: '.' :: (t.others ++ 'E' ::
    (if t.negativeExponent then '-' else '+') :: t.exponent)

/-- The number of the seven digits. -/
def coefficient (t : TableText) : Nat := digitsValue 0 (t.first :: t.others)

/-- The exponent of the first digit. -/
def scale (t : TableText) : ℤ :=
  if t.negativeExponent then -(digitsValue 0 t.exponent : ℤ) else digitsValue 0 t.exponent

/-- The number that is denoted. -/
def number (t : TableText) : ℚ := Double.signed t.negative (t.coefficient * 10 ^ (t.scale - 6))

/-! ## What is denoted -/

/-- The first digit is a zero if the others are enough. -/
theorem first_eq_zero_iff (t : TableText) : t.first = '0' ↔ t.coefficient < 10 ^ 6 := by
  have hValue := Decimal.digitsValue_cons t.first t.others
  have hOthers := Decimal.digitsValue_lt t.isDigit_others
  have hDigit := Decimal.toNat_of_isDigit t.isDigit_first
  rw [t.length_others] at hValue hOthers
  change t.coefficient = 10 ^ 6 * (t.first.toNat - 48) + _ at hValue
  constructor
  · intro hZero
    rw [hZero] at hValue
    change t.coefficient = 10 ^ 6 * (48 - 48) + _ at hValue
    omega
  · intro hLess
    have hNat : t.first.toNat = '0'.toNat := by
      show t.first.toNat = 48
      omega
    exact Char.toNat_inj.mp hNat

theorem readExponent?_exponent (t : TableText) :
    Decimal.readExponent? ('E' :: (if t.negativeExponent then '-' else '+') :: t.exponent) =
      some t.scale := by
  have hSome : t.exponent ≠ [] := by
    intro hNone
    have := t.length_exponent
    rw [hNone] at this
    simp at this
  have hDigits : Decimal.IsDigitsOf t.exponent (digitsValue 0 t.exponent) :=
    ⟨hSome, t.isDigit_exponent, rfl⟩
  cases hSign : t.negativeExponent with
  | false => simp [Decimal.readExponent?, Decimal.cutSign, hDigits.readDigits?, scale, hSign]
  | true => simp [Decimal.readExponent?, Decimal.cutSign, hDigits.readDigits?, scale, hSign]

/-- The digits, the sign and the exponent are what is read. -/
theorem readNumeral?_chars (t : TableText) :
    Decimal.readNumeral? t.chars = some ⟨t.negative, t.coefficient, t.scale - 6⟩ := by
  have hSign : ∀ rest, Decimal.cutSign ((if t.negative then ['-'] else []) ++ t.first :: rest) =
      (t.negative, t.first :: rest) := by
    intro rest
    cases t.negative with
    | false => exact Decimal.cutSign_of_isDigit t.isDigit_first rest
    | true => rfl
  have hFirst : ∀ c ∈ [t.first], isDigit c = true := by
    intro c hc
    rw [List.mem_singleton.mp hc]
    exact t.isDigit_first
  obtain ⟨hBefore, hPoint⟩ := Decimal.takeWhile_isDigit hFirst (d := '.') (by decide) (t.others ++
    'E' :: (if t.negativeExponent then '-' else '+') :: t.exponent)
  obtain ⟨hAfter, hMark⟩ := Decimal.takeWhile_isDigit t.isDigit_others (d := 'E') (by decide)
    ((if t.negativeExponent then '-' else '+') :: t.exponent)
  rw [List.singleton_append] at hBefore hPoint
  simp only [Decimal.readNumeral?, chars, hSign, hBefore, hPoint, hAfter, hMark,
    t.readExponent?_exponent, t.length_others, List.isEmpty_cons, Bool.false_and,
    Bool.false_eq_true, if_false, Option.map_some, List.singleton_append]
  rfl

/-- A text in this form denotes one number. -/
theorem number_eq_of_chars_eq (h : t.chars = u.chars) : t.number = u.number := by
  have hRead := congrArg Decimal.readNumeral? h
  rw [readNumeral?_chars, readNumeral?_chars, Option.some.injEq, Decimal.Numeral.mk.injEq] at hRead
  obtain ⟨hNegative, hCoefficient, hScale⟩ := hRead
  rw [number, number, hNegative, hCoefficient, hScale]

end TableText

/-! ## Writing -/

theorem toList_exponentText (e : ℤ) : (tableLayout.exponentText e).toList =
    (if decide (e < 0) then '-' else '+') :: (Decimal.padded 2 e.natAbs).toList := by
  by_cases hBelow : e < 0
  · simp [Decimal.Layout.exponentText, tableLayout, hBelow]
  · simp [Decimal.Layout.exponentText, tableLayout, hBelow]

theorem toList_writeDigits {d : Decimal.Digits} {first second : Char} {rest : List Char}
    (h : d.text = first :: second :: rest) : (tableLayout.writeDigits d).toList =
      first :: '.' :: (second :: rest ++ 'E' :: (tableLayout.exponentText d.exponent).toList) := by
  simp [Decimal.Layout.writeDigits, h]
  rfl

/-- Seven digits are written one by one. -/
theorem exists_digits {d : Decimal.Digits} (hLength : d.length = 7)
    (hLess : d.coefficient < 10 ^ 7) : ∃ first second rest, d.text = first :: second :: rest ∧
      (second :: rest).length = 6 ∧
      Decimal.IsDigitsOf (first :: second :: rest) d.coefficient := by
  have hDigits := (Decimal.isDigitsOf_digitText d.coefficient).padLeft 7
  have hSeven := Decimal.length_padLeft (c := '0') (Decimal.length_digitText_le (by omega) hLess)
  have hText : d.text = Decimal.padLeft 7 '0' (Decimal.digitText d.coefficient) := by
    rw [Decimal.Digits.text, hLength]
  rw [← hText] at hDigits hSeven
  obtain ⟨first, others, hFirst⟩ := List.exists_cons_of_ne_nil hDigits.ne_nil
  rw [hFirst] at hDigits hSeven
  have hOthers : others.length = 6 := by simpa using hSeven
  obtain ⟨second, rest, rfl⟩ : ∃ second rest, others = second :: rest := by
    refine List.exists_cons_of_ne_nil ?_
    rintro rfl
    simp at hOthers
  exact ⟨first, second, rest, hFirst, hOthers, hDigits⟩

/-- Seven digits with an exponent, and perhaps a minus sign, are written in the form of tables. -/
theorem exists_tableText (negative : Bool) {d : Decimal.Digits} (hLength : d.length = 7)
    (hLess : d.coefficient < 10 ^ 7) : ∃ t : TableText,
    ((if negative then "-" else "") ++ tableLayout.writeDigits d).toList = t.chars ∧
      t.negative = negative ∧ t.coefficient = d.coefficient ∧ t.scale = d.exponent := by
  obtain ⟨first, second, rest, hText, hOthers, hDigits⟩ := exists_digits hLength hLess
  have hExponent := Decimal.isDigitsOf_padded 2 d.exponent.natAbs
  refine ⟨⟨negative, first, second :: rest, decide (d.exponent < 0),
    (Decimal.padded 2 d.exponent.natAbs).toList, hDigits.digits first (by simp),
    fun c hc => hDigits.digits c (List.mem_cons_of_mem _ hc), hOthers, hExponent.digits, ?_⟩, ?_,
    rfl, hDigits.value, ?_⟩
  · rw [Decimal.padded, String.toList_ofList]
    exact Decimal.le_length_padLeft ..
  · rw [String.toList_append, toList_writeDigits hText, toList_exponentText]
    cases negative with
    | false => rfl
    | true => rfl
  · rw [TableText.scale, hExponent.value]
    by_cases hBelow : d.exponent < 0
    · rw [decide_eq_true hBelow, if_pos rfl]
      omega
    · rw [decide_eq_false hBelow, if_neg Bool.false_ne_true]
      omega

/-! ## The nearest number -/

namespace Decimal

theorem HasDigits.signed {n : Nat} {s : ℚ} (h : HasDigits n s) (negative : Bool) :
    HasDigits n (Double.signed negative s) := by
  obtain ⟨c, k, hc, rfl⟩ := h
  cases negative with
  | false => exact ⟨c, k, hc, rfl⟩
  | true =>
    refine ⟨-c, k, by rwa [abs_neg], ?_⟩
    show -((c : ℚ) * 10 ^ k) = _
    push_cast
    ring

end Decimal

namespace TableText

variable {t u : TableText} {x y : Float}

/-- What a table holds for a double: its sign, and the nearest number with seven digits, the one
whose last digit is even if there are two. -/
structure IsOf (t : TableText) (x : Float) : Prop where
  text : (tableNumber x).toList = t.chars
  negative : t.negative = Decimal.isNegative x
  first : t.first = '0' ↔ Double.value x = 0
  hasDigits : HasDigits 7 t.number
  closest : ∀ s, HasDigits 7 s → |Double.value x - t.number| ≤ |Double.value x - s|
  even_of_tie : ∀ s, HasDigits 7 s → s ≠ t.number →
    |Double.value x - s| = |Double.value x - t.number| → Even t.coefficient

/-- The text of a double is that of the digits nearest to its magnitude. -/
theorem exists_digits_of (hx : x.isFinite = true) : ∃ (t : TableText) (d : Decimal.Digits) (q : ℚ),
    (tableNumber x).toList = t.chars ∧ t.negative = Decimal.isNegative x ∧
      t.coefficient = d.coefficient ∧ t.number = Double.signed (Decimal.isNegative x) d.number ∧
      Double.value x = Double.signed (Decimal.isNegative x) q ∧ d.IsNearest 7 q := by
  obtain ⟨m, e, hMagnitude, hValue⟩ := Double.exists_magnitude hx
  obtain ⟨d, hd⟩ : ∃ d, Decimal.significant 7 (Decimal.numerator m e) (Decimal.denominator e) = d :=
    ⟨_, rfl⟩
  have hDen : 0 < Decimal.denominator e := Nat.pow_pos (by omega)
  have hNearest := Decimal.isNearest_significant (n := 7) (by omega) (Decimal.numerator m e) hDen
  rw [hd, Decimal.numerator_div_denominator] at hNearest
  obtain ⟨t, hChars, hNegative, hCoefficient, hScale⟩ :=
    exists_tableText (Decimal.isNegative x) hNearest.length hNearest.lt
  have hText : tableNumber x =
      (if Decimal.isNegative x then "-" else "") ++ tableLayout.writeDigits d := by
    rw [tableNumber, Decimal.Layout.write, hMagnitude, ← hd]
    rfl
  have hExponent : d.exponent - 6 = d.exponent - (7 : ℕ) + 1 := by omega
  refine ⟨t, d, _, hText ▸ hChars, hNegative, hCoefficient, ?_, hValue, hNearest⟩
  rw [number, hNegative, hCoefficient, hScale, Decimal.Digits.number, hNearest.length, hExponent]

theorem exists_isOf (hx : x.isFinite = true) : ∃ t : TableText, t.IsOf x := by
  obtain ⟨t, d, q, hText, hNegative, hCoefficient, hNumber, hValue, hNearest⟩ := exists_digits_of hx
  refine ⟨t, hText, hNegative, ?_, ?_, ?_, ?_⟩
  · rw [t.first_eq_zero_iff, hCoefficient, hValue, Double.signed_eq_zero_iff]
    constructor
    · intro hLess
      by_contra hSome
      have := hNearest.le hSome
      omega
    · intro hZero
      rw [hNearest.zero hZero]
      omega
  · rw [hNumber]
    exact hNearest.hasDigits.signed _
  · intro s hs
    rw [hValue, hNumber, Double.abs_signed_sub, Double.signed_signed, Double.abs_signed_sub]
    exact hNearest.closest _ (hs.signed _)
  · intro s hs hOther hTie
    rw [hValue, hNumber, Double.abs_signed_sub, Double.abs_signed_sub, Double.signed_signed] at hTie
    rw [hCoefficient]
    refine hNearest.even_of_tie _ (hs.signed _) ?_ hTie
    intro hSame
    exact hOther (by rw [hNumber, ← hSame, Double.signed_signed])

/-! ## Order -/

/-- Of two numbers the one that is nearer is on the same side of the middle. -/
theorem le_two_mul_of_closer {a b v : ℚ} (hLess : a < b) (h : |v - b| ≤ |v - a|) : a + b ≤ 2 * v := by
  by_contra hBelow
  rw [not_le] at hBelow
  rw [abs_of_neg (by linarith : v - b < 0)] at h
  have hFarther : |v - a| < -(v - b) := by
    rw [abs_lt]
    constructor
    · linarith
    · linarith
  linarith

theorem two_mul_le_of_closer {a b v : ℚ} (hLess : a < b) (h : |v - a| ≤ |v - b|) :
    2 * v ≤ a + b := by
  have hOpposite := le_two_mul_of_closer (v := -v) (neg_lt_neg hLess) (by
    rwa [neg_sub_neg, neg_sub_neg, abs_sub_comm a, abs_sub_comm b])
  linarith

/-- Greater doubles are not written as smaller numbers. -/
theorem number_le_of_value_lt (ht : t.IsOf x) (hu : u.IsOf y)
    (h : Double.value x < Double.value y) : t.number ≤ u.number := by
  by_contra hLess
  rw [not_le] at hLess
  have hAbove := le_two_mul_of_closer hLess (ht.closest _ hu.hasDigits)
  have hBelow := two_mul_le_of_closer hLess (hu.closest _ ht.hasDigits)
  linarith

theorem number_eq_zero (ht : t.IsOf x) (h : Double.value x = 0) : t.number = 0 := by
  have hClosest := ht.closest 0 (Decimal.hasDigits_zero 7)
  rw [h, sub_self, abs_zero, zero_sub, abs_neg] at hClosest
  exact abs_nonpos_iff.mp hClosest

theorem number_le_of_le (hx : x.isFinite = true) (hy : y.isFinite = true) (hxy : x ≤ y)
    (ht : t.IsOf x) (hu : u.IsOf y) : t.number ≤ u.number := by
  rcases ((Double.le_iff_value_le hx hy).mp hxy).lt_or_eq with hLess | hSame
  · exact number_le_of_value_lt ht hu hLess
  · have hNotLess : ¬ x < y := by
      rw [Double.lt_iff_value_lt hx hy]
      exact hSame.not_lt
    have hNotGreater : ¬ y < x := by
      rw [Double.lt_iff_value_lt hy hx]
      exact hSame.not_gt
    obtain rfl | ⟨s, s', hZero, hZero'⟩ := Double.eq_or_zeros_of_not_lt
      (Double.not_isNaN_of_isFinite hx).1 (Double.not_isNaN_of_isFinite hy).1 hNotLess hNotGreater
    · exact (TableText.number_eq_of_chars_eq (ht.text.symm.trans hu.text)).le
    · have hValue : Double.value x = 0 := by rw [Double.value, hZero, Double.numberOf_zero]
      rw [number_eq_zero ht hValue, number_eq_zero hu (hSame ▸ hValue)]

end TableText

/-- Every finite double is written in the form of tables, as the number with seven digits that is
nearest to it, and doubles in order are written as numbers in order. -/
theorem tableNumber_nearest :
    (∀ x : Float, x.isFinite = true → ∃ t : TableText, t.IsOf x) ∧
    ∀ x y : Float, x.isFinite = true → y.isFinite = true → x ≤ y → ∀ t u : TableText,
      (tableNumber x).toList = t.chars → (tableNumber y).toList = u.chars →
        t.number ≤ u.number := by
  refine ⟨fun x hx => TableText.exists_isOf hx, ?_⟩
  intro x y hx hy hxy t u ht hu
  obtain ⟨t', ht'⟩ := TableText.exists_isOf hx
  obtain ⟨u', hu'⟩ := TableText.exists_isOf hy
  rw [TableText.number_eq_of_chars_eq (ht.symm.trans ht'.text),
    TableText.number_eq_of_chars_eq (hu.symm.trans hu'.text)]
  exact TableText.number_le_of_le hx hy hxy ht' hu'

/-- A tie goes to the even last digit, and the number after it to a greater one. -/
theorem tableNumber_nearest_tie :
    (∃ t : TableText, t.chars = "1.000000E+07".toList ∧ t.IsOf 10000005) ∧
    ∀ t u : TableText, "1.000000E+07".toList = t.chars → "1.000001E+07".toList = u.chars →
      t.number ≤ u.number := by
  obtain ⟨hForm, hOrder⟩ := tableNumber_nearest
  have hTie : tableNumber 10000005 = "1.000000E+07" := by decide +kernel
  have hNext : tableNumber 10000006 = "1.000001E+07" := by decide +kernel
  constructor
  · obtain ⟨t, ht⟩ := hForm 10000005 (by decide)
    refine ⟨t, ?_, ht⟩
    rw [← ht.text, hTie]
  · intro t u ht hu
    rw [← hTie] at ht
    rw [← hNext] at hu
    exact hOrder 10000005 10000006 (by decide) (by decide) (by decide) t u ht hu

end InstrumentResponse
