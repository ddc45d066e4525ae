import Mathlib.Algebra.Order.Field.Power
import Mathlib.Algebra.Order.Field.Rat
import Mathlib.Data.Rat.Cast.Order
import Mathlib.Tactic.FieldSimp
import Mathlib.Tactic.Linarith
import Mathlib.Tactic.Positivity
import Mathlib.Tactic.Ring
import InstrumentResponse.Decimal.Rounding

/-!
# Numbers of significant digits

A fraction is rounded to the nearest number with a given number of significant digits, a tie going
to the even last digit.

* `roundDiv_spec`: rounding to whole numbers.
* `leadingExponent_spec`: the exponent of the first digit of a positive fraction.
* `HasDigits`: the numbers with at most `n` significant digits, all their exponents together.
* `Digits.IsNearest`, `isNearest_significant`: what rounding to significant digits gives, a carry
  into a new digit included.
-/

namespace InstrumentResponse.Decimal

/-! ## Whole numbers -/

/-- What rounding leaves is at most half of the denominator, and less if the number is odd. -/
theorem roundDiv_spec (num : Nat) {den : Nat} (hDen : 0 < den) : ∃ d : ℤ,
    (num : ℤ) = roundDiv num den * den + d ∧ |2 * d| ≤ den ∧
      (|2 * d| = den → Even (roundDiv num den)) := by
  have hParts : den * (num / den) + num % den = num := Nat.div_add_mod num den
  have hRest : num % den < den := Nat.mod_lt num hDen
  unfold roundDiv
  generalize num / den = k, num % den = r at hParts hRest
  dsimp only
  split
  · next hUp =>
    refine ⟨r - den, ?_, ?_, ?_⟩
    · rw [← hParts]
      push_cast
      ring
    · rw [abs_le]
      omega
    · intro hTie
      rw [abs_of_neg (by omega)] at hTie
      have hOdd : k % 2 = 1 := by omega
      exact Nat.even_iff.mpr (by omega)
  · next hDown =>
    refine ⟨r, ?_, ?_, ?_⟩
    · rw [← hParts]
      push_cast
      ring
    · rw [abs_le]
      omega
    · intro hTie
      rw [abs_of_nonneg (by omega)] at hTie
      exact Nat.even_iff.mpr (by omega)

theorem abs_sub_roundDiv_le (num : Nat) {den : Nat} (hDen : 0 < den) :
    |(num / den : ℚ) - roundDiv num den| ≤ 1 / 2 ∧
      (|(num / den : ℚ) - roundDiv num den| = 1 / 2 → Even (roundDiv num den)) := by
  obtain ⟨d, hNum, hHalf, hEven⟩ := roundDiv_spec num hDen
  have hPos : (0 : ℚ) < den := by exact_mod_cast hDen
  have hRest : (num / den : ℚ) - roundDiv num den = d / den := by
    have hCast : (num : ℚ) = roundDiv num den * den + d := by exact_mod_cast hNum
    rw [hCast]
    field_simp
    ring
  have hAbs : 2 * |(d : ℚ)| = ((|2 * d| : ℤ) : ℚ) := by
    push_cast
    rw [abs_mul, abs_two]
  rw [hRest, abs_div, abs_of_pos hPos]
  constructor
  · rw [div_le_iff₀ hPos]
    have hCast : ((|2 * d| : ℤ) : ℚ) ≤ den := by exact_mod_cast hHalf
    linarith
  · intro hTie
    rw [div_eq_iff hPos.ne'] at hTie
    apply hEven
    have hCast : ((|2 * d| : ℤ) : ℚ) = den := by linarith
    exact_mod_cast hCast

/-- No whole number is nearer than one within a half. -/
theorem half_le_abs_sub {q : ℚ} {c j : ℤ} (h : |q - c| ≤ 1 / 2) (hj : j ≠ c) : 1 / 2 ≤ |q - j| := by
  have hApart : (1 : ℚ) ≤ |(c : ℚ) - j| := by exact_mod_cast Int.one_le_abs (sub_ne_zero.mpr hj.symm)
  have hTriangle : |(c : ℚ) - j| ≤ |q - c| + |q - j| := by
    calc |(c : ℚ) - j| = |(q - j) - (q - c)| := by congr 1; ring
      _ ≤ |q - j| + |q - c| := abs_sub _ _
      _ = |q - c| + |q - j| := add_comm _ _
  linarith

/-! ## Fractions -/

theorem numerator_div_denominator (m : Nat) (q : ℤ) :
    (numerator m q : ℚ) / denominator q = m * 2 ^ q := by
  obtain ⟨n, rfl | rfl⟩ := q.eq_nat_or_neg
  · simp [numerator, denominator, twoTo]
  · simp [numerator, denominator, twoTo]
    rfl

/-! ## The first digit -/

theorem digitCount_le_iff {n k : Nat} : digitCount n ≤ k ↔ n < 10 ^ k := by
  induction k generalizing n with
  | zero =>
    rw [digitCount]
    split
    · simp_all
    · simp_all
  | succ k ih =>
    rw [digitCount]
    split
    · simp_all
    · rw [Nat.add_le_add_iff_right, ih, Nat.pow_succ]
      omega

/-- A whole number of `d` digits lies between two powers of ten. -/
theorem zpow_digitCount_le {n : Nat} (hn : 0 < n) : (10 : ℚ) ^ ((digitCount n : ℤ) - 1) ≤ n := by
  have hSome : ¬ digitCount n ≤ 0 := by
    rw [digitCount_le_iff]
    omega
  have hLess : ¬ digitCount n ≤ digitCount n - 1 := by omega
  rw [digitCount_le_iff, not_lt] at hLess
  have hExponent : (digitCount n : ℤ) - 1 = (digitCount n - 1 : Nat) := by omega
  rw [hExponent, zpow_natCast]
  exact_mod_cast hLess

theorem lt_zpow_digitCount (n : Nat) : (n : ℚ) < 10 ^ (digitCount n : ℤ) := by
  have hLess : n < 10 ^ digitCount n := digitCount_le_iff.mp (Nat.le_refl _)
  rw [zpow_natCast]
  exact_mod_cast hLess

/-- Moved to the one side or the other, a power of ten is a factor. -/
theorem timesTen_div (a b : Nat) (e : ℤ) :
    (timesTen a e : ℚ) / timesTen b (-e) = a / b * 10 ^ e := by
  obtain ⟨n, rfl | rfl⟩ := e.eq_nat_or_neg
  · simp [timesTen, tenTo]
    ring
  · simp [timesTen, tenTo]
    ring

theorem timesTen_pos {a : Nat} (ha : 0 < a) (e : ℤ) : 0 < timesTen a e :=
  Nat.mul_pos ha (Nat.pow_pos (by omega))

theorem timesTen_le_iff {num den : Nat} (hNum : 0 < num) (hDen : 0 < den) (e : ℤ) :
    timesTen den e ≤ timesTen num (-e) ↔ (10 : ℚ) ^ e ≤ num / den := by
  have hPos : (0 : ℚ) < timesTen num (-e) := by exact_mod_cast timesTen_pos hNum (-e)
  have hNumPos : (0 : ℚ) < num := by exact_mod_cast hNum
  have hDenPos : (0 : ℚ) < den := by exact_mod_cast hDen
  rw [← Nat.cast_le (α := ℚ), ← div_le_one hPos, timesTen_div, le_div_iff₀ hDenPos,
    div_mul_eq_mul_div, div_le_one hNumPos, mul_comm]

theorem leadingExponent_spec {num den : Nat} (hNum : 0 < num) (hDen : 0 < den) :
    (10 : ℚ) ^ leadingExponent num den ≤ num / den ∧
      (num / den : ℚ) < 10 ^ (leadingExponent num den + 1) := by
  have hTen : (10 : ℚ) ≠ 0 := by norm_num
  have hDenPos : (0 : ℚ) < den := by exact_mod_cast hDen
  have hNumLow := zpow_digitCount_le hNum
  have hNumHigh := lt_zpow_digitCount num
  have hDenLow := zpow_digitCount_le hDen
  have hDenHigh := lt_zpow_digitCount den
  rw [leadingExponent]
  generalize digitCount num = a at hNumLow hNumHigh
  generalize digitCount den = b at hDenLow hDenHigh
  split
  · next h =>
    refine ⟨(timesTen_le_iff hNum hDen _).mp h, ?_⟩
    rw [div_lt_iff₀ hDenPos]
    calc (num : ℚ) < 10 ^ (a : ℤ) := hNumHigh
      _ = 10 ^ ((a : ℤ) - b + 1) * 10 ^ ((b : ℤ) - 1) := by
        rw [← zpow_add₀ hTen]
        congr 1
        omega
      _ ≤ 10 ^ ((a : ℤ) - b + 1) * den := by gcongr
  · next h =>
    rw [timesTen_le_iff hNum hDen, not_le] at h
    refine ⟨?_, by rwa [sub_add_cancel]⟩
    rw [le_div_iff₀ hDenPos]
    calc (10 : ℚ) ^ ((a : ℤ) - b - 1) * den ≤ 10 ^ ((a : ℤ) - b - 1) * 10 ^ (b : ℤ) := by gcongr
      _ = 10 ^ ((a : ℤ) - 1) := by
        rw [← zpow_add₀ hTen]
        congr 1
        omega
      _ ≤ num := hNumLow

/-! ## Significant digits -/

/-- The numbers with at most `n` significant digits, with a sign. -/
def HasDigits (n : Nat) (r : ℚ) : Prop := ∃ c k : ℤ, |c| < 10 ^ n ∧ r = c * 10 ^ k

theorem hasDigits_zero (n : Nat) : HasDigits n 0 := ⟨0, 0, by simp, by simp⟩

/-- The number that some digits denote. -/
def Digits.number (d : Digits) : ℚ := d.coefficient * 10 ^ (d.exponent - d.length + 1)

/-- The digits of a number with `n` significant digits that is nearest to `q`: the first one is not
zero unless the number is, and of two such numbers this is the one whose last digit is even. -/
structure Digits.IsNearest (n : Nat) (q : ℚ) (d : Digits) : Prop where
  length : d.length = n
  lt : d.coefficient < 10 ^ n
  le : q ≠ 0 → 10 ^ (n - 1) ≤ d.coefficient
  zero : q = 0 → d.coefficient = 0
  closest : ∀ s, HasDigits n s → |q - d.number| ≤ |q - s|
  even_of_tie : ∀ s, HasDigits n s → s ≠ d.number → |q - s| = |q - d.number| → Even d.coefficient

theorem Digits.IsNearest.hasDigits {n : Nat} {q : ℚ} {d : Digits} (h : d.IsNearest n q) :
    HasDigits n d.number := by
  refine ⟨d.coefficient, d.exponent - d.length + 1, ?_, ?_⟩
  · rw [Nat.abs_cast]
    exact_mod_cast h.lt
  · rw [Digits.number, Int.cast_natCast]

theorem isNearest_zero (n : Nat) : Digits.IsNearest n 0 ⟨0, n, 0⟩ where
  length := rfl
  lt := Nat.pow_pos (by omega)
  le h := absurd rfl h
  zero _ := rfl
  closest s _ := by simp [Digits.number]
  even_of_tie s _ _ _ := Even.zero

/-- A number within a half of the last digit, before a carry. -/
structure Rounded (n : Nat) (q : ℚ) (c : Nat) (e : ℤ) : Prop where
  low : 10 ^ e ≤ q
  high : q < 10 ^ (e + 1)
  near : |q * 10 ^ ((n : ℤ) - 1 - e) - c| ≤ 1 / 2
  even : |q * 10 ^ ((n : ℤ) - 1 - e) - c| = 1 / 2 → Even c

theorem rounded_significant (n : Nat) {num den : Nat} (hNum : 0 < num) (hDen : 0 < den) :
    ∃ c e, significant n num den = .carry c n e ∧ Rounded n (num / den) c e := by
  obtain ⟨hLow, hHigh⟩ := leadingExponent_spec hNum hDen
  refine ⟨_, leadingExponent num den, if_neg hNum.ne', hLow, hHigh, ?_, ?_⟩
  all_goals
    rw [← timesTen_div]
  · exact (abs_sub_roundDiv_le _ (timesTen_pos hDen _)).1
  · exact (abs_sub_roundDiv_le _ (timesTen_pos hDen _)).2

/-- The weight of the last of `n` digits, where the first one has the weight `10 ^ e`. -/
def lastWeight (n : Nat) (e : ℤ) : ℚ := 10 ^ (e - n + 1)

theorem lastWeight_pos (n : Nat) (e : ℤ) : 0 < lastWeight n e := zpow_pos (by norm_num) _

theorem abs_sub_multiple {w x : ℚ} (hw : 0 < w) (j : ℚ) : |x * w - j * w| = |x - j| * w := by
  rw [← sub_mul, abs_mul, abs_of_pos hw]

theorem zpow_eq_mul_lastWeight {n : Nat} (hn : 1 ≤ n) (e : ℤ) :
    (10 : ℚ) ^ e = ((10 ^ (n - 1) : ℤ) : ℚ) * lastWeight n e := by
  have hTen : (10 : ℚ) ≠ 0 := by norm_num
  push_cast
  rw [lastWeight, ← zpow_natCast, ← zpow_add₀ hTen]
  congr 1
  omega

/-- A number with `n` digits is a multiple of the weight of a last digit, or too small for the first
digit. -/
theorem HasDigits.multiple_or_lt {n : Nat} {s : ℚ} (h : HasDigits n s) (e : ℤ) :
    (∃ j : ℤ, s = j * lastWeight n e) ∨ s < 10 ^ e := by
  have hTen : (10 : ℚ) ≠ 0 := by norm_num
  obtain ⟨c, k, hc, rfl⟩ := h
  by_cases hk : e - n + 1 ≤ k
  · left
    refine ⟨c * 10 ^ (k - (e - n + 1)).toNat, ?_⟩
    push_cast
    rw [lastWeight, mul_assoc, ← zpow_natCast, ← zpow_add₀ hTen, Int.toNat_of_nonneg (by omega)]
    congr 2
    omega
  · right
    have hCast : (c : ℚ) < 10 ^ (n : ℤ) := by
      rw [zpow_natCast]
      exact_mod_cast (le_abs_self c).trans_lt hc
    calc (c : ℚ) * 10 ^ k < 10 ^ (n : ℤ) * 10 ^ k := by gcongr
      _ = 10 ^ (n + k) := (zpow_add₀ hTen _ _).symm
      _ ≤ 10 ^ e := zpow_le_zpow_right₀ (by norm_num) (by omega)

namespace Rounded

variable {n c : Nat} {q : ℚ} {e : ℤ}

/-- The rounded number in units of its last digit. -/
theorem scaled (h : Rounded n q c e) : ∃ x, q = x * lastWeight n e ∧ |x - c| ≤ 1 / 2 ∧
    (|x - c| = 1 / 2 → Even c) := by
  refine ⟨_, ?_, h.near, h.even⟩
  have hTen : (10 : ℚ) ≠ 0 := by norm_num
  have hOne : (n : ℤ) - 1 - e + (e - n + 1) = 0 := by omega
  rw [lastWeight, mul_assoc, ← zpow_add₀ hTen, hOne, zpow_zero, mul_one]

theorem closest_multiple (h : Rounded n q c e) (j : ℤ) :
    |q - c * lastWeight n e| ≤ |q - j * lastWeight n e| := by
  obtain ⟨x, rfl, hNear, -⟩ := h.scaled
  have hPos := lastWeight_pos n e
  rw [abs_sub_multiple hPos, abs_sub_multiple hPos]
  refine mul_le_mul_of_nonneg_right ?_ hPos.le
  by_cases hj : j = c
  · rw [hj, Int.cast_natCast]
  · exact hNear.trans (half_le_abs_sub (c := c) (by exact_mod_cast hNear) hj)

/-- What is too small for the first digit is farther away than the least number with it. -/
theorem lt_of_lt (h : Rounded n q c e) (hn : 1 ≤ n) {s : ℚ} (hs : s < 10 ^ e) :
    |q - c * lastWeight n e| < |q - s| := by
  have hLeast := h.closest_multiple (10 ^ (n - 1))
  rw [← zpow_eq_mul_lastWeight hn, abs_of_nonneg (sub_nonneg.mpr h.low)] at hLeast
  have hLow := h.low
  rw [abs_of_nonneg (by linarith : 0 ≤ q - s)]
  linarith

theorem closest (h : Rounded n q c e) (hn : 1 ≤ n) {s : ℚ} (hs : HasDigits n s) :
    |q - c * lastWeight n e| ≤ |q - s| := by
  rcases hs.multiple_or_lt e with ⟨j, rfl⟩ | hLess
  · exact h.closest_multiple j
  · exact (h.lt_of_lt hn hLess).le

theorem even_of_tie (h : Rounded n q c e) (hn : 1 ≤ n) {s : ℚ} (hs : HasDigits n s)
    (hOther : s ≠ c * lastWeight n e) (hTie : |q - s| = |q - c * lastWeight n e|) : Even c := by
  rcases hs.multiple_or_lt e with ⟨j, rfl⟩ | hLess
  · obtain ⟨x, rfl, hNear, hEven⟩ := h.scaled
    have hPos := lastWeight_pos n e
    rw [abs_sub_multiple hPos, abs_sub_multiple hPos] at hTie
    have hSame : |x - j| = |x - c| := mul_right_cancel₀ hPos.ne' hTie
    have hj : j ≠ c := by
      rintro rfl
      exact hOther (by rw [Int.cast_natCast])
    have hHalf := half_le_abs_sub (c := c) (by exact_mod_cast hNear) hj
    exact hEven (le_antisymm hNear (hSame ▸ hHalf))
  · exact absurd hTie (h.lt_of_lt hn hLess).ne'

/-- The digits are `n`, or one more if there is a carry into a new one. -/
theorem bounds (h : Rounded n q c e) (hn : 1 ≤ n) : 10 ^ (n - 1) ≤ c ∧ c ≤ 10 ^ n := by
  have hLow := h.low
  have hHigh := h.high
  obtain ⟨x, rfl, hNear, -⟩ := h.scaled
  have hPos := lastWeight_pos n e
  have hNext : (10 : ℚ) ^ (e + 1) = (10 ^ n : ℕ) * lastWeight n e := by
    rw [lastWeight, Nat.cast_pow, ← zpow_natCast]
    push_cast
    rw [← zpow_add₀ (by norm_num : (10 : ℚ) ≠ 0)]
    congr 1
    omega
  rw [zpow_eq_mul_lastWeight hn, mul_le_mul_iff_left₀ hPos] at hLow
  rw [hNext, mul_lt_mul_iff_left₀ hPos] at hHigh
  rw [abs_le] at hNear
  constructor
  · have hCast : ((10 ^ (n - 1) : ℕ) : ℚ) < ((c + 1 : ℕ) : ℚ) := by
      push_cast at hLow ⊢
      linarith
    have := Nat.cast_lt.mp hCast
    omega
  · have hCast : (c : ℚ) < ((10 ^ n + 1 : ℕ) : ℚ) := by
      push_cast at hHigh ⊢
      linarith
    have := Nat.cast_lt.mp hCast
    omega

end Rounded

/-! ### Carries -/

theorem carry_of_ne {n c : Nat} {e : ℤ} (h : c ≠ 10 ^ n) : Digits.carry c n e = ⟨c, n, e⟩ := if_neg h

theorem carry_pow (n : Nat) (e : ℤ) :
    Digits.carry (10 ^ n) n e = ⟨10 ^ (n - 1), n, e + 1⟩ := if_pos rfl

/-- A carry into a new digit changes how a number is written, and not the number. -/
theorem number_carry {n : Nat} (hn : 1 ≤ n) (c : Nat) (e : ℤ) :
    (Digits.carry c n e).number = c * lastWeight n e := by
  by_cases hCarry : c = 10 ^ n
  · have hPow : (c : ℚ) = 10 ^ (n : ℤ) := by
      rw [hCarry, zpow_natCast]
      push_cast
      rfl
    have hTen : (10 : ℚ) ≠ 0 := by norm_num
    rw [hPow, hCarry, carry_pow, Digits.number, lastWeight]
    push_cast
    rw [← zpow_natCast, ← zpow_add₀ hTen, ← zpow_add₀ hTen]
    congr 1
    omega
  · rw [carry_of_ne hCarry]
    rfl

theorem Rounded.isNearest {n c : Nat} {q : ℚ} {e : ℤ} (h : Rounded n q c e) (hn : 2 ≤ n) :
    (Digits.carry c n e).IsNearest n q := by
  have hOne : 1 ≤ n := by omega
  have hPos : 0 < q := (zpow_pos (by norm_num) e).trans_le h.low
  have hClosest : ∀ s, HasDigits n s → |q - (Digits.carry c n e).number| ≤ |q - s| := by
    intro s hs
    rw [number_carry hOne]
    exact h.closest hOne hs
  by_cases hCarry : c = 10 ^ n
  · -- the digits are a one and zeros
    subst hCarry
    rw [carry_pow] at hClosest ⊢
    refine ⟨rfl, ?_, fun _ => Nat.le_refl _, fun hZero => absurd hZero hPos.ne', hClosest, ?_⟩
    · exact Nat.pow_lt_pow_right (by omega) (by omega)
    · intro s hs hOther hTie
      exact (by decide : Even 10).pow_of_ne_zero (by omega)
  · obtain ⟨hLow, hHigh⟩ := h.bounds hOne
    have hNumber := number_carry hOne c e
    rw [carry_of_ne hCarry] at hClosest hNumber ⊢
    refine ⟨rfl, lt_of_le_of_ne hHigh hCarry, fun _ => hLow, fun hZero => absurd hZero hPos.ne',
      hClosest, ?_⟩
    intro s hs hOther hTie
    rw [hNumber] at hOther hTie
    exact h.even_of_tie hOne hs hOther hTie

/-- Rounding gives the nearest number with so many significant digits. -/
theorem isNearest_significant {n : Nat} (hn : 2 ≤ n) (num : Nat) {den : Nat} (hDen : 0 < den) :
    (significant n num den).IsNearest n (num / den) := by
  by_cases hNum : num = 0
  · subst hNum
    rw [Nat.cast_zero, zero_div]
    exact isNearest_zero n
  · obtain ⟨c, e, hDigits, hRounded⟩ := rounded_significant n (Nat.pos_of_ne_zero hNum) hDen
    rw [hDigits]
    exact hRounded.isNearest hn

end InstrumentResponse.Decimal
