import Mathlib
import InstrumentResponse.Proofs.Scalar.Grid

/-!
# Doubles are rounded to the grid

A double is unpacked into a sign, a mantissa and an exponent.  Its sums are computed exactly and
then shifted to 53 digits; the digits that are lost are told by two bits, of which the first one is
the next digit and the other one says whether there is anything behind it.

* `numberOf`: the number that an unpacked double stands for.
* `Canonical`: mantissa and exponent are in place; `numberOf_lt_iff`: such doubles are compared like
  their numbers.
* `Represents`: a mantissa with its two bits; `Represents.abs_sub_le`: rounding it moves by half a
  digit at most, `Represents.even_of_tie`: and halfway between two numbers to the even one.
* `rounds_round`: an unpacked number is rounded to the nearest one of the grid.
* `rounds_add`, `rounds_sub`: sums and differences.
-/

namespace InstrumentResponse.Double

open Float.Model (UnpackedFloat totalExponent)
open Float.Model.Format (binary64)
open Float.Model.UnpackedFloat (Sign ExtendedMantissa shiftToExponent shiftToTargetExponent
  roundWithAccuracy decreaseExponent)

/-! ## Unpacked doubles -/

/-- The number that an unpacked double stands for, 0 if it is not finite. -/
def numberOf : UnpackedFloat → ℚ
  | .finite s m e _ => s.apply m * 2 ^ e
  | .zero _ | .infinity _ | .notANumber => 0

/-- The mantissa has 53 digits, or less where the exponent is the least one. -/
def Canonical : UnpackedFloat → Prop
  | .finite _ m e _ => m < 2 ^ 53 ∧ -1074 ≤ e ∧ (2 ^ 52 ≤ m ∨ e = -1074)
  | .zero _ | .infinity _ | .notANumber => True

theorem apply_neg (s : Sign) (n : ℤ) : (-s).apply n = -s.apply n := by
  cases s with
  | negative => exact (neg_neg n).symm
  | positive => rfl

theorem abs_apply (s : Sign) (n : ℤ) : |s.apply n| = |n| := by
  cases s with
  | negative => exact abs_neg n
  | positive => rfl

theorem numberOf_neg (u : UnpackedFloat) : numberOf u.neg = -numberOf u := by
  cases u with
  | finite s m e hm =>
    show ((-s).apply m : ℚ) * 2 ^ e = -(s.apply m * 2 ^ e)
    rw [apply_neg]
    push_cast
    ring
  | _ => exact neg_zero.symm

theorem canonical_neg {u : UnpackedFloat} (h : Canonical u) : Canonical u.neg := by
  cases u with
  | finite s m e hm => exact h
  | _ => trivial

theorem Canonical.onGrid {u : UnpackedFloat} (h : Canonical u) : OnGrid (numberOf u) := by
  cases u with
  | finite s m e hm =>
    obtain ⟨hDigits, hExponent, -⟩ := h
    refine ⟨s.apply m, e, ?_, hExponent, rfl⟩
    rw [abs_apply, abs_of_nonneg (Int.natCast_nonneg m)]
    exact_mod_cast hDigits
  | _ => exact onGrid_zero

/-! ## Lost digits -/

/-- A mantissa with its two bits represents a number: the mantissa is its whole part, the first bit
tells whether the rest is half or more, the other one whether there is anything behind that. -/
def Represents (em : ExtendedMantissa) (q : ℚ) : Prop :=
  match em.roundBit, em.stickyBit with
  | false, false => q = em.mantissa
  | false, true => em.mantissa < q ∧ q < em.mantissa + 1 / 2
  | true, false => q = em.mantissa + 1 / 2
  | true, true => em.mantissa + 1 / 2 < q ∧ q < em.mantissa + 1

namespace Represents

variable {em : ExtendedMantissa} {q : ℚ}

theorem ofNat (m : Nat) : Represents (.ofMantissaAndAccuracy m .exact) m := rfl

theorem shiftRightOne (h : Represents em q) : Represents em.shiftRightOne (q / 2) := by
  obtain ⟨m, roundBit, stickyBit⟩ := em
  have hHalves : (m : ℚ) = 2 * (m / 2 : Nat) + (m % 2 : Nat) := by
    exact_mod_cast (Nat.div_add_mod m 2).symm
  obtain hEven | hOdd := Nat.mod_two_eq_zero_or_one m
  · have hBit : (m % 2 != 0) = false := by rw [hEven]; rfl
    rw [hEven, Nat.cast_zero, add_zero] at hHalves
    cases roundBit <;> cases stickyBit <;>
      simp only [Represents, ExtendedMantissa.shiftRightOne, hBit, hHalves, Bool.or_false,
        Bool.or_true] at h ⊢
    · linarith only [h]
    · constructor <;> linarith only [h]
    · constructor <;> linarith only [h]
    · constructor <;> linarith only [h]
  · have hBit : (m % 2 != 0) = true := by rw [hOdd]; rfl
    rw [hOdd, Nat.cast_one] at hHalves
    cases roundBit <;> cases stickyBit <;>
      simp only [Represents, ExtendedMantissa.shiftRightOne, hBit, hHalves, Bool.or_false,
        Bool.or_true] at h ⊢
    · linarith only [h]
    · constructor <;> linarith only [h]
    · constructor <;> linarith only [h]
    · constructor <;> linarith only [h]

theorem shiftRight (h : Represents em q) (n : Nat) : Represents (em >>> n) (q / 2 ^ n) := by
  induction n with
  | zero => rwa [pow_zero, div_one]
  | succ n ih =>
    rw [pow_succ, ← div_div]
    exact ih.shiftRightOne

/-- The mantissa is the whole part of what is represented. -/
theorem floor_eq (h : Represents em q) : ⌊q⌋₊ = em.mantissa := by
  have hBounds : (em.mantissa : ℚ) ≤ q ∧ q < em.mantissa + 1 := by
    obtain ⟨m, roundBit, stickyBit⟩ := em
    cases roundBit <;> cases stickyBit <;> simp only [Represents] at h ⊢ <;>
      constructor <;> linarith only [h]
  exact (Nat.floor_eq_iff ((Nat.cast_nonneg _).trans hBounds.1)).mpr hBounds

theorem mantissa_eq {n : Nat} (h : Represents em n) : em.mantissa = n := by
  rw [← h.floor_eq, Nat.floor_natCast]

/-- The rounded mantissa is a whole number nearest to what is represented. -/
theorem abs_sub_le (h : Represents em q) : |em.roundedMantissa - q| ≤ 1 / 2 := by
  obtain ⟨m, roundBit, stickyBit⟩ := em
  rw [abs_le]
  cases roundBit <;> cases stickyBit
  · obtain rfl : q = m := h
    have hSame : (ExtendedMantissa.roundedMantissa ⟨m, false, false⟩) = m := rfl
    rw [hSame]
    constructor <;> linarith only
  · obtain ⟨hAbove, hBelow⟩ : (m : ℚ) < q ∧ q < m + 1 / 2 := h
    have hDown : (ExtendedMantissa.roundedMantissa ⟨m, false, true⟩) = m := rfl
    rw [hDown]
    constructor <;> linarith only [hAbove, hBelow]
  · obtain rfl : q = m + 1 / 2 := h
    have hTie : (ExtendedMantissa.roundedMantissa ⟨m, true, false⟩) = m + m % 2 := rfl
    rw [hTie]
    obtain hEven | hOdd := Nat.mod_two_eq_zero_or_one m
    · rw [hEven]
      constructor <;> push_cast <;> linarith only
    · rw [hOdd]
      constructor <;> push_cast <;> linarith only
  · obtain ⟨hAbove, hBelow⟩ : (m : ℚ) + 1 / 2 < q ∧ q < m + 1 := h
    have hUp : (ExtendedMantissa.roundedMantissa ⟨m, true, true⟩) = m + 1 := rfl
    rw [hUp]
    constructor <;> push_cast <;> linarith only [hAbove, hBelow]

/-- Halfway between two whole numbers it is the even one. -/
theorem even_of_tie (h : Represents em q) (hTie : |em.roundedMantissa - q| = 1 / 2) :
    Even em.roundedMantissa := by
  obtain ⟨m, roundBit, stickyBit⟩ := em
  cases roundBit <;> cases stickyBit
  · obtain rfl : q = m := h
    have hSame : (ExtendedMantissa.roundedMantissa ⟨m, false, false⟩) = m := rfl
    rw [hSame, sub_self, abs_zero] at hTie
    norm_num at hTie
  · obtain ⟨hAbove, hBelow⟩ : (m : ℚ) < q ∧ q < m + 1 / 2 := h
    have hDown : (ExtendedMantissa.roundedMantissa ⟨m, false, true⟩) = m := rfl
    rw [hDown, abs_of_neg (sub_neg.mpr hAbove)] at hTie
    linarith only [hTie, hBelow]
  · have hEven : (ExtendedMantissa.roundedMantissa ⟨m, true, false⟩) = m + m % 2 := rfl
    rw [hEven, Nat.even_iff]
    omega
  · obtain ⟨hAbove, hBelow⟩ : (m : ℚ) + 1 / 2 < q ∧ q < m + 1 := h
    have hUp : (ExtendedMantissa.roundedMantissa ⟨m, true, true⟩) = m + 1 := rfl
    rw [hUp, Nat.cast_add_one, abs_of_pos (sub_pos.mpr hBelow)] at hTie
    linarith only [hTie, hAbove]

end Represents

/-! ## Rounding -/

section Round

variable {m : Nat} {e t : ℤ} {q : ℚ}

/-- The exponent that a positive number is rounded at: its last digit there is the 53rd one, unless
the exponent is the least one. -/
structure IsTarget (q : ℚ) (t : ℤ) : Prop where
  least : -1074 ≤ t
  lt : q < 2 ^ (53 + t)
  le : t = -1074 ∨ 2 ^ (52 + t) ≤ q

theorem targetExponent_eq (m : Nat) (e : ℤ) :
    binary64.targetExponent (totalExponent m e) = max (m.log2 + 1 + e - 53) (-1074) := rfl

theorem isTarget_targetExponent (hm : 0 < m) (e : ℤ) :
    IsTarget (m * 2 ^ e) (binary64.targetExponent (totalExponent m e)) := by
  have hPos : (0 : ℚ) < 2 ^ e := by positivity
  have hLeast : (2 : ℚ) ^ (m.log2 : ℤ) ≤ m := by
    rw [zpow_natCast]
    exact_mod_cast Nat.log2_self_le hm.ne'
  have hMost : (m : ℚ) < 2 ^ ((m.log2 : ℤ) + 1) := by
    have hPow : m < 2 ^ (m.log2 + 1) := Nat.lt_log2_self
    exact_mod_cast hPow
  rw [targetExponent_eq]
  refine ⟨le_max_right _ _, ?_, ?_⟩
  · calc (m : ℚ) * 2 ^ e < 2 ^ ((m.log2 : ℤ) + 1) * 2 ^ e := by gcongr
      _ = 2 ^ (m.log2 + 1 + e) := (zpow_add₀ two_ne_zero _ _).symm
      _ ≤ 2 ^ (53 + max (m.log2 + 1 + e - 53) (-1074)) :=
          zpow_le_zpow_right₀ one_le_two (by omega)
  · by_cases hNormal : m.log2 + 1 + e - 53 ≤ -1074
    · exact .inl (max_eq_right hNormal)
    · refine .inr ?_
      calc (2 : ℚ) ^ (52 + max (m.log2 + 1 + e - 53) (-1074)) = 2 ^ (m.log2 + e) := by
            congr 1
            omega
        _ = 2 ^ (m.log2 : ℤ) * 2 ^ e := zpow_add₀ two_ne_zero _ _
        _ ≤ m * 2 ^ e := by gcongr

theorem IsTarget.le_of_lt {t' : ℤ} (h : IsTarget q t) (ht' : -1074 ≤ t') (hq : q < 2 ^ (53 + t')) :
    t ≤ t' := by
  obtain rfl | hAbove := h.le
  · exact ht'
  · have hPowers : 52 + t < 53 + t' := (zpow_lt_zpow_iff_right₀ one_lt_two).mp (hAbove.trans_lt hq)
    omega

/-- There is one exponent to round a number at. -/
theorem IsTarget.unique {t' : ℤ} (h : IsTarget q t) (h' : IsTarget q t') : t = t' :=
  le_antisymm (h.le_of_lt h'.least h'.lt) (h'.le_of_lt h.least h.lt)

/-- No whole number of last digits is closer than the nearest one, and the next one only where both
are half a digit away. -/
theorem abs_mul_zpow_sub_le {n k : ℤ} (hn : |n - q / 2 ^ t| ≤ 1 / 2) (hOther : k ≠ n) :
    |n * 2 ^ t - q| ≤ |k * 2 ^ t - q| ∧
      (|k * 2 ^ t - q| = |n * 2 ^ t - q| → |n - q / 2 ^ t| = 1 / 2 ∧ |k - n| = 1) := by
  have hPos : (0 : ℚ) < 2 ^ t := by positivity
  have hScale : ∀ j : ℤ, |j * 2 ^ t - q| = |j - q / 2 ^ t| * 2 ^ t := by
    intro j
    rw [← abs_of_pos hPos, ← abs_mul, abs_of_pos hPos, sub_mul, div_mul_cancel₀ _ hPos.ne']
  have hSteps : 1 ≤ |k - n| := Int.one_le_abs (sub_ne_zero.mpr hOther)
  have hApart : (1 : ℚ) ≤ |(k : ℚ) - n| := by exact_mod_cast hSteps
  have hTriangle := abs_sub_le (k : ℚ) (q / 2 ^ t) n
  rw [abs_sub_comm (q / 2 ^ t)] at hTriangle
  rw [hScale, hScale]
  constructor
  · refine mul_le_mul_of_nonneg_right ?_ hPos.le
    linarith only [hApart, hTriangle, hn]
  · intro hTie
    have hSame := mul_right_cancel₀ hPos.ne' hTie
    refine ⟨by linarith only [hApart, hTriangle, hn, hSame], ?_⟩
    have hMost : |(k : ℚ) - n| ≤ 1 := by linarith only [hTriangle, hn, hSame]
    exact le_antisymm (by exact_mod_cast hMost) hSteps

/-- A number of the grid is a whole number of last digits, or farther than one that is. -/
theorem IsTarget.exists_multiple_or_lt {s : ℚ} (h : IsTarget q t) (hs : OnGrid s) :
    (∃ k : ℤ, s = k * 2 ^ t) ∨ |2 ^ (52 + t) - q| < |s - q| := by
  obtain hLeast | hNormal := h.le
  · subst hLeast
    exact .inl hs.exists_multiple_least
  · by_cases hSize : 2 ^ (52 + t) ≤ |s|
    · exact .inl (hs.exists_multiple hSize)
    · -- such a number is below the power of two that `q` is above
      have hBelow : s < 2 ^ (52 + t) := (le_abs_self s).trans_lt (not_le.mp hSize)
      rw [abs_of_nonpos (sub_nonpos.mpr hNormal),
        abs_of_nonpos (by linarith only [hBelow, hNormal] : s - q ≤ 0)]
      exact .inr (by linarith only [hBelow])

/-- The whole number of last digits that is nearest makes the number of the grid that is nearest. -/
theorem IsTarget.nearest {n : ℤ} (h : IsTarget q t) (hn : |n - q / 2 ^ t| ≤ 1 / 2)
    (hEven : |n - q / 2 ^ t| = 1 / 2 → Even n) (hDigits : |n| ≤ 2 ^ 53) :
    Nearest q (n * 2 ^ t) := by
  have hWhole : ∀ k : ℤ, |n * 2 ^ t - q| ≤ |k * 2 ^ t - q| := by
    intro k
    obtain rfl | hOther := eq_or_ne k n
    · exact le_refl _
    · exact (abs_mul_zpow_sub_le hn hOther).1
  have hPower : |n * 2 ^ t - q| ≤ |2 ^ (52 + t) - q| := by
    have hAt := hWhole (2 ^ 52)
    rwa [Int.cast_pow, Int.cast_ofNat, ← zpow_natCast, ← zpow_add₀ two_ne_zero] at hAt
  refine ⟨onGrid_mul_zpow hDigits h.least, fun s hs => ?_, fun s hs hDiffers hTie => ?_⟩
  · obtain ⟨k, rfl⟩ | hFar := h.exists_multiple_or_lt hs
    · exact hWhole k
    · exact hPower.trans hFar.le
  · obtain ⟨k, rfl⟩ | hFar := h.exists_multiple_or_lt hs
    · have hOther : k ≠ n := fun hSame => hDiffers (by rw [hSame])
      obtain ⟨hHalf, hNext⟩ := (abs_mul_zpow_sub_le hn hOther).2 hTie
      obtain ⟨half, rfl⟩ := hEven hHalf
      obtain hUp | hDown := eq_or_eq_neg_of_abs_eq hNext
      · obtain rfl : k = half + half + 1 := by omega
        refine ⟨half, ?_⟩
        push_cast
        ring
      · obtain rfl : k = half + half - 1 := by omega
        refine ⟨-half, ?_⟩
        push_cast
        ring
    · exact absurd hTie (hPower.trans_lt hFar).ne'

/-- A shift to the target exponent. -/
theorem exists_shiftToTargetExponent (hm : 0 < m) (ht : IsTarget (m * 2 ^ e) t) (he : e ≤ t) :
    ∃ em, shiftToTargetExponent binary64 m e .exact = (em, t) ∧
      Represents em (m * 2 ^ e / 2 ^ t) := by
  obtain ⟨n, rfl⟩ : ∃ n : Nat, t = e + n := ⟨(t - e).toNat, by omega⟩
  have hTarget : binary64.targetExponent (totalExponent m e) = e + n :=
    (isTarget_targetExponent hm e).unique ht
  have hShift : (e + n - e).toNat = n := by omega
  refine ⟨ExtendedMantissa.ofMantissaAndAccuracy m .exact >>> n, ?_, ?_⟩
  · rw [shiftToTargetExponent, hTarget]
    dsimp only [shiftToExponent]
    rw [hShift]
  · have hScaled : (m : ℚ) * 2 ^ e / 2 ^ (e + n) = m / 2 ^ n := by
      rw [zpow_add₀ two_ne_zero, zpow_natCast]
      field_simp
    rw [hScaled]
    exact (Represents.ofNat m).shiftRight n

/-- An exact number is rounded to a finite double. -/
structure Rounds (q : ℚ) (u : UnpackedFloat) : Prop where
  isFinite : u.isFinite = true
  canonical : Canonical u
  nearest : Nearest q (numberOf u)

/-- A number that has its last digit at the target exponent is canonical there. -/
theorem IsTarget.canonical {s : Sign} (hm : 0 < m) (h : IsTarget (m * 2 ^ t) t) :
    Canonical (.finite s m t hm) := by
  have hPos : (0 : ℚ) < 2 ^ t := by positivity
  refine ⟨?_, h.least, ?_⟩
  · have hLt := h.lt
    rw [zpow_add₀ two_ne_zero, mul_lt_mul_iff_left₀ hPos] at hLt
    exact_mod_cast hLt
  · refine h.le.symm.imp_left fun hLe => ?_
    rw [zpow_add₀ two_ne_zero, mul_le_mul_iff_left₀ hPos] at hLe
    exact_mod_cast hLe

/-- Digits that fit are shifted without loss: only `2 ^ 53` has one digit too many, a zero. -/
theorem exists_digits {t' : ℤ} (hDigits : m ≤ 2 ^ 53) (hLeast : -1074 ≤ t) (hLe : t ≤ t')
    (ht' : IsTarget (m * 2 ^ t) t') : ∃ n : Nat, (n : ℚ) * 2 ^ t' = m * 2 ^ t := by
  have hPos : (0 : ℚ) < 2 ^ t := by positivity
  obtain rfl | hLess := eq_or_lt_of_le hLe
  · exact ⟨m, rfl⟩
  · have hAbove : (2 : ℚ) ^ (52 + t') ≤ m * 2 ^ t := ht'.le.resolve_left (by omega)
    have hBelow : (m : ℚ) * 2 ^ t ≤ 2 ^ (53 + t) := by
      rw [zpow_add₀ two_ne_zero, mul_le_mul_iff_left₀ hPos]
      exact_mod_cast hDigits
    have hPowers : 52 + t' ≤ 53 + t :=
      (zpow_le_zpow_iff_right₀ one_lt_two).mp (hAbove.trans hBelow)
    obtain rfl : t' = t + 1 := by omega
    refine ⟨2 ^ 52, ?_⟩
    have hMost : (2 : ℚ) ^ (53 + t) ≤ m * 2 ^ t := by
      rwa [← add_assoc, add_right_comm] at hAbove
    rw [le_antisymm hBelow hMost, zpow_add_one₀ two_ne_zero, zpow_add₀ two_ne_zero]
    norm_num
    ring

theorem exists_shift_digits (hm : 0 < m) (hDigits : m ≤ 2 ^ 53) (hLeast : -1074 ≤ t)
    (hNormal : t = -1074 ∨ 2 ^ 52 ≤ m) :
    ∃ em t', shiftToTargetExponent binary64 m t .exact = (em, t') ∧
      (em.mantissa : ℚ) * 2 ^ t' = m * 2 ^ t ∧ IsTarget (em.mantissa * 2 ^ t') t' := by
  have hTarget := isTarget_targetExponent hm t
  have hLe : t ≤ binary64.targetExponent (totalExponent m t) := by
    obtain rfl | hNormal := hNormal
    · exact hTarget.least
    · have hAbove : (2 : ℚ) ^ (52 + t) ≤ m * 2 ^ t := by
        rw [zpow_add₀ two_ne_zero]
        have hMantissa : (2 : ℚ) ^ (52 : ℤ) ≤ m := by exact_mod_cast hNormal
        gcongr
      have hPowers := (zpow_lt_zpow_iff_right₀ one_lt_two).mp (hAbove.trans_lt hTarget.lt)
      omega
  obtain ⟨em, hShift, hEm⟩ := exists_shiftToTargetExponent hm hTarget hLe
  obtain ⟨n, hn⟩ := exists_digits hDigits hLeast hLe hTarget
  rw [← hn, mul_div_cancel_right₀ _ (by positivity)] at hEm
  rw [← hn] at hTarget
  exact ⟨em, _, hShift, by rw [hEm.mantissa_eq, hn], by rwa [hEm.mantissa_eq]⟩

theorem Nearest.apply (s : Sign) {n : Nat} {x y : ℚ} (h : Nearest (m * x) (n * y)) :
    Nearest (s.apply m * x) (s.apply n * y) := by
  cases s with
  | positive => exact h
  | negative =>
    have hNeg := h.neg
    rw [← neg_mul, ← neg_mul] at hNeg
    show Nearest ((-m : ℤ) * x) ((-n : ℤ) * y)
    push_cast
    exact hNeg

/-- A number whose digits reach the target exponent is rounded there, and once more if that carries
into one more digit. -/
theorem rounds_roundWithAccuracy (s : Sign) (hm : 0 < m) (ht : IsTarget (m * 2 ^ e) t)
    (he : e ≤ t) : Rounds (s.apply m * 2 ^ e) (roundWithAccuracy binary64 s m e .exact) := by
  have hPos : (0 : ℚ) < 2 ^ t := by positivity
  obtain ⟨em, hShift, hEm⟩ := exists_shiftToTargetExponent hm ht he
  obtain ⟨hLow, hHigh⟩ := abs_le.mp hEm.abs_sub_le
  have hDigits : em.roundedMantissa ≤ 2 ^ 53 := by
    have hScaled : (m : ℚ) * 2 ^ e / 2 ^ t < 2 ^ 53 := by
      rw [div_lt_iff₀ hPos]
      refine ht.lt.trans_eq ?_
      rw [zpow_add₀ two_ne_zero]
      norm_num
    have hMost : (em.roundedMantissa : ℚ) < 2 ^ 53 + 1 := by linarith only [hScaled, hHigh]
    have hWhole : em.roundedMantissa < 2 ^ 53 + 1 := by exact_mod_cast hMost
    omega
  have hNormal : t = -1074 ∨ 2 ^ 52 ≤ em.roundedMantissa := by
    refine ht.le.imp_right fun hAbove => ?_
    have hScaled : (2 : ℚ) ^ 52 ≤ m * 2 ^ e / 2 ^ t := by
      rw [le_div_iff₀ hPos]
      refine (le_of_eq ?_).trans hAbove
      rw [zpow_add₀ two_ne_zero]
      norm_num
    have hLeast : (2 : ℚ) ^ 52 < em.roundedMantissa + 1 := by linarith only [hScaled, hLow]
    have hWhole : 2 ^ 52 < em.roundedMantissa + 1 := by exact_mod_cast hLeast
    omega
  have hNearest : Nearest (s.apply m * 2 ^ e) (s.apply em.roundedMantissa * 2 ^ t) := by
    refine Nearest.apply s (ht.nearest (n := em.roundedMantissa) ?_ ?_ ?_)
    · exact_mod_cast hEm.abs_sub_le
    · intro hTie
      exact_mod_cast hEm.even_of_tie (by exact_mod_cast hTie)
    · rw [abs_of_nonneg (Int.natCast_nonneg _)]
      exact_mod_cast hDigits
  rw [roundWithAccuracy, hShift]
  dsimp only
  generalize em.roundedMantissa = r at *
  obtain rfl | hr := Nat.eq_zero_or_pos r
  · have hZero : (shiftToTargetExponent binary64 0 t .exact).1.mantissa = 0 := by
      have hNothing := (Represents.ofNat 0).shiftRight
        (binary64.targetExponent (totalExponent 0 t) - t).toNat
      rw [Nat.cast_zero, zero_div, ← Nat.cast_zero] at hNothing
      exact hNothing.mantissa_eq
    rw [dif_pos hZero]
    refine ⟨rfl, trivial, ?_⟩
    cases s <;> simpa [Sign.apply, numberOf] using hNearest
  · obtain ⟨em', t', hShift', hSame, hTarget⟩ := exists_shift_digits hr hDigits ht.least hNormal
    have hPos' : 0 < em'.mantissa := by
      have hProduct : (0 : ℚ) < em'.mantissa * 2 ^ t' := by
        rw [hSame]
        positivity
      exact Nat.cast_pos.mp (pos_of_mul_pos_left hProduct (by positivity))
    rw [hShift']
    dsimp only
    rw [dif_neg hPos'.ne']
    refine ⟨rfl, hTarget.canonical hPos', ?_⟩
    have hNumber : (s.apply em'.mantissa : ℚ) * 2 ^ t' = s.apply r * 2 ^ t := by
      cases s <;> simp [Sign.apply, hSame]
    rwa [numberOf, hNumber]

/-- More digits behind the last one are zeros. -/
theorem exists_decreaseExponent (m : Nat) (e t : ℤ) :
    ∃ k : Nat, decreaseExponent m e t = (m * 2 ^ k, e - k) ∧ e - k = min e t := by
  refine ⟨(e - t).toNat, ?_, by omega⟩
  rw [decreaseExponent, Nat.shiftLeft_eq]

theorem mul_two_pow_mul_zpow (m k : Nat) (e : ℤ) :
    ((m * 2 ^ k : Nat) : ℚ) * 2 ^ (e - k) = m * 2 ^ e := by
  rw [zpow_sub₀ two_ne_zero, zpow_natCast]
  push_cast
  field_simp

theorem apply_mul_two_pow (s : Sign) (m k : Nat) (e : ℤ) :
    (s.apply (m * 2 ^ k : Nat) : ℚ) * 2 ^ (e - k) = s.apply m * 2 ^ e := by
  have hSame := mul_two_pow_mul_zpow m k e
  cases s with
  | positive => exact hSame
  | negative =>
    show ((-(m * 2 ^ k : Nat) : ℤ) : ℚ) * 2 ^ (e - k) = (-m : ℤ) * 2 ^ e
    rw [Int.cast_neg, Int.cast_neg, neg_mul, neg_mul, neg_inj]
    exact hSame

theorem rounds_round (s : Sign) (hm : 0 < m) (e : ℤ) :
    Rounds (s.apply m * 2 ^ e) (UnpackedFloat.round binary64 s m e) := by
  have hTarget := isTarget_targetExponent hm e
  obtain ⟨k, hDecreased, hExponent⟩ :=
    exists_decreaseExponent m e (binary64.targetExponent (totalExponent m e))
  rw [← mul_two_pow_mul_zpow m k] at hTarget
  rw [UnpackedFloat.round, hDecreased, ← apply_mul_two_pow s m k]
  exact rounds_roundWithAccuracy s (by positivity) hTarget (by omega)

theorem rounds_zero (s : Sign) : Rounds 0 (.zero s) := ⟨rfl, trivial, onGrid_zero.nearest_self⟩

theorem rounds_normalize (n e : ℤ) (zeroSign : Sign) :
    Rounds (n * 2 ^ e) (UnpackedFloat.normalize binary64 n e zeroSign) := by
  unfold UnpackedFloat.normalize
  split
  · next h =>
    have hNegative : n < 0 := compare_lt_iff_lt.mp h
    have hRounds := rounds_round .negative (by omega : 0 < (-n).toNat) e
    have hSame : Sign.apply .negative (-n).toNat = n := by
      show -((-n).toNat : ℤ) = n
      omega
    rwa [hSame] at hRounds
  · next h =>
    obtain rfl : n = 0 := compare_eq_iff_eq.mp h
    rw [Int.cast_zero, zero_mul]
    exact rounds_zero zeroSign
  · next h =>
    have hPositive : 0 < n := compare_gt_iff_gt.mp h
    have hRounds := rounds_round .positive (by omega : 0 < n.toNat) e
    have hSame : Sign.apply .positive n.toNat = n := by
      show (n.toNat : ℤ) = n
      omega
    rwa [hSame] at hRounds

end Round

/-! ## Sums and differences -/

section Sum

variable {u v : UnpackedFloat}

theorem rounds_self (hFinite : u.isFinite = true) (h : Canonical u) : Rounds (numberOf u) u :=
  ⟨hFinite, h, h.onGrid.nearest_self⟩

theorem rounds_add (hu : u.isFinite = true) (hv : v.isFinite = true) (hcu : Canonical u)
    (hcv : Canonical v) : Rounds (numberOf u + numberOf v) (UnpackedFloat.add binary64 u v) := by
  cases u with
  | infinity s => cases hu
  | notANumber => cases hu
  | zero s =>
    rw [numberOf, zero_add]
    cases v with
    | infinity s' => cases hv
    | notANumber => cases hv
    | zero s' =>
      rw [numberOf, UnpackedFloat.add]
      split
      · exact rounds_zero _
      · exact rounds_zero _
    | finite s' m e hm => exact rounds_self hv hcv
  | finite s m e hm =>
    cases v with
    | infinity s' => cases hv
    | notANumber => cases hv
    | zero s' =>
      rw [numberOf, numberOf, add_zero]
      exact rounds_self hu hcu
    | finite s' m' e' hm' =>
      obtain ⟨k, hFirst, hMin⟩ := exists_decreaseExponent m e (min e e')
      obtain ⟨k', hSecond, hMin'⟩ := exists_decreaseExponent m' e' (min e e')
      have hExponent : e - k = min e e' := by omega
      have hExponent' : e' - k' = min e e' := by omega
      have hSum : numberOf (.finite s m e hm) + numberOf (.finite s' m' e' hm') =
          (s.apply (m * 2 ^ k : Nat) + s'.apply (m' * 2 ^ k' : Nat) : ℤ) * 2 ^ min e e' := by
        rw [numberOf, numberOf, ← apply_mul_two_pow s m k, ← apply_mul_two_pow s' m' k',
          hExponent, hExponent']
        push_cast
        ring
      rw [hSum, UnpackedFloat.add]
      dsimp only
      rw [hFirst, hSecond]
      exact rounds_normalize _ _ _

theorem sub_eq_add (u v : UnpackedFloat) :
    UnpackedFloat.sub binary64 u v = UnpackedFloat.add binary64 u v.neg := by
  cases u <;> cases v <;> try rfl
  rename_i s m e hm s' m' e' hm'
  simp only [UnpackedFloat.sub, UnpackedFloat.add, UnpackedFloat.neg, apply_neg]
  rfl

theorem rounds_sub (hu : u.isFinite = true) (hv : v.isFinite = true) (hcu : Canonical u)
    (hcv : Canonical v) : Rounds (numberOf u - numberOf v) (UnpackedFloat.sub binary64 u v) := by
  have hFinite : v.neg.isFinite = true := by
    cases v <;> exact hv
  rw [sub_eq_add, sub_eq_add_neg, ← numberOf_neg]
  exact rounds_add hu hFinite hcu (canonical_neg hcv)

end Sum

/-! ## Comparisons -/

section Compare

variable {m m' : Nat} {e e' : ℤ} {u v : UnpackedFloat}

/-- Of two canonical doubles the one with the larger exponent is larger. -/
theorem Canonical.lt_of_exponent_lt {s s' : Sign} {hm : 0 < m} {hm' : 0 < m'}
    (h : Canonical (.finite s m e hm)) (h' : Canonical (.finite s' m' e' hm')) (he : e < e') :
    (m : ℚ) * 2 ^ e < m' * 2 ^ e' := by
  obtain ⟨hDigits, hLeast, -⟩ := h
  obtain ⟨-, -, hNormal⟩ := h'
  have hMantissa : (m : ℚ) < 2 ^ (53 : ℤ) := by exact_mod_cast hDigits
  have hMantissa' : (2 : ℚ) ^ (52 : ℤ) ≤ m' := by
    have hWhole : 2 ^ 52 ≤ m' := hNormal.resolve_right (by omega)
    exact_mod_cast hWhole
  calc (m : ℚ) * 2 ^ e < 2 ^ (53 : ℤ) * 2 ^ e := by gcongr
    _ = 2 ^ (53 + e) := (zpow_add₀ two_ne_zero _ _).symm
    _ ≤ 2 ^ (52 + e') := zpow_le_zpow_right₀ one_le_two (by omega)
    _ = 2 ^ (52 : ℤ) * 2 ^ e' := zpow_add₀ two_ne_zero _ _
    _ ≤ m' * 2 ^ e' := by gcongr

theorem Canonical.lt_iff {s s' : Sign} {hm : 0 < m} {hm' : 0 < m'}
    (h : Canonical (.finite s m e hm)) (h' : Canonical (.finite s' m' e' hm')) :
    (compare e e').then (compare m m') = .lt ↔ (m : ℚ) * 2 ^ e < m' * 2 ^ e' := by
  rw [Ordering.then_eq_lt, compare_lt_iff_lt, compare_lt_iff_lt, compare_eq_iff_eq]
  constructor
  · rintro (hLess | ⟨rfl, hLess⟩)
    · exact h.lt_of_exponent_lt h' hLess
    · have hMantissa : (m : ℚ) < m' := by exact_mod_cast hLess
      gcongr
  · intro hNumber
    obtain hLess | rfl | hMore := lt_trichotomy e e'
    · exact .inl hLess
    · refine .inr ⟨rfl, ?_⟩
      have hMantissa := (mul_lt_mul_iff_left₀ (by positivity)).mp hNumber
      exact_mod_cast hMantissa
    · exact absurd hNumber (h'.lt_of_exponent_lt h hMore).not_gt

theorem numberOf_positive (hm : 0 < m) (e : ℤ) :
    numberOf (.finite .positive m e hm) = m * 2 ^ e := rfl

theorem numberOf_negative (hm : 0 < m) (e : ℤ) :
    numberOf (.finite .negative m e hm) = -(m * 2 ^ e) := by
  show ((-m : ℤ) : ℚ) * 2 ^ e = _
  rw [Int.cast_neg, neg_mul]
  rfl

theorem numberOf_zero (s : Sign) : numberOf (.zero s) = 0 := rfl

/-- Finite doubles are compared like their numbers. -/
theorem numberOf_lt_iff (hu : u.isFinite = true) (hv : v.isFinite = true) (hcu : Canonical u)
    (hcv : Canonical v) : u.lt v = true ↔ numberOf u < numberOf v := by
  have hPos : ∀ {m : Nat}, 0 < m → ∀ e : ℤ, 0 < (m : ℚ) * 2 ^ e := fun hm e => by positivity
  rw [UnpackedFloat.lt, beq_iff_eq]
  rcases u with _ | _ | s | ⟨_ | _, m, e, hm⟩
  · cases hu
  · cases hu
  · rcases v with _ | _ | s' | ⟨_ | _, m', e', hm'⟩
    · cases hv
    · cases hv
    · exact iff_of_false nofun (lt_irrefl _)
    · rw [numberOf_zero, numberOf_negative]
      exact iff_of_false nofun (neg_neg_of_pos (hPos hm' e')).not_gt
    · rw [numberOf_zero, numberOf_positive]
      exact iff_of_true rfl (hPos hm' e')
  · rcases v with _ | _ | s' | ⟨_ | _, m', e', hm'⟩
    · cases hv
    · cases hv
    · rw [numberOf_zero, numberOf_negative]
      exact iff_of_true rfl (neg_neg_of_pos (hPos hm e))
    · rw [numberOf_negative, numberOf_negative, neg_lt_neg_iff, ← hcv.lt_iff hcu,
        UnpackedFloat.compare, Option.some_inj, Ordering.swap_eq_lt, Ordering.then_eq_gt,
        Ordering.then_eq_lt, compare_gt_iff_gt, compare_gt_iff_gt, compare_lt_iff_lt,
        compare_lt_iff_lt, compare_eq_iff_eq, compare_eq_iff_eq, eq_comm]
    · rw [numberOf_positive, numberOf_negative]
      exact iff_of_true rfl ((neg_neg_of_pos (hPos hm e)).trans (hPos hm' e'))
  · rcases v with _ | _ | s' | ⟨_ | _, m', e', hm'⟩
    · cases hv
    · cases hv
    · rw [numberOf_zero, numberOf_positive]
      exact iff_of_false nofun (hPos hm e).not_gt
    · rw [numberOf_negative, numberOf_positive]
      exact iff_of_false nofun ((neg_neg_of_pos (hPos hm' e')).trans (hPos hm e)).not_gt
    · rw [numberOf_positive, numberOf_positive, ← hcu.lt_iff hcv, UnpackedFloat.compare,
        Option.some_inj]

end Compare

end InstrumentResponse.Double
