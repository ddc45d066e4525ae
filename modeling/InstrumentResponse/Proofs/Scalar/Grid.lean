import Mathlib.Algebra.Order.Field.Power
import Mathlib.Algebra.Order.Round
import Mathlib.Data.Rat.Floor
import Mathlib.Tactic.Linarith
import Mathlib.Tactic.LinearCombination
import Mathlib.Tactic.Positivity
import Mathlib.Tactic.Ring

/-!
# The grid of doubles

A double has at most 53 binary digits, the last one of weight `2 ^ (-1074)` or more.  Without a
bound on their size these numbers form a grid that is finer near 0, and sums are rounded to the
nearest one of them, halfway between two to the even one.

* `OnGrid`: the numbers of the grid; `OnGrid.exists_multiple`, `OnGrid.le_of_lt_gap`: how far they are
  apart.
* `Nearest`: what a number is rounded to; `OnGrid.nearest_self`: numbers of the grid are kept.
* `Nearest.le_of_le`, `Nearest.le_of_ge`: rounding does not pass over a number of the grid;
  `Nearest.lt_of_gt`: next to an even one it does not reach half of the way to the next one.
* `Nearest.abs_sub_le_half`: how far a number is moved.
-/

namespace InstrumentResponse.Double

/-- A number of at most 53 binary digits. -/
def OnGrid (q : ℚ) : Prop := ∃ m e : ℤ, |m| < 2 ^ 53 ∧ -1074 ≤ e ∧ q = m * 2 ^ e

/-- A number of the grid, and none is closer to `q`.  It is the even one of two that are as close:
an even multiple of the distance between them. -/
structure Nearest (q r : ℚ) : Prop where
  onGrid : OnGrid r
  closest : ∀ s, OnGrid s → |r - q| ≤ |s - q|
  even : ∀ s, OnGrid s → s ≠ r → |s - q| = |r - q| → ∃ n : ℤ, r = n * (2 * (s - r))

variable {q r s : ℚ} {k : ℤ}

/-! ## Numbers of the grid -/

/-- A smaller last digit will do as well. -/
theorem exists_eq_mul_zpow {m e : ℤ} (h : k ≤ e) : ∃ n : ℤ, (m * 2 ^ e : ℚ) = n * 2 ^ k := by
  obtain ⟨j, rfl⟩ : ∃ j : Nat, e = j + k := ⟨(e - k).toNat, by omega⟩
  refine ⟨m * 2 ^ j, ?_⟩
  rw [zpow_add₀ two_ne_zero, zpow_natCast]
  push_cast
  ring

theorem onGrid_mul_zpow {n : ℤ} (hn : |n| ≤ 2 ^ 53) (hk : -1074 ≤ k) : OnGrid (n * 2 ^ k) := by
  obtain hLess | hMost := lt_or_eq_of_le hn
  · exact ⟨n, k, hLess, hk, rfl⟩
  · -- the largest mantissa has one digit too many, and is a power of two
    obtain ⟨half, rfl⟩ : ∃ half, n = 2 * half := by
      obtain rfl | rfl := eq_or_eq_neg_of_abs_eq hMost
      · exact ⟨2 ^ 52, by norm_num⟩
      · exact ⟨-2 ^ 52, by norm_num⟩
    refine ⟨half, k + 1, ?_, by omega, ?_⟩
    · rw [abs_mul, abs_two] at hMost
      omega
    · rw [zpow_add_one₀ two_ne_zero]
      push_cast
      ring

theorem onGrid_intCast {n : ℤ} (hn : |n| ≤ 2 ^ 53) : OnGrid n := by
  have hGrid := onGrid_mul_zpow hn (by norm_num : -1074 ≤ (0 : ℤ))
  rwa [zpow_zero, mul_one] at hGrid

theorem onGrid_two_zpow (hk : -1074 ≤ k) : OnGrid (2 ^ k) := by
  have hGrid := onGrid_mul_zpow (by norm_num : |(1 : ℤ)| ≤ 2 ^ 53) hk
  rwa [Int.cast_one, one_mul] at hGrid

theorem onGrid_zero : OnGrid 0 := onGrid_intCast (n := 0) (by norm_num)

theorem OnGrid.neg (h : OnGrid q) : OnGrid (-q) := by
  obtain ⟨m, e, hm, he, rfl⟩ := h
  refine ⟨-m, e, by rwa [abs_neg], he, ?_⟩
  push_cast
  ring

/-- All numbers of the grid are multiples of its last digit. -/
theorem OnGrid.exists_multiple_least (h : OnGrid q) : ∃ n : ℤ, q = n * 2 ^ (-1074 : ℤ) := by
  obtain ⟨m, e, -, he, rfl⟩ := h
  exact exists_eq_mul_zpow he

/-- From `2 ^ (52 + k)` on the numbers of the grid are multiples of `2 ^ k`. -/
theorem OnGrid.exists_multiple (h : OnGrid q) (hq : 2 ^ (52 + k) ≤ |q|) :
    ∃ n : ℤ, q = n * 2 ^ k := by
  obtain ⟨m, e, hm, -, rfl⟩ := h
  have hPos : (0 : ℚ) < 2 ^ e := by positivity
  have hDigits : |(m : ℚ)| < 2 ^ (53 : ℤ) := by exact_mod_cast hm
  have hBelow : (2 : ℚ) ^ (52 + k) < 2 ^ (53 + e) := by
    calc (2 : ℚ) ^ (52 + k) ≤ |(m : ℚ)| * 2 ^ e := by rwa [abs_mul, abs_of_pos hPos] at hq
      _ < 2 ^ (53 : ℤ) * 2 ^ e := by gcongr
      _ = 2 ^ (53 + e) := (zpow_add₀ two_ne_zero _ _).symm
  have hExponent : 52 + k < 53 + e := (zpow_lt_zpow_iff_right₀ one_lt_two).mp hBelow
  exact exists_eq_mul_zpow (by omega)

/-- Above `2 ^ (53 + k)` there is a gap of `2 ^ (k + 1)` in the grid. -/
theorem OnGrid.le_of_lt_gap (h : OnGrid q) (hq : q < 2 ^ (53 + k) + 2 ^ (k + 1)) :
    q ≤ 2 ^ (53 + k) := by
  by_contra hAbove
  rw [not_le] at hAbove
  have hPos : (0 : ℚ) < 2 ^ (k + 1) := by positivity
  have hBase : (2 : ℚ) ^ (53 + k) = 2 ^ (52 : ℤ) * 2 ^ (k + 1) := by
    rw [← zpow_add₀ two_ne_zero]
    congr 1
    omega
  obtain ⟨n, rfl⟩ : ∃ n : ℤ, q = n * 2 ^ (k + 1) := by
    refine h.exists_multiple ((le_of_eq ?_).trans (hAbove.le.trans (le_abs_self q)))
    congr 1
    omega
  rw [hBase] at hAbove hq
  have hMore : (2 : ℚ) ^ (52 : ℤ) < n := (mul_lt_mul_iff_left₀ hPos).mp hAbove
  have hLess : (n : ℚ) < 2 ^ (52 : ℤ) + 1 := by
    refine (mul_lt_mul_iff_left₀ hPos).mp ?_
    rwa [add_mul, one_mul]
  have hAt : (2 : ℤ) ^ 52 < n := by exact_mod_cast hMore
  have hTo : n < (2 : ℤ) ^ 52 + 1 := by exact_mod_cast hLess
  omega

/-- An odd multiple of a quarter of a digit is a quarter away from the grid. -/
theorem exists_onGrid_quarter {c i : ℤ} (hi : -1074 ≤ i)
    (hSize : |((2 * c + 1) * 2 ^ (i - 2) : ℚ)| < 2 ^ (53 + i)) :
    ∃ s, OnGrid s ∧ |s - (2 * c + 1) * 2 ^ (i - 2)| = 2 ^ (i - 2) := by
  have hPos : (0 : ℚ) < 2 ^ (i - 2) := by positivity
  have hDigit : (2 : ℚ) ^ i = 4 * 2 ^ (i - 2) := by
    rw [zpow_sub₀ two_ne_zero]
    ring
  obtain ⟨e, he⟩ : ∃ e, c = 2 * e ∨ c = 2 * e - 1 := ⟨(c + 1) / 2, by omega⟩
  have hDigits : |e| ≤ 2 ^ 53 := by
    rw [zpow_add₀ two_ne_zero, hDigit, abs_mul, abs_of_pos hPos, ← mul_assoc,
      mul_lt_mul_iff_left₀ hPos] at hSize
    have hWhole : |2 * c + 1| < 2 ^ 53 * 4 := by exact_mod_cast hSize
    rw [abs_lt] at hWhole
    rw [abs_le]
    omega
  refine ⟨e * 2 ^ i, onGrid_mul_zpow hDigits hi, ?_⟩
  rw [hDigit]
  obtain rfl | rfl := he
  · have hUp : e * (4 * 2 ^ (i - 2)) - (2 * (2 * e : ℤ) + 1) * 2 ^ (i - 2) = -(2 : ℚ) ^ (i - 2) := by
      push_cast
      ring
    rw [hUp, abs_neg, abs_of_pos hPos]
  · have hDown : e * (4 * 2 ^ (i - 2)) - (2 * (2 * e - 1 : ℤ) + 1) * 2 ^ (i - 2) =
        (2 : ℚ) ^ (i - 2) := by
      push_cast
      ring
    rw [hDown, abs_of_pos hPos]

/-! ## Rounding -/

theorem OnGrid.nearest_self (h : OnGrid q) : Nearest q q := by
  refine ⟨h, fun s _ => ?_, fun s _ hOther hSame => ?_⟩
  · rw [sub_self, abs_zero]
    exact abs_nonneg _
  · rw [sub_self, abs_zero, abs_eq_zero] at hSame
    exact absurd (sub_eq_zero.mp hSame) hOther

namespace Nearest

theorem neg (h : Nearest q r) : Nearest (-q) (-r) := by
  have hAbs : ∀ s, |s - -q| = |-s - q| := fun s => by rw [← abs_neg, neg_sub', neg_neg]
  refine ⟨h.onGrid.neg, fun s hs => ?_, fun s hs hOther hSame => ?_⟩
  · rw [hAbs, hAbs, neg_neg]
    exact h.closest (-s) hs.neg
  · rw [hAbs, hAbs, neg_neg] at hSame
    obtain ⟨n, hn⟩ := h.even (-s) hs.neg (fun hNeg => hOther (neg_eq_iff_eq_neg.mp hNeg)) hSame
    refine ⟨n, ?_⟩
    linear_combination -hn

theorem le_of_le (h : Nearest q r) (hs : OnGrid s) (hq : q ≤ s) : r ≤ s := by
  have hClosest := h.closest s hs
  rw [abs_of_nonneg (sub_nonneg.mpr hq)] at hClosest
  linarith only [le_abs_self (r - q), hClosest]

theorem le_of_ge (h : Nearest q r) (hs : OnGrid s) (hq : s ≤ q) : s ≤ r := by
  have hNeg := h.neg.le_of_le hs.neg (neg_le_neg hq)
  exact neg_le_neg_iff.mp hNeg

/-- Rounding does not reach a number that another one of the grid is closer than. -/
theorem lt_of_abs_sub_lt (h : Nearest q r) (hs : OnGrid s) {b : ℚ} (hb : |s - q| < b - q) :
    r < b := by
  linarith only [h.closest s hs, hb, le_abs_self (r - q)]

/-- Next to an even multiple of a digit, what is rounded up is above the half of that digit. -/
theorem lt_of_gt {u : ℚ} {m n : ℤ} (h : Nearest q r) (hu : 0 < u)
    (hEven : OnGrid (2 * m * u)) (hr : r = n * u) (hAbove : 2 * m * u < r) :
    2 * m * u + u / 2 < q := by
  have hNext : (2 * m + 1 : ℚ) * u ≤ r := by
    have hDigits : (2 * m : ℚ) < n := by
      rw [hr] at hAbove
      exact lt_of_mul_lt_mul_right hAbove hu.le
    have hWhole : 2 * m + 1 ≤ n := by exact_mod_cast hDigits
    rw [hr]
    refine mul_le_mul_of_nonneg_right ?_ hu.le
    exact_mod_cast hWhole
  have hTop := le_abs_self (r - q)
  have hClosest := h.closest _ hEven
  by_contra hNear
  rw [not_lt] at hNear
  by_cases hBelow : q ≤ 2 * m * u
  · rw [abs_of_nonneg (sub_nonneg.mpr hBelow)] at hClosest
    linarith only [hClosest, hTop, hAbove]
  · -- both neighbours are as close, and `r` is the odd one
    have hSign : |2 * m * u - q| = q - 2 * m * u := by
      rw [abs_of_nonpos (by linarith only [hBelow]), neg_sub]
    rw [hSign] at hClosest
    have hTie : r = (2 * m + 1) * u := by linarith only [hNext, hTop, hClosest, hNear]
    have hHalf : |2 * m * u - q| = |r - q| := by linarith only [hNext, hTop, hClosest, hNear, hSign]
    obtain ⟨k, hk⟩ := h.even _ hEven hAbove.ne hHalf
    have hParity : (2 * m + 1 : ℚ) = -2 * k := by
      refine mul_right_cancel₀ hu.ne' ?_
      linear_combination (-2 * k - 1) * hTie + hk
    have hWhole : 2 * m + 1 = -2 * k := by exact_mod_cast hParity
    omega

/-- Rounding does not pass over half of the gap above a power of two. -/
theorem le_two_zpow (h : Nearest q r) (hk : -1074 ≤ k) (hq : q < 2 ^ (53 + k) + 2 ^ k) :
    r ≤ 2 ^ (53 + k) := by
  have hPos : (0 : ℚ) < 2 ^ k := by positivity
  have hPower : OnGrid (2 ^ (53 + k)) := onGrid_two_zpow (by omega)
  refine h.onGrid.le_of_lt_gap (h.lt_of_abs_sub_lt hPower ?_)
  rw [zpow_add_one₀ two_ne_zero, abs_lt]
  constructor <;> linarith only [hq, hPos]

theorem abs_le_of_abs_le (h : Nearest q r) (hs : OnGrid s) (hq : |q| ≤ s) : |r| ≤ s := by
  obtain ⟨hLow, hHigh⟩ := abs_le.mp hq
  exact abs_le.mpr ⟨h.le_of_ge hs.neg hLow, h.le_of_le hs hHigh⟩

/-- Up to `2 ^ (53 + k)` a number is moved by half of `2 ^ k` at most. -/
theorem abs_sub_le_half (h : Nearest q r) (hk : -1074 ≤ k) (hq : |q| ≤ 2 ^ (53 + k)) :
    |r - q| ≤ 2 ^ k / 2 := by
  have hPos : (0 : ℚ) < 2 ^ k := by positivity
  have hRound : |q / 2 ^ k - round (q / 2 ^ k)| ≤ 1 / 2 := abs_sub_round (q / 2 ^ k)
  have hSize : |q / 2 ^ k| ≤ 2 ^ 53 := by
    rw [abs_div, abs_of_pos hPos, div_le_iff₀ hPos]
    refine hq.trans (le_of_eq ?_)
    rw [zpow_add₀ two_ne_zero]
    norm_num
  have hDigits : |round (q / 2 ^ k)| ≤ 2 ^ 53 := by
    have hMost : |(round (q / 2 ^ k) : ℚ)| < 2 ^ 53 + 1 := by
      have hTriangle := abs_sub_abs_le_abs_sub ((round (q / 2 ^ k) : ℚ)) (q / 2 ^ k)
      rw [abs_sub_comm] at hTriangle
      linarith only [hTriangle, hRound, hSize]
    have hWhole : |round (q / 2 ^ k)| < 2 ^ 53 + 1 := by exact_mod_cast hMost
    omega
  calc |r - q| ≤ |round (q / 2 ^ k) * 2 ^ k - q| := h.closest _ (onGrid_mul_zpow hDigits hk)
    _ = |q / 2 ^ k - round (q / 2 ^ k)| * 2 ^ k := by
        rw [← abs_of_pos hPos, ← abs_mul, abs_of_pos hPos, sub_mul, div_mul_cancel₀ _ hPos.ne',
          abs_sub_comm]
    _ ≤ 1 / 2 * 2 ^ k := by gcongr
    _ = 2 ^ k / 2 := by ring

end Nearest

end InstrumentResponse.Double
