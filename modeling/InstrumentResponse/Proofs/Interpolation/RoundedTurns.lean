import InstrumentResponse.Proofs.Interpolation.Unwinding
import InstrumentResponse.Proofs.Scalar.Double

/-!
# Turns of doubles

In doubles a turn is rounded, and so is the distance that a loop looks at.  Up to `2 ^ 62` a turn
still moves a value by more than 104 degrees.  Beyond, numbers are 1024 apart, and a turn leaves a
value where it is.

* `abs_sub_le_of_small`, `eq_of_large`: how far a turn leads, up to `2 ^ 62` and beyond.
* `abs_sub_lt_of_turn`: a turn leads closer to a number that is not too large.
* `Settled.lt_of_above`, `Settled.above_of_le`: when the loop down goes on; `Settled.lt_of_below`,
  `Settled.below_of_le`: when the loop up does.
* `Moderate.lower`, `Moderate.raise`: one pass.
* `closer_lower`, `closer_raise`: a pass leads closer to the value before.
-/

namespace InstrumentResponse.Phase

open Double
open Winding hiding value offset

/-! ## Numbers of the grid -/

section Grid

variable {q r v : ℚ}

/-- Up to `2 ^ 62` a number is moved by 256 at most. -/
theorem abs_sub_le_of_small (h : Nearest q r) (hq : |q| ≤ 2 ^ 62) : |r - q| ≤ 256 := by
  have hHalf := h.abs_sub_le_half (k := 9) (by norm_num) (by norm_num; exact hq)
  norm_num at hHalf
  exact hHalf

/-- A turn does not lead over `2 ^ 62`. -/
theorem le_limit (h : Nearest q r) (hq : q ≤ 2 ^ 62 + 360) : r ≤ 2 ^ 62 := by
  have hLe := h.le_two_zpow (k := 9) (by norm_num) (by norm_num; linarith only [hq])
  norm_num at hLe
  exact_mod_cast hLe

theorem abs_le_limit (h : Nearest q r) (hq : |q| ≤ 2 ^ 62 + 360) : |r| ≤ 2 ^ 62 := by
  obtain ⟨hLow, hHigh⟩ := abs_le.mp hq
  exact abs_le.mpr ⟨neg_le.mp (le_limit h.neg (neg_le.mp hLow)), le_limit h hHigh⟩

/-- Half a turn does not lead over `2 ^ 61`. -/
theorem le_half_limit (h : Nearest q r) (hq : q ≤ 2 ^ 61 + 181) : r ≤ 2 ^ 61 := by
  have hLe := h.le_two_zpow (k := 8) (by norm_num) (by norm_num; linarith only [hq])
  norm_num at hLe
  exact_mod_cast hLe

/-- Above `2 ^ 62` a turn down leads nowhere. -/
theorem eq_of_large (hv : OnGrid v) (hLarge : 2 ^ 62 < v) (h : Nearest (v - 360) r) : r = v := by
  have hMultiple : ∀ {s : ℚ}, OnGrid s → 2 ^ 62 ≤ s → ∃ n : ℤ, s = n * 1024 := by
    intro s hs hLe
    obtain ⟨n, hn⟩ := hs.exists_multiple (k := 10) (by norm_num; exact hLe.trans (le_abs_self s))
    exact ⟨n, by rw [hn]; norm_num⟩
  have hGap : 2 ^ 62 + 1024 ≤ v := by
    by_contra hNear
    have hBelow : v < 2 ^ (53 + 9 : ℤ) + 2 ^ (9 + 1 : ℤ) := by
      norm_num
      linarith only [not_le.mp hNear]
    have hLe := hv.le_of_lt_gap hBelow
    norm_num at hLe
    linarith only [hLe, hLarge]
  have hClosest := h.closest v hv
  rw [sub_sub_cancel, abs_of_pos (by norm_num : (0 : ℚ) < 360)] at hClosest
  obtain ⟨hLow, hHigh⟩ := abs_le.mp hClosest
  obtain ⟨m, rfl⟩ := hMultiple hv hLarge.le
  obtain ⟨n, rfl⟩ := hMultiple h.onGrid (by linarith only [hLow, hGap])
  have hSame : n = m := by
    have hFrom : ((m : ℤ) : ℚ) < (n + 1 : ℤ) := by push_cast; linarith only [hLow]
    have hTo : ((n : ℤ) : ℚ) < (m + 1 : ℤ) := by push_cast; linarith only [hHigh]
    have hFrom' := Int.cast_lt.mp hFrom
    have hTo' := Int.cast_lt.mp hTo
    omega
  rw [hSame]

/-- What is rounded to more than half a turn is more than half of the next digit above it. -/
theorem lt_of_nearest_above (h : Nearest q r) (hAbove : 180 < r) : 180 + 1 / 2 ^ 46 < q := by
  obtain ⟨n, hn⟩ : ∃ n : ℤ, r = n * 2 ^ (-45 : ℤ) := by
    refine h.onGrid.exists_multiple ?_
    norm_num
    linarith only [hAbove, le_abs_self r]
  have hHalf : (2 * (90 * 2 ^ 45 : ℤ) * 2 ^ (-45 : ℤ) : ℚ) = 180 := by norm_num
  have hGrid : OnGrid 180 := onGrid_intCast (n := 180) (by norm_num)
  rw [← hHalf] at hGrid hAbove
  have hFar := h.lt_of_gt (by positivity) hGrid hn hAbove
  rw [hHalf] at hFar
  norm_num at hFar ⊢
  exact hFar

/-- Where a turn leads to a number of the digit `2 ^ i`, all numbers around it are multiples of a
quarter of that digit, or of half of it. -/
theorem exists_quarters {b : ℚ} {i : ℤ} (hv : OnGrid v) (hb : OnGrid b) (hMost : i ≤ 3)
    (hLarge : 2 ^ 9 ≤ |v - 360|) (hLow : 2 ^ (52 + i) ≤ |v - 360|) (hFar : 180 < v - b)
    (hNear : v - b < 360) :
    ∃ m n half : ℤ, v = m * 2 ^ (i - 2) ∧ b = n * (2 * 2 ^ (i - 2)) ∧
      180 = half * (2 * (2 : ℚ) ^ (i - 2)) := by
  have hDouble : (2 : ℚ) ^ (i - 1) = 2 * 2 ^ (i - 2) := by
    rw [← zpow_one_add₀ two_ne_zero]
    congr 1
    omega
  obtain ⟨m, hm⟩ : ∃ m : ℤ, v = m * 2 ^ (i - 2) := by
    refine hv.exists_multiple ?_
    have hFourth : (2 : ℚ) ^ (52 + (i - 2)) = 2 ^ (52 + i) / 4 := by
      rw [← add_sub_assoc, zpow_sub₀ two_ne_zero]
      norm_num
    have hTurn := abs_sub v 360
    rw [abs_of_pos (by norm_num : (0 : ℚ) < 360)] at hTurn
    rw [hFourth]
    linarith only [hLow, hLarge, hTurn]
  obtain ⟨n, hn⟩ : ∃ n : ℤ, b = n * 2 ^ (i - 1) := by
    refine hb.exists_multiple ?_
    have hHalf : (2 : ℚ) ^ (52 + (i - 1)) = 2 ^ (52 + i) / 2 := by
      rw [← add_sub_assoc, zpow_sub₀ two_ne_zero]
      norm_num
    have hTurn := abs_sub_abs_le_abs_sub (v - 360) b
    have hTurned : |v - 360 - b| ≤ 180 := by
      rw [abs_le]
      constructor <;> linarith only [hFar, hNear]
    rw [hHalf]
    linarith only [hLow, hLarge, hTurn, hTurned]
  obtain ⟨half, hHalf⟩ : ∃ half : ℤ, ((45 : ℤ) * 2 ^ (2 : ℤ) : ℚ) = half * 2 ^ (i - 1) :=
    exists_eq_mul_zpow (by omega)
  rw [hDouble] at hn hHalf
  refine ⟨m, n, half, hm, hn, ?_⟩
  rw [← hHalf]
  norm_num

/-- If a value is above half a turn by no more than a quarter of the digit that a turn leads to,
then it is by a quarter, and a number of the grid is no farther. -/
theorem exists_onGrid_turn {b : ℚ} {i : ℤ} (hv : OnGrid v) (hb : OnGrid b) (hLeast : -1074 ≤ i)
    (hMost : i ≤ 3) (hLarge : 2 ^ 9 ≤ |v - 360|) (hLow : 2 ^ (52 + i) ≤ |v - 360|)
    (hHigh : |v - 360| < 2 ^ (53 + i)) (hFar : 180 < v - b) (hNear : v - b < 360)
    (hQuarter : v - b - 180 ≤ 2 ^ (i - 2)) :
    ∃ s, OnGrid s ∧ |s - (v - 360)| = v - b - 180 := by
  have hPos : (0 : ℚ) < 2 ^ (i - 2) := by positivity
  obtain ⟨m, n, half, hm, hn, hHalf⟩ := exists_quarters hv hb hMost hLarge hLow hFar hNear
  have hAbove : v - b - 180 = (m - 2 * n - 2 * half : ℤ) * 2 ^ (i - 2) := by
    rw [hm, hn, hHalf]
    push_cast
    ring
  have hOne : m - 2 * n - 2 * half = 1 := by
    have hSome : (0 : ℚ) < (m - 2 * n - 2 * half : ℤ) := by
      refine pos_of_mul_pos_left ?_ hPos.le
      rw [← hAbove]
      linarith only [hFar]
    have hNoMore : ((m - 2 * n - 2 * half : ℤ) : ℚ) ≤ 1 := by
      rw [hAbove] at hQuarter
      exact le_of_mul_le_mul_right (by rwa [one_mul]) hPos
    have hSome' : 0 < m - 2 * n - 2 * half := by exact_mod_cast hSome
    have hNoMore' : m - 2 * n - 2 * half ≤ 1 := by exact_mod_cast hNoMore
    omega
  have hTurned : v - 360 = (2 * (n - half : ℤ) + 1) * 2 ^ (i - 2) := by
    have hTurn : (360 : ℚ) = 2 * (half * (2 * 2 ^ (i - 2))) := by
      rw [← hHalf]
      norm_num
    have hDigits : m = 2 * (n + half) + 1 := by omega
    rw [hm, hTurn, hDigits]
    push_cast
    ring
  rw [hAbove, hOne, hTurned, Int.cast_one, one_mul]
  exact exists_onGrid_quarter hLeast (by rwa [← hTurned])

/-- Less than a turn above `b`, a turn down leads less far below it. -/
theorem lt_of_turn {b : ℚ} (hv : OnGrid v) (hb : OnGrid b) (hSmall : |b| ≤ 2 ^ 53)
    (hFar : 180 + 1 / 2 ^ 46 < v - b) (hNear : v - b < 360) (h : Nearest (v - 360) r) :
    2 * b - v < r := by
  by_contra hBelow
  have hMoved : 2 * (v - b - 180) ≤ |r - (v - 360)| := by
    linarith only [neg_le_abs (r - (v - 360)), hBelow]
  have hLarge : 2 ^ 9 < |v - 360| := by
    by_contra hLittle
    have hHalf := h.abs_sub_le_half (k := -44) (by norm_num) (by norm_num at hLittle ⊢; exact hLittle)
    norm_num at hHalf hFar
    linarith only [hHalf, hFar, hMoved]
  obtain ⟨j, hLow, hHigh⟩ := exists_mem_Ico_zpow (by linarith only [hLarge] : 0 < |v - 360|)
    (one_lt_two : (1 : ℚ) < 2)
  obtain ⟨i, rfl⟩ : ∃ i : ℤ, j = 52 + i := ⟨j - 52, by omega⟩
  have hHigh' : |v - 360| < 2 ^ (53 + i) := by
    refine hHigh.trans_eq ?_
    congr 1
    omega
  have hLeast : -1074 ≤ i := by
    have hPowers := (zpow_lt_zpow_iff_right₀ (one_lt_two : (1 : ℚ) < 2)).mp
      ((by norm_num; linarith only [hLarge] : (2 : ℚ) ^ (9 : ℤ) < |v - 360|).trans hHigh')
    omega
  have hMost : i ≤ 3 := by
    have hSum := abs_add_le (v - 360 - b) b
    have hTurned : |v - 360 - b| ≤ 180 := by
      rw [abs_le]
      constructor <;> linarith only [hFar, hNear]
    have hBound : |v - 360| < 2 ^ (55 : ℤ) := by
      rw [sub_add_cancel] at hSum
      norm_num at hSmall ⊢
      linarith only [hSum, hTurned, hSmall]
    have hPowers := (zpow_lt_zpow_iff_right₀ (one_lt_two : (1 : ℚ) < 2)).mp (hLow.trans_lt hBound)
    omega
  have hQuarter : v - b - 180 ≤ 2 ^ (i - 2) := by
    have hHalf := h.abs_sub_le_half hLeast hHigh'.le
    have hDigit : (2 : ℚ) ^ i = 4 * 2 ^ (i - 2) := by
      rw [zpow_sub₀ two_ne_zero]
      ring
    rw [hDigit] at hHalf
    linarith only [hHalf, hMoved]
  have hHalfTurn : 180 < v - b := lt_trans (by norm_num) hFar
  obtain ⟨s, hs, hAway⟩ := exists_onGrid_turn hv hb hLeast hMost hLarge.le hLow hHigh' hHalfTurn hNear
    hQuarter
  have hClosest := h.closest s hs
  rw [hAway] at hClosest
  linarith only [hClosest, hMoved, hHalfTurn]

/-- A turn down from more than half a turn above `b` leads closer to `b`, on whichever side. -/
theorem abs_sub_lt_of_turn {b : ℚ} (hv : OnGrid v) (hb : OnGrid b) (hSmall : |b| ≤ 2 ^ 53)
    (hMost : v ≤ 2 ^ 62) (hFar : 180 + 1 / 2 ^ 46 < v - b) (h : Nearest (v - 360) r) :
    |r - b| < |v - b| := by
  have hAbove : 0 < v - b := lt_trans (by norm_num) hFar
  have hMoved : |r - (v - 360)| ≤ 256 := by
    refine abs_sub_le_of_small h (abs_le.mpr ⟨?_, by linarith only [hMost]⟩)
    linarith only [(abs_le.mp hSmall).1, hAbove]
  rw [abs_of_pos hAbove, abs_lt]
  refine ⟨?_, by linarith only [(abs_le.mp hMoved).2]⟩
  by_cases hNear : v - b < 360
  · linarith only [lt_of_turn hv hb hSmall hFar hNear h]
  · have hStays : b ≤ r := h.le_of_ge hb (by linarith only [hNear])
    linarith only [hStays, hAbove]

end Grid

/-! ## Comparisons -/

theorem value_turn : (360 : Float).isFinite = true ∧ value 360 = 360 := by decide +kernel

theorem value_half : (180 : Float).isFinite = true ∧ value 180 = 180 := by decide +kernel

theorem value_neg_half : (-180 : Float).isFinite = true ∧ value (-180) = -180 := by decide +kernel

theorem value_zero : (0 : Float).isFinite = true ∧ value 0 = 0 := by decide +kernel

section Compare

variable {x b : Float}

/-- A double that the loops can be run next to. -/
structure Settled (b : Float) : Prop where
  isFinite : b.isFinite = true
  abs_le : |value b| ≤ 2 ^ 61

theorem Settled.roundsTo_sub (hb : Settled b) (hx : x.isFinite = true) :
    RoundsTo (value x - value b) (x - b) :=
  roundsTo_sub_small hx hb.isFinite (hb.abs_le.trans (by norm_num))

/-- The loop down goes on only above half a turn. -/
theorem Settled.lt_of_above (hb : Settled b) (hx : x.isFinite = true) (h : 180 < x - b) :
    180 + 1 / 2 ^ 46 < value x - value b := by
  have hRounds := hb.roundsTo_sub hx
  have hValue := (lt_iff_value_lt value_half.1 hRounds.isFinite).mp h
  rw [value_half.2] at hValue
  exact lt_of_nearest_above hRounds.nearest hValue

/-- The loop down goes on at the latest one degree later. -/
theorem Settled.above_of_le (hb : Settled b) (hx : x.isFinite = true)
    (h : 181 ≤ value x - value b) : 180 < x - b := by
  have hRounds := hb.roundsTo_sub hx
  have hGrid : OnGrid 181 := onGrid_intCast (n := 181) (by norm_num)
  have hValue := hRounds.nearest.le_of_ge hGrid h
  rw [lt_iff_value_lt value_half.1 hRounds.isFinite, value_half.2]
  linarith only [hValue]

theorem Settled.lt_of_below (hb : Settled b) (hx : x.isFinite = true) (h : x - b < -180) :
    180 + 1 / 2 ^ 46 < value b - value x := by
  have hRounds := hb.roundsTo_sub hx
  have hValue := (lt_iff_value_lt hRounds.isFinite value_neg_half.1).mp h
  rw [value_neg_half.2] at hValue
  have hAbove := lt_of_nearest_above hRounds.nearest.neg (lt_neg.mp hValue)
  rwa [neg_sub] at hAbove

theorem Settled.below_of_le (hb : Settled b) (hx : x.isFinite = true)
    (h : value x - value b ≤ -181) : x - b < -180 := by
  have hRounds := hb.roundsTo_sub hx
  have hGrid : OnGrid (-181) := (onGrid_intCast (n := 181) (by norm_num)).neg
  have hValue := hRounds.nearest.le_of_le hGrid h
  rw [lt_iff_value_lt hRounds.isFinite value_neg_half.1, value_neg_half.2]
  linarith only [hValue]

end Compare

/-! ## One pass -/

section Pass

variable {w : Winding Float} {b : Float}

/-- A winding of doubles that a turn still moves. -/
structure Moderate (w : Winding Float) : Prop where
  value_isFinite : w.value.isFinite = true
  offset_isFinite : w.offset.isFinite = true
  value_le : |value w.value| ≤ 2 ^ 62
  offset_le : |value w.offset| ≤ 2 ^ 62

theorem abs_value_turn_le : |value 360| ≤ 2 ^ 62 := by
  rw [value_turn.2]
  norm_num

theorem roundsTo_sub_turn {x : Float} (hx : x.isFinite = true) :
    RoundsTo (value x - 360) (x - 360) := by
  have hRounds := roundsTo_sub_small hx value_turn.1 abs_value_turn_le
  rwa [value_turn.2] at hRounds

theorem roundsTo_add_turn {x : Float} (hx : x.isFinite = true) :
    RoundsTo (value x + 360) (x + 360) := by
  have hRounds := roundsTo_add_small hx value_turn.1 abs_value_turn_le
  rwa [value_turn.2] at hRounds

theorem roundsTo_lower (hw : w.value.isFinite = true) :
    RoundsTo (value w.value - 360) w.lower.value := roundsTo_sub_turn hw

theorem roundsTo_raise (hw : w.value.isFinite = true) :
    RoundsTo (value w.value + 360) w.raise.value := roundsTo_add_turn hw

theorem roundsTo_lower_offset (hw : w.offset.isFinite = true) :
    RoundsTo (value w.offset - 360) w.lower.offset := roundsTo_sub_turn hw

theorem roundsTo_raise_offset (hw : w.offset.isFinite = true) :
    RoundsTo (value w.offset + 360) w.raise.offset := roundsTo_add_turn hw

/-- A pass of the loop down. -/
theorem Moderate.lower (hw : Moderate w) (hb : Settled b) (hAgain : 180 < w.value - b) :
    Moderate w.lower ∧ |value w.lower.value - (value w.value - 360)| ≤ 256 := by
  have hValue := roundsTo_lower hw.value_isFinite
  have hOffset := roundsTo_lower_offset hw.offset_isFinite
  have hAbove := hb.lt_of_above hw.value_isFinite hAgain
  obtain ⟨hBefore, -⟩ := abs_le.mp hb.abs_le
  obtain ⟨-, hMost⟩ := abs_le.mp hw.value_le
  have hTurned : |value w.value - 360| ≤ 2 ^ 62 := by
    rw [abs_le]
    constructor <;> linarith only [hAbove, hBefore, hMost]
  have hOffsetTurned : |value w.offset - 360| ≤ 2 ^ 62 + 360 := by
    have hTurn := abs_sub (value w.offset) 360
    rw [abs_of_pos (by norm_num : (0 : ℚ) < 360)] at hTurn
    linarith only [hTurn, hw.offset_le]
  refine ⟨⟨hValue.isFinite, hOffset.isFinite, ?_, ?_⟩, abs_sub_le_of_small hValue.nearest hTurned⟩
  · exact abs_le_limit hValue.nearest (hTurned.trans (by norm_num))
  · exact abs_le_limit hOffset.nearest hOffsetTurned

/-- A pass of the loop up. -/
theorem Moderate.raise (hw : Moderate w) (hb : Settled b) (hAgain : w.value - b < -180) :
    Moderate w.raise ∧ |value w.raise.value - (value w.value + 360)| ≤ 256 := by
  have hValue := roundsTo_raise hw.value_isFinite
  have hOffset := roundsTo_raise_offset hw.offset_isFinite
  have hBelow := hb.lt_of_below hw.value_isFinite hAgain
  obtain ⟨-, hBefore⟩ := abs_le.mp hb.abs_le
  obtain ⟨hLeast, -⟩ := abs_le.mp hw.value_le
  have hTurned : |value w.value + 360| ≤ 2 ^ 62 := by
    rw [abs_le]
    constructor <;> linarith only [hBelow, hBefore, hLeast]
  have hOffsetTurned : |value w.offset + 360| ≤ 2 ^ 62 + 360 := by
    have hTurn := abs_add_le (value w.offset) 360
    rw [abs_of_pos (by norm_num : (0 : ℚ) < 360)] at hTurn
    linarith only [hTurn, hw.offset_le]
  refine ⟨⟨hValue.isFinite, hOffset.isFinite, ?_, ?_⟩, abs_sub_le_of_small hValue.nearest hTurned⟩
  · exact abs_le_limit hValue.nearest (hTurned.trans (by norm_num))
  · exact abs_le_limit hOffset.nearest hOffsetTurned

/-- A pass leads closer to a value up to `2 ^ 53`. -/
theorem closer_lower (hb : b.isFinite = true) (hSmall : |value b| ≤ 2 ^ 53)
    (hw : w.value.isFinite = true) (hMost : |value w.value| ≤ 2 ^ 62) (hAgain : 180 < w.value - b) :
    |value w.lower.value - value b| < |value w.value - value b| := by
  have hSettled : Settled b := ⟨hb, hSmall.trans (by norm_num)⟩
  exact abs_sub_lt_of_turn (onGrid_value _) (onGrid_value b) hSmall ((le_abs_self _).trans hMost)
    (hSettled.lt_of_above hw hAgain) (roundsTo_lower hw).nearest

theorem closer_raise (hb : b.isFinite = true) (hSmall : |value b| ≤ 2 ^ 53)
    (hw : w.value.isFinite = true) (hMost : |value w.value| ≤ 2 ^ 62)
    (hAgain : w.value - b < -180) :
    |value w.raise.value - value b| < |value w.value - value b| := by
  have hSettled : Settled b := ⟨hb, hSmall.trans (by norm_num)⟩
  have hFar := hSettled.lt_of_below hw hAgain
  have hNearest := (roundsTo_raise hw).nearest.neg
  rw [neg_add'] at hNearest
  have hCloser := abs_sub_lt_of_turn (onGrid_value _).neg (onGrid_value b).neg
    (by rwa [abs_neg]) ((neg_le_abs _).trans hMost) (by linarith only [hFar]) hNearest
  rwa [neg_sub_neg, neg_sub_neg, abs_sub_comm, abs_sub_comm (value b)] at hCloser

end Pass

end InstrumentResponse.Phase
