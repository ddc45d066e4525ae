import InstrumentResponse.Proofs.Interpolation.RoundedTurns

/-!
# Unwinding doubles

The loops end where they start from no more than `2 ^ 62`.  From a number above that one of them
would have to move a value that a turn leaves where it is, and never ends.

* `Phase.Moderate.settles`: up to `2 ^ 62` both loops end, and as many passes as there are turns are
  enough.
* `Phase.not_settles_of_large`: above it one of them does not end.
* `Phase.starts`: where the loops of a list start; `Phase.unwinds_iff_starts`: the list is unwound if
  and only if none of them is above `2 ^ 62`.
* `Phase.Drifts`: how far a value is from its phase and its offset, which are rounded apart from each
  other; `Phase.Tame.starts_le`: phases up to `2 ^ 52` do not lead out of reach.
* `Phase.unwinds_doubles`: finite phases.
-/

namespace InstrumentResponse.Phase

open Double
open Winding hiding value offset

/-! ## As many passes as there are turns -/

section Turns

variable {d d' y : ℚ} {w : Winding Float} {b : Float}

/-- A pass takes more than a hundred degrees. -/
theorem floor_div_lt (h : 180 < d) (h' : d' ≤ d - 104) : ⌊d' / 100⌋₊ < ⌊d / 100⌋₊ := by
  have hSome : 1 ≤ ⌊d / 100⌋₊ := Nat.le_floor (by rw [Nat.cast_one]; linarith only [h])
  have hLess : ⌊d' / 100⌋₊ ≤ ⌊d / 100 - 1⌋₊ := Nat.floor_mono (by linarith only [h'])
  rw [Nat.floor_sub_one] at hLess
  omega

/-- A rounded distance is no less than a hundredth of the distance. -/
theorem floor_div_le (h : Nearest d y) (hd : |d| ≤ 2 ^ 63) : ⌊d / 100⌋₊ ≤ ⌊|y|⌋₊ := by
  obtain hNone | hPos := le_or_gt d 0
  · rw [Nat.floor_of_nonpos (by linarith only [hNone])]
    exact Nat.zero_le _
  have hFloor : (⌊d / 100⌋₊ : ℚ) ≤ d / 100 := Nat.floor_le (by positivity)
  refine Nat.le_floor (le_trans ?_ (le_abs_self y))
  by_cases hSmall : d ≤ 600
  · have hDigits : ⌊d / 100⌋₊ ≤ 6 := by
      have hWhole : (⌊d / 100⌋₊ : ℚ) ≤ (6 : Nat) := by
        push_cast
        linarith only [hFloor, hSmall]
      exact_mod_cast hWhole
    have hGrid : OnGrid ⌊d / 100⌋₊ := by
      have hInt := onGrid_intCast (n := ⌊d / 100⌋₊) (by rw [abs_of_nonneg] <;> omega)
      exact_mod_cast hInt
    exact h.le_of_ge hGrid (by linarith only [hFloor, hPos])
  · have hHalf := h.abs_sub_le_half (k := 10) (by norm_num) (by norm_num at hd ⊢; exact hd)
    norm_num at hHalf
    linarith only [hFloor, hSmall, (abs_le.mp hHalf).1]

theorem floor_le_turns (hb : Settled b) (hw : Moderate w) :
    ⌊(value w.value - value b) / 100⌋₊ ≤ w.turns b ∧
      ⌊(value b - value w.value) / 100⌋₊ ≤ w.turns b := by
  have hRounds := hb.roundsTo_sub hw.value_isFinite
  have hFar : |value w.value - value b| ≤ 2 ^ 63 := by
    have hDifference := abs_sub (value w.value) (value b)
    linarith only [hDifference, hw.value_le, hb.abs_le]
  obtain ⟨hFinite, hAbs⟩ := value_abs hRounds.isFinite
  have hTurns : w.turns b = ⌊|value (w.value - b)|⌋₊ + 1 := by
    have hRange : |value (w.value - b)| ≤ 2 ^ 63 := by
      have hGrid : OnGrid (2 ^ 63) := by
        have hPower := onGrid_two_zpow (k := 63) (by norm_num)
        exact_mod_cast hPower
      exact hRounds.nearest.abs_le_of_abs_le hGrid hFar
    have hWhole := toNat_toUInt64 hFinite (by rw [hAbs]; exact abs_nonneg _)
      (by rw [hAbs]; exact hRange.trans_lt (by norm_num))
    rw [← hAbs, ← hWhole]
    rfl
  rw [hTurns]
  constructor
  · exact Nat.le_succ_of_le (floor_div_le hRounds.nearest hFar)
  · have hNeg := floor_div_le hRounds.nearest.neg (by rwa [abs_neg])
    rw [neg_sub, abs_neg] at hNeg
    exact Nat.le_succ_of_le hNeg

end Turns

/-! ## Both loops -/

section Loops

variable {w w' : Winding Float} {b : Float}

theorem Moderate.exists_lowers (hw : Moderate w) (hb : Settled b) :
    ∃ n w', n ≤ w.turns b ∧ Lowers b n w w' ∧ Moderate w' := by
  have hTurn : ∀ w : Winding Float, Moderate w → 180 < w.value - b → Moderate w.lower ∧
      ⌊(value w.lower.value - value b) / 100⌋₊ < ⌊(value w.value - value b) / 100⌋₊ := by
    intro w hw hAgain
    obtain ⟨hLower, hMoved⟩ := hw.lower hb hAgain
    have hAbove := hb.lt_of_above hw.value_isFinite hAgain
    refine ⟨hLower, floor_div_lt (lt_trans (by norm_num) hAbove) ?_⟩
    linarith only [(abs_le.mp hMoved).2]
  obtain ⟨n, w', hn, hLowers, hw'⟩ := exists_passes Moderate
    (fun w => ⌊(value w.value - value b) / 100⌋₊) hTurn hw
  exact ⟨n, w', hn.trans (floor_le_turns hb hw).1, hLowers, hw'⟩

theorem Moderate.exists_raises (hw : Moderate w) (hb : Settled b) (hTop : value w.value ≤ 2 ^ 61) :
    ∃ n w', n ≤ w.turns b ∧ Raises b n w w' ∧ Moderate w' ∧ value w'.value ≤ 2 ^ 61 := by
  have hTurn : ∀ w : Winding Float, Moderate w ∧ value w.value ≤ 2 ^ 61 → w.value - b < -180 →
      (Moderate w.raise ∧ value w.raise.value ≤ 2 ^ 61) ∧
        ⌊(value b - value w.raise.value) / 100⌋₊ < ⌊(value b - value w.value) / 100⌋₊ := by
    intro w ⟨hw, _⟩ hAgain
    obtain ⟨hRaise, hMoved⟩ := hw.raise hb hAgain
    have hBelow := hb.lt_of_below hw.value_isFinite hAgain
    have hBefore := (abs_le.mp hb.abs_le).2
    refine ⟨⟨hRaise, le_half_limit (roundsTo_raise hw.value_isFinite).nearest ?_⟩,
      floor_div_lt (lt_trans (by norm_num) hBelow) ?_⟩
    · linarith only [hBelow, hBefore]
    · linarith only [(abs_le.mp hMoved).1]
  obtain ⟨n, w', hn, hRaises, hw'⟩ := exists_passes
    (fun w : Winding Float => Moderate w ∧ value w.value ≤ 2 ^ 61)
    (fun w => ⌊(value b - value w.value) / 100⌋₊) hTurn ⟨hw, hTop⟩
  exact ⟨n, w', hn.trans (floor_le_turns hb hw).2, hRaises, hw'⟩

/-- Where the loop down ends. -/
theorem lt_of_lowers {n : Nat} (hb : Settled b) (hw : w'.value.isFinite = true)
    (h : Lowers b n w w') : value w'.value - value b < 181 := by
  by_contra hFar
  exact h.not_again (hb.above_of_le hw (not_lt.mp hFar))

/-- Where the loop up ends. -/
theorem lt_of_raises {n : Nat} (hb : Settled b) (hw : w'.value.isFinite = true)
    (h : Raises b n w w') : -181 < value w'.value - value b := by
  by_contra hFar
  exact h.not_again (hb.below_of_le hw (not_lt.mp hFar))

/-- Up to `2 ^ 62` both loops end, next to the value before. -/
theorem Moderate.settles (hw : Moderate w) (hb : Settled b) :
    Settles b w (settle b w) ∧ Moderate (settle b w) ∧ Settled (settle b w).value := by
  obtain ⟨m, middle, hm, hLowers, hMiddle⟩ := hw.exists_lowers hb
  have hAbove := lt_of_lowers hb hMiddle.value_isFinite hLowers
  obtain ⟨hLeast, hMost⟩ := abs_le.mp hb.abs_le
  have hTop : value middle.value ≤ 2 ^ 61 :=
    le_half_limit (onGrid_value _).nearest_self (by linarith only [hAbove, hMost])
  obtain ⟨n, w', hn, hRaises, hw', hTop'⟩ := hMiddle.exists_raises hb hTop
  have hBelow := lt_of_raises hb hw'.value_isFinite hRaises
  have hBottom : -value w'.value ≤ 2 ^ 61 :=
    le_half_limit (onGrid_value _).nearest_self.neg (by linarith only [hBelow, hLeast])
  have hSettle : settle b w = w' := by
    rw [settle, lowerTo_eq hLowers hm, raiseTo_eq hRaises hn]
  rw [hSettle]
  exact ⟨⟨m, n, middle, hLowers, hRaises⟩, hw', hw'.value_isFinite,
    abs_le.mpr ⟨neg_le.mp hBottom, hTop'⟩⟩

/-- Above `2 ^ 62` a turn down leaves the value where it is, and the loop down never ends. -/
theorem not_lowers_of_large (hb : Settled b) (hw : w.value.isFinite = true)
    (hLarge : 2 ^ 62 < value w.value) (n : Nat) : ¬ Lowers b n w w' := by
  refine not_passes_of_stuck
    (fun w : Winding Float => w.value.isFinite = true ∧ 2 ^ 62 < value w.value) ?_ ⟨hw, hLarge⟩
  intro w ⟨hFinite, hLarge⟩
  have hRounds := roundsTo_lower hFinite
  have hSame : value w.lower.value = value w.value :=
    eq_of_large (onGrid_value _) hLarge hRounds.nearest
  have hMost := (abs_le.mp hb.abs_le).2
  refine ⟨hb.above_of_le hFinite (by linarith only [hLarge, hMost]), hRounds.isFinite, ?_⟩
  rwa [hSame]

theorem not_raises_of_large (hb : Settled b) (hw : w.value.isFinite = true)
    (hLarge : value w.value < -2 ^ 62) (n : Nat) : ¬ Raises b n w w' := by
  refine not_passes_of_stuck
    (fun w : Winding Float => w.value.isFinite = true ∧ value w.value < -2 ^ 62) ?_ ⟨hw, hLarge⟩
  intro w ⟨hFinite, hLarge⟩
  have hRounds := roundsTo_raise hFinite
  have hSame : value w.raise.value = value w.value := by
    have hNearest := hRounds.nearest.neg
    rw [neg_add'] at hNearest
    exact neg_injective (eq_of_large (onGrid_value _).neg (lt_neg.mp hLarge) hNearest)
  have hLeast := (abs_le.mp hb.abs_le).1
  refine ⟨hb.below_of_le hFinite (by linarith only [hLarge, hLeast]), hRounds.isFinite, ?_⟩
  rwa [hSame]

theorem not_settles_of_large (hb : Settled b) (hw : w.value.isFinite = true)
    (hLarge : 2 ^ 62 < |value w.value|) : ¬ Settles b w w' := by
  rintro ⟨m, n, middle, hLowers, hRaises⟩
  obtain hAbove | hBelow := lt_abs.mp hLarge
  · exact not_lowers_of_large hb hw hAbove m hLowers
  · -- the loop down is done at once
    have hDone : ¬ 180 < w.value - b := by
      intro hAgain
      have hFar := hb.lt_of_above hw hAgain
      have hLeast := (abs_le.mp hb.abs_le).1
      norm_num at hFar
      linarith only [hFar, hLeast, hBelow]
    obtain rfl : w = middle := (Passes.done hDone).unique hLowers
    exact not_raises_of_large hb hw (lt_neg.mp hBelow) n hRaises

end Loops

/-! ## Lists -/

section Lists

variable {before : Winding Float} {phases : List Float} {ws : List (Winding Float)}

/-- What the loops of a list start from: each phase with the offset at that point. -/
def starts (before : Winding Float) : List Float → List Float
  | [] => []
  | phase :: rest =>
    (phase + before.offset) ::
      starts (settle before.value ⟨before.offset, phase + before.offset⟩) rest

/-- A list is unwound if and only if no loop starts above `2 ^ 62`, and then to the windings that as
many passes as there are turns lead to. -/
theorem unwinds_iff_starts (hBefore : Moderate before) (hValue : Settled before.value)
    (hFinite : ∀ phase ∈ phases, phase.isFinite = true) :
    Unwinds before phases ws ↔
      ws = unwindFrom before phases ∧ ∀ start ∈ starts before phases, |value start| ≤ 2 ^ 62 := by
  induction phases generalizing before ws with
  | nil =>
    constructor
    · intro hUnwinds
      cases hUnwinds
      exact ⟨rfl, nofun⟩
    · rintro ⟨rfl, -⟩
      exact .nil
  | cons phase rest ih =>
    obtain ⟨hPhase, hRest⟩ := List.forall_mem_cons.mp hFinite
    have hStart : (phase + before.offset).isFinite = true :=
      (roundsTo_add_small hPhase hBefore.offset_isFinite hBefore.offset_le).isFinite
    have hModerate : |value (phase + before.offset)| ≤ 2 ^ 62 →
        Moderate ⟨before.offset, phase + before.offset⟩ :=
      fun hSize => ⟨hStart, hBefore.offset_isFinite, hSize, hBefore.offset_le⟩
    rw [starts, List.forall_mem_cons]
    constructor
    · intro hUnwinds
      cases hUnwinds with
      | cons hSettles hUnwinds =>
        have hSize : |value (phase + before.offset)| ≤ 2 ^ 62 := by
          by_contra hLarge
          exact not_settles_of_large (w := ⟨before.offset, phase + before.offset⟩) hValue hStart
            (not_le.mp hLarge) hSettles
        obtain ⟨hSettle, hNext, hSettled⟩ := (hModerate hSize).settles hValue
        obtain rfl := hSettles.unique hSettle
        obtain ⟨rfl, hStarts⟩ := (ih hNext hSettled hRest).mp hUnwinds
        exact ⟨rfl, hSize, hStarts⟩
    · rintro ⟨rfl, hSize, hStarts⟩
      obtain ⟨hSettle, hNext, hSettled⟩ := (hModerate hSize).settles hValue
      exact .cons hSettle ((ih hNext hSettled hRest).mpr ⟨rfl, hStarts⟩)

end Lists

/-! ## Small phases -/

section Small

variable {o o' p q r v v' d reach : ℚ} {n : Nat} {w w' before : Winding Float} {b phase : Float}
  {phases : List Float}

/-- Up to `2 ^ 55` a number is moved by 2 at most. -/
theorem abs_sub_le_two (h : Nearest q r) (hq : |q| ≤ 2 ^ 55) : |r - q| ≤ 2 := by
  have hHalf := h.abs_sub_le_half (k := 2) (by norm_num) (by norm_num at hq ⊢; exact hq)
  norm_num at hHalf
  exact hHalf

/-- A pass takes a value from the sum of its phase and its offset by no more than 4, and moves it by a
turn but for 2. -/
theorem drift_le (hv : Nearest (v - 360) v') (ho : Nearest (o - 360) o') (hValue : |v| ≤ 2 ^ 54)
    (hPhase : |p| ≤ 2 ^ 52) (hDrift : |v - o - p| ≤ 2 ^ 51) :
    |v' - o' - p| ≤ |v - o - p| + 4 ∧ |v' - (v - 360)| ≤ 2 := by
  obtain ⟨hLow, hHigh⟩ := abs_le.mp hValue
  obtain ⟨hLow', hHigh'⟩ := abs_le.mp hPhase
  obtain ⟨hLow'', hHigh''⟩ := abs_le.mp hDrift
  have hOffset : |o - 360| ≤ 2 ^ 55 := by
    rw [abs_le]
    constructor <;> linarith only [hLow, hHigh, hLow', hHigh', hLow'', hHigh'']
  have hTurned : |v - 360| ≤ 2 ^ 55 := by
    rw [abs_le]
    constructor <;> linarith only [hLow, hHigh]
  have hMoved := abs_sub_le_two hv hTurned
  have hMoved' := abs_sub_le_two ho hOffset
  refine ⟨?_, hMoved⟩
  have hSplit : v' - o' - p = v - o - p + (v' - (v - 360) - (o' - (o - 360))) := by ring
  have hSum := abs_add_le (v - o - p) (v' - (v - 360) - (o' - (o - 360)))
  have hSum' := abs_sub (v' - (v - 360)) (o' - (o - 360))
  rw [hSplit]
  linarith only [hSum, hSum', hMoved, hMoved']

theorem drift_le_raise (hv : Nearest (v + 360) v') (ho : Nearest (o + 360) o')
    (hValue : |v| ≤ 2 ^ 54) (hPhase : |p| ≤ 2 ^ 52) (hDrift : |v - o - p| ≤ 2 ^ 51) :
    |v' - o' - p| ≤ |v - o - p| + 4 ∧ |v' - (v + 360)| ≤ 2 := by
  have hNeg : ∀ x y : ℚ, -x - -y - -p = -(x - y - p) := fun x y => by ring
  have hv' := hv.neg
  have ho' := ho.neg
  rw [neg_add'] at hv' ho'
  have hMirror := drift_le hv' ho' (by rwa [abs_neg]) (by rwa [abs_neg] : |-p| ≤ 2 ^ 52)
    (by rwa [hNeg, abs_neg])
  have hTurn : -v' - (-v - 360) = -(v' - (v + 360)) := by ring
  rwa [hNeg, hNeg, abs_neg, abs_neg, hTurn, abs_neg] at hMirror

/-- The value is no farther than `d` from the sum of its phase and its offset. -/
structure Drifts (p d : ℚ) (w : Winding Float) : Prop where
  moderate : Moderate w
  value_le : |value w.value| ≤ 2 ^ 54
  drift_le : |value w.value - value w.offset - p| ≤ d

/-- Going down takes a value from its phase by no more than a fiftieth of the way. -/
theorem Drifts.lowers (hw : Drifts p d w) (hb : |value b| ≤ 2 ^ 50) (hFinite : b.isFinite = true)
    (hPhase : |p| ≤ 2 ^ 52) (hMost : d ≤ 2 ^ 50) (h : Lowers b n w w') :
    Drifts p (d + (value w.value - value w'.value) / 50) w' := by
  have hSettled : Settled b := ⟨hFinite, hb.trans (by norm_num)⟩
  refine h.preserves (fun u : Winding Float => Drifts p (d + (value w.value - value u.value) / 50) u) ?_ ?_
  · intro u hu hAgain
    obtain ⟨hModerate, -⟩ := hu.moderate.lower hSettled hAgain
    have hAbove := hSettled.lt_of_above hu.moderate.value_isFinite hAgain
    have hWay : d + (value w.value - value u.value) / 50 ≤ 2 ^ 51 := by
      linarith only [hMost, (abs_le.mp hw.value_le).2, (abs_le.mp hu.value_le).1]
    obtain ⟨hDrift, hMoved⟩ := Phase.drift_le (roundsTo_lower hu.moderate.value_isFinite).nearest
      (roundsTo_lower_offset hu.moderate.offset_isFinite).nearest hu.value_le hPhase (hu.drift_le.trans hWay)
    obtain ⟨hFrom, hTo⟩ := abs_le.mp hMoved
    refine ⟨hModerate, ?_, ?_⟩
    · rw [abs_le]
      norm_num at hAbove
      constructor <;>
        linarith only [hFrom, hTo, hAbove, (abs_le.mp hb).1, (abs_le.mp hu.value_le).2]
    · linarith only [hDrift, hu.drift_le, hTo]
  · exact ⟨hw.moderate, hw.value_le, by rw [sub_self, zero_div, add_zero]; exact hw.drift_le⟩

/-- Going up takes a value from its phase by no more than a fiftieth of the way. -/
theorem Drifts.raises (hw : Drifts p d w) (hb : |value b| ≤ 2 ^ 50) (hFinite : b.isFinite = true)
    (hPhase : |p| ≤ 2 ^ 52) (hMost : d ≤ 2 ^ 50) (hBelow : value w.value ≤ value b + 182)
    (h : Raises b n w w') :
    Drifts p (d + (value w'.value - value w.value) / 50) w' ∧ value w'.value ≤ value b + 182 := by
  have hSettled : Settled b := ⟨hFinite, hb.trans (by norm_num)⟩
  refine h.preserves (fun u : Winding Float =>
    Drifts p (d + (value u.value - value w.value) / 50) u ∧ value u.value ≤ value b + 182) ?_ ?_
  · intro u ⟨hu, _⟩ hAgain
    obtain ⟨hModerate, -⟩ := hu.moderate.raise hSettled hAgain
    have hFar := hSettled.lt_of_below hu.moderate.value_isFinite hAgain
    have hWay : d + (value u.value - value w.value) / 50 ≤ 2 ^ 51 := by
      linarith only [hMost, (abs_le.mp hw.value_le).1, (abs_le.mp hu.value_le).2]
    obtain ⟨hDrift, hMoved⟩ := drift_le_raise (roundsTo_raise hu.moderate.value_isFinite).nearest
      (roundsTo_raise_offset hu.moderate.offset_isFinite).nearest hu.value_le hPhase (hu.drift_le.trans hWay)
    obtain ⟨hFrom, hTo⟩ := abs_le.mp hMoved
    norm_num at hFar
    refine ⟨⟨hModerate, ?_, ?_⟩, ?_⟩
    · rw [abs_le]
      constructor <;> linarith only [hFrom, hTo, hFar, (abs_le.mp hb).2, (abs_le.mp hu.value_le).1]
    · linarith only [hDrift, hu.drift_le, hFrom]
    · linarith only [hTo, hFar]
  · refine ⟨⟨hw.moderate, hw.value_le, ?_⟩, hBelow⟩
    rw [sub_self, zero_div, add_zero]
    exact hw.drift_le

/-- A winding next to which a phase up to `2 ^ 52` can be unwound without much loss. -/
structure Tame (reach : ℚ) (w : Winding Float) : Prop where
  moderate : Moderate w
  value_le : |value w.value| ≤ reach
  offset_le : |value w.offset| ≤ 2 ^ 53

theorem Tame.settled (h : Tame reach before) (hReach : reach ≤ 2 ^ 50) : Settled before.value :=
  ⟨h.moderate.value_isFinite, h.value_le.trans (hReach.trans (by norm_num))⟩

theorem Tame.drifts_start (h : Tame reach before) (hFinite : phase.isFinite = true)
    (hPhase : |value phase| ≤ 2 ^ 52) :
    Drifts (value phase) 2 ⟨before.offset, phase + before.offset⟩ := by
  have hRounds :=
    roundsTo_add_small hFinite h.moderate.offset_isFinite h.moderate.offset_le
  have hSum : |value phase + value before.offset| ≤ 2 ^ 53 + 2 ^ 52 := by
    have hTriangle := abs_add_le (value phase) (value before.offset)
    linarith only [hTriangle, hPhase, h.offset_le]
  have hMoved := abs_sub_le_two hRounds.nearest (hSum.trans (by norm_num))
  have hStart : |value (phase + before.offset)| ≤ 2 ^ 54 := by
    obtain ⟨hLow, hHigh⟩ := abs_le.mp hMoved
    obtain ⟨hLow', hHigh'⟩ := abs_le.mp hSum
    rw [abs_le]
    constructor <;> linarith only [hLow, hHigh, hLow', hHigh']
  refine ⟨⟨hRounds.isFinite, h.moderate.offset_isFinite, hStart.trans (by norm_num),
    h.moderate.offset_le⟩, hStart, ?_⟩
  show |value (phase + before.offset) - value before.offset - value phase| ≤ 2
  rwa [sub_sub, add_comm (value before.offset)]

/-- The value goes by half a turn at most, and the offset does not get out of reach. -/
theorem Tame.settle (h : Tame reach before) (hReach : reach ≤ 2 ^ 49)
    (hFinite : phase.isFinite = true) (hPhase : |value phase| ≤ 2 ^ 52) :
    Tame (reach + 182) (settle before.value ⟨before.offset, phase + before.offset⟩) := by
  have hStart := h.drifts_start hFinite hPhase
  have hSettled := h.settled (hReach.trans (by norm_num))
  have hBefore : |value before.value| ≤ 2 ^ 50 := h.value_le.trans (hReach.trans (by norm_num))
  obtain ⟨⟨m, n, middle, hLowers, hRaises⟩, hModerate, -⟩ := hStart.moderate.settles hSettled
  have hMiddle := hStart.lowers hBefore hSettled.isFinite hPhase (by norm_num) hLowers
  have hAbove := lt_of_lowers hSettled hMiddle.moderate.value_isFinite hLowers
  have hWay : 2 + (value (phase + before.offset) - value middle.value) / 50 ≤ 2 ^ 50 := by
    linarith only [(abs_le.mp hStart.value_le).2, (abs_le.mp hMiddle.value_le).1]
  obtain ⟨hEnd, hTop⟩ := hMiddle.raises hBefore hSettled.isFinite hPhase hWay
    (by linarith only [hAbove]) hRaises
  have hBelow := lt_of_raises hSettled hModerate.value_isFinite hRaises
  obtain ⟨hLeast, hMost⟩ := abs_le.mp h.value_le
  refine ⟨hModerate, abs_le.mpr ⟨?_, ?_⟩, ?_⟩
  · linarith only [hBelow, hLeast]
  · linarith only [hTop, hMost]
  · have hDrift := hEnd.drift_le
    rw [abs_le] at hDrift hPhase ⊢
    have hFarthest := (abs_le.mp hEnd.value_le).2
    have hNearest := (abs_le.mp hMiddle.value_le).1
    constructor
    · linarith only [hDrift.2, hPhase.2, hBelow, hLeast, hReach, hFarthest, hNearest, hWay]
    · linarith only [hDrift.1, hPhase.1, hTop, hMost, hReach, hFarthest, hNearest, hWay]

/-- Phases up to `2 ^ 52` are unwound, if there are not too many. -/
theorem Tame.starts_le (h : Tame reach before) (hReach : reach + 182 * phases.length ≤ 2 ^ 49)
    (hFinite : ∀ phase ∈ phases, phase.isFinite = true)
    (hPhases : ∀ phase ∈ phases, |value phase| ≤ 2 ^ 52) :
    (∀ start ∈ starts before phases, |value start| ≤ 2 ^ 62) ∧
      ∀ w ∈ unwindFrom before phases, |value w.value| ≤ 2 ^ 49 := by
  induction phases generalizing before reach with
  | nil => exact ⟨nofun, nofun⟩
  | cons phase rest ih =>
    obtain ⟨hFirst, hRest⟩ := List.forall_mem_cons.mp hFinite
    obtain ⟨hFirstSize, hRestSize⟩ := List.forall_mem_cons.mp hPhases
    rw [List.length_cons, Nat.cast_add_one] at hReach
    have hLength : (0 : ℚ) ≤ rest.length := Nat.cast_nonneg _
    have hStart := h.drifts_start hFirst hFirstSize
    have hNext := h.settle (by linarith only [hReach, hLength]) hFirst hFirstSize
    obtain ⟨hStarts, hValues⟩ := ih hNext (by linarith only [hReach]) hRest hRestSize
    rw [starts, unwindFrom, List.forall_mem_cons, List.forall_mem_cons]
    refine ⟨⟨hStart.moderate.value_le, hStarts⟩, ?_, hValues⟩
    exact hNext.value_le.trans (by linarith only [hReach, hLength])

end Small

/-! ## Finite phases -/

theorem tame_zero : Tame 0 ⟨0, 0⟩ := by
  obtain ⟨hFinite, hZero⟩ := value_zero
  refine ⟨⟨hFinite, hFinite, ?_, ?_⟩, ?_, ?_⟩ <;> rw [hZero, abs_zero]
  · norm_num
  · norm_num
  · norm_num

/-- **Unwinding finite doubles ends if no loop starts too far out.**  The loops of a list end if and
only if each of them starts at a number up to `2 ^ 62`, and they lead to the windings that as many
passes as there are turns lead to.  That holds of all lists of at most `2 ^ 40` phases up to
`2 ^ 52`.  From a number up to `2 ^ 62` each pass leads strictly closer to the value before, if that
one is up to `2 ^ 53`. -/
theorem unwinds_doubles (phases : List Float)
    (hFinite : ∀ phase ∈ phases, phase.isFinite = true) :
    (∀ ws, Unwinds ⟨0, 0⟩ phases ws ↔ ws = unwindFrom ⟨0, 0⟩ phases ∧
      ∀ start ∈ starts ⟨0, 0⟩ phases, |value start| ≤ 2 ^ 62) ∧
    (phases.length ≤ 2 ^ 40 → (∀ phase ∈ phases, |value phase| ≤ 2 ^ 52) →
      Unwinds ⟨0, 0⟩ phases (unwindFrom ⟨0, 0⟩ phases) ∧
      ∀ w ∈ unwindFrom ⟨0, 0⟩ phases, |value w.value| ≤ 2 ^ 49) ∧
    ∀ (before : Float) (w : Winding Float), before.isFinite = true → |value before| ≤ 2 ^ 53 →
      w.value.isFinite = true → |value w.value| ≤ 2 ^ 62 →
      (180 < w.value - before →
        |value w.lower.value - value before| < |value w.value - value before|) ∧
      (w.value - before < -180 →
        |value w.raise.value - value before| < |value w.value - value before|) := by
  have hZero := tame_zero
  have hIff : ∀ ws, Unwinds ⟨0, 0⟩ phases ws ↔ ws = unwindFrom ⟨0, 0⟩ phases ∧
      ∀ start ∈ starts ⟨0, 0⟩ phases, |value start| ≤ 2 ^ 62 := fun ws =>
    unwinds_iff_starts hZero.moderate (hZero.settled (by norm_num)) hFinite
  refine ⟨hIff, ?_, ?_⟩
  · intro hLength hPhases
    have hReach : (0 : ℚ) + 182 * phases.length ≤ 2 ^ 49 := by
      have hCast : (phases.length : ℚ) ≤ 2 ^ 40 := by exact_mod_cast hLength
      linarith only [hCast]
    obtain ⟨hStarts, hValues⟩ := hZero.starts_le hReach hFinite hPhases
    exact ⟨(hIff _).mpr ⟨rfl, hStarts⟩, hValues⟩
  · intro before w hBefore hSmall hw hMost
    exact ⟨closer_lower hBefore hSmall hw hMost, closer_raise hBefore hSmall hw hMost⟩

theorem unwinds_doubles_reversal :
    (∀ phase ∈ [170, -170, -150], Float.isFinite phase = true) ∧
    Unwinds (⟨0, 0⟩ : Winding Float) [170, -170, -150] [⟨0, 170⟩, ⟨360, 190⟩, ⟨360, 210⟩] ∧
    |value (370 - 360) - value 0| < |value 370 - value 0| := by
  have hFinite : ∀ phase ∈ [170, -170, -150], Float.isFinite phase = true := by decide +kernel
  obtain ⟨-, hSmall, hCloser⟩ := unwinds_doubles [170, -170, -150] hFinite
  have hUnwound : unwindFrom (⟨0, 0⟩ : Winding Float) [170, -170, -150] =
      [⟨0, 170⟩, ⟨360, 190⟩, ⟨360, 210⟩] := by decide +kernel
  rw [hUnwound] at hSmall
  refine ⟨hFinite, (hSmall (by decide) (by decide +kernel)).1, ?_⟩
  exact (hCloser 0 ⟨0, 370⟩ (by decide +kernel) (by decide +kernel) (by decide +kernel)
    (by decide +kernel)).1 (by decide +kernel)

/-- A turn down leaves a phase of 10000000000000000000 degrees where it is, and its loop never
ends. -/
theorem not_unwinds_far :
    (10000000000000000000 : Float).isFinite = true ∧
    (180 : Float) < 10000000000000000000 - 0 ∧
    (10000000000000000000 - 360 : Float) = 10000000000000000000 ∧
    ¬ ∃ ws, Unwinds (⟨0, 0⟩ : Winding Float) [10000000000000000000] ws := by
  refine ⟨by decide +kernel, by decide +kernel, by decide +kernel, ?_⟩
  rintro ⟨ws, hUnwinds⟩
  have hFar : ¬ ∀ start ∈ starts ⟨0, 0⟩ [10000000000000000000], |value start| ≤ 2 ^ 62 := by
    decide +kernel
  exact hFar ((unwinds_iff_starts tame_zero.moderate (tame_zero.settled (by norm_num))
    (by decide +kernel)).mp hUnwinds).2

end InstrumentResponse.Phase
