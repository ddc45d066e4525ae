import InstrumentResponse.Proofs.Interpolation.Turns

/-!
# Unwinding

A phase is moved by whole turns until it is within half a turn of the one before: down in one loop,
then up in another one.  Here the loops are followed without a bound on their passes.

* `Phase.Passes`: a loop that ends after some passes; `Phase.exists_passes`: one ends if a measure
  falls from pass to pass.
* `Phase.Settles`, `Phase.Unwinds`: both loops, and a list of phases.
* `Phase.lowerTo_eq`, `Phase.raiseTo_eq`: as many passes as there are turns are enough.
* `Phase.settles_settle`: in exact numbers both loops end within half a turn.
* `Phase.wrap_eq_wrap`: phases of one angle are wrapped to the same one.
* `Phase.unwrap_winds`: the unwound phases.
-/

namespace InstrumentResponse.Phase

open Winding

/-! ## Loops -/

section Loop

variable {α : Type} {again : Winding α → Prop} {turn : Winding α → Winding α}

/-- The loop that turns while it has to go on, and ends after some number of passes. -/
inductive Passes (again : Winding α → Prop) (turn : Winding α → Winding α) :
    Nat → Winding α → Winding α → Prop
  | done {w : Winding α} : ¬ again w → Passes again turn 0 w w
  | pass {n : Nat} {w w' : Winding α} : again w → Passes again turn n (turn w) w' →
      Passes again turn (n + 1) w w'

theorem Passes.not_again {n : Nat} {w w' : Winding α} (h : Passes again turn n w w') :
    ¬ again w' := by
  induction h with
  | done hDone => exact hDone
  | pass _ _ ih => exact ih

/-- What a pass preserves holds where the loop ends. -/
theorem Passes.preserves (inv : Winding α → Prop) (hTurn : ∀ w, inv w → again w → inv (turn w))
    {n : Nat} {w w' : Winding α} (h : Passes again turn n w w') (hw : inv w) : inv w' := by
  induction h with
  | done _ => exact hw
  | pass hAgain _ ih => exact ih (hTurn _ hw hAgain)

theorem Passes.unique {n n' : Nat} {w w₁ w₂ : Winding α} (h₁ : Passes again turn n w w₁)
    (h₂ : Passes again turn n' w w₂) : w₁ = w₂ := by
  induction h₁ generalizing n' with
  | done hDone =>
    cases h₂ with
    | done _ => rfl
    | pass hAgain _ => exact absurd hAgain hDone
  | pass hAgain _ ih =>
    cases h₂ with
    | done hDone => exact absurd hAgain hDone
    | pass _ h₂ => exact ih h₂

/-- A loop ends if a measure falls from pass to pass, and takes no more passes than it says. -/
theorem exists_passes (inv : Winding α → Prop) (measure : Winding α → Nat)
    (hTurn : ∀ w, inv w → again w → inv (turn w) ∧ measure (turn w) < measure w)
    {w : Winding α} (hw : inv w) :
    ∃ n w', n ≤ measure w ∧ Passes again turn n w w' ∧ inv w' := by
  induction hMeasure : measure w using Nat.strongRecOn generalizing w with
  | ind bound ih =>
    subst hMeasure
    by_cases hAgain : again w
    · obtain ⟨hNext, hFalls⟩ := hTurn w hw hAgain
      obtain ⟨n, w', hn, hPasses, hw'⟩ := ih _ hFalls hNext rfl
      exact ⟨n + 1, w', by omega, .pass hAgain hPasses, hw'⟩
    · exact ⟨0, w, Nat.zero_le _, .done hAgain, hw⟩

/-- A loop never ends that has to go on and on. -/
theorem not_passes_of_stuck (inv : Winding α → Prop) (hTurn : ∀ w, inv w → again w ∧ inv (turn w))
    {n : Nat} {w w' : Winding α} (hw : inv w) : ¬ Passes again turn n w w' := by
  intro h
  induction h with
  | done hDone => exact hDone (hTurn _ hw).1
  | pass _ _ ih => exact ih (hTurn _ hw).2

end Loop

section Loops

variable {α : Type} [Scalar α] {before : α} {w w' : Winding α} {n fuel : Nat}

/-- Down, while more than half a turn above `before`. -/
abbrev Lowers (before : α) : Nat → Winding α → Winding α → Prop :=
  Passes (fun w => 180 < w.value - before) lower

/-- Up, while more than half a turn below `before`. -/
abbrev Raises (before : α) : Nat → Winding α → Winding α → Prop :=
  Passes (fun w => w.value - before < -180) raise

/-- Down and then up, as long as it takes. -/
def Settles (before : α) (w w' : Winding α) : Prop :=
  ∃ m n middle, Lowers before m w middle ∧ Raises before n middle w'

/-- The phases of a list, one after another, each as long as it takes. -/
inductive Unwinds : Winding α → List α → List (Winding α) → Prop
  | nil {before : Winding α} : Unwinds before [] []
  | cons {before w : Winding α} {phase : α} {rest : List α} {ws : List (Winding α)} :
      Settles before.value ⟨before.offset, phase + before.offset⟩ w → Unwinds w rest ws →
      Unwinds before (phase :: rest) (w :: ws)

theorem lowerTo_eq (h : Lowers before n w w') (hn : n ≤ fuel) : lowerTo before fuel w = w' := by
  induction h generalizing fuel with
  | done hDone =>
    cases fuel with
    | zero => rfl
    | succ fuel => rw [lowerTo, if_neg hDone]
  | @pass n w w' hAgain _ ih =>
    obtain ⟨fuel, rfl⟩ := Nat.exists_eq_add_one_of_ne_zero (Nat.ne_of_gt (Nat.zero_lt_of_lt hn))
    rw [lowerTo, if_pos hAgain]
    exact ih (Nat.le_of_succ_le_succ hn)

theorem raiseTo_eq (h : Raises before n w w') (hn : n ≤ fuel) : raiseTo before fuel w = w' := by
  induction h generalizing fuel with
  | done hDone =>
    cases fuel with
    | zero => rfl
    | succ fuel => rw [raiseTo, if_neg hDone]
  | @pass n w w' hAgain _ ih =>
    obtain ⟨fuel, rfl⟩ := Nat.exists_eq_add_one_of_ne_zero (Nat.ne_of_gt (Nat.zero_lt_of_lt hn))
    rw [raiseTo, if_pos hAgain]
    exact ih (Nat.le_of_succ_le_succ hn)

theorem Settles.unique {w₁ w₂ : Winding α} (h₁ : Settles before w w₁)
    (h₂ : Settles before w w₂) : w₁ = w₂ := by
  obtain ⟨_, _, middle₁, hLowers₁, hRaises₁⟩ := h₁
  obtain ⟨_, _, middle₂, hLowers₂, hRaises₂⟩ := h₂
  obtain rfl : middle₁ = middle₂ := hLowers₁.unique hLowers₂
  exact hRaises₁.unique hRaises₂

end Loops

/-! ## Exact numbers -/

section Exact

variable {before : ℚ} {w w' : Winding ℚ} {phase : ℚ}

/-- A number more than half a turn above 0 is nearer to it one turn below. -/
theorem floor_abs_sub_turn_lt {d : ℚ} (h : 180 < d) : ⌊|d - 360|⌋₊ < ⌊|d|⌋₊ := by
  rw [abs_of_pos (by linarith only [h] : 0 < d)]
  have hFloor : (180 : ℚ) < ⌊d⌋₊ + 1 := h.trans (Nat.lt_floor_add_one d)
  have hLeast : 180 ≤ ⌊d⌋₊ := by
    have hCast : ((180 : Nat) : ℚ) < ((⌊d⌋₊ + 1 : Nat) : ℚ) := by
      push_cast
      exact hFloor
    exact Nat.lt_succ_iff.mp (Nat.cast_lt.mp hCast)
  have hWhole : (180 : ℚ) ≤ ⌊d⌋₊ := by exact_mod_cast hLeast
  rw [Nat.floor_lt (abs_nonneg _), abs_lt]
  constructor
  · linarith only [h, hWhole]
  · linarith only [Nat.lt_floor_add_one d]

theorem exists_lowers (before : ℚ) (w : Winding ℚ) :
    ∃ n w', n ≤ w.turns before ∧ Lowers before n w w' := by
  have hTurn : ∀ w : Winding ℚ, True → 180 < w.value - before →
      True ∧ ⌊|w.lower.value - before|⌋₊ < ⌊|w.value - before|⌋₊ := by
    intro w _ hAbove
    have hTurned : w.lower.value - before = w.value - before - 360 := sub_right_comm ..
    rw [hTurned]
    exact ⟨trivial, floor_abs_sub_turn_lt hAbove⟩
  obtain ⟨n, w', hn, hLowers, -⟩ := exists_passes _ (fun w => ⌊|w.value - before|⌋₊) hTurn trivial
  exact ⟨n, w', Nat.le_succ_of_le hn, hLowers⟩

/-- A value that is less than half a turn above `before` stays so while it is raised. -/
theorem exists_raises (hw : w.value - before ≤ 180) :
    ∃ n w', n ≤ w.turns before ∧ Raises before n w w' ∧ w'.value - before ≤ 180 := by
  have hTurn : ∀ w : Winding ℚ, w.value - before ≤ 180 → w.value - before < -180 →
      w.raise.value - before ≤ 180 ∧ ⌊|w.raise.value - before|⌋₊ < ⌊|w.value - before|⌋₊ := by
    intro w _ hBelow
    have hTurned : w.raise.value - before = -(-(w.value - before) - 360) := by
      show w.value + 360 - before = _
      ring
    rw [hTurned, abs_neg, ← abs_neg (w.value - before)]
    refine ⟨?_, floor_abs_sub_turn_lt (by linarith only [hBelow])⟩
    linarith only [hBelow]
  obtain ⟨n, w', hn, hRaises, hw'⟩ := exists_passes _ (fun w => ⌊|w.value - before|⌋₊) hTurn hw
  exact ⟨n, w', Nat.le_succ_of_le hn, hRaises, hw'⟩

/-- In exact numbers both loops end, as many turns as there can be are enough for them, and the
value that they lead to is within half a turn. -/
theorem settles_settle (before : ℚ) (w : Winding ℚ) :
    Settles before w (settle before w) ∧ |(settle before w).value - before| ≤ 180 := by
  obtain ⟨m, middle, hm, hLowers⟩ := exists_lowers before w
  have hAbove : middle.value - before ≤ 180 := not_lt.mp hLowers.not_again
  obtain ⟨n, w', hn, hRaises, hTop⟩ := exists_raises hAbove
  have hBottom : -180 ≤ w'.value - before := not_lt.mp hRaises.not_again
  have hSettle : settle before w = w' := by
    rw [settle, lowerTo_eq hLowers hm, raiseTo_eq hRaises hn]
  rw [hSettle]
  exact ⟨⟨m, n, middle, hLowers, hRaises⟩, abs_le.mpr ⟨hBottom, hTop⟩⟩

theorem unwinds_unwindFrom (before : Winding ℚ) (phases : List ℚ) :
    Unwinds before phases (unwindFrom before phases) := by
  induction phases generalizing before with
  | nil => exact .nil
  | cons phase rest ih => exact .cons (settles_settle _ _).1 (ih _)

/-- No two neighbours are more than half a turn apart. -/
theorem isChain_unwindFrom (before : Winding ℚ) (phases : List ℚ) :
    (before.value :: (unwindFrom before phases).map (·.value)).IsChain
      fun p q => |q - p| ≤ 180 := by
  induction phases generalizing before with
  | nil => exact .singleton _
  | cons phase rest ih => exact .cons_cons (settles_settle _ _).2 (ih _)

/-! ## Wrapping -/

theorem wrap_mem (phase : ℚ) : -180 < wrap phase ∧ wrap phase ≤ 180 := by
  have hLeast := Int.le_ceil ((phase - 180) / 360)
  have hMost := Int.ceil_lt_add_one ((phase - 180) / 360)
  show -180 < phase - 360 * (⌈(phase - 180) / 360⌉ : ℚ) ∧
    phase - 360 * (⌈(phase - 180) / 360⌉ : ℚ) ≤ 180
  constructor
  · linarith only [hMost]
  · linarith only [hLeast]

/-- Phases of one angle are wrapped to one phase. -/
theorem wrap_eq_wrap {p q : ℚ} (h : SameAngle p q) : wrap q = wrap p := by
  obtain ⟨turns, rfl⟩ := h
  have hCeil : ⌈(p + 360 * turns - 180) / 360⌉ = ⌈(p - 180) / 360⌉ + turns := by
    rw [← Int.ceil_add_intCast]
    congr 1
    ring
  show p + 360 * turns - 360 * (⌈(p + 360 * turns - 180) / 360⌉ : ℚ) =
    p - 360 * (⌈(p - 180) / 360⌉ : ℚ)
  rw [hCeil]
  push_cast
  ring

theorem map_wrap_eq {phases values : List ℚ} (h : List.Forall₂ SameAngle phases values) :
    values.map wrap = phases.map wrap := by
  induction h with
  | nil => rfl
  | cons hFirst _ ih => rw [List.map_cons, List.map_cons, wrap_eq_wrap hFirst, ih]

/-! ## Unwound phases -/

/-- Where no value differs from its phase, no offset is left. -/
theorem unmoved_of_eq {phases : List ℚ} {windings : List (Winding ℚ)}
    (hTurned : List.Forall₂ Turned phases windings) (h : windings.map (·.value) = phases) :
    windings.any (fun w => !(w.offset == 0)) = false := by
  induction hTurned with
  | nil => rfl
  | @cons phase w phases windings hFirst _ ih =>
    obtain ⟨hHere, hRest⟩ := List.cons.inj h
    have hOffset : w.offset = 0 := by
      have hSum : phase + w.offset = phase := hFirst.value_eq.symm.trans hHere
      exact add_eq_left.mp hSum
    have hZero : (w.offset == 0) = true := (ExactScalar.beq_iff _ _).mpr hOffset
    rw [List.any_cons, hZero, ih hRest]
    rfl

/-- Some phase was moved if and only if some value differs. -/
theorem unwrap_moved_iff (phases : List ℚ) :
    (unwrap phases).2 = true ↔ (unwrap phases).1 ≠ phases := by
  constructor
  · intro hMoved hSame
    have hUnmoved : (unwrap phases).2 = false := unmoved_of_eq (turned_unwrap phases) hSame
    exact Bool.false_ne_true (hUnmoved.symm.trans hMoved)
  · intro hDiffers
    by_contra hUnmoved
    exact hDiffers (unwrap_of_unmoved (Bool.eq_false_of_not_eq_true hUnmoved))

/-- A value within half a turn is left where it is. -/
theorem settle_of_near (h : |w.value - before| ≤ 180) : settle before w = w := by
  obtain ⟨hBelow, hAbove⟩ := abs_le.mp h
  have hLowers : Lowers before 0 w w := .done (not_lt.mpr hAbove)
  have hRaises : Raises before 0 w w := .done (not_lt.mpr hBelow)
  rw [settle, lowerTo_eq hLowers (Nat.zero_le _), raiseTo_eq hRaises (Nat.zero_le _)]

theorem unwindFrom_of_isChain {value : ℚ} {phases : List ℚ}
    (h : (value :: phases).IsChain fun p q => |q - p| ≤ 180) :
    (unwindFrom ⟨0, value⟩ phases).map (·.value) = phases := by
  induction phases generalizing value with
  | nil => rfl
  | cons phase rest ih =>
    obtain ⟨hNear, hRest⟩ := List.isChain_cons_cons.mp h
    have hSettled : settle value ⟨0, phase + 0⟩ = ⟨0, phase⟩ := by
      rw [add_zero]
      exact settle_of_near hNear
    rw [unwindFrom, hSettled, List.map_cons, ih hRest]

/-- Phases have to be moved if and only if some neighbours are more than half a turn apart, or the
first one is from 0. -/
theorem unwrap_moved_iff_not_isChain (phases : List ℚ) :
    (unwrap phases).2 = true ↔ ¬ (0 :: phases).IsChain fun p q => |q - p| ≤ 180 := by
  rw [unwrap_moved_iff]
  refine not_congr ⟨fun hSame => ?_, fun hChain => unwindFrom_of_isChain hChain⟩
  have hUnwound : (0 :: (unwrap phases).1).IsChain fun p q => |q - p| ≤ 180 :=
    isChain_unwindFrom ⟨0, 0⟩ phases
  rwa [hSame] at hUnwound

end Exact

/-- **Unwinding goes by whole turns to the phase nearest to the one before.**  In exact numbers its
loops end, whatever the phases are.  There are as many values as phases, each is its phase up to
whole turns, no two neighbours are more than half a turn apart, nor is the first one from 0, and the
list is told to be moved if and only if some value is.  Wrapping leads back to the wrapped phase,
which is the one of its angle in `(-180, 180]`. -/
theorem unwrap_winds (phases : List ℚ) :
    Unwinds ⟨0, 0⟩ phases (unwindFrom ⟨0, 0⟩ phases) ∧
    (unwrap phases).1.length = phases.length ∧
    List.Forall₂ SameAngle phases (unwrap phases).1 ∧
    (0 :: (unwrap phases).1).IsChain (fun p q => |q - p| ≤ 180) ∧
    ((unwrap phases).2 = true ↔ (unwrap phases).1 ≠ phases) ∧
    (unwrap phases).1.map wrap = phases.map wrap ∧
    ∀ phase : ℚ, -180 < wrap phase ∧ wrap phase ≤ 180 ∧ SameAngle phase (wrap phase) := by
  have hSame := sameAngle_unwrap phases
  refine ⟨unwinds_unwindFrom ⟨0, 0⟩ phases, hSame.length_eq.symm, hSame,
    isChain_unwindFrom ⟨0, 0⟩ phases, unwrap_moved_iff phases, map_wrap_eq hSame, ?_⟩
  intro phase
  exact ⟨(wrap_mem phase).1, (wrap_mem phase).2, sameAngle_wrap phase⟩

end InstrumentResponse.Phase
