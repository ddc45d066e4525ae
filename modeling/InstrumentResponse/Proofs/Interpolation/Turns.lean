import Mathlib.Tactic.Ring
import InstrumentResponse.Phase
import InstrumentResponse.Proofs.Scalar.Exact

/-!
# Whole turns

Wrapping and unwinding change a phase by whole turns only.

* `Phase.SameAngle`: two phases that differ by whole turns.
* `Phase.sameAngle_wrap`: a phase and its wrapped form.
* `Phase.Winding.Turned`: a winding of a phase; `Phase.Winding.Turned.settle`: it stays one while it
  is settled next to another phase.
* `Phase.turned_unwindFrom`: the windings of some phases.
* `Phase.sameAngle_unwrap`, `Phase.unwrap_of_unmoved`: the unwound phases.
-/

namespace InstrumentResponse.Phase

/-- Two phases differ by whole turns. -/
def SameAngle (p q : ℚ) : Prop := ∃ turns : ℤ, q = p + 360 * turns

theorem sameAngle_wrap (phase : ℚ) : SameAngle phase (wrap phase) := by
  refine ⟨-⌈(phase - 180) / 360⌉, ?_⟩
  show phase - 360 * (⌈(phase - 180) / 360⌉ : ℚ) = _
  push_cast
  ring

theorem SameAngle.trans {p q r : ℚ} (h : SameAngle p q) (h' : SameAngle q r) : SameAngle p r := by
  obtain ⟨m, rfl⟩ := h
  obtain ⟨n, rfl⟩ := h'
  refine ⟨m + n, ?_⟩
  push_cast
  ring

namespace Winding

/-- A winding of a phase: what it was moved by is a number of whole turns. -/
structure Turned (phase : ℚ) (w : Winding ℚ) : Prop where
  offset_eq : ∃ turns : ℤ, w.offset = 360 * turns
  value_eq : w.value = phase + w.offset

variable {phase : ℚ} {w : Winding ℚ}

theorem Turned.lower (h : Turned phase w) : Turned phase w.lower := by
  obtain ⟨⟨turns, hOffset⟩, hValue⟩ := h
  refine ⟨⟨turns - 1, ?_⟩, ?_⟩
  · show w.offset - 360 = _
    rw [hOffset]
    push_cast
    ring
  · show w.value - 360 = phase + (w.offset - 360)
    rw [hValue]
    ring

theorem Turned.raise (h : Turned phase w) : Turned phase w.raise := by
  obtain ⟨⟨turns, hOffset⟩, hValue⟩ := h
  refine ⟨⟨turns + 1, ?_⟩, ?_⟩
  · show w.offset + 360 = _
    rw [hOffset]
    push_cast
    ring
  · show w.value + 360 = phase + (w.offset + 360)
    rw [hValue]
    ring

theorem Turned.lowerTo (h : Turned phase w) (before : ℚ) (fuel : Nat) :
    Turned phase (lowerTo before fuel w) := by
  induction fuel generalizing w with
  | zero => exact h
  | succ fuel ih =>
    rw [Winding.lowerTo]
    split
    · exact ih h.lower
    · exact h

theorem Turned.raiseTo (h : Turned phase w) (before : ℚ) (fuel : Nat) :
    Turned phase (raiseTo before fuel w) := by
  induction fuel generalizing w with
  | zero => exact h
  | succ fuel ih =>
    rw [Winding.raiseTo]
    split
    · exact ih h.raise
    · exact h

theorem Turned.settle (h : Turned phase w) (before : ℚ) : Turned phase (settle before w) :=
  (h.lowerTo before _).raiseTo before _

end Winding

open Winding

/-- Each phase has its winding; the offset is carried from one to the next. -/
theorem turned_unwindFrom {before : Winding ℚ} (h : ∃ turns : ℤ, before.offset = 360 * turns)
    (phases : List ℚ) : List.Forall₂ Turned phases (unwindFrom before phases) := by
  induction phases generalizing before with
  | nil => exact .nil
  | cons phase rest ih =>
    have hStart : Turned phase ⟨before.offset, phase + before.offset⟩ := ⟨h, rfl⟩
    have hSettled := hStart.settle before.value
    exact .cons hSettled (ih hSettled.offset_eq)

theorem turned_unwrap (phases : List ℚ) :
    List.Forall₂ Turned phases (unwindFrom ⟨0, 0⟩ phases) :=
  turned_unwindFrom ⟨0, by simp⟩ phases

/-- An unwound phase is the tabulated one up to whole turns. -/
theorem sameAngle_unwrap (phases : List ℚ) :
    List.Forall₂ SameAngle phases (unwrap phases).1 := by
  refine List.forall₂_map_right_iff.mpr ((turned_unwrap phases).imp fun phase w h => ?_)
  obtain ⟨turns, hOffset⟩ := h.offset_eq
  exact ⟨turns, by rw [h.value_eq, hOffset]⟩

/-- Where no phase had to be moved, the unwound phases are the tabulated ones. -/
theorem unwrap_of_unmoved {phases : List ℚ} (h : (unwrap phases).2 = false) :
    (unwrap phases).1 = phases := by
  have hTurned := turned_unwrap phases
  change (unwindFrom ⟨0, 0⟩ phases).any (fun w => !(w.offset == 0)) = false at h
  show (unwindFrom ⟨0, 0⟩ phases).map (·.value) = phases
  generalize unwindFrom ⟨0, 0⟩ phases = windings at h hTurned ⊢
  induction hTurned with
  | nil => rfl
  | @cons phase w phases windings hFirst _ ih =>
    obtain ⟨hHere, hRest⟩ := Bool.or_eq_false_iff.mp h
    rw [Bool.not_eq_false', ExactScalar.beq_iff] at hHere
    have hOffset : w.offset = 0 := hHere
    rw [List.map_cons, ih hRest, hFirst.value_eq, hOffset, add_zero]

end InstrumentResponse.Phase
