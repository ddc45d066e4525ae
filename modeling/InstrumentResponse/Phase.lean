import InstrumentResponse.Scalar

/-!
# Phases in degrees

A phase is known up to whole turns.

* `wrap` picks the one in `(-180, 180]`.
* `unwrap` picks, along a list, the ones that never jump by more than half a turn, starting near 0,
  and tells whether any phase had to be moved.
-/

namespace InstrumentResponse.Phase

variable {α : Type} [Scalar α]

/-- The phase in `(-180, 180]` that differs by whole turns. -/
def wrap (phase : α) : α := phase - 360 * Scalar.ceil ((phase - 180) / 360)

/-- A phase that is being unwound: the offset of whole turns added so far, and the sum. -/
structure Winding (α : Type) where
  offset : α
  value : α
deriving DecidableEq, Repr

namespace Winding

/-- One turn down. -/
def lower (w : Winding α) : Winding α := ⟨w.offset - 360, w.value - 360⟩

/-- One turn up. -/
def raise (w : Winding α) : Winding α := ⟨w.offset + 360, w.value + 360⟩

/-- Down by at most `fuel` turns, while more than half a turn above `before`. -/
def lowerTo (before : α) : Nat → Winding α → Winding α
  | 0, w => w
  | fuel + 1, w => if 180 < w.value - before then lowerTo before fuel w.lower else w

/-- Up by at most `fuel` turns, while more than half a turn below `before`. -/
def raiseTo (before : α) : Nat → Winding α → Winding α
  | 0, w => w
  | fuel + 1, w => if w.value - before < -180 then raiseTo before fuel w.raise else w

/-- As many turns as there can be to a value within half a turn of `before`.  A turn that is rounded
may move a value by less than 360 degrees, but not by less than one. -/
def turns (before : α) (w : Winding α) : Nat :=
  Scalar.wholePart (Scalar.abs (w.value - before)) + 1

/-- Unwound next to `before`. -/
def settle (before : α) (w : Winding α) : Winding α :=
  let w := lowerTo before (w.turns before) w
  raiseTo before (w.turns before) w

end Winding

/-- The unwound forms of some phases, from the offset and the value of the phase before them. -/
def unwindFrom (before : Winding α) : List α → List (Winding α)
  | [] => []
  | phase :: rest =>
    let w := Winding.settle before.value ⟨before.offset, phase + before.offset⟩
    w :: unwindFrom w rest

/-- The phases without jumps, and whether any of them was moved. -/
def unwrap (phases : List α) : List α × Bool :=
  let unwound := unwindFrom ⟨0, 0⟩ phases
  (unwound.map (·.value), unwound.any fun w => !(w.offset == 0))

end InstrumentResponse.Phase
