import InstrumentResponse.Decimal.Layout

/-!
# Ranges of stages

An evaluation takes in the stages whose sequence numbers lie between two bounds, both of which
belong to the range and may be left out.
-/

namespace InstrumentResponse

/-- A range of stage sequence numbers, with open or closed ends. -/
structure StageRange where
  start : Option Nat
  stop : Option Nat
deriving DecidableEq, Repr, Inhabited

namespace StageRange

/-- The whole chain. -/
def all : StageRange := ⟨none, none⟩

def isAll (r : StageRange) : Bool := r.start.isNone && r.stop.isNone

/-- Does a sequence number lie in a range? -/
def contains (r : StageRange) (sequence : Nat) : Bool :=
  r.start.all (· ≤ sequence) && r.stop.all (sequence ≤ ·)

/-- The two bounds in brackets. -/
def text (r : StageRange) : String :=
  match r.start, r.stop with
  | none, none => "[all stages]"
  | some a, none => "[" ++ Decimal.natural a ++ "..]"
  | none, some b => "[.." ++ Decimal.natural b ++ "]"
  | some a, some b => "[" ++ Decimal.natural a ++ ".." ++ Decimal.natural b ++ "]"

end StageRange

end InstrumentResponse
