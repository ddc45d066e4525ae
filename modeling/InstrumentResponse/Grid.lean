import InstrumentResponse.Fault
import InstrumentResponse.Text.Capital

/-!
# Grids of frequencies

A grid has a number of frequencies between two bounds, at equal distances or at equal ratios.
-/

namespace InstrumentResponse

/-- How the frequencies of a grid are spaced. -/
inductive Spacing where
  | logarithmic
  | linear
deriving DecidableEq, Repr, Inhabited

/-- The spacing of a name in any case. -/
def Spacing.read (name : String) : Except String Spacing :=
  match Text.lowerAscii name with
  | "log" => .ok logarithmic
  | "lin" | "linear" => .ok linear
  | other => .error ("unknown spacing '" ++ other ++ "', expected log or lin")

/-- A grid of frequencies between two bounds, given in any order. -/
structure Grid (α : Type) where
  first : α
  last : α
  count : Nat
  spacing : Spacing
deriving DecidableEq, Repr

namespace Grid

variable {α : Type}

/-- The bounds, the lower one first. -/
def bounds [Scalar α] (g : Grid α) : α × α :=
  if g.last < g.first then (g.last, g.first) else (g.first, g.last)

/-- Numbers at equal distances from `low` on, the last one `high` if there are several. -/
def evenly [Scalar α] (low high : α) (count : Nat) : List α :=
  let step := if 1 < count then (high - low) / ((count - 1 : Nat) : α) else 0
  (List.range count).map fun (i : Nat) => low + step * (i : α)

/-- The frequencies of a grid. -/
def frequencies [Analytic α] (g : Grid α) : Except (ConfigFault α) (List α) :=
  let (low, high) := g.bounds
  if g.count = 0 then .error .emptyGrid
  else if !Scalar.isFinite low || !Scalar.isFinite high then .error (.boundsNotFinite low high)
  else
    match g.spacing with
    | .linear => .ok (evenly low high g.count)
    | .logarithmic =>
      if low ≤ 0 then .error .lowBoundNotPositive
      else if g.count = 1 then .ok [low]
      else
        .ok ((evenly (Analytic.log10 low) (Analytic.log10 high) g.count).map (Analytic.pow 10))

end Grid

end InstrumentResponse
