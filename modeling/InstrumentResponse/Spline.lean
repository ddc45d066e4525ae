import InstrumentResponse.Fault

/-!
# Natural cubic splines

Through points with increasing abscissas runs one twice differentiable curve that is cubic between
neighbouring points and has no curvature at both ends.  `Spline.fit` finds its curvatures at the
points, by eliminating the tridiagonal system of equations between them from the left and
substituting back from the right; `Spline.evaluate` reads the curve off between two knots.
-/

namespace InstrumentResponse

/-- A point of a curve, with its second derivative there. -/
structure Knot (α : Type) where
  x : α
  y : α
  curvature : α
deriving DecidableEq, Repr

/-- A curve, given by its knots from left to right. -/
structure Spline (α : Type) where
  knots : List (Knot α)
deriving DecidableEq, Repr

namespace Spline

variable {α : Type} [Scalar α]

/-- An eliminated equation: a curvature is `factor` times the next one, plus `constant`. -/
structure Equation (α : Type) where
  factor : α
  constant : α

/-- The equation of a curve without curvature. -/
def Equation.flat : Equation α := ⟨0, 0⟩

/-- The weight of the curvature on the left in the equation of a point: the share of the interval
before it in both intervals around it. -/
def leftWeight (x₀ x₁ x₂ : α) : α := (x₁ - x₀) / (x₂ - x₀)

/-- What is left of the coefficient of a curvature once the one before is eliminated. -/
def pivot (before : Equation α) (x₀ x₁ x₂ : α) : α := leftWeight x₀ x₁ x₂ * before.factor + 2

/-- The change of slope of the line through three points. -/
def bend (p₀ p₁ p₂ : α × α) : α :=
  (p₂.2 - p₁.2) / (p₂.1 - p₁.1) - (p₁.2 - p₀.2) / (p₁.1 - p₀.1)

/-- The equation of the second of three neighbouring points, from that of the first. -/
def eliminate (before : Equation α) (p₀ p₁ p₂ : α × α) : Equation α :=
  let weight := leftWeight p₀.1 p₁.1 p₂.1
  let p := pivot before p₀.1 p₁.1 p₂.1
  ⟨(weight - 1) / p, (6 * bend p₀ p₁ p₂ / (p₂.1 - p₀.1) - weight * before.constant) / p⟩

/-- The equations of the inner points. -/
def sweep (before : Equation α) : List (α × α) → List (Equation α)
  | p₀ :: p₁ :: p₂ :: rest =>
    let equation := eliminate before p₀ p₁ p₂
    equation :: sweep equation (p₁ :: p₂ :: rest)
  | _ => []

/-- The curvatures that solve some equations, with 0 after the last one. -/
def backSubstitute : List (Equation α) → List α
  | [] => [0]
  | equation :: rest =>
    match backSubstitute rest with
    | [] => []
    | m :: ms => (equation.factor * m + equation.constant) :: m :: ms

/-- The curvatures at some points. -/
def curvatures (points : List (α × α)) : List α :=
  backSubstitute (Equation.flat :: sweep Equation.flat points)

/-- The first abscissa that does not exceed the one before it, with its index, where `index` is
that of the first one. -/
def disorder? (index : Nat) : List α → Option (Nat × α × α)
  | x₀ :: x₁ :: rest => if x₁ ≤ x₀ then some (index + 1, x₁, x₀) else disorder? (index + 1) (x₁ :: rest)
  | _ => none

/-- The spline through points with increasing abscissas. -/
def fit (xs ys : List α) : Except (ConfigFault α) (Spline α) :=
  if xs.length ≠ ys.length then .error (.knotCounts ys.length xs.length)
  else if xs.length < 2 then .error .fewKnots
  else
    match disorder? 0 xs with
    | some (i, x, before) => .error (.knotOrder i x before)
    | none =>
      let points := xs.zip ys
      .ok ⟨points.zipWith (fun p m => ⟨p.1, p.2, m⟩) (curvatures points)⟩

/-- The value at `x` of the cubic between two knots. -/
def between (k₀ k₁ : Knot α) (x : α) : α :=
  let h := k₁.x - k₀.x
  let a := (k₁.x - x) / h
  let b := (x - k₀.x) / h
  a * k₀.y + b * k₁.y +
    ((a * a * a - a) * k₀.curvature + (b * b * b - b) * k₁.curvature) * h * h / 6

/-- The value at `x` of the cubic on the last of some intervals that starts at or before `x`, on the
first one if there is none. -/
def evaluateFrom (x : α) (k₀ k₁ : Knot α) : List (Knot α) → α
  | [] => between k₀ k₁ x
  | k₂ :: rest => if k₁.x ≤ x then evaluateFrom x k₁ k₂ rest else between k₀ k₁ x

/-- The value of a spline at `x`, beyond its ends on the outermost cubics. -/
def evaluate (s : Spline α) (x : α) : α :=
  match s.knots with
  | k₀ :: k₁ :: rest => evaluateFrom x k₀ k₁ rest
  | _ => 0

end Spline

end InstrumentResponse
