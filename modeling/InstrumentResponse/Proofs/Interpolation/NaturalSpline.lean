import Mathlib
import InstrumentResponse.Proofs.Interpolation.Knots

/-!
# A fitted curve is the natural cubic spline

The elimination leaves one equation for each inner point, of its curvature in terms of the next one.
Its factor stays between -1 and 0, so that no pivot falls to 1, and substituting back solves the
tridiagonal system that it came from.  This system says that neighbouring cubics have one slope at
the knot between them.

* `one_lt_pivot`: the pivots; `mild_of_mem_sweep`: the factors that they are made of.
* `sweepsTo_eliminate`: one step of the sweep, `sweepsTo_of_getElem?`: all of its steps.
* `exists_curvature`: what substituting back solves.
* `joins_of_eliminate`: the equation between three curvatures, out of two eliminated ones.
* `hasDerivAt_between`: the slope of a cubic.
* `evaluate_eq_between`: the cubic that is read off between two knots.
* `exists_fit_natural`: the fitted curve.
-/

namespace InstrumentResponse.Spline

/-! ## The sweep -/

/-- An equation whose curvature follows the next one with the opposite sign, and not in full. -/
structure Equation.Mild (e : Equation ℚ) : Prop where
  neg_one_lt : -1 < e.factor
  nonpos : e.factor ≤ 0

theorem mild_flat : Equation.Mild (.flat : Equation ℚ) := ⟨neg_one_lt_zero, le_refl 0⟩

section Step

variable {e : Equation ℚ} {x₀ x₁ x₂ : ℚ}

theorem leftWeight_pos (h₀ : x₀ < x₁) (h₁ : x₁ < x₂) : 0 < leftWeight x₀ x₁ x₂ :=
  div_pos (sub_pos.mpr h₀) (sub_pos.mpr (h₀.trans h₁))

theorem leftWeight_lt_one (h₀ : x₀ < x₁) (h₁ : x₁ < x₂) : leftWeight x₀ x₁ x₂ < 1 :=
  (div_lt_one (sub_pos.mpr (h₀.trans h₁))).mpr (sub_lt_sub_right h₁ x₀)

theorem pivot_eq (e : Equation ℚ) (x₀ x₁ x₂ : ℚ) :
    pivot e x₀ x₁ x₂ = leftWeight x₀ x₁ x₂ * e.factor + 2 := rfl

theorem one_lt_pivot (he : e.Mild) (h₀ : x₀ < x₁) (h₁ : x₁ < x₂) : 1 < pivot e x₀ x₁ x₂ := by
  have hPos := leftWeight_pos h₀ h₁
  have hLt := leftWeight_lt_one h₀ h₁
  have hProduct : -leftWeight x₀ x₁ x₂ ≤ leftWeight x₀ x₁ x₂ * e.factor := by
    rw [← mul_neg_one]
    exact mul_le_mul_of_nonneg_left he.neg_one_lt.le hPos.le
  rw [pivot_eq]
  linarith only [hProduct, hLt]

theorem mild_eliminate {p₀ p₁ p₂ : ℚ × ℚ} (he : e.Mild) (h₀ : p₀.1 < p₁.1) (h₁ : p₁.1 < p₂.1) :
    (eliminate e p₀ p₁ p₂).Mild := by
  have hPivot := one_lt_pivot he h₀ h₁
  have hPos := leftWeight_pos h₀ h₁
  have hLt := leftWeight_lt_one h₀ h₁
  show Equation.Mild ⟨(leftWeight p₀.1 p₁.1 p₂.1 - 1) / pivot e p₀.1 p₁.1 p₂.1, _⟩
  constructor
  · rw [lt_div_iff₀ (zero_lt_one.trans hPivot)]
    linarith only [hPivot, hPos]
  · exact div_nonpos_of_nonpos_of_nonneg (sub_nonpos.mpr hLt.le) (zero_lt_one.trans hPivot).le

end Step

/-- One step of the sweep: the equation of the second of three points comes from that of the first,
and nothing that is divided by is 0. -/
structure SweepsTo (p₀ p₁ p₂ : ℚ × ℚ) (e e' : Equation ℚ) : Prop where
  eq_eliminate : e' = eliminate e p₀ p₁ p₂
  left_ne_zero : p₁.1 - p₀.1 ≠ 0
  right_ne_zero : p₂.1 - p₁.1 ≠ 0
  both_ne_zero : p₂.1 - p₀.1 ≠ 0
  one_lt_pivot : 1 < pivot e p₀.1 p₁.1 p₂.1

theorem sweepsTo_eliminate {p₀ p₁ p₂ : ℚ × ℚ} {e : Equation ℚ} (he : e.Mild)
    (h₀ : p₀.1 < p₁.1) (h₁ : p₁.1 < p₂.1) : SweepsTo p₀ p₁ p₂ e (eliminate e p₀ p₁ p₂) where
  eq_eliminate := rfl
  left_ne_zero := sub_ne_zero.mpr h₀.ne'
  right_ne_zero := sub_ne_zero.mpr h₁.ne'
  both_ne_zero := sub_ne_zero.mpr (h₀.trans h₁).ne'
  one_lt_pivot := one_lt_pivot he h₀ h₁

section Sweep

variable {points : List (ℚ × ℚ)} {before e : Equation ℚ} {p₀ p₁ p₂ : ℚ × ℚ} {i : Nat}

/-- Every factor of the sweep is mild, if the first one is. -/
theorem mild_of_mem_sweep (hOrder : (points.map Prod.fst).Pairwise (· < ·))
    (hBefore : before.Mild) (he : e ∈ sweep before points) : e.Mild := by
  induction points generalizing before with
  | nil => cases he
  | cons p₀ points ih =>
    obtain ⟨hFirst, hRest⟩ := List.pairwise_cons.mp hOrder
    rcases points with _ | ⟨p₁, _ | ⟨p₂, rest⟩⟩
    · cases he
    · cases he
    · have h₀ : p₀.1 < p₁.1 := hFirst _ List.mem_cons_self
      have h₁ : p₁.1 < p₂.1 := (List.pairwise_cons.mp hRest).1 _ List.mem_cons_self
      have hNext := mild_eliminate hBefore h₀ h₁
      obtain rfl | hLater := List.mem_cons.mp he
      · exact hNext
      · exact ih hRest hNext hLater

/-- The equations of the sweep come from each other. -/
theorem getElem?_sweep (he : (before :: sweep before points)[i]? = some e)
    (h₀ : points[i]? = some p₀) (h₁ : points[i + 1]? = some p₁) (h₂ : points[i + 2]? = some p₂) :
    (sweep before points)[i]? = some (eliminate e p₀ p₁ p₂) := by
  induction i generalizing before points with
  | zero =>
    rcases points with _ | ⟨_, _ | ⟨_, _ | ⟨_, rest⟩⟩⟩
    · cases h₀
    · cases h₁
    · cases h₂
    · cases he
      cases h₀
      cases h₁
      cases h₂
      rfl
  | succ i ih =>
    rcases points with _ | ⟨_, _ | ⟨_, _ | ⟨_, rest⟩⟩⟩
    · cases h₀
    · cases h₁
    · cases h₂
    · exact ih he h₀ h₁ h₂

end Sweep

/-- The equations that the curvatures at some points are found from, that of the first point
first. -/
def equations (points : List (ℚ × ℚ)) : List (Equation ℚ) := .flat :: sweep .flat points

theorem length_equations (points : List (ℚ × ℚ)) :
    (equations points).length = points.length - 2 + 1 := by
  rw [equations, List.length_cons, length_sweep]

/-- Every inner point has an equation, which comes from that of the point before. -/
theorem sweepsTo_of_getElem? {points : List (ℚ × ℚ)} {p₀ p₁ p₂ : ℚ × ℚ} {i : Nat}
    (hOrder : (points.map Prod.fst).Pairwise (· < ·)) (h₀ : points[i]? = some p₀)
    (h₁ : points[i + 1]? = some p₁) (h₂ : points[i + 2]? = some p₂) :
    ∃ e e', (equations points)[i]? = some e ∧ (equations points)[i + 1]? = some e' ∧
      SweepsTo p₀ p₁ p₂ e e' := by
  obtain ⟨e, he⟩ : ∃ e, (equations points)[i]? = some e := by
    obtain ⟨hInner, -⟩ := List.getElem?_eq_some_iff.mp h₂
    have hBound : i < (equations points).length := by
      rw [length_equations]
      omega
    exact ⟨_, List.getElem?_eq_getElem hBound⟩
  have hMild : e.Mild := by
    obtain rfl | hSwept := List.mem_cons.mp (List.mem_of_getElem? he)
    · exact mild_flat
    · exact mild_of_mem_sweep hOrder mild_flat hSwept
  exact ⟨e, _, he, getElem?_sweep he h₀ h₁ h₂,
    sweepsTo_eliminate hMild (lt_of_neighbours hOrder h₀ h₁) (lt_of_neighbours hOrder h₁ h₂)⟩

/-! ## Substituting back -/

section BackSubstitute

variable {equations : List (Equation ℚ)} {e : Equation ℚ} {i : Nat}

/-- The curvatures solve the equations. -/
theorem getElem?_backSubstitute (h : equations[i]? = some e) :
    ∃ m, (backSubstitute equations)[i + 1]? = some m ∧
      (backSubstitute equations)[i]? = some (e.factor * m + e.constant) := by
  induction equations generalizing i with
  | nil => cases h
  | cons e' rest ih =>
    obtain ⟨m, ms, hRest, hAll⟩ := backSubstitute_cons e' rest
    rw [hAll]
    cases i with
    | zero =>
      cases h
      exact ⟨m, rfl, rfl⟩
    | succ i =>
      obtain ⟨n, hNext, hThis⟩ := ih h
      rw [hRest] at hNext hThis
      exact ⟨n, hNext, hThis⟩

theorem getLast?_backSubstitute (equations : List (Equation ℚ)) :
    (backSubstitute equations).getLast? = some 0 := by
  induction equations with
  | nil => rfl
  | cons e rest ih =>
    obtain ⟨m, ms, hRest, hAll⟩ := backSubstitute_cons e rest
    rw [hAll, List.getLast?_cons_cons, ← hRest, ih]

theorem head?_curvatures (points : List (ℚ × ℚ)) : (curvatures points).head? = some 0 := by
  obtain ⟨m, ms, -, hAll⟩ := backSubstitute_cons .flat (sweep .flat points)
  have hZero : (0 : ℚ) * m + 0 = 0 := by rw [zero_mul, zero_add]
  rw [curvatures, hAll, List.head?_cons]
  exact congrArg some hZero

end BackSubstitute

/-! ## Cubics -/

/-- The slope at `x` of the cubic between two knots. -/
def slope (k₀ k₁ : Knot ℚ) (x : ℚ) : ℚ :=
  let h := k₁.x - k₀.x
  let a := (k₁.x - x) / h
  let b := (x - k₀.x) / h
  (k₁.y - k₀.y) / h + ((3 * b ^ 2 - 1) * k₁.curvature - (3 * a ^ 2 - 1) * k₀.curvature) * h / 6

/-- The cubics on both sides of a knot go on into each other: the curvatures solve the equation of
the knot, and there is one slope on both sides. -/
structure Joins (k₀ k₁ k₂ : Knot ℚ) : Prop where
  equation : (k₁.x - k₀.x) * k₀.curvature + 2 * (k₂.x - k₀.x) * k₁.curvature +
      (k₂.x - k₁.x) * k₂.curvature =
    6 * ((k₂.y - k₁.y) / (k₂.x - k₁.x) - (k₁.y - k₀.y) / (k₁.x - k₀.x))
  slope : ∃ d, HasDerivAt (between k₀ k₁) d k₁.x ∧ HasDerivAt (between k₁ k₂) d k₁.x

section Cubic

variable {k₀ k₁ k₂ : Knot ℚ}

theorem hasDerivAt_between (h : k₁.x - k₀.x ≠ 0) (x : ℚ) :
    HasDerivAt (between k₀ k₁) (slope k₀ k₁ x) x := by
  have hA : HasDerivAt (fun x => (k₁.x - x) / (k₁.x - k₀.x)) (-1 / (k₁.x - k₀.x)) x :=
    ((hasDerivAt_id x).const_sub k₁.x).div_const _
  have hB : HasDerivAt (fun x => (x - k₀.x) / (k₁.x - k₀.x)) (1 / (k₁.x - k₀.x)) x :=
    ((hasDerivAt_id x).sub_const k₀.x).div_const _
  have hLine := (hA.mul_const k₀.y).add (hB.mul_const k₁.y)
  have hBent := ((((hA.mul hA).mul hA).sub hA).mul_const k₀.curvature).add
    ((((hB.mul hB).mul hB).sub hB).mul_const k₁.curvature)
  have hScaled := ((hBent.mul_const (k₁.x - k₀.x)).mul_const (k₁.x - k₀.x)).div_const 6
  refine (hLine.add hScaled).congr_deriv ?_
  simp only [slope, Pi.mul_apply]
  field_simp
  ring

/-- Two cubics have one slope where the equation of the knot holds. -/
theorem slope_eq_slope_iff (h₀ : k₁.x - k₀.x ≠ 0) (h₁ : k₂.x - k₁.x ≠ 0) :
    slope k₀ k₁ k₁.x = slope k₁ k₂ k₁.x ↔
      (k₁.x - k₀.x) * k₀.curvature + 2 * (k₂.x - k₀.x) * k₁.curvature +
          (k₂.x - k₁.x) * k₂.curvature =
        6 * ((k₂.y - k₁.y) / (k₂.x - k₁.x) - (k₁.y - k₀.y) / (k₁.x - k₀.x)) := by
  have hLeft : slope k₀ k₁ k₁.x = (k₁.y - k₀.y) / (k₁.x - k₀.x) +
      (2 * k₁.curvature + k₀.curvature) * (k₁.x - k₀.x) / 6 := by
    simp only [slope, div_self h₀, sub_self, zero_div]
    ring
  have hRight : slope k₁ k₂ k₁.x = (k₂.y - k₁.y) / (k₂.x - k₁.x) -
      (2 * k₁.curvature + k₂.curvature) * (k₂.x - k₁.x) / 6 := by
    simp only [slope, div_self h₁, sub_self, zero_div]
    ring
  rw [hLeft, hRight]
  constructor
  · intro h
    linear_combination 6 * h
  · intro h
    linear_combination h / 6

/-- The curvatures of three neighbours that solve two eliminated equations solve the equation of the
knot in the middle. -/
theorem joins_of_eliminate {e e' : Equation ℚ}
    (h : SweepsTo (k₀.x, k₀.y) (k₁.x, k₁.y) (k₂.x, k₂.y) e e')
    (hFirst : k₀.curvature = e.factor * k₁.curvature + e.constant)
    (hSecond : k₁.curvature = e'.factor * k₂.curvature + e'.constant) : Joins k₀ k₁ k₂ := by
  obtain ⟨rfl, hLeft, hRight, hBoth, hPivot⟩ := h
  have hPivotZero : pivot e k₀.x k₁.x k₂.x ≠ 0 := (zero_lt_one.trans hPivot).ne'
  have hWeight : leftWeight k₀.x k₁.x k₂.x * (k₂.x - k₀.x) = k₁.x - k₀.x := div_mul_cancel₀ _ hBoth
  have hScaled : pivot e k₀.x k₁.x k₂.x * k₁.curvature =
      (leftWeight k₀.x k₁.x k₂.x - 1) * k₂.curvature +
        (6 * bend (k₀.x, k₀.y) (k₁.x, k₁.y) (k₂.x, k₂.y) / (k₂.x - k₀.x) -
          leftWeight k₀.x k₁.x k₂.x * e.constant) := by
    conv => lhs; rw [hSecond]
    show _ * (_ / pivot e k₀.x k₁.x k₂.x * _ + _ / pivot e k₀.x k₁.x k₂.x) = _
    field_simp
  have hEquation : (k₁.x - k₀.x) * k₀.curvature + 2 * (k₂.x - k₀.x) * k₁.curvature +
      (k₂.x - k₁.x) * k₂.curvature = 6 * bend (k₀.x, k₀.y) (k₁.x, k₁.y) (k₂.x, k₂.y) := by
    calc
      _ = (k₂.x - k₀.x) * ((leftWeight k₀.x k₁.x k₂.x * e.factor + 2) * k₁.curvature +
          leftWeight k₀.x k₁.x k₂.x * e.constant +
          (1 - leftWeight k₀.x k₁.x k₂.x) * k₂.curvature) := by
        rw [hFirst]
        linear_combination (k₂.curvature - e.factor * k₁.curvature - e.constant) * hWeight
      _ = (k₂.x - k₀.x) *
          (6 * bend (k₀.x, k₀.y) (k₁.x, k₁.y) (k₂.x, k₂.y) / (k₂.x - k₀.x)) := by
        rw [← pivot_eq, hScaled]
        ring
      _ = _ := mul_div_cancel₀ _ hBoth
  exact ⟨hEquation, _, hasDerivAt_between hLeft _,
    (slope_eq_slope_iff hLeft hRight).mpr hEquation ▸ hasDerivAt_between hRight _⟩

end Cubic

/-! ## The curve -/

/-- Between two knots, these included, the cubic between them is read off. -/
theorem evaluateFrom_eq_between {a b k₀ k₁ : Knot ℚ} {rest : List (Knot ℚ)} {i : Nat} {x : ℚ}
    (hOrder : ((a :: b :: rest).map (·.x)).Pairwise (· < ·))
    (h₀ : (a :: b :: rest)[i]? = some k₀) (h₁ : (a :: b :: rest)[i + 1]? = some k₁)
    (hFrom : k₀.x ≤ x) (hTo : x ≤ k₁.x) : evaluateFrom x a b rest = between k₀ k₁ x := by
  induction rest generalizing a b i with
  | nil =>
    cases i with
    | zero =>
      cases h₀
      cases h₁
      rfl
    | succ i => cases h₁
  | cons c rest ih =>
    obtain ⟨hFirst, hOthers⟩ := List.pairwise_cons.mp hOrder
    rw [evaluateFrom]
    cases i with
    | zero =>
      cases h₀
      cases h₁
      by_cases hEnd : k₁.x ≤ x
      · obtain rfl : x = k₁.x := le_antisymm hTo hEnd
        rw [if_pos hEnd, evaluateFrom_knot hOthers List.mem_cons_self,
          between_right (hFirst _ List.mem_cons_self)]
      · rw [if_neg hEnd]
    | succ i =>
      have hAt : (b :: c :: rest)[i]? = some k₀ := h₀
      have hReached : b.x ≤ x := by
        obtain rfl | hLater := List.mem_cons.mp (List.mem_of_getElem? hAt)
        · exact hFrom
        · exact ((List.pairwise_cons.mp hOthers).1 _ (List.mem_map_of_mem hLater)).le.trans hFrom
      rw [if_pos hReached]
      exact ih hOthers hAt h₁

theorem evaluate_eq_between {s : Spline ℚ} {k₀ k₁ : Knot ℚ} {i : Nat} {x : ℚ}
    (hOrder : (s.knots.map (·.x)).Pairwise (· < ·)) (h₀ : s.knots[i]? = some k₀)
    (h₁ : s.knots[i + 1]? = some k₁) (hFrom : k₀.x ≤ x) (hTo : x ≤ k₁.x) :
    s.evaluate x = between k₀ k₁ x := by
  rcases s with ⟨_ | ⟨a, _ | ⟨b, rest⟩⟩⟩
  · cases h₀
  · cases h₁
  · exact evaluateFrom_eq_between hOrder h₀ h₁ hFrom hTo

/-- **Fitting finds the natural cubic spline.**  Let there be as many ordinates as increasing
abscissas, at least two.  Then the sweep divides by nothing that is 0, since its pivots are greater
than 1, and there is a curve through the points whose curvatures come from substituting back: they
are 0 at both ends, and at each inner knot they solve the equation of the knot, so that the cubics
on both sides have one slope there.  These are the cubics that the curve is read off from. -/
theorem exists_fit_natural {xs ys : List ℚ} (hLength : xs.length = ys.length)
    (hTwo : 2 ≤ xs.length) (hOrder : xs.Pairwise (· < ·)) :
    (∀ i p₀ p₁ p₂, (xs.zip ys)[i]? = some p₀ → (xs.zip ys)[i + 1]? = some p₁ →
      (xs.zip ys)[i + 2]? = some p₂ →
      ∃ e e', (equations (xs.zip ys))[i]? = some e ∧ (equations (xs.zip ys))[i + 1]? = some e' ∧
        SweepsTo p₀ p₁ p₂ e e') ∧
    ∃ s, fit xs ys = .ok s ∧ s.knots.map (·.x) = xs ∧ s.knots.map (·.y) = ys ∧
      s.knots.map (·.curvature) = backSubstitute (equations (xs.zip ys)) ∧
      s.knots.head?.map (·.curvature) = some 0 ∧ s.knots.getLast?.map (·.curvature) = some 0 ∧
      (∀ i k₀ k₁ k₂, s.knots[i]? = some k₀ → s.knots[i + 1]? = some k₁ →
        s.knots[i + 2]? = some k₂ → Joins k₀ k₁ k₂) ∧
      ∀ i k₀ k₁ x, s.knots[i]? = some k₀ → s.knots[i + 1]? = some k₁ → k₀.x ≤ x → x ≤ k₁.x →
        s.evaluate x = between k₀ k₁ x := by
  have hAbscissas : (xs.zip ys).map Prod.fst = xs := List.map_fst_zip hLength.le
  have hOrdinates : (xs.zip ys).map Prod.snd = ys := List.map_snd_zip hLength.ge
  have hPoints : (xs.zip ys).length = xs.length := by rw [List.length_zip, ← hLength, Nat.min_self]
  have hFit : fit xs ys = .ok ⟨(xs.zip ys).zipWith (fun p m => ⟨p.1, p.2, m⟩)
      (curvatures (xs.zip ys))⟩ := by
    rw [fit, if_neg (not_not.mpr hLength), if_neg (Nat.not_lt.mpr hTwo), disorder?_eq_none hOrder]
  generalize xs.zip ys = points at *
  subst hAbscissas hOrdinates
  have hCurvatures : points.length = (curvatures points).length :=
    (length_curvatures (hPoints ▸ hTwo)).symm
  generalize hKnots : points.zipWith (fun p m => (⟨p.1, p.2, m⟩ : Knot ℚ)) (curvatures points) =
    knots at hFit
  have hX : knots.map (·.x) = points.map Prod.fst := hKnots ▸ map_knots hCurvatures fun _ _ => rfl
  have hY : knots.map (·.y) = points.map Prod.snd := hKnots ▸ map_knots hCurvatures fun _ _ => rfl
  have hM : knots.map (·.curvature) = curvatures points := by
    rw [← hKnots, List.map_zipWith, ← List.map_uncurry_zip_eq_zipWith]
    exact List.map_snd_zip hCurvatures.ge
  have hAt : ∀ {j : Nat} {k : Knot ℚ}, knots[j]? = some k →
      points[j]? = some (k.x, k.y) ∧ (curvatures points)[j]? = some k.curvature := by
    intro j k hk
    rw [← hKnots, List.getElem?_zipWith_eq_some] at hk
    obtain ⟨p, m, hp, hm, rfl⟩ := hk
    exact ⟨hp, hm⟩
  refine ⟨fun i p₀ p₁ p₂ => sweepsTo_of_getElem? hOrder, ⟨knots⟩, hFit, hX, hY, hM, ?_, ?_, ?_, ?_⟩
  · rw [← List.head?_map, hM, head?_curvatures]
  · rw [← List.getLast?_map, hM, curvatures, getLast?_backSubstitute]
  · intro i k₀ k₁ k₂ h₀ h₁ h₂
    obtain ⟨e, e', he, he', hStep⟩ := sweepsTo_of_getElem? hOrder (hAt h₀).1 (hAt h₁).1 (hAt h₂).1
    obtain ⟨m₁, hAt₁, hAt₀⟩ := getElem?_backSubstitute he
    obtain ⟨m₂, hAt₂, hAt₁'⟩ := getElem?_backSubstitute he'
    obtain rfl : k₁.curvature = m₁ := Option.some.inj ((hAt h₁).2.symm.trans hAt₁)
    obtain rfl : k₂.curvature = m₂ := Option.some.inj ((hAt h₂).2.symm.trans hAt₂)
    exact joins_of_eliminate hStep (Option.some.inj ((hAt h₀).2.symm.trans hAt₀))
      (Option.some.inj ((hAt h₁).2.symm.trans hAt₁'))
  · intro i k₀ k₁ x h₀ h₁
    exact evaluate_eq_between (hX ▸ hOrder) h₀ h₁

theorem exists_fit_natural_unevenPoints :
    ([0, 1, 3, 7] : List ℚ).length = ([2, 0, 1, -1] : List ℚ).length ∧
      2 ≤ ([0, 1, 3, 7] : List ℚ).length ∧ ([0, 1, 3, 7] : List ℚ).Pairwise (· < ·) ∧
      ∃ s : Spline ℚ, fit [0, 1, 3, 7] [2, 0, 1, -1] = .ok s ∧
        s.knots.map (·.curvature) = [0, 48 / 17, -33 / 34, 0] ∧
        ∀ i k₀ k₁ k₂, s.knots[i]? = some k₀ → s.knots[i + 1]? = some k₁ →
          s.knots[i + 2]? = some k₂ → Joins k₀ k₁ k₂ := by
  have hLength : ([0, 1, 3, 7] : List ℚ).length = ([2, 0, 1, -1] : List ℚ).length := rfl
  have hTwo : 2 ≤ ([0, 1, 3, 7] : List ℚ).length := by decide
  have hOrder : ([0, 1, 3, 7] : List ℚ).Pairwise (· < ·) := by decide +kernel
  obtain ⟨-, s, hFit, -, -, hSolved, -, -, hJoins, -⟩ := exists_fit_natural hLength hTwo hOrder
  have hCurvatures : backSubstitute (equations (([0, 1, 3, 7] : List ℚ).zip [2, 0, 1, -1])) =
    [0, 48 / 17, -33 / 34, 0] := by decide +kernel
  exact ⟨hLength, hTwo, hOrder, s, hFit, hSolved.trans hCurvatures, hJoins⟩

end InstrumentResponse.Spline
