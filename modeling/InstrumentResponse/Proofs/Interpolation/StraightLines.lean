import InstrumentResponse.Proofs.Interpolation.Knots

/-!
# Points on a straight line

Through points on a straight line runs this line: nothing bends at the points, the elimination finds
no curvature, and every cubic is the line, between the points and beyond them.

* `bend_eq_zero`, `constant_eliminate`: one step of the sweep; `constant_of_mem_sweep`: all of them.
* `curvatures_eq_zero`: substituting back.
* `exists_evaluate_eq_between`: the two neighbouring knots whose cubic is read off, for every
  abscissa.
* `between_of_line`: a cubic without curvature.
* `exists_fit_line`: the curve.
-/

namespace InstrumentResponse.Spline

variable {α : Type} [ExactScalar α]

/-! ## Curvatures -/

section Curvatures

variable {slope offset : α} {points : List (α × α)} {before e : Equation α} {p₀ p₁ p₂ : α × α}

/-- The points are those of a straight line. -/
def OnLine (slope offset : α) (points : List (α × α)) : Prop :=
  ∀ p ∈ points, p.2 = slope * p.1 + offset

theorem slope_between (h₀ : p₀.2 = slope * p₀.1 + offset) (h₁ : p₁.2 = slope * p₁.1 + offset)
    (hOrder : p₀.1 < p₁.1) : (p₁.2 - p₀.2) / (p₁.1 - p₀.1) = slope := by
  have hWidth : p₁.1 - p₀.1 ≠ 0 := sub_ne_zero.mpr hOrder.ne'
  rw [div_eq_iff hWidth, h₀, h₁]
  ring

theorem bend_eq_zero (hLine : OnLine slope offset [p₀, p₁, p₂]) (h₀ : p₀.1 < p₁.1)
    (h₁ : p₁.1 < p₂.1) : bend p₀ p₁ p₂ = 0 := by
  simp only [OnLine, List.forall_mem_cons] at hLine
  obtain ⟨hFirst, hSecond, hThird, -⟩ := hLine
  rw [bend, slope_between hSecond hThird h₁, slope_between hFirst hSecond h₀, sub_self]

theorem constant_eliminate (hBefore : before.constant = 0) (hBend : bend p₀ p₁ p₂ = 0) :
    (eliminate before p₀ p₁ p₂).constant = 0 := by
  simp only [eliminate, hBefore, hBend, mul_zero, zero_div, sub_self]

/-- Nothing bends at the points, so no equation of the sweep has a constant. -/
theorem constant_of_mem_sweep (hLine : OnLine slope offset points)
    (hOrder : (points.map Prod.fst).Pairwise (· < ·)) (hBefore : before.constant = 0)
    (he : e ∈ sweep before points) : e.constant = 0 := by
  induction points generalizing before with
  | nil => cases he
  | cons p₀ points ih =>
    obtain ⟨hFirst, hRest⟩ := List.pairwise_cons.mp hOrder
    rcases points with _ | ⟨p₁, _ | ⟨p₂, rest⟩⟩
    · cases he
    · cases he
    · have h₀ : p₀.1 < p₁.1 := hFirst _ List.mem_cons_self
      have h₁ : p₁.1 < p₂.1 := (List.pairwise_cons.mp hRest).1 _ List.mem_cons_self
      have hThree : OnLine slope offset [p₀, p₁, p₂] := by
        intro p hp
        exact hLine p (by simp only [List.mem_cons] at hp ⊢; tauto)
      have hNext := constant_eliminate hBefore (bend_eq_zero hThree h₀ h₁)
      obtain rfl | hLater := List.mem_cons.mp he
      · exact hNext
      · exact ih (fun p hp => hLine p (List.mem_cons_of_mem _ hp)) hRest hNext hLater

/-- Equations without constants have no curvature as their solution. -/
theorem backSubstitute_eq_zero {equations : List (Equation α)}
    (h : ∀ e ∈ equations, e.constant = 0) : ∀ m ∈ backSubstitute equations, m = 0 := by
  induction equations with
  | nil =>
    intro m hm
    rw [List.mem_singleton.mp hm, ExactScalar.numeral_zero]
  | cons e rest ih =>
    obtain ⟨m, ms, hRest, hAll⟩ := backSubstitute_cons e rest
    have hZero := ih fun e' he' => h e' (List.mem_cons_of_mem _ he')
    rw [hRest] at hZero
    rw [hAll, List.forall_mem_cons]
    refine ⟨?_, hZero⟩
    rw [hZero m List.mem_cons_self, h e List.mem_cons_self, mul_zero, add_zero]

theorem curvatures_eq_zero (hLine : OnLine slope offset points)
    (hOrder : (points.map Prod.fst).Pairwise (· < ·)) : ∀ m ∈ curvatures points, m = 0 := by
  have hFlat : (Equation.flat : Equation α).constant = 0 := ExactScalar.numeral_zero
  apply backSubstitute_eq_zero
  intro e he
  obtain rfl | hSwept := List.mem_cons.mp he
  · exact hFlat
  · exact constant_of_mem_sweep hLine hOrder hFlat hSwept

end Curvatures

/-! ## Cubics -/

section Cubics

variable {slope offset : α} {k₀ k₁ : Knot α}

/-- Whatever `x` is, the cubic between two neighbouring knots is read off: `x` is between them, or
beyond the end of the curve that one of them stands at. -/
theorem exists_evaluateFrom_eq_between (x : α) (k₀ k₁ : Knot α) (rest : List (Knot α)) :
    ∃ i a b, (k₀ :: k₁ :: rest)[i]? = some a ∧ (k₀ :: k₁ :: rest)[i + 1]? = some b ∧
      (a.x ≤ x ∨ i = 0) ∧ (x < b.x ∨ i = rest.length) ∧
      evaluateFrom x k₀ k₁ rest = between a b x := by
  induction rest generalizing k₀ k₁ with
  | nil => exact ⟨0, k₀, k₁, rfl, rfl, Or.inr rfl, Or.inr rfl, rfl⟩
  | cons k₂ rest ih =>
    rw [evaluateFrom]
    by_cases hReached : k₁.x ≤ x
    · obtain ⟨i, a, b, ha, hb, hFrom, hTo, hValue⟩ := ih k₁ k₂
      refine ⟨i + 1, a, b, ha, hb, Or.inl ?_, ?_, ?_⟩
      · obtain hFrom | rfl := hFrom
        · exact hFrom
        · cases ha
          exact hReached
      · obtain hTo | rfl := hTo
        · exact Or.inl hTo
        · exact Or.inr rfl
      · rw [if_pos hReached, hValue]
    · exact ⟨0, k₀, k₁, rfl, rfl, Or.inr rfl, Or.inl (not_le.mp hReached), if_neg hReached⟩

theorem exists_evaluate_eq_between {s : Spline α} (hTwo : 2 ≤ s.knots.length) (x : α) :
    ∃ i a b, s.knots[i]? = some a ∧ s.knots[i + 1]? = some b ∧
      (a.x ≤ x ∨ i = 0) ∧ (x < b.x ∨ i + 2 = s.knots.length) ∧ s.evaluate x = between a b x := by
  rcases s with ⟨_ | ⟨k₀, _ | ⟨k₁, rest⟩⟩⟩
  · simp at hTwo
  · simp at hTwo
  · obtain ⟨i, a, b, ha, hb, hFrom, hTo, hValue⟩ := exists_evaluateFrom_eq_between x k₀ k₁ rest
    refine ⟨i, a, b, ha, hb, hFrom, ?_, hValue⟩
    simpa using hTo

/-- A cubic without curvature between two points of a line is the line, on both sides too. -/
theorem between_of_line (hOrder : k₀.x < k₁.x) (h₀ : k₀.y = slope * k₀.x + offset)
    (h₁ : k₁.y = slope * k₁.x + offset) (hFlat₀ : k₀.curvature = 0) (hFlat₁ : k₁.curvature = 0)
    (x : α) : between k₀ k₁ x = slope * x + offset := by
  have hWidth : k₁.x - k₀.x ≠ 0 := sub_ne_zero.mpr hOrder.ne'
  have hWeights : (k₁.x - x) / (k₁.x - k₀.x) * k₀.y + (x - k₀.x) / (k₁.x - k₀.x) * k₁.y =
      slope * x + offset := by
    rw [h₀, h₁]
    field_simp
    ring
  simp only [between, hFlat₀, hFlat₁, mul_zero, add_zero, zero_mul, zero_div]
  exact hWeights

end Cubics

/-! ## Curves -/

section Curves

variable {slope offset : α}

/-- A curve without curvature through points of a line is the line. -/
theorem evaluate_of_line {s : Spline α} (hTwo : 2 ≤ s.knots.length)
    (hOrder : (s.knots.map (·.x)).Pairwise (· < ·))
    (hLine : ∀ k ∈ s.knots, k.y = slope * k.x + offset) (hFlat : ∀ k ∈ s.knots, k.curvature = 0)
    (x : α) : s.evaluate x = slope * x + offset := by
  obtain ⟨i, a, b, ha, hb, -, -, hValue⟩ := exists_evaluate_eq_between hTwo x
  have haMem := List.mem_of_getElem? ha
  have hbMem := List.mem_of_getElem? hb
  have hNeighbours : a.x < b.x := lt_of_neighbours hOrder ha hb
  rw [hValue]
  exact between_of_line hNeighbours (hLine a haMem) (hLine b hbMem) (hFlat a haMem) (hFlat b hbMem) x

omit [ExactScalar α] in
theorem mem_knots {points : List (α × α)} {ms : List α} {k : Knot α}
    (h : k ∈ points.zipWith (fun p m => (⟨p.1, p.2, m⟩ : Knot α)) ms) :
    (k.x, k.y) ∈ points ∧ k.curvature ∈ ms := by
  rw [← List.map_uncurry_zip_eq_zipWith] at h
  obtain ⟨⟨p, m⟩, hMem, rfl⟩ := List.mem_map.mp h
  exact List.of_mem_zip hMem

theorem onLine_zip_map (slope offset : α) (xs : List α) :
    OnLine slope offset (xs.zip (xs.map fun x => slope * x + offset)) := by
  intro p hp
  rw [← List.map_prod_left_eq_zip] at hp
  obtain ⟨x, -, rfl⟩ := List.mem_map.mp hp
  rfl

/-- **The spline through points of a straight line is this line**, at the points, between them and
beyond them, wherever they are. -/
theorem exists_fit_line {xs : List α} (hTwo : 2 ≤ xs.length) (hOrder : xs.Pairwise (· < ·))
    (slope offset : α) : ∃ s, fit xs (xs.map fun x => slope * x + offset) = .ok s ∧
      ∀ x, s.evaluate x = slope * x + offset := by
  have hLength : xs.length = (xs.map fun x => slope * x + offset).length := by simp
  have hLine := onLine_zip_map slope offset xs
  have hAbscissas := List.map_fst_zip hLength.le
  refine ⟨_, fit_eq_ok hLength hTwo hOrder, ?_⟩
  generalize xs.zip (xs.map fun x => slope * x + offset) = points at hLine hAbscissas ⊢
  subst hAbscissas
  have hFlat := curvatures_eq_zero hLine hOrder
  have hCurvatures : points.length = (curvatures points).length :=
    (length_curvatures (by simpa using hTwo)).symm
  apply evaluate_of_line
  · simpa [← hCurvatures] using hTwo
  · rwa [map_knots (q := Knot.x) hCurvatures fun _ _ => rfl]
  · intro k hk
    exact hLine _ (mem_knots hk).1
  · intro k hk
    exact hFlat _ (mem_knots hk).2

/-- The line is also read off before the first point and behind the last one. -/
theorem exists_fit_line_unevenPoints :
    2 ≤ ([1, 2, 4, 8] : List ℚ).length ∧ ([1, 2, 4, 8] : List ℚ).Pairwise (· < ·) ∧
      ∃ s : Spline ℚ, fit [1, 2, 4, 8] [2, 5, 11, 23] = .ok s ∧
        s.evaluate (1 / 2) = 1 / 2 ∧ s.evaluate 3 = 8 ∧ s.evaluate 4 = 11 ∧ s.evaluate 9 = 26 := by
  have hTwo : 2 ≤ ([1, 2, 4, 8] : List ℚ).length := by decide
  have hOrder : ([1, 2, 4, 8] : List ℚ).Pairwise (· < ·) := by decide +kernel
  have hPoints : [2, 5, 11, 23] = ([1, 2, 4, 8] : List ℚ).map fun x => 3 * x + -1 := by norm_num
  obtain ⟨s, hFit, hValue⟩ := exists_fit_line hTwo hOrder 3 (-1)
  refine ⟨hTwo, hOrder, s, hPoints ▸ hFit, ?_, ?_, ?_, ?_⟩ <;> rw [hValue] <;> norm_num

end Curves

end InstrumentResponse.Spline
