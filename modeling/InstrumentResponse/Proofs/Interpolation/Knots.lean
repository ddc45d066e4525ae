import Mathlib.Data.List.Chain
import Mathlib.Tactic.FieldSimp
import Mathlib.Tactic.Ring
import InstrumentResponse.Proofs.Scalar.Exact
import InstrumentResponse.Spline

/-!
# A spline runs through its knots

Whatever curvatures the elimination finds, the cubics to the left and to the right of a knot take
its ordinate there, so that the curve runs through all points that it was fitted to.

* `length_curvatures`: there is a curvature for each point.
* `disorder?_eq_none`: increasing abscissas are in order.
* `between_left`, `between_right`: the ends of one cubic.
* `evaluateFrom_knot`: the cubic that is picked at a knot ends or starts there.
* `fit_eq_ok`, `exists_fit`: a fitted curve, and its values at its own abscissas.
-/

namespace InstrumentResponse.Spline

variable {α : Type}

/-! ## Fitting -/

section Fit

variable [Scalar α]

theorem length_sweep (before : Equation α) (points : List (α × α)) :
    (sweep before points).length = points.length - 2 := by
  induction points generalizing before with
  | nil => rfl
  | cons p₀ points ih =>
    rcases points with _ | ⟨p₁, _ | ⟨p₂, rest⟩⟩
    · rfl
    · rfl
    · show (sweep _ (p₁ :: p₂ :: rest)).length + 1 = _
      rw [ih]
      rfl

theorem length_backSubstitute (equations : List (Equation α)) :
    (backSubstitute equations).length = equations.length + 1 := by
  induction equations with
  | nil => rfl
  | cons equation rest ih =>
    rw [backSubstitute]
    cases hRest : backSubstitute rest with
    | nil =>
      rw [hRest] at ih
      cases ih
    | cons m ms =>
      rw [hRest] at ih
      rw [List.length_cons, ih, List.length_cons]

/-- Substituting back adds one curvature in front of those of the later equations. -/
theorem backSubstitute_cons (e : Equation α) (rest : List (Equation α)) :
    ∃ m ms, backSubstitute rest = m :: ms ∧
      backSubstitute (e :: rest) = (e.factor * m + e.constant) :: m :: ms := by
  obtain ⟨m, ms, hRest⟩ := List.exists_cons_of_length_eq_add_one (length_backSubstitute rest)
  exact ⟨m, ms, hRest, by rw [backSubstitute, hRest]⟩

theorem length_curvatures {points : List (α × α)} (h : 2 ≤ points.length) :
    (curvatures points).length = points.length := by
  rw [curvatures, length_backSubstitute, List.length_cons, length_sweep]
  omega

end Fit

section Exact

variable [ExactScalar α]

theorem disorder?_eq_none {xs : List α} (h : xs.Pairwise (· < ·)) (index : Nat) :
    disorder? index xs = none := by
  induction xs generalizing index with
  | nil => rfl
  | cons x₀ xs ih =>
    obtain ⟨hFirst, hRest⟩ := List.pairwise_cons.mp h
    cases xs with
    | nil => rfl
    | cons x₁ rest =>
      have hInOrder : ¬ x₁ ≤ x₀ := not_le.mpr (hFirst x₁ List.mem_cons_self)
      rw [disorder?, if_neg hInOrder]
      exact ih hRest (index + 1)

theorem pairwise_of_disorder?_eq_none {xs : List α} {index : Nat}
    (h : disorder? index xs = none) : xs.Pairwise (· < ·) := by
  rw [← List.isChain_iff_pairwise]
  induction xs generalizing index with
  | nil => exact .nil
  | cons x₀ xs ih =>
    cases xs with
    | nil => exact .singleton x₀
    | cons x₁ rest =>
      by_cases hBack : x₁ ≤ x₀
      · rw [disorder?, if_pos hBack] at h
        cases h
      · rw [disorder?, if_neg hBack] at h
        exact .cons_cons (not_le.mp hBack) (ih h)

/-- Abscissas that increase do so from each place to the next. -/
theorem lt_of_neighbours {β : Type} {x : β → α} {l : List β} {i : Nat} {a b : β}
    (hOrder : (l.map x).Pairwise (· < ·)) (ha : l[i]? = some a) (hb : l[i + 1]? = some b) :
    x a < x b := by
  obtain ⟨hi, rfl⟩ := List.getElem?_eq_some_iff.mp ha
  obtain ⟨hNext, rfl⟩ := List.getElem?_eq_some_iff.mp hb
  exact List.pairwise_iff_getElem.mp (List.pairwise_map.mp hOrder) i (i + 1) hi hNext
    (Nat.lt_succ_self i)

/-- There is no curve through points whose abscissas do not increase. -/
theorem exists_fit_eq_error {xs ys : List α} (hLength : xs.length = ys.length)
    (hTwo : 2 ≤ xs.length) (hDisorder : ¬ xs.Pairwise (· < ·)) :
    ∃ fault, fit xs ys = .error fault := by
  rw [fit, if_neg (not_not.mpr hLength), if_neg (Nat.not_lt.mpr hTwo)]
  cases hFound : disorder? 0 xs with
  | none => exact absurd (pairwise_of_disorder?_eq_none hFound) hDisorder
  | some found => exact ⟨_, rfl⟩

/-! ## Cubics -/

variable {k₀ k₁ : Knot α}

theorem between_left (h : k₀.x < k₁.x) : between k₀ k₁ k₀.x = k₀.y := by
  have hWidth : k₁.x - k₀.x ≠ 0 := sub_ne_zero.mpr h.ne'
  rw [between, div_self hWidth, sub_self, zero_div]
  ring

theorem between_right (h : k₀.x < k₁.x) : between k₀ k₁ k₁.x = k₁.y := by
  have hWidth : k₁.x - k₀.x ≠ 0 := sub_ne_zero.mpr h.ne'
  rw [between, div_self hWidth, sub_self, zero_div]
  ring

/-- The cubic that is picked at a knot takes the ordinate of the knot there: it is the one after the
knot, or the last one, which ends there. -/
theorem evaluateFrom_knot {rest : List (Knot α)} {k : Knot α}
    (hOrder : ((k₀ :: k₁ :: rest).map (·.x)).Pairwise (· < ·)) (hk : k ∈ k₀ :: k₁ :: rest) :
    evaluateFrom k.x k₀ k₁ rest = k.y := by
  induction rest generalizing k₀ k₁ with
  | nil =>
    have hFirst : k₀.x < k₁.x := (List.pairwise_cons.mp hOrder).1 _ List.mem_cons_self
    obtain rfl | rfl := List.mem_pair.mp hk
    · exact between_left hFirst
    · exact between_right hFirst
  | cons k₂ rest ih =>
    obtain ⟨hFirst, hOthers⟩ := List.pairwise_cons.mp hOrder
    have hNext : k₀.x < k₁.x := hFirst _ List.mem_cons_self
    rw [evaluateFrom]
    obtain rfl | hLater := List.mem_cons.mp hk
    · rw [if_neg (not_le.mpr hNext)]
      exact between_left hNext
    · have hReached : k₁.x ≤ k.x := by
        obtain rfl | hAfter := List.mem_cons.mp hLater
        · exact le_refl _
        · exact ((List.pairwise_cons.mp hOthers).1 _ (List.mem_map_of_mem hAfter)).le
      rw [if_pos hReached]
      exact ih hOthers hLater

/-! ## Curves -/

theorem evaluate_knot {s : Spline α} (hTwo : 2 ≤ s.knots.length)
    (hOrder : (s.knots.map (·.x)).Pairwise (· < ·)) {k : Knot α} (hk : k ∈ s.knots) :
    s.evaluate k.x = k.y := by
  rcases s with ⟨_ | ⟨k₀, _ | ⟨k₁, rest⟩⟩⟩
  · cases hk
  · exact absurd hTwo (Nat.not_succ_le_self 1)
  · exact evaluateFrom_knot hOrder hk

omit [ExactScalar α] in
/-- What is read off the knots through some points, whatever their curvatures are. -/
theorem map_knots {β : Type} {points : List (α × α)} {ms : List α}
    (hLength : points.length = ms.length) {q : Knot α → β} {p : α × α → β}
    (h : ∀ point m, q ⟨point.1, point.2, m⟩ = p point) :
    (points.zipWith (fun point m => (⟨point.1, point.2, m⟩ : Knot α)) ms).map q = points.map p := by
  rw [List.map_zipWith, ← List.map_uncurry_zip_eq_zipWith]
  calc (points.zip ms).map (Function.uncurry fun point m => q ⟨point.1, point.2, m⟩)
      = ((points.zip ms).map Prod.fst).map p := by
        rw [List.map_map]
        exact List.map_congr_left fun x _ => h x.1 x.2
    _ = points.map p := by rw [List.map_fst_zip hLength.le]

/-- Through points with increasing abscissas, at least two of them, there is a curve. -/
theorem fit_eq_ok {xs ys : List α} (hLength : xs.length = ys.length) (hTwo : 2 ≤ xs.length)
    (hOrder : xs.Pairwise (· < ·)) : fit xs ys =
      .ok ⟨(xs.zip ys).zipWith (fun p m => ⟨p.1, p.2, m⟩) (curvatures (xs.zip ys))⟩ := by
  rw [fit, if_neg (not_not.mpr hLength), if_neg (Nat.not_lt.mpr hTwo), disorder?_eq_none hOrder]

/-- **A fitted curve runs through its points**, if these have increasing abscissas and there are at
least two of them. -/
theorem exists_fit {xs ys : List α} (hLength : xs.length = ys.length) (hTwo : 2 ≤ xs.length)
    (hOrder : xs.Pairwise (· < ·)) : ∃ s, fit xs ys = .ok s ∧ xs.map s.evaluate = ys := by
  have hPoints : (xs.zip ys).length = xs.length := by rw [List.length_zip, ← hLength, Nat.min_self]
  have hCurvatures : (xs.zip ys).length = (curvatures (xs.zip ys)).length :=
    (length_curvatures (hPoints ▸ hTwo)).symm
  refine ⟨_, fit_eq_ok hLength hTwo hOrder, ?_⟩
  generalize hKnots : (xs.zip ys).zipWith (fun point m => (⟨point.1, point.2, m⟩ : Knot α))
    (curvatures (xs.zip ys)) = knots
  have hAbscissas : knots.map (·.x) = xs := by
    rw [← hKnots, map_knots hCurvatures fun _ _ => rfl, List.map_fst_zip hLength.le]
  have hOrdinates : knots.map (·.y) = ys := by
    rw [← hKnots, map_knots hCurvatures fun _ _ => rfl, List.map_snd_zip hLength.ge]
  have hEnough : 2 ≤ knots.length := by
    have hSame := congrArg List.length hAbscissas
    rw [List.length_map] at hSame
    rwa [hSame]
  calc xs.map (evaluate ⟨knots⟩)
      = knots.map fun k => evaluate ⟨knots⟩ k.x := by
        conv => lhs; rw [← hAbscissas]
        exact List.map_map
    _ = knots.map (·.y) :=
        List.map_congr_left fun k hk => evaluate_knot hEnough (hAbscissas ▸ hOrder) hk
    _ = ys := hOrdinates

end Exact

end InstrumentResponse.Spline
