import InstrumentResponse.Proofs.Scalar.Exact
import InstrumentResponse.Grid
import InstrumentResponse.Proofs.Scalar.Signs

/-!
# What grids of frequencies hold

A grid is refused if it is empty, if a bound is not finite, or if equal ratios are asked for and the
lower bound is not positive.  What is left has as many frequencies as it was asked for.

* `Grid.fault?`, `Grid.values`: the checks in their order, and what a grid holds that passes them;
  `Grid.frequencies_eq`: together they are its frequencies.
* `Grid.frequencies_reversed`: the bounds may be given in any order, in doubles as well, where two
  zeros differ in their signs.
* `EvenlySpaced`: numbers at equal distances from one bound to another;
  `Grid.evenlySpaced_evenly`: in exact numbers the frequencies of a linear grid.
* `Grid.frequencies_outcome`: when a grid is refused, and what it holds otherwise.
-/

namespace InstrumentResponse.Grid

/-! ## Checks and values -/

section Checks

variable {α : Type} [Analytic α] {g h : Grid α} {vs : List α}

/-- What is wrong with a grid. -/
def fault? (g : Grid α) : Option (ConfigFault α) :=
  if g.count = 0 then some .emptyGrid
  else if !Scalar.isFinite g.bounds.1 || !Scalar.isFinite g.bounds.2 then
    some (.boundsNotFinite g.bounds.1 g.bounds.2)
  else if g.spacing = .logarithmic ∧ g.bounds.1 ≤ 0 then some .lowBoundNotPositive
  else none

/-- The numbers of a grid that nothing is wrong with. -/
def values (g : Grid α) : List α :=
  if g.spacing = .linear then evenly g.bounds.1 g.bounds.2 g.count
  else if g.count = 1 then [g.bounds.1]
  else
    (evenly (Analytic.log10 g.bounds.1) (Analytic.log10 g.bounds.2) g.count).map (Analytic.pow 10)

theorem frequencies_eq (g : Grid α) : g.frequencies = g.fault?.elim (.ok g.values) .error := by
  unfold frequencies fault? values
  generalize g.bounds = b, g.spacing = spacing
  rcases b with ⟨low, high⟩
  dsimp only
  by_cases hEmpty : g.count = 0
  · rw [if_pos hEmpty, if_pos hEmpty]
    rfl
  · rw [if_neg hEmpty, if_neg hEmpty]
    by_cases hBounds : (!Scalar.isFinite low || !Scalar.isFinite high) = true
    · rw [if_pos hBounds, if_pos hBounds]
      rfl
    · rw [if_neg hBounds, if_neg hBounds]
      cases spacing with
      | linear => rfl
      | logarithmic =>
        dsimp only
        by_cases hLow : low ≤ 0
        · rw [if_pos hLow, if_pos ⟨rfl, hLow⟩]
          rfl
        · have hNever : ¬ (Spacing.logarithmic = .logarithmic ∧ low ≤ 0) := fun h => hLow h.2
          rw [if_neg hLow, if_neg hNever, if_neg (by decide : ¬ Spacing.logarithmic = .linear)]
          split <;> rfl

theorem frequencies_eq_ok_iff : g.frequencies = .ok vs ↔ g.fault? = none ∧ vs = g.values := by
  rw [frequencies_eq]
  cases g.fault? with
  | none => simp [eq_comm]
  | some fault => simp

theorem fault?_eq_none_iff : g.fault? = none ↔
    1 ≤ g.count ∧ Scalar.isFinite g.bounds.1 = true ∧ Scalar.isFinite g.bounds.2 = true ∧
      (g.spacing = .logarithmic → ¬ g.bounds.1 ≤ 0) := by
  rw [fault?, Nat.one_le_iff_ne_zero]
  by_cases hEmpty : g.count = 0
  · simp [hEmpty]
  · cases hLow : Scalar.isFinite g.bounds.1 with
    | false => simp [hEmpty]
    | true =>
      cases hHigh : Scalar.isFinite g.bounds.2 with
      | false => simp [hEmpty]
      | true => simp [hEmpty]

theorem length_evenly (low high : α) (count : Nat) : (evenly low high count).length = count := by
  rw [evenly, List.length_map, List.length_range]

theorem length_values (g : Grid α) : g.values.length = g.count := by
  rw [values]
  split
  · exact length_evenly ..
  · split
    · next hOne => rw [hOne, List.length_singleton]
    · rw [List.length_map, length_evenly]

/-- The same grid with its bounds given the other way round. -/
def reversed (g : Grid α) : Grid α := ⟨g.last, g.first, g.count, g.spacing⟩

/-- The bounds decide everything, whichever is given first. -/
theorem frequencies_reversed_of_bounds (hBounds : g.reversed.bounds = g.bounds) :
    g.reversed.frequencies = g.frequencies := by
  rw [frequencies_eq, frequencies_eq, fault?, fault?, values, values, hBounds]
  rfl

end Checks

/-! ## Grids of doubles -/

section Doubles

open Double (value)

variable {g : Grid Float}

theorem isFinite_bounds_iff (g : Grid Float) :
    (g.bounds.1.isFinite = true ∧ g.bounds.2.isFinite = true) ↔
      g.first.isFinite = true ∧ g.last.isFinite = true := by
  rw [bounds]
  split
  · exact and_comm
  · exact Iff.rfl

theorem value_bounds (hFirst : g.first.isFinite = true) (hLast : g.last.isFinite = true) :
    value g.bounds.1 = min (value g.first) (value g.last) := by
  rw [bounds]
  split
  · next h => exact (min_eq_right ((Double.lt_iff_value_lt hLast hFirst).mp h).le).symm
  · next h => exact (min_eq_left (not_lt.mp (mt (Double.lt_iff_value_lt hLast hFirst).mpr h))).symm

theorem bounds_pos_iff (hFirst : g.first.isFinite = true) (hLast : g.last.isFinite = true) :
    ¬ g.bounds.1 ≤ 0 ↔ 0 < g.first ∧ 0 < g.last := by
  have hLow := ((isFinite_bounds_iff g).mpr ⟨hFirst, hLast⟩).1
  rw [Double.le_iff_value_le hLow rfl, not_le, value_bounds hFirst hLast,
    Double.pos_iff_value_pos hFirst, Double.pos_iff_value_pos hLast]
  exact lt_min_iff

theorem exists_frequencies_iff (g : Grid Float) : (∃ vs, g.frequencies = .ok vs) ↔
    1 ≤ g.count ∧ g.first.isFinite = true ∧ g.last.isFinite = true ∧
      (g.spacing = .logarithmic → 0 < g.first ∧ 0 < g.last) := by
  have hExists : (∃ vs, g.frequencies = .ok vs) ↔ g.fault? = none := by
    simp only [frequencies_eq_ok_iff, exists_and_left, exists_eq, and_true]
  rw [hExists, fault?_eq_none_iff]
  refine and_congr_right fun _ => ?_
  rw [← and_assoc, ← and_assoc]
  refine (and_congr_left fun _ => isFinite_bounds_iff g).trans (and_congr_right fun hFinite => ?_)
  exact imp_congr_right fun _ => bounds_pos_iff hFinite.1 hFinite.2

/-! ### The order of the bounds -/

theorem opposed_differences :
    Double.Opposed ((0 : Float) - -0).toModel.unpack ((-0 : Float) - 0).toModel.unpack := .zeros

/-- The sign of a zero distance makes up for that of the zero that is added to. -/
theorem evenly_zeros (count : Nat) : evenly (-0 : Float) 0 count = evenly 0 (-0) count := by
  unfold evenly
  by_cases hSome : 1 < count
  · rw [if_pos hSome, if_pos hSome]
    refine List.map_congr_left fun i _ => ?_
    exact ((opposed_differences.div_ofNat (count - 1)).mul_ofNat i).add_zeros
  · rw [if_neg hSome, if_neg hSome]
    refine List.map_congr_left fun i hi => ?_
    obtain rfl : i = 0 := by
      have hLess := List.mem_range.mp hi
      omega
    decide

theorem bounds_of_not_lt {α : Type} [Analytic α] {g : Grid α} (h : ¬ g.last < g.first) :
    g.bounds = (g.first, g.last) :=
  if_neg h

/-- A zero passes or fails the checks whatever its sign. -/
theorem fault?_zeros {x y : Float} (count : Nat) (spacing : Spacing) (hUp : ¬ y < x)
    (hx : Scalar.isFinite x = true) (hy : Scalar.isFinite y = true) (hLow : x ≤ 0) :
    (⟨x, y, count, spacing⟩ : Grid Float).fault? =
      if count = 0 then some .emptyGrid
      else if spacing = .logarithmic then some .lowBoundNotPositive else none := by
  rw [fault?, bounds_of_not_lt hUp]
  simp [hx, hy, hLow]

theorem frequencies_zeros (count : Nat) (spacing : Spacing) :
    (⟨-0, 0, count, spacing⟩ : Grid Float).frequencies =
      (⟨0, -0, count, spacing⟩ : Grid Float).frequencies := by
  have hUp : ¬ (0 : Float) < -0 := by decide
  have hDown : ¬ (-0 : Float) < 0 := by decide
  rw [frequencies_eq, frequencies_eq, fault?_zeros count spacing hUp rfl rfl (by decide),
    fault?_zeros count spacing hDown rfl rfl (by decide)]
  cases spacing with
  | linear =>
    rw [values, values, bounds_of_not_lt hUp, bounds_of_not_lt hDown, if_pos rfl, if_pos rfl]
    dsimp only
    rw [evenly_zeros]
  | logarithmic =>
    split
    · rw [Option.elim_some, Option.elim_some]
    · rw [if_pos rfl, Option.elim_some, Option.elim_some]

/-- Bounds may be given in any order. -/
theorem frequencies_reversed (hFirst : g.first.isNaN = false) (hLast : g.last.isNaN = false) :
    g.reversed.frequencies = g.frequencies := by
  rcases g with ⟨first, last, count, spacing⟩
  by_cases hDown : last < first
  · refine frequencies_reversed_of_bounds ?_
    have hUp : ¬ first < last := (Double.le_iff_not_lt hLast hFirst).mp (Double.le_of_lt hDown)
    rw [bounds, bounds, if_pos hDown]
    exact if_neg hUp
  · by_cases hUp : first < last
    · refine frequencies_reversed_of_bounds ?_
      rw [bounds, bounds, if_neg hDown]
      exact if_pos hUp
    · -- neither is smaller: they are the same, or zeros
      dsimp only at hFirst hLast
      obtain rfl | ⟨s, s', hZero, hZero'⟩ := Double.eq_or_zeros_of_not_lt hFirst hLast hUp hDown
      · rfl
      · obtain rfl | rfl := Double.eq_zero_of_unpack hZero <;>
          obtain rfl | rfl := Double.eq_zero_of_unpack hZero'
        · rfl
        · exact frequencies_zeros count spacing
        · exact (frequencies_zeros count spacing).symm
        · rfl

/-- Adding a zero changes at most the sign of a zero. -/
theorem add_zero_distance {x : Float} (hx : x.isFinite = true) :
    (x + 0 * Float.ofNat 0).isFinite = true ∧ value (x + 0 * Float.ofNat 0) = value x := by
  have hRounds := Double.roundsTo_add_small hx (y := 0 * Float.ofNat 0) rfl (by decide)
  refine ⟨hRounds.isFinite, ?_⟩
  obtain ⟨r, hr⟩ : ∃ r, r = value (x + 0 * Float.ofNat 0) := ⟨_, rfl⟩
  have hZero : value (0 * Float.ofNat 0) = 0 := by rfl
  have hNearest := hRounds.nearest
  rw [← hr, hZero, add_zero] at hNearest
  have hClosest := hNearest.closest (value x) (Double.onGrid_value x)
  rw [sub_self, abs_zero] at hClosest
  rw [← hr]
  exact sub_eq_zero.mp (abs_eq_zero.mp (le_antisymm hClosest (abs_nonneg _)))

/-- One frequency is the lower bound, whichever the spacing. -/
theorem value_of_one {vs : List Float} (h : g.frequencies = .ok vs) (hOne : g.count = 1) :
    ∃ v, vs = [v] ∧ v.isFinite = true ∧ value v = min (value g.first) (value g.last) := by
  have hBounds := (exists_frequencies_iff g).mp ⟨vs, h⟩
  have hLow := ((isFinite_bounds_iff g).mpr ⟨hBounds.2.1, hBounds.2.2.1⟩).1
  obtain ⟨-, rfl⟩ := frequencies_eq_ok_iff.mp h
  rw [← value_bounds hBounds.2.1 hBounds.2.2.1, values, evenly, evenly, hOne]
  split
  · exact ⟨_, rfl, add_zero_distance hLow⟩
  · exact ⟨_, if_pos rfl, hLow, rfl⟩

end Doubles

/-! ## Linear grids in exact numbers -/

/-- Numbers at equal distances in ascending order, the first and the last of them given. -/
structure EvenlySpaced {α : Type} [ExactScalar α] (low high : α) (count : Nat) (vs : List α) :
    Prop where
  length : vs.length = count
  head : vs.head? = some low
  last : vs.getLast? = some high
  distances : vs.IsChain fun a b => b - a = (high - low) / (count - 1)
  ascending : vs.Pairwise (· ≤ ·)
  between : ∀ v ∈ vs, low ≤ v ∧ v ≤ high

section Exact

variable {α : Type} [ExactScalar α] {low high : α} {count : Nat}

/-- The distances add up from one bound to the other one. -/
theorem evenlySpaced_evenly (hBounds : low ≤ high) (hCount : 2 ≤ count) :
    EvenlySpaced low high count (evenly low high count) := by
  obtain ⟨n, rfl⟩ : ∃ n, count = n + 2 := ⟨count - 2, by omega⟩
  set step : α := (high - low) / (n + 1) with hStep
  have hSpan : 0 ≤ high - low := sub_nonneg.mpr hBounds
  have hPos : (0 : α) < n + 1 := by positivity
  have hNonneg : 0 ≤ step := div_nonneg hSpan hPos.le
  have hMap : evenly low high (n + 2) = (List.range (n + 2)).map fun i : Nat => low + step * i := by
    rw [evenly, if_pos (by omega)]
    have hDistance : ((n + 2 - 1 : Nat) : α) = n + 1 := by push_cast; rfl
    rw [hDistance]
  have hLast : low + step * ((n + 1 : Nat) : α) = high := by
    rw [hStep]
    push_cast
    rw [div_mul_cancel₀ _ hPos.ne', add_sub_cancel]
  have hMono : ∀ i j : Nat, i ≤ j → low + step * i ≤ low + step * j := by
    intro i j hij
    have hCast : (i : α) ≤ j := Nat.cast_le.mpr hij
    gcongr
  rw [hMap]
  refine ⟨by simp, ?_, ?_, ?_, ?_, ?_⟩
  · rw [List.head?_map, List.head?_range, if_neg (by omega)]
    simp
  · rw [List.getLast?_map, List.getLast?_range, if_neg (by omega)]
    exact congrArg some hLast
  · rw [List.isChain_map, List.isChain_range_succ]
    intro i _
    push_cast
    rw [hStep]
    ring
  · rw [List.pairwise_map]
    exact List.pairwise_lt_range.imp fun h => hMono _ _ h.le
  · intro v hv
    obtain ⟨i, hi, rfl⟩ := List.mem_map.mp hv
    have hFirst := hMono 0 i (Nat.zero_le i)
    have hUpTo := hMono i (n + 1) (by have := List.mem_range.mp hi; omega)
    rw [hLast] at hUpTo
    simp only [Nat.cast_zero, mul_zero, add_zero] at hFirst
    exact ⟨hFirst, hUpTo⟩

theorem frequencies_linear {g : Grid ℝ} (hSpacing : g.spacing = .linear) (hCount : 2 ≤ g.count) :
    ∃ vs, g.frequencies = .ok vs ∧
      EvenlySpaced (min g.first g.last) (max g.first g.last) g.count vs := by
  have hFault : g.fault? = none := by
    refine fault?_eq_none_iff.mpr ⟨by omega, rfl, rfl, fun hLogarithmic => ?_⟩
    rw [hSpacing] at hLogarithmic
    cases hLogarithmic
  have hBounds : g.bounds = (min g.first g.last, max g.first g.last) := by
    rw [bounds]
    split
    · next h => rw [min_eq_right h.le, max_eq_left h.le]
    · next h => rw [min_eq_left (not_lt.mp h), max_eq_right (not_lt.mp h)]
  refine ⟨g.values, frequencies_eq_ok_iff.mpr ⟨hFault, rfl⟩, ?_⟩
  rw [values, if_pos hSpacing, hBounds]
  exact evenlySpaced_evenly min_le_max hCount

end Exact

/-! ## What a grid holds -/

/-- In doubles, a grid is accepted if and only if it asks for some frequency between finite bounds,
positive ones if their logarithms are taken; the bounds may be exchanged; and it holds as many
numbers as it asks for, a single one being the lower bound.  In exact numbers a linear grid holds
numbers at equal distances from the lower bound to the upper one. -/
theorem frequencies_outcome :
    (∀ g : Grid Float,
      ((∃ vs, g.frequencies = .ok vs) ↔
        1 ≤ g.count ∧ g.first.isFinite = true ∧ g.last.isFinite = true ∧
          (g.spacing = .logarithmic → 0 < g.first ∧ 0 < g.last)) ∧
      (g.first.isNaN = false → g.last.isNaN = false → g.reversed.frequencies = g.frequencies) ∧
      ∀ vs, g.frequencies = .ok vs → vs.length = g.count ∧
        (g.count = 1 → ∃ v, vs = [v] ∧ v.isFinite = true ∧
          Double.value v = min (Double.value g.first) (Double.value g.last))) ∧
    ∀ g : Grid ℝ, g.spacing = .linear → 2 ≤ g.count → ∃ vs, g.frequencies = .ok vs ∧
      EvenlySpaced (min g.first g.last) (max g.first g.last) g.count vs := by
  refine ⟨fun g => ⟨exists_frequencies_iff g, frequencies_reversed, fun vs h => ⟨?_, ?_⟩⟩,
    fun g => frequencies_linear⟩
  · obtain ⟨-, rfl⟩ := frequencies_eq_ok_iff.mp h
    exact length_values g
  · exact value_of_one h

/-- Three frequencies between bounds given from the upper one on, and a single one. -/
theorem frequencies_outcome_descending :
    (∃ vs, (⟨8, 2, 3, .logarithmic⟩ : Grid Float).frequencies = .ok vs ∧ vs.length = 3) ∧
    (⟨8, 2, 3, .logarithmic⟩ : Grid Float).frequencies =
      (⟨2, 8, 3, .logarithmic⟩ : Grid Float).frequencies ∧
    (∃ v, (⟨8, 2, 1, .linear⟩ : Grid Float).frequencies = .ok [v] ∧ Double.value v = 2) ∧
    ∃ vs, (⟨8, 2, 3, .linear⟩ : Grid ℝ).frequencies = .ok vs ∧ EvenlySpaced 2 8 3 vs := by
  obtain ⟨hDoubles, hExact⟩ := frequencies_outcome
  refine ⟨?_, ?_, ?_, ?_⟩
  · obtain ⟨hAccepted, -, hHolds⟩ := hDoubles ⟨8, 2, 3, .logarithmic⟩
    obtain ⟨vs, h⟩ := hAccepted.mpr ⟨by decide, by decide, by decide, by decide⟩
    exact ⟨vs, h, (hHolds vs h).1⟩
  · exact (hDoubles ⟨2, 8, 3, .logarithmic⟩).2.1 (by decide) (by decide)
  · obtain ⟨hAccepted, -, hHolds⟩ := hDoubles ⟨8, 2, 1, .linear⟩
    obtain ⟨vs, h⟩ := hAccepted.mpr ⟨by decide, by decide, by decide, by decide⟩
    obtain ⟨v, rfl, -, hValue⟩ := (hHolds vs h).2 rfl
    refine ⟨v, h, hValue.trans ?_⟩
    have hTwo : Double.value 2 = 2 := by decide +kernel
    have hEight : Double.value 8 = 8 := by decide +kernel
    rw [hTwo, hEight, min_eq_right (by norm_num)]
  · obtain ⟨vs, h, hSpaced⟩ := hExact ⟨8, 2, 3, .linear⟩ rfl (by decide)
    have hLow : min (8 : ℝ) 2 = 2 := min_eq_right (by norm_num)
    have hHigh : max (8 : ℝ) 2 = 8 := max_eq_left (by norm_num)
    dsimp only at hSpaced
    rw [hLow, hHigh] at hSpaced
    exact ⟨vs, h, hSpaced⟩

end InstrumentResponse.Grid
