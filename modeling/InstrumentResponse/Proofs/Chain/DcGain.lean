import Mathlib
import InstrumentResponse.Proofs.Chain.Rechecking
import InstrumentResponse.Proofs.Chain.StoredTaps
import InstrumentResponse.Transfer

/-!
# The gain of impulse responses at zero frequency

What an impulse response does to a constant input is the sum of its taps, those that are not stored
included.

* `Fir.symmetricResponse_zero`: the sum of all taps is the response at frequency 0.
* `UnitGain`, `Fir.Scaled`: a sum near 1, and taps that are divided by their sum otherwise.
* `Fir.abs_sum_impulse_sub_le`: taps stored by half have nearly the same sum.
* `Fir.Settled`, `Fir.settled_canonicalForm`: what becomes of a filter in canonical form.
* `Chain.check_settles_firs`: the filters of a channel after a check.
-/

namespace InstrumentResponse

variable {α : Type}

theorem Scalar.sum_eq [ExactScalar α] (xs : List α) : Scalar.sum xs = xs.sum := by
  rw [Scalar.sum, ExactScalar.numeral_zero]
  exact List.sum_eq_foldl.symm

namespace Fir

/-- At frequency 0 every tap counts fully. -/
theorem cosineSum_zero (shift : ℝ) (n : Nat) (taps : List ℝ) :
    cosineSum 0 shift n taps = taps.sum := by
  have hCos : ∀ x : ℝ, Analytic.cos (0 * x) = 1 := fun x => by
    rw [zero_mul]
    exact Real.cos_zero
  rw [cosineSum]
  simp only [hCos, mul_one]
  rw [Scalar.sum_eq, List.zipIdx_map_fst]

/-- The response at frequency 0 is the sum of all taps. -/
theorem symmetricResponse_zero {h : Fir ℝ} (hHalf : h.symmetry ≠ .asymmetric) (interval : ℝ) :
    h.symmetricResponse 0 interval = ⟨h.impulse.sum * h.scale, 0⟩ := by
  rcases h with ⟨symmetry, taps, scale⟩
  rw [symmetricResponse, zero_mul]
  rcases List.eq_nil_or_concat' taps with rfl | ⟨first, last, rfl⟩
  · have hSum : (⟨symmetry, [], scale⟩ : Fir ℝ).impulse.sum = 0 := by
      cases symmetry <;> rfl
    rw [hSum, zero_mul]
    exact congrArg₂ Phasor.mk Nat.cast_zero Nat.cast_zero
  · rw [List.getLast?_concat]
    refine congrArg₂ Phasor.mk (congrArg (· * scale) ?_) Nat.cast_zero
    cases symmetry with
    | asymmetric => exact absurd rfl hHalf
    | odd =>
      simp only [impulse, cosineSum_zero, ExactScalar.numeral_two, List.dropLast_concat,
        List.sum_append, List.sum_reverse, List.sum_singleton]
      ring
    | even =>
      simp only [impulse, cosineSum_zero, ExactScalar.numeral_two, List.sum_append,
        List.sum_reverse]
      ring

end Fir

/-! ## Sums near 1 -/

section

variable [ExactScalar α]

/-- A sum of taps that is left as it is: it is 0, or it is 1 up to a fiftieth. -/
def UnitGain (sum : α) : Prop := sum = 0 ∨ |sum - 1| ≤ 1 / 50

instance (sum : α) : Decidable (UnitGain sum) := inferInstanceAs (Decidable (_ ∨ _))

namespace Fir

/-- Some taps, divided by their sum unless that is left as it is. -/
structure Scaled (written taps : List α) : Prop where
  unitGain : UnitGain taps.sum
  kept : UnitGain written.sum → taps = written
  divided : ¬ UnitGain written.sum → taps = written.map (· / written.sum)

theorem unitGain_iff {sum : α} : UnitGain sum ↔
    (sum == @OfNat.ofNat α 0 (Scalar.ofNat 0)) = true ∨
      ¬ @OfNat.ofNat α 1 (Scalar.ofNat 1) / @OfNat.ofNat α 50 (Scalar.ofNat 50) <
        Scalar.abs (sum - @OfNat.ofNat α 1 (Scalar.ofNat 1)) := by
  have hNumeral : @OfNat.ofNat α 1 (Scalar.ofNat 1) / @OfNat.ofNat α 50 (Scalar.ofNat 50) =
      1 / 50 := by
    rw [ExactScalar.numeral_one]
  rw [UnitGain, hNumeral, ExactScalar.abs_eq, ExactScalar.numeral_one, not_lt,
    ← Bool.not_eq_false, ExactScalar.beq_zero_eq_false_iff, not_not]

/-- Over exact numbers, the sum of taps that are divided by it becomes 1. -/
theorem DividedBySum.scaled {written taps : List α} (h : DividedBySum written taps) :
    Scaled written taps := by
  have hKept : UnitGain written.sum → taps = written := by
    intro hUnit
    rw [← Scalar.sum_eq, unitGain_iff] at hUnit
    exact h.kept hUnit
  have hDivided : ¬ UnitGain written.sum → taps = written.map (· / written.sum) := by
    intro hOther
    rw [← Scalar.sum_eq, unitGain_iff, not_or, not_not, Bool.not_eq_true] at hOther
    rw [← Scalar.sum_eq]
    exact h.divided hOther.1 hOther.2
  refine ⟨?_, hKept, hDivided⟩
  by_cases hUnit : UnitGain written.sum
  · rw [hKept hUnit]
    exact hUnit
  · have hNonzero : written.sum ≠ 0 := fun hZero => hUnit (.inl hZero)
    have hOne : (written.map (· / written.sum)).sum = 1 := by
      rw [← Scalar.sum_eq, ExactScalar.sum_map_div, Scalar.sum_eq, div_self hNonzero]
    rw [hDivided hUnit, hOne]
    exact .inr (by norm_num)

/-! ## Taps stored by half -/

theorem nearlyEqual_iff {a b : α} :
    nearlyEqual a b = true ↔ |a - b| ≤ 1 / 1000000000 * max |a| |b| := by
  have hLarger : Scalar.larger |a| |b| = max |a| |b| := by
    rw [Scalar.larger, ExactScalar.beq_self]
    by_cases h : |b| ≤ |a|
    · rw [if_pos (.inl h), max_eq_left h]
    · rw [if_neg (by simpa using h), max_eq_right (le_of_not_ge h)]
  have hNumeral : (@OfNat.ofNat α 1 (Scalar.ofNat 1)) / ((1000000000 : Nat) : α) =
      1 / 1000000000 := by
    rw [ExactScalar.numeral_one, Nat.cast_ofNat]
  rw [nearlyEqual, decide_eq_true_iff, hNumeral, ExactScalar.abs_eq, ExactScalar.abs_eq,
    ExactScalar.abs_eq, hLarger]

/-- Numbers that are nearly equal one by one have nearly the same sum. -/
theorem abs_sum_sub_sum_le {xs ys : List α} (h : List.Forall₂ (fun x y => nearlyEqual y x) xs ys) :
    |xs.sum - ys.sum| ≤ 1 / 1000000000 * ((xs.map (|·|)).sum + (ys.map (|·|)).sum) := by
  induction h with
  | nil => simp
  | @cons x y xs ys hxy _ ih =>
    have hMax : max |y| |x| ≤ |x| + |y| :=
      max_le (le_add_of_nonneg_left (abs_nonneg x)) (le_add_of_nonneg_right (abs_nonneg y))
    have hHead : |x - y| ≤ 1 / 1000000000 * (|x| + |y|) := by
      rw [abs_sub_comm]
      exact (nearlyEqual_iff.mp hxy).trans (mul_le_mul_of_nonneg_left hMax (by positivity))
    calc |(x :: xs).sum - (y :: ys).sum|
        = |(x - y) + (xs.sum - ys.sum)| := by rw [List.sum_cons, List.sum_cons]; ring_nf
      _ ≤ |x - y| + |xs.sum - ys.sum| := abs_add_le _ _
      _ ≤ 1 / 1000000000 * (|x| + |y|) +
          1 / 1000000000 * ((xs.map (|·|)).sum + (ys.map (|·|)).sum) := add_le_add hHead ih
      _ = 1 / 1000000000 * (((x :: xs).map (|·|)).sum + ((y :: ys).map (|·|)).sum) := by
        simp only [List.map_cons, List.sum_cons]
        ring

/-- The taps in front of the middle, and those behind it from the last one on, are nearly equal. -/
theorem forall₂_nearlyEqual {taps : List α} (h : isSymmetric taps = true) :
    List.Forall₂ (fun x y => nearlyEqual y x) (taps.take (taps.length / 2)) (secondHalf taps) := by
  have hLength := length_secondHalf taps
  rw [List.forall₂_iff_zip, hLength, List.length_take]
  refine ⟨by omega, fun {x y} hMem => ?_⟩
  have hHalf : min taps.length (taps.length / 2) = taps.length / 2 := by omega
  rw [isSymmetric, List.zip_eq_zip_take_min, hLength, hHalf,
    List.take_of_length_le hLength.le, List.all_eq_true] at h
  exact h (x, y) hMem

/-- Every tap stands in the first half or in the second one. -/
theorem sum_map_halves (f : α → α) (taps : List α) :
    ((taps.take ((taps.length + 1) / 2)).map f).sum + ((secondHalf taps).map f).sum =
      (taps.map f).sum := by
  rw [secondHalf, List.map_reverse, List.sum_reverse, ← List.sum_append, ← List.map_append,
    List.take_append_drop]

theorem sum_abs_take_le {m n : Nat} (h : m ≤ n) (taps : List α) :
    ((taps.take m).map (|·|)).sum ≤ ((taps.take n).map (|·|)).sum := by
  refine ((List.take_prefix_take_left h).sublist.map _).sum_le_sum fun a ha => ?_
  obtain ⟨t, -, rfl⟩ := List.mem_map.mp ha
  exact abs_nonneg t

/-- Storing taps by half nearly keeps their sum. -/
theorem abs_sum_impulse_sub_le {h : Fir α} (hAll : h.symmetry = .asymmetric) :
    |h.folded.impulse.sum - h.taps.sum| ≤ 1 / 1000000000 * (h.taps.map (|·|)).sum := by
  by_cases hSymmetric : isSymmetric h.taps = true
  · -- only the taps behind the middle are given up, for those in front of it
    have hSplit : h.taps.sum =
        (h.taps.take ((h.taps.length + 1) / 2)).sum + (secondHalf h.taps).sum := by
      simpa using (sum_map_halves id h.taps).symm
    have hHalf : h.taps.length / 2 ≤ (h.taps.length + 1) / 2 := by omega
    rw [impulse_folded hSymmetric, List.sum_append, List.sum_reverse, hSplit,
      add_sub_add_left_eq_sub]
    refine (abs_sum_sub_sum_le (forall₂_nearlyEqual hSymmetric)).trans ?_
    refine mul_le_mul_of_nonneg_left ?_ (by positivity)
    rw [← sum_map_halves _ h.taps]
    exact add_le_add_left (sum_abs_take_le hHalf h.taps) _
  · have hSame : h.folded.impulse = h.taps := by
      rw [folded, if_neg hSymmetric, impulse, hAll]
    have hNonneg : 0 ≤ (h.taps.map (|·|)).sum := by
      simpa using sum_abs_take_le (Nat.zero_le h.taps.length) h.taps
    rw [hSame, sub_self, abs_zero]
    exact mul_nonneg (by positivity) hNonneg

/-- What becomes of an impulse response. -/
structure Settled (written settled : Fir α) : Prop where
  scale_eq : settled.scale = written.scale
  /-- One that is written by half is left alone. -/
  half : written.symmetry ≠ .asymmetric → settled = written
  /-- One that is written with all taps is divided by its sum, if that is needed.  It keeps these
  taps, or stores the first half of them if and only if they nearly read the same from both ends. -/
  all : written.symmetry = .asymmetric → ∃ taps, Scaled written.taps taps ∧
    (settled.symmetry = .asymmetric ↔ ¬ Mirrored taps) ∧
    (settled.symmetry = .asymmetric → settled.taps = taps) ∧
    (settled.symmetry ≠ .asymmetric → StoresHalf taps settled) ∧
    settled.impulse.length = taps.length ∧
    |settled.impulse.sum - taps.sum| ≤ 1 / 1000000000 * (taps.map (|·|)).sum

theorem settled_canonicalForm (h : Fir α) : Settled h h.canonicalForm := by
  rcases h with ⟨symmetry, taps, scale⟩
  cases symmetry with
  | asymmetric =>
    refine ⟨scale_folded _, fun hHalf => absurd rfl hHalf, fun _ => ?_⟩
    obtain ⟨hKeeps, hWhole, hHalf⟩ := folded_stores (h := ⟨.asymmetric, unitSum taps, scale⟩) rfl
    refine ⟨unitSum taps, (dividedBySum_unitSum taps).scaled, hKeeps, hWhole, hHalf, ?_,
      abs_sum_impulse_sub_le rfl⟩
    rw [length_impulse, fullLength_canonicalForm, length_unitSum]
    rfl
  | odd | even => exact ⟨rfl, fun _ => rfl, nofun⟩

end Fir

/-! ## Chains -/

namespace Chain

/-- What a check makes of the impulse responses of a stage. -/
def SettlesFirs (s t : Stage α) : Prop :=
  ∀ settled, .filter (.fir settled) ∈ t.elements →
    ∃ written, filters (joined s.elements) = [.fir written] ∧ written.Settled settled

theorem Canonicalized.settlesFirs {s t : Stage α} (h : Canonicalized s t) : SettlesFirs s t := by
  intro settled hMem
  rcases hFilters : filters (joined s.elements) with _ | ⟨f, rest⟩
  · obtain ⟨g, -, -, hElements⟩ := h.plain hFilters
    rw [hElements] at hMem
    simp at hMem
  · obtain ⟨d, g, hOnly, -, -, hElements⟩ := h.filtered f (hFilters ▸ List.mem_cons_self)
    rw [hElements] at hMem
    have hForm : f.canonicalForm = .fir settled := by simpa [eq_comm] using hMem
    cases f with
    | fir written =>
      cases hForm
      exact ⟨written, hFilters ▸ hOnly, written.settled_canonicalForm⟩
    | _ => cases hForm

/-- The sum of all taps of an impulse response. -/
def gainOf? : Filter α → Option α
  | .fir h => some h.impulse.sum
  | _ => none

/-- The sums of all taps of the impulse responses of a chain. -/
def dcGains (stages : List (Stage α)) : List α :=
  stages.flatMap fun s => (filters s.elements).filterMap gainOf?

/-- **A check gives the filters that are written with all their taps unit gain.**  Their taps are
divided by the sum unless it is 0 or within a fiftieth of 1; those that are then stored by half keep
the sum up to a billionth of the taps.  Filters that are written by half are left alone. -/
theorem check_settles_firs (c : Channel α) (h : (check c).2.result = .ok ()) :
    List.Forall₂ SettlesFirs c.stages (check c).1.stages := by
  obtain ⟨hCanonical, hHolds⟩ := canonical_of_check h
  rw [hCanonical]
  exact List.forall₂_map_right_iff.mpr
    (List.forall₂_same.mpr fun s hs => (canonicalized_canonical (hHolds s hs)).settlesFirs)

theorem check_settles_firs_digitizer :
    (check digitizer).2.result = .ok () ∧
      List.Forall₂ SettlesFirs digitizer.stages (check digitizer).1.stages ∧
      dcGains digitizer.stages = [3, 5] ∧ dcGains (check digitizer).1.stages = [1] := by
  have h : (check digitizer).2.result = .ok () := by decide +kernel
  exact ⟨h, check_settles_firs digitizer h, by decide +kernel, by decide +kernel⟩

/-- A filter of sum 3 that is written by half, and one of sum 1 whose large taps nearly read the
same from both ends. -/
def unevenFilters : Channel ℚ :=
  { Channel.empty ⟨"IU", "ANMO", "00", "BHZ"⟩ none none with
    stages :=
      [⟨1, .counts, .counts, "COUNTS",
          [.filter (.fir ⟨.odd, [1, 1], 1⟩), .decimation ⟨1 / 100, 1, 0, 0, 0⟩, .gain ⟨1, 1⟩]⟩,
        ⟨2, .counts, .counts, "COUNTS",
          [.filter (.fir ⟨.asymmetric,
              [500000000, -1999999999 / 4, -1999999999 / 4, 1000000001 / 2], 1⟩),
            .decimation ⟨1 / 100, 1, 0, 0, 0⟩, .gain ⟨1, 1⟩]⟩] }

/-- Neither of them has unit gain after the check. -/
theorem unevenFilters_not_unitGain :
    (check unevenFilters).2.result = .ok () ∧ dcGains unevenFilters.stages = [3, 1] ∧
      dcGains (check unevenFilters).1.stages = [3, 1 / 2] ∧
      ∀ sum ∈ dcGains (check unevenFilters).1.stages, ¬ UnitGain sum := by
  have hSums : dcGains (check unevenFilters).1.stages = [3, 1 / 2] := by decide +kernel
  refine ⟨by decide +kernel, by decide +kernel, hSums, ?_⟩
  rw [hSums]
  decide +kernel

end Chain

end

end InstrumentResponse
