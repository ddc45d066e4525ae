import Mathlib
import InstrumentResponse.Proofs.Chain.CanonicalForm

/-!
# Taps that are stored by half

An impulse response that reads the same from both ends is stored by its first half, the tap in the
middle included if there is one.  What is given up are the taps behind the middle, and each of them
is nearly equal to the one as far in front of it.  This holds of all scalars, doubles included.

* `Fir.DividedBySum`, `Fir.dividedBySum_unitSum`: taps with their sum taken out of them.
* `Fir.impulse`: all taps of a filter, those that are not stored included.
* `Fir.Mirrored`: the pairs of taps that are compared; `Fir.isSymmetric_iff`: the comparison of the
  halves is that of the pairs.
* `Fir.StoresHalf`: a filter that stores the first half of some taps; `Fir.folded_stores`: which
  filters do.
* `Fir.canonical_stores_taps`: an impulse response in canonical form.
-/

namespace InstrumentResponse.Fir

variable {α : Type} [Scalar α]

/-! ## Sums -/

/-- Some taps, divided by their sum if that is neither 0 nor within a fiftieth of 1. -/
structure DividedBySum (written taps : List α) : Prop where
  divided : (Scalar.sum written == 0) = false → 1 / 50 < Scalar.abs (Scalar.sum written - 1) →
    taps = written.map (· / Scalar.sum written)
  kept : (Scalar.sum written == 0) = true ∨ ¬ 1 / 50 < Scalar.abs (Scalar.sum written - 1) →
    taps = written

theorem dividedBySum_unitSum (taps : List α) : DividedBySum taps (unitSum taps) := by
  refine ⟨fun hNonzero hFar => ?_, fun hNear => ?_⟩
  · cases taps with
    | nil => rfl
    | cons tap rest =>
      have hExcess : excess? (tap :: rest) = some (Scalar.sum (tap :: rest)) := by
        simp [excess?, hNonzero, hFar]
      rw [unitSum, hExcess]
  · have hExcess : excess? taps = none := by
      rcases hNear with hZero | hNear
      · simp [excess?, hZero]
      · simp [excess?, hNear]
    rw [unitSum, hExcess]

/-! ## All taps -/

/-- All taps of an impulse response. -/
def impulse (h : Fir α) : List α :=
  match h.symmetry with
  | .odd => h.taps ++ h.taps.dropLast.reverse
  | .even => h.taps ++ h.taps.reverse
  | .asymmetric => h.taps

omit [Scalar α] in
theorem length_impulse (h : Fir α) : h.impulse.length = h.fullLength := by
  rcases h with ⟨symmetry, taps, scale⟩
  cases symmetry with
  | odd =>
    simp only [impulse, fullLength, List.length_append, List.length_reverse, List.length_dropLast]
    omega
  | even =>
    simp only [impulse, fullLength, List.length_append, List.length_reverse]
    omega
  | asymmetric => rfl

/-- Taps stored by half stand for the first half and its mirror image. -/
theorem impulse_folded {h : Fir α} (hSymmetric : isSymmetric h.taps = true) :
    h.folded.impulse = h.taps.take ((h.taps.length + 1) / 2) ++
      (h.taps.take (h.taps.length / 2)).reverse := by
  rw [folded, if_pos hSymmetric]
  by_cases hEven : h.taps.length % 2 = 0
  · have hMiddle : (h.taps.length + 1) / 2 = h.taps.length / 2 := by omega
    simp only [hEven, if_true, impulse, hMiddle]
  · have hMiddle : min ((h.taps.length + 1) / 2) h.taps.length - 1 = h.taps.length / 2 := by omega
    have hLess : min (h.taps.length / 2) ((h.taps.length + 1) / 2) = h.taps.length / 2 := by omega
    simp only [hEven, if_false, impulse, List.dropLast_eq_take, List.length_take, List.take_take,
      hMiddle, hLess]

/-! ## Pairs -/

/-- Each tap in front of the middle has one nearly equal to it as far from the other end. -/
def Mirrored (taps : List α) : Prop :=
  ∀ i a b, i < taps.length / 2 → taps[i]? = some a → taps[taps.length - 1 - i]? = some b →
    nearlyEqual b a = true

omit [Scalar α] in
/-- The `i`-th tap from the last one on. -/
theorem getElem?_secondHalf {taps : List α} {i : Nat} (hi : i < taps.length / 2) :
    (secondHalf taps)[i]? = taps[taps.length - 1 - i]? := by
  have hLength : (taps.drop ((taps.length + 1) / 2)).length = taps.length / 2 := by
    rw [List.length_drop]
    omega
  have hPlace : (taps.length + 1) / 2 + (taps.length / 2 - 1 - i) = taps.length - 1 - i := by omega
  rw [secondHalf, List.getElem?_reverse (hLength ▸ hi), List.getElem?_drop, hLength, hPlace]

omit [Scalar α] in
theorem length_secondHalf (taps : List α) : (secondHalf taps).length = taps.length / 2 := by
  rw [secondHalf, List.length_reverse, List.length_drop]
  omega

/-- The halves are compared pair by pair. -/
theorem isSymmetric_iff (taps : List α) : isSymmetric taps = true ↔ Mirrored taps := by
  rw [isSymmetric, List.all_eq_true]
  constructor
  · intro hPairs i a b hi ha hb
    rw [← getElem?_secondHalf hi] at hb
    exact hPairs (a, b) (List.mem_of_getElem? (List.getElem?_zip_eq_some.mpr ⟨ha, hb⟩))
  · rintro hMirrored ⟨a, b⟩ hPair
    obtain ⟨i, hPair⟩ := List.getElem?_of_mem hPair
    obtain ⟨ha, hb⟩ := List.getElem?_zip_eq_some.mp hPair
    have hi : i < taps.length / 2 := by
      rw [← length_secondHalf]
      exact (List.getElem?_eq_some_iff.mp hb).1
    rw [getElem?_secondHalf hi] at hb
    exact hMirrored i a b hi ha hb

/-! ## Halves -/

/-- A filter stores the first half of some taps, and stands for all of them: what it expands to are
as many taps, the same ones in the half that is stored, and nearly equal ones behind it. -/
structure StoresHalf (taps : List α) (stored : Fir α) : Prop where
  symmetry_eq : stored.symmetry = if taps.length % 2 = 0 then .even else .odd
  taps_eq : stored.taps = taps.take ((taps.length + 1) / 2)
  fullLength_eq : stored.fullLength = taps.length
  length_impulse_eq : stored.impulse.length = taps.length
  stored_eq : ∀ i, i < stored.taps.length → stored.impulse[i]? = taps[i]?
  mirrored : ∀ i a b, stored.taps.length ≤ i → stored.impulse[i]? = some a → taps[i]? = some b →
    nearlyEqual b a = true

theorem symmetry_folded {h : Fir α} (hSymmetric : isSymmetric h.taps = true) :
    h.folded.symmetry = if h.taps.length % 2 = 0 then .even else .odd := by
  rw [folded, if_pos hSymmetric]

theorem symmetry_folded_ne {h : Fir α} (hSymmetric : isSymmetric h.taps = true) :
    h.folded.symmetry ≠ .asymmetric := by
  rw [symmetry_folded hSymmetric]
  by_cases hEven : h.taps.length % 2 = 0
  · simp [hEven]
  · simp [hEven]

theorem taps_folded {h : Fir α} (hSymmetric : isSymmetric h.taps = true) :
    h.folded.taps = h.taps.take ((h.taps.length + 1) / 2) := by
  rw [folded, if_pos hSymmetric]

/-- Behind the stored half, the stored taps are met again in the opposite order. -/
theorem getElem?_impulse_folded {h : Fir α} (hSymmetric : isSymmetric h.taps = true) {i : Nat}
    (hi : (h.taps.length + 1) / 2 ≤ i) (hLast : i < h.taps.length) :
    h.folded.impulse[i]? = h.taps[h.taps.length - 1 - i]? := by
  have hStored : (h.taps.take ((h.taps.length + 1) / 2)).length = (h.taps.length + 1) / 2 := by
    rw [List.length_take]
    omega
  have hFront : (h.taps.take (h.taps.length / 2)).length = h.taps.length / 2 := by
    rw [List.length_take]
    omega
  have hBehind : i - (h.taps.length + 1) / 2 < h.taps.length / 2 := by omega
  have hPlace : h.taps.length / 2 - 1 - (i - (h.taps.length + 1) / 2) = h.taps.length - 1 - i := by
    omega
  rw [impulse_folded hSymmetric, List.getElem?_append_right (hStored.symm ▸ hi), hStored,
    List.getElem?_reverse (hFront.symm ▸ hBehind), hFront, hPlace,
    List.getElem?_take_of_lt (by omega)]

theorem storesHalf_folded {h : Fir α} (hAll : h.symmetry = .asymmetric)
    (hSymmetric : isSymmetric h.taps = true) : StoresHalf h.taps h.folded := by
  have hTaps := taps_folded hSymmetric
  have hStored : h.folded.taps.length = (h.taps.length + 1) / 2 := by
    rw [hTaps, List.length_take]
    omega
  have hFull : h.folded.fullLength = h.taps.length := fullLength_folded hAll
  refine ⟨symmetry_folded hSymmetric, hTaps, hFull, (length_impulse _).trans hFull, ?_, ?_⟩
  · intro i hi
    rw [hStored] at hi
    rw [impulse_folded hSymmetric, List.getElem?_append_left (by rw [List.length_take]; omega),
      List.getElem?_take_of_lt hi]
  · intro i a b hi ha hb
    rw [hStored] at hi
    have hLast : i < h.taps.length := (List.getElem?_eq_some_iff.mp hb).1
    have hOther : h.taps.length - 1 - (h.taps.length - 1 - i) = i := by omega
    rw [getElem?_impulse_folded hSymmetric hi hLast] at ha
    exact (isSymmetric_iff h.taps).mp hSymmetric (h.taps.length - 1 - i) a b (by omega) ha
      (by rw [hOther]; exact hb)

theorem folded_of_asymmetric {h : Fir α} (hAll : h.folded.symmetry = .asymmetric) :
    h.folded = h := by
  by_cases hSymmetric : isSymmetric h.taps = true
  · rw [folded, if_pos hSymmetric] at hAll
    by_cases hEven : h.taps.length % 2 = 0
    · simp [hEven] at hAll
    · simp [hEven] at hAll
  · rw [folded, if_neg hSymmetric]

theorem scale_folded (h : Fir α) : h.folded.scale = h.scale := by
  unfold folded
  split
  · rfl
  · rfl

theorem symmetry_folded_eq_asymmetric_iff {h : Fir α} (hAll : h.symmetry = .asymmetric) :
    h.folded.symmetry = .asymmetric ↔ ¬ Mirrored h.taps := by
  rw [← isSymmetric_iff]
  constructor
  · exact fun hKept hSymmetric => symmetry_folded_ne hSymmetric hKept
  · intro hUneven
    rw [folded, if_neg hUneven, hAll]

/-- Some taps are kept, or stored by half if and only if they are mirrored. -/
theorem folded_stores {h : Fir α} (hAll : h.symmetry = .asymmetric) :
    (h.folded.symmetry = .asymmetric ↔ ¬ Mirrored h.taps) ∧
      (h.folded.symmetry = .asymmetric → h.folded.taps = h.taps) ∧
      (h.folded.symmetry ≠ .asymmetric → StoresHalf h.taps h.folded) := by
  have hKeeps := symmetry_folded_eq_asymmetric_iff hAll
  refine ⟨hKeeps, fun hKept => congrArg Fir.taps (folded_of_asymmetric hKept), fun hHalf => ?_⟩
  have hMirrored : Mirrored h.taps := not_not.mp (mt hKeeps.mpr hHalf)
  exact storesHalf_folded hAll ((isSymmetric_iff _).mpr hMirrored)

/-! ## Canonical forms -/

/-- **Storing an impulse response by half loses nothing.**  One that is given by all its taps is
divided by their sum, if that is needed.  It keeps all of them exactly if some tap is not nearly
equal to the one as far from the other end; otherwise it stores the first half, which stands for
as many taps, the same ones in that half and nearly equal ones behind it.  One that is given by half
is left as it is. -/
theorem canonical_stores_taps (id : ChannelId) (h : Fir α) :
    ∃ stored, (h.canonical id).result = .ok stored ∧ stored.scale = h.scale ∧
      (h.symmetry ≠ .asymmetric → stored = h) ∧
      (h.symmetry = .asymmetric →
        DividedBySum h.taps (unitSum h.taps) ∧
        (unitSum h.taps).length = h.taps.length ∧
        (stored.symmetry = .asymmetric ↔ ¬ Mirrored (unitSum h.taps)) ∧
        (stored.symmetry = .asymmetric → stored.taps = unitSum h.taps) ∧
        (stored.symmetry ≠ .asymmetric → StoresHalf (unitSum h.taps) stored)) := by
  refine ⟨h.canonicalForm, h.result_canonical id, ?_⟩
  rcases h with ⟨symmetry, taps, scale⟩
  cases symmetry with
  | odd | even => exact ⟨rfl, fun _ => rfl, nofun⟩
  | asymmetric =>
    refine ⟨scale_folded _, fun hHalf => absurd rfl hHalf, fun _ => ?_⟩
    exact ⟨dividedBySum_unitSum taps, length_unitSum taps, folded_stores rfl⟩

/-- Of three mirrored taps the second half is given up. -/
example : (⟨.asymmetric, [1 / 4, 1 / 2, 1 / 4], 1⟩ : Fir ℚ).canonicalForm =
    ⟨.odd, [1 / 4, 1 / 2], 1⟩ := by
  decide +kernel

end InstrumentResponse.Fir
