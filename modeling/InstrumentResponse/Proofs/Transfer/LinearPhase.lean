import Mathlib
import InstrumentResponse.Proofs.Chain.MovedGains
import InstrumentResponse.Proofs.Chain.DcGain
import InstrumentResponse.Proofs.Scalar.Polar

/-!
# Impulse responses without delay

An impulse response whose taps read the same from both ends delays everything by half its length,
and its response is given without this delay: as a sum of cosines over the stored half, as the
direct sum over all taps with the phase of the delay taken back, or, where all taps are equal, as a
quotient of sines.

* `Fir.spectrum`, `Fir.centredSum`: the direct sum, and the one without the delay.
* `Fir.toComplex_directSum`, `Fir.toComplex_asymmetricResponse`: taps that are not all equal.
* `Fir.centredSum_around`, `Fir.toComplex_symmetricResponse`: taps that are stored by half.
* `Fir.asymmetricResponse_mirrored`: the two agree on mirrored taps.
* `Fir.centredSum_replicate`, `Fir.boxcar_eq_centredSum`: equal taps.
* `Fir.asymmetricResponse_boxcar`: where their response is the scaled sum, and where it is not.
-/

namespace InstrumentResponse.Fir

open Complex (I exp)

/-! ## Direct sums -/

/-- The sum of `c * exp (-i k θ)` over the taps `c`, where `k` counts them from 0. -/
noncomputable def spectrum (θ : ℝ) (taps : List ℝ) : ℂ :=
  ∑ k : Fin taps.length, (taps.get k : ℂ) * exp (-(k * θ) * I)

/-- The same sum, with the phase of half the length taken back. -/
noncomputable def centredSum (θ : ℝ) (taps : List ℝ) : ℂ :=
  spectrum θ taps * exp ((taps.length - 1) / 2 * θ * I)

theorem spectrum_nil (θ : ℝ) : spectrum θ [] = 0 := Fin.sum_univ_zero _

theorem spectrum_cons (θ c : ℝ) (rest : List ℝ) :
    spectrum θ (c :: rest) = c + exp (-θ * I) * spectrum θ rest := by
  rw [spectrum, spectrum, Finset.mul_sum]
  refine (Fin.sum_univ_succ _).trans (congrArg₂ (· + ·) ?_ (Finset.sum_congr rfl fun k _ => ?_))
  · simp
  · have hPhase : -(((k.succ : Fin (rest.length + 1)) : ℕ) * θ : ℂ) * I =
        -θ * I + -(k * θ) * I := by
      rw [Fin.val_succ]
      push_cast
      ring
    show (rest.get k : ℂ) * exp (-((k.succ : ℕ) * θ) * I) = _
    rw [hPhase, Complex.exp_add]
    ring

theorem spectrum_concat (θ x : ℝ) (taps : List ℝ) :
    spectrum θ (taps ++ [x]) = spectrum θ taps + exp (-(taps.length * θ) * I) * x := by
  induction taps with
  | nil => simp [spectrum_cons, spectrum_nil]
  | cons c rest ih =>
    have hPhase : -((((c :: rest).length : ℕ) : ℂ) * θ) * I = -θ * I + -(rest.length * θ) * I := by
      rw [List.length_cons]
      push_cast
      ring
    rw [List.cons_append, spectrum_cons, spectrum_cons, ih, hPhase, Complex.exp_add]
    ring

/-- A direct sum with one more tap, at place `tap.2`. -/
noncomputable def addTap (θ : ℝ) (z : Phasor ℝ) (tap : ℝ × ℕ) : Phasor ℝ :=
  ⟨z.re + tap.1 * Analytic.cos (θ * tap.2), z.im - tap.1 * Analytic.sin (θ * tap.2)⟩

theorem toComplex_addTap (θ : ℝ) (z : Phasor ℝ) (c : ℝ) (k : ℕ) :
    (addTap θ z (c, k)).toComplex = z.toComplex + c * exp (-(k * θ) * I) := by
  have hPhase : -(k * θ : ℂ) * I = ((-(θ * k) : ℝ) : ℂ) * I := by
    push_cast
    ring
  rw [hPhase]
  refine Complex.ext ?_ ?_
  · rw [Complex.add_re, Complex.re_ofReal_mul, Complex.exp_ofReal_mul_I_re, Real.cos_neg]
    rfl
  · rw [Complex.add_im, Complex.im_ofReal_mul, Complex.exp_ofReal_mul_I_im, Real.sin_neg, mul_neg,
      ← sub_eq_add_neg]
    rfl

theorem toComplex_foldl_addTap (θ : ℝ) (taps : List ℝ) (first : ℕ) (z : Phasor ℝ) :
    ((taps.zipIdx first).foldl (addTap θ) z).toComplex =
      z.toComplex + exp (-(first * θ) * I) * spectrum θ taps := by
  induction taps generalizing first z with
  | nil => rw [spectrum_nil, mul_zero, add_zero, List.zipIdx_nil, List.foldl_nil]
  | cons c rest ih =>
    have hPhase : -((first + 1 : ℕ) * θ : ℂ) * I = -(first * θ) * I + -θ * I := by
      push_cast
      ring
    rw [List.zipIdx_cons, List.foldl_cons, ih, toComplex_addTap, spectrum_cons, hPhase,
      Complex.exp_add]
    ring

theorem toComplex_directSum (θ : ℝ) (taps : List ℝ) :
    (directSum θ taps).toComplex = spectrum θ taps := by
  have hSum : directSum θ taps = taps.zipIdx.foldl (addTap θ) 0 := rfl
  rw [hSum, toComplex_foldl_addTap, Phasor.toComplex_zero, Nat.cast_zero, zero_mul, neg_zero,
    zero_mul, Complex.exp_zero, one_mul, zero_add]

/-- The response of taps that are not all equal is their sum, with the phase taken back. -/
theorem toComplex_asymmetricResponse {taps : List ℝ} (hUneven : ∃ a ∈ taps, ∃ b ∈ taps, a ≠ b)
    (scale w interval : ℝ) :
    (asymmetricResponse ⟨.asymmetric, taps, scale⟩ w interval).toComplex =
      centredSum (w * interval) taps * scale := by
  obtain ⟨a, ha, b, hb, hDiffer⟩ := hUneven
  rcases taps with _ | ⟨first, rest⟩
  · cases ha
  · have hUnequal : ¬ ((first :: rest).all (· == first) = true) := by
      intro hAll
      have hSame : ∀ c ∈ first :: rest, c = first := fun c hc =>
        (ExactScalar.beq_iff c first).mp (List.all_eq_true.mp hAll c hc)
      exact hDiffer ((hSame a ha).trans (hSame b hb).symm)
    have hDelay : ((w * (((rest.length + 1 - 1 : ℕ) : ℝ) / 2) * interval : ℝ) : ℂ) * I =
        ((first :: rest).length - 1) / 2 * (w * interval : ℝ) * I := by
      rw [Nat.add_sub_cancel, List.length_cons]
      push_cast
      ring
    rw [asymmetricResponse]
    dsimp only
    rw [if_neg hUnequal, Phasor.toComplex_scale, Phasor.toComplex_turned, toComplex_directSum,
      ExactScalar.numeral_two, centredSum, ← hDelay]

/-! ## Mirrored sums -/

theorem centredSum_nil (θ : ℝ) : centredSum θ [] = 0 := by
  rw [centredSum, spectrum_nil, zero_mul]

theorem centredSum_singleton (θ c : ℝ) : centredSum θ [c] = c := by
  simp [centredSum, spectrum_cons, spectrum_nil]

/-- A tap at each end of some taps adds twice its cosine. -/
theorem centredSum_ends (θ x : ℝ) (taps : List ℝ) :
    centredSum θ (x :: (taps ++ [x])) =
      centredSum θ taps + (2 * (x * Real.cos (θ * ((taps.length + 1) / 2))) : ℝ) := by
  have hLength : ((x :: (taps ++ [x])).length : ℂ) = taps.length + 2 := by
    rw [List.length_cons, List.length_append, List.length_singleton]
    push_cast
    ring
  have hFirst : ((taps.length : ℂ) + 2 - 1) / 2 * θ * I = (taps.length + 1) / 2 * θ * I := by ring
  have hMiddle : exp (-θ * I) * exp ((taps.length + 1) / 2 * θ * I) =
      exp ((taps.length - 1) / 2 * θ * I) := by
    rw [← Complex.exp_add]
    congr 1
    ring
  have hLast : exp (-(taps.length * θ) * I) * exp ((taps.length - 1) / 2 * θ * I) =
      exp (-((taps.length + 1) / 2 * θ) * I) := by
    rw [← Complex.exp_add]
    congr 1
    ring
  have hCosine : ((2 * (x * Real.cos (θ * ((taps.length + 1) / 2))) : ℝ) : ℂ) =
      x * (exp ((taps.length + 1) / 2 * θ * I) + exp (-((taps.length + 1) / 2 * θ) * I)) := by
    rw [← Complex.two_cos]
    push_cast
    ring_nf
  rw [centredSum, centredSum, spectrum_cons, spectrum_concat, hLength, hFirst, hCosine, ← hLast,
    ← hMiddle]
  ring

theorem cosineSum_cons (θ shift x : ℝ) (n : ℕ) (taps : List ℝ) :
    cosineSum θ shift (n + 1) (x :: taps) =
      x * Real.cos (θ * (n + shift)) + cosineSum θ shift n taps := by
  rw [cosineSum, cosineSum, Scalar.sum_eq, Scalar.sum_eq, List.zipIdx_cons, List.map_cons,
    List.sum_cons, List.zipIdx_succ, List.map_map]
  refine congrArg₂ (· + ·) rfl (congrArg List.sum (List.map_congr_left fun tap _ => ?_))
  have hPlace : n + 1 - (tap.2 + 1) - 1 = n - tap.2 - 1 := by omega
  show tap.1 * Analytic.cos (θ * (((n + 1 - (tap.2 + 1) - 1 : ℕ) : ℝ) + shift)) = _
  rw [hPlace]

/-- Mirrored taps around some in the middle add twice their cosines. -/
theorem centredSum_around (θ shift : ℝ) (extra : ℕ) (middle : List ℝ)
    (hCentre : (extra : ℝ) + shift = (middle.length + 1) / 2) (front : List ℝ) :
    centredSum θ (front ++ middle ++ front.reverse) =
      centredSum θ middle + (2 * cosineSum θ shift (front.length + extra) front : ℝ) := by
  induction front with
  | nil =>
    have hNone : cosineSum θ shift extra [] = 0 := Scalar.sum_eq _
    simp [hNone]
  | cons x front ih =>
    have hEnds : (x :: front) ++ middle ++ (x :: front).reverse =
        x :: (front ++ middle ++ front.reverse ++ [x]) := by
      simp
    have hLength : ((front ++ middle ++ front.reverse).length + 1 : ℝ) / 2 =
        (front.length + extra : ℕ) + shift := by
      simp only [List.length_append, List.length_reverse]
      push_cast
      linarith only [hCentre]
    have hOne : (x :: front).length + extra = front.length + extra + 1 := by
      rw [List.length_cons]
      omega
    rw [hEnds, centredSum_ends, ih, hLength, hOne, cosineSum_cons, add_assoc, ← Complex.ofReal_add]
    congr 2
    ring

/-- The response of taps stored by half is the sum of all of them, with the phase taken back. -/
theorem toComplex_symmetricResponse {h : Fir ℝ} (hHalf : h.symmetry ≠ .asymmetric)
    (w interval : ℝ) :
    (h.symmetricResponse w interval).toComplex = centredSum (w * interval) h.impulse * h.scale := by
  rcases h with ⟨symmetry, taps, scale⟩
  rcases List.eq_nil_or_concat' taps with rfl | ⟨front, last, rfl⟩
  · have hImpulse : (⟨symmetry, [], scale⟩ : Fir ℝ).impulse = [] := by
      cases symmetry <;> rfl
    rw [hImpulse, centredSum_nil, zero_mul]
    exact Phasor.toComplex_zero
  · have hReal : ∀ re : ℝ, (⟨re * scale, (Scalar.ofNat 0).ofNat⟩ : Phasor ℝ).toComplex =
        (re : ℂ) * scale := fun re => by
      rw [← Complex.ofReal_mul]
      exact Complex.ext rfl Nat.cast_zero
    rw [symmetricResponse]
    dsimp only
    rw [List.getLast?_concat]
    dsimp only
    rw [hReal]
    refine congrArg (· * (scale : ℂ)) ?_
    cases symmetry with
    | asymmetric => exact absurd rfl hHalf
    | odd =>
      -- the tap in the middle is the last one that is stored
      have hCentre : ((1 : ℕ) : ℝ) + 0 = (([last] : List ℝ).length + 1) / 2 := by norm_num
      have hImpulse : (⟨.odd, front ++ [last], scale⟩ : Fir ℝ).impulse =
          front ++ [last] ++ front.reverse := by
        rw [impulse, List.dropLast_concat]
      have hLength : (front ++ [last]).length = front.length + 1 := List.length_append
      rw [hImpulse, centredSum_around _ 0 1 [last] hCentre, centredSum_singleton,
        ← Complex.ofReal_add, List.dropLast_concat, hLength, ExactScalar.numeral_two,
        ExactScalar.numeral_zero]
    | even =>
      have hCentre : ((0 : ℕ) : ℝ) + 1 / 2 = (([] : List ℝ).length + 1) / 2 := by norm_num
      have hImpulse : (⟨.even, front ++ [last], scale⟩ : Fir ℝ).impulse =
          (front ++ [last]) ++ [] ++ (front ++ [last]).reverse := by
        rw [impulse, List.append_nil]
      rw [hImpulse, centredSum_around _ (1 / 2) 0 [] hCentre, centredSum_nil, zero_add,
        ExactScalar.numeral_two, ExactScalar.numeral_one]
      rfl

/-! ## Stored taps -/

section Mirrored

variable {α : Type} [ExactScalar α] {h : Fir α}

/-- Taps that read exactly the same from both ends are compared as equal. -/
theorem isSymmetric_of_reverse_eq {taps : List α} (hMirrored : taps.reverse = taps) :
    isSymmetric taps = true := by
  refine (isSymmetric_iff taps).mpr fun i a b hi ha hb => ?_
  rw [← List.getElem?_reverse (by omega), hMirrored] at hb
  obtain rfl : a = b := Option.some.inj (ha.symm.trans hb)
  exact nearlyEqual_self a

/-- The half that is stored of them stands for the taps themselves. -/
theorem impulse_folded_of_reverse_eq (hMirrored : h.taps.reverse = h.taps) :
    h.folded.impulse = h.taps := by
  have hBehind : (h.taps.take (h.taps.length / 2)).reverse =
      h.taps.drop ((h.taps.length + 1) / 2) := by
    have hPlace : h.taps.length - h.taps.length / 2 = (h.taps.length + 1) / 2 := by omega
    rw [List.reverse_take, hMirrored, hPlace]
  rw [impulse_folded (isSymmetric_of_reverse_eq hMirrored), hBehind, List.take_append_drop]

end Mirrored

/-- **The sum over half the taps is the sum over all of them.**  Of taps that read the same from
both ends and are not all equal, the direct sum with the phase of half the length taken back is the
sum of cosines over the first half, the tap in the middle counted once, for every length, scale,
frequency and sample interval.  This half is what is stored of such taps. -/
theorem asymmetricResponse_mirrored {taps : List ℝ} (hMirrored : taps.reverse = taps)
    (hUneven : ∃ a ∈ taps, ∃ b ∈ taps, a ≠ b) (scale w interval : ℝ) :
    asymmetricResponse ⟨.asymmetric, taps, scale⟩ w interval =
        symmetricResponse ⟨if taps.length % 2 = 0 then .even else .odd,
          taps.take ((taps.length + 1) / 2), scale⟩ w interval ∧
      folded ⟨.asymmetric, taps, scale⟩ = ⟨if taps.length % 2 = 0 then .even else .odd,
        taps.take ((taps.length + 1) / 2), scale⟩ := by
  have hFolded : folded ⟨.asymmetric, taps, scale⟩ =
      ⟨if taps.length % 2 = 0 then .even else .odd, taps.take ((taps.length + 1) / 2), scale⟩ := by
    rw [folded, if_pos (isSymmetric_of_reverse_eq hMirrored)]
  refine ⟨Phasor.toComplex_injective ?_, hFolded⟩
  have hHalf : (folded ⟨.asymmetric, taps, scale⟩).symmetry ≠ .asymmetric :=
    symmetry_folded_ne (isSymmetric_of_reverse_eq hMirrored)
  rw [← hFolded, toComplex_asymmetricResponse hUneven, toComplex_symmetricResponse hHalf,
    impulse_folded_of_reverse_eq hMirrored, scale_folded]

/-- The taps 1, 2, 1, at the frequency where their sum vanishes. -/
theorem asymmetricResponse_mirrored_triangle :
    ([1, 2, 1] : List ℝ).reverse = [1, 2, 1] ∧
      (∃ a ∈ ([1, 2, 1] : List ℝ), ∃ b ∈ [1, 2, 1], a ≠ b) ∧
      asymmetricResponse ⟨.asymmetric, [1, 2, 1], 1 / 4⟩ Real.pi 1 =
        symmetricResponse ⟨.odd, [1, 2], 1 / 4⟩ Real.pi 1 := by
  have hUneven : ∃ a ∈ ([1, 2, 1] : List ℝ), ∃ b ∈ [1, 2, 1], a ≠ b :=
    ⟨1, by simp, 2, by simp, by norm_num⟩
  exact ⟨rfl, hUneven, (asymmetricResponse_mirrored rfl hUneven (1 / 4) Real.pi 1).1⟩

/-! ## Boxcars -/

theorem one_sub_exp (z : ℂ) : 1 - exp (-(2 * z) * I) = 2 * Complex.sin z * I * exp (-z * I) := by
  have hTwice : exp (-(2 * z) * I) = exp (-z * I) * exp (-z * I) := by
    rw [← Complex.exp_add]
    congr 1
    ring
  have hBack : exp (z * I) * exp (-z * I) = 1 := by
    rw [← Complex.exp_add, neg_mul, add_neg_cancel, Complex.exp_zero]
  calc 1 - exp (-(2 * z) * I)
      = exp (z * I) * exp (-z * I) - exp (-z * I) * exp (-z * I) := by rw [hTwice, hBack]
    _ = (exp (-z * I) - exp (z * I)) * I * I * exp (-z * I) := by
      linear_combination (exp (-z * I) - exp (z * I)) * exp (-z * I) * (-Complex.I_mul_I)
    _ = 2 * Complex.sin z * I * exp (-z * I) := by rw [← Complex.two_sin]

/-- A sum of equal taps is geometric. -/
theorem spectrum_replicate (θ a : ℝ) (n : ℕ) :
    spectrum θ (List.replicate n a) * (1 - exp (-θ * I)) = a * (1 - exp (-(n * θ) * I)) := by
  induction n with
  | zero => simp [spectrum_nil]
  | succ n ih =>
    have hPhase : -(((n + 1 : ℕ) : ℂ) * θ) * I = -θ * I + -(n * θ) * I := by
      push_cast
      ring
    rw [List.replicate_succ, spectrum_cons, hPhase, Complex.exp_add]
    linear_combination exp (-θ * I) * ih

/-- With the phase taken back it is a quotient of sines. -/
theorem centredSum_replicate (θ a : ℝ) (n : ℕ) :
    centredSum θ (List.replicate n a) * Real.sin (θ / 2) = (Real.sin (θ / 2 * n) * a : ℝ) := by
  have hGeometric := spectrum_replicate θ a n
  have hOne : (-θ : ℂ) * I = -(2 * (θ / 2)) * I := by ring
  have hAll : -(n * θ : ℂ) * I = -(2 * (θ / 2 * n)) * I := by ring
  have hPhase : exp (-(θ / 2 * n : ℂ) * I) * exp ((n - 1) / 2 * θ * I) =
      exp (-(θ / 2 : ℂ) * I) := by
    rw [← Complex.exp_add]
    congr 1
    ring
  rw [hOne, hAll, one_sub_exp, one_sub_exp] at hGeometric
  have hCancel : 2 * I * exp (-(θ / 2 : ℂ) * I) ≠ 0 :=
    mul_ne_zero (mul_ne_zero two_ne_zero Complex.I_ne_zero) (Complex.exp_ne_zero _)
  refine mul_right_cancel₀ hCancel ?_
  rw [centredSum, List.length_replicate]
  push_cast
  linear_combination exp ((n - 1) / 2 * θ * I) * hGeometric +
    a * (2 * Complex.sin (θ / 2 * n) * I) * hPhase

theorem centredSum_zero (taps : List ℝ) : centredSum 0 taps = (taps.sum : ℝ) := by
  have hSpectrum : spectrum 0 taps = (taps.sum : ℝ) := by
    induction taps with
    | nil => simp [spectrum_nil]
    | cons c rest ih =>
      rw [spectrum_cons, ih, List.sum_cons]
      simp
  rw [centredSum, hSpectrum]
  simp

/-- The sine of half the phase vanishes at whole turns only. -/
theorem sin_half_ne_zero {θ : ℝ} (hPhase : ∀ turns : ℤ, turns ≠ 0 → θ ≠ turns * (2 * Real.pi))
    (hNonzero : θ ≠ 0) : Real.sin (θ / 2) ≠ 0 := by
  intro hSin
  obtain ⟨turns, hTurns⟩ := Real.sin_eq_zero_iff.mp hSin
  have hAngle : θ = turns * (2 * Real.pi) := by linarith only [hTurns]
  refine hPhase turns ?_ hAngle
  rintro rfl
  exact hNonzero (by rw [hAngle, Int.cast_zero, zero_mul])

theorem ne_turns_of_abs_lt {θ : ℝ} (h : |θ| < 6) (turns : ℤ) (hTurns : turns ≠ 0) :
    θ ≠ turns * (2 * Real.pi) := by
  rintro rfl
  have hOne : (1 : ℝ) ≤ |(turns : ℝ)| := by exact_mod_cast Int.one_le_abs hTurns
  rw [abs_mul, abs_of_pos Real.two_pi_pos] at h
  nlinarith only [h, hOne, Real.pi_gt_three]

theorem boxcar_zero (a : ℝ) (n : ℕ) : boxcar 0 a n = 1 := by
  have hZero : ((0 : ℝ) == (Scalar.ofNat 0).ofNat) = true :=
    (ExactScalar.beq_iff _ _).mpr ExactScalar.numeral_zero.symm
  rw [boxcar, if_pos hZero, ExactScalar.numeral_one]

theorem boxcar_eq_centredSum {θ : ℝ} (hNonzero : θ ≠ 0) (hSin : Real.sin (θ / 2) ≠ 0) (a : ℝ)
    (n : ℕ) : ((boxcar θ a n : ℝ) : ℂ) = centredSum θ (List.replicate n a) := by
  have hBeq : ¬ (θ == (Scalar.ofNat 0).ofNat) = true := by
    rw [Bool.not_eq_true, ExactScalar.beq_zero_eq_false_iff]
    exact hNonzero
  have hQuotient : boxcar θ a n = Real.sin (θ / 2 * n) / Real.sin (θ / 2) * a := by
    rw [boxcar, if_neg hBeq, ExactScalar.numeral_two]
    rfl
  have hSinComplex : ((Real.sin (θ / 2) : ℝ) : ℂ) ≠ 0 := Complex.ofReal_ne_zero.mpr hSin
  refine mul_right_cancel₀ hSinComplex ?_
  rw [centredSum_replicate, hQuotient, ← Complex.ofReal_mul]
  congr 1
  field_simp

/-- The response of equal taps. -/
theorem toComplex_asymmetricResponse_replicate {n : ℕ} (hn : 0 < n) (a scale w interval : ℝ) :
    (asymmetricResponse ⟨.asymmetric, List.replicate n a, scale⟩ w interval).toComplex =
      (boxcar (w * interval) a n : ℝ) := by
  obtain ⟨m, rfl⟩ := Nat.exists_eq_add_one_of_ne_zero hn.ne'
  have hAll : (a :: List.replicate m a).all (· == a) = true :=
    List.all_eq_true.mpr fun c hc => by
      rw [List.eq_of_mem_replicate (n := m + 1) hc]
      exact ExactScalar.beq_self a
  rw [List.replicate_succ, asymmetricResponse]
  dsimp only
  rw [if_pos hAll, List.length_replicate]
  exact Complex.ext rfl Nat.cast_zero

/-- **The response of equal taps is their scaled sum only at scale 1, and hardly ever at frequency
0.**  For `n` equal taps `a` at a phase `w * interval` other than whole turns, the quotient of sines
is the direct sum with the phase of half the length taken back; the scale does not enter.  At phase
0, where that sum is `n * a`, the response is 1.  So it is the scale times the sum if and only if
the scale is 1 or the sum vanishes, and at phase 0 if and only if the scale times `n * a` is 1.  A
check leaves no such filters, see `Filter.isBoxcar_canonicalForm`. -/
theorem asymmetricResponse_boxcar {n : ℕ} (hn : 0 < n) {w interval : ℝ}
    (hPhase : ∀ turns : ℤ, turns ≠ 0 → w * interval ≠ turns * (2 * Real.pi)) (a scale : ℝ) :
    (w * interval = 0 →
        (asymmetricResponse ⟨.asymmetric, List.replicate n a, scale⟩ w interval).toComplex = 1 ∧
        centredSum (w * interval) (List.replicate n a) = n * a) ∧
      (w * interval ≠ 0 →
        (asymmetricResponse ⟨.asymmetric, List.replicate n a, scale⟩ w interval).toComplex =
          centredSum (w * interval) (List.replicate n a)) ∧
      ((asymmetricResponse ⟨.asymmetric, List.replicate n a, scale⟩ w interval).toComplex =
          scale * centredSum (w * interval) (List.replicate n a) ↔
        w * interval = 0 ∧ scale * (n * a) = 1 ∨
          w * interval ≠ 0 ∧ (scale = 1 ∨ centredSum (w * interval) (List.replicate n a) = 0)) := by
  have hAtZero : w * interval = 0 →
      (asymmetricResponse ⟨.asymmetric, List.replicate n a, scale⟩ w interval).toComplex = 1 ∧
        centredSum (w * interval) (List.replicate n a) = n * a := by
    intro hZero
    rw [toComplex_asymmetricResponse_replicate hn, hZero, boxcar_zero, centredSum_zero,
      List.sum_replicate, nsmul_eq_mul]
    simp
  have hElsewhere : w * interval ≠ 0 →
      (asymmetricResponse ⟨.asymmetric, List.replicate n a, scale⟩ w interval).toComplex =
        centredSum (w * interval) (List.replicate n a) := by
    intro hNonzero
    rw [toComplex_asymmetricResponse_replicate hn]
    exact boxcar_eq_centredSum hNonzero (sin_half_ne_zero hPhase hNonzero) a n
  refine ⟨hAtZero, hElsewhere, ?_⟩
  by_cases hZero : w * interval = 0
  · obtain ⟨hResponse, hSum⟩ := hAtZero hZero
    have hReal : (1 : ℂ) = scale * (n * a) ↔ scale * (n * a) = 1 := by
      rw [eq_comm]
      exact_mod_cast Iff.rfl
    rw [hResponse, hSum, hReal]
    simp [hZero]
  · rw [hElsewhere hZero, eq_comm, mul_left_eq_self₀, ← Complex.ofReal_one, Complex.ofReal_inj]
    simp [hZero]

/-- Two taps of 1/2 at half a radian and scale 1. -/
theorem asymmetricResponse_boxcar_pair :
    0 < 2 ∧ (∀ turns : ℤ, turns ≠ 0 → (1 / 2 : ℝ) * 1 ≠ turns * (2 * Real.pi)) ∧
      (asymmetricResponse ⟨.asymmetric, List.replicate 2 (1 / 2), 1⟩ (1 / 2) 1).toComplex =
        (1 : ℝ) * centredSum (1 / 2 * 1) (List.replicate 2 (1 / 2)) := by
  have hPhase := ne_turns_of_abs_lt (θ := 1 / 2 * 1) (by norm_num)
  have hNonzero : (1 / 2 : ℝ) * 1 ≠ 0 := by norm_num
  exact ⟨two_pos, hPhase,
    (asymmetricResponse_boxcar two_pos hPhase (1 / 2) 1).2.2.mpr (.inr ⟨hNonzero, .inl rfl⟩)⟩

/-- Two taps of 1 at frequency 0, and one of them at scale 2. -/
theorem boxcar_not_centredSum :
    (∀ turns : ℤ, turns ≠ 0 → (0 : ℝ) * 1 ≠ turns * (2 * Real.pi)) ∧
      (asymmetricResponse ⟨.asymmetric, List.replicate 2 1, 1⟩ 0 1).toComplex ≠
        (1 : ℝ) * centredSum (0 * 1) (List.replicate 2 1) ∧
      (∀ turns : ℤ, turns ≠ 0 → (1 : ℝ) * 1 ≠ turns * (2 * Real.pi)) ∧
      (asymmetricResponse ⟨.asymmetric, List.replicate 1 1, 2⟩ 1 1).toComplex ≠
        (2 : ℝ) * centredSum (1 * 1) (List.replicate 1 1) := by
  have hPhase := ne_turns_of_abs_lt (θ := 1 * 1) (by norm_num)
  have hNonzero : (1 : ℝ) * 1 ≠ 0 := by norm_num
  refine ⟨ne_turns_of_abs_lt (by norm_num), ?_, hPhase, ?_⟩
  · rw [toComplex_asymmetricResponse_replicate two_pos, zero_mul, boxcar_zero, centredSum_zero]
    norm_num
  · rw [toComplex_asymmetricResponse_replicate one_pos,
      boxcar_eq_centredSum hNonzero (sin_half_ne_zero hPhase hNonzero), List.replicate_one,
      centredSum_singleton]
    norm_num

end InstrumentResponse.Fir
