import Mathlib
import InstrumentResponse.Proofs.Scalar.Modulus

/-!
# Amplitudes as complex numbers

In exact numbers an amplitude is a complex number, with its modulus and its angle.

* `Phasor.toComplex`: the complex number; `Phasor.toComplex_injective`: amplitudes are equal if
  their complex numbers are.
* `Phasor.toComplex_scale`, `Phasor.toComplex_mul`, `Phasor.toComplex_polar`: scaled amplitudes,
  products, and amplitudes given by modulus and angle.
* `Phasor.toComplex_prod`, `Phasor.toComplex_div`: products of many amplitudes, and quotients.
* `Phasor.toComplex_turned`: an amplitude whose angle is enlarged is turned.
-/

namespace InstrumentResponse.Phasor

open Complex (I exp)

/-- The complex number with the same components. -/
def toComplex (z : Phasor ℝ) : ℂ := ⟨z.re, z.im⟩

theorem toComplex_injective {z w : Phasor ℝ} (h : z.toComplex = w.toComplex) : z = w := by
  obtain ⟨hRe, hIm⟩ := Complex.ext_iff.mp h
  rcases z with ⟨re, im⟩
  exact congrArg₂ Phasor.mk hRe hIm

theorem toComplex_zero : (0 : Phasor ℝ).toComplex = 0 :=
  Complex.ext Nat.cast_zero Nat.cast_zero

theorem toComplex_scale (z : Phasor ℝ) (t : ℝ) : (z.scale t).toComplex = z.toComplex * t := by
  refine Complex.ext ?_ ?_
  · rw [Complex.re_mul_ofReal]
    rfl
  · rw [Complex.im_mul_ofReal]
    rfl

theorem toComplex_mul (z w : Phasor ℝ) : (z * w).toComplex = z.toComplex * w.toComplex := rfl

theorem toComplex_one : (1 : Phasor ℝ).toComplex = 1 :=
  Complex.ext Nat.cast_one Nat.cast_zero

theorem toComplex_div (z w : Phasor ℝ) : (z / w).toComplex = z.toComplex / w.toComplex := by
  have hNorm : Complex.normSq w.toComplex = w.normSq := rfl
  refine Complex.ext ?_ ?_
  · rw [Complex.div_re, hNorm, ← add_div]
    rfl
  · rw [Complex.div_im, hNorm, ← sub_div]
    rfl

theorem toComplex_prod (zs : List (Phasor ℝ)) : (prod zs).toComplex = (zs.map toComplex).prod := by
  rw [prod, List.prod_eq_foldl, List.foldl_map, ← toComplex_one]
  exact (List.foldl_hom toComplex fun z w => (toComplex_mul z w).symm).symm

theorem toComplex_imaginary (y : ℝ) :
    (⟨(Scalar.ofNat 0).ofNat, y⟩ : Phasor ℝ).toComplex = y * I := by
  refine Complex.ext ?_ ?_
  · rw [Complex.re_ofReal_mul, Complex.I_re, mul_zero]
    exact ExactScalar.numeral_zero
  · rw [Complex.im_ofReal_mul, Complex.I_im, mul_one]
    rfl

theorem norm_eq (z : Phasor ℝ) : z.norm = ‖z.toComplex‖ := by
  rw [Complex.norm_eq_sqrt_sq_add_sq]
  rfl

theorem toComplex_polar (r θ : ℝ) : (polar r θ).toComplex = r * exp (θ * I) := by
  refine Complex.ext ?_ ?_
  · rw [Complex.re_ofReal_mul, Complex.exp_ofReal_mul_I_re]
    rfl
  · rw [Complex.im_ofReal_mul, Complex.exp_ofReal_mul_I_im]
    rfl

/-- An amplitude whose angle is enlarged is turned by that angle. -/
theorem toComplex_turned (z : Phasor ℝ) (θ : ℝ) :
    (polar z.norm (z.arg + θ)).toComplex = z.toComplex * exp (θ * I) := by
  have hArg : z.arg = z.toComplex.arg := rfl
  rw [toComplex_polar, norm_eq, hArg, Complex.ofReal_add, add_mul, Complex.exp_add, ← mul_assoc,
    Complex.norm_mul_exp_arg_mul_I]

end InstrumentResponse.Phasor
