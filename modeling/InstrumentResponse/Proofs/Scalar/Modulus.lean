import InstrumentResponse.Proofs.Scalar.Exact
import InstrumentResponse.Phasor

/-!
# Scaled amplitudes and their moduli

* `Phasor.scale_one_scale`: the last scale counts if the one before is 1.
* `Phasor.one_mul`, `Phasor.div_one`: the amplitude 1 changes nothing.
* `Phasor.mul_comm`, `Phasor.mul_assoc`, `Phasor.scale_mul_scale`: amplitudes and their scales are
  multiplied in any order.
* `Phasor.norm_scale`: a scaled amplitude has its modulus scaled; `Phasor.norm_scale_one_div`: the
  factor that divides it by the modulus of another one.
-/

namespace InstrumentResponse

namespace Phasor

section Scales

variable {α : Type} [ExactScalar α]

theorem scale_one_scale (z : Phasor α) (t : α) :
    (z.scale (Scalar.ofNat 1).ofNat).scale t = z.scale t := by
  rw [scale, scale, scale, ExactScalar.numeral_one, mul_one, mul_one]

theorem real_scale (x t : α) :
    scale ⟨x * (Scalar.ofNat 1).ofNat, (Scalar.ofNat 0).ofNat⟩ t =
      ⟨x * t, (Scalar.ofNat 0).ofNat⟩ := by
  rw [scale, ExactScalar.numeral_one, ExactScalar.numeral_zero, mul_one, zero_mul]

theorem zero_scale (t : α) : (0 : Phasor α).scale t = 0 := by
  have hZero : (0 : Phasor α) = ⟨(Scalar.ofNat 0).ofNat, (Scalar.ofNat 0).ofNat⟩ := rfl
  rw [hZero, scale, ExactScalar.numeral_zero, zero_mul]

theorem scale_one (z : Phasor α) : z.scale 1 = z := by
  rw [scale, mul_one, mul_one]

end Scales

section Products

variable {α : Type} [ExactScalar α]

theorem one_eq : (1 : Phasor α) = ⟨1, 0⟩ := by
  change (⟨(Scalar.ofNat 1).ofNat, (Scalar.ofNat 0).ofNat⟩ : Phasor α) = _
  rw [ExactScalar.numeral_one, ExactScalar.numeral_zero]

protected theorem one_mul (z : Phasor α) : 1 * z = z := by
  rw [one_eq]
  change (⟨1 * z.re - 0 * z.im, 1 * z.im + 0 * z.re⟩ : Phasor α) = z
  simp

protected theorem div_one (z : Phasor α) : z / 1 = z := by
  rw [one_eq]
  change (⟨(z.re * 1 + z.im * 0) / (1 * 1 + 0 * 0), (z.im * 1 - z.re * 0) / (1 * 1 + 0 * 0)⟩ :
    Phasor α) = z
  simp

protected theorem mul_comm (z w : Phasor α) : z * w = w * z := by
  show (⟨z.re * w.re - z.im * w.im, z.re * w.im + z.im * w.re⟩ : Phasor α) =
    ⟨w.re * z.re - w.im * z.im, w.re * z.im + w.im * z.re⟩
  rw [Phasor.mk.injEq]
  constructor <;> ring

protected theorem mul_assoc (z w v : Phasor α) : z * w * v = z * (w * v) := by
  show (⟨(z.re * w.re - z.im * w.im) * v.re - (z.re * w.im + z.im * w.re) * v.im,
      (z.re * w.re - z.im * w.im) * v.im + (z.re * w.im + z.im * w.re) * v.re⟩ : Phasor α) =
    ⟨z.re * (w.re * v.re - w.im * v.im) - z.im * (w.re * v.im + w.im * v.re),
      z.re * (w.re * v.im + w.im * v.re) + z.im * (w.re * v.re - w.im * v.im)⟩
  rw [Phasor.mk.injEq]
  constructor <;> ring

protected theorem mul_right_comm (z w v : Phasor α) : z * w * v = z * v * w := by
  rw [Phasor.mul_assoc, Phasor.mul_comm w v, ← Phasor.mul_assoc]

theorem scale_mul_scale (z w : Phasor α) (s t : α) :
    z.scale s * w.scale t = (z * w).scale (s * t) := by
  show (⟨z.re * s * (w.re * t) - z.im * s * (w.im * t),
      z.re * s * (w.im * t) + z.im * s * (w.re * t)⟩ : Phasor α) =
    ⟨(z.re * w.re - z.im * w.im) * (s * t), (z.re * w.im + z.im * w.re) * (s * t)⟩
  rw [Phasor.mk.injEq]
  constructor <;> ring

end Products

theorem norm_nonneg (z : Phasor ℝ) : 0 ≤ z.norm := Real.sqrt_nonneg _

theorem norm_scale (z : Phasor ℝ) (t : ℝ) : (z.scale t).norm = z.norm * |t| := by
  have hFactor : (z.re * t) ^ 2 + (z.im * t) ^ 2 = (z.re ^ 2 + z.im ^ 2) * t ^ 2 := by ring
  have hNonneg : 0 ≤ z.re ^ 2 + z.im ^ 2 := by positivity
  calc (z.scale t).norm = √((z.re * t) ^ 2 + (z.im * t) ^ 2) := rfl
    _ = √(z.re ^ 2 + z.im ^ 2) * √(t ^ 2) := by rw [hFactor, Real.sqrt_mul hNonneg]
    _ = z.norm * |t| := by rw [Real.sqrt_sq_eq_abs]; rfl

/-- An amplitude divided by a modulus. -/
theorem norm_scale_one_div (z w : Phasor ℝ) : (z.scale (1 / w.norm)).norm = z.norm / w.norm := by
  rw [norm_scale, abs_of_nonneg (one_div_nonneg.mpr w.norm_nonneg), mul_one_div]

end Phasor

end InstrumentResponse
