import InstrumentResponse.Proofs.Chain.UndecodedUnits
import InstrumentResponse.Proofs.Scalar.Polar

/-!
# Conversions between ground motions

In exact numbers a response to one ground motion becomes one to another by a power of `j w`: one
factor for each time that the one motion is differentiated to give the other.

* `Quantity.order`: how often displacement is differentiated to give a ground motion.
* `toComplex_convert`: the power of `j w` that a conversion multiplies by, also at `w = 0`, where
  every power but the zeroth is 0.
* `convert_composes`: so conversions compose, and vanish at `w = 0`.
-/

namespace InstrumentResponse

open Complex (I)

/-- How often displacement is differentiated to give a ground motion. -/
def Quantity.order : Quantity → ℤ
  | .velocity => 1
  | .acceleration => 2
  | _ => 0

theorem OutputUnit.isGroundMotion_of_target? {output : OutputUnit} {q : Quantity}
    (h : output.target? = some q) : q.isGroundMotion = true := by
  cases output <;> cases h <;> rfl

/-- Ground motions that are differentiated equally often are the same. -/
theorem Quantity.eq_of_order_eq {a b : Quantity} (ha : a.isGroundMotion = true)
    (hb : b.isGroundMotion = true) (h : a.order = b.order) : a = b := by
  cases a <;> cases ha <;> cases b <;> cases hb <;> first | rfl | exact absurd h (by decide)

section Conversion

variable {w : ℝ} {a b c : Quantity} {toA toB toC : OutputUnit}

/-! ## Powers of `j w` -/

theorem toComplex_differentiate (w : ℝ) (v : Phasor ℝ) :
    (differentiate w v).toComplex = v.toComplex * (w * I) := by
  rw [differentiate, Phasor.toComplex_mul, Phasor.toComplex_imaginary]

/-- At `w = 0` both sides are 0. -/
theorem toComplex_integrate (w : ℝ) (v : Phasor ℝ) :
    (integrate w v).toComplex = v.toComplex * (w * I)⁻¹ := by
  by_cases hw : w = 0
  · have hZero : (w == (Scalar.ofNat 0).ofNat) = true :=
      (ExactScalar.beq_iff _ _).mpr (hw.trans ExactScalar.numeral_zero.symm)
    rw [integrate, if_pos hZero, Phasor.toComplex_zero, hw]
    simp
  · have hNonzero : ¬ (w == (Scalar.ofNat 0).ofNat) = true := by
      rw [Bool.not_eq_true, ExactScalar.beq_zero_eq_false_iff]
      exact hw
    have hInverse : ((-(Scalar.ofNat 1).ofNat / w : ℝ) : ℂ) * I = (w * I)⁻¹ := by
      rw [ExactScalar.numeral_one, mul_inv, Complex.inv_I, Complex.ofReal_div, Complex.ofReal_neg,
        Complex.ofReal_one]
      ring
    rw [integrate, if_neg hNonzero, Phasor.toComplex_mul, Phasor.toComplex_imaginary, hInverse]

theorem toComplex_toVelocity (ha : a.isGroundMotion = true) (w : ℝ) (v : Phasor ℝ) :
    (toVelocity w a v).toComplex = v.toComplex * (w * I) ^ (a.order - 1) := by
  cases a <;> cases ha
  · exact (toComplex_integrate w v).trans (by simp [Quantity.order])
  · simp [toVelocity, Quantity.order]
  · exact (toComplex_differentiate w v).trans (by simp [Quantity.order])

theorem toComplex_ofVelocity (hb : b.isGroundMotion = true) (w : ℝ) (v : Phasor ℝ) :
    (ofVelocity w b v).toComplex = v.toComplex * (w * I) ^ (1 - b.order) := by
  cases b <;> cases hb
  · exact (toComplex_differentiate w v).trans (by simp [Quantity.order])
  · simp [ofVelocity, Quantity.order]
  · exact (toComplex_integrate w v).trans (by simp [Quantity.order])

/-- A response to the wanted motion is left alone. -/
theorem convert_self (hTo : toA.target? = some a) (w : ℝ) (v : Phasor ℝ) : convert w a toA v = v := by
  rw [convert, hTo]
  exact if_pos (.inr rfl)

/-- A conversion multiplies by `j w` as often as the first motion is differentiated more than the
second one. -/
theorem toComplex_convert (ha : a.isGroundMotion = true) (hb : toB.target? = some b) (w : ℝ)
    (v : Phasor ℝ) :
    (convert w a toB v).toComplex = v.toComplex * (w * I) ^ (a.order - b.order) := by
  by_cases hab : a = b
  · subst hab
    rw [convert_self hb, sub_self, zpow_zero, mul_one]
  · have hbMotion := OutputUnit.isGroundMotion_of_target? hb
    have hOrders : a.order - 1 + (1 - b.order) = a.order - b.order := by ring
    have hDiffer : a.order - 1 + (1 - b.order) ≠ 0 := by
      rw [hOrders, sub_ne_zero]
      exact mt (Quantity.eq_of_order_eq ha hbMotion) hab
    have hSteps : convert w a toB v = ofVelocity w b (toVelocity w a v) := by
      rw [convert, hb]
      exact if_neg (not_or.mpr ⟨by simp [ha], hab⟩)
    -- neither step takes back what the other one does, so the powers add up at `w = 0` as well
    rw [hSteps, toComplex_ofVelocity hbMotion, toComplex_toVelocity ha, mul_assoc,
      ← zpow_add' (.inr (.inl hDiffer)), hOrders]

/-! ## Conversions one after the other -/

theorem convert_convert (hw : w ≠ 0) (ha : a.isGroundMotion = true) (hb : toB.target? = some b)
    (hc : toC.target? = some c) (v : Phasor ℝ) :
    convert w b toC (convert w a toB v) = convert w a toC v := by
  have hjw : (w * I : ℂ) ≠ 0 := mul_ne_zero (Complex.ofReal_ne_zero.mpr hw) Complex.I_ne_zero
  have hOrders : a.order - b.order + (b.order - c.order) = a.order - c.order := by ring
  refine Phasor.toComplex_injective ?_
  rw [toComplex_convert (OutputUnit.isGroundMotion_of_target? hb) hc, toComplex_convert ha hb,
    toComplex_convert ha hc, mul_assoc, ← zpow_add₀ hjw, hOrders]

theorem convert_zero (ha : a.isGroundMotion = true) (hb : toB.target? = some b) (hab : a ≠ b)
    (v : Phasor ℝ) : convert 0 a toB v = 0 := by
  have hDiffer : a.order - b.order ≠ 0 :=
    sub_ne_zero.mpr (mt (Quantity.eq_of_order_eq ha (OutputUnit.isGroundMotion_of_target? hb)) hab)
  refine Phasor.toComplex_injective ?_
  rw [toComplex_convert ha hb, Complex.ofReal_zero, zero_mul, zero_zpow _ hDiffer, mul_zero,
    Phasor.toComplex_zero]

theorem convert_of_unconverted {input : Quantity} {output : OutputUnit}
    (h : input.isGroundMotion = false ∨ output = .asInput) (w : ℝ) (v : Phasor ℝ) :
    convert w input output v = v := by
  rcases h with h | rfl
  · exact Chain.convert_of_not_isGroundMotion h w output v
  · rfl

/-- Conversions between ground motions compose.  Each multiplies by a power of `j w`; away from
`w = 0` a detour through any other motion changes nothing and the way back undoes the way there,
and at `w = 0` every conversion to another motion gives 0.  A response to the wanted motion, to
anything else than ground motion or without a wanted motion is left alone. -/
theorem convert_composes (w : ℝ) (v : Phasor ℝ) :
    (∀ (a b : Quantity) (toB : OutputUnit), a.isGroundMotion = true → toB.target? = some b →
      (convert w a toB v).toComplex = v.toComplex * (w * I) ^ (a.order - b.order)) ∧
    (w ≠ 0 → ∀ (a b c : Quantity) (toB toC : OutputUnit), a.isGroundMotion = true →
      toB.target? = some b → toC.target? = some c →
      convert w b toC (convert w a toB v) = convert w a toC v) ∧
    (w ≠ 0 → ∀ (a b : Quantity) (toA toB : OutputUnit), toA.target? = some a →
      toB.target? = some b → convert w b toA (convert w a toB v) = v) ∧
    convert w .velocity .acceleration (convert w .displacement .velocity v) =
      convert w .displacement .acceleration v ∧
    (w = 0 → ∀ (a b : Quantity) (toB : OutputUnit), a.isGroundMotion = true →
      toB.target? = some b → a ≠ b → convert w a toB v = 0) ∧
    (∀ (a : Quantity) (toA : OutputUnit), toA.target? = some a → convert w a toA v = v) ∧
    ∀ (input : Quantity) (output : OutputUnit),
      input.isGroundMotion = false ∨ output = .asInput → convert w input output v = v := by
  refine ⟨?_, ?_, ?_, ?_, ?_, ?_, ?_⟩
  · exact fun a b toB ha hb => toComplex_convert ha hb w v
  · exact fun hw a b c toB toC ha hb hc => convert_convert hw ha hb hc v
  · intro hw a b toA toB hA hB
    rw [convert_convert hw (OutputUnit.isGroundMotion_of_target? hA) hB hA, convert_self hA]
  · rfl
  · rintro rfl a b toB ha hb hab
    exact convert_zero ha hb hab v
  · exact fun a toA hA => convert_self hA w v
  · exact fun input output h => convert_of_unconverted h w v

/-- A displacement response by way of velocity and back again, and one to velocity at `w = 0`. -/
theorem convert_composes_roundTrip :
    (4 : ℝ) ≠ 0 ∧
    convert (4 : ℝ) .velocity .acceleration (convert 4 .displacement .velocity ⟨1, 2⟩) =
      convert 4 .displacement .acceleration ⟨1, 2⟩ ∧
    convert (4 : ℝ) .acceleration .displacement (convert 4 .displacement .acceleration ⟨1, 2⟩) =
      ⟨1, 2⟩ ∧
    convert (0 : ℝ) .velocity .displacement ⟨3, -1⟩ = 0 ∧
    convert (4 : ℝ) .pressure .displacement ⟨3, -1⟩ = ⟨3, -1⟩ := by
  have hw : (4 : ℝ) ≠ 0 := four_ne_zero
  refine ⟨hw, ?_, ?_, ?_, ?_⟩
  · exact (convert_composes 4 ⟨1, 2⟩).2.1 hw .displacement .velocity .acceleration .velocity
      .acceleration rfl rfl rfl
  · exact (convert_composes 4 ⟨1, 2⟩).2.2.1 hw .displacement .acceleration .displacement
      .acceleration rfl rfl
  · exact (convert_composes 0 ⟨3, -1⟩).2.2.2.2.1 rfl .velocity .displacement .displacement rfl rfl
      nofun
  · exact (convert_composes 4 ⟨3, -1⟩).2.2.2.2.2.2 .pressure .displacement (.inl rfl)

end Conversion

end InstrumentResponse
