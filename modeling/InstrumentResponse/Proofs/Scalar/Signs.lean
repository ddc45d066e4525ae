import InstrumentResponse.Proofs.Scalar.Bits

/-!
# Signs of doubles

A zero has a sign, which comparisons do not see and which sums, products and quotients carry on.

* `HasSign`: a number with a sign, which is not lost in packing; `hasSign_ofNat`: whole numbers
  have no minus sign.
* `Opposed`: the two zeros, or twice what is not a number.  Multiplied or divided by the same double
  without a minus sign they stay so, and added to the opposite zeros they give the same
  (`Opposed.add_zeros`).
-/

namespace InstrumentResponse.Double

open Float.Model (UnpackedFloat)
open Float.Model.Format (binary64)
open Float.Model.UnpackedFloat (Sign packComponents unpackExponent_packComponents)

/-! ## Numbers with a sign -/

/-- A number with the sign `s`, not a double that is no number. -/
def HasSign (s : Sign) : UnpackedFloat → Prop
  | .finite s' _ _ _ | .infinity s' | .zero s' => s' = s
  | .notANumber => False

section Unpacked

variable {s : Sign} {u v : UnpackedFloat}

theorem hasSign_unpack_packComponents (s : Sign) {e : BitVec 11} (m : BitVec 52) (h : e ≠ -1#11) :
    HasSign s (UnpackedFloat.unpack binary64 (packComponents binary64 s e m)) := by
  unfold UnpackedFloat.unpack
  dsimp only
  rw [unpackExponent_packComponents, sign_packComponents, if_neg h]
  split
  · split <;> rfl
  · rfl

theorem HasSign.unpack_pack (h : HasSign s u) :
    HasSign s (UnpackedFloat.unpack binary64 (UnpackedFloat.pack binary64 u)) := by
  cases u with
  | notANumber => exact h
  | infinity s' =>
    cases h
    cases s <;> rfl
  | zero s' =>
    cases h
    cases s <;> rfl
  | finite s' m e hm =>
    cases h
    rw [UnpackedFloat.pack]
    split
    · cases s <;> rfl
    · next hFits =>
      split
      · refine hasSign_unpack_packComponents s _ fun hOnes => ?_
        have hSame := congrArg BitVec.toNat hOnes
        rw [BitVec.toNat_ofNat] at hSame
        change _ % 2048 = 2047 at hSame
        change ¬ 2048 ≤ _ at hFits
        omega
      · exact hasSign_unpack_packComponents s _ (by decide)

theorem hasSign_roundWithAccuracy (s : Sign) (m : Nat) (e : ℤ) (a : UnpackedFloat.Accuracy) :
    HasSign s (UnpackedFloat.roundWithAccuracy binary64 s m e a) := by
  rw [UnpackedFloat.roundWithAccuracy]
  dsimp only
  split <;> rfl

theorem hasSign_unpacked_ofNat (n : Nat) : HasSign .positive (UnpackedFloat.ofNat binary64 n) := by
  show HasSign .positive (UnpackedFloat.normalize binary64 n 0 .positive)
  unfold UnpackedFloat.normalize
  split
  · next h => exact absurd (compare_lt_iff_lt.mp h) (by omega)
  · rfl
  · exact hasSign_roundWithAccuracy ..

theorem HasSign.mul_finite (hu : HasSign .positive u) {m : Nat} {e : ℤ} (hm : 0 < m) :
    HasSign .positive (u.mul binary64 (.finite .positive m e hm)) := by
  cases u with
  | notANumber => exact hu.elim
  | finite s m' e' hm' =>
    cases hu
    exact hasSign_roundWithAccuracy ..
  | _ =>
    cases hu
    rfl

end Unpacked

theorem hasSign_mul_finite {x y : Float} {m : Nat} {e : ℤ} {hm : 0 < m}
    (hx : HasSign .positive x.toModel.unpack)
    (hy : y.toModel.unpack = .finite .positive m e hm) :
    HasSign .positive (x * y).toModel.unpack := by
  refine HasSign.unpack_pack ?_
  rw [hy]
  exact hx.mul_finite hm

theorem hasSign_ofScientific (n : Nat) :
    HasSign .positive (UnpackedFloat.ofScientific binary64 n 0) := by
  have hRange : (0 : ℤ) ≤ 2 ^ binary64.exponentBits := by positivity
  rw [UnpackedFloat.ofScientific]
  by_cases hn : n = 0
  · rw [dif_pos hn]
    rfl
  · rw [dif_neg hn, if_neg (by omega), if_neg (by omega), if_pos le_rfl]
    refine HasSign.mul_finite ?_ _
    exact Eq.refl Sign.positive

/-- Whole numbers have no minus sign. -/
theorem hasSign_ofNat (n : Nat) : HasSign .positive (Float.ofNat n).toModel.unpack := by
  change HasSign .positive (Float.ofScientific n false 0).toModel.unpack
  rw [Float.ofScientific]
  split
  · -- a number that fits is multiplied by the power of ten 1
    have hWhole : HasSign .positive n.toUInt64.toFloat.toModel.unpack :=
      (hasSign_unpacked_ofNat n.toUInt64.toNat).unpack_pack
    have hOne : Float.exactlyRepresentablePowersOfTen[0].toModel.unpack =
        .finite .positive (2 ^ 52) (-52) (by decide) := by rfl
    simp only [Bool.false_eq_true, if_false]
    exact hasSign_mul_finite hWhole hOne
  · exact (hasSign_ofScientific n).unpack_pack

/-! ## Opposite zeros -/

/-- The zero without a minus sign and the one with it, or twice what is not a number. -/
inductive Opposed : UnpackedFloat → UnpackedFloat → Prop
  | notANumber : Opposed .notANumber .notANumber
  | zeros : Opposed (.zero .positive) (.zero .negative)

section Opposed

variable {u v w : UnpackedFloat}

theorem Opposed.unpack_pack (h : Opposed u v) :
    Opposed (UnpackedFloat.unpack binary64 (UnpackedFloat.pack binary64 u))
      (UnpackedFloat.unpack binary64 (UnpackedFloat.pack binary64 v)) := by
  cases h with
  | notANumber => exact .notANumber
  | zeros => exact .zeros

theorem Opposed.unpacked_mul (h : Opposed u v) (hw : HasSign .positive w) :
    Opposed (u.mul binary64 w) (v.mul binary64 w) := by
  cases h with
  | notANumber => exact .notANumber
  | zeros =>
    cases w with
    | notANumber => exact .notANumber
    | infinity s => exact .notANumber
    | _ =>
      cases hw
      exact .zeros

theorem Opposed.unpacked_div (h : Opposed u v) (hw : HasSign .positive w) :
    Opposed (u.div binary64 w) (v.div binary64 w) := by
  cases h with
  | notANumber => exact .notANumber
  | zeros =>
    cases w with
    | notANumber => exact .notANumber
    | zero s => exact .notANumber
    | _ =>
      cases hw
      exact .zeros

variable {x y : Float}

theorem Opposed.mul_ofNat (h : Opposed x.toModel.unpack y.toModel.unpack) (n : Nat) :
    Opposed (x * Float.ofNat n).toModel.unpack (y * Float.ofNat n).toModel.unpack :=
  (h.unpacked_mul (hasSign_ofNat n)).unpack_pack

theorem Opposed.div_ofNat (h : Opposed x.toModel.unpack y.toModel.unpack) (n : Nat) :
    Opposed (x / Float.ofNat n).toModel.unpack (y / Float.ofNat n).toModel.unpack :=
  (h.unpacked_div (hasSign_ofNat n)).unpack_pack

/-- Added to the zeros of the other sign they give the same. -/
theorem Opposed.add_zeros (h : Opposed x.toModel.unpack y.toModel.unpack) : -0 + x = 0 + y := by
  refine eq_of_unpack_eq ?_
  have hSum : ∀ u v : UnpackedFloat, Opposed u v →
      UnpackedFloat.add binary64 (.zero .negative) u = .add binary64 (.zero .positive) v := by
    rintro _ _ (_ | _) <;> rfl
  exact congrArg (fun u => UnpackedFloat.unpack binary64 (UnpackedFloat.pack binary64 u))
    (hSum _ _ h)

end Opposed

end InstrumentResponse.Double
