import InstrumentResponse.Proofs.Scalar.Kinds
import InstrumentResponse.Decimal.Double

/-!
# The bits of a double

A double is a sign bit, eleven bits of an exponent and the 52 bits of a mantissa.

* `toNat_unpackSign`, `toNat_unpackExponent`, `toNat_unpackMantissa`: the three fields as parts of
  one whole number.
* `pack_unpack`, `eq_of_unpack_eq`: unpacking loses nothing.
* `signed`: a magnitude with a sign; `exists_magnitude`: the exact magnitude that is read off the bits is that of the double's number.
* `eq_or_zeros_of_not_lt`: doubles of which none is smaller are the same, or both are zeros.
-/

namespace InstrumentResponse.Double

open Float.Model (UnpackedFloat)
open Float.Model.Format (binary64)
open Float.Model.UnpackedFloat (Sign packComponents unpackSign unpackExponent unpackMantissa
  unpackExponent_packComponents unpackMantissa_packComponents)

section Fields

variable {b b' : BitVec binary64.numBits}

/-! ## Fields -/

theorem toNat_unpackMantissa (b : BitVec binary64.numBits) :
    (unpackMantissa b).toNat = b.toNat % 2 ^ 52 := by
  rw [unpackMantissa, BitVec.toNat_cast, BitVec.extractLsb_toNat, Nat.shiftRight_zero]
  rfl

theorem toNat_unpackExponent (b : BitVec binary64.numBits) :
    (unpackExponent b).toNat = b.toNat / 2 ^ 52 % 2 ^ 11 := by
  rw [unpackExponent, BitVec.toNat_cast, BitVec.extractLsb_toNat, Nat.shiftRight_eq_div_pow]
  rfl

theorem toNat_unpackSign (b : BitVec binary64.numBits) :
    (unpackSign b).toNat = b.toNat / 2 ^ 63 := by
  have hBits : b.toNat < 2 ^ 64 := b.isLt
  have hSign : (unpackSign b).toNat = b.toNat / 2 ^ 63 % 2 ^ 1 := by
    rw [unpackSign, BitVec.toNat_cast, BitVec.extractLsb_toNat, Nat.shiftRight_eq_div_pow]
    rfl
  omega

theorem ofBitVec_eq (s : BitVec 1) :
    Sign.ofBitVec s = if s.toNat = 0 then .positive else .negative := by
  have hZero : s = 0#1 ↔ s.toNat = 0 := BitVec.toNat_inj.symm
  simp only [Sign.ofBitVec, hZero]

theorem ofBitVec_injective {s s' : BitVec 1} (h : Sign.ofBitVec s = Sign.ofBitVec s') : s = s' := by
  have hBit : s.toNat < 2 := s.isLt
  have hBit' : s'.toNat < 2 := s'.isLt
  refine BitVec.eq_of_toNat_eq ?_
  rw [ofBitVec_eq, ofBitVec_eq] at h
  split at h <;> split at h
  · omega
  · cases h
  · cases h
  · omega

theorem eq_of_fields (hSign : Sign.ofBitVec (unpackSign b) = Sign.ofBitVec (unpackSign b'))
    (hExponent : unpackExponent b = unpackExponent b')
    (hMantissa : unpackMantissa b = unpackMantissa b') : b = b' := by
  have hSigns := congrArg BitVec.toNat (ofBitVec_injective hSign)
  have hExponents := congrArg BitVec.toNat hExponent
  have hMantissas := congrArg BitVec.toNat hMantissa
  rw [toNat_unpackSign, toNat_unpackSign] at hSigns
  rw [toNat_unpackExponent, toNat_unpackExponent] at hExponents
  rw [toNat_unpackMantissa, toNat_unpackMantissa] at hMantissas
  refine BitVec.eq_of_toNat_eq ?_
  omega

/-! ## Unpacking -/

/-- A double is put together from its fields. -/
theorem packComponents_fields (b : BitVec binary64.numBits) :
    packComponents binary64 (Sign.ofBitVec (unpackSign b)) (unpackExponent b) (unpackMantissa b) =
      b := by
  apply eq_of_fields
  · rw [sign_packComponents]
  · rw [unpackExponent_packComponents]
  · rw [unpackMantissa_packComponents]

/-- A normal double keeps its exponent, and the leading digit is not stored. -/
theorem pack_normal (s : Sign) {e : BitVec 11} (m : BitVec 52) (hOnes : e ≠ -1#11)
    (hm : 0 < (1#1 ++ m).toNat) :
    UnpackedFloat.pack binary64 (.finite s (1#1 ++ m).toNat (e.toNat - 1075) hm) =
      packComponents binary64 s e m := by
  have hBits : e.toNat < 2048 := e.isLt
  have hMost : e.toNat ≠ 2047 := fun hSame => hOnes (BitVec.eq_of_toNat_eq hSame)
  have hMantissa : m.toNat < 2 ^ 52 := m.isLt
  have hBiased : ((e.toNat : ℤ) - 1075 + binary64.exponentBias + (52 : ℕ)).toNat = e.toNat := by
    show ((e.toNat : ℤ) - 1075 + 1023 + 52).toNat = e.toNat
    omega
  have hSize : 2 ^ 52 ≤ 2 ^ 52 + m.toNat ∧ 2 ^ 52 + m.toNat < 2 ^ (52 + 1) := by omega
  have hLog : (1#1 ++ m).toNat.log2 + 1 = binary64.mantissaBits := by
    rw [toNat_one_append, (Nat.log2_eq_iff (by omega)).mpr hSize]
    rfl
  have hExponent : BitVec.ofNat 11 e.toNat = e := BitVec.eq_of_toNat_eq (Nat.mod_eq_of_lt hBits)
  have hStored : BitVec.ofNat 52 (1#1 ++ m).toNat = m := by
    refine BitVec.eq_of_toNat_eq ?_
    rw [BitVec.toNat_ofNat, toNat_one_append]
    omega
  unfold UnpackedFloat.pack
  dsimp only
  rw [hBiased, if_neg (by omega), if_pos hLog]
  exact congrArg₂ (packComponents binary64 s) hExponent hStored

/-- A subnormal double has less digits and the exponent 0. -/
theorem pack_subnormal (s : Sign) {m : BitVec 52} (hm : 0 < m.toNat) :
    UnpackedFloat.pack binary64 (.finite s m.toNat (-1074) hm) = packComponents binary64 s 0#11 m := by
  have hMantissa : m.toNat < 2 ^ 52 := m.isLt
  have hLog : ¬ m.toNat.log2 + 1 = binary64.mantissaBits := by
    have hLess : m.toNat.log2 < 52 := (Nat.log2_lt hm.ne').mpr hMantissa
    show ¬ m.toNat.log2 + 1 = 1 + 52
    omega
  have hStored : BitVec.ofNat 52 m.toNat = m := BitVec.eq_of_toNat_eq (Nat.mod_eq_of_lt hMantissa)
  unfold UnpackedFloat.pack
  dsimp only
  rw [if_neg (by decide), if_neg hLog]
  exact congrArg (packComponents binary64 s 0#11) hStored

/-- Unpacking loses nothing. -/
theorem pack_unpack (h : binary64.Valid b) :
    UnpackedFloat.pack binary64 (UnpackedFloat.unpack binary64 b) = b := by
  conv_rhs => rw [← packComponents_fields b]
  unfold UnpackedFloat.unpack
  dsimp only
  split
  · next hOnes =>
    split
    · next hZeros =>
      rw [hOnes, hZeros]
      rfl
    · next hSome =>
      rw [packComponents_fields]
      exact (h.eq_packedNaN hOnes hSome).symm
  · next hOnes =>
    split
    · next hLeast =>
      split
      · next hZeros =>
        rw [hLeast, hZeros]
        rfl
      · next hSome =>
        rw [hLeast]
        exact pack_subnormal _ _
    · exact pack_normal _ _ hOnes _

theorem eq_of_unpack_eq {x y : Float} (h : x.toModel.unpack = y.toModel.unpack) : x = y := by
  rcases x with ⟨⟨⟨a⟩, hx⟩⟩
  rcases y with ⟨⟨⟨b⟩, hy⟩⟩
  obtain rfl : a = b :=
    calc a = UnpackedFloat.pack binary64 (UnpackedFloat.unpack binary64 a) := (pack_unpack hx).symm
      _ = UnpackedFloat.pack binary64 (UnpackedFloat.unpack binary64 b) :=
          congrArg (UnpackedFloat.pack binary64) h
      _ = b := pack_unpack hy
  rfl

end Fields

/-! ## Magnitudes -/

/-- A number with a sign. -/
def signed (negative : Bool) (q : ℚ) : ℚ := if negative then -q else q

theorem signed_zero (negative : Bool) : signed negative 0 = 0 := by
  cases negative with
  | false => rfl
  | true => exact neg_zero

theorem signed_eq_zero_iff {negative : Bool} {q : ℚ} : signed negative q = 0 ↔ q = 0 := by
  cases negative with
  | false => exact Iff.rfl
  | true => exact neg_eq_zero

theorem signed_signed (negative : Bool) (q : ℚ) : signed negative (signed negative q) = q := by
  cases negative with
  | false => rfl
  | true => exact neg_neg q

theorem abs_signed (negative : Bool) (q : ℚ) : |signed negative q| = |q| := by
  cases negative with
  | false => rfl
  | true => exact abs_neg q

theorem signed_sub (negative : Bool) (q r : ℚ) :
    signed negative (q - r) = signed negative q - signed negative r := by
  cases negative with
  | false => rfl
  | true => exact neg_sub' q r

/-- The distance of a number with a sign is one of its magnitude. -/
theorem abs_signed_sub (negative : Bool) (q r : ℚ) :
    |signed negative q - r| = |q - signed negative r| := by
  rw [← abs_signed negative, signed_sub, signed_signed]

theorem numberOf_finite (s : Sign) {m : Nat} {e : ℤ} (hm : 0 < m) :
    numberOf (.finite s m e hm) = signed (s == .negative) (m * 2 ^ e) := by
  cases s with
  | positive => exact numberOf_positive hm e
  | negative => exact numberOf_negative hm e

theorem magnitudeOfBits_eq (b : BitVec binary64.numBits) :
    Decimal.magnitudeOfBits b.toNat =
      if (unpackExponent b).toNat = 2047 then
        if (unpackMantissa b).toNat = 0 then .infinite else .notANumber
      else if (unpackExponent b).toNat = 0 then .finite (unpackMantissa b).toNat (-1074)
      else .finite (2 ^ 52 + (unpackMantissa b).toNat) ((unpackExponent b).toNat - 1075) := by
  rw [toNat_unpackExponent, toNat_unpackMantissa]
  rfl

theorem ofBitVec_beq_negative (b : BitVec binary64.numBits) :
    (Sign.ofBitVec (unpackSign b) == .negative) = decide (2 ^ 63 ≤ b.toNat) := by
  rw [ofBitVec_eq, toNat_unpackSign]
  by_cases h : 2 ^ 63 ≤ b.toNat
  · rw [if_neg (by omega), decide_eq_true h]
    rfl
  · rw [if_pos (by omega), decide_eq_false h]
    rfl

/-- What the bits of a finite double give as its magnitude is the magnitude of its number. -/
theorem exists_magnitude {x : Float} (hx : x.isFinite = true) : ∃ m q,
    Decimal.magnitude x = .finite m q ∧ value x = signed (Decimal.isNegative x) (m * 2 ^ q) := by
  obtain ⟨b, hb⟩ : ∃ b : BitVec binary64.numBits, x.toBits.toBitVec = b := ⟨_, rfl⟩
  have hMagnitude : Decimal.magnitude x = Decimal.magnitudeOfBits b.toNat := by rw [← hb]; rfl
  have hNegative : Decimal.isNegative x = (Sign.ofBitVec (unpackSign b) == .negative) := by
    rw [ofBitVec_beq_negative, ← hb]
    rfl
  have hUnpack : x.toModel.unpack = UnpackedFloat.unpack binary64 b := by rw [← hb]; rfl
  change x.toModel.unpack.isFinite = true at hx
  rw [hMagnitude, magnitudeOfBits_eq, hNegative, value, hUnpack]
  rw [hUnpack] at hx
  unfold UnpackedFloat.unpack at hx ⊢
  dsimp only at hx ⊢
  by_cases hOnes : unpackExponent b = -1#11
  · rw [if_pos hOnes] at hx
    split at hx <;> cases hx
  · have hMost : (unpackExponent b).toNat ≠ 2047 := fun h => hOnes (BitVec.eq_of_toNat_eq h)
    rw [if_neg hMost, if_neg hOnes]
    by_cases hLeast : unpackExponent b = 0#11
    · have hZero : (unpackExponent b).toNat = 0 := congrArg BitVec.toNat hLeast
      rw [if_pos hLeast, if_pos hZero, hZero]
      refine ⟨_, _, rfl, ?_⟩
      split
      · next hNothing =>
        rw [hNothing, numberOf_zero, BitVec.toNat_zero, Nat.cast_zero, zero_mul, signed_zero]
      · rw [numberOf_finite]
        rfl
    · have hNormal : (unpackExponent b).toNat ≠ 0 := fun h => hLeast (BitVec.eq_of_toNat_eq h)
      rw [if_neg hLeast, if_neg hNormal]
      refine ⟨_, _, rfl, ?_⟩
      rw [numberOf_finite, toNat_one_append]
      rfl

/-! ## Comparisons -/

section Compare

variable {u v : UnpackedFloat} {x y : Float}

theorem compare_swap (u v : UnpackedFloat) : v.compare u = (u.compare v).map Ordering.swap := by
  have hSwap : ∀ (m m' : Nat) (e e' : ℤ), (compare e' e).then (compare m' m) =
      ((compare e e').then (compare m m')).swap := by
    intro m m' e e'
    rw [Ordering.swap_then, ← Std.OrientedCmp.eq_swap, ← Std.OrientedCmp.eq_swap]
  rcases u with (_ | _) | _ | s | ⟨_ | _, m, e, hm⟩ <;>
    rcases v with (_ | _) | _ | s' | ⟨_ | _, m', e', hm'⟩ <;> try rfl
  · exact congrArg (fun o => some o.swap) (hSwap m m' e e')
  · exact congrArg some (hSwap m m' e e')

theorem exists_compare (hu : u.isNaN = false) (hv : v.isNaN = false) :
    ∃ o, u.compare v = some o := by
  rcases u with (_ | _) | _ | s | ⟨_ | _, m, e, hm⟩ <;>
    rcases v with (_ | _) | _ | s' | ⟨_ | _, m', e', hm'⟩ <;>
    first | exact ⟨_, rfl⟩ | exact absurd hu (by decide) | exact absurd hv (by decide)

theorem lt_iff_compare : x < y ↔ x.toModel.unpack.compare y.toModel.unpack = some .lt :=
  decide_eq_true_iff.trans beq_iff_eq

theorem le_iff_not_lt (hx : x.isNaN = false) (hy : y.isNaN = false) : x ≤ y ↔ ¬ y < x := by
  have hLe : x ≤ y ↔ x.toModel.unpack.le y.toModel.unpack = true := decide_eq_true_iff
  obtain ⟨o, ho⟩ := exists_compare hx hy
  rw [hLe, lt_iff_compare, UnpackedFloat.le, compare_swap x.toModel.unpack, ho]
  cases o <;> decide

theorem le_of_lt (h : x < y) : x ≤ y := by
  have hLe : x ≤ y ↔ x.toModel.unpack.le y.toModel.unpack = true := decide_eq_true_iff
  rw [hLe, UnpackedFloat.le, lt_iff_compare.mp h]
  rfl

theorem le_iff_value_le (hx : x.isFinite = true) (hy : y.isFinite = true) :
    x ≤ y ↔ value x ≤ value y := by
  rw [le_iff_not_lt (not_isNaN_of_isFinite hx).1 (not_isNaN_of_isFinite hy).1, lt_iff_value_lt hy hx,
    not_lt]

theorem pos_iff_value_pos (hx : x.isFinite = true) : 0 < x ↔ 0 < value x := lt_iff_value_lt rfl hx

theorem isFinite_of_compare {w : UnpackedFloat} (hu : u.isFinite = true) (hw : w.isFinite = true)
    (huv : u.le v = true) (hvw : v.compare w = some .lt) : v.isFinite = true := by
  have hAbove : (some Ordering.gt : Option Ordering) ≠ some .lt := by decide
  rcases v with (_ | _) | _ | s | ⟨s, m, e, hm⟩
  · -- nothing finite is below
    rcases u with s | _ | s | ⟨s, m, e, hm⟩
    · exact absurd hu Bool.false_ne_true
    · exact absurd hu Bool.false_ne_true
    · exact absurd huv Bool.false_ne_true
    · exact absurd huv Bool.false_ne_true
  · -- nothing finite is above
    rcases w with s | _ | s | ⟨s, m, e, hm⟩
    · exact absurd hw Bool.false_ne_true
    · exact absurd hw Bool.false_ne_true
    · exact absurd hvw hAbove
    · exact absurd hvw hAbove
  · cases hvw
  · rfl
  · rfl

/-- What lies between finite doubles is finite. -/
theorem isFinite_of_between {z : Float} (hx : x.isFinite = true) (hz : z.isFinite = true)
    (hxy : x ≤ y) (hyz : y < z) : y.isFinite = true := by
  have hLe : x.toModel.unpack.le y.toModel.unpack = true := decide_eq_true_iff.mp hxy
  have hFinite : y.toModel.unpack.isFinite = true :=
    isFinite_of_compare hx hz hLe (lt_iff_compare.mp hyz)
  exact hFinite

/-- Of two doubles one is smaller, or they are the same, or both are zeros. -/
theorem eq_or_zeros_of_not_lt (hx : x.isNaN = false) (hy : y.isNaN = false) (hxy : ¬ x < y)
    (hyx : ¬ y < x) :
    x = y ∨ ∃ s s', x.toModel.unpack = .zero s ∧ y.toModel.unpack = .zero s' := by
  rw [lt_iff_compare] at hxy hyx
  obtain ⟨o, ho⟩ := exists_compare hx hy
  rw [compare_swap x.toModel.unpack, ho] at hyx
  cases o with
  | lt => exact absurd ho hxy
  | gt => exact absurd rfl hyx
  | eq => exact (eq_or_zero_of_compare ho).imp_left eq_of_unpack_eq

/-- There are two zeros. -/
theorem eq_zero_of_unpack {s : Sign} (h : x.toModel.unpack = .zero s) : x = 0 ∨ x = -0 := by
  cases s with
  | positive => exact .inl (eq_of_unpack_eq h)
  | negative => exact .inr (eq_of_unpack_eq h)

end Compare

end InstrumentResponse.Double
