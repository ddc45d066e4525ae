import InstrumentResponse.Proofs.Scalar.Rounding

/-!
# Doubles as numbers

A double keeps what it was packed from, as long as its exponent is in range.  So the sum of two
finite doubles is a number of the grid that is nearest to the exact sum, and stays finite below the
largest double and half of its last digit.

* `unpack_pack`: packing loses nothing.
* `value`: the number that a double stands for.
* `roundsTo_add`, `roundsTo_sub`: sums and differences of doubles; `roundsTo_add_small`,
  `roundsTo_sub_small`: they do not overflow where one of the numbers is small.
* `lt_iff_value_lt`: comparisons.
* `toNat_toUInt64`: the whole part.
-/

namespace InstrumentResponse.Double

open Float.Model (UnpackedFloat totalExponent)
open Float.Model.Format (binary64)
open Float.Model.UnpackedFloat (Sign packComponents unpackSign unpackExponent unpackMantissa)

/-! ## Packing -/

theorem sign_packComponents {spec : Float.Model.Format} (s : Sign) (e : BitVec spec.exponentBits)
    (m : BitVec spec.mantissaBitsWithoutImplicit) :
    Sign.ofBitVec (unpackSign (packComponents spec s e m)) = s := by
  have hBit : unpackSign (packComponents spec s e m) = s.toBitVec := by
    apply BitVec.eq_of_getLsbD_eq
    intro i hi
    obtain rfl : i = 0 := by omega
    simp [unpackSign, packComponents, BitVec.getLsbD_append, BitVec.getElem_append]
  rw [hBit]
  cases s <;> rfl

/-- The leading digit of a normal double is not packed. -/
theorem toNat_one_append (m : BitVec 52) : (1#1 ++ m).toNat = 2 ^ 52 + m.toNat := by
  have hSplit := Nat.two_pow_add_eq_or_of_lt m.isLt 1
  rw [Nat.mul_one] at hSplit
  rw [BitVec.toNat_append, hSplit]
  rfl

/-- The exponent is not above the largest one. -/
def Bounded : UnpackedFloat → Prop
  | .finite _ _ e _ => e ≤ 971
  | .zero _ | .infinity _ | .notANumber => True

theorem canonical_bounded_unpack (b : BitVec binary64.numBits) :
    Canonical (UnpackedFloat.unpack binary64 b) ∧ Bounded (UnpackedFloat.unpack binary64 b) := by
  have hMantissa : (unpackMantissa b).toNat < 2 ^ 52 := (unpackMantissa b).isLt
  unfold UnpackedFloat.unpack
  dsimp only
  split
  · split
    · exact ⟨trivial, trivial⟩
    · exact ⟨trivial, trivial⟩
  · next hFinite =>
    split
    · next hLeast =>
      split
      · exact ⟨trivial, trivial⟩
      · rw [hLeast]
        exact ⟨⟨by omega, by decide, .inr (by decide)⟩, (by decide : (-1074 : ℤ) ≤ 971)⟩
    · next hNormal =>
      have hPos : 0 < (unpackExponent b).toNat := by
        rw [BitVec.toNat_pos, BitVec.pos_iff_ne_zero]
        exact hNormal
      have hMost : (unpackExponent b).toNat ≤ 2046 := by
        have hBits : (unpackExponent b).toNat < 2048 := (unpackExponent b).isLt
        have hOther : (unpackExponent b).toNat ≠ 2047 := fun h =>
          hFinite (BitVec.eq_of_toNat_eq h)
        omega
      refine ⟨⟨?_, ?_, .inl ?_⟩, ?_⟩
      · rw [toNat_one_append]
        omega
      · show (-1074 : ℤ) ≤ (unpackExponent b).toNat - 1075
        omega
      · rw [toNat_one_append]
        omega
      · show ((unpackExponent b).toNat : ℤ) - 1075 ≤ 971
        omega

theorem unpack_normal (s : Sign) {e : BitVec 11} (m : BitVec 52) (hLeast : 0 < e.toNat)
    (hMost : e.toNat < 2047) :
    UnpackedFloat.unpack binary64 (packComponents binary64 s e m) =
      .finite s (2 ^ 52 + m.toNat) (e.toNat - 1075) (by omega) := by
  have hFinite : ¬ e = -1#11 := by
    rintro rfl
    exact absurd hMost (by decide)
  have hNormal : ¬ e = 0#11 := by
    rintro rfl
    exact absurd hLeast (by decide)
  unfold UnpackedFloat.unpack
  simp only [Float.Model.UnpackedFloat.unpackExponent_packComponents,
    Float.Model.UnpackedFloat.unpackMantissa_packComponents, sign_packComponents, if_neg hFinite,
    if_neg hNormal, toNat_one_append]
  rfl

theorem unpack_subnormal (s : Sign) {m : BitVec 52} (h : 0 < m.toNat) :
    UnpackedFloat.unpack binary64 (packComponents binary64 s 0#11 m) =
      .finite s m.toNat (-1074) h := by
  have hSome : ¬ m = 0#52 := by
    rintro rfl
    exact absurd h (by decide)
  unfold UnpackedFloat.unpack
  simp only [Float.Model.UnpackedFloat.unpackExponent_packComponents,
    Float.Model.UnpackedFloat.unpackMantissa_packComponents, sign_packComponents]
  rw [if_neg (by decide), if_pos trivial, dif_neg hSome]
  rfl

/-- Packing loses nothing. -/
theorem unpack_pack {u : UnpackedFloat} (hFinite : u.isFinite = true) (h : Canonical u)
    (hBounded : Bounded u) : UnpackedFloat.unpack binary64 (UnpackedFloat.pack binary64 u) = u := by
  cases u with
  | infinity s => cases hFinite
  | notANumber => cases hFinite
  | zero s => cases s <;> rfl
  | finite s m e hm =>
    obtain ⟨hDigits, hLeast, hNormal⟩ := h
    have hMost : e ≤ 971 := hBounded
    have hBiased : (e + binary64.exponentBias + (52 : ℕ)).toNat = (e + 1075).toNat := by
      show (e + 1023 + 52).toNat = _
      omega
    unfold UnpackedFloat.pack
    dsimp only
    rw [hBiased, if_neg (by omega)]
    by_cases hSize : 2 ^ 52 ≤ m
    · have hLog : m.log2 + 1 = binary64.mantissaBits := by
        rw [(Nat.log2_eq_iff hm.ne').mpr ⟨hSize, hDigits⟩]
        rfl
      have hExponent : (BitVec.ofNat 11 (e + 1075).toNat).toNat = (e + 1075).toNat :=
        Nat.mod_eq_of_lt (by omega)
      have hMantissa : 2 ^ 52 + (BitVec.ofNat 52 m).toNat = m := by
        rw [BitVec.toNat_ofNat]
        omega
      rw [if_pos hLog, unpack_normal s _ (by omega) (by omega)]
      congr 1
      rw [hExponent]
      omega
    · have hLog : ¬ m.log2 + 1 = binary64.mantissaBits := by
        have hLess : m.log2 < 52 := (Nat.log2_lt hm.ne').mpr (not_le.mp hSize)
        show ¬ m.log2 + 1 = 1 + 52
        omega
      have hMantissa : (BitVec.ofNat 52 m).toNat = m := Nat.mod_eq_of_lt (not_le.mp hSize)
      rw [if_neg hLog, unpack_subnormal s (by omega)]
      congr 1
      omega

/-! ## The largest double -/

/-- No finite double is larger than this one. -/
def largest : ℚ := (2 ^ 53 - 1) * 2 ^ (971 : ℤ)

theorem largest_nonneg : 0 ≤ largest := by
  unfold largest
  positivity

theorem onGrid_largest : OnGrid largest := by
  refine ⟨2 ^ 53 - 1, 971, by norm_num, by norm_num, ?_⟩
  rw [largest]
  norm_num

/-- What would be the next number of the grid is too large for a double. -/
theorem largest_add : largest + 2 ^ (970 : ℤ) + 2 ^ (970 : ℤ) = 2 ^ (52 : ℤ) * 2 ^ (972 : ℤ) := by
  have hTwice : (2 : ℚ) ^ (971 : ℤ) = 2 ^ (970 : ℤ) * 2 := zpow_add_one₀ two_ne_zero 970
  have hFourfold : (2 : ℚ) ^ (972 : ℤ) = 2 ^ (970 : ℤ) * 2 * 2 := by
    rw [← hTwice, ← zpow_add_one₀ two_ne_zero]
    norm_num
  rw [largest, hTwice, hFourfold]
  generalize (2 : ℚ) ^ (970 : ℤ) = half
  norm_num
  ring

theorem abs_numberOf_le {u : UnpackedFloat} (h : Canonical u) (hBounded : Bounded u) :
    |numberOf u| ≤ largest := by
  cases u with
  | finite s m e hm =>
    have hMantissa : (m : ℚ) ≤ 2 ^ 53 - 1 := by
      have hDigits : m + 1 ≤ 2 ^ 53 := h.1
      have hCast : (m : ℚ) + 1 ≤ 2 ^ 53 := by exact_mod_cast hDigits
      linarith only [hCast]
    have hPower : (2 : ℚ) ^ e ≤ 2 ^ (971 : ℤ) := zpow_le_zpow_right₀ one_le_two hBounded
    rw [numberOf, abs_mul, abs_of_pos (by positivity : (0 : ℚ) < 2 ^ e), ← Int.cast_abs, abs_apply,
      abs_of_nonneg (Int.natCast_nonneg m), largest]
    exact mul_le_mul hMantissa hPower (by positivity) (by norm_num)
  | _ =>
    rw [numberOf, abs_zero]
    exact largest_nonneg

/-- Below the largest double and half of its last digit rounding does not overflow. -/
theorem Rounds.bounded {q : ℚ} {u : UnpackedFloat} (h : Rounds q u)
    (hq : |q| < largest + 2 ^ (970 : ℤ)) : Bounded u := by
  have hBelow : ∀ {q r : ℚ}, Nearest q r → q < largest + 2 ^ (970 : ℤ) →
      r < largest + 2 ^ (970 : ℤ) + 2 ^ (970 : ℤ) := by
    intro q r hNearest hq
    refine hNearest.lt_of_abs_sub_lt onGrid_largest ?_
    have hPos : (0 : ℚ) < 2 ^ (970 : ℤ) := by positivity
    generalize (2 : ℚ) ^ (970 : ℤ) = half at hq hPos ⊢
    rw [abs_lt]
    constructor <;> linarith only [hq, hPos]
  have hAbs : |numberOf u| < 2 ^ (52 : ℤ) * 2 ^ (972 : ℤ) := by
    obtain ⟨hLow, hHigh⟩ := abs_lt.mp hq
    rw [← largest_add, abs_lt]
    exact ⟨neg_lt.mp (hBelow h.nearest.neg (neg_lt.mp hLow)), hBelow h.nearest hHigh⟩
  cases u with
  | finite s m e hm =>
    by_contra hLarge
    have hExponent : 972 ≤ e := not_le.mp hLarge
    have hMantissa : (2 : ℚ) ^ (52 : ℤ) ≤ m := by
      have hWhole : 2 ^ 52 ≤ m := h.canonical.2.2.resolve_right (by omega)
      exact_mod_cast hWhole
    have hPower : (2 : ℚ) ^ (972 : ℤ) ≤ 2 ^ e := zpow_le_zpow_right₀ one_le_two hExponent
    rw [numberOf, abs_mul, abs_of_pos (by positivity : (0 : ℚ) < 2 ^ e), ← Int.cast_abs, abs_apply,
      abs_of_nonneg (Int.natCast_nonneg m)] at hAbs
    exact absurd (mul_le_mul hMantissa hPower (by positivity) (by positivity)) (not_le.mpr hAbs)
  | _ => trivial

/-! ## Doubles -/

/-- The number that a double stands for, 0 if it is not finite. -/
def value (x : Float) : ℚ := numberOf x.toModel.unpack

/-- A double is finite and a nearest one to a number. -/
structure RoundsTo (q : ℚ) (x : Float) : Prop where
  isFinite : x.isFinite = true
  nearest : Nearest q (value x)

section Double

variable {x y : Float} {q : ℚ}

theorem canonical_toModel (x : Float) : Canonical x.toModel.unpack :=
  (canonical_bounded_unpack _).1

theorem onGrid_value (x : Float) : OnGrid (value x) := (canonical_toModel x).onGrid

theorem abs_value_le (x : Float) : |value x| ≤ largest :=
  abs_numberOf_le (canonical_toModel x) (canonical_bounded_unpack _).2

theorem Rounds.roundsTo {u : UnpackedFloat} (h : Rounds q u) (hq : |q| < largest + 2 ^ (970 : ℤ))
    (hx : x.toModel = .pack u) : RoundsTo q x := by
  have hUnpack : x.toModel.unpack = u := by
    rw [hx]
    exact unpack_pack h.isFinite h.canonical (h.bounded hq)
  refine ⟨?_, ?_⟩
  · show x.toModel.unpack.isFinite = true
    rw [hUnpack, h.isFinite]
  · rw [value, hUnpack]
    exact h.nearest

theorem roundsTo_add (hx : x.isFinite = true) (hy : y.isFinite = true)
    (hRange : |value x + value y| < largest + 2 ^ (970 : ℤ)) : RoundsTo (value x + value y) (x + y) :=
  (rounds_add hx hy (canonical_toModel x) (canonical_toModel y)).roundsTo hRange rfl

theorem roundsTo_sub (hx : x.isFinite = true) (hy : y.isFinite = true)
    (hRange : |value x - value y| < largest + 2 ^ (970 : ℤ)) : RoundsTo (value x - value y) (x - y) :=
  (rounds_sub hx hy (canonical_toModel x) (canonical_toModel y)).roundsTo hRange rfl

/-- Adding a number up to `2 ^ 62` never overflows, whatever it is added to. -/
theorem in_range_of_small (x : Float) {q : ℚ} (hq : |q| ≤ 2 ^ 62) :
    |value x + q| < largest + 2 ^ (970 : ℤ) := by
  have hSmall : (2 : ℚ) ^ 62 < 2 ^ (970 : ℤ) := by
    rw [← zpow_natCast]
    exact zpow_lt_zpow_right₀ one_lt_two (by norm_num)
  calc |value x + q| ≤ |value x| + |q| := abs_add_le _ _
    _ < largest + 2 ^ (970 : ℤ) := add_lt_add_of_le_of_lt (abs_value_le x) (hq.trans_lt hSmall)

theorem roundsTo_add_small (hx : x.isFinite = true) (hy : y.isFinite = true)
    (hSmall : |value y| ≤ 2 ^ 62) : RoundsTo (value x + value y) (x + y) :=
  roundsTo_add hx hy (in_range_of_small x hSmall)

theorem roundsTo_sub_small (hx : x.isFinite = true) (hy : y.isFinite = true)
    (hSmall : |value y| ≤ 2 ^ 62) : RoundsTo (value x - value y) (x - y) := by
  refine roundsTo_sub hx hy ?_
  rw [sub_eq_add_neg]
  exact in_range_of_small x (by rwa [abs_neg])

theorem lt_iff_value_lt (hx : x.isFinite = true) (hy : y.isFinite = true) :
    x < y ↔ value x < value y := by
  rw [value, value, ← numberOf_lt_iff hx hy (canonical_toModel x) (canonical_toModel y)]
  exact decide_eq_true_iff

/-- The absolute value of an unpacked double takes away its sign and nothing else. -/
theorem rounds_abs {u : UnpackedFloat} (hFinite : u.isFinite = true) (h : Canonical u)
    (hBounded : Bounded u) :
    u.abs.isFinite = true ∧ Canonical u.abs ∧ Bounded u.abs ∧ numberOf u.abs = |numberOf u| := by
  cases u with
  | infinity s => cases hFinite
  | notANumber => cases hFinite
  | zero s => exact ⟨rfl, trivial, trivial, abs_zero.symm⟩
  | finite s m e hm =>
    refine ⟨rfl, h, hBounded, ?_⟩
    show ((m : ℤ) : ℚ) * 2 ^ e = |(s.apply m : ℚ) * 2 ^ e|
    rw [abs_mul, abs_of_pos (by positivity : (0 : ℚ) < 2 ^ e), ← Int.cast_abs, abs_apply,
      abs_of_nonneg (Int.natCast_nonneg m)]

theorem value_abs (hx : x.isFinite = true) : x.abs.isFinite = true ∧ value x.abs = |value x| := by
  obtain ⟨hFinite, hCanonical, hBounded, hNumber⟩ :=
    rounds_abs hx (canonical_toModel x) (canonical_bounded_unpack _).2
  have hUnpack : x.abs.toModel.unpack = x.toModel.unpack.abs :=
    unpack_pack hFinite hCanonical hBounded
  refine ⟨?_, ?_⟩
  · show x.abs.toModel.unpack.isFinite = true
    rw [hUnpack, hFinite]
  · rw [value, hUnpack, hNumber]
    rfl

/-- The whole part of a positive number. -/
theorem roundToInt_positive {m : Nat} (e : ℤ) :
    UnpackedFloat.roundToInt .positive m e = ⌊(m : ℚ) * 2 ^ e⌋₊ := by
  obtain ⟨k, hDecreased, hExponent⟩ := exists_decreaseExponent m e 0
  have hShift : ∃ n : Nat, (0 - (e - k : ℤ)).toNat = n ∧ e - k = -(n : ℤ) := by
    refine ⟨_, rfl, ?_⟩
    omega
  obtain ⟨n, hn, hNegative⟩ := hShift
  rw [UnpackedFloat.roundToInt, hDecreased]
  dsimp only [Float.Model.UnpackedFloat.shiftToExponent]
  rw [hn, ← mul_two_pow_mul_zpow m k, hNegative]
  have hRepresents := (Represents.ofNat (m * 2 ^ k)).shiftRight n
  rw [zpow_neg, zpow_natCast, ← div_eq_mul_inv, hRepresents.floor_eq]
  rfl

theorem toInt_of_nonneg {u : UnpackedFloat} (hFinite : u.isFinite = true) (hPos : 0 ≤ numberOf u)
    (low high : ℤ) : u.toInt low high = ⌊numberOf u⌋₊ := by
  rcases u with s | _ | s | ⟨_ | _, m, e, hm⟩
  · cases hFinite
  · cases hFinite
  · rw [numberOf_zero, Nat.floor_zero]
    rfl
  · rw [numberOf_negative] at hPos
    have hMagnitude : 0 < (m : ℚ) * 2 ^ e := by positivity
    exact absurd hPos (not_le.mpr (neg_neg_of_pos hMagnitude))
  · rw [numberOf_positive]
    exact roundToInt_positive e

theorem toNat_toUInt64 (hx : x.isFinite = true) (hPos : 0 ≤ value x) (hRange : value x < 2 ^ 64) :
    x.toUInt64.toNat = ⌊value x⌋₊ := by
  have hFits : ⌊value x⌋₊ < UInt64.size := (Nat.floor_lt hPos).mpr (by exact_mod_cast hRange)
  show (UInt64.ofNatClamp (x.toModel.unpack.toInt 0 (UInt64.size - 1)).toNat).toNat = _
  rw [toInt_of_nonneg hx hPos, Int.toNat_natCast]
  show (UInt64.ofNatClamp ⌊value x⌋₊).toNat = _
  rw [UInt64.ofNatClamp_eq_ofNat _ hFits]
  exact UInt64.toNat_ofNat_of_lt hFits

end Double

end InstrumentResponse.Double
