import InstrumentResponse.Proofs.Scalar.Double

/-!
# Doubles that are not numbers

Where an operation on doubles has no result it yields one that is not a number, and so does every
operation after it.  Whether a double is one depends on the kinds of the operands only, infinities
and zeros among them, and not on how finite results are rounded.

* `isNaN_unpack_pack`: packing does not change whether something is a number.
* `isNaN_mul`, `isNaN_div`: products and quotients that are not numbers;
  `isNaN_foldl_mul_iff`: a product of many factors.
* `Vanishing`: a double that is a zero or not a number.  The difference of equal doubles is one, and
  so is a product with one; a quotient of two is not a number.
-/

namespace InstrumentResponse.Double

open Float.Model (UnpackedFloat)
open Float.Model.Format (binary64)
open Float.Model.UnpackedFloat (Sign packComponents unpackExponent_packComponents)

/-! ## Packing -/

theorem isNaN_unpack_packComponents (s : Sign) {e : BitVec 11} (m : BitVec 52) (h : e ≠ -1#11) :
    (UnpackedFloat.unpack binary64 (packComponents binary64 s e m)).isNaN = false := by
  unfold UnpackedFloat.unpack
  dsimp only
  rw [unpackExponent_packComponents, if_neg h]
  split
  · split <;> rfl
  · rfl

/-- What is too large to be packed becomes an infinity, which counts as a number here. -/
theorem isNaN_unpack_pack (u : UnpackedFloat) :
    (UnpackedFloat.unpack binary64 (UnpackedFloat.pack binary64 u)).isNaN = u.isNaN := by
  cases u with
  | notANumber => rfl
  | infinity s => cases s <;> rfl
  | zero s => cases s <;> rfl
  | finite s m e hm =>
    rw [UnpackedFloat.pack]
    split
    · cases s <;> rfl
    · next hFits =>
      split
      · refine isNaN_unpack_packComponents s _ fun hOnes => ?_
        have hSame := congrArg BitVec.toNat hOnes
        rw [BitVec.toNat_ofNat] at hSame
        change _ % 2048 = 2047 at hSame
        change ¬ 2048 ≤ _ at hFits
        omega
      · exact isNaN_unpack_packComponents s _ (by decide)

/-- Is an unpacked double one of the two zeros? -/
def isZero : UnpackedFloat → Bool
  | .zero _ => true
  | _ => false

/-! ## Products and quotients -/

theorem isNaN_roundWithAccuracy (s : Sign) (m : Nat) (e : ℤ) (a : UnpackedFloat.Accuracy) :
    (UnpackedFloat.roundWithAccuracy binary64 s m e a).isNaN = false := by
  rw [UnpackedFloat.roundWithAccuracy]
  dsimp only
  split <;> rfl

theorem isNaN_unpacked_mul (u v : UnpackedFloat) : (u.mul binary64 v).isNaN =
    (u.isNaN || v.isNaN || (u.isInf && isZero v) || (isZero u && v.isInf)) := by
  cases u with
  | finite s m e hm =>
    cases v with
    | finite s' m' e' hm' => exact isNaN_roundWithAccuracy ..
    | _ => rfl
  | _ => cases v <;> rfl

theorem isNaN_unpacked_div (u v : UnpackedFloat) : (u.div binary64 v).isNaN =
    (u.isNaN || v.isNaN || (u.isInf && v.isInf) || (isZero u && isZero v)) := by
  cases u with
  | finite s m e hm =>
    cases v with
    | finite s' m' e' hm' => exact isNaN_roundWithAccuracy ..
    | _ => rfl
  | _ => cases v <;> rfl

theorem beq_zero (x : Float) : (x == 0) = isZero x.toModel.unpack := by
  change (x.toModel.unpack.compare (.zero .positive) == some .eq) = _
  rcases x.toModel.unpack with (_ | _) | _ | s | ⟨_ | _, m, e, hm⟩ <;> rfl

/-- A product is not a number if a factor is none, or if an infinity meets a zero. -/
theorem isNaN_mul (x y : Float) : (x * y).isNaN =
    (x.isNaN || y.isNaN || (x.isInf && y == 0) || (x == 0 && y.isInf)) := by
  rw [beq_zero, beq_zero]
  exact (isNaN_unpack_pack _).trans (isNaN_unpacked_mul _ _)

/-- A quotient is not a number if one of its sides is none, or if both are infinite or zero. -/
theorem isNaN_div (x y : Float) : (x / y).isNaN =
    (x.isNaN || y.isNaN || (x.isInf && y.isInf) || (x == 0 && y == 0)) := by
  rw [beq_zero, beq_zero]
  exact (isNaN_unpack_pack _).trans (isNaN_unpacked_div _ _)

/-! ## Doubles that are no numbers -/

theorem unpack_of_isNaN {x : Float} (h : x.isNaN = true) : x.toModel.unpack = .notANumber := by
  change x.toModel.unpack.isNaN = true at h
  cases hx : x.toModel.unpack with
  | notANumber => rfl
  | _ =>
    rw [hx] at h
    cases h

theorem not_isNaN_of_isFinite {x : Float} (h : x.isFinite = true) :
    x.isNaN = false ∧ x.isInf = false := by
  change x.toModel.unpack.isFinite = true at h
  change x.toModel.unpack.isNaN = false ∧ x.toModel.unpack.isInf = false
  generalize x.toModel.unpack = u at h ⊢
  cases u with
  | notANumber => cases h
  | infinity s => cases h
  | zero s => exact ⟨rfl, rfl⟩
  | finite s m e hm => exact ⟨rfl, rfl⟩

theorem not_isInf_of_isNaN {x : Float} (h : x.isNaN = true) : x.isInf = false := by
  change x.toModel.unpack.isInf = false
  rw [unpack_of_isNaN h]
  rfl

theorem isNaN_abs (x : Float) : x.abs.isNaN = x.isNaN := by
  refine (isNaN_unpack_pack _).trans ?_
  change x.toModel.unpack.abs.isNaN = x.toModel.unpack.isNaN
  cases x.toModel.unpack <;> rfl

theorem isNaN_sub_right (x : Float) {y : Float} (h : y.isNaN = true) : (x - y).isNaN = true := by
  refine (isNaN_unpack_pack _).trans ?_
  rw [unpack_of_isNaN h]
  cases x.toModel.unpack <;> rfl

/-- What is not a number is not above anything. -/
theorem not_le_of_isNaN (x : Float) {y : Float} (h : y.isNaN = true) : ¬ x ≤ y := by
  intro hLe
  have hModel : x.toModel.unpack.le y.toModel.unpack = true := decide_eq_true_iff.mp hLe
  have hNone : ∀ u : UnpackedFloat, u.compare .notANumber = none := by
    rintro ((_ | _) | _ | _ | ⟨_ | _, _, _, _⟩) <;> rfl
  rw [unpack_of_isNaN h, UnpackedFloat.le, hNone] at hModel
  cases hModel

/-! ## Products of many factors -/

/-- An infinity meets a zero in a product of many factors, multiplied from the left. -/
def Clashes : Float → List Float → Prop
  | _, [] => False
  | p, x :: xs => (p.isInf && x == 0 || p == 0 && x.isInf) = true ∨ Clashes (p * x) xs

theorem isNaN_foldl_mul_iff (p : Float) (xs : List Float) :
    (xs.foldl (· * ·) p).isNaN = true ↔
      p.isNaN = true ∨ (∃ x ∈ xs, x.isNaN = true) ∨ Clashes p xs := by
  induction xs generalizing p with
  | nil => simp [Clashes]
  | cons x xs ih =>
    rw [List.foldl_cons, ih, isNaN_mul, Clashes]
    simp only [Bool.or_eq_true, List.exists_mem_cons_iff]
    grind

/-! ## Zeros and what is not a number -/

/-- A zero, or not a number. -/
inductive Vanishes : UnpackedFloat → Prop
  | notANumber : Vanishes .notANumber
  | zero (s : Sign) : Vanishes (.zero s)

section Unpacked

variable {u v : UnpackedFloat}

theorem Vanishes.unpack_pack (h : Vanishes u) :
    Vanishes (UnpackedFloat.unpack binary64 (UnpackedFloat.pack binary64 u)) := by
  cases h with
  | notANumber => exact .notANumber
  | zero s => cases s <;> exact .zero _

theorem Vanishes.mul_left (h : Vanishes u) (v : UnpackedFloat) : Vanishes (u.mul binary64 v) := by
  cases h with
  | notANumber => exact .notANumber
  | zero s =>
    cases v with
    | notANumber => exact .notANumber
    | infinity s' => exact .notANumber
    | _ => exact .zero _

theorem Vanishes.mul_right (h : Vanishes v) (u : UnpackedFloat) : Vanishes (u.mul binary64 v) := by
  cases h with
  | notANumber => cases u <;> exact .notANumber
  | zero s =>
    cases u with
    | notANumber => exact .notANumber
    | infinity s' => exact .notANumber
    | _ => exact .zero _

theorem Vanishes.add (hu : Vanishes u) (hv : Vanishes v) : Vanishes (u.add binary64 v) := by
  cases hu with
  | notANumber => exact .notANumber
  | zero s =>
    cases hv with
    | notANumber => exact .notANumber
    | zero s' =>
      rw [UnpackedFloat.add]
      split <;> exact .zero _

theorem Vanishes.sub (hu : Vanishes u) (hv : Vanishes v) : Vanishes (u.sub binary64 v) := by
  cases hu with
  | notANumber => exact .notANumber
  | zero s =>
    cases hv with
    | notANumber => exact .notANumber
    | zero s' =>
      rw [UnpackedFloat.sub]
      split <;> exact .zero _

theorem vanishes_sub_self (u : UnpackedFloat) : Vanishes (u.sub binary64 u) := by
  cases u with
  | notANumber => exact .notANumber
  | infinity s => cases s <;> exact .notANumber
  | zero s => cases s <;> exact .zero _
  | finite s m e hm =>
    rw [UnpackedFloat.sub]
    dsimp only
    rw [sub_self]
    exact .zero _

/-- Doubles that compare as equal are the same, but for the sign of a zero. -/
theorem eq_or_zero_of_compare (h : u.compare v = some .eq) :
    u = v ∨ ∃ s s', u = .zero s ∧ v = .zero s' := by
  have hParts : ∀ {m m' : Nat} {e e' : ℤ}, ((compare e e').then (compare m m')) = .eq →
      m = m' ∧ e = e' := by
    intro m m' e e' hEq
    obtain ⟨he, hm⟩ := Ordering.then_eq_eq.mp hEq
    exact ⟨compare_eq_iff_eq.mp hm, compare_eq_iff_eq.mp he⟩
  cases u with
  | notANumber => cases h
  | infinity s =>
    cases v with
    | notANumber => cases h
    | infinity s' =>
      cases s <;> cases s'
      · exact .inl rfl
      · cases h
      · cases h
      · exact .inl rfl
    | _ => cases s <;> cases h
  | zero s =>
    cases v with
    | notANumber => cases h
    | infinity s' => cases s' <;> cases h
    | zero s' => exact .inr ⟨s, s', rfl, rfl⟩
    | finite s' m' e' hm' => cases s' <;> cases h
  | finite s m e hm =>
    cases v with
    | notANumber => cases h
    | infinity s' => cases s <;> cases s' <;> cases h
    | zero s' => cases s <;> cases h
    | finite s' m' e' hm' =>
      left
      cases s <;> cases s'
      · obtain ⟨rfl, rfl⟩ := hParts (Ordering.swap_eq_eq.mp (Option.some.inj h))
        rfl
      · cases h
      · cases h
      · obtain ⟨rfl, rfl⟩ := hParts (Option.some.inj h)
        rfl

/-- The difference of doubles that compare as equal. -/
theorem vanishes_sub_of_compare (h : u.compare v = some .eq) : Vanishes (u.sub binary64 v) := by
  obtain rfl | ⟨s, s', rfl, rfl⟩ := eq_or_zero_of_compare h
  · exact vanishes_sub_self u
  · exact .sub (.zero s) (.zero s')

theorem Vanishes.isNaN_div (hu : Vanishes u) (hv : Vanishes v) :
    (u.div binary64 v).isNaN = true := by
  cases hu with
  | notANumber => rfl
  | zero s => cases hv <;> rfl

end Unpacked

/-- A zero, or not a number. -/
def Vanishing (x : Float) : Prop := Vanishes x.toModel.unpack

section Vanishing

variable {x y : Float}

theorem Vanishing.mul_left (h : Vanishing x) (y : Float) : Vanishing (x * y) :=
  (Vanishes.mul_left h _).unpack_pack

theorem Vanishing.mul_right (h : Vanishing y) (x : Float) : Vanishing (x * y) :=
  (Vanishes.mul_right h _).unpack_pack

theorem Vanishing.add (hx : Vanishing x) (hy : Vanishing y) : Vanishing (x + y) :=
  (Vanishes.add hx hy).unpack_pack

theorem Vanishing.sub (hx : Vanishing x) (hy : Vanishing y) : Vanishing (x - y) :=
  (Vanishes.sub hx hy).unpack_pack

/-- The difference of equal doubles. -/
theorem vanishing_sub_of_beq (h : (x == y) = true) : Vanishing (x - y) :=
  (vanishes_sub_of_compare (beq_iff_eq.mp h)).unpack_pack

theorem Vanishing.isNaN_div (hx : Vanishing x) (hy : Vanishing y) : (x / y).isNaN = true :=
  (isNaN_unpack_pack _).trans (Vanishes.isNaN_div hx hy)

end Vanishing

end InstrumentResponse.Double
