import Mathlib.Analysis.SpecialFunctions.Complex.Arg
import Mathlib.Analysis.SpecialFunctions.Log.Base
import Mathlib.Analysis.SpecialFunctions.Pow.Real
import Mathlib.Data.Rat.Floor
import InstrumentResponse.Scalar

/-!
# Exact scalars

A chain is reasoned about in exact numbers: scalars that are an ordered field, whose comparisons
and absolute values are those of the field.

* `ExactScalar`, `ExactAnalytic`: such scalars, the second kind with some functions for angles and
  powers about which nothing is said.
* `ExactScalar ℚ`: the rational numbers, in which a check can be evaluated.
* `ExactAnalytic ℝ`: the real numbers, with the functions that doubles approximate.
* `sum_map_div`: a sum of quotients is a quotient.
-/

namespace InstrumentResponse

/-- Scalars that are an ordered field. -/
class ExactScalar (α : Type) extends Field α, LinearOrder α, IsStrictOrderedRing α, Scalar α where
  beq_iff (a b : α) : (a == b) = true ↔ a = b
  abs_law (a : α) : Scalar.abs a = |a|

/-- Scalars that are an ordered field, with functions for angles and powers. -/
class ExactAnalytic (α : Type) extends ExactScalar α, Analytic α

instance : ExactScalar ℚ where
  __ := (inferInstance : Field ℚ)
  __ := (inferInstance : LinearOrder ℚ)
  __ := (inferInstance : IsStrictOrderedRing ℚ)
  beq a b := decide (a = b)
  abs a := |a|
  ceil a := ⌈a⌉
  wholePart a := ⌊a⌋₊
  isFinite _ := true
  decidableLT := inferInstance
  decidableLE := inferInstance
  beq_iff _ _ := decide_eq_true_iff
  abs_law _ := rfl

noncomputable instance : ExactAnalytic ℝ where
  __ := (inferInstance : Field ℝ)
  __ := (inferInstance : LinearOrder ℝ)
  __ := (inferInstance : IsStrictOrderedRing ℝ)
  beq a b := decide (a = b)
  abs a := |a|
  ceil a := ⌈a⌉
  wholePart a := ⌊a⌋₊
  isFinite _ := true
  decidableLT := inferInstance
  decidableLE := inferInstance
  beq_iff _ _ := decide_eq_true_iff
  abs_law _ := rfl
  pi := Real.pi
  sin := Real.sin
  cos := Real.cos
  atan2 y x := Complex.arg ⟨x, y⟩
  hypot a b := √(a ^ 2 + b ^ 2)
  log10 := Real.logb 10
  pow := (· ^ ·)

namespace ExactScalar

variable {α : Type} [ExactScalar α]

theorem numeral_zero : @OfNat.ofNat α 0 (Scalar.ofNat 0) = 0 := Nat.cast_zero

theorem numeral_one : @OfNat.ofNat α 1 (Scalar.ofNat 1) = 1 := Nat.cast_one

theorem numeral_two : @OfNat.ofNat ℝ 2 (Scalar.ofNat 2) = 2 := Nat.cast_ofNat

theorem abs_eq (a : α) : Scalar.abs a = |a| := abs_law a

theorem beq_eq_false_iff {a b : α} : (a == b) = false ↔ a ≠ b := by
  rw [← Bool.not_eq_true, beq_iff]

theorem beq_zero_eq_false_iff {a : α} :
    (a == @OfNat.ofNat α 0 (Scalar.ofNat 0)) = false ↔ a ≠ 0 := by
  rw [numeral_zero, beq_eq_false_iff]

theorem beq_self (a : α) : (a == a) = true := (beq_iff a a).mpr rfl

theorem foldl_map_div (xs : List α) (a s : α) :
    (xs.map (· / s)).foldl (· + ·) (a / s) = xs.foldl (· + ·) a / s := by
  induction xs generalizing a with
  | nil => rfl
  | cons x xs ih => rw [List.map_cons, List.foldl_cons, List.foldl_cons, ← add_div, ih]

theorem sum_map_div (xs : List α) (s : α) : Scalar.sum (xs.map (· / s)) = Scalar.sum xs / s := by
  have hZero : @OfNat.ofNat α 0 (Scalar.ofNat 0) = @OfNat.ofNat α 0 (Scalar.ofNat 0) / s := by
    rw [numeral_zero, zero_div]
  rw [Scalar.sum, hZero]
  exact foldl_map_div xs _ s

end ExactScalar

end InstrumentResponse
