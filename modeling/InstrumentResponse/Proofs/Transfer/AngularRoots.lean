import InstrumentResponse.Proofs.Scalar.Polar
import InstrumentResponse.Transfer

/-!
# Roots in hertz and in radians per second

The roots of an analog filter are given in hertz or in radians per second, and its variable is
`j f` or `j 2 π f`.  Both are ways to write the same filter: the products over zeros and poles are
homogeneous, so that a filter with all its roots multiplied by `2 π` differs by one factor `2 π` for
each pole that is not made up for by a zero, and its scale takes this factor back.

* `PoleZero.transfer`: the transfer function, a quotient of `PoleZero.rootProduct`s;
  `PoleZero.toComplex_analogResponse`: a response is its value on the imaginary axis.
* `PoleZero.inRadians`: the filter with its roots in radians per second;
  `PoleZero.transfer_inRadians`: its transfer function.
* `PoleZero.analogResponse_inRadians`: the two filters have the same response.
-/

namespace InstrumentResponse.PoleZero

open Complex (I)

/-- The product of the differences between a point and some roots. -/
noncomputable def rootProduct (roots : List (Phasor ℝ)) (s : ℂ) : ℂ :=
  (roots.map fun z => s - z.toComplex).prod

/-- The transfer function of an analog filter. -/
noncomputable def transfer (pz : PoleZero ℝ) (s : ℂ) : ℂ :=
  rootProduct pz.zeros s / rootProduct pz.poles s * pz.scale

theorem toComplex_prod_sub (roots : List (Phasor ℝ)) (s : Phasor ℝ) :
    (Phasor.prod (roots.map (s - ·))).toComplex = rootProduct roots s.toComplex := by
  rw [Phasor.toComplex_prod, List.map_map]
  rfl

theorem toComplex_analogResponse (pz : PoleZero ℝ) (f : ℝ) :
    (pz.analogResponse f).toComplex = pz.transfer (pz.ordinate f * I) := by
  rw [analogResponse, Phasor.toComplex_scale, Phasor.toComplex_div, toComplex_prod_sub,
    toComplex_prod_sub, Phasor.toComplex_imaginary]
  rfl

theorem rootProduct_ne_zero {roots : List (Phasor ℝ)} {s : ℂ}
    (h : ∀ z ∈ roots, z.toComplex ≠ s) : rootProduct roots s ≠ 0 := by
  refine List.prod_ne_zero fun hZero => ?_
  obtain ⟨z, hz, hDistance⟩ := List.mem_map.mp hZero
  exact h z hz (sub_eq_zero.mp hDistance).symm

/-! ## The other unit -/

/-- The number of radians in a turn. -/
noncomputable def turn : ℝ := 2 * Real.pi

theorem turn_ne_zero : turn ≠ 0 := Real.two_pi_pos.ne'

theorem angular_eq (f : ℝ) : angular f = turn * f := by
  rw [angular, turn, ExactScalar.numeral_two]
  rfl

/-- The same filter with its roots in radians per second instead of hertz. -/
noncomputable def inRadians (pz : PoleZero ℝ) : PoleZero ℝ where
  plane := .laplace
  scale := pz.scale * turn ^ ((pz.poles.length : ℤ) - pz.zeros.length)
  scaleFrequency := pz.scaleFrequency
  zeros := pz.zeros.map (·.scale turn)
  poles := pz.poles.map (·.scale turn)

/-- Each root contributes one factor. -/
theorem rootProduct_scale (roots : List (Phasor ℝ)) (t : ℝ) (s : ℂ) :
    rootProduct (roots.map (·.scale t)) (t * s) = t ^ roots.length * rootProduct roots s := by
  induction roots with
  | nil => simp [rootProduct]
  | cons z roots ih =>
    rw [rootProduct] at ih ⊢
    rw [List.map_cons, List.map_cons, List.prod_cons, ih, Phasor.toComplex_scale, List.length_cons,
      rootProduct, rootProduct, List.map_cons, List.prod_cons]
    ring

theorem transfer_inRadians (pz : PoleZero ℝ) (s : ℂ) :
    pz.inRadians.transfer (turn * s) = pz.transfer s := by
  have hTurn : (turn : ℂ) ≠ 0 := Complex.ofReal_ne_zero.mpr turn_ne_zero
  have hFactor : (turn : ℂ) ^ pz.zeros.length / turn ^ pz.poles.length *
      turn ^ ((pz.poles.length : ℤ) - pz.zeros.length) = 1 := by
    rw [zpow_sub₀ hTurn, zpow_natCast, zpow_natCast]
    field_simp
  calc pz.inRadians.transfer (turn * s)
      = turn ^ pz.zeros.length * rootProduct pz.zeros s /
          (turn ^ pz.poles.length * rootProduct pz.poles s) *
          (pz.scale * turn ^ ((pz.poles.length : ℤ) - pz.zeros.length) : ℝ) := by
        rw [transfer, inRadians, rootProduct_scale, rootProduct_scale]
    _ = turn ^ pz.zeros.length / turn ^ pz.poles.length *
          turn ^ ((pz.poles.length : ℤ) - pz.zeros.length) * pz.transfer s := by
        rw [transfer]
        push_cast
        ring
    _ = pz.transfer s := by rw [hFactor, one_mul]

/-- No root is moved onto the imaginary axis, or along it onto another frequency. -/
theorem scale_turn_ne {z : Phasor ℝ} {f : ℝ} (h : z.toComplex ≠ f * I) :
    (z.scale turn).toComplex ≠ angular f * I := by
  have hTurn : (turn : ℂ) ≠ 0 := Complex.ofReal_ne_zero.mpr turn_ne_zero
  rw [Phasor.toComplex_scale, angular_eq, Complex.ofReal_mul, mul_comm, mul_assoc]
  exact fun hSame => h (mul_left_cancel₀ hTurn hSame)

/-- A filter with its roots in hertz, and the filter whose roots are all multiplied by `2 π` and
whose scale is multiplied by `2 π` as often as it has more poles than zeros.  At a frequency without
a pole of the first filter there is none of the second one either, and both responses are the
quotient of the products over zeros and poles, times the scale. -/
theorem analogResponse_inRadians {pz : PoleZero ℝ} (hPlane : pz.plane = .hertz) {f : ℝ}
    (hPoles : ∀ p ∈ pz.poles, p.toComplex ≠ f * I) :
    (∀ p ∈ pz.inRadians.poles, p.toComplex ≠ angular f * I) ∧
    (pz.analogResponse f).toComplex * rootProduct pz.poles (f * I) =
      rootProduct pz.zeros (f * I) * pz.scale ∧
    pz.inRadians.analogResponse f = pz.analogResponse f := by
  have hOrdinate : pz.ordinate f = f := by rw [ordinate, hPlane]
  refine ⟨?_, ?_, ?_⟩
  · intro p hp
    obtain ⟨z, hz, rfl⟩ := List.mem_map.mp hp
    exact scale_turn_ne (hPoles z hz)
  · rw [toComplex_analogResponse, hOrdinate, transfer, mul_right_comm,
      div_mul_cancel₀ _ (rootProduct_ne_zero hPoles)]
  · have hAngular : ((angular f : ℝ) : ℂ) * I = turn * (f * I) := by
      rw [angular_eq, Complex.ofReal_mul, mul_assoc]
    refine Phasor.toComplex_injective ?_
    rw [toComplex_analogResponse, toComplex_analogResponse, hOrdinate, ← transfer_inRadians pz,
      ← hAngular]
    rfl

/-- A band pass with one zero and two poles. -/
noncomputable def bandPass : PoleZero ℝ := ⟨.hertz, 5, 1, [⟨0, 0⟩], [⟨-1, 2⟩, ⟨-1, -2⟩]⟩

theorem analogResponse_inRadians_bandPass :
    bandPass.plane = .hertz ∧ (∀ p ∈ bandPass.poles, p.toComplex ≠ (3 : ℝ) * I) ∧
    (∀ p ∈ bandPass.inRadians.poles, p.toComplex ≠ angular (3 : ℝ) * I) ∧
    (bandPass.analogResponse 3).toComplex * rootProduct bandPass.poles ((3 : ℝ) * I) =
      rootProduct bandPass.zeros ((3 : ℝ) * I) * bandPass.scale ∧
    bandPass.inRadians.analogResponse 3 = bandPass.analogResponse 3 := by
  have hPoles : ∀ p ∈ bandPass.poles, p.toComplex ≠ (3 : ℝ) * I := by
    intro p hp hAxis
    have hReal : p.re = -1 := by
      rcases List.mem_pair.mp hp with rfl | rfl <;> rfl
    have hZero : p.re = 0 := (congrArg Complex.re hAxis).trans (by simp)
    linarith only [hReal, hZero]
  exact ⟨rfl, hPoles, analogResponse_inRadians rfl hPoles⟩

end InstrumentResponse.PoleZero
