import InstrumentResponse.Filter
import InstrumentResponse.Fault

/-!
# Transfer functions

The response of each kind of filter at one frequency.  Analog filters take the frequency `f` in
hertz, digital ones the angular frequency `w = 2 π f` and the sample interval that they work at.

* `PoleZero.analogResponse`, `PoleZero.digitalResponse`
* `Fir.symmetricResponse`, `Fir.asymmetricResponse`: the sums over stored and over all taps, both
  without the delay of half the length.
* `Recursive.response`, `Polynomial.responseAt`, `ResponseList.row?`
* `Filter.response?`: the response of a filter that has one of its own.
-/

namespace InstrumentResponse

open Analytic (pi sin cos atan2 hypot)

variable {α : Type} [Analytic α]

/-- The angular frequency of `f` hertz. -/
def angular (f : α) : α := 2 * pi * f

namespace PoleZero

/-- The ordinate of the variable on the imaginary axis at `f` hertz. -/
def ordinate (pz : PoleZero α) (f : α) : α :=
  match pz.plane with
  | .laplace => angular f
  | _ => f

/-- The response of an analog filter at `f` hertz. -/
def analogResponse (pz : PoleZero α) (f : α) : Phasor α :=
  let s : Phasor α := ⟨0, pz.ordinate f⟩
  let numerator := Phasor.prod (pz.zeros.map (s - ·))
  let denominator := Phasor.prod (pz.poles.map (s - ·))
  (numerator / denominator).scale pz.scale

/-- The angle of a difference, 0 if there is no difference. -/
def angleOf (d : Phasor α) : α := if d.re == 0 && d.im == 0 then 0 else d.arg

/-- The response of a digital filter on the unit circle: moduli are multiplied and divided, angles
added and subtracted. -/
def digitalResponse (pz : PoleZero α) (w interval : α) : Phasor α :=
  let wt := w * interval
  let z : Phasor α := ⟨cos wt, sin wt⟩
  let zeros := pz.zeros.map (z - ·)
  let poles := pz.poles.map (z - ·)
  let modulus := poles.foldl (fun m d => m / d.norm) (zeros.foldl (fun m d => m * d.norm) 1)
  let angle := poles.foldl (fun a d => a - angleOf d) (zeros.foldl (fun a d => a + angleOf d) 0)
  (Phasor.polar modulus angle).scale pz.scale

end PoleZero

namespace Fir

/-- The sum of `c * cos (wt * (n - 1 - k + shift))` over the `k`-th of some taps, where `n` is
given. -/
def cosineSum (wt shift : α) (n : Nat) (taps : List α) : α :=
  Scalar.sum (taps.zipIdx.map fun (c, k) => c * cos (wt * (((n - k - 1 : Nat) : α) + shift)))

/-- The response of the full taps that the stored ones stand for, without delay. -/
def symmetricResponse (fir : Fir α) (w interval : α) : Phasor α :=
  let wt := w * interval
  match fir.taps.getLast? with
  | none => 0
  | some last =>
    let n := fir.taps.length
    let re :=
      match fir.symmetry with
      | .odd => last + 2 * cosineSum wt 0 n fir.taps.dropLast
      | _ => 2 * cosineSum wt (1 / 2) n fir.taps
    ⟨re * fir.scale, 0⟩

/-- The sum of `c * exp (-j wt k)` over the taps. -/
def directSum (wt : α) (taps : List α) : Phasor α :=
  taps.zipIdx.foldl
    (fun z (c, k) => ⟨z.re + c * cos (wt * (k : α)), z.im - c * sin (wt * (k : α))⟩) 0

/-- The response of `n` equal taps `a`: a geometric sum. -/
def boxcar (wt a : α) (n : Nat) : α :=
  if wt == 0 then 1 else sin (wt / 2 * (n : α)) / sin (wt / 2) * a

/-- The response of all taps, with the delay of half the length taken back. -/
def asymmetricResponse (fir : Fir α) (w interval : α) : Phasor α :=
  let wt := w * interval
  match fir.taps with
  | [] => 0
  | a :: rest =>
    let n := rest.length + 1
    if (a :: rest).all (· == a) then ⟨boxcar wt a n, 0⟩
    else
      let z := directSum wt (a :: rest)
      let angle := z.arg + w * (((n - 1 : Nat) : α) / 2) * interval
      (Phasor.polar z.norm angle).scale fir.scale

/-- The response of a filter with at least one tap. -/
def response (fir : Fir α) (w interval : α) : Phasor α :=
  match fir.symmetry with
  | .asymmetric => fir.asymmetricResponse w interval
  | _ => fir.symmetricResponse w interval

end Fir

/-- The response of a recursive filter: the quotient of two polynomials in `exp (-j wt)`. -/
def Recursive.response (r : Recursive α) (w interval : α) : Phasor α :=
  let wt := w * interval
  let polynomial (cs : List α) : Phasor α :=
    Phasor.sum (cs.zipIdx.map fun (c, k) => Phasor.polar c (-(k : α) * wt))
  let numerator := polynomial r.numerator
  let denominator := polynomial r.denominator
  (Phasor.polar (numerator.norm / denominator.norm) (numerator.arg - denominator.arg)).scale r.scale

/-- The derivative of the polynomial with some coefficients. -/
def derivative (cs : List α) (x : α) : α :=
  Scalar.sum ((cs.zipIdx.drop 1).map fun (c, j) => c * (j : α) * Scalar.power x (j - 1))

/-- The response of a polynomial at a positive operating point: its slope there. -/
def Polynomial.responseAt (cs : List α) (x : α) : Except (DomainFault α) (Phasor α) :=
  if x ≤ 0 ∨ Scalar.isFinite x = false then .error (.notPositive x)
  else
    let slope := derivative cs x
    .ok (Phasor.polar (Scalar.abs slope) (if 0 ≤ slope then 0 else pi))

/-- The response in a row of a table, counted from 0. -/
def ResponseList.row? (l : ResponseList α) (index : Nat) : Option (Phasor α) := do
  let amplitude ← l.amplitudes[index]?
  let phase ← l.phases[index]?
  return Phasor.polar amplitude (phase * (pi / 180))

/-- The response of a shift in time by `delay` seconds. -/
def timeShift (delay w : α) : Phasor α := Phasor.polar 1 (w * delay)

/-- The response at `f` hertz of a filter that has one of its own.  A digital filter without roots
and an impulse response without taps have none, nor have generic responses; lists and polynomials
need more than the frequency. -/
def Filter.response? (filter : Filter α) (f interval : α) : Option (Phasor α) :=
  let w := angular f
  match filter with
  | .poleZero pz =>
    match pz.plane with
    | .digital => if pz.isRootless then none else some (pz.digitalResponse w interval)
    | _ => some (pz.analogResponse f)
  | .fir h => if h.taps.isEmpty then none else some (h.response w interval)
  | .recursive r => some (r.response w interval)
  | .list _ | .generic _ | .polynomial _ => none

end InstrumentResponse
