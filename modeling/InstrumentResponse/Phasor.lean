import InstrumentResponse.Scalar

/-!
# Complex amplitudes

A response at one frequency is a `Phasor`: its modulus is the gain and its angle the phase.  The
operations are written out on the two components, in the order in which doubles are rounded.
-/

namespace InstrumentResponse

/-- A complex amplitude. -/
structure Phasor (α : Type) where
  re : α
  im : α
deriving DecidableEq, Repr

namespace Phasor

variable {α : Type} [Scalar α]

instance : Zero (Phasor α) := ⟨⟨0, 0⟩⟩

instance : One (Phasor α) := ⟨⟨1, 0⟩⟩

instance : Inhabited (Phasor α) := ⟨0⟩

instance : Add (Phasor α) := ⟨fun a b => ⟨a.re + b.re, a.im + b.im⟩⟩

instance : Sub (Phasor α) := ⟨fun a b => ⟨a.re - b.re, a.im - b.im⟩⟩

instance : Mul (Phasor α) := ⟨fun a b => ⟨a.re * b.re - a.im * b.im, a.re * b.im + a.im * b.re⟩⟩

/-- The square of the modulus. -/
def normSq (a : Phasor α) : α := a.re * a.re + a.im * a.im

instance : Div (Phasor α) :=
  ⟨fun a b => ⟨(a.re * b.re + a.im * b.im) / b.normSq, (a.im * b.re - a.re * b.im) / b.normSq⟩⟩

/-- Both components times a real number. -/
def scale (a : Phasor α) (t : α) : Phasor α := ⟨a.re * t, a.im * t⟩

/-- The sum of a list, added from the left. -/
def sum (zs : List (Phasor α)) : Phasor α := zs.foldl (· + ·) 0

/-- The product of a list, multiplied from the left. -/
def prod (zs : List (Phasor α)) : Phasor α := zs.foldl (· * ·) 1

section Polar

variable {α : Type} [Analytic α]

/-- The amplitude of modulus `r` and angle `θ`. -/
def polar (r θ : α) : Phasor α := ⟨r * Analytic.cos θ, r * Analytic.sin θ⟩

def norm (a : Phasor α) : α := Analytic.hypot a.re a.im

def arg (a : Phasor α) : α := Analytic.atan2 a.im a.re

end Polar

end Phasor

end InstrumentResponse
