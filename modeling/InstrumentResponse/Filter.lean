import InstrumentResponse.Phasor

/-!
# Elements of a stage

A stage holds a filter that shapes the response, a decimation and a gain.  The filters come in six
kinds: poles and zeros, finite impulse responses, recursive filters given by coefficients, tabulated
responses, generic responses that only name corners, and polynomials.
-/

namespace InstrumentResponse

/-- Where the roots of a pole-zero filter lie. -/
inductive RootPlane where
  /-- Radians per second, in the variable `j 2 π f`. -/
  | laplace
  /-- Hertz, in the variable `j f`. -/
  | hertz
  /-- The plane of the delay operator, with the frequencies on the unit circle. -/
  | digital
deriving DecidableEq, Repr

/-- The transfer function `scale * ∏ (s - z) / ∏ (s - p)`. -/
structure PoleZero (α : Type) where
  plane : RootPlane
  scale : α
  /-- The frequency at which `scale` was chosen. -/
  scaleFrequency : α
  zeros : List (Phasor α)
  poles : List (Phasor α)
deriving DecidableEq, Repr

/-- Is there neither a zero nor a pole? -/
def PoleZero.isRootless {α : Type} (pz : PoleZero α) : Bool := pz.zeros.isEmpty && pz.poles.isEmpty

/-- How the stored taps of a finite impulse response stand for all of them. -/
inductive Symmetry where
  /-- An odd number of taps: the first half and the tap in the middle are stored. -/
  | odd
  /-- An even number of taps: the first half is stored. -/
  | even
  /-- Every tap is stored. -/
  | asymmetric
deriving DecidableEq, Repr

/-- A finite impulse response. -/
structure Fir (α : Type) where
  symmetry : Symmetry
  taps : List α
  scale : α
deriving DecidableEq, Repr

/-- The number of taps of the full impulse response. -/
def Fir.fullLength {α : Type} (fir : Fir α) : Nat :=
  match fir.symmetry with
  | .odd => 2 * fir.taps.length - 1
  | .even => 2 * fir.taps.length
  | .asymmetric => fir.taps.length

/-- A recursive filter: coefficients of a numerator and a denominator in the delay operator. -/
structure Recursive (α : Type) where
  numerator : List α
  denominator : List α
  scale : α
deriving DecidableEq, Repr

/-- A tabulated response: amplitudes and phases in degrees at given frequencies. -/
structure ResponseList (α : Type) where
  frequencies : List α
  amplitudes : List α
  phases : List α
deriving DecidableEq, Repr

/-- The rows of one table after those of another. -/
def ResponseList.append {α : Type} (a b : ResponseList α) : ResponseList α :=
  ⟨a.frequencies ++ b.frequencies, a.amplitudes ++ b.amplitudes, a.phases ++ b.phases⟩

/-- A generic response: corner frequencies and slopes, for information only. -/
structure Corners (α : Type) where
  frequencies : List α
  slopes : List α
deriving DecidableEq, Repr

/-- The polynomial response of a sensor that is not linear. -/
structure Polynomial (α : Type) where
  approximation : Char
  frequencyUnit : Char
  lowerFrequency : α
  upperFrequency : α
  lowerBound : α
  upperBound : α
  maxError : α
  coefficients : List α
  errors : List α
deriving DecidableEq, Repr

/-- An element that shapes the response. -/
inductive Filter (α : Type) where
  | poleZero (pz : PoleZero α)
  | fir (fir : Fir α)
  | recursive (coefficients : Recursive α)
  | list (list : ResponseList α)
  | generic (corners : Corners α)
  | polynomial (polynomial : Polynomial α)
deriving DecidableEq, Repr

namespace Filter

variable {α : Type}

/-- The short name of a filter's kind. -/
def kind : Filter α → String
  | poleZero pz =>
    match pz.plane with
    | .laplace => "PZ-LAPLACE"
    | .hertz => "PZ-ANALOG"
    | .digital => "PZ-IIR"
  | fir f =>
    match f.symmetry with
    | .odd => "FIR-SYM1"
    | .even => "FIR-SYM2"
    | .asymmetric => "FIR-ASYM"
  | recursive _ => "IIR-COEFFS"
  | list _ => "LIST"
  | generic _ => "GENERIC"
  | polynomial _ => "POLYNOMIAL"

/-- The number of taps that the delay of a filter is counted in. -/
def tapCount : Filter α → Nat
  | fir h => h.fullLength
  | recursive _ => 1
  | _ => 0

/-- Does a filter work on samples, so that it needs a decimation beside it? -/
def isSampled : Filter α → Bool
  | fir h => !h.taps.isEmpty
  | poleZero pz => pz.plane == .digital && !pz.isRootless
  | recursive _ => true
  | _ => false

/-- A filter with another scale, if it has one. -/
def withScale (scale : α) : Filter α → Filter α
  | poleZero pz => poleZero { pz with scale }
  | fir h => fir { h with scale }
  | recursive r => recursive { r with scale }
  | f => f

/-- A filter whose scale holds at another frequency, if it says so. -/
def withScaleFrequency (scaleFrequency : α) : Filter α → Filter α
  | poleZero pz => poleZero { pz with scaleFrequency }
  | f => f

/-- The frequency at which the scale of a filter was chosen, if it says so. -/
def scaleFrequency? : Filter α → Option α
  | poleZero pz => some pz.scaleFrequency
  | _ => none

end Filter

/-- A change of the sampling rate. -/
structure Decimation (α : Type) where
  /-- The sample interval before it, in seconds. -/
  interval : α
  factor : Nat
  offset : Nat
  /-- The delay that its filter is estimated to have. -/
  estimatedDelay : α
  /-- The delay that the recorder has already corrected. -/
  appliedCorrection : α
deriving DecidableEq, Repr

/-- A gain and the frequency at which it holds. -/
structure Gain (α : Type) where
  value : α
  frequency : α
deriving DecidableEq, Repr

/-- An element of a stage. -/
inductive Element (α : Type) where
  | filter (filter : Filter α)
  | decimation (decimation : Decimation α)
  | gain (gain : Gain α)
deriving DecidableEq, Repr

namespace Element

variable {α : Type}

/-- The short name of an element's kind. -/
def kind : Element α → String
  | filter f => f.kind
  | decimation _ => "DECIMATION"
  | gain _ => "GAIN"

def filter? : Element α → Option (Filter α)
  | filter f => some f
  | _ => none

def decimation? : Element α → Option (Decimation α)
  | decimation d => some d
  | _ => none

def gain? : Element α → Option (Gain α)
  | gain g => some g
  | _ => none

def list? : Element α → Option (ResponseList α)
  | filter (.list l) => some l
  | _ => none

def isPolynomial : Element α → Bool
  | filter (.polynomial _) => true
  | _ => false

end Element

end InstrumentResponse
