import InstrumentResponse.Quantity
import InstrumentResponse.StageRange
import InstrumentResponse.Text.Capital

/-!
# Options of an evaluation
-/

namespace InstrumentResponse

/-- The ground motion that a response is given for. -/
inductive OutputUnit where
  | displacement
  | velocity
  | acceleration
  /-- Whatever the first stage takes in. -/
  | asInput
deriving DecidableEq, Repr, Inhabited

/-- The ground motion of an output unit. -/
def OutputUnit.target? : OutputUnit → Option Quantity
  | displacement => some .displacement
  | velocity => some .velocity
  | acceleration => some .acceleration
  | asInput => none

/-- The short name of an output unit. -/
def OutputUnit.shortName : OutputUnit → String
  | displacement => "dis"
  | velocity => "vel"
  | acceleration => "acc"
  | asInput => "def"

/-- The output unit of a short or long name in any case. -/
def OutputUnit.read (name : String) : Except String OutputUnit :=
  match Text.lowerAscii name with
  | "dis" | "displacement" => .ok displacement
  | "vel" | "velocity" => .ok velocity
  | "acc" | "acceleration" => .ok acceleration
  | "def" | "default" => .ok asInput
  | other =>
    .error ("unknown output unit '" ++ other ++ "', expected one of dis, vel, acc, def")

/-- The frequencies at which a response list is reported. -/
inductive ListMode where
  /-- Those of the table. -/
  | native
  /-- The requested ones, between which the table is interpolated. -/
  | interpolateInput
  /-- Those of the table, in place of the requested ones. -/
  | interpolateOutput
deriving DecidableEq, Repr, Inhabited

/-- How a channel is evaluated. -/
structure Options (α : Type) where
  stages : StageRange
  /-- Scale by the documented sensitivity in place of the product of the gains. -/
  useDocumented : Bool
  /-- Shift by the estimated delay of a decimation in place of what its correction leaves. -/
  useEstimatedDelay : Bool
  listMode : ListMode
  outputUnit : OutputUnit
  /-- The input at which polynomials are evaluated. -/
  operatingPoint : Option α
  /-- Leave all units undecoded. -/
  undecoded : Bool
deriving DecidableEq, Repr

/-- The whole chain, as a velocity response scaled by the product of the gains. -/
def Options.standard {α : Type} : Options α :=
  ⟨.all, false, false, .native, .velocity, none, false⟩

end InstrumentResponse
