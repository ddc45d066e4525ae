import InstrumentResponse.Channel
import InstrumentResponse.Decimal.Reading
import InstrumentResponse.Phase
import InstrumentResponse.Text.Capital

/-!
# Responses and their texts

A `Response` holds the complex amplitudes of a channel at some frequencies.  It is written as a
table with one line per frequency, in one of four formats; a `ResponseType` asks for one or two of
them.
-/

namespace InstrumentResponse

/-- The response of a channel at some frequencies. -/
structure Response (α : Type) where
  id : ChannelId
  frequencies : List α
  values : List (Phasor α)
deriving DecidableEq, Repr

/-- The columns of a table beside the frequency. -/
inductive OutputFormat where
  /-- Amplitude and phase. -/
  | both
  | amplitude
  | phase
  /-- Real and imaginary part. -/
  | spectra
deriving DecidableEq, Repr

/-- What the names of files in a format begin with. -/
def OutputFormat.fileCode : OutputFormat → String
  | both => "FAP"
  | amplitude => "AMP"
  | phase => "PHASE"
  | spectra => "SPECTRA"

/-- The formats that are asked for together. -/
inductive ResponseType where
  /-- Amplitude and phase in separate tables. -/
  | separate
  | spectra
  /-- Amplitude and phase in one table. -/
  | joint
deriving DecidableEq, Repr, Inhabited

namespace ResponseType

def formats : ResponseType → List OutputFormat
  | separate => [.amplitude, .phase]
  | spectra => [.spectra]
  | joint => [.both]

/-- The response type of a name in any case. -/
def read (name : String) : Except String ResponseType :=
  match Text.lowerAscii name with
  | "ap" => .ok separate
  | "cs" => .ok spectra
  | "fap" => .ok joint
  | _ => .error ("unknown response type '" ++ name ++ "' (expected ap, cs or fap)")

end ResponseType

/-- Seven digits and an exponent with a sign and at least two digits. -/
def tableLayout : Decimal.Layout := ⟨some 7, 'E', true, 2, "NAN", "INF"⟩

/-- A number as it is written in tables. -/
def tableNumber (x : Float) : String := tableLayout.write x

namespace Response

/-- The phase of an amplitude in degrees, 0 at 0 whatever the signs. -/
def degrees (v : Phasor Float) : Float := Float.atan2 v.im (v.re + 1e-200) * (180 / piDouble)

/-- The phases in degrees, without jumps if `unwrap` is set. -/
def phases (r : Response Float) (unwrap : Bool) : List Float :=
  let phases := r.values.map degrees
  if unwrap then (Phase.unwrap phases).1 else phases

/-- The columns of a format beside the frequency, row by row. -/
def columns (r : Response Float) (format : OutputFormat) (unwrap : Bool) : List (List Float) :=
  match format with
  | .both => r.values.zipWith (fun v phase => [v.norm, phase]) (r.phases unwrap)
  | .amplitude => r.values.map fun v => [v.norm]
  | .phase => (r.phases unwrap).map fun phase => [phase]
  | .spectra => r.values.map fun v => [v.re, v.im]

/-- A line of a table. -/
def line (numbers : List Float) : String := "  ".intercalate (numbers.map tableNumber) ++ "\n"

/-- The table of a response. -/
def render (r : Response Float) (format : OutputFormat) (unwrap : Bool) : String :=
  String.join (r.frequencies.zipWith (fun f row => line (f :: row)) (r.columns format unwrap))

/-- The name of the file that the table of a response goes to. -/
def fileName {α : Type} (r : Response α) (format : OutputFormat) : String :=
  format.fileCode ++ "." ++ r.id.text

end Response

end InstrumentResponse
