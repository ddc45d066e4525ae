import InstrumentResponse.Chain.Check
import InstrumentResponse.Options
import InstrumentResponse.Transfer

/-!
# The response of a chain

`Chain.calculate` multiplies the responses of the stages in range, at every frequency, scales the
product by the sensitivity of the chain and turns it into a response to the wanted ground motion.
The gains of the stages are not applied one by one: the sensitivity is their product.
-/

namespace InstrumentResponse

section Conversion

variable {α : Type} [Scalar α]

/-- Division by `j w`, 0 at `w = 0`. -/
def integrate (w : α) (v : Phasor α) : Phasor α := if w == 0 then 0 else v * ⟨0, -1 / w⟩

/-- Multiplication by `j w`. -/
def differentiate (w : α) (v : Phasor α) : Phasor α := v * ⟨0, w⟩

/-- A response to one ground motion as a response to velocity. -/
def toVelocity (w : α) : Quantity → Phasor α → Phasor α
  | .displacement => integrate w
  | .acceleration => differentiate w
  | _ => id

/-- A response to velocity as a response to some ground motion. -/
def ofVelocity (w : α) : Quantity → Phasor α → Phasor α
  | .displacement => differentiate w
  | .acceleration => integrate w
  | _ => id

/-- A response to `input` at the angular frequency `w`, as one to the wanted ground motion.
Responses to anything else than ground motion are left alone. -/
def convert (w : α) (input : Quantity) (output : OutputUnit) (v : Phasor α) : Phasor α :=
  match output.target? with
  | none => v
  | some target =>
    if input.isGroundMotion = false ∨ input = target then v
    else ofVelocity w target (toVelocity w input v)

end Conversion

namespace Chain

variable {α : Type} [Analytic α]

/-- The time in seconds that a decimation after the filter `main` shifts by, none if the filter is not
one that works on samples.  Only asymmetric impulse responses have a delay to make up for. -/
def decimationDelay? (useEstimated : Bool) (main : Filter α) (d : Decimation α) : Option α :=
  if main.tapCount = 0 then none
  else
    match main with
    | .fir ⟨.asymmetric, _ :: _, _⟩ =>
      if useEstimated then some d.estimatedDelay
      else some (d.appliedCorrection - ((main.tapCount : α) - 1) / 2 * d.interval)
    | _ => some 0

/-- The factor that an element puts into the response of its stage, none if it leaves it alone, at a
frequency and its index among the requested ones. -/
def elementResponse (options : Options α) (s : Stage α) (f : α) (index : Nat) :
    Element α → Except (Fault α) (Option (Phasor α))
  | .gain _ => .ok none
  | .decimation _ =>
    .ok do
      let delay ← decimationDelay? options.useEstimatedDelay (← s.filter?) (← s.decimation?)
      return timeShift delay (angular f)
  | .filter (.list l) =>
    match l.row? index with
    | some v => .ok (some v)
    | none => .error (.chain s.sequence (.noRow index f))
  | .filter (.polynomial p) =>
    match options.operatingPoint with
    | some x => ((Polynomial.responseAt p.coefficients x).map some).mapError .domain
    | none => .error (.domain .noOperatingPoint)
  | .filter main => .ok (main.response? f s.interval)

/-- The response of a stage, without its gain. -/
def stageResponse (options : Options α) (f : α) (index : Nat) (s : Stage α) :
    Except (Fault α) (Phasor α) :=
  s.elements.foldlM
    (fun v e => return match ← elementResponse options s f index e with
      | some factor => v * factor
      | none => v) 1

/-- The product of the responses of the stages in range. -/
def totalResponse (options : Options α) (stages : List (Stage α)) (f : α) (index : Nat) :
    Except (Fault α) (Phasor α) :=
  (stages.filter (options.stages.contains ·.sequence)).foldlM
    (fun v s => return v * (← stageResponse options f index s)) 1

/-- The sensitivity that responses are scaled by. -/
def sensitivity (options : Options α) (c : Channel α) : α :=
  if options.useDocumented then c.documented.value else c.computed

/-- The response of a checked and normalized channel at one frequency. -/
def responseAt (options : Options α) (c : Channel α) (f : α) (index : Nat) :
    Except (Fault α) (Phasor α) := do
  let total ← totalResponse options c.stages f index
  let scaled := (total.scale (sensitivity options c)).scale c.unitScale
  return convert (angular f) c.input options.outputUnit scaled

/-- The response of a checked and normalized channel at some frequencies. -/
def calculate (options : Options α) (c : Channel α) (frequencies : List α) :
    Except (Fault α) (List (Phasor α)) :=
  if c.stages.any (options.stages.contains ·.sequence) then
    frequencies.zipIdx.mapM fun (f, index) => responseAt options c f index
  else .error (.noStageMatched options.stages)

end Chain

end InstrumentResponse
