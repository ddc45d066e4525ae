import InstrumentResponse.Channel
import InstrumentResponse.Fault

/-!
# Summaries of channels

The text that shows a channel to its user: its codes and epoch, units, sensitivities, delays and
stages.
-/

namespace InstrumentResponse

/-- A number of a summary. -/
def summaryNumber (x : Float) : String := roundedNumber.write x

/-- A number of things. -/
def counted {β : Type} (things : List β) (name : String) : String :=
  Decimal.natural things.length ++ " " ++ name

/-- What a summary tells of a filter, after its kind. -/
def Filter.details : Filter Float → String
  | poleZero pz =>
    "A0=" ++ summaryNumber pz.scale ++ " at " ++ summaryNumber pz.scaleFrequency ++ " Hz, " ++
      counted pz.zeros "zeros" ++ ", " ++ counted pz.poles "poles"
  | fir h => counted h.taps "coefficients"
  | recursive r => counted r.numerator "numerators" ++ ", " ++ counted r.denominator "denominators"
  | list l => counted l.frequencies "values"
  | generic corners => counted corners.frequencies "corners"
  | polynomial p => counted p.coefficients "coefficients"

/-- What a summary tells of an element. -/
def Element.summary (e : Element Float) : String :=
  e.kind ++ " " ++
    match e with
    | filter f => f.details
    | decimation d =>
      "factor " ++ Decimal.natural d.factor ++ ", input interval " ++ summaryNumber d.interval ++ " s"
    | gain g => summaryNumber g.value ++ " at " ++ summaryNumber g.frequency ++ " Hz"

/-- The line of a stage. -/
def Stage.summary (s : Stage Float) : String :=
  let number := String.ofList (Decimal.padLeft 2 ' ' (Decimal.natural s.sequence).toList)
  "  stage " ++ number ++ ": " ++ "; ".intercalate (s.elements.map (·.summary))

namespace Channel

/-- The line above and below a summary. -/
def ruler : String := "--------------------------------------------------"

/-- The lines of a summary. -/
def summaryLines (c : Channel Float) : List String :=
  let bound (t : Option Instant) (unbounded : String) := t.elim unbounded (·.ordinalText)
  let rate :=
    if 0 < c.timing.interval then
      ["  output sample rate: " ++ summaryNumber (1 / c.timing.interval) ++ " Hz"]
    else []
  [ruler,
    "  " ++ c.id.text,
    "  epoch: " ++ bound c.start "?" ++ " -> " ++ bound c.stop "No Ending Time",
    "  input units: " ++ c.input.code ++ ", output units: " ++ c.output.code,
    "  documented sensitivity: " ++ summaryNumber c.documented.value ++ " at " ++
      summaryNumber c.documented.frequency ++ " Hz",
    "  computed sensitivity: " ++ summaryNumber c.computed,
    "  delays (s): computed " ++ summaryNumber c.timing.computedDelay ++ ", estimated " ++
      summaryNumber c.timing.estimatedDelay ++ ", applied " ++
      summaryNumber c.timing.appliedCorrection] ++
    rate ++ c.stages.map (·.summary) ++ [ruler]

/-- The summary of a channel. -/
def summary (c : Channel Float) : String := "\n".intercalate c.summaryLines

end Channel

end InstrumentResponse
