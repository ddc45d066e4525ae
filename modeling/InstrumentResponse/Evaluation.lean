import InstrumentResponse.Chain.Calculate
import InstrumentResponse.Chain.Normalize
import InstrumentResponse.Interpolation
import InstrumentResponse.Record.Stream
import InstrumentResponse.Response
import InstrumentResponse.Selection

/-!
# Evaluation

From the text of records to responses: channels are read, checked, normalized over the requested
stages and calculated.

* `evaluateChannel`: one channel, with the channel as the evaluation leaves it.
* `evaluate`: the first channel of a text.
* `evaluateAll`: the selected channels of a text, each with a response or a fault of its own.
-/

namespace InstrumentResponse

variable {α : Type} [Analytic α]

/-- The frequencies at which a channel is calculated; a response list is brought to them if it is
to be interpolated, and otherwise gives them. -/
def align (mode : ListMode) (requested : List α) : Step α (List α) := fun c =>
  match c.list? with
  | none => (c, .done requested)
  | some l =>
    match mode with
    | .interpolateInput =>
      match l.interpolate requested with
      | ⟨warnings, .error fault⟩ => (c, ⟨warnings, .error fault⟩)
      | ⟨warnings, .ok aligned⟩ => (c.withList aligned, ⟨warnings, .ok aligned.frequencies⟩)
    | .native | .interpolateOutput =>
      (c, ⟨[.tabulatedOnly c.id l.frequencies.length], .ok l.frequencies⟩)

/-- The response of a channel at the requested frequencies. -/
def evaluateChannel (options : Options α) (requested : List α) : Step α (Response α) := do
  Chain.check
  let frequencies ← align options.listMode requested
  Chain.normalize options.stages
  .ofReport fun c =>
    .ofExcept ((Chain.calculate options c frequencies).map (⟨c.id, frequencies, ·⟩))

/-! ## Texts of records -/

/-- The response of a channel as it was read, with a warning for each unknown unit. -/
def evaluateItem (options : Options Float) (requested : List Float) (item : Record.Item) :
    Report Float (Response Float) :=
  let unknown := item.unknownUnits.map Warning.unknownUnit
  match item.result with
  | .error fault => ⟨unknown, .error (.reading fault)⟩
  | .ok c =>
    let report := (evaluateChannel options requested c).2
    ⟨unknown ++ report.warnings, report.result⟩

/-- The response of the first channel of a text. -/
def evaluate [Record.Memory] (options : Options Float) (requested : List Float) (text : String) :
    Report Float (Response Float) :=
  match Record.channels (fun _ => true) options.undecoded text with
  | [] => .fail .noChannel
  | item :: _ => evaluateItem options requested item

/-- A report with one more warning if a channel that could be read has no response. -/
def withFailure (item : Record.Item) (report : Report Float (Response Float)) :
    Report Float (Response Float) :=
  match item.result, report.result with
  | .ok c, .error fault => { report with warnings := report.warnings ++ [.failed c.id fault] }
  | _, _ => report

/-- The responses of the selected channels of a text. -/
def evaluateAll [Record.Memory] (selection : Selection) (options : Options Float)
    (requested : List Float) (text : String) : List (Report Float (Response Float)) :=
  (Record.channels selection.accepts options.undecoded text).map fun item =>
    withFailure item (evaluateItem options requested item)

end InstrumentResponse
