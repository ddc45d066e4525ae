import InstrumentResponse.CommandLine.Arguments
import InstrumentResponse.Evaluation
import InstrumentResponse.OptionsDocument
import InstrumentResponse.Summary

/-!
# Running a command

A `Plan` is what the arguments ask for, made ready.  It is carried out on texts of records one after
the other, and every response goes to a sink: `toStream` puts the tables below one another,
`toDirectory` into files.  A channel without a response is counted and passed over.
-/

namespace InstrumentResponse.CommandLine

/-- Why there is no plan. -/
inductive Refusal where
  | invalidDate (year : Int) (day : Nat)
  | invalidTime (text : String)
  | unreadableOptions (path reason : String)
  | invalidOptions
  | grid (fault : Fault Float)

def Refusal.message : Refusal → String
  | invalidDate year day =>
    "invalid date: year " ++ Decimal.whole year ++ " day " ++ Decimal.natural day
  | invalidTime text => "time of day must have format HH[:MM[:SS[.ffff]]], found '" ++ text ++ "'"
  | unreadableOptions path reason => "cannot read options file " ++ path ++ ": " ++ reason
  | invalidOptions => "invalid configuration: the options are not a valid document"
  | grid fault => fault.message .standard

/-- Arguments made ready. -/
structure Plan where
  selection : Selection
  options : Options Float
  frequencies : List Float

namespace Arguments

/-- The channels that are asked for. -/
def selection (a : Arguments) : Except Refusal Selection :=
  match Instant.ofDay? a.year a.day .midnight with
  | none => .error (.invalidDate a.year a.day)
  | some midnight =>
    match Clock.read? a.time with
    | none => .error (.invalidTime a.time)
    | some clock =>
      .ok (.ofLists a.stations a.channels a.network a.location (some { midnight with clock }))

/-- The options of the document, if there is one, with those of the arguments in their place. -/
def allOptions (a : Arguments) (readFile : String → Except String String) :
    Except Refusal (Options Float) :=
  match a.options with
  | none => .ok (a.override .standard)
  | some path =>
    match readFile path with
    | .error reason => .error (.unreadableOptions path reason)
    | .ok text =>
      match Options.ofDocument? text with
      | none => .error .invalidOptions
      | some options => .ok (a.override options)

/-- The plan of some arguments. -/
def plan (a : Arguments) (readFile : String → Except String String) : Except Refusal Plan := do
  let selection ← a.selection
  let options ← a.allOptions readFile
  let frequencies ← (a.grid.frequencies.mapError .config).mapError .grid
  return ⟨selection, options, frequencies⟩

end Arguments

/-- A text of records and where it comes from. -/
structure Input where
  origin : String
  text : String

/-- What comes of a channel: notes for the user, and a response or a fault. -/
structure Outcome where
  notes : List String
  result : Except (Fault Float) (Response Float)

/-- What comes of a channel as it was read. -/
def outcome (plan : Plan) (verbose : Bool) (origin : String) (item : Record.Item) : Outcome :=
  let note (w : Warning Float) : String := w.message .standard
  let unknown := item.unknownUnits.map fun name => note (.unknownUnit name)
  match item.result with
  | .error fault => ⟨unknown ++ [origin ++ ": " ++ fault.message], .error (.reading fault)⟩
  | .ok c =>
    let (c, report) := evaluateChannel plan.options plan.frequencies c
    let failure :=
      match report.result with
      | .error fault => [c.id.text ++ " (" ++ origin ++ "): " ++ fault.message .standard]
      | .ok _ => []
    ⟨unknown ++ report.warnings.map note ++ (if verbose then [c.summary] else []) ++ failure,
      report.result⟩

/-- What comes of the selected channels of an input. -/
def evaluateInput [Record.Memory] (plan : Plan) (verbose : Bool) (input : Input) : List Outcome :=
  (Record.channels plan.selection.accepts plan.options.undecoded input.text).map
    (outcome plan verbose input.origin)

/-- What comes of the selected channels of all inputs. -/
def evaluateInputs [Record.Memory] (plan : Plan) (verbose : Bool) (inputs : List Input) :
    List Outcome :=
  inputs.flatMap (evaluateInput plan verbose)

/-! ## Sinks -/

/-- How many channels had a response, and how many had none. -/
structure Tally where
  responses : Nat
  failures : Nat
deriving DecidableEq, Repr

/-- What has come of the channels so far: their responses in a sink, and their numbers. -/
structure Progress (σ : Type) where
  sink : σ
  tally : Tally

/-- One more channel. -/
def Progress.add {σ : Type} (write : σ → Response Float → σ) (p : Progress σ) (o : Outcome) :
    Progress σ :=
  match o.result with
  | .ok response => ⟨write p.sink response, { p.tally with responses := p.tally.responses + 1 }⟩
  | .error _ => ⟨p.sink, { p.tally with failures := p.tally.failures + 1 }⟩

/-- All channels, into a sink that is empty at first. -/
def collect {σ : Type} (write : σ → Response Float → σ) (empty : σ) (outcomes : List Outcome) :
    Progress σ :=
  outcomes.foldl (Progress.add write) ⟨empty, ⟨0, 0⟩⟩

/-- The line above and below a table in a stream. -/
def ruler : String := " --------------------------------------------------\n"

/-- A table in a stream, under the name of its file. -/
def banner (r : Response Float) (unwrap : Bool) (format : OutputFormat) : String :=
  ruler ++ " " ++ r.fileName format ++ "\n" ++ ruler ++ r.render format unwrap ++ ruler

/-- A stream with the tables of one more response. -/
def writeStream (type : ResponseType) (unwrap : Bool) (stream : String) (r : Response Float) :
    String :=
  stream ++ String.join (type.formats.map (banner r unwrap))

/-- Files by name with the text of one of them replaced. -/
def putFile (name text : String) : List (String × String) → List (String × String)
  | [] => [(name, text)]
  | (other, old) :: rest =>
    if other = name then (name, text) :: rest else (other, old) :: putFile name text rest

/-- Files with the tables of one more response. -/
def writeFiles (type : ResponseType) (unwrap : Bool) (files : List (String × String))
    (r : Response Float) : List (String × String) :=
  type.formats.foldl (fun files format => putFile (r.fileName format) (r.render format unwrap) files)
    files

/-- The tables of all responses below one another. -/
def toStream (type : ResponseType) (unwrap : Bool) (outcomes : List Outcome) : Progress String :=
  collect (writeStream type unwrap) "" outcomes

/-- The tables of all responses in files. -/
def toDirectory (type : ResponseType) (unwrap : Bool) (outcomes : List Outcome) :
    Progress (List (String × String)) :=
  collect (writeFiles type unwrap) [] outcomes

end InstrumentResponse.CommandLine
