import InstrumentResponse.CommandLine.Scan
import InstrumentResponse.Grid
import InstrumentResponse.Options
import InstrumentResponse.Response

/-!
# Arguments

* `Arguments.read?`: what the words of a command line ask for, none if they cannot be understood.
* `Arguments.objection?`: why the arguments do not go together.
-/

namespace InstrumentResponse.CommandLine

/-- What a command line asks for. -/
structure Arguments where
  stations : String
  channels : String
  year : Int
  /-- The day of the year, counted from 1. -/
  day : Nat
  lowest : Option Float
  highest : Option Float
  /-- The number of frequencies. -/
  count : Option Nat
  file : Option String
  units : Option OutputUnit
  /-- The time of day, as it is written. -/
  time : String
  spacing : Spacing
  network : String
  location : String
  response : ResponseType
  /-- The stages named one by one. -/
  stages : List Nat
  operatingPoint : Option Float
  /-- The path of a document of options. -/
  options : Option String
  stdio : Bool
  useEstimatedDelay : Bool
  interpolateOutput : Bool
  interpolateInput : Bool
  unwrap : Bool
  totalSensitivity : Bool
  verbose : Bool

/-- A value that may be missing, but must be understood if it is not. -/
def ifGiven {β : Type} (value : Option String) (read : String → Option β) : Option (Option β) :=
  match value with
  | none => some none
  | some s => (read s).map some

/-- A whole number of 32 bits that is not negative. -/
def smallNumber? (s : String) : Option Nat :=
  (Decimal.readInteger? 0 Decimal.greatest32 s).map Int.toNat

/-- A path, which is not empty. -/
def path? (s : String) : Option String := if s.isEmpty then none else some s

namespace Arguments

/-- The arguments in scanned words. -/
def ofScan? (s : Scan) : Option Arguments := do
  let (stations, channels, year, day, rest) ←
    match s.positionals with
    | stations :: channels :: year :: day :: rest => some (stations, channels, year, day, rest)
    | _ => none
  return {
    stations
    channels
    year := ← Decimal.readSigned32? year
    day := ← smallNumber? day
    lowest := ← ifGiven rest[0]? Decimal.readDouble?
    highest := ← ifGiven rest[1]? Decimal.readDouble?
    count := ← ifGiven rest[2]? (Decimal.readNatural? Decimal.greatest64)
    file := ← ifGiven (s.value .file) path?
    units := ← ifGiven (s.value .units) fun name => (OutputUnit.read name).toOption
    time := (s.value .time).getD "00:00:00"
    spacing := (← ifGiven (s.value .spacing) fun name => (Spacing.read name).toOption).getD
      .logarithmic
    network := (s.value .network).getD "*"
    location := (s.value .location).getD "*"
    response := (← ifGiven (s.value .response) fun name => (ResponseType.read name).toOption).getD
      .joint
    stages := ← (s.values .stage).mapM smallNumber?
    operatingPoint := ← ifGiven (s.value .operatingPoint) Decimal.readDouble?
    options := ← ifGiven (s.value .options) path?
    stdio := s.switches.contains .stdio
    useEstimatedDelay := s.switches.contains .useEstimatedDelay
    interpolateOutput := s.switches.contains .interpolateOutput
    interpolateInput := s.switches.contains .interpolateInput
    unwrap := s.switches.contains .unwrap
    totalSensitivity := s.switches.contains .totalSensitivity
    verbose := s.switches.contains .verbose }

/-- The arguments in the words of a command line. -/
def read? (words : List String) : Option Arguments := (Scan.read? words).bind ofScan?

/-- Is a number given, and 0? -/
def isZero (x : Option Float) : Bool := x.any (· == 0)

/-- Why the arguments do not go together. -/
def objection? (a : Arguments) : Option String :=
  let given := [a.lowest.isSome, a.highest.isSome, a.count.isSome]
  if given.any id && !given.all id then some "MINFREQ, MAXFREQ and NFREQ must be given together"
  else if a.count == some 0 then some "NFREQ must be positive"
  else if a.spacing == .logarithmic && (isZero a.lowest || isZero a.highest) then
    some "frequency limits cannot be 0 with log spacing"
  else if a.interpolateInput && a.interpolateOutput then
    some "--il and --ii cannot be used together"
  else if a.day < 1 ∨ 366 < a.day then
    some ("JDAY must be between 1 and 366, found " ++ Decimal.natural a.day)
  else none

/-- The range of the named stages: from the lower to the higher of the first two. -/
def stageRange? (a : Arguments) : Option StageRange :=
  match a.stages with
  | [] => none
  | [only] => some ⟨some only, some only⟩
  | first :: second :: _ => some ⟨some (min first second), some (max first second)⟩

/-- The grid of frequencies, the single frequency of 1 hertz if it is not given. -/
def grid (a : Arguments) : Grid Float :=
  match a.lowest, a.highest, a.count with
  | some lowest, some highest, some count => ⟨lowest, highest, count, a.spacing⟩
  | _, _, _ => ⟨1, 1, 1, a.spacing⟩

/-- Options with those that are given by arguments in their place. -/
def override (a : Arguments) (o : Options Float) : Options Float :=
  { stages := a.stageRange?.getD o.stages
    outputUnit := a.units.getD o.outputUnit
    listMode :=
      if a.interpolateInput then .interpolateInput
      else if a.interpolateOutput then .interpolateOutput
      else o.listMode
    operatingPoint := a.operatingPoint.or o.operatingPoint
    useEstimatedDelay := o.useEstimatedDelay || a.useEstimatedDelay
    useDocumented := o.useDocumented || a.totalSensitivity
    undecoded := o.undecoded }

end Arguments

end InstrumentResponse.CommandLine
