import InstrumentResponse.Decimal.Reading

/-!
# Scanning a command line

A command line is a list of words.  `Scan.read?` sorts them into positional words, switches and
settings with their values, as they come: a setting waits for its values until it has enough of them
or another switch or setting follows, and after `--` every word is positional.

A word that begins with a dash is not a value, unless it is a negative number where one is due.
-/

namespace InstrumentResponse.CommandLine

/-- An option without a value. -/
inductive Switch where
  | stdio
  | useEstimatedDelay
  | interpolateOutput
  | interpolateInput
  | unwrap
  | totalSensitivity
  | verbose
deriving DecidableEq, Repr

/-- An option with values. -/
inductive Setting where
  | file
  | units
  | time
  | spacing
  | network
  | location
  | response
  | stage
  | operatingPoint
  | options
deriving DecidableEq, Repr

/-- The most values that one occurrence of a setting takes. -/
def Setting.capacity : Setting → Nat
  | stage => 2
  | _ => 1

/-- An option of either kind. -/
inductive Name where
  | switch (s : Switch)
  | setting (s : Setting)

/-- The option of a long name. -/
def Name.ofLong? : String → Option Name
  | "stdio" => some (switch .stdio)
  | "use-estimated-delay" => some (switch .useEstimatedDelay)
  | "il" => some (switch .interpolateOutput)
  | "ii" => some (switch .interpolateInput)
  | "unwrap" => some (switch .unwrap)
  | "ts" => some (switch .totalSensitivity)
  | "verbose" => some (switch .verbose)
  | "file" => some (setting .file)
  | "units" => some (setting .units)
  | "time" => some (setting .time)
  | "spacing" => some (setting .spacing)
  | "network" => some (setting .network)
  | "location" => some (setting .location)
  | "response" => some (setting .response)
  | "stage" => some (setting .stage)
  | "b62-x" => some (setting .operatingPoint)
  | "options" => some (setting .options)
  | _ => none

/-- The option of a letter. -/
def Name.ofShort? : Char → Option Name
  | 'v' => some (switch .verbose)
  | 'f' => some (setting .file)
  | 'u' => some (setting .units)
  | 't' => some (setting .time)
  | 's' => some (setting .spacing)
  | 'n' => some (setting .network)
  | 'l' => some (setting .location)
  | 'r' => some (setting .response)
  | _ => none

/-- The most positional words. -/
def positionalLimit : Nat := 7

/-- May the next of some positional words be a negative number?  Both bounds of the frequencies
may. -/
def positionalMayBeNegative (before : Nat) : Bool := before == 4 || before == 5

/-- Is a word without its dash a number: digits with at most one point after the first, and at most
one mark of an exponent, before more digits? -/
def isNumber (cs : List Char) : Bool :=
  let whole := cs.takeWhile Decimal.isDigit
  let tail :=
    match cs.dropWhile Decimal.isDigit with
    | '.' :: ds => if whole.isEmpty then '.' :: ds else ds.dropWhile Decimal.isDigit
    | ds => ds
  match tail with
  | [] => true
  | c :: ds =>
    (c == 'e' || c == 'E') && !whole.isEmpty && !ds.isEmpty && ds.all Decimal.isDigit

/-- The words of a command line so far. -/
structure Scan where
  positionals : List String
  switches : List Switch
  /-- The settings with the values of each occurrence. -/
  given : List (Setting × List String)
  /-- The setting that may take more values, with those that it has. -/
  waiting : Option (Setting × List String)
  /-- Are all further words positional? -/
  onlyPositionals : Bool

namespace Scan

/-- Before the first word. -/
def start : Scan := ⟨[], [], [], none, false⟩

/-- One more occurrence of a setting; only stages may be given again. -/
def give? (s : Scan) (setting : Setting) (values : List String) : Option Scan :=
  if setting ≠ .stage ∧ s.given.any (·.1 == setting) then none
  else some { s with given := s.given ++ [(setting, values)], waiting := none }

/-- Nothing waits any more; a setting needs a value. -/
def close? (s : Scan) : Option Scan :=
  match s.waiting with
  | none => some s
  | some (setting, values) => if values.isEmpty then none else s.give? setting values

/-- A switch, which may be given once. -/
def switch? (s : Scan) (switch : Switch) : Option Scan := do
  let s ← s.close?
  if s.switches.contains switch then none else return { s with switches := s.switches ++ [switch] }

/-- A setting with its value, or one that waits for values. -/
def setting? (s : Scan) (setting : Setting) (value : Option String) : Option Scan := do
  let s ← s.close?
  match value with
  | some value => s.give? setting [value]
  | none => return { s with waiting := some (setting, []) }

/-- A positional word. -/
def positional? (s : Scan) (word : String) : Option Scan := do
  let s ← s.close?
  if s.positionals.length < positionalLimit then
    return { s with positionals := s.positionals ++ [word] }
  else none

/-- A word that is a value of what waits, or positional. -/
def value? (s : Scan) (word : String) : Option Scan :=
  match s.waiting with
  | none => s.positional? word
  | some (setting, values) =>
    let values := values ++ [word]
    if values.length < setting.capacity then some { s with waiting := some (setting, values) }
    else s.give? setting values

/-- A word after two dashes: a name, perhaps with a value after an equals sign. -/
def long? (s : Scan) (cs : List Char) : Option Scan :=
  let name := String.ofList (cs.takeWhile (· != '='))
  let value :=
    match cs.dropWhile (· != '=') with
    | _ :: vs => some (String.ofList vs)
    | [] => none
  match Name.ofLong? name, value with
  | some (.switch switch), none => s.switch? switch
  | some (.setting setting), value => s.setting? setting value
  | _, _ => none

/-- The letters after one dash: switches, up to the first setting, whose value is what follows. -/
def short? (s : Scan) : List Char → Option Scan
  | [] => some s
  | c :: cs =>
    match Name.ofShort? c with
    | some (.switch switch) => (s.switch? switch).bind (short? · cs)
    | some (.setting setting) =>
      s.setting? setting
        (match cs with
        | [] => none
        | '=' :: vs => some (String.ofList vs)
        | vs => some (String.ofList vs))
    | none => none

/-- May the next word be a negative number? -/
def mayBeNegative (s : Scan) : Bool :=
  s.waiting.any (·.1 == .operatingPoint) || positionalMayBeNegative s.positionals.length

/-- One more word. -/
def word? (s : Scan) (word : String) : Option Scan :=
  if s.onlyPositionals then s.positional? word
  else
    match word.toList with
    | ['-'] => s.value? word
    | ['-', '-'] => s.close?.map fun s => { s with onlyPositionals := true }
    | '-' :: '-' :: cs => s.long? cs
    | '-' :: cs => if s.mayBeNegative && isNumber cs then s.value? word else s.short? cs
    | _ => s.value? word

/-- The words of a command line, if they can be told apart. -/
def read? (words : List String) : Option Scan := (words.foldlM word? start).bind close?

/-- The values of a setting. -/
def values (s : Scan) (setting : Setting) : List String :=
  (s.given.filter (·.1 == setting)).flatMap (·.2)

/-- The value of a setting that is given at most once. -/
def value (s : Scan) (setting : Setting) : Option String := (s.values setting).head?

end Scan

end InstrumentResponse.CommandLine
