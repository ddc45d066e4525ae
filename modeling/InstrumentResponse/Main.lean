import InstrumentResponse.CommandLine.Run

/-!
# The program

Reads the arguments, carries them out on the records of standard input or of a file, and writes the
responses to standard output or into files.
-/

namespace InstrumentResponse.CommandLine

/-- The rest of a stream. -/
partial def readAll (stream : IO.FS.Stream) (text : String) : IO String := do
  let line ← stream.getLine
  if line.isEmpty then return text else readAll stream (text ++ line)

/-- The text of a file, or why there is none. -/
def readText (path : String) : IO (Except String String) := do
  try
    return .ok (← IO.FS.readFile path)
  catch e =>
    return .error (toString e)

/-- The document of options, if one is named. -/
def readDocument (path : Option String) : IO (String → Except String String) := do
  match path with
  | none => return fun _ => .error ""
  | some path =>
    let text ← readText path
    return fun _ => text

/-- The records that the arguments name. -/
def readInputs (a : Arguments) : IO (Except String (List Input)) := do
  if a.stdio then return .ok [⟨"stdin", ← readAll (← IO.getStdin) ""⟩]
  else
    match a.file with
    | none => return .error "no RESP file found for the requested channels"
    | some path =>
      match ← readText path with
      | .ok text => return .ok [⟨path, text⟩]
      | .error reason => return .error ("cannot read " ++ path ++ ": " ++ reason)

/-- Ends the program with a message. -/
def refuse (message : String) (code : UInt32) : IO UInt32 := do
  IO.eprintln message
  return code

/-- Writes out what has come of the channels. -/
def deliver (a : Arguments) (outcomes : List Outcome) : IO UInt32 := do
  for o in outcomes do
    for note in o.notes do
      IO.eprintln note
  let tally ←
    if a.stdio then do
      let p := toStream a.response a.unwrap outcomes
      IO.print p.sink
      pure p.tally
    else do
      let p := toDirectory a.response a.unwrap outcomes
      for (name, text) in p.sink do
        IO.FS.writeFile name text
      pure p.tally
  if tally.responses = 0 then
    refuse ("Error: no response computed (" ++ Decimal.natural tally.failures ++
      " channel(s) failed)") 1
  else return 0

/-- Runs the program on the words of a command line. -/
def run (words : List String) : IO UInt32 := do
  match Arguments.read? words with
  | none => refuse "error: the arguments cannot be understood" 2
  | some a =>
    match a.objection? with
    | some message => refuse ("Validation Error: " ++ message) 1
    | none =>
      match a.plan (← readDocument a.options) with
      | .error refusal => refuse ("Error: " ++ refusal.message) 1
      | .ok plan =>
        match ← readInputs a with
        | .error message => refuse ("Error: " ++ message) 1
        | .ok inputs => deliver a (evaluateInputs plan a.verbose inputs)

end InstrumentResponse.CommandLine

def main (words : List String) : IO UInt32 := InstrumentResponse.CommandLine.run words
