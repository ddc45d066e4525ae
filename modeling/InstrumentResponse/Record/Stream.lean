import InstrumentResponse.Record.Blockette

/-!
# The channels of a text

A channel is a header, which names it and its epoch, and a body of blockettes up to the next header.
A channel that cannot be read is reported, and reading goes on at the next header.

* `Decoder.header`, `Decoder.body`: the two parts of a channel.
* `channels`: what is read from a text, one item for each header of a channel that is selected.
-/

namespace InstrumentResponse.Record

/-- A code in which two question marks stand for a blank. -/
def optionalCode (s : String) : String := if s = "??" then "" else s

namespace Line

/-- The value of a line as an instant. -/
def instant (l : Line) : Except ReadFault Instant := do
  let s ← l.value
  match Instant.read? s with
  | some t => return t
  | none => throw (l.refuse (.notDate s))

/-- The value of a line as the end of an epoch. -/
def ending (l : Line) : Except ReadFault (Option Instant) := do
  let s ← l.value
  if Text.lowerAscii s = "no ending time" then return none
  return some (← l.instant)

end Line

namespace Decoder

/-- The location code, which may be left out. -/
def location : Decoder String := do
  match ← peek with
  | some l =>
    if l.isRecord 52 3 then
      skip
      return optionalCode (← l.value)
    else return ""
  | none => return ""

/-- The header of a channel after its first line, which names the station. -/
def header (stationLine : Line) : Decoder (Channel Float) := do
  let station ← stationLine.value
  let networkLine ← take 50 16
  let network ← networkLine.value
  let location ← location
  let channelLine ← take 52 4
  let channel ← channelLine.value
  let startLine ← take 52 22
  let start ← startLine.instant
  let stopLine ← take 52 23
  let stop ← stopLine.ending
  return .empty ⟨optionalCode network, station, location, channel⟩ (some start) stop

/-! ## Bodies -/

/-- Stages, the last one first, after an element of a body.  It opens a new stage when the sequence
number changes. -/
def addElement (stages : List (Stage Float)) (d : Decoded) : List (Stage Float) :=
  match stages with
  | [] => [absorb (.empty (d.sequence.getD 0)) d]
  | last :: earlier =>
    let sequence := d.sequence.getD last.sequence
    if last.sequence = sequence then absorb last d :: earlier
    else absorb (.empty sequence) d :: last :: earlier

/-- A stage and the elements of another one that continues it; it takes the units of the other one
if it has none. -/
def continueStage (s t : Stage Float) : Stage Float :=
  let joined := { s with elements := s.elements ++ t.elements }
  if !s.hasUnits && t.hasUnits then
    { joined with input := t.input, output := t.output, inputName := t.inputName }
  else joined

/-- Stages, the last one first, after the stages of a reference.  The first of them may continue the
last stage. -/
def addReference (stages referenced : List (Stage Float)) : List (Stage Float) :=
  match stages, referenced with
  | last :: earlier, first :: others =>
    if last.sequence = first.sequence then
      others.reverse ++ continueStage last first :: earlier
    else (first :: others).reverse ++ last :: earlier
  | _, _ => referenced.reverse ++ stages

variable [Memory]

/-- What a record of a body does to the stages read so far, for the blockettes of a chain. -/
def bodyRecord? (undecoded : Bool) (blockette : Nat) :
    Option { d : Decoder (List (Stage Float) → List (Stage Float)) // d.Advances } :=
  if blockette = 60 then
    some ⟨(fun referenced stages => addReference stages referenced) <$> reference undecoded,
      (advances_reference undecoded).map _⟩
  else
    (Kind.ofBlockette? .inline blockette).map fun kind =>
      ⟨(fun d stages => addElement stages d) <$> element kind .inline undecoded,
        (advances_element kind undecoded).map _⟩

/-- The stages of a body after those already read, which are given the last one first.  Lines of
blockettes that are not part of a chain are passed over; the body ends before the next line of
blockette 50. -/
def stagesFrom (undecoded : Bool) (lines : Nat) (stages : List (Stage Float)) (es : List Entry) :
    Reply (List (Stage Float)) :=
  match es with
  | [] => ⟨[], .ok stages.reverse, []⟩
  | .damaged number text :: rest => ⟨[], .error (.line number 0 0 text .malformed), rest⟩
  | .record l :: rest =>
    if l.blockette = 50 then ⟨[], .ok stages.reverse, .record l :: rest⟩
    else
      match bodyRecord? undecoded l.blockette with
      | none => stagesFrom undecoded lines stages rest
      | some ⟨d, advances⟩ =>
        let r := d.run lines (.record l :: rest)
        match h : r.result with
        | .ok update =>
          have : r.rest.length < rest.length + 1 := advances _ _ _ h
          let t := stagesFrom undecoded lines (update stages) r.rest
          ⟨r.unknownUnits ++ t.unknownUnits, t.result, t.rest⟩
        | .error e => ⟨r.unknownUnits, .error e, r.rest⟩
termination_by es.length
decreasing_by
  · exact Nat.lt_succ_self _
  · exact this

theorem rest_stagesFrom_suffix (undecoded : Bool) (lines : Nat) (stages : List (Stage Float))
    (es : List Entry) : (stagesFrom undecoded lines stages es).rest <:+ es := by
  fun_induction stagesFrom undecoded lines stages es with
  | case1 => exact List.suffix_refl _
  | case2 => exact List.suffix_cons _ _
  | case3 => exact List.suffix_refl _
  | case4 _ _ _ _ _ ih => exact ih.trans (List.suffix_cons _ _)
  | case5 _ _ _ _ d _ _ r _ _ _ _ ih => exact ih.trans (d.suffix lines _)
  | case6 _ _ _ _ d => exact d.suffix lines _

/-- The factor to meters of the first stage that has units. -/
def unitScaleOf (stages : List (Stage Float)) : Float :=
  match stages.find? (·.hasUnits) with
  | some s => scaleToMeters s.inputName
  | none => 1

/-- The body of a channel. -/
def body (undecoded : Bool) (c : Channel Float) : Decoder (Channel Float) := do
  let stages ← (⟨fun lines es => stagesFrom undecoded lines [] es,
    fun lines es => rest_stagesFrom_suffix undecoded lines [] es⟩ : Decoder _)
  return { c with stages, unitScale := if undecoded then c.unitScale else unitScaleOf stages }

end Decoder

/-! ## Streams -/

/-- What is read for one header. -/
structure Item where
  /-- The unit descriptions that were not known, in order. -/
  unknownUnits : List String
  result : Except ReadFault (Channel Float)

variable [Memory]

/-- The channel of a header whose first line is given, none if it is not selected, and the lines
after what was read of it. -/
def readChannel (select : Channel Float → Bool) (undecoded : Bool) (lines : Nat) (first : Line)
    (es : List Entry) : Option Item × List Entry :=
  let head := (Decoder.header first).run lines es
  match head.result with
  | .error e => (some ⟨head.unknownUnits, .error e⟩, head.rest)
  | .ok c =>
    if select c then
      let body := (Decoder.body undecoded c).run lines head.rest
      (some ⟨body.unknownUnits, body.result⟩, body.rest)
    else (none, head.rest)

theorem length_rest_readChannel_le (select : Channel Float → Bool) (undecoded : Bool)
    (lines : Nat) (first : Line) (es : List Entry) :
    (readChannel select undecoded lines first es).2.length ≤ es.length := by
  have h1 := ((Decoder.header first).suffix lines es).length_le
  simp only [readChannel]
  split
  · exact h1
  next c _ =>
    split
    · exact Nat.le_trans ((Decoder.body undecoded c).suffix lines _).length_le h1
    · exact h1

/-- The channels of some lines; what stands before the first header is passed over. -/
def channelsFrom (select : Channel Float → Bool) (undecoded : Bool) (lines : Nat) :
    List Entry → List Item
  | [] => []
  | .damaged _ _ :: rest => channelsFrom select undecoded lines rest
  | .record l :: rest =>
    if l.isHeader then
      let read := readChannel select undecoded lines l rest
      read.1.toList ++ channelsFrom select undecoded lines read.2
    else channelsFrom select undecoded lines rest
termination_by es => es.length
decreasing_by
  · exact Nat.lt_succ_self _
  · exact Nat.lt_succ_of_le (length_rest_readChannel_le ..)
  · exact Nat.lt_succ_self _

/-- The channels of a text that are selected by their header.  A text that begins with a damaged
line has one more item, the fault of that line. -/
def channels (select : Channel Float → Bool) (undecoded : Bool) (text : String) : List Item :=
  let lines := lineCount text
  match entries text with
  | .damaged number line :: rest =>
    ⟨[], .error (.line number 0 0 line .malformed)⟩ ::
      channelsFrom select undecoded lines rest
  | es => channelsFrom select undecoded lines es

end InstrumentResponse.Record
