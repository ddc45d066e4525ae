import InstrumentResponse.Record.Line

/-!
# Decoders

A decoder reads some of the record lines before it.  Whether it succeeds or fails it says which
lines are left, so that reading can go on after a failure, and which unit descriptions it did not
know.

* `Decoder.suffix`: what a decoder leaves is the end of what it was given.
* `Decoder.Advances`: a decoder that consumes at least one line whenever it succeeds; what begins
  with one advances (`Advances.bind`).
* `Decoder.take`, `Decoder.table`: the two ways in which lines are consumed.
* `Memory`: which tables can be held.  All that reads tables takes it as a parameter.
-/

namespace InstrumentResponse.Record

/-- What is said of a table, by the kind of its rows and their number, when room is made for it. -/
class Memory where
  /-- Can a table of that many rows be held? -/
  canHold (what : String) (count : Nat) : Bool

/-- The memory of a process with 47 bits of addresses, of which a row takes eight at least.  It is
the one that the program runs with. -/
instance (priority := low) Memory.ofAddresses : Memory := ⟨fun _ count => 8 * count < 1 <<< 47⟩

/-- What a decoder answers. -/
structure Reply (β : Type) where
  /-- The unit descriptions that were not known, in order. -/
  unknownUnits : List String
  result : Except ReadFault β
  rest : List Entry

/-- A step of reading.  It is given the number of lines of the whole text, for the fault at its end,
and the record lines that are left. -/
structure Decoder (β : Type) where
  run : Nat → List Entry → Reply β
  suffix : ∀ lines es, (run lines es).rest <:+ es

namespace Decoder

variable {β γ : Type}

/-- Reads nothing. -/
def done (b : β) : Decoder β := ⟨fun _ es => ⟨[], .ok b, es⟩, fun _ es => List.suffix_refl es⟩

/-- Reads nothing and fails. -/
def fail (fault : ReadFault) : Decoder β :=
  ⟨fun _ es => ⟨[], .error fault, es⟩, fun _ es => List.suffix_refl es⟩

/-- Reads nothing and answers what a line was found to hold. -/
def lift (r : Except ReadFault β) : Decoder β :=
  ⟨fun _ es => ⟨[], r, es⟩, fun _ es => List.suffix_refl es⟩

/-- Reads nothing and notes a unit description that is not known. -/
def noteUnit (name : String) : Decoder Unit :=
  ⟨fun _ es => ⟨[name], .ok (), es⟩, fun _ es => List.suffix_refl es⟩

/-- The reply of a first step, and that of the step after it. -/
def andThen (r : Reply β) (f : β → List Entry → Reply γ) : Reply γ :=
  match r.result with
  | .ok b =>
    let t := f b r.rest
    ⟨r.unknownUnits ++ t.unknownUnits, t.result, t.rest⟩
  | .error e => ⟨r.unknownUnits, .error e, r.rest⟩

theorem rest_andThen_suffix (r : Reply β) (f : β → List Entry → Reply γ)
    (h : ∀ b, (f b r.rest).rest <:+ r.rest) : (andThen r f).rest <:+ r.rest := by
  unfold andThen
  split
  · exact h _
  · exact List.suffix_refl _

/-- One step after another. -/
def bind (d : Decoder β) (f : β → Decoder γ) : Decoder γ where
  run lines es := andThen (d.run lines es) fun b rest => (f b).run lines rest
  suffix lines es :=
    (rest_andThen_suffix _ _ fun b => (f b).suffix lines _).trans (d.suffix lines es)

instance : Monad Decoder where
  pure := done
  bind := bind

instance : MonadLift (Except ReadFault) Decoder := ⟨lift⟩

@[simp] theorem run_bind (d : Decoder β) (f : β → Decoder γ) (lines : Nat) (es : List Entry) :
    (d >>= f).run lines es = andThen (d.run lines es) fun b rest => (f b).run lines rest := rfl

/-! ## Progress -/

/-- A decoder consumes at least one line whenever it succeeds. -/
def Advances (d : Decoder β) : Prop :=
  ∀ lines es b, (d.run lines es).result = .ok b → (d.run lines es).rest.length < es.length

theorem Advances.bind {d : Decoder β} (h : d.Advances) (f : β → Decoder γ) :
    (d >>= f).Advances := by
  intro lines es c hc
  simp only [run_bind, andThen] at hc ⊢
  split at hc
  next b hb =>
    have h1 := h lines es b hb
    have h2 := ((f b).suffix lines (d.run lines es).rest).length_le
    simp only
    omega
  next => simp at hc

theorem Advances.map {d : Decoder β} (h : d.Advances) (f : β → γ) : (f <$> d).Advances :=
  h.bind fun b => pure (f b)

/-! ## Consuming lines -/

/-- The next record line, without consuming it; a damaged line is consumed and refused. -/
def peek : Decoder (Option Line) where
  run _ es :=
    match es with
    | [] => ⟨[], .ok none, []⟩
    | .record l :: rest => ⟨[], .ok (some l), .record l :: rest⟩
    | .damaged number text :: rest => ⟨[], .error (.line number 0 0 text .malformed), rest⟩
  suffix _ es := by
    split
    · exact List.suffix_refl _
    · exact List.suffix_refl _
    · exact List.suffix_cons _ _

/-- Consumes the next line, if there is one. -/
def skip : Decoder Unit := ⟨fun _ es => ⟨[], .ok (), es.tail⟩, fun _ es => List.tail_suffix es⟩

/-- May a line stand before the line of another record?  Lines of the same blockette with a lower
field number are optional labels, except the line that opens a channel and rows of tables. -/
def isLabelBefore (l : Line) (blockette field : Nat) : Bool :=
  l.blockette == blockette && l.field < field && l.lastField.isNone && !l.isHeader

/-- The line of a record after the optional labels before it.  A line that does not fit stays, a
damaged one does not. -/
def takeFrom (blockette field lines : Nat) : List Entry → Reply Line
  | [] => ⟨[], .error (.line lines blockette field "" (.endOfInput blockette field)), []⟩
  | .damaged number text :: rest => ⟨[], .error (.line number 0 0 text .malformed), rest⟩
  | .record l :: rest =>
    if l.isRecord blockette field then ⟨[], .ok l, rest⟩
    else if isLabelBefore l blockette field then takeFrom blockette field lines rest
    else ⟨[], .error (l.refuse (.mismatch blockette field)), .record l :: rest⟩

theorem rest_takeFrom_suffix (blockette field lines : Nat) (es : List Entry) :
    (takeFrom blockette field lines es).rest <:+ es := by
  fun_induction takeFrom blockette field lines es with
  | case1 => exact List.suffix_refl _
  | case2 => exact List.suffix_cons _ _
  | case3 => exact List.suffix_cons _ _
  | case4 l rest _ _ ih => exact ih.trans (List.suffix_cons _ _)
  | case5 => exact List.suffix_refl _

/-- Consumes the line of a record and the optional labels before it. -/
def take (blockette field : Nat) : Decoder Line :=
  ⟨takeFrom blockette field, rest_takeFrom_suffix blockette field⟩

theorem length_rest_takeFrom {blockette field lines : Nat} {es : List Entry} {l : Line}
    (h : (takeFrom blockette field lines es).result = .ok l) :
    (takeFrom blockette field lines es).rest.length < es.length := by
  fun_induction takeFrom blockette field lines es with
  | case1 => simp at h
  | case2 => simp at h
  | case3 => simp
  | case4 l rest _ _ ih => exact Nat.lt_succ_of_lt (ih h)
  | case5 => simp at h

theorem advances_take (blockette field : Nat) : (take blockette field).Advances :=
  fun _ _ _ h => length_rest_takeFrom h

/-- Fails where the line of a record is due and no line is left. -/
def endOfInput (blockette field : Nat) : Decoder β :=
  ⟨fun lines es => ⟨[], .error (.line lines blockette field "" (.endOfInput blockette field)), es⟩,
    fun _ es => List.suffix_refl es⟩

/-- Rows of a table, of which `found` have been read and `left` are still due. -/
def rowsFrom (blockette field : Nat) (what : String) (row : Line → Except ReadFault β)
    (found : Nat) : Nat → List Entry → Reply (List β)
  | 0, es => ⟨[], .ok [], es⟩
  | left + 1, [] => ⟨[], .error (.truncated what found (found + (left + 1))), []⟩
  | _ + 1, .damaged number text :: rest =>
    ⟨[], .error (.line number 0 0 text .malformed), rest⟩
  | left + 1, .record l :: rest =>
    if l.isRecord blockette field then
      match row l with
      | .ok b =>
        let t := rowsFrom blockette field what row (found + 1) left rest
        ⟨[], t.result.map (b :: ·), t.rest⟩
      | .error e => ⟨[], .error e, rest⟩
    else ⟨[], .error (.truncated what found (found + (left + 1))), .record l :: rest⟩

theorem rest_rowsFrom_suffix (blockette field : Nat) (what : String)
    (row : Line → Except ReadFault β) (found count : Nat) (es : List Entry) :
    (rowsFrom blockette field what row found count es).rest <:+ es := by
  fun_induction rowsFrom blockette field what row found count es with
  | case1 => exact List.suffix_refl _
  | case2 => exact List.suffix_refl _
  | case3 => exact List.suffix_cons _ _
  | case4 _ _ _ _ _ _ _ _ ih => exact ih.trans (List.suffix_cons _ _)
  | case5 => exact List.suffix_cons _ _
  | case6 => exact List.suffix_refl _

/-- The rows of a table of a given length, whatever that is. -/
def rows (blockette field count : Nat) (what : String) (row : Line → Except ReadFault β) :
    Decoder (List β) :=
  ⟨fun _ es => rowsFrom blockette field what row 0 count es,
    fun _ es => rest_rowsFrom_suffix blockette field what row 0 count es⟩

/-- The rows of a table of a given length, which is refused before any row is read if it cannot be
held. -/
def table [Memory] (blockette field count : Nat) (what : String)
    (row : Line → Except ReadFault β) : Decoder (List β) :=
  if Memory.canHold what count then rows blockette field count what row
  else fail (.unreservable what count)

end Decoder

end InstrumentResponse.Record
