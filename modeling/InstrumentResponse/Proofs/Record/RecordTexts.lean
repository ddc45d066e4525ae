import InstrumentResponse.Proofs.Record.Isolation
import InstrumentResponse.Proofs.Text.Blanks

/-!
# Only record lines matter

A text is read by its record lines.  Blank lines and comments between them shift the numbers of
lines, and these show in faults and nowhere else.

* `recordTexts`: the record lines of a text; `recordTexts_insert`: blank lines and comments make no
  difference to them.
* `Decoder.Forgets`: what a decoder reads off lines without their numbers is what it reads off the
  numbered ones, apart from the numbers; `Decoder.Forgets.bind`: what is made of steps that do so
  does so too.
* `Decoder.forgets_element`, `Decoder.forgets_reference`, `Decoder.stagesFrom_unnumbered`: the parts
  of a channel.
* `channelsFrom_unnumbered`: the channels of some lines.
* `channels_eq_of_recordTexts`: the items of a text depend on its record lines, apart from numbers.
-/

namespace InstrumentResponse.Record

/-! ## The record lines of a text -/

/-- Does a line without blanks around it hold a record?  It is neither empty nor a comment. -/
def isRecordText (line : List Char) : Bool := line.head?.any (· != '#')

/-- The record lines of a text, in order, without the blanks around them. -/
def recordTexts (text : String) : List (List Char) :=
  ((Text.linesOf text.toList).map Text.trimChars).filter isRecordText

/-- The record lines of two texts with a line feed between them. -/
theorem recordTexts_append (a b : String) :
    recordTexts (a ++ "\n" ++ b) = recordTexts a ++ recordTexts b := by
  have hFeed : (a ++ "\n" ++ b).toList = a.toList ++ '\n' :: b.toList := by
    rw [String.toList_append, String.toList_append, List.append_assoc]
    rfl
  rw [recordTexts, recordTexts, recordTexts, hFeed]
  induction a.toList using Text.line_induction with
  | nil =>
    rw [Text.linesOf_append_lineFeed List.not_mem_nil]
    rfl
  | last l hl h =>
    rw [Text.linesOf_append_lineFeed h, Text.linesOf_of_not_mem hl h, List.map_cons,
      Text.trimChars_dropReturn, ← List.filter_append]
    rfl
  | line l rest h ih =>
    rw [List.append_assoc, List.cons_append, Text.linesOf_append_lineFeed h,
      Text.linesOf_append_lineFeed h, List.map_cons, List.map_cons, List.filter_cons, ih,
      List.filter_cons]
    split
    · rw [List.cons_append]
    · rfl

/-- The record lines of a text that is made of lines. -/
theorem recordTexts_textOf {ls : List String} (h : ∀ l ∈ ls, '\n' ∉ l.toList) :
    recordTexts (textOf ls) =
      (ls.map fun l => Text.trimChars (Text.bareLine (l.toList ++ ['\n']))).filter isRecordText := by
  rw [recordTexts, Text.linesOf_eq_map_bareLine, rawLines_textOf h, List.map_map, List.map_map,
    List.map_map]
  rfl

/-- Blank lines and comments may be put between two lines. -/
theorem recordTexts_insert {noise : String} (h : recordTexts noise = []) (before after : String) :
    recordTexts (before ++ "\n" ++ noise ++ "\n" ++ after) =
      recordTexts (before ++ "\n" ++ after) := by
  rw [recordTexts_append, recordTexts_append, recordTexts_append, h, List.append_nil]

/-- An entry without its number. -/
def Entry.unnumbered : Entry → Entry
  | .record l => .record (l.renumbered 0)
  | .damaged _ text => .damaged 0 text

theorem Entry.unnumbered_read (number : Nat) (text : String) :
    (Entry.read number text).unnumbered = Entry.read 0 text := by
  unfold Entry.read
  dsimp only
  split
  · rfl
  · rfl

theorem unnumbered_ofLine? (line : List Char) (number : Nat) :
    (Entry.ofLine? line number).toList.map Entry.unnumbered =
      ((([Text.trimChars line].filter isRecordText).map String.ofList).map (Entry.read 0)) := by
  unfold Entry.ofLine?
  split
  · next h =>
    rw [h]
    rfl
  · next h =>
    rw [h]
    rfl
  · next cs hBlank hComment =>
    rcases hTrimmed : Text.trimChars line with _ | ⟨c, rest⟩
    · exact absurd hTrimmed hBlank
    · have hRecord : isRecordText (c :: rest) = true :=
        bne_iff_ne.mpr fun hc => hComment rest (hc ▸ hTrimmed)
      rw [List.filter_cons, if_pos hRecord, Option.toList_some, List.map_singleton,
        Entry.unnumbered_read]
      rfl

/-- Without their numbers the entries of a text are told by its record lines. -/
theorem unnumbered_entries (text : String) :
    (entries text).map Entry.unnumbered =
      ((recordTexts text).map String.ofList).map (Entry.read 0) := by
  rw [entries_eq_entriesFrom, recordTexts, Text.linesOf_eq_map_bareLine]
  generalize Text.rawLines text.toList = ls
  generalize 1 = number
  induction ls generalizing number with
  | nil => rfl
  | cons l ls ih =>
    rw [entriesFrom, List.map_append, ih, unnumbered_ofLine?, List.map_cons, List.map_cons,
      List.filter_cons, List.filter_cons]
    split
    · rfl
    · rfl

/-! ## Decoders that forget numbers -/

/-- A reply without numbers of lines, its result changed by `f`. -/
def Reply.unnumbered {β γ : Type} (f : β → γ) (r : Reply β) : Reply γ :=
  ⟨r.unknownUnits, (r.result.map f).mapError ReadFault.unnumbered, r.rest.map Entry.unnumbered⟩

namespace Decoder

variable {β γ δ ε : Type} {f : β → γ} {g : δ → ε}

/-- The second decoder answers to lines without their numbers as the first one does to numbered
ones, apart from the numbers, and with its results changed by `f`. -/
def Forgets (f : β → γ) (d : Decoder β) (d' : Decoder γ) : Prop :=
  ∀ lines es, d'.run 0 (es.map Entry.unnumbered) = (d.run lines es).unnumbered f

/-- Results do not tell the numbers of lines. -/
abbrev IsForgetful (d : Decoder β) : Prop := Forgets id d d

theorem forgets_pure (b : β) : Forgets f (pure b) (pure (f b)) := fun _ _ => rfl

theorem forgets_fail {fault fault' : ReadFault} (h : fault' = fault.unnumbered) :
    Forgets f (fail fault) (fail fault') := by
  intro lines es
  rw [h]
  rfl

theorem forgets_noteUnit (name : String) : IsForgetful (noteUnit name) := fun _ _ => rfl

theorem forgets_endOfInput (blockette field : Nat) :
    Forgets f (endOfInput blockette field) (endOfInput blockette field) := fun _ _ => rfl

/-- What a line is found to hold. -/
theorem forgets_lift {h : Line → Except ReadFault β} (hBlind : Line.Blind h) (l : Line) :
    Forgets id (lift (h l)) (lift (h (l.renumbered 0))) := by
  intro lines es
  show Reply.mk [] (h (l.renumbered 0)) _ = ⟨[], ((h l).map id).mapError _, _⟩
  rw [hBlind l, Except.map_id]
  rfl

theorem andThen_unnumbered {r : Reply β} {r' : Reply γ} {k : β → List Entry → Reply δ}
    {k' : γ → List Entry → Reply ε} (h : r' = r.unnumbered f)
    (hk : ∀ b, r.result = .ok b →
      k' (f b) (r.rest.map Entry.unnumbered) = (k b r.rest).unnumbered g) :
    andThen r' k' = (andThen r k).unnumbered g := by
  subst h
  obtain ⟨units, fault | b, rest⟩ := r
  · rfl
  · have hRest : k' (f b) (rest.map Entry.unnumbered) = (k b rest).unnumbered g := hk b rfl
    let prepend (s : Reply ε) : Reply ε := ⟨units ++ s.unknownUnits, s.result, s.rest⟩
    show prepend (k' (f b) (rest.map Entry.unnumbered)) = _
    rw [hRest]
    rfl

theorem Forgets.bind {d : Decoder β} {d' : Decoder γ} {k : β → Decoder δ} {k' : γ → Decoder ε}
    (h : Forgets f d d') (hk : ∀ b, Forgets g (k b) (k' (f b))) :
    Forgets g (d >>= k) (d' >>= k') :=
  fun lines es => andThen_unnumbered (h lines es) fun b _ => hk b lines _

theorem Forgets.map {d : Decoder β} (h : IsForgetful d) (f : β → γ) : IsForgetful (f <$> d) :=
  h.bind fun b => forgets_pure (f b)

/-! ## Consuming lines -/

theorem forgets_peek : Forgets (Option.map (·.renumbered 0)) peek peek := by
  intro lines es
  rcases es with _ | ⟨l | ⟨number, text⟩, rest⟩
  · rfl
  · rfl
  · rfl

theorem forgets_take (blockette field : Nat) :
    Forgets (·.renumbered 0) (take blockette field) (take blockette field) := by
  intro lines es
  show takeFrom blockette field 0 (es.map Entry.unnumbered) =
    (takeFrom blockette field lines es).unnumbered _
  induction es with
  | nil => rfl
  | cons e es ih =>
    rcases e with l | ⟨number, text⟩
    · have hRecord : (l.renumbered 0).isRecord blockette field = l.isRecord blockette field := rfl
      have hLabel : isLabelBefore (l.renumbered 0) blockette field =
        isLabelBefore l blockette field := rfl
      rw [List.map_cons, Entry.unnumbered, takeFrom, takeFrom, hRecord, hLabel, ih]
      split
      · rfl
      · split
        · rfl
        · rfl
    · rfl

theorem forgets_rows (blockette field count : Nat) (what : String)
    {row : Line → Except ReadFault β} (hrow : Line.Blind row) :
    IsForgetful (rows blockette field count what row) := by
  intro lines es
  show rowsFrom blockette field what row 0 count (es.map Entry.unnumbered) =
    (rowsFrom blockette field what row 0 count es).unnumbered id
  generalize 0 = found
  induction es generalizing found count with
  | nil => cases count <;> rfl
  | cons e es ih =>
    cases count with
    | zero => rfl
    | succ left =>
      rcases e with l | ⟨number, text⟩
      · have hRecord : (l.renumbered 0).isRecord blockette field = l.isRecord blockette field := rfl
        rw [List.map_cons, Entry.unnumbered, rowsFrom, rowsFrom, hRecord, hrow l, ih]
        split
        · cases row l with
          | error fault => rfl
          | ok b =>
            show Reply.mk _ _ _ = Reply.mk _ _ _
            dsimp only [Except.mapError, Reply.unnumbered]
            cases (rowsFrom blockette field what row (found + 1) left es).result <;> rfl
        · rfl
      · rfl

theorem forgets_table [Memory] (blockette field count : Nat) (what : String)
    {row : Line → Except ReadFault β} (hrow : Line.Blind row) :
    IsForgetful (table blockette field count what row) := by
  unfold table
  by_cases h : Memory.canHold what count = true
  · rw [if_pos h]
    exact forgets_rows blockette field count what hrow
  · rw [if_neg h]
    exact forgets_fail rfl

/-! ## Blockettes -/

/-- The line of a record, what it holds, and what is read after it. -/
theorem forgets_value_bind (blockette field : Nat) {h : Line → Except ReadFault β}
    (hBlind : Line.Blind h) {k : β → Decoder δ} {k' : β → Decoder ε}
    (hk : ∀ b, Forgets g (k b) (k' b)) :
    Forgets g (take blockette field >>= fun l => lift (h l) >>= k)
      (take blockette field >>= fun l => lift (h l) >>= k') :=
  (forgets_take blockette field).bind fun l => (forgets_lift hBlind l).bind hk

theorem forgets_value (blockette field : Nat) {h : Line → Except ReadFault β}
    (hBlind : Line.Blind h) : IsForgetful (take blockette field >>= fun l => lift (h l)) :=
  (forgets_take blockette field).bind fun l => forgets_lift hBlind l

theorem forgets_decimal (blockette field : Nat) : IsForgetful (decimal blockette field) :=
  forgets_value blockette field Line.blind_decimal

theorem forgets_count (blockette field : Nat) : IsForgetful (count blockette field) :=
  forgets_value blockette field Line.blind_count

theorem forgets_code (blockette field : Nat) : IsForgetful (code blockette field) :=
  forgets_value blockette field Line.blind_code

theorem forgets_sequence (form : Form) (blockette field : Nat) :
    IsForgetful (sequence form blockette field) := by
  cases form with
  | inline => exact forgets_value_bind _ _ Line.blind_sequence fun n => forgets_pure (some n)
  | dictionary => exact forgets_pure none

theorem forgets_unit (undecoded : Bool) (blockette field : Nat) :
    IsForgetful (unit undecoded blockette field) := by
  refine forgets_value_bind _ _ Line.blind_value fun name => ?_
  cases undecoded with
  | true => exact forgets_pure _
  | false =>
    by_cases h : Quantity.read name = .undefined
    · simp only [Bool.false_eq_true, if_false, if_pos h]
      exact (forgets_noteUnit name).bind fun _ => forgets_pure _
    · simp only [Bool.false_eq_true, if_false, if_neg h]
      exact forgets_pure _

theorem forgets_units (undecoded : Bool) (blockette field : Nat) :
    IsForgetful (units undecoded blockette field) :=
  (forgets_unit undecoded blockette field).bind fun _ =>
    (forgets_unit undecoded blockette (field + 1)).bind fun _ => forgets_pure _

/-- An element, from either form of its blockette. -/
theorem forgets_element [Memory] (kind : Kind) (form : Form) (undecoded : Bool) :
    IsForgetful (element kind form undecoded) := by
  cases kind with
  | poleZero =>
    exact forgets_value_bind _ _ Line.blind_plane fun _ =>
      (forgets_sequence form _ _).bind fun _ =>
      (forgets_units undecoded _ _).bind fun _ =>
      (forgets_decimal _ _).bind fun _ =>
      (forgets_decimal _ _).bind fun _ =>
      (forgets_count _ _).bind fun _ =>
      (forgets_count _ _).bind fun _ =>
      (forgets_table _ _ _ _ Line.blind_root).bind fun _ =>
      (forgets_table _ _ _ _ Line.blind_root).bind fun _ => forgets_pure _
  | coefficients =>
    exact forgets_value_bind _ _ (Line.blind_expectType _ _) fun _ =>
      (forgets_sequence form _ _).bind fun _ =>
      (forgets_units undecoded _ _).bind fun _ =>
      (forgets_count _ _).bind fun _ =>
      (forgets_count _ _).bind fun _ =>
      (forgets_table _ _ _ _ Line.blind_indexedValue).bind fun _ =>
      (forgets_table _ _ _ _ Line.blind_indexedValue).bind fun _ => forgets_pure _
  | list =>
    exact (forgets_sequence form _ _).bind fun _ =>
      (forgets_units undecoded _ _).bind fun _ =>
      (forgets_count _ _).bind fun _ =>
      (forgets_table _ _ _ _ Line.blind_listRow).bind fun _ => forgets_pure _
  | generic =>
    exact (forgets_sequence form _ _).bind fun _ =>
      (forgets_units undecoded _ _).bind fun _ =>
      (forgets_count _ _).bind fun _ =>
      (forgets_table _ _ _ _ Line.blind_corner).bind fun _ => forgets_pure _
  | decimation =>
    exact (forgets_sequence form _ _).bind fun _ =>
      (forgets_decimal _ _).bind fun _ =>
      forgets_value_bind _ _ (Line.blind_smallCount _) fun _ =>
      forgets_value_bind _ _ (Line.blind_smallCount _) fun _ =>
      (forgets_decimal _ _).bind fun _ =>
      (forgets_decimal _ _).bind fun _ => forgets_pure _
  | gain =>
    exact (forgets_sequence form _ _).bind fun _ =>
      (forgets_decimal _ _).bind fun _ =>
      (forgets_decimal _ _).bind fun _ =>
      (forgets_count _ _).bind fun _ =>
      (forgets_rows _ _ _ _ (Line.blind_ok ())).bind fun _ => forgets_pure _
  | fir =>
    exact (forgets_sequence form _ _).bind fun _ =>
      forgets_value_bind _ _ Line.blind_symmetry fun _ =>
      (forgets_units undecoded _ _).bind fun _ =>
      (forgets_count _ _).bind fun _ =>
      (forgets_table _ _ _ _ Line.blind_indexedValue).bind fun _ => forgets_pure _
  | polynomial =>
    exact forgets_value_bind _ _ (Line.blind_expectType _ _) fun _ =>
      (forgets_sequence form _ _).bind fun _ =>
      (forgets_units undecoded _ _).bind fun _ =>
      (forgets_code _ _).bind fun _ =>
      (forgets_code _ _).bind fun _ =>
      (forgets_decimal _ _).bind fun _ =>
      (forgets_decimal _ _).bind fun _ =>
      (forgets_decimal _ _).bind fun _ =>
      (forgets_decimal _ _).bind fun _ =>
      (forgets_decimal _ _).bind fun _ =>
      (forgets_count _ _).bind fun _ =>
      (forgets_table _ _ _ _ Line.blind_coefficientRow).bind fun _ => forgets_pure _

/-! ## References -/

theorem forgets_entriesOf [Memory] (undecoded : Bool) (s : Stage Float) (n : Nat) :
    IsForgetful (entriesOf undecoded s n) := by
  induction n generalizing s with
  | zero => exact forgets_pure s
  | succ n ih =>
    refine forgets_peek.bind fun next => ?_
    cases next with
    | none => exact forgets_endOfInput 60 5
    | some l =>
      have hBlockette : (l.renumbered 0).blockette = l.blockette := rfl
      cases hKind : Kind.ofBlockette? .dictionary l.blockette with
      | some kind =>
        simp only [Option.map_some, hBlockette, hKind]
        exact (forgets_element kind .dictionary undecoded).bind fun d => ih (absorb s d)
      | none =>
        simp only [Option.map_some, hBlockette, hKind]
        exact forgets_fail rfl

theorem forgets_referencedStage [Memory] (undecoded : Bool) :
    IsForgetful (referencedStage undecoded) :=
  forgets_value_bind 60 4 Line.blind_sequence fun sequence =>
    (forgets_count 60 5).bind fun responses =>
      forgets_entriesOf undecoded (.empty sequence) responses

theorem forgets_otherStages [Memory] (undecoded : Bool) (stageCount n : Nat) :
    IsForgetful (otherStages undecoded stageCount n) := by
  induction n with
  | zero => exact forgets_pure []
  | succ n ih =>
    refine (forgets_take 60 3).bind fun l => (forgets_lift Line.blind_count l).bind fun again => ?_
    by_cases h : again = stageCount
    · simp only [id, if_pos h]
      exact (forgets_referencedStage undecoded).bind fun s => ih.bind fun rest => forgets_pure _
    · simp only [id, if_neg h]
      exact forgets_fail rfl

theorem forgets_reference [Memory] (undecoded : Bool) : IsForgetful (reference undecoded) := by
  refine (forgets_count 60 3).bind fun stageCount => ?_
  simp only [id]
  unfold stagesOf
  by_cases h : Memory.canHold "referenced stages" stageCount = true
  · rw [if_pos h]
    by_cases h0 : stageCount = 0
    · rw [if_pos h0]
      exact forgets_pure []
    · rw [if_neg h0]
      exact (forgets_referencedStage undecoded).bind fun s =>
        (forgets_otherStages undecoded stageCount _).bind fun rest => forgets_pure _
  · rw [if_neg h]
    exact forgets_fail rfl

theorem forgets_bodyRecord [Memory] {undecoded : Bool} {blockette : Nat}
    {d : { d : Decoder (List (Stage Float) → List (Stage Float)) // d.Advances }}
    (h : bodyRecord? undecoded blockette = some d) : IsForgetful d.1 := by
  unfold bodyRecord? at h
  split at h
  · cases h
    exact (forgets_reference undecoded).map _
  · obtain ⟨kind, -, rfl⟩ := Option.map_eq_some_iff.mp h
    exact (forgets_element kind .inline undecoded).map _

/-! ## Headers and bodies -/

theorem forgets_location : IsForgetful location := by
  intro lines es
  rcases es with _ | ⟨l | ⟨number, text⟩, rest⟩
  · rfl
  · have hRecord : (l.renumbered 0).isRecord 52 3 = l.isRecord 52 3 := rfl
    rw [List.map_cons, Entry.unnumbered, run_location_record, run_location_record, hRecord]
    split
    · rw [Line.blind_value l]
      cases l.value <;> rfl
    · rfl
  · rfl

theorem forgets_header (l : Line) : Forgets id (header l) (header (l.renumbered 0)) :=
  (forgets_lift Line.blind_value l).bind fun _ =>
    forgets_value_bind _ _ Line.blind_value fun _ =>
    forgets_location.bind fun _ =>
    forgets_value_bind _ _ Line.blind_value fun _ =>
    forgets_value_bind _ _ blind_instant fun _ =>
    forgets_value_bind _ _ blind_ending fun _ => forgets_pure _

/-- The loop over a body. -/
theorem stagesFrom_unnumbered [Memory] (undecoded : Bool) (lines : Nat)
    (stages : List (Stage Float)) (es : List Entry) :
    stagesFrom undecoded 0 stages (es.map Entry.unnumbered) =
      (stagesFrom undecoded lines stages es).unnumbered id := by
  -- a record takes any number of lines, so the induction is on how many are left
  induction hLength : es.length using Nat.strongRecOn generalizing es stages with
  | ind length ih =>
    subst hLength
    rcases es with _ | ⟨l | ⟨number, text⟩, rest⟩
    · rw [List.map_nil, stagesFrom_nil, stagesFrom_nil]
      rfl
    · have hBlockette : (l.renumbered 0).blockette = l.blockette := rfl
      rw [List.map_cons, Entry.unnumbered]
      by_cases h50 : l.blockette = 50
      · rw [stagesFrom_station _ _ _ h50, stagesFrom_station _ _ _ (hBlockette ▸ h50)]
        rfl
      · cases hd : bodyRecord? undecoded l.blockette with
        | none =>
          rw [stagesFrom_pass _ _ _ h50 hd, stagesFrom_pass _ _ _ (hBlockette ▸ h50)
            (hBlockette ▸ hd)]
          exact ih _ (Nat.lt_succ_self _) stages rest rfl
        | some d =>
          rw [stagesFrom_record _ _ _ h50 hd, stagesFrom_record _ _ _ (hBlockette ▸ h50)
            (hBlockette ▸ hd)]
          refine andThen_unnumbered (forgets_bodyRecord hd lines (.record l :: rest)) ?_
          intro update hOk
          exact ih _ (d.2 _ _ _ hOk) (update stages) _ rfl
    · rw [List.map_cons, Entry.unnumbered, stagesFrom_damaged, stagesFrom_damaged]
      rfl

theorem forgets_body [Memory] (undecoded : Bool) (c : Channel Float) :
    IsForgetful (body undecoded c) :=
  Forgets.bind (fun lines es => stagesFrom_unnumbered undecoded lines [] es) fun _ => forgets_pure _

end Decoder

/-! ## Channels -/

/-- An item without the number in its fault. -/
def Item.unnumbered (item : Item) : Item :=
  { item with result := item.result.mapError ReadFault.unnumbered }

variable {select : Channel Float → Bool} {undecoded : Bool}

theorem readChannel_unnumbered [Memory] (lines : Nat) (l : Line) (es : List Entry) :
    readChannel select undecoded 0 (l.renumbered 0) (es.map Entry.unnumbered) =
      ((readChannel select undecoded lines l es).1.map Item.unnumbered,
        (readChannel select undecoded lines l es).2.map Entry.unnumbered) := by
  have hHeader := Decoder.forgets_header l lines es
  rw [readChannel, readChannel, hHeader]
  dsimp only
  obtain ⟨units, fault | c, rest⟩ := (Decoder.header l).run lines es
  · rfl
  · dsimp only [Reply.unnumbered, Except.map, Except.mapError, id]
    by_cases hSelect : select c = true
    · rw [if_pos hSelect, if_pos hSelect, Decoder.forgets_body undecoded c lines rest]
      dsimp only [Reply.unnumbered]
      rw [Except.map_id]
      rfl
    · rw [if_neg hSelect, if_neg hSelect]
      rfl

theorem channelsFrom_unnumbered [Memory] (lines : Nat) (es : List Entry) :
    channelsFrom select undecoded 0 (es.map Entry.unnumbered) =
      (channelsFrom select undecoded lines es).map Item.unnumbered := by
  induction hLength : es.length using Nat.strongRecOn generalizing es with
  | ind length ih =>
    subst hLength
    rcases es with _ | ⟨l | ⟨number, text⟩, rest⟩
    · rw [List.map_nil, channelsFrom, channelsFrom]
      rfl
    · have hSame : (l.renumbered 0).isHeader = l.isHeader := rfl
      rw [List.map_cons, Entry.unnumbered]
      by_cases hHeader : l.isHeader = true
      · rw [channelsFrom_header hHeader, channelsFrom_header (hSame ▸ hHeader),
          readChannel_unnumbered lines, List.map_append]
        dsimp only
        rw [ih _ (Nat.lt_succ_of_le (length_rest_readChannel_le ..)) _ rfl]
        cases (readChannel select undecoded lines l rest).1 <;> rfl
      · rw [channelsFrom, channelsFrom, if_neg (hSame ▸ hHeader), if_neg hHeader]
        exact ih _ (Nat.lt_succ_self _) rest rfl
    · rw [List.map_cons, Entry.unnumbered, channelsFrom, channelsFrom]
      exact ih _ (Nat.lt_succ_self _) rest rfl

/-! ## Texts -/

/-- What is read from a text, without the numbers in faults. -/
def readings [Memory] (select : Channel Float → Bool) (undecoded : Bool) (text : String) :
    List Item :=
  (channels select undecoded text).map Item.unnumbered

theorem leadingFault_unnumbered {s t : String}
    (h : (entries s).map Entry.unnumbered = (entries t).map Entry.unnumbered) :
    (leadingFault s).map Item.unnumbered = (leadingFault t).map Item.unnumbered := by
  unfold leadingFault
  generalize entries s = ofS at h ⊢
  generalize entries t = ofT at h ⊢
  rcases ofS with _ | ⟨l | ⟨m, line⟩, es⟩ <;>
    rcases ofT with _ | ⟨l' | ⟨n, line'⟩, es'⟩
  · rfl
  · rfl
  · cases h
  · rfl
  · rfl
  · cases (List.cons.inj h).1
  · cases h
  · cases (List.cons.inj h).1
  · cases (List.cons.inj h).1
    rfl

theorem readings_eq [Memory] {s t : String} (h : recordTexts s = recordTexts t) :
    readings select undecoded s = readings select undecoded t := by
  have hEntries : (entries s).map Entry.unnumbered = (entries t).map Entry.unnumbered := by
    rw [unnumbered_entries, unnumbered_entries, h]
  rw [readings, readings, channels_eq_leadingFault_append, channels_eq_leadingFault_append,
    List.map_append, List.map_append, leadingFault_unnumbered hEntries, ← channelsFrom_unnumbered,
    ← channelsFrom_unnumbered, hEntries]

/-- **Only record lines matter.**  Two texts with the same record lines have the same items, whatever
channels are selected and whether units are decoded or not: the same channels with the same notes
on units, and the same faults but for the numbers of lines in them.  So blank lines and comments may
stand between any two lines. -/
theorem channels_eq_of_recordTexts [Memory] (select : Channel Float → Bool) (undecoded : Bool) :
    (∀ s t, recordTexts s = recordTexts t →
      readings select undecoded s = readings select undecoded t) ∧
    ∀ before noise after, recordTexts noise = [] →
      readings select undecoded (before ++ "\n" ++ noise ++ "\n" ++ after) =
        readings select undecoded (before ++ "\n" ++ after) := by
  constructor
  · intro s t h
    exact readings_eq h
  · intro before noise after h
    exact readings_eq (recordTexts_insert h before after)

/-- A filter whose second coefficient is no number. -/
def badTap : String :=
  textOf ["B050F03 Station: A", "B050F16 Network: B", "B052F04 Channel: C",
    "B052F22 Start: 2020,001", "B052F23 End: No Ending Time",
    "B061F03 Stage: 1", "B061F05 Symmetry: A", "B061F06 Input: V", "B061F07 Output: V",
    "B061F08 Taps: 2", "B061F09 0.5", "B061F09 half"]

/-- The same lines, with blank lines and comments within the header and between the rows. -/
def commentedBadTap : String :=
  textOf ["# A", "B050F03 Station: A", "", "B050F16 Network: B", "B052F04 Channel: C",
    "  B052F22 Start: 2020,001", "B052F23 End: No Ending Time",
    "B061F03 Stage: 1", "B061F05 Symmetry: A ", "B061F06 Input: V", "B061F07 Output: V",
    "B061F08 Taps: 2", "\t", "B061F09 0.5", "# B061F09 0.5", "B061F09 half"]

/-- The number of the line that the fault of an item is about. -/
def Item.faultLine? (item : Item) : Option Nat :=
  match item.result with
  | .error (.line number ..) => some number
  | _ => none

theorem channels_eq_of_recordTexts_badTap :
    (channels (fun _ => true) false badTap).map Item.faultLine? = [some 12] ∧
      (channels (fun _ => true) false commentedBadTap).map Item.faultLine? = [some 16] ∧
      readings (fun _ => true) false badTap = readings (fun _ => true) false commentedBadTap ∧
      readings (fun _ => true) false (badTap ++ "\n" ++ " # B050F03\n\t" ++ "\n" ++ badTap) =
        readings (fun _ => true) false (badTap ++ "\n" ++ badTap) := by
  have hTexts : recordTexts badTap = recordTexts commentedBadTap := by
    rw [badTap, commentedBadTap, recordTexts_textOf (by decide +kernel),
      recordTexts_textOf (by decide +kernel)]
    decide +kernel
  have hNoise : recordTexts " # B050F03\n\t" = [] := by decide +kernel
  have hNumbers : (channels (fun _ => true) false badTap).map Item.faultLine? = [some 12] ∧
      (channels (fun _ => true) false commentedBadTap).map Item.faultLine? = [some 16] := by
    rw [channels_eq_leadingFault_append, channels_eq_leadingFault_append, leadingFault,
      leadingFault, badTap, commentedBadTap, entries_textOf (by decide +kernel),
      entries_textOf (by decide +kernel), lineCount_textOf (by decide +kernel),
      lineCount_textOf (by decide +kernel)]
    decide +kernel
  obtain ⟨hSame, hInsert⟩ := channels_eq_of_recordTexts (fun _ => true) false
  exact ⟨hNumbers.1, hNumbers.2, hSame _ _ hTexts, hInsert _ _ _ hNoise⟩

end InstrumentResponse.Record
