import InstrumentResponse.Proofs.Record.Body
import InstrumentResponse.Proofs.Record.Locality
import InstrumentResponse.Proofs.Record.Sections

/-!
# Channels do not touch each other

Reading a text gives one item for each header, whatever the channels before and after it hold and
however they fail.

* `local_reference`, `local_header`, `alike_stagesFrom`: the parts of a channel are read alike in
  its own text and before the header of another channel.
* `channelsFrom_headless`: what a channel leaves up to the next header is passed over.
* `channels_eq_of_channelTexts`: the items of a text are those of the texts of its channels.
-/

namespace InstrumentResponse.Record

namespace Decoder

variable {β γ δ : Type} {R : β → γ → Prop}

/-! ## References -/

/-- What is seen of the next line in the two texts. -/
inductive SamePeek : Option Line → Option Line → Prop
  | line (l : Line) (n : Nat) : SamePeek (some l) (some (l.renumbered n))
  | header {l : Line} : l.isHeader = true → SamePeek (some l) none
  | nothing : SamePeek none none

theorem local_peek : Local SamePeek peek peek := by
  intro lines lines' es es' tail hs hn ht
  cases hs with
  | nil =>
    rcases Stops.cases ht with rfl | ⟨l, rest, rfl, hl⟩
    · exact ⟨.ok .nothing, [], rfl, List.suffix_refl _, .nil⟩
    · exact ⟨.ok (.header hl), [], rfl, List.suffix_refl _, .nil⟩
  | @cons e e' es es' he hs =>
    cases he with
    | record l n =>
      exact ⟨.ok (.line l n), .record l :: es, rfl, List.suffix_refl _, .cons (.record l n) hs⟩
    | damaged m n text => exact ⟨.error rfl, es, rfl, List.suffix_cons _ _, hs⟩

/-- A decoder that reads nothing and misses a line. -/
def Misses (d : Decoder β) : Prop :=
  ∀ lines es, ∃ e, d.run lines es = ⟨[], .error e, es⟩ ∧ e.faultClass = .line

theorem Misses.local {d : Decoder β} {d' : Decoder γ} (h : d.Misses) (h' : d'.Misses) :
    Local R d d' := by
  intro lines lines' es es' tail hs _ _
  obtain ⟨e, he, hclass⟩ := h lines (es ++ tail)
  obtain ⟨e', he', hclass'⟩ := h' lines' es'
  rw [he, he']
  exact ⟨.error (hclass.trans hclass'.symm), es, rfl, List.suffix_refl es, hs⟩

theorem misses_endOfInput (blockette field : Nat) :
    Misses (endOfInput blockette field : Decoder β) := fun _ _ => ⟨_, rfl, rfl⟩

theorem misses_refuse (l : Line) (cause : Cause) : Misses (fail (l.refuse cause) : Decoder β) :=
  fun _ _ => ⟨_, rfl, rfl⟩

theorem blockette_of_isHeader {l : Line} (h : l.isHeader = true) : l.blockette = 50 := by
  simp only [Line.isHeader, Line.isRecord, Bool.and_eq_true, beq_iff_eq] at h
  exact h.1

theorem local_entriesOf [Memory] (undecoded : Bool) (s : Stage Float) (n : Nat) :
    IsLocal (entriesOf undecoded s n) := by
  induction n generalizing s with
  | zero => exact local_pure s
  | succ n ih =>
    refine local_peek.bind ?_
    intro seen seen' h
    cases h with
    | nothing => exact (misses_endOfInput 60 5).local (misses_endOfInput 60 5)
    | @header l hl =>
      have hk : Kind.ofBlockette? .dictionary l.blockette = none := by
        rw [blockette_of_isHeader hl]
        decide
      simp only [hk]
      exact (misses_refuse l _).local (misses_endOfInput 60 5)
    | line l number =>
      have hblockette : (l.renumbered number).blockette = l.blockette := rfl
      cases hk : Kind.ofBlockette? .dictionary l.blockette with
      | some kind =>
        simp only [hblockette, hk]
        exact (local_element kind .dictionary undecoded).bind fun d => ih (absorb s d)
      | none =>
        simp only [hblockette, hk]
        exact local_fail rfl

theorem inner_of_ne {blockette : Nat} (h : blockette ≠ 50) (field : Nat) : Inner blockette field :=
  fun hc => h hc.1

theorem local_referencedStage [Memory] (undecoded : Bool) : IsLocal (referencedStage undecoded) :=
  local_take_lift (inner_of_ne (by decide) 4) Line.blind_sequence.steady fun sequence =>
    (local_count (inner_of_ne (by decide) 5)).bind fun responses =>
      local_entriesOf undecoded (.empty sequence) responses

theorem local_otherStages [Memory] (undecoded : Bool) (stageCount n : Nat) :
    IsLocal (otherStages undecoded stageCount n) := by
  induction n with
  | zero => exact local_pure []
  | succ n ih =>
    refine (local_take (inner_of_ne (by decide) 3)).bind ?_
    rintro l _ ⟨number, rfl⟩
    refine (local_lift (Line.blind_count.steady l number)).bind ?_
    rintro again _ rfl
    by_cases h : again = stageCount
    · simp only [if_pos h]
      exact (local_referencedStage undecoded).bind fun s => ih.bind fun rest => local_pure _
    · simp only [if_neg h]
      exact local_fail rfl

theorem local_reference [Memory] (undecoded : Bool) : IsLocal (reference undecoded) := by
  refine (local_count (inner_of_ne (by decide) 3)).bind fun stageCount => ?_
  unfold stagesOf
  by_cases h : Memory.canHold "referenced stages" stageCount = true
  · rw [if_pos h]
    by_cases h0 : stageCount = 0
    · rw [if_pos h0]
      exact local_pure []
    · rw [if_neg h0]
      exact (local_referencedStage undecoded).bind fun s =>
        (local_otherStages undecoded stageCount _).bind fun rest => local_pure _
  · rw [if_neg h]
    exact local_fail rfl

theorem local_bodyRecord [Memory] {undecoded : Bool} {blockette : Nat}
    {d : { d : Decoder (List (Stage Float) → List (Stage Float)) // d.Advances }}
    (h : bodyRecord? undecoded blockette = some d) : IsLocal d.1 := by
  unfold bodyRecord? at h
  split at h
  · cases h
    exact (local_reference undecoded).map _
  · obtain ⟨kind, -, rfl⟩ := Option.map_eq_some_iff.mp h
    exact (local_element kind .inline undecoded).map _

/-! ## Headers and bodies -/

theorem blind_instant : Line.Blind Line.instant := by
  refine Line.blind_value.bind fun s => ?_
  rcases Instant.read? s with _ | t
  · exact Line.blind_refuse (.notDate s)
  · exact Line.blind_ok t

theorem blind_ending : Line.Blind Line.ending := by
  refine Line.blind_value.bind fun s => ?_
  refine Line.blind_ite (Line.blind_ok none) ?_
  exact blind_instant.bind fun t => Line.blind_ok (some t)

theorem local_location : IsLocal location := by
  intro lines lines' es es' tail hs hn ht
  cases hs with
  | nil =>
    rcases Stops.cases ht with rfl | ⟨l, rest, rfl, hl⟩
    · exact ⟨.ok rfl, [], rfl, List.suffix_refl _, .nil⟩
    · have hr : l.isRecord 52 3 = false := not_isRecord_of_isHeader hl (inner_of_ne (by decide) 3)
      rw [List.nil_append, run_location_record, hr, if_neg Bool.false_ne_true]
      exact ⟨.ok rfl, [], rfl, List.suffix_refl _, .nil⟩
  | @cons e e' es es' he hs =>
    cases he with
    | damaged m n text => exact ⟨.error rfl, es, rfl, List.suffix_cons _ _, hs⟩
    | record l n =>
      have hr : (l.renumbered n).isRecord 52 3 = l.isRecord 52 3 := rfl
      rw [List.cons_append, run_location_record, run_location_record, hr]
      by_cases h : l.isRecord 52 3 = true
      · rw [if_pos h, if_pos h]
        exact ⟨(Line.blind_value.steady l n).map optionalCode, es, rfl, List.suffix_cons _ _, hs⟩
      · rw [if_neg h, if_neg h]
        exact ⟨.ok rfl, .record l :: es, rfl, List.suffix_refl _, .cons (.record l n) hs⟩

theorem local_header (l : Line) (n : Nat) : Local Eq (header l) (header (l.renumbered n)) := by
  refine (local_lift (Line.blind_value.steady l n)).bind ?_
  rintro station _ rfl
  refine local_take_lift (fun h => absurd h.2 (by decide)) Line.blind_value.steady fun network => ?_
  refine local_location.bind fun location => ?_
  refine local_take_lift (inner_of_ne (by decide) 4) Line.blind_value.steady fun channel => ?_
  refine local_take_lift (inner_of_ne (by decide) 22) blind_instant.steady fun start => ?_
  exact local_take_lift (inner_of_ne (by decide) 23) blind_ending.steady fun stop => local_pure _

/-- The loop over a body ends at a header as at the end of the text. -/
theorem alike_stagesFrom [Memory] (undecoded : Bool) (lines lines' : Nat)
    (stages : List (Stage Float)) {es es' tail : List Entry}
    (hs : List.Forall₂ Entry.Same es es') (hn : Headless es) (ht : Stops tail) :
    (stagesFrom undecoded lines stages (es ++ tail)).Alike Eq es tail
      (stagesFrom undecoded lines' stages es') := by
  -- a record takes any number of lines, so the induction is on how many are left
  induction hlen : es.length using Nat.strongRecOn generalizing es es' stages with
  | ind len ih =>
    cases hs with
    | nil =>
      rw [stagesFrom_nil, List.nil_append]
      rcases Stops.cases ht with rfl | ⟨l, rest, rfl, hl⟩
      · rw [stagesFrom_nil]
        exact ⟨.ok rfl, [], rfl, List.suffix_refl _, .nil⟩
      · rw [stagesFrom_station _ _ _ (blockette_of_isHeader hl)]
        exact ⟨.ok rfl, [], rfl, List.suffix_refl _, .nil⟩
    | @cons e e' es es' he hs =>
      have hn' : Headless es := hn.suffix (List.suffix_cons e es)
      cases he with
      | damaged m n text =>
        rw [List.cons_append, stagesFrom_damaged, stagesFrom_damaged]
        exact ⟨.error rfl, es, rfl, List.suffix_cons _ _, hs⟩
      | record l n =>
        have hb : (l.renumbered n).blockette = l.blockette := rfl
        by_cases h50 : l.blockette = 50
        · rw [List.cons_append, stagesFrom_station _ _ _ h50, stagesFrom_station _ _ _ (hb ▸ h50)]
          exact ⟨.ok rfl, .record l :: es, rfl, List.suffix_refl _, .cons (.record l n) hs⟩
        · cases hd : bodyRecord? undecoded l.blockette with
          | none =>
            rw [List.cons_append, stagesFrom_pass _ _ _ h50 hd,
              stagesFrom_pass _ _ _ (hb ▸ h50) (hb ▸ hd)]
            obtain ⟨hresult, left, hrest, hleft, hsame⟩ :=
              ih es.length (by simp at hlen; omega) stages hs hn' rfl
            exact ⟨hresult, left, hrest, hleft.trans (List.suffix_cons _ _), hsame⟩
          | some d =>
            rw [List.cons_append, stagesFrom_record _ _ _ h50 hd,
              stagesFrom_record _ _ _ (hb ▸ h50) (hb ▸ hd), ← List.cons_append]
            refine alike_andThen (local_bodyRecord hd lines lines' _ _ tail
              (.cons (.record l n) hs) hn ht) ?_
            rintro update _ left left' hok hrest rfl hleft hsame
            have hlt := d.2 _ _ _ hok
            rw [hrest, List.length_append, List.length_append] at hlt
            exact ih left.length (by omega) (update stages) hsame (hn.suffix hleft) rfl

theorem local_body [Memory] (undecoded : Bool) (c : Channel Float) : IsLocal (body undecoded c) :=
  IsLocal.bind
    (fun lines lines' _ _ _ hs hn ht => alike_stagesFrom undecoded lines lines' [] hs hn ht)
    fun _ => local_pure _

end Decoder

/-! ## Channels -/

variable {select : Channel Float → Bool} {undecoded : Bool} {lines : Nat}

theorem channelsFrom_headless [Memory] {left : List Entry} (h : Headless left) (tail : List Entry) :
    channelsFrom select undecoded lines (left ++ tail) =
      channelsFrom select undecoded lines tail := by
  induction left with
  | nil => rfl
  | cons e left ih =>
    have he := h e List.mem_cons_self
    have hl : Headless left := h.suffix (List.suffix_cons e left)
    rcases e with l | ⟨n, text⟩
    · rw [List.cons_append, channelsFrom, if_neg (by simpa [Entry.isHeader] using he), ih hl]
    · rw [List.cons_append, channelsFrom, ih hl]

theorem channelsFrom_header [Memory] {l : Line} (h : l.isHeader = true) (rest : List Entry) :
    channelsFrom select undecoded lines (.record l :: rest) =
      (readChannel select undecoded lines l rest).1.toList ++
        channelsFrom select undecoded lines (readChannel select undecoded lines l rest).2 := by
  rw [channelsFrom, if_pos h]

/-- Without a selection a channel is its header and its body. -/
theorem readChannel_all [Memory] (undecoded : Bool) (lines : Nat) (l : Line) (es : List Entry) :
    let r := (Decoder.header l >>= Decoder.body undecoded).run lines es
    ∃ unknown,
      readChannel (fun _ => true) undecoded lines l es = (some ⟨unknown, r.result⟩, r.rest) := by
  rw [Decoder.run_bind]
  unfold readChannel Decoder.andThen
  dsimp only
  generalize (Decoder.header l).run lines es = head
  obtain ⟨unknown, e | c, rest⟩ := head
  · exact ⟨unknown, rfl⟩
  · exact ⟨_, rfl⟩

theorem Headless.of_same {es es' : List Entry} (hs : List.Forall₂ Entry.Same es es')
    (h : Headless es) : Headless es' := by
  induction hs with
  | nil => exact h
  | @cons e e' es es' he hs ih =>
    intro e₀ he₀
    rcases List.mem_cons.mp he₀ with rfl | he₀
    · rw [he.isHeader_eq]
      exact h e List.mem_cons_self
    · exact ih (h.suffix (List.suffix_cons e es)) e₀ he₀

/-- A channel is read alike in its own text and before the header of another one. -/
theorem readChannel_alike [Memory] (undecoded : Bool) (lines lines' : Nat) (l : Line) (n : Nat)
    {es es' tail : List Entry} (hs : List.Forall₂ Entry.Same es es') (hn : Headless es)
    (ht : Stops tail) :
    ∃ item item' left left',
      readChannel (fun _ => true) undecoded lines l (es ++ tail) = (some item, left ++ tail) ∧
      readChannel (fun _ => true) undecoded lines' (l.renumbered n) es' = (some item', left') ∧
      Alike Eq item.result item'.result ∧ Headless left ∧ Headless left' := by
  have hlocal : Decoder.Local Eq (Decoder.header l >>= Decoder.body undecoded)
      (Decoder.header (l.renumbered n) >>= Decoder.body undecoded) :=
    (Decoder.local_header l n).bind fun c _ hc => hc ▸ Decoder.local_body undecoded c
  obtain ⟨hresult, left, hrest, hleft, hsame⟩ := hlocal lines lines' es es' tail hs hn ht
  obtain ⟨unknown, hr⟩ := readChannel_all undecoded lines l (es ++ tail)
  obtain ⟨unknown', hr'⟩ := readChannel_all undecoded lines' (l.renumbered n) es'
  rw [hrest] at hr
  exact ⟨_, _, left, _, hr, hr', hresult, hn.suffix hleft, (hn.suffix hleft).of_same hsame⟩

/-- An item comes from the part of a text that begins with a header, whatever comes after it. -/
def ReadAt [Memory] (undecoded : Bool) (lines : Nat) (item : Item) (part : List Entry) : Prop :=
  ∃ l es tail left, part = .record l :: es ∧ Headless es ∧ Stops tail ∧
    readChannel (fun _ => true) undecoded lines l (es ++ tail) = (some item, left ++ tail)

theorem stops_flatten {parts : List (List Entry)} (h : ∀ part ∈ parts, IsPart Entry.isHeader part) :
    Stops parts.flatten := by
  cases parts with
  | nil => exact fun e he => by cases he
  | cons part parts =>
    obtain ⟨e, es, rfl, he, -⟩ := h part List.mem_cons_self
    rintro _ ⟨rfl⟩
    exact he

/-- One item is read for each part that begins with a header. -/
theorem channelsFrom_parts [Memory] (undecoded : Bool) (lines : Nat) {parts : List (List Entry)}
    (h : ∀ part ∈ parts, IsPart Entry.isHeader part) :
    List.Forall₂ (ReadAt undecoded lines)
      (channelsFrom (fun _ => true) undecoded lines parts.flatten) parts := by
  induction parts with
  | nil =>
    rw [List.flatten_nil, channelsFrom]
    exact .nil
  | cons part parts ih =>
    have hparts : ∀ p ∈ parts, IsPart Entry.isHeader p := fun p hp => h p (List.mem_cons_of_mem _ hp)
    obtain ⟨e, es, rfl, he, hes⟩ := h part List.mem_cons_self
    rcases e with l | ⟨n, text⟩
    · obtain ⟨item, _, left, _, hr, -, -, hleft, -⟩ :=
        readChannel_alike undecoded lines lines l l.number
          (List.forall₂_same.mpr fun e _ => Entry.Same.refl e) hes (stops_flatten hparts)
      rw [List.flatten_cons, List.cons_append, channelsFrom_header he, hr]
      dsimp only
      -- what a channel leaves of its own part holds no header
      rw [channelsFrom_headless hleft]
      exact .cons ⟨l, es, _, left, rfl, hes, stops_flatten hparts, hr⟩ (ih hparts)
    · cases he

/-! ## Texts -/

/-- What comes of the first channel of a text, none if it has none. -/
def firstChannel? [Memory] (undecoded : Bool) (text : String) :
    Option (Except ReadFault (Channel Float)) :=
  (channels (fun _ => true) undecoded text).head?.map (·.result)

/-- The item of a text that begins with a damaged line. -/
def leadingFault (text : String) : List Item :=
  match entries text with
  | .damaged number line :: _ => [⟨[], .error (.line number 0 0 line .malformed)⟩]
  | _ => []

theorem channels_eq_leadingFault_append [Memory] (undecoded : Bool) (text : String) :
    channels select undecoded text =
      leadingFault text ++ channelsFrom select undecoded (lineCount text) (entries text) := by
  unfold channels leadingFault
  rcases entries text with _ | ⟨l | ⟨n, line⟩, rest⟩
  · rfl
  · rfl
  · simp [channelsFrom]

/-- The result of a channel is that of its own text. -/
def ReadsAs [Memory] (undecoded : Bool) (item : Item) (text : String) : Prop :=
  ∃ result, firstChannel? undecoded text = some result ∧ Alike Eq item.result result

/-- A channel is read alike in its own text. -/
theorem readsAs_of_readAt [Memory] {undecoded : Bool} {item : Item} {part : List Entry}
    {text : String} (h : ReadAt undecoded lines item part) (hheader : ∀ e ∈ part.head?, e.isHeader = true)
    (hs : List.Forall₂ Entry.Same part (entries text)) : ReadsAs undecoded item text := by
  obtain ⟨l, es, tail, left, rfl, hes, ht, hr⟩ := h
  obtain ⟨n, es', hs', he'⟩ : ∃ n es', List.Forall₂ Entry.Same es es' ∧
      entries text = .record (l.renumbered n) :: es' := by
    generalize entries text = other at hs
    cases hs with
    | cons hrecord hs =>
      cases hrecord with
      | record _ n => exact ⟨n, _, hs, rfl⟩
  obtain ⟨item₁, item', _, left', hr₁, hr', halike, -, -⟩ :=
    readChannel_alike undecoded lines (lineCount text) l n hs' hes ht
  have hitem : item₁ = item :=
    Option.some.inj (congrArg Prod.fst (hr₁.symm.trans hr))
  have hl : (l.renumbered n).isHeader = true := hheader (.record l) rfl
  refine ⟨item'.result, ?_, hitem ▸ halike⟩
  rw [firstChannel?, channels_eq_leadingFault_append, leadingFault, he']
  dsimp only
  rw [List.nil_append, channelsFrom_header hl, hr']
  rfl

/-- The entries of some parts, numbered through. -/
def entryParts (number : Nat) : List (List (List Char)) → List (List Entry)
  | [] => []
  | part :: parts => entriesFrom number part :: entryParts (number + part.length) parts

theorem flatten_entryParts (number : Nat) (parts : List (List (List Char))) :
    (entryParts number parts).flatten = entriesFrom number parts.flatten := by
  induction parts generalizing number with
  | nil => rfl
  | cons part parts ih =>
    rw [entryParts, List.flatten_cons, List.flatten_cons, entriesFrom_append, ih]

/-- Some entries are those of the text of a part, up to their numbers, and a part themselves. -/
def EntriesOf (es : List Entry) (part : List (List Char)) : Prop :=
  IsPart Entry.isHeader es ∧ List.Forall₂ Entry.Same es (entries (String.ofList part.flatten))

theorem forall₂_entryParts {parts : List (List (List Char))}
    (hraw : ∀ part ∈ parts, Text.rawLines part.flatten = part)
    (h : ∀ part ∈ parts, IsPart opensChannel part) (number : Nat) :
    List.Forall₂ EntriesOf (entryParts number parts) parts := by
  induction parts generalizing number with
  | nil => exact .nil
  | cons part parts ih =>
    obtain ⟨l, es, he, hl, hes⟩ := entriesFrom_part (h part List.mem_cons_self) number
    refine .cons ⟨⟨.record l, es, he, hl, hes⟩, ?_⟩
      (ih (fun p hp => hraw p (List.mem_cons_of_mem _ hp))
        (fun p hp => h p (List.mem_cons_of_mem _ hp)) _)
    rw [entries_eq_entriesFrom, String.toList_ofList, hraw part List.mem_cons_self]
    exact same_entriesFrom number 1 part

theorem isPart_of_forall₂ {entryParts : List (List Entry)} {parts : List (List (List Char))}
    (h : List.Forall₂ EntriesOf entryParts parts) :
    ∀ part ∈ entryParts, IsPart Entry.isHeader part := by
  induction h with
  | nil => exact fun part hp => absurd hp List.not_mem_nil
  | cons hpart h ih =>
    intro part hp
    rcases List.mem_cons.mp hp with rfl | hp
    · exact hpart.1
    · exact ih part hp

/-- Items that come from the parts of the entries of a text are read from those of the text. -/
theorem forall₂_readsAs [Memory] {items : List Item} {entryParts : List (List Entry)}
    {parts : List (List (List Char))} (h : List.Forall₂ EntriesOf entryParts parts)
    (hitems : List.Forall₂ (ReadAt undecoded lines) items entryParts) :
    List.Forall₂ (fun item part => ReadsAs undecoded item (String.ofList part.flatten))
      items parts := by
  induction h generalizing items with
  | nil =>
    cases hitems
    exact .nil
  | cons hpart h ih =>
    cases hitems with
    | cons hitem hitems =>
      obtain ⟨⟨e, es, rfl, he, -⟩, hsame⟩ := hpart
      refine .cons (readsAs_of_readAt hitem ?_ hsame) (ih hitems)
      rintro _ ⟨rfl⟩
      exact he

/-- **Channels do not touch each other.**  A text is what stands before its first header, and the
texts of its channels, each of which begins with a header and holds no other one.  Reading the
whole text gives one item for each header, in order: the channel that is read from the text of that
channel alone, or a fault of the same class.  The only other item is the fault of a text whose
first record line is damaged. -/
theorem channels_eq_of_channelTexts [Memory] (undecoded : Bool) (text : String) :
    (∃ items, channels (fun _ => true) undecoded text = leadingFault text ++ items ∧
      List.Forall₂ (ReadsAs undecoded) items (channelTexts text)) ∧
    preamble text ++ String.join (channelTexts text) = text ∧
    Headless (entries (preamble text)) ∧
    (∀ part ∈ channelTexts text, ∃ l es, entries part = .record l :: es ∧ l.isHeader = true ∧
      Headless es) ∧
    (channelTexts text).length = (entries text).countP Entry.isHeader := by
  refine ⟨⟨_, channels_eq_leadingFault_append undecoded text, ?_⟩, preamble_append_join text,
    headless_preamble text, fun part hp => entries_channelText hp, length_channelTexts text⟩
  have hparts := forall₂_entryParts (rawLines_part (rawLines_cutBefore text))
    (isPart_cutBefore opensChannel _)
    (1 + (cutBefore opensChannel (Text.rawLines text.toList)).1.length)
  rw [entries_eq_entriesFrom, rawLines_cutBefore, entriesFrom_append,
    channelsFrom_headless (headless_entriesFrom (forall_fst_cutBefore opensChannel _) 1),
    ← flatten_entryParts, channelTexts, List.forall₂_map_right_iff]
  exact forall₂_readsAs hparts (channelsFrom_parts undecoded _ (isPart_of_forall₂ hparts))

end InstrumentResponse.Record
