import InstrumentResponse.Evaluation
import InstrumentResponse.Proofs.Record.Consumption
import InstrumentResponse.Proofs.Record.Isolation
import InstrumentResponse.Proofs.Text.Blanks

/-!
# Selecting channels while reading

A channel that is not selected is passed over after its header, and its body is not read.  That
gives the items of a full reading, less those of the channels that are not selected.

* `Decoder.yields_header`, `Selection.accepts_any`: codes stand in one line each, so that the
  selection of every channel accepts each header.
* `headersFrom`: the headers of some lines, each read without its body.
* `readChannel_select`: a channel that is kept is read as without a selection.
* `channelsFrom_select`: the items that are left, by the headers that they belong to.
* `channels_select`: the items of a text.
-/

namespace InstrumentResponse

/-! ## The selection of every channel -/

namespace Pattern

theorem isWild_of_not_mem {c : Char} {cs : List Char} (h : '\n' ∉ c :: cs) : isWild c = true :=
  bne_iff_ne.mpr fun hc => h (hc ▸ List.mem_cons_self)

theorem matchesChars_nil_iff {cs : List Char} : matchesChars [] cs = true ↔ cs = [] := by
  rw [matchesChars, List.isEmpty_iff]

/-- The matcher tries the ends of the text that a star can leave, the longest first. -/
theorem matchesChars_anyRun_iff {ps : List PatternChar} {cs : List Char} (h : '\n' ∉ cs) :
    matchesChars (.anyRun :: ps) cs = true ↔ ∃ rest, rest <:+ cs ∧ matchesChars ps rest = true := by
  induction cs with
  | nil =>
    rw [matchesChars]
    simp only [List.suffix_nil, exists_eq_left]
  | cons c cs ih =>
    have hStep := ih fun hm => h (List.mem_cons_of_mem _ hm)
    rw [matchesChars, isWild_of_not_mem h, Bool.true_and, Bool.or_eq_true, hStep]
    simp only [List.suffix_cons_iff, or_and_right, exists_or, exists_eq_left]

theorem anyAccepts_any {code : String} (h : '\n' ∉ code.toList) :
    anyAccepts [any] code = true := by
  have hAny : any.accepts code = true :=
    (matchesChars_anyRun_iff h).mpr ⟨[], List.nil_suffix, matchesChars_nil_iff.mpr rfl⟩
  rw [anyAccepts, List.any_cons, hAny, Bool.true_or]

end Pattern

/-- Each of the four codes of a channel stands in one line. -/
structure ChannelId.OneLine (c : ChannelId) : Prop where
  network : '\n' ∉ c.network.toList
  station : '\n' ∉ c.station.toList
  location : '\n' ∉ c.location.toList
  channel : '\n' ∉ c.channel.toList

theorem Selection.accepts_any {α : Type} {c : Channel α} (h : c.id.OneLine) :
    any.accepts c = true := by
  have hId : any.acceptsId c.id = true := by
    change (Pattern.anyAccepts [.any] c.id.station && Pattern.anyAccepts [.any] c.id.channel &&
      Pattern.anyAccepts [.any] c.id.network && Pattern.anyAccepts [.any] c.id.location) = true
    rw [Pattern.anyAccepts_any h.station, Pattern.anyAccepts_any h.channel,
      Pattern.anyAccepts_any h.network, Pattern.anyAccepts_any h.location]
    rfl
  have hEpoch : any.acceptsEpoch c.start c.stop = true := rfl
  rw [accepts, hId, hEpoch, Bool.and_self]

namespace Record

/-! ## Codes of one line -/

/-- What follows the prefix of a line stands in one line. -/
def Line.OneLine (l : Line) : Prop := '\n' ∉ l.rest.toList

theorem Line.oneLine_value {l : Line} (h : l.OneLine) {s : String} (hs : l.value = .ok s) :
    '\n' ∉ s.toList := by
  rw [value] at hs
  split at hs
  · next cs hCut =>
    cases hs
    intro hm
    rw [String.toList_ofList] at hm
    have hSuffix : cs <:+ l.rest.toList := Text.cutAt_suffix (congrArg Prod.snd hCut)
    exact h (hSuffix.subset (Text.mem_of_mem_trimChars hm))
  · cases hs

theorem oneLine_optionalCode {s : String} (h : '\n' ∉ s.toList) :
    '\n' ∉ (optionalCode s).toList := by
  rw [optionalCode]
  split
  · exact List.not_mem_nil
  · exact h

theorem oneLine_of_read {number : Nat} {cs : List Char} (h : '\n' ∉ cs) {l : Line}
    (hl : Entry.read number (String.ofList cs) = .record l) : l.OneLine := by
  rw [Entry.read, String.toList_ofList] at hl
  split at hl
  · cases hl
    intro hm
    rw [String.toList_ofList] at hm
    exact h ((List.dropWhile_suffix _).subset hm)
  · cases hl

/-- Each record line of a text is one line. -/
theorem oneLine_of_mem_entries {text : String} {l : Line} (h : .record l ∈ entries text) :
    l.OneLine := by
  obtain ⟨⟨line, number⟩, hMem, hRead⟩ := List.mem_filterMap.mp h
  have hLine : '\n' ∉ line := Text.not_mem_of_mem_linesOf (List.fst_mem_of_mem_zipIdx hMem)
  have hTrimmed : '\n' ∉ Text.trimChars line := fun hm => hLine (Text.mem_of_mem_trimChars hm)
  change Entry.ofLine? line number = some (.record l) at hRead
  rw [Entry.ofLine?] at hRead
  split at hRead
  · cases hRead
  · cases hRead
  · next cs _ _ =>
    exact oneLine_of_read hTrimmed (Option.some.inj hRead)

namespace Decoder

variable {β γ : Type} {P : Line → Prop}

/-- Where it succeeds on lines that satisfy `P`, the answer of a decoder satisfies `Q`. -/
def Yields (P : Line → Prop) (d : Decoder β) (Q : β → Prop) : Prop :=
  ∀ lines es, (∀ l, .record l ∈ es → P l) → ∀ b, (d.run lines es).result = .ok b → Q b

theorem yields_lift {x : Except ReadFault β} {Q : β → Prop} (h : ∀ b, x = .ok b → Q b) :
    Yields P (lift x) Q := fun _ _ _ b hb => h b hb

theorem yields_any (d : Decoder β) : Yields P d fun _ => True := fun _ _ _ _ _ => trivial

theorem yields_pure {b : β} {Q : β → Prop} (h : Q b) : Yields P (pure b) Q :=
  yields_lift fun _ hc => by cases hc; exact h

theorem Yields.bind {d : Decoder β} {f : β → Decoder γ} {Q : β → Prop} {Q' : γ → Prop}
    (h : Yields P d Q) (k : ∀ b, Q b → Yields P (f b) Q') : Yields P (d >>= f) Q' := by
  intro lines es hes c hc
  rw [run_bind] at hc
  obtain ⟨b, hb, hc, -⟩ := andThen_eq_ok hc
  refine k b (h lines es hes b hb) lines _ (fun l hl => hes l ?_) c hc
  exact (d.suffix lines es).subset hl

theorem yields_take (blockette field : Nat) : Yields P (take blockette field) P := by
  intro lines es hes l hl
  obtain ⟨labels, hSplit, -, -⟩ := takeFrom_eq_ok hl
  refine hes l ?_
  rw [hSplit]
  exact List.mem_append_right _ List.mem_cons_self

/-- A line is consumed, and its value read. -/
theorem yields_value (blockette field : Nat) {f : String → Decoder γ} {Q : γ → Prop}
    (k : ∀ s, '\n' ∉ s.toList → Yields Line.OneLine (f s) Q) :
    Yields Line.OneLine (take blockette field >>= fun l => lift l.value >>= f) Q :=
  (yields_take blockette field).bind fun _ hl =>
    (yields_lift fun _ hs => Line.oneLine_value hl hs).bind k

theorem yields_location : Yields Line.OneLine location fun s => '\n' ∉ s.toList := by
  intro lines es hes s hs
  rcases es with _ | ⟨l | ⟨number, text⟩, rest⟩
  · cases hs
    exact List.not_mem_nil
  · rw [run_location_record] at hs
    split at hs
    · obtain ⟨value, hValue, rfl⟩ := except_map_eq_ok hs
      exact oneLine_optionalCode (Line.oneLine_value (hes l List.mem_cons_self) hValue)
    · cases hs
      exact List.not_mem_nil
  · cases hs

/-- The codes of a header stand in one line each. -/
theorem yields_header {l : Line} (h : l.OneLine) :
    Yields Line.OneLine (header l) fun c => c.id.OneLine := by
  refine (yields_lift fun _ hs => Line.oneLine_value h hs).bind fun station hStation => ?_
  refine yields_value 50 16 fun network hNetwork => ?_
  refine yields_location.bind fun location hLocation => ?_
  refine yields_value 52 4 fun channel hChannel => ?_
  refine (yields_any _).bind fun _ _ => (yields_any _).bind fun start _ => ?_
  refine (yields_any _).bind fun _ _ => (yields_any _).bind fun stop _ => ?_
  exact yields_pure ⟨oneLine_optionalCode hNetwork, hStation, hLocation, hChannel⟩

end Decoder

/-! ## Headers -/

/-- The headers of some lines, each read without its body. -/
def headersFrom (lines : Nat) : List Entry → List (Except ReadFault (Channel Float))
  | [] => []
  | .damaged _ _ :: rest => headersFrom lines rest
  | .record l :: rest =>
    if l.isHeader then ((Decoder.header l).run lines rest).result :: headersFrom lines rest
    else headersFrom lines rest

/-- The headers of a text. -/
def headers (text : String) : List (Except ReadFault (Channel Float)) :=
  headersFrom (lineCount text) (entries text)

/-- Is a channel with this header kept?  Only one whose header could be read can be passed over. -/
def keeps (select : Channel Float → Bool) : Except ReadFault (Channel Float) → Bool
  | .ok c => select c
  | .error _ => true

/-- Some items without those whose header says that they are not selected. -/
def keptItems (select : Channel Float → Bool) (heads : List (Except ReadFault (Channel Float)))
    (items : List Item) : List Item :=
  ((heads.zip items).filter fun pair => keeps select pair.1).map (·.2)

/-- An item is read under a header: a fault of the header is its fault, and a channel has the codes
and the epoch of the header. -/
structure ReadUnder (head : Except ReadFault (Channel Float)) (item : Item) : Prop where
  result_eq : ∀ fault, head = .error fault → item.result = .error fault
  channel_eq : ∀ c, item.result = .ok c →
    ∃ h, head = .ok h ∧ c.id = h.id ∧ c.start = h.start ∧ c.stop = h.stop

variable {undecoded : Bool} {lines : Nat}

theorem headersFrom_headless {left : List Entry} (h : Headless left) (tail : List Entry) :
    headersFrom lines (left ++ tail) = headersFrom lines tail := by
  induction left with
  | nil => rfl
  | cons e left ih =>
    have he := h e List.mem_cons_self
    have hl : Headless left := h.suffix (List.suffix_cons e left)
    rcases e with l | ⟨n, text⟩
    · rw [List.cons_append, headersFrom, if_neg (by simpa [Entry.isHeader] using he), ih hl]
    · rw [List.cons_append, headersFrom, ih hl]

theorem headersFrom_header {l : Line} (h : l.isHeader = true) (rest : List Entry) :
    headersFrom lines (.record l :: rest) =
      ((Decoder.header l).run lines rest).result :: headersFrom lines rest := by
  rw [headersFrom, if_pos h]

theorem forall_headersFrom {Q : Channel Float → Prop} {es : List Entry}
    (hes : ∀ l, .record l ∈ es → l.OneLine)
    (h : ∀ l, l.OneLine → Decoder.Yields Line.OneLine (Decoder.header l) Q) :
    ∀ head ∈ headersFrom lines es, ∀ c, head = .ok c → Q c := by
  induction es with
  | nil => exact nofun
  | cons e es ih =>
    have hRest : ∀ l, .record l ∈ es → l.OneLine := fun l hl => hes l (List.mem_cons_of_mem e hl)
    rcases e with l | ⟨number, text⟩
    · rw [headersFrom]
      split
      · refine List.forall_mem_cons.mpr ⟨fun c hc => ?_, ih hRest⟩
        exact h l (hes l List.mem_cons_self) lines es hRest c hc
      · exact ih hRest
    · exact ih hRest

/-- Each header of a text is selected by the selection of every channel, if it could be read. -/
theorem keeps_any_headers (text : String) :
    ∀ head ∈ headers text, keeps Selection.any.accepts head = true := by
  intro head hHead
  rcases head with fault | c
  · rfl
  · refine Selection.accepts_any ?_
    exact forall_headersFrom (fun l hl => oneLine_of_mem_entries hl)
      (fun _ hl => Decoder.yields_header hl) _ hHead c rfl

/-! ## Reading with a selection -/

/-- A channel that is kept is read as without a selection, and one that is not gives no item. -/
theorem readChannel_select [Memory] (select : Channel Float → Bool) (l : Line) (es : List Entry) :
    readChannel select undecoded lines l es =
      if keeps select ((Decoder.header l).run lines es).result then
        readChannel (fun _ => true) undecoded lines l es
      else (none, ((Decoder.header l).run lines es).rest) := by
  rw [readChannel, readChannel]
  rcases (Decoder.header l).run lines es with ⟨unknown, fault | c, rest⟩
  · rfl
  · rfl

/-- A channel is read under its header. -/
theorem readUnder_header [Memory] (l : Line) (es : List Entry) (unknown : List String) :
    ReadUnder ((Decoder.header l).run lines es).result
      ⟨unknown, ((Decoder.header l >>= Decoder.body undecoded).run lines es).result⟩ := by
  refine ⟨fun fault hFault => ?_, fun c hc => ?_⟩
  · rw [Decoder.run_bind, Decoder.andThen, hFault]
  · rw [Decoder.run_bind] at hc
    obtain ⟨h, hHead, hBody, -⟩ := Decoder.andThen_eq_ok hc
    obtain ⟨stages, -, hOk, -⟩ := Decoder.andThen_eq_ok hBody
    cases hOk
    exact ⟨h, hHead, rfl, rfl, rfl⟩

/-- What a header leaves of the lines up to the next header holds no header. -/
theorem rest_header (lines : Nat) (l : Line) {es tail : List Entry} (hn : Headless es)
    (ht : Stops tail) :
    ∃ left, ((Decoder.header l).run lines (es ++ tail)).rest = left ++ tail ∧ Headless left := by
  have hSame : List.Forall₂ Entry.Same es es := List.forall₂_same.mpr fun e _ => .refl e
  obtain ⟨-, left, hRest, hLeft, -⟩ :=
    Decoder.local_header l l.number lines lines es es tail hSame hn ht
  exact ⟨left, hRest, hn.suffix hLeft⟩

theorem keptItems_cons (select : Channel Float → Bool) (head : Except ReadFault (Channel Float))
    (heads : List (Except ReadFault (Channel Float))) (item : Item) (items : List Item) :
    keptItems select (head :: heads) (item :: items) =
      if keeps select head then item :: keptItems select heads items
      else keptItems select heads items := by
  rw [keptItems, List.zip_cons_cons, List.filter_cons]
  split
  · rfl
  · rfl

/-- Everything is kept where each header is. -/
theorem keptItems_eq_self {select : Channel Float → Bool}
    {heads : List (Except ReadFault (Channel Float))} {items : List Item}
    (hLength : heads.length = items.length) (h : ∀ head ∈ heads, keeps select head = true) :
    keptItems select heads items = items := by
  rw [keptItems, List.filter_eq_self.mpr, List.map_snd_zip (Nat.le_of_eq hLength.symm)]
  intro pair hPair
  exact h pair.1 (List.of_mem_zip hPair).1

/-- Each part that begins with a header gives one item, which is left out if the header says so. -/
theorem channelsFrom_select [Memory] (undecoded : Bool) (lines : Nat) {parts : List (List Entry)}
    (h : ∀ part ∈ parts, IsPart Entry.isHeader part) :
    List.Forall₂ ReadUnder (headersFrom lines parts.flatten)
        (channelsFrom (fun _ => true) undecoded lines parts.flatten) ∧
      ∀ select, channelsFrom select undecoded lines parts.flatten =
        keptItems select (headersFrom lines parts.flatten)
          (channelsFrom (fun _ => true) undecoded lines parts.flatten) := by
  induction parts with
  | nil =>
    rw [List.flatten_nil, channelsFrom]
    exact ⟨.nil, fun select => by rw [channelsFrom]; rfl⟩
  | cons part parts ih =>
    have hParts : ∀ p ∈ parts, IsPart Entry.isHeader p := fun p hp =>
      h p (List.mem_cons_of_mem _ hp)
    obtain ⟨hUnder, hKept⟩ := ih hParts
    obtain ⟨e, es, rfl, he, hes⟩ := h part List.mem_cons_self
    rcases e with l | ⟨n, text⟩
    · have hStops := stops_flatten hParts
      obtain ⟨unknown, hRead⟩ := readChannel_all undecoded lines l (es ++ parts.flatten)
      obtain ⟨item, _, left, _, hr, -, -, hLeft, -⟩ :=
        readChannel_alike undecoded lines lines l l.number
          (List.forall₂_same.mpr fun e _ => Entry.Same.refl e) hes hStops
      -- read in full, or passed over after the header: what is left of this part holds no header
      have hFull :
          channelsFrom (fun _ => true) undecoded lines (.record l :: (es ++ parts.flatten)) =
            item :: channelsFrom (fun _ => true) undecoded lines parts.flatten := by
        rw [channelsFrom_header he, hr]
        dsimp only
        rw [channelsFrom_headless hLeft]
        rfl
      obtain ⟨passed, hPassed, hHeadless⟩ := rest_header lines l hes hStops
      rw [List.flatten_cons, List.cons_append, headersFrom_header he, headersFrom_headless hes,
        hFull]
      refine ⟨.cons ?_ hUnder, fun select => ?_⟩
      · have hItem : item = ⟨unknown, _⟩ :=
          Option.some.inj (congrArg Prod.fst (hr.symm.trans hRead))
        rw [hItem]
        exact readUnder_header l _ unknown
      · rw [keptItems_cons, channelsFrom_header he, readChannel_select]
        split
        · rw [hr]
          dsimp only
          rw [channelsFrom_headless hLeft, hKept select]
          rfl
        · dsimp only
          rw [hPassed, channelsFrom_headless hHeadless, hKept select]
          rfl
    · cases he

/-- The items of a text, by their headers. -/
theorem channels_eq_keptItems [Memory] (undecoded : Bool) (text : String) :
    ∃ items, channels (fun _ => true) undecoded text = leadingFault text ++ items ∧
      List.Forall₂ ReadUnder (headers text) items ∧
      ∀ select, channels select undecoded text =
        leadingFault text ++ keptItems select (headers text) items := by
  have hSplit := cutBefore_append Entry.isHeader (entries text)
  have hBefore : Headless (cutBefore Entry.isHeader (entries text)).1 :=
    forall_fst_cutBefore Entry.isHeader (entries text)
  have hParts := isPart_cutBefore Entry.isHeader (entries text)
  generalize cutBefore Entry.isHeader (entries text) = cut at hSplit hBefore hParts
  obtain ⟨hUnder, hKept⟩ :=
    channelsFrom_select undecoded (lineCount text) hParts
  refine ⟨_, channels_eq_leadingFault_append undecoded text, ?_, fun select => ?_⟩
  · rw [headers, ← hSplit, headersFrom_headless hBefore, channelsFrom_headless hBefore]
    exact hUnder
  · rw [channels_eq_leadingFault_append, headers, ← hSplit, headersFrom_headless hBefore,
      channelsFrom_headless hBefore, channelsFrom_headless hBefore, hKept select]

/-- The selection of every channel leaves nothing out. -/
theorem channels_any [Memory] (undecoded : Bool) (text : String) :
    channels Selection.any.accepts undecoded text = channels (fun _ => true) undecoded text := by
  obtain ⟨items, hAll, hUnder, hKept⟩ := channels_eq_keptItems undecoded text
  rw [hKept, hAll, keptItems_eq_self hUnder.length_eq (keeps_any_headers text)]

end Record

open Record

theorem result_withFailure (item : Item) (report : Report Float (Response Float)) :
    (withFailure item report).result = report.result := by
  rw [withFailure]
  split
  · rfl
  · rfl

/-- The response of the first channel of a text is the first one of all channels. -/
theorem evaluate_eq_head?_evaluateAll [Record.Memory] (options : Options Float)
    (requested : List Float) (text : String) :
    (evaluate options requested text).result =
      ((evaluateAll .any options requested text).head?.map (·.result)).getD
        (.error .noChannel) := by
  rw [evaluate, evaluateAll, channels_any]
  rcases channels (fun _ => true) options.undecoded text with _ | ⟨item, items⟩
  · rfl
  · exact (result_withFailure item (evaluateItem options requested item)).symm

/-- **Selecting while reading gives the selected items of a full reading**, unchanged and in order.
There is one item for each header, besides the fault of a text that begins with a damaged line; only
those are left out whose header could be read and has codes or an epoch that are not selected.  The
selection of every channel leaves nothing out, so that the response to a text is the first of all
its responses. -/
theorem channels_select [Record.Memory] (selection : Selection) (undecoded : Bool) (text : String) :
    (∃ items, channels (fun _ => true) undecoded text = leadingFault text ++ items ∧
      List.Forall₂ ReadUnder (headers text) items ∧
      channels selection.accepts undecoded text =
        leadingFault text ++ keptItems selection.accepts (headers text) items) ∧
    channels Selection.any.accepts undecoded text = channels (fun _ => true) undecoded text ∧
    ∀ options requested, (evaluate options requested text).result =
      ((evaluateAll .any options requested text).head?.map (·.result)).getD
        (.error .noChannel) := by
  obtain ⟨items, hAll, hUnder, hKept⟩ := channels_eq_keptItems undecoded text
  refine ⟨⟨items, hAll, hUnder, hKept selection.accepts⟩, channels_any undecoded text, ?_⟩
  intro options requested
  exact evaluate_eq_head?_evaluateAll options requested text

end InstrumentResponse
