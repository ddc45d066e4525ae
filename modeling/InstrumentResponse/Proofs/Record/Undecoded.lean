import Mathlib.Data.List.Forall2
import InstrumentResponse.Proofs.Chain.UndecodedUnits
import InstrumentResponse.Proofs.Record.Isolation

/-!
# Leaving units undecoded

Units may be left undecoded while a text is read.  A reading that decodes them goes side by side
with one that does not: both take the same lines, fail with the same faults, and end up with the
same channels apart from their units.

* `Decoder.Parallel`: two decoders go side by side; `Decoder.Parallel.bind`: what is made of steps
  that do so does so too.
* `Stage.Strips`: a stage read in this way, beside the same stage with its units decoded.
* `Decoder.parallel_element`, `Decoder.parallel_body`: the readings of an element and of a body.
* `channels_undecoded`: those of a text.
-/

namespace InstrumentResponse

/-! ## Without units -/

section Units

variable {α : Type}

/-- A stage without its units. -/
def Stage.withoutUnits (s : Stage α) : Stage α :=
  { s with input := .undefined, output := .undefined, inputName := "" }

/-- A channel without its units, and without what is told from them. -/
def Channel.withoutUnits [Scalar α] (c : Channel α) : Channel α :=
  { c with stages := c.stages.map Stage.withoutUnits, unitScale := 1 }

/-- A stage of which no unit was looked at is the same as another one apart from the units. -/
structure Stage.Strips (s t : Stage α) : Prop where
  sequence_eq : s.sequence = t.sequence
  elements_eq : s.elements = t.elements
  undecoded : s.Undecoded

/-- A channel of which no unit was looked at is the same as another one apart from the units. -/
structure Channel.Strips [Scalar α] (c d : Channel α) : Prop where
  withoutUnits_eq : c.withoutUnits = d.withoutUnits
  undecoded : c.Undecoded

theorem Stage.strips_empty (sequence : Nat) : (empty sequence : Stage α).Strips (empty sequence) :=
  ⟨rfl, rfl, .bare rfl rfl⟩

theorem Stage.Strips.withoutUnits_eq {s t : Stage α} (h : s.Strips t) :
    s.withoutUnits = t.withoutUnits := by
  rw [Stage.withoutUnits, Stage.withoutUnits, h.sequence_eq, h.elements_eq]

theorem Stage.hasUnits_of_undecoded {s : Stage α} (h : s.input = .undecoded) :
    s.hasUnits = true := by
  rw [hasUnits, h]
  rfl

theorem Stage.filter?_append {s : Stage α} {es : List (Element α)} (h : s.filter? = none)
    (hes : es.findSome? Element.filter? = none) :
    ({ s with elements := s.elements ++ es } : Stage α).filter? = none := by
  show (s.elements ++ es).findSome? Element.filter? = none
  rw [List.findSome?_append, hes, Option.or_none]
  exact h

end Units

namespace Record

/-- Units that were not looked at. -/
def NotDecoded (u : Units) : Prop := u.input = .undecoded ∧ u.output = .undecoded

/-- The units of an element were not looked at.  Only an element that is no filter may have none. -/
inductive Decoded.Undecoded (d : Decoded) : Prop where
  | undecoded {u : Units} (units_eq : d.units = some u) (h : NotDecoded u)
  | bare (units_eq : d.units = none) (filter?_eq : d.element.filter? = none)

/-- An element whose units were not looked at is the same as another one apart from its units. -/
structure Decoded.Strips (d e : Decoded) : Prop where
  sequence_eq : d.sequence = e.sequence
  element_eq : d.element = e.element
  undecoded : d.Undecoded

/-! ## Two decoders side by side -/

/-- Two outcomes match: both are the same fault, or results that are related. -/
inductive Matches {β γ : Type} (R : β → γ → Prop) : Except ReadFault β → Except ReadFault γ → Prop
  | ok {b : β} {c : γ} (h : R b c) : Matches R (.ok b) (.ok c)
  | error (fault : ReadFault) : Matches R (.error fault) (.error fault)

/-- Two replies match and leave the same lines. -/
structure Reply.Parallel {β γ : Type} (R : β → γ → Prop) (r : Reply β) (t : Reply γ) : Prop where
  result : Matches R r.result t.result
  rest_eq : r.rest = t.rest

namespace Decoder

variable {β γ δ ε : Type} {R : β → γ → Prop} {S : δ → ε → Prop}

/-- Two decoders go side by side: they take the same lines, and their outcomes match. -/
def Parallel (R : β → γ → Prop) (d : Decoder β) (d' : Decoder γ) : Prop :=
  ∀ lines es, (d.run lines es).Parallel R (d'.run lines es)

theorem parallel_pure {b : β} {c : γ} (h : R b c) : Parallel R (pure b) (pure c) :=
  fun _ _ => ⟨.ok h, rfl⟩

theorem parallel_fail (fault : ReadFault) : Parallel R (fail fault) (fail fault) :=
  fun _ _ => ⟨.error fault, rfl⟩

theorem parallel_endOfInput (blockette field : Nat) :
    Parallel R (endOfInput blockette field) (endOfInput blockette field) :=
  fun _ _ => ⟨.error _, rfl⟩

theorem parallel_refl (d : Decoder β) : Parallel Eq d d := by
  intro lines es
  refine ⟨?_, rfl⟩
  cases (d.run lines es).result with
  | ok b => exact .ok rfl
  | error fault => exact .error fault

theorem parallel_andThen {r : Reply β} {r' : Reply γ} {f : β → List Entry → Reply δ}
    {f' : γ → List Entry → Reply ε} (h : r.Parallel R r')
    (k : ∀ b c, r.result = .ok b → R b c → (f b r.rest).Parallel S (f' c r.rest)) :
    (andThen r f).Parallel S (andThen r' f') := by
  obtain ⟨u, result, rest⟩ := r
  obtain ⟨u', result', rest'⟩ := r'
  obtain ⟨hResult, rfl⟩ := h
  cases hResult with
  | error fault => exact ⟨.error fault, rfl⟩
  | ok hb =>
    obtain ⟨hNext, hRest⟩ := k _ _ rfl hb
    exact ⟨hNext, hRest⟩

theorem Parallel.bind {d : Decoder β} {d' : Decoder γ} {f : β → Decoder δ} {f' : γ → Decoder ε}
    (h : Parallel R d d') (k : ∀ b c, R b c → Parallel S (f b) (f' c)) :
    Parallel S (d >>= f) (d' >>= f') :=
  fun lines es => parallel_andThen (h lines es) fun b c _ hb => k b c hb lines _

theorem Parallel.map {d : Decoder β} {d' : Decoder γ} {f : β → δ} {f' : γ → ε}
    (h : Parallel R d d') (k : ∀ b c, R b c → S (f b) (f' c)) :
    Parallel S (f <$> d) (f' <$> d') :=
  h.bind fun b c hb => parallel_pure (k b c hb)

/-- Both decoders begin with the same step. -/
theorem parallel_after (d : Decoder β) {f : β → Decoder δ} {f' : β → Decoder ε}
    (k : ∀ b, Parallel S (f b) (f' b)) : Parallel S (d >>= f) (d >>= f') :=
  (parallel_refl d).bind fun b _ hb => hb ▸ k b

/-- A note makes no difference to what is read after it. -/
theorem parallel_noteUnit (name : String) {d : Decoder δ} {f : Unit → Decoder ε}
    (h : Parallel S d (f ())) : Parallel S d (noteUnit name >>= f) :=
  fun lines es => ⟨(h lines es).result, (h lines es).rest_eq⟩

/-! ## Elements -/

theorem parallel_unit (blockette field : Nat) :
    Parallel (fun p _ => p.1 = .undecoded) (unit true blockette field)
      (unit false blockette field) := by
  refine parallel_after _ fun l => parallel_after _ fun name => ?_
  simp only [if_true, Bool.false_eq_true, if_false]
  by_cases h : Quantity.read name = .undefined
  · simp only [if_pos h]
    exact parallel_noteUnit name (parallel_pure rfl)
  · simp only [if_neg h]
    exact parallel_pure rfl

theorem parallel_units (blockette field : Nat) :
    Parallel (fun u _ => NotDecoded u) (units true blockette field)
      (units false blockette field) :=
  (parallel_unit blockette field).bind fun _ _ hInput =>
    (parallel_unit blockette (field + 1)).bind fun _ _ hOutput => parallel_pure ⟨hInput, hOutput⟩

/-- A filter with units that were not looked at, beside the same filter with other units. -/
theorem strips_filter (sequence : Option Nat) (f : Filter Float) {u v : Units} (h : NotDecoded u) :
    Decoded.Strips ⟨sequence, some u, .filter f⟩ ⟨sequence, some v, .filter f⟩ :=
  ⟨rfl, rfl, .undecoded rfl h⟩

/-- Every element is read side by side, from either form of its blockette. -/
theorem parallel_element [Memory] (kind : Kind) (form : Form) :
    Parallel Decoded.Strips (element kind form true) (element kind form false) := by
  cases kind with
  | poleZero =>
    exact parallel_after _ fun _ => parallel_after _ fun _ => parallel_after _ fun _ =>
      (parallel_units _ _).bind fun _ _ hu =>
      parallel_after _ fun _ => parallel_after _ fun _ => parallel_after _ fun _ =>
      parallel_after _ fun _ => parallel_after _ fun _ => parallel_after _ fun _ =>
      parallel_pure (strips_filter _ _ hu)
  | coefficients =>
    exact parallel_after _ fun _ => parallel_after _ fun _ => parallel_after _ fun _ =>
      (parallel_units _ _).bind fun _ _ hu =>
      parallel_after _ fun _ => parallel_after _ fun _ => parallel_after _ fun _ =>
      parallel_after _ fun _ => parallel_pure (strips_filter _ _ hu)
  | list | generic =>
    exact parallel_after _ fun _ => (parallel_units _ _).bind fun _ _ hu =>
      parallel_after _ fun _ => parallel_after _ fun _ => parallel_pure (strips_filter _ _ hu)
  | decimation =>
    exact parallel_after _ fun _ => parallel_after _ fun _ => parallel_after _ fun _ =>
      parallel_after _ fun _ => parallel_after _ fun _ => parallel_after _ fun _ =>
      parallel_after _ fun _ => parallel_after _ fun _ =>
      parallel_pure ⟨rfl, rfl, .bare rfl rfl⟩
  | gain =>
    exact parallel_after _ fun _ => parallel_after _ fun _ => parallel_after _ fun _ =>
      parallel_after _ fun _ => parallel_after _ fun _ => parallel_pure ⟨rfl, rfl, .bare rfl rfl⟩
  | fir =>
    exact parallel_after _ fun _ => parallel_after _ fun _ => parallel_after _ fun _ =>
      (parallel_units _ _).bind fun _ _ hu =>
      parallel_after _ fun _ => parallel_after _ fun _ => parallel_pure (strips_filter _ _ hu)
  | polynomial =>
    exact parallel_after _ fun _ => parallel_after _ fun _ => parallel_after _ fun _ =>
      (parallel_units _ _).bind fun _ _ hu =>
      parallel_after _ fun _ => parallel_after _ fun _ => parallel_after _ fun _ =>
      parallel_after _ fun _ => parallel_after _ fun _ => parallel_after _ fun _ =>
      parallel_after _ fun _ => parallel_after _ fun _ => parallel_after _ fun _ =>
      parallel_pure (strips_filter _ _ hu)

/-! ## Stages -/

theorem undecoded_absorb {s : Stage Float} {d : Decoded} (hs : s.Undecoded) (hd : d.Undecoded) :
    (absorb s d).Undecoded := by
  cases hs with
  | undecoded hInput hOutput =>
    -- the stage has its units already
    rw [absorb_of_hasUnits (Stage.hasUnits_of_undecoded hInput)]
    exact .undecoded hInput hOutput
  | bare hUnits hFilter =>
    cases hd with
    | undecoded hSome hNot =>
      rw [absorb_of_units hUnits hSome]
      exact .undecoded hNot.1 hNot.2
    | bare hNone hElement =>
      rw [absorb_of_units_none hNone]
      refine .bare hUnits (Stage.filter?_append hFilter ?_)
      rw [List.findSome?_cons, hElement]
      rfl

theorem strips_absorb {s t : Stage Float} {d e : Decoded} (hs : s.Strips t) (hd : d.Strips e) :
    (absorb s d).Strips (absorb t e) where
  sequence_eq := by rw [sequence_absorb, sequence_absorb, hs.sequence_eq]
  elements_eq := by rw [elements_absorb, elements_absorb, hs.elements_eq, hd.element_eq]
  undecoded := undecoded_absorb hs.undecoded hd.undecoded

theorem undecoded_continueStage {s t : Stage Float} (hs : s.Undecoded) (ht : t.Undecoded) :
    (continueStage s t).Undecoded := by
  cases hs with
  | undecoded hInput hOutput =>
    have hSame : continueStage s t = { s with elements := s.elements ++ t.elements } := by
      rw [continueStage, Stage.hasUnits_of_undecoded hInput]
      rfl
    rw [hSame]
    exact .undecoded hInput hOutput
  | bare hUnits hFilter =>
    rw [continueStage, hUnits]
    cases ht with
    | undecoded hInput hOutput =>
      rw [Stage.hasUnits_of_undecoded hInput]
      exact .undecoded hInput hOutput
    | bare hUnits' hFilter' =>
      rw [hUnits']
      exact .bare hUnits (Stage.filter?_append hFilter hFilter')

theorem strips_continueStage {s t s' t' : Stage Float} (hs : s.Strips s') (ht : t.Strips t') :
    (continueStage s t).Strips (continueStage s' t') where
  sequence_eq := by rw [sequence_continueStage, sequence_continueStage, hs.sequence_eq]
  elements_eq := by
    rw [elements_continueStage, elements_continueStage, hs.elements_eq, ht.elements_eq]
  undecoded := undecoded_continueStage hs.undecoded ht.undecoded

theorem same_sequence_strips_iff {s s' t t' : Stage Float} (hs : s.Strips s') (ht : t.Strips t') :
    s.sequence = t.sequence ↔ s'.sequence = t'.sequence := by
  rw [hs.sequence_eq, ht.sequence_eq]

/-- The stages read so far, beside those of the other reading. -/
def StripsAll (stages stages' : List (Stage Float)) : Prop :=
  List.Forall₂ Stage.Strips stages stages'

theorem StripsAll.map_withoutUnits_eq {stages stages' : List (Stage Float)}
    (h : StripsAll stages stages') :
    stages.map Stage.withoutUnits = stages'.map Stage.withoutUnits := by
  rw [← List.forall₂_eq_eq_eq]
  exact List.rel_map (fun _ _ hs => Stage.Strips.withoutUnits_eq hs) h

theorem StripsAll.undecoded {stages stages' : List (Stage Float)} (h : StripsAll stages stages') :
    ∀ s ∈ stages, s.Undecoded :=
  ((List.forall₂_and_left stages stages').mp (h.imp fun _ _ hs => ⟨hs.undecoded, hs⟩)).1

theorem stripsAll_addElement {stages stages' : List (Stage Float)} {d e : Decoded}
    (hStages : StripsAll stages stages') (hd : d.Strips e) :
    StripsAll (addElement stages d) (addElement stages' e) := by
  refine forall₂_addElement same_sequence_strips_iff hStages ?_ ?_ ?_
  · rw [hd.sequence_eq]
    exact Stage.strips_empty _
  · intro s s' hs
    rw [hd.sequence_eq, hs.sequence_eq]
    exact Stage.strips_empty _
  · intro s s' hs
    exact strips_absorb hs hd

theorem stripsAll_addReference {stages stages' referenced referenced' : List (Stage Float)}
    (hStages : StripsAll stages stages') (hReferenced : StripsAll referenced referenced') :
    StripsAll (addReference stages referenced) (addReference stages' referenced') :=
  forall₂_addReference same_sequence_strips_iff hStages strips_continueStage hReferenced

/-! ## References -/

theorem parallel_entriesOf [Memory] {s t : Stage Float} (h : s.Strips t) (n : Nat) :
    Parallel Stage.Strips (entriesOf true s n) (entriesOf false t n) := by
  induction n generalizing s t with
  | zero => exact parallel_pure h
  | succ n ih =>
    refine parallel_after peek fun next => ?_
    cases next with
    | none => exact parallel_endOfInput 60 5
    | some l =>
      cases hKind : Kind.ofBlockette? .dictionary l.blockette with
      | some kind =>
        simp only [hKind]
        exact (parallel_element kind .dictionary).bind fun d e hd => ih (strips_absorb h hd)
      | none =>
        simp only [hKind]
        exact parallel_fail _

theorem parallel_referencedStage [Memory] :
    Parallel Stage.Strips (referencedStage true) (referencedStage false) :=
  parallel_after _ fun _ => parallel_after _ fun sequence => parallel_after _ fun responses =>
    parallel_entriesOf (Stage.strips_empty sequence) responses

theorem parallel_otherStages [Memory] (stageCount n : Nat) :
    Parallel StripsAll (otherStages true stageCount n) (otherStages false stageCount n) := by
  induction n with
  | zero => exact parallel_pure .nil
  | succ n ih =>
    refine parallel_after _ fun l => parallel_after _ fun again => ?_
    by_cases h : again = stageCount
    · simp only [if_pos h]
      exact parallel_referencedStage.bind fun s t hs =>
        ih.bind fun rest rest' hRest => parallel_pure (.cons hs hRest)
    · simp only [if_neg h]
      exact parallel_fail _

theorem parallel_reference [Memory] : Parallel StripsAll (reference true) (reference false) := by
  refine parallel_after _ fun stageCount => ?_
  unfold stagesOf
  by_cases hRoom : Memory.canHold "referenced stages" stageCount = true
  · rw [if_pos hRoom, if_pos hRoom]
    by_cases hNone : stageCount = 0
    · rw [if_pos hNone, if_pos hNone]
      exact parallel_pure .nil
    · rw [if_neg hNone, if_neg hNone]
      exact parallel_referencedStage.bind fun s t hs =>
        (parallel_otherStages stageCount _).bind fun rest rest' hRest =>
          parallel_pure (.cons hs hRest)
  · rw [if_neg hRoom, if_neg hRoom]
    exact parallel_fail _

/-! ## Bodies -/

/-- What a record does to the stages read so far, in both readings. -/
def UpdatesAll (update update' : List (Stage Float) → List (Stage Float)) : Prop :=
  ∀ stages stages', StripsAll stages stages' → StripsAll (update stages) (update' stages')

/-- The same blockettes are part of a chain in both readings. -/
theorem parallel_bodyRecord [Memory] (blockette : Nat) :
    (bodyRecord? true blockette = none ∧ bodyRecord? false blockette = none) ∨
      ∃ d d', bodyRecord? true blockette = some d ∧ bodyRecord? false blockette = some d' ∧
        Parallel UpdatesAll d.1 d'.1 := by
  by_cases h60 : blockette = 60
  · rw [bodyRecord?, bodyRecord?, if_pos h60, if_pos h60]
    refine .inr ⟨_, _, rfl, rfl, parallel_reference.map ?_⟩
    intro referenced referenced' hReferenced stages stages' hStages
    exact stripsAll_addReference hStages hReferenced
  · cases hKind : Kind.ofBlockette? .inline blockette with
    | none => exact .inl ⟨bodyRecord?_none h60 hKind, bodyRecord?_none h60 hKind⟩
    | some kind =>
      refine .inr ⟨_, _, bodyRecord?_kind h60 hKind, bodyRecord?_kind h60 hKind,
        (parallel_element kind .inline).map ?_⟩
      intro d e hd stages stages' hStages
      exact stripsAll_addElement hStages hd

theorem parallel_stagesFrom [Memory] (lines : Nat) {stages stages' : List (Stage Float)}
    (hStages : StripsAll stages stages') (es : List Entry) :
    (stagesFrom true lines stages es).Parallel StripsAll (stagesFrom false lines stages' es) := by
  -- a record takes any number of lines, so the induction is on how many are left
  induction hLength : es.length using Nat.strongRecOn generalizing es stages stages' with
  | ind length ih =>
    subst hLength
    rcases es with _ | ⟨l | ⟨number, text⟩, rest⟩
    · rw [stagesFrom_nil, stagesFrom_nil]
      exact ⟨.ok (List.rel_reverse hStages), rfl⟩
    · by_cases h50 : l.blockette = 50
      · rw [stagesFrom_station _ _ _ h50, stagesFrom_station _ _ _ h50]
        exact ⟨.ok (List.rel_reverse hStages), rfl⟩
      · obtain ⟨hd, hd'⟩ | ⟨d, d', hd, hd', hParallel⟩ := parallel_bodyRecord l.blockette
        · rw [stagesFrom_pass _ _ _ h50 hd, stagesFrom_pass _ _ _ h50 hd']
          exact ih _ (Nat.lt_succ_self _) hStages rest rfl
        · rw [stagesFrom_record _ _ _ h50 hd, stagesFrom_record _ _ _ h50 hd']
          refine parallel_andThen (hParallel lines _) fun update update' hOk hUpdate => ?_
          exact ih _ (d.2 _ _ _ hOk) (hUpdate _ _ hStages) _ rfl
    · rw [stagesFrom_damaged, stagesFrom_damaged]
      exact ⟨.error _, rfl⟩

/-- The bodies of one channel, which a header names. -/
theorem parallel_body [Memory] {c : Channel Float} (hScale : c.unitScale = 1) :
    Parallel Channel.Strips (body true c) (body false c) := by
  refine Parallel.bind (fun lines es => parallel_stagesFrom lines .nil es) ?_
  intro stages stages' hStages
  refine parallel_pure ⟨?_, hStages.undecoded, hScale⟩
  rw [Channel.withoutUnits, Channel.withoutUnits]
  dsimp only
  rw [hStages.map_withoutUnits_eq]

/-- A header says nothing of units. -/
theorem parallel_header (l : Line) :
    Parallel (fun c d => c = d ∧ c.unitScale = 1) (header l) (header l) :=
  parallel_after _ fun _ => parallel_after _ fun _ => parallel_after _ fun _ =>
    parallel_after _ fun _ => parallel_after _ fun _ => parallel_after _ fun _ =>
    parallel_after _ fun _ => parallel_after _ fun _ => parallel_after _ fun _ =>
    parallel_after _ fun _ => parallel_pure ⟨rfl, rfl⟩

end Decoder

/-! ## Texts -/

variable {select : Channel Float → Bool} {lines : Nat}

/-- What is read for a header in both readings, apart from notes. -/
def Item.Strips (i j : Item) : Prop := Matches Channel.Strips i.result j.result

/-- A header is selected in both readings or in none, and both leave the same lines. -/
theorem readChannel_undecoded [Memory] (l : Line) (es : List Entry) :
    List.Forall₂ Item.Strips (readChannel select true lines l es).1.toList
        (readChannel select false lines l es).1.toList ∧
      (readChannel select true lines l es).2 = (readChannel select false lines l es).2 := by
  have hHeader := (Decoder.parallel_header l lines es).result
  rw [readChannel, readChannel]
  dsimp only
  cases hHead : ((Decoder.header l).run lines es).result with
  | error fault => exact ⟨.cons (.error fault) .nil, rfl⟩
  | ok c =>
    rw [hHead] at hHeader
    obtain ⟨-, hScale⟩ : c = c ∧ c.unitScale = 1 := by
      cases hHeader with
      | ok h => exact h
    have hBody := Decoder.parallel_body hScale lines ((Decoder.header l).run lines es).rest
    dsimp only
    by_cases hSelect : select c = true
    · rw [if_pos hSelect, if_pos hSelect]
      exact ⟨.cons hBody.result .nil, hBody.rest_eq⟩
    · rw [if_neg hSelect, if_neg hSelect]
      exact ⟨.nil, rfl⟩

theorem channelsFrom_undecoded [Memory] (es : List Entry) :
    List.Forall₂ Item.Strips (channelsFrom select true lines es)
      (channelsFrom select false lines es) := by
  induction hLength : es.length using Nat.strongRecOn generalizing es with
  | ind length ih =>
    subst hLength
    rcases es with _ | ⟨l | ⟨number, text⟩, rest⟩
    · rw [channelsFrom, channelsFrom]
      exact .nil
    · by_cases hHeader : l.isHeader = true
      · rw [channelsFrom_header hHeader, channelsFrom_header hHeader]
        obtain ⟨hItem, hRest⟩ := readChannel_undecoded l rest
        refine List.rel_append hItem ?_
        rw [← hRest]
        exact ih _ (Nat.lt_succ_of_le (length_rest_readChannel_le ..)) _ rfl
      · rw [channelsFrom, channelsFrom, if_neg hHeader, if_neg hHeader]
        exact ih _ (Nat.lt_succ_self _) rest rfl
    · rw [channelsFrom, channelsFrom]
      exact ih _ (Nat.lt_succ_self _) rest rfl

/-- Both readings of a text have the same items, apart from units and notes. -/
theorem channels_strips [Memory] (select : Channel Float → Bool) (text : String) :
    List.Forall₂ Item.Strips (channels select true text) (channels select false text) := by
  rw [channels_eq_leadingFault_append, channels_eq_leadingFault_append]
  refine List.rel_append ?_ (channelsFrom_undecoded _)
  unfold leadingFault
  rcases entries text with _ | ⟨l | ⟨number, line⟩, rest⟩
  · exact .nil
  · exact .nil
  · exact .cons (.error _) .nil

theorem Item.Strips.result_eq {i j : Item} (h : i.Strips j) :
    i.result.map Channel.withoutUnits = j.result.map Channel.withoutUnits := by
  rcases i with ⟨notes, result⟩
  rcases j with ⟨notes', result'⟩
  cases h with
  | ok hChannel => exact congrArg Except.ok hChannel.withoutUnits_eq
  | error fault => rfl

theorem Item.Strips.undecoded {i j : Item} (h : i.Strips j) {c : Channel Float}
    (hOk : i.result = .ok c) : c.Undecoded := by
  rcases i with ⟨notes, result⟩
  rcases j with ⟨notes', result'⟩
  cases hOk
  cases h with
  | ok hChannel => exact hChannel.undecoded

/-- **Leaving units undecoded takes away the units and nothing else.**  Whether units are decoded or
not, a text has the same items, with the same faults and the same channels apart from their units.
Where they are not, responses are not scaled to meters, no check fails over units, and no evaluation
depends on the ground motion that is wanted. -/
theorem channels_undecoded [Memory] (select : Channel Float → Bool) (text : String) :
    (channels select true text).map (·.result.map Channel.withoutUnits) =
        (channels select false text).map (·.result.map Channel.withoutUnits) ∧
      ∀ item ∈ channels select true text, ∀ c, item.result = .ok c →
        c.unitScale = 1 ∧
          (∀ fault, (Chain.check c).2.result = .error fault → fault.isAboutUnits = false) ∧
          ∀ (options : Options Float) (requested : List Float) (u v : OutputUnit),
            evaluateChannel { options with outputUnit := u } requested c =
              evaluateChannel { options with outputUnit := v } requested c := by
  have hStrips := channels_strips select text
  constructor
  · rw [← List.forall₂_eq_eq_eq]
    exact List.rel_map (fun _ _ hItem => Item.Strips.result_eq hItem) hStrips
  · intro item hItem c hOk
    have hAll : ∀ i ∈ channels select true text, ∀ c, i.result = .ok c → c.Undecoded :=
      ((List.forall₂_and_left _ _).mp
        (hStrips.imp fun _ _ h => ⟨fun _ hOk => h.undecoded hOk, h⟩)).1
    have hUndecoded : c.Undecoded := hAll item hItem c hOk
    refine ⟨hUndecoded.unitScale_eq, Chain.check_undecoded hUndecoded, ?_⟩
    intro options requested u v
    have hSame := evaluateChannel_outputUnit (Chain.takesNoMotion_of_undecoded hUndecoded)
    rw [hSame options requested u, hSame options requested v]

/-- A sensor of velocity, and a filter after it that takes in pressure. -/
def mismatched : String :=
  textOf ["B050F03 Station: A", "B050F16 Network: B", "B052F04 Channel: C",
    "B052F22 Start: 2020,001", "B052F23 End: No Ending Time",
    "B061F03 Stage: 1", "B061F05 Symmetry: A", "B061F06 Input: NM/S", "B061F07 Output: V",
    "B061F08 Taps: 0",
    "B061F03 Stage: 2", "B061F05 Symmetry: A", "B061F06 Input: PA", "B061F07 Output: COUNTS",
    "B061F08 Taps: 0"]

/-- The check of its channel fails only where units are decoded. -/
theorem channels_undecoded_mismatched :
    (channels (fun _ => true) false mismatched).map (fun item => item.result.toOption.map fun c =>
        (faultOf? (Chain.check c).2.result).any Fault.isAboutUnits) = [some true] ∧
      ∃ item ∈ channels (fun _ => true) true mismatched, ∃ c, item.result = .ok c ∧
        c.stages.length = 2 ∧ c.unitScale = 1 ∧
        ∀ fault, (Chain.check c).2.result = .error fault → fault.isAboutUnits = false := by
  have hRead : (channels (fun _ => true) false mismatched).map (fun item =>
        item.result.toOption.map fun c =>
          (faultOf? (Chain.check c).2.result).any Fault.isAboutUnits) = [some true] ∧
      (channels (fun _ => true) true mismatched).map (fun item =>
        item.result.toOption.map (·.stages.length)) = [some 2] := by
    rw [channels_eq_leadingFault_append, channels_eq_leadingFault_append, leadingFault, mismatched,
      entries_textOf (by decide +kernel), lineCount_textOf (by decide +kernel)]
    decide +kernel
  obtain ⟨hFault, hStages⟩ := hRead
  obtain ⟨item, hItem, hSome⟩ := List.mem_map.mp (hStages ▸ List.mem_singleton_self (some 2))
  obtain ⟨c, hResult, hLength⟩ := Option.map_eq_some_iff.mp hSome
  have hOk : item.result = .ok c := by
    cases hItemResult : item.result with
    | error fault =>
      rw [hItemResult] at hResult
      cases hResult
    | ok d =>
      rw [hItemResult] at hResult
      cases hResult
      rfl
  obtain ⟨hScale, hFits, -⟩ := (channels_undecoded (fun _ => true) mismatched).2 item hItem c hOk
  exact ⟨hFault, item, hItem, c, hOk, hLength, hScale, hFits⟩

end Record

end InstrumentResponse
