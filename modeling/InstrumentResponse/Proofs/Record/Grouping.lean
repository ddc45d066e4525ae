import Mathlib.Data.List.Forall2
import Mathlib.Data.List.SplitBy
import InstrumentResponse.Proofs.Record.Accounting
import InstrumentResponse.Proofs.Record.WrittenStages

/-!
# How records are gathered into stages

A body is a row of records: elements, each with the number of its stage, and references, each with
some stages.  A record goes to the last stage as long as the number stays the same.

* `Holds`: the records that the lines of a body hold; `Decoder.result_stagesFrom_iff`: the stages
  of a body are what its records add up to.
* `Gathered`: each stage gathers what stands in a row under its number; `gathered_foldl`: the stages
  of a body do.
* `alternating_foldl`: two stages in a row have different numbers as long as those of each reference
  have.
* `stages_gather_records`: both of them for the channels of a text.
-/

namespace InstrumentResponse.Record

/-! ## Records of a body -/

/-- What a record of a body holds. -/
inductive Content where
  /-- An element and the number of its stage. -/
  | element (sequence : Nat) (d : Decoded)
  /-- The stages of a reference. -/
  | reference (stages : List (Stage Float))

/-- The stages read so far, the last one first, after one more record. -/
def Content.add (stages : List (Stage Float)) : Content → List (Stage Float)
  | element _ d => Decoder.addElement stages d
  | reference referenced => Decoder.addReference stages referenced

/-- The records that the lines of a body hold, up to a line of blockette 50. -/
inductive Holds [Memory] (undecoded : Bool) (lines : Nat) : List Entry → List Content → Prop
  | nil : Holds undecoded lines [] []
  | station {l : Line} {rest : List Entry} (h50 : l.blockette = 50) :
      Holds undecoded lines (.record l :: rest) []
  | pass {l : Line} {rest : List Entry} {contents : List Content} (h50 : l.blockette ≠ 50)
      (h60 : l.blockette ≠ 60) (hKind : Kind.ofBlockette? .inline l.blockette = none)
      (hRest : Holds undecoded lines rest contents) :
      Holds undecoded lines (.record l :: rest) contents
  | element {kind : Kind} {l : Line} {rest : List Entry} {sequence : Nat} {d : Decoded}
      {contents : List Content} (h50 : l.blockette ≠ 50) (h60 : l.blockette ≠ 60)
      (hKind : Kind.ofBlockette? .inline l.blockette = some kind)
      (hRun : ((Decoder.element kind .inline undecoded).run lines (.record l :: rest)).result =
        .ok d)
      (hSequence : d.sequence = some sequence)
      (hRest : Holds undecoded lines
        ((Decoder.element kind .inline undecoded).run lines (.record l :: rest)).rest contents) :
      Holds undecoded lines (.record l :: rest) (.element sequence d :: contents)
  | reference {l : Line} {rest : List Entry} {stages : List (Stage Float)}
      {contents : List Content} (h60 : l.blockette = 60)
      (hRun : ((Decoder.reference undecoded).run lines (.record l :: rest)).result = .ok stages)
      (hRest : Holds undecoded lines
        ((Decoder.reference undecoded).run lines (.record l :: rest)).rest contents) :
      Holds undecoded lines (.record l :: rest) (.reference stages :: contents)

namespace Decoder

variable {undecoded : Bool} {lines : Nat}

theorem bodyRecord?_reference [Memory] :
    bodyRecord? undecoded 60 =
      some ⟨(fun referenced stages => addReference stages referenced) <$> reference undecoded,
        (advances_reference undecoded).map _⟩ := rfl

section

variable {stages result : List (Stage Float)}

/-- One record of a chain is read, and the loop goes on with what it does to the stages. -/
theorem result_stagesFrom_record [Memory] {β : Type} {l : Line} {rest : List Entry} {d : Decoder β}
    {f : β → List (Stage Float) → List (Stage Float)} {advances : (f <$> d).Advances}
    (h50 : l.blockette ≠ 50) (hd : bodyRecord? undecoded l.blockette = some ⟨f <$> d, advances⟩) :
    (stagesFrom undecoded lines stages (.record l :: rest)).result = .ok result ↔
      ∃ b, (d.run lines (.record l :: rest)).result = .ok b ∧
        (stagesFrom undecoded lines (f b stages) (d.run lines (.record l :: rest)).rest).result =
          .ok result := by
  rw [stagesFrom_record _ _ _ h50 hd]
  constructor
  · intro h
    obtain ⟨update, hUpdate, h, -⟩ := andThen_eq_ok h
    rw [result_run_map] at hUpdate
    rw [rest_run_map] at h
    obtain ⟨b, hRun, rfl⟩ := except_map_eq_ok hUpdate
    exact ⟨b, hRun, h⟩
  · rintro ⟨b, hRun, h⟩
    rw [andThen, result_run_map, hRun, rest_run_map]
    exact h

theorem exists_holds [Memory] {es : List Entry}
    (h : (stagesFrom undecoded lines stages es).result = .ok result) :
    ∃ contents, Holds undecoded lines es contents ∧
      result = (contents.foldl Content.add stages).reverse := by
  -- one record is read at a time, and what it leaves is shorter
  induction hLength : es.length using Nat.strongRecOn generalizing es stages with
  | ind length ih =>
    subst hLength
    rcases es with _ | ⟨l | ⟨n, text⟩, rest⟩
    · rw [stagesFrom_nil] at h
      cases h
      exact ⟨[], .nil, rfl⟩
    · by_cases h50 : l.blockette = 50
      · rw [stagesFrom_station _ _ _ h50] at h
        cases h
        exact ⟨[], .station h50, rfl⟩
      by_cases h60 : l.blockette = 60
      · obtain ⟨referenced, hRun, h⟩ :=
          (result_stagesFrom_record h50 (h60 ▸ bodyRecord?_reference)).mp h
        have hLess := advances_reference undecoded _ _ _ hRun
        obtain ⟨contents, hHolds, hResult⟩ := ih _ hLess h rfl
        exact ⟨.reference referenced :: contents, .reference h60 hRun hHolds, hResult⟩
      · cases hKind : Kind.ofBlockette? .inline l.blockette with
        | none =>
          rw [stagesFrom_pass _ _ _ h50 (bodyRecord?_none h60 hKind)] at h
          obtain ⟨contents, hHolds, hResult⟩ := ih _ (Nat.lt_succ_self _) h rfl
          exact ⟨contents, .pass h50 h60 hKind hHolds, hResult⟩
        | some kind =>
          obtain ⟨d, hRun, h⟩ := (result_stagesFrom_record h50 (bodyRecord?_kind h60 hKind)).mp h
          have hLess := advances_element kind undecoded _ _ _ hRun
          obtain ⟨-, -, -, -, o, n, -, hSequence, -⟩ := walks_element kind undecoded _ _ _ hRun
          obtain ⟨contents, hHolds, hResult⟩ := ih _ hLess h rfl
          exact ⟨.element n d :: contents, .element h50 h60 hKind hRun hSequence hHolds, hResult⟩
    · rw [stagesFrom_damaged] at h
      cases h

theorem result_stagesFrom_of_holds [Memory] {es : List Entry} {contents : List Content}
    (h : Holds undecoded lines es contents) (stages : List (Stage Float)) :
    (stagesFrom undecoded lines stages es).result =
      .ok (contents.foldl Content.add stages).reverse := by
  induction h generalizing stages with
  | nil => rw [stagesFrom_nil]; rfl
  | station h50 => rw [stagesFrom_station _ _ _ h50]; rfl
  | pass h50 h60 hKind _ ih => rw [stagesFrom_pass _ _ _ h50 (bodyRecord?_none h60 hKind), ih]
  | element h50 h60 hKind hRun _ _ ih =>
    exact (result_stagesFrom_record h50 (bodyRecord?_kind h60 hKind)).mpr ⟨_, hRun, ih _⟩
  | reference h60 hRun _ ih =>
    exact (result_stagesFrom_record (by omega) (h60 ▸ bodyRecord?_reference)).mpr ⟨_, hRun, ih _⟩

/-- The stages of a body are what its records add up to. -/
theorem result_stagesFrom_iff [Memory] {es : List Entry} :
    (stagesFrom undecoded lines stages es).result = .ok result ↔
      ∃ contents, Holds undecoded lines es contents ∧
        result = (contents.foldl Content.add stages).reverse := by
  refine ⟨exists_holds, ?_⟩
  rintro ⟨contents, hHolds, rfl⟩
  exact result_stagesFrom_of_holds hHolds stages

end

end Decoder

/-! ## Contributions -/

/-- What a record gives to one stage: some elements under the number of the stage. -/
structure Contribution where
  sequence : Nat
  elements : List (Element Float)
  /-- Whether it is a stage of a reference, and not the first one of them. -/
  isLater : Bool

/-- A stage of a reference, as what it gives to a stage of the channel. -/
def contribution (isLater : Bool) (s : Stage Float) : Contribution :=
  ⟨s.sequence, s.elements, isLater⟩

/-- What a record gives to the stages, in order. -/
def Content.contributions : Content → List Contribution
  | element sequence d => [⟨sequence, [d.element], false⟩]
  | reference [] => []
  | reference (first :: others) => contribution false first :: others.map (contribution true)

/-- A contribution goes to the same stage as the one before it. -/
def Contribution.continues (before x : Contribution) : Bool :=
  before.sequence == x.sequence && !x.isLater

/-- A stage is made of some contributions, all of them under its number. -/
structure Gathers (s : Stage Float) (group : List Contribution) : Prop where
  sequence_eq : ∀ x ∈ group, x.sequence = s.sequence
  elements_eq : s.elements = group.flatMap (·.elements)

/-- The stages read so far, the last one first, are made of the contributions read so far: each of
those that continue each other. -/
def Gathered (stages : List (Stage Float)) (xs : List Contribution) : Prop :=
  List.Forall₂ Gathers stages (xs.splitBy Contribution.continues).reverse

/-- An item that continues the last run goes into it. -/
theorem splitBy_concat {β : Type} {r : β → β → Bool} {xs run : List β} {runs : List (List β)}
    (h : xs.splitBy r = runs ++ [run]) {x : β} (hx : ∀ last ∈ run.getLast?, r last x = true) :
    (xs ++ [x]).splitBy r = runs ++ [run ++ [x]] := by
  obtain ⟨rfl, hNil, hRuns, hParted⟩ := List.splitBy_eq_iff.mp h
  have hRun : run ≠ [] := fun hEmpty => hNil (by simp [hEmpty])
  obtain ⟨hBefore, -, hLast⟩ := List.isChain_append.mp hParted
  refine List.splitBy_eq_iff.mpr ⟨by simp, by simpa [hRun] using hNil, ?_, ?_⟩
  · refine List.forall_mem_append.mpr ⟨fun m hm => hRuns m (List.mem_append_left _ hm), ?_⟩
    rw [List.forall_mem_singleton, List.isChain_append]
    exact ⟨hRuns run (by simp), .singleton x, by simpa using hx⟩
  · refine List.isChain_append.mpr ⟨hBefore, .singleton _, ?_⟩
    simp only [List.head?_cons, Option.mem_some_iff, forall_eq'] at hLast ⊢
    intro before hBefore
    obtain ⟨hne, _, hr⟩ := hLast before hBefore
    exact ⟨hne, by simp, by rwa [List.head_append_of_ne_nil hRun]⟩

section

variable {stages earlier : List (Stage Float)} {xs : List Contribution} {s t : Stage Float}
  {x : Contribution}

theorem gathered_nil : Gathered [] [] := .nil

/-- The last stage is made of the last run. -/
theorem Gathered.exists_last (h : Gathered (s :: earlier) xs) :
    ∃ groups group, xs.splitBy Contribution.continues = groups ++ [group] ∧ Gathers s group ∧
      List.Forall₂ Gathers earlier groups.reverse := by
  rw [Gathered] at h
  cases hGroups : (xs.splitBy Contribution.continues).reverse with
  | nil =>
    rw [hGroups] at h
    cases h
  | cons group groups =>
    rw [hGroups] at h
    cases h with
    | cons hLast hEarlier =>
      refine ⟨groups.reverse, group, ?_, hLast, by rwa [List.reverse_reverse]⟩
      rw [← List.reverse_cons, ← hGroups, List.reverse_reverse]

theorem Gathered.sequence_last (h : Gathered stages xs) :
    ∀ last ∈ xs.getLast?, ∃ s ∈ stages.head?, last.sequence = s.sequence := by
  cases stages with
  | nil =>
    cases hGroups : xs.splitBy Contribution.continues with
    | nil => simp [List.splitBy_eq_nil.mp hGroups]
    | cons group groups =>
      rw [Gathered, hGroups] at h
      simp at h
  | cons s earlier =>
    obtain ⟨groups, group, hGroups, hLast, -⟩ := h.exists_last
    have hMem : group ∈ xs.splitBy Contribution.continues := by simp [hGroups]
    have hne : group ≠ [] := List.ne_nil_of_mem_splitBy hMem
    have hxs : xs = groups.flatten ++ group := by
      rw [← List.flatten_splitBy Contribution.continues xs, hGroups]
      simp
    rw [hxs, List.getLast?_append_of_ne_nil _ hne]
    exact fun last hMem => ⟨s, rfl, hLast.sequence_eq last (List.mem_of_mem_getLast? hMem)⟩

/-- A contribution opens a stage. -/
theorem Gathered.open (h : Gathered stages xs)
    (hOpens : x.isLater = true ∨ ∀ s ∈ stages.head?, s.sequence ≠ x.sequence)
    (hSequence : x.sequence = t.sequence) (hElements : t.elements = x.elements) :
    Gathered (t :: stages) (xs ++ [x]) := by
  have hParted : ∀ last ∈ xs.getLast?, last.continues x = false := by
    intro last hLast
    obtain ⟨s, hs, hSame⟩ := h.sequence_last last hLast
    rw [Contribution.continues, hSame]
    rcases hOpens with hLater | hOther
    · simp [hLater]
    · simp [hOther s hs]
  rw [Gathered, List.splitBy_append_cons [] hParted, List.reverse_append]
  refine .cons ⟨List.forall_mem_singleton.mpr hSequence, ?_⟩ h
  simp [hElements]

/-- A contribution continues the last stage. -/
theorem Gathered.continue (h : Gathered (s :: earlier) xs) (hFirst : x.isLater = false)
    (hSequence : x.sequence = s.sequence) (hSame : t.sequence = s.sequence)
    (hElements : t.elements = s.elements ++ x.elements) : Gathered (t :: earlier) (xs ++ [x]) := by
  obtain ⟨groups, group, hGroups, hLast, hEarlier⟩ := h.exists_last
  have hContinues : ∀ last ∈ group.getLast?, last.continues x = true := by
    intro last hMem
    have hNumber := hLast.sequence_eq last (List.mem_of_mem_getLast? hMem)
    simp [Contribution.continues, hNumber, hSequence, hFirst]
  rw [Gathered, splitBy_concat hGroups hContinues, List.reverse_append]
  refine .cons ⟨?_, by simp [hElements, hLast.elements_eq]⟩ hEarlier
  rw [hSame]
  exact List.forall_mem_append.mpr ⟨hLast.sequence_eq, List.forall_mem_singleton.mpr hSequence⟩

/-- The later stages of a reference are stages of their own. -/
theorem Gathered.append_later (h : Gathered stages xs) (others : List (Stage Float)) :
    Gathered (others.reverse ++ stages) (xs ++ others.map (contribution true)) := by
  induction others generalizing stages xs with
  | nil => simpa using h
  | cons s others ih =>
    have hOpened : Gathered (s :: stages) (xs ++ [contribution true s]) :=
      h.open (.inl rfl) rfl rfl
    simpa using ih hOpened

namespace Decoder

theorem gathered_addElement (h : Gathered stages xs) {d : Decoded} {n : Nat}
    (hd : d.sequence = some n) :
    Gathered (addElement stages d) (xs ++ (Content.element n d).contributions) := by
  by_cases hOther : ∀ s ∈ stages.head?, s.sequence ≠ n
  · rw [addElement_other hd hOther]
    exact h.open (.inr hOther) (sequence_absorb (.empty n) d).symm (elements_absorb (.empty n) d)
  · rcases stages with _ | ⟨s, earlier⟩
    · exact absurd (by simp) hOther
    · have hSame : n = s.sequence := by simpa [eq_comm] using hOther
      rw [addElement_same (hSame ▸ hd)]
      exact h.continue rfl hSame (sequence_absorb s d) (elements_absorb s d)

theorem gathered_addReference (h : Gathered stages xs) (referenced : List (Stage Float)) :
    Gathered (addReference stages referenced)
      (xs ++ (Content.reference referenced).contributions) := by
  rcases referenced with _ | ⟨first, others⟩
  · rw [addReference_eq (by simp)]
    simpa [Content.contributions] using h
  -- the first stage of the reference is the one that may be joined
  have hFirst : ∃ opened, addReference stages (first :: others) = others.reverse ++ opened ∧
      Gathered opened (xs ++ [contribution false first]) := by
    by_cases hOther : ∀ s ∈ stages.head?, s.sequence ≠ first.sequence
    · refine ⟨first :: stages, ?_, h.open (.inr hOther) rfl rfl⟩
      rw [addReference_eq (by simpa using hOther)]
      simp
    · rcases stages with _ | ⟨s, earlier⟩
      · exact absurd (by simp) hOther
      · have hSame : s.sequence = first.sequence := by simpa using hOther
        refine ⟨continueStage s first :: earlier, if_pos hSame, ?_⟩
        exact h.continue rfl hSame.symm (sequence_continueStage s first)
          (elements_continueStage s first)
  obtain ⟨opened, hAdd, hOpened⟩ := hFirst
  rw [hAdd, Content.contributions, List.append_cons]
  exact hOpened.append_later others

/-- The stages of a body are made of what its records give. -/
theorem gathered_foldl [Memory] {undecoded : Bool} {lines : Nat} {es : List Entry}
    {contents : List Content} (hHolds : Holds undecoded lines es contents)
    (h : Gathered stages xs) :
    Gathered (contents.foldl Content.add stages)
      (xs ++ contents.flatMap Content.contributions) := by
  induction hHolds generalizing stages xs with
  | nil => simpa using h
  | station h50 => simpa using h
  | pass h50 h60 hKind _ ih => exact ih h
  | element h50 h60 hKind hRun hSequence _ ih =>
    rw [List.flatMap_cons, ← List.append_assoc]
    exact ih (gathered_addElement h hSequence)
  | reference h60 hRun _ ih =>
    rw [List.flatMap_cons, ← List.append_assoc]
    exact ih (gathered_addReference h _)

end Decoder

/-! ## Numbers of neighbours -/

namespace Decoder

theorem alternating_iff_isChain_sequence :
    Alternating stages ↔ (stages.map (·.sequence)).IsChain (· ≠ ·) :=
  (List.isChain_map _).symm

theorem alternating_reverse : Alternating stages.reverse ↔ Alternating stages := by
  rw [Alternating, List.isChain_reverse]
  exact ⟨fun h => h.imp fun _ _ hne => hne.symm, fun h => h.imp fun _ _ hne => hne.symm⟩

theorem alternating_addElement (d : Decoded) :
    Alternating (addElement stages d) ↔ Alternating stages := by
  rcases stages with _ | ⟨s, earlier⟩
  · exact ⟨fun _ => .nil, fun _ => .singleton _⟩
  rw [alternating_iff_isChain_sequence, alternating_iff_isChain_sequence, addElement]
  split
  · rw [List.map_cons, List.map_cons, sequence_absorb]
  · next hOther =>
    rw [List.map_cons, List.map_cons, sequence_absorb, List.isChain_cons_cons]
    exact and_iff_right fun h => hOther h.symm

theorem alternating_addReference (referenced : List (Stage Float)) :
    Alternating (addReference stages referenced) ↔ Alternating stages ∧ Alternating referenced := by
  rcases stages with _ | ⟨s, earlier⟩
  · rw [addReference, List.append_nil, alternating_reverse]
    · exact (and_iff_right .nil).symm
    · simp
  rcases referenced with _ | ⟨first, others⟩
  · exact (and_iff_left .nil).symm
  rw [← @alternating_reverse (first :: others), addReference]
  split
  · next hSame =>
    -- the joined stage is both the last one so far and the first one of the reference
    simp only [alternating_iff_isChain_sequence, List.map_append, List.map_reverse, List.map_cons,
      List.map_nil, List.reverse_cons, sequence_continueStage, ← hSame]
    rw [List.isChain_split, and_comm]
  · next hOther =>
    simp only [Alternating, List.reverse_cons, List.append_assoc, List.singleton_append,
      List.isChain_append_cons_cons]
    rw [and_iff_right fun h => hOther h.symm, and_comm]

/-- The numbers of the stages of a body alternate as long as those of each reference do. -/
theorem alternating_foldl (contents : List Content) :
    Alternating (contents.foldl Content.add stages) ↔
      Alternating stages ∧ ∀ referenced, .reference referenced ∈ contents →
        Alternating referenced := by
  induction contents generalizing stages with
  | nil => simp
  | cons content contents ih =>
    rw [List.foldl_cons, ih]
    cases content with
    | element n d =>
      rw [Content.add, alternating_addElement]
      simp
    | reference referenced =>
      rw [Content.add, alternating_addReference]
      simp [and_assoc]

end Decoder

end

/-! ## Texts -/

/-- A channel of a text, and the records between its header and the next line of blockette 50. -/
inductive ReadFrom [Memory] (undecoded : Bool) (text : String) (c : Channel Float)
    (contents : List Content) : Prop
  | intro {l : Line} {es : List Entry} {head : Channel Float}
      (hLines : .record l :: es <:+ entries text) (hHeader : l.isHeader = true)
      (hHead : ((Decoder.header l).run (lineCount text) es).result = .ok head)
      (hBody : Holds undecoded (lineCount text)
        ((Decoder.header l).run (lineCount text) es).rest contents)
      (hChannel : c = { head with
        stages := (contents.foldl Content.add []).reverse, unitScale := c.unitScale })

section

variable {select : Channel Float → Bool} {undecoded : Bool} {lines : Nat} {item : Item}

theorem rest_readChannel_suffix [Memory] (l : Line) (es : List Entry) :
    (readChannel select undecoded lines l es).2 <:+ es := by
  have hHeader := (Decoder.header l).suffix lines es
  rw [readChannel]
  dsimp only
  split
  · exact hHeader
  · split
    · exact ((Decoder.body undecoded _).suffix lines _).trans hHeader
    · exact hHeader

/-- An item is what is read for some header. -/
theorem exists_header_of_mem [Memory] {es : List Entry}
    (h : item ∈ channelsFrom select undecoded lines es) :
    ∃ l rest, .record l :: rest <:+ es ∧ l.isHeader = true ∧
      (readChannel select undecoded lines l rest).1 = some item := by
  induction es using channelsFrom.induct select undecoded lines with
  | case1 =>
    rw [channelsFrom] at h
    cases h
  | case2 number text rest ih =>
    rw [channelsFrom] at h
    obtain ⟨l', rest', hSuffix, hRead⟩ := ih h
    exact ⟨l', rest', hSuffix.trans (List.suffix_cons _ _), hRead⟩
  | case3 l rest hHeader read ih =>
    rw [channelsFrom_header hHeader] at h
    rcases List.mem_append.mp h with hFirst | hRest
    · exact ⟨l, rest, List.suffix_refl _, hHeader, Option.mem_toList.mp hFirst⟩
    · obtain ⟨l', rest', hSuffix, hRead⟩ := ih hRest
      exact ⟨l', rest',
        (hSuffix.trans (rest_readChannel_suffix l rest)).trans (List.suffix_cons _ _), hRead⟩
  | case4 l rest hOther ih =>
    rw [channelsFrom, if_neg hOther] at h
    obtain ⟨l', rest', hSuffix, hRead⟩ := ih h
    exact ⟨l', rest', hSuffix.trans (List.suffix_cons _ _), hRead⟩

/-- The channels of a text come of its records. -/
theorem exists_readFrom [Memory] {text : String} (h : item ∈ channels select undecoded text)
    {c : Channel Float} (hOk : item.result = .ok c) :
    ∃ contents, ReadFrom undecoded text c contents := by
  rw [channels_eq_leadingFault_append] at h
  rcases List.mem_append.mp h with hFault | hItem
  · unfold leadingFault at hFault
    split at hFault
    · cases List.mem_singleton.mp hFault
      cases hOk
    · cases hFault
  · obtain ⟨l, es, hLines, hHeader, hRead⟩ := exists_header_of_mem hItem
    rw [readChannel] at hRead
    dsimp only at hRead
    split at hRead
    · cases hRead
      cases hOk
    · next head hHead =>
      split at hRead
      · cases hRead
        obtain ⟨stages, hStages, hBody, -⟩ := Decoder.andThen_eq_ok hOk
        obtain ⟨contents, hHolds, rfl⟩ := Decoder.result_stagesFrom_iff.mp hStages
        cases hBody
        exact ⟨contents, .intro hLines hHeader hHead hHolds rfl⟩
      · cases hRead

theorem ReadFrom.gathers [Memory] {text : String} {c : Channel Float} {contents : List Content}
    (h : ReadFrom undecoded text c contents) :
    List.Forall₂ Gathers c.stages
      ((contents.flatMap Content.contributions).splitBy Contribution.continues) := by
  obtain ⟨hLines, hHeader, hHead, hBody, hChannel⟩ := h
  rw [hChannel, ← List.reverse_reverse (List.splitBy _ _)]
  exact List.rel_reverse (Decoder.gathered_foldl hBody gathered_nil)

theorem ReadFrom.alternating_iff [Memory] {text : String} {c : Channel Float}
    {contents : List Content} (h : ReadFrom undecoded text c contents) :
    Decoder.Alternating c.stages ↔
      ∀ referenced, .reference referenced ∈ contents → Decoder.Alternating referenced := by
  obtain ⟨hLines, hHeader, hHead, hBody, hChannel⟩ := h
  rw [hChannel]
  dsimp only
  rw [Decoder.alternating_reverse, Decoder.alternating_foldl]
  exact and_iff_right .nil

end

/-- A channel that is read, by what is seen of it. -/
theorem exists_of_map_toOption {β : Type} {items : List Item} {f : Channel Float → β} {b : β}
    (h : items.map (fun item => item.result.toOption.map f) = [some b]) :
    ∃ item ∈ items, ∃ c, item.result = .ok c ∧ f c = b := by
  obtain ⟨item, hItem, hSome⟩ := List.mem_map.mp (h ▸ List.mem_singleton_self (some b))
  obtain ⟨c, hResult, rfl⟩ := Option.map_eq_some_iff.mp hSome
  refine ⟨item, hItem, c, ?_, rfl⟩
  cases hOk : item.result with
  | error fault =>
    rw [hOk] at hResult
    cases hResult
  | ok d =>
    rw [hOk] at hResult
    cases hResult
    rfl

/-- **A new stage starts when the number changes, outside the stages of one reference.**  Each stage
of a channel is made of what some records in a row give under its number, and nothing of a record is
lost or moved.  So neighbours have different numbers unless one reference numbers two of its stages
alike. -/
theorem stages_gather_records [Memory] (select : Channel Float → Bool) (undecoded : Bool)
    (text : String) :
    ∀ item ∈ channels select undecoded text, ∀ c, item.result = .ok c →
      ∃ contents, ReadFrom undecoded text c contents ∧
        List.Forall₂ Gathers c.stages
          ((contents.flatMap Content.contributions).splitBy Contribution.continues) ∧
        (Decoder.Alternating c.stages ↔
          ∀ referenced, .reference referenced ∈ contents → Decoder.Alternating referenced) := by
  intro item hItem c hOk
  obtain ⟨contents, hRead⟩ := exists_readFrom hItem hOk
  exact ⟨contents, hRead, hRead.gathers, hRead.alternating_iff⟩

/-- A sensor, and a reference whose first stage goes on with that of the sensor and whose last one
is gone on with. -/
def splicedChain : String :=
  textOf ["B050F03 Station: A", "B050F16 Network: B", "B052F04 Channel: C",
    "B052F22 Start: 2020,001", "B052F23 End: No Ending Time",
    "B056F03 Stage: 1", "B056F04 Input: M/S", "B056F05 Output: V", "B056F06 Corners: 0",
    "B060F03 Stages: 2", "B060F04 Stage: 1", "B060F05 Responses: 1",
    "B048F05 Gain: 2.0", "B048F06 Frequency: 1.0", "B048F07 Calibrations: 0",
    "B060F03 Stages: 2", "B060F04 Stage: 2", "B060F05 Responses: 1",
    "B046F05 Input: V", "B046F06 Output: V", "B046F07 Corners: 0",
    "B058F03 Stage: 2", "B058F04 Gain: 3.0", "B058F05 Frequency: 1.0", "B058F06 Calibrations: 0"]

theorem stages_gather_records_splicedChain :
    ∃ item ∈ channels (fun _ => true) false splicedChain, ∃ c, item.result = .ok c ∧
      c.stages.map (fun s => (s.sequence, s.elements.length)) = [(1, 2), (2, 2)] ∧
      ∃ contents, ReadFrom false splicedChain c contents ∧
        List.Forall₂ Gathers c.stages
          ((contents.flatMap Content.contributions).splitBy Contribution.continues) ∧
        (Decoder.Alternating c.stages ↔
          ∀ referenced, .reference referenced ∈ contents → Decoder.Alternating referenced) := by
  have hRead : (channels (fun _ => true) false splicedChain).map (fun item =>
      item.result.toOption.map fun c => c.stages.map fun s => (s.sequence, s.elements.length)) =
        [some [(1, 2), (2, 2)]] := by
    rw [channels_eq_leadingFault_append, leadingFault, splicedChain,
      entries_textOf (by decide +kernel), lineCount_textOf (by decide +kernel)]
    decide +kernel
  obtain ⟨item, hItem, c, hOk, hStages⟩ := exists_of_map_toOption hRead
  exact ⟨item, hItem, c, hOk, hStages,
    stages_gather_records (fun _ => true) false splicedChain item hItem c hOk⟩

/-- A reference that gives a filter in two halves, as two stages of one number. -/
def halvedFilter : String :=
  textOf ["B050F03 Station: A", "B050F16 Network: B", "B052F04 Channel: C",
    "B052F22 Start: 2020,001", "B052F23 End: No Ending Time",
    "B060F03 Stages: 2", "B060F04 Stage: 1", "B060F05 Responses: 1", "B041F05 Symmetry: A",
    "B041F06 Input: COUNTS", "B041F07 Output: COUNTS", "B041F08 Taps: 1", "B041F09 0 0.5",
    "B060F03 Stages: 2", "B060F04 Stage: 1", "B060F05 Responses: 1", "B041F05 Symmetry: A",
    "B041F06 Input: COUNTS", "B041F07 Output: COUNTS", "B041F08 Taps: 1", "B041F09 0 0.5"]

/-- Its halves stay two stages. -/
theorem halvedFilter_not_alternating :
    ∃ item ∈ channels (fun _ => true) false halvedFilter, ∃ c, item.result = .ok c ∧
      c.stages.map (·.sequence) = [1, 1] ∧ ¬ Decoder.Alternating c.stages := by
  have hRead : (channels (fun _ => true) false halvedFilter).map (fun item =>
      item.result.toOption.map fun c => c.stages.map (·.sequence)) = [some [1, 1]] := by
    rw [channels_eq_leadingFault_append, leadingFault, halvedFilter,
      entries_textOf (by decide +kernel), lineCount_textOf (by decide +kernel)]
    decide +kernel
  obtain ⟨item, hItem, c, hOk, hStages⟩ := exists_of_map_toOption hRead
  refine ⟨item, hItem, c, hOk, hStages, ?_⟩
  rw [Decoder.alternating_iff_isChain_sequence, hStages]
  decide

end InstrumentResponse.Record
