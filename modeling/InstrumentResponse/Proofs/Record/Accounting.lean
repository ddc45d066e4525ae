import InstrumentResponse.Proofs.Record.Isolation
import InstrumentResponse.Proofs.Record.StageLines

/-!
# What becomes of the lines with the number of a stage

Between its header and the next one a channel holds lines with the number of a stage.  Those that
begin a record are decoded, one element each; those that stand in an unfinished record of the same
blockette, or behind a line of blockette 50, are not.

* `Decoder.opens_of_run`: an element consumes the first line with the number of a stage that is
  left, and passes over no other one that begins a record.
* `Decoder.stagesFrom_eq_ok`: the run of all elements.
* `accounted_of_readAt`: the elements of a channel and the lines that are lost.
-/

namespace InstrumentResponse.Record

/-! ## Phases and openings -/

/-- The blockette whose record is unfinished. -/
def Phase.unfinished (kind : Kind) : Phase → Option Kind
  | .inside _ => some kind
  | _ => none

/-- The line that has opened the record. -/
def Phase.opening? : Phase → Option Line
  | .before => none
  | .inside o | .after o => some o

theorem Line.numbers?_of_field {l : Line} {kind : Kind} (hb : l.blockette = kind.blockette .inline)
    (hf : l.field = kind.sequenceField) : l.numbers? = some kind := by
  simp [Line.numbers?, hb, hf, Kind.ofBlockette?_blockette]

theorem Line.numbers?_eq_none {l : Line} {kind : Kind} (hb : l.blockette = kind.blockette .inline)
    (hf : l.field ≠ kind.sequenceField) : l.numbers? = none := by
  simp [Line.numbers?, hb, Ne.symm hf, Kind.ofBlockette?_blockette]

theorem Line.finishes_iff {l : Line} {kind : Kind} (hb : l.blockette = kind.blockette .inline) :
    l.finishes kind = true ↔ l.field = kind.lastField := by
  simp [Line.finishes, Line.isRecord, hb]

theorem openings_cons_opening {l : Line} {kind : Kind} (h : l.numbers? = some kind)
    {unfinished : Option Kind} (hu : unfinished ≠ some kind) (ls : List Line) :
    openings unfinished (l :: ls) = l :: openings (some kind) ls := by
  simp [openings, stageLines_cons_some h, hu]

theorem openings_cons_swallowed {l : Line} {kind : Kind} (h : l.numbers? = some kind)
    (ls : List Line) : openings (some kind) (l :: ls) = openings (some kind) ls := by
  simp [openings, stageLines_cons_some h]

theorem openings_cons_none {l : Line} (h : l.numbers? = none) (unfinished : Option Kind)
    (ls : List Line) :
    openings unfinished (l :: ls) = openings (unfinished.filter (!l.finishes ·)) ls := by
  rw [openings, stageLines_cons_none h, openings]

namespace Kind

variable {kind : Kind} {p q : Phase} {l : Line}

/-- What a line of a record is, and where it leads. -/
theorem step_cases (h : kind.step p l = some q) :
    l.blockette = kind.blockette .inline ∧
      ((l.field = kind.sequenceField ∧ p = .before ∧ q = .inside l) ∨
        (l.field = kind.sequenceField ∧ ∃ o, p = .inside o ∧ q = .inside o) ∨
        (l.field = kind.lastField ∧ l.field ≠ kind.sequenceField ∧
          ∃ o, p = .inside o ∧ q = .after o) ∨
        (l.field ≠ kind.sequenceField ∧ l.field ≠ kind.lastField ∧ q = p)) := by
  unfold step at h
  by_cases hb : l.blockette = kind.blockette .inline
  · rw [if_neg (not_not_intro hb)] at h
    refine ⟨hb, ?_⟩
    by_cases hs : l.field = kind.sequenceField
    · rw [if_pos hs] at h
      cases p with
      | before => exact .inl ⟨hs, rfl, (Option.some.inj h).symm⟩
      | inside o => exact .inr (.inl ⟨hs, o, rfl, (Option.some.inj h).symm⟩)
      | after o => cases h
    · rw [if_neg hs] at h
      by_cases hf : l.field = kind.lastField
      · rw [if_pos hf] at h
        cases p with
        | before => cases h
        | inside o => exact .inr (.inr (.inl ⟨hf, hs, o, rfl, (Option.some.inj h).symm⟩))
        | after o => cases h
      · rw [if_neg hf] at h
        exact .inr (.inr (.inr ⟨hs, hf, (Option.some.inj h).symm⟩))
  · rw [if_pos hb] at h
    cases h

/-- A line of a record is the opening that the phase remembers, or none. -/
theorem openings_step (h : kind.step p l = some q) (ls : List Line) :
    p.opening?.toList ++ openings (p.unfinished kind) (l :: ls) =
      q.opening?.toList ++ openings (q.unfinished kind) ls := by
  obtain ⟨hb, ⟨hs, rfl, rfl⟩ | ⟨hs, o, rfl, rfl⟩ | ⟨hf, hs, o, rfl, rfl⟩ | ⟨hs, hf, rfl⟩⟩ :=
    step_cases h
  -- the opening itself, another number of a stage, the last line, any other line
  · show [] ++ openings none (l :: ls) = _
    rw [openings_cons_opening (Line.numbers?_of_field hb hs) (by simp)]
    rfl
  · show [o] ++ openings (some kind) (l :: ls) = _
    rw [openings_cons_swallowed (Line.numbers?_of_field hb hs)]
    rfl
  · show [o] ++ openings (some kind) (l :: ls) = [o] ++ openings none ls
    have hfinishes : l.finishes kind = true := (Line.finishes_iff hb).mpr hf
    rw [openings_cons_none (Line.numbers?_eq_none hb hs)]
    simp [Option.filter, hfinishes]
  · have hfinishes : l.finishes kind = false :=
      Bool.eq_false_iff.mpr fun hc => hf ((Line.finishes_iff hb).mp hc)
    rw [openings_cons_none (Line.numbers?_eq_none hb hs)]
    cases q <;> simp [Phase.unfinished, Option.filter, hfinishes]

theorem openings_walk {ls : List Line} (h : Decoder.walk kind.step p ls = some q)
    (rest : List Line) :
    p.opening?.toList ++ openings (p.unfinished kind) (ls ++ rest) =
      q.opening?.toList ++ openings (q.unfinished kind) rest := by
  induction ls generalizing p with
  | nil =>
    cases h
    rfl
  | cons l ls ih =>
    obtain ⟨r, hr, hw⟩ := Option.bind_eq_some_iff.mp h
    rw [List.cons_append, openings_step hr, ih hw]

/-- A record has lines of its own blockette only. -/
theorem blockette_of_walk {ls : List Line} (h : Decoder.walk kind.step p ls = some q) :
    ∀ l ∈ ls, l.blockette = kind.blockette .inline := by
  induction ls generalizing p with
  | nil => exact fun l hl => absurd hl List.not_mem_nil
  | cons l ls ih =>
    obtain ⟨r, hr, hw⟩ := Option.bind_eq_some_iff.mp h
    intro m hm
    rcases List.mem_cons.mp hm with rfl | hm
    · exact (step_cases hr).1
    · exact ih hw m hm

/-- The opening of a record never changes. -/
theorem opening_of_walk {ls : List Line} (h : Decoder.walk kind.step p ls = some q) {o : Line}
    (ho : p.opening? = some o) : q.opening? = some o := by
  induction ls generalizing p with
  | nil =>
    cases h
    exact ho
  | cons l ls ih =>
    obtain ⟨r, hr, hw⟩ := Option.bind_eq_some_iff.mp h
    refine ih hw ?_
    obtain ⟨-, ⟨-, rfl, rfl⟩ | ⟨-, o', rfl, rfl⟩ | ⟨-, -, o', rfl, rfl⟩ | ⟨-, -, rfl⟩⟩ :=
      step_cases hr
    · cases ho
    · exact ho
    · exact ho
    · exact ho

/-- The opening of a record is the first of its lines with the number of a stage. -/
theorem exists_opening {ls : List Line} {o : Line}
    (h : Decoder.walk kind.step .before ls = some (.after o)) :
    ∃ labels rest, ls = labels ++ o :: rest ∧ (∀ m ∈ labels, m.numbers? = none) ∧
      o.numbers? = some kind := by
  induction ls with
  | nil => cases h
  | cons l ls ih =>
    obtain ⟨r, hr, hw⟩ := Option.bind_eq_some_iff.mp h
    obtain ⟨hb, ⟨hs, -, rfl⟩ | ⟨-, _, hc, -⟩ | ⟨-, -, _, hc, -⟩ | ⟨hs, -, rfl⟩⟩ := step_cases hr
    · cases opening_of_walk hw rfl
      exact ⟨[], ls, rfl, fun m hm => absurd hm List.not_mem_nil, Line.numbers?_of_field hb hs⟩
    · cases hc
    · cases hc
    · obtain ⟨labels, rest, rfl, hlabels, ho⟩ := ih hw
      refine ⟨l :: labels, rest, rfl, ?_, ho⟩
      intro m hm
      rcases List.mem_cons.mp hm with rfl | hm
      · exact Line.numbers?_eq_none hb hs
      · exact hlabels m hm

end Kind

/-! ## Elements -/

/-- A line among some entries opens the record that an element is decoded from: before it the
record has no other line with the number of a stage. -/
def Opens [Memory] (undecoded : Bool) (lines : Nat) (part : List Entry) (o : Line) (d : Decoded) :
    Prop :=
  ∃ (kind : Kind) (labels : List Line) (rest es : List Entry) (n : Nat),
    es <:+ part ∧ es = labels.map .record ++ .record o :: rest ∧
    ((Decoder.element kind .inline undecoded).run lines es).result = .ok d ∧
    (∀ m ∈ labels, m.numbers? = none) ∧ o.numbers? = some kind ∧
    o.sequence = .ok n ∧ d.sequence = some n

theorem Opens.mono [Memory] {undecoded : Bool} {lines : Nat} {part part' : List Entry} {o : Line}
    {d : Decoded} (h : Opens undecoded lines part o d) (hsuffix : part <:+ part') :
    Opens undecoded lines part' o d := by
  obtain ⟨kind, labels, rest, es, n, hes, hrun⟩ := h
  exact ⟨kind, labels, rest, es, n, hes.trans hsuffix, hrun⟩

namespace Decoder

variable {undecoded : Bool} {lines : Nat}

/-- An element consumes the first line with the number of a stage that is left, and passes over no
other one that opens a record. -/
theorem opens_of_run [Memory] {kind : Kind} {es : List Entry} {d : Decoded}
    (h : ((element kind .inline undecoded).run lines es).result = .ok d) :
    ∃ ls o, es = ls.map .record ++ ((element kind .inline undecoded).run lines es).rest ∧
      (∀ l ∈ ls, l.blockette = kind.blockette .inline) ∧ Opens undecoded lines es o d ∧
      ∀ rest, openings none (ls ++ rest) = o :: openings none rest := by
  obtain ⟨ls, q, hes, hw, o, n, rfl, hd, hn⟩ := walks_element kind undecoded lines es d h
  obtain ⟨labels, more, rfl, hlabels, ho⟩ := Kind.exists_opening hw
  refine ⟨_, o, hes, Kind.blockette_of_walk hw, ?_, Kind.openings_walk hw⟩
  rw [List.map_append, List.map_cons, List.append_assoc, List.cons_append] at hes
  exact ⟨kind, labels, _, es, n, List.suffix_refl es, hes, h, hlabels, ho, hn, hd⟩

/-- What the loop over a body has read when it ends: one element for each line that opens a record,
up to a line of blockette 50. -/
theorem stagesFrom_eq_ok [Memory] {stages result : List (Stage Float)} {es : List Entry}
    (h60 : ∀ l, .record l ∈ es → l.blockette ≠ 60)
    (h : (stagesFrom undecoded lines stages es).result = .ok result) :
    ∃ (ls : List Line) (rest : List Entry) (ds : List Decoded), es = ls.map .record ++ rest ∧
      (∀ l ∈ ls, l.blockette ≠ 50) ∧
      (∀ e ∈ rest.head?, ∃ l, e = .record l ∧ l.blockette = 50) ∧
      List.Forall₂ (Opens undecoded lines es) (openings none ls) ds ∧
      result = (ds.foldl addElement stages).reverse := by
  -- one element is read at a time, and what it leaves is shorter
  induction hlen : es.length using Nat.strongRecOn generalizing es stages with
  | ind len ih =>
    rcases es with _ | ⟨l | ⟨n, text⟩, es⟩
    · rw [stagesFrom_nil] at h
      cases h
      exact ⟨[], [], [], rfl, by simp, by simp, .nil, rfl⟩
    · have h60' : ∀ m, .record m ∈ es → m.blockette ≠ 60 :=
        fun m hm => h60 m (List.mem_cons_of_mem _ hm)
      have hl60 : l.blockette ≠ 60 := h60 l List.mem_cons_self
      by_cases h50 : l.blockette = 50
      · rw [stagesFrom_station _ _ _ h50] at h
        cases h
        exact ⟨[], .record l :: es, [], rfl, by simp, by simp [h50], .nil, rfl⟩
      · cases hk : Kind.ofBlockette? .inline l.blockette with
        | none =>
          rw [stagesFrom_pass _ _ _ h50 (bodyRecord?_none hl60 hk)] at h
          obtain ⟨ls, rest, ds, rfl, hls, hrest, hds, hresult⟩ :=
            ih es.length (by simp at hlen; omega) h60' h rfl
          have hnumbers : l.numbers? = none := by rw [Line.numbers?, hk, Option.filter_none]
          refine ⟨l :: ls, rest, ds, rfl, ?_, hrest, ?_, hresult⟩
          · exact List.forall_mem_cons.mpr ⟨h50, hls⟩
          · rw [openings_cons_none hnumbers, Option.filter_none]
            exact hds.imp fun _ _ ho => ho.mono (List.suffix_cons _ _)
        | some kind =>
          rw [stagesFrom_record _ _ _ h50 (bodyRecord?_kind hl60 hk)] at h
          obtain ⟨update, hupdate, h, -⟩ := andThen_eq_ok h
          rw [result_run_map] at hupdate
          rw [rest_run_map] at h
          obtain ⟨d, hd, rfl⟩ := except_map_eq_ok hupdate
          have hlt := advances_element kind undecoded _ _ _ hd
          obtain ⟨us, o, hes, hus, ho, hopenings⟩ := opens_of_run hd
          generalize ((element kind .inline undecoded).run lines (.record l :: es)).rest = left
            at h hlt hes
          obtain ⟨ls, rest, ds, rfl, hls, hrest, hds, hresult⟩ :=
            ih left.length (by omega) (fun m hm => h60 m (hes ▸ List.mem_append_right _ hm)) h rfl
          refine ⟨us ++ ls, rest, d :: ds, ?_, ?_, hrest, ?_, hresult⟩
          · rw [hes, List.map_append, List.append_assoc]
          · rw [List.forall_mem_append]
            refine ⟨fun m hm => ?_, hls⟩
            rw [hus m hm]
            cases kind <;> decide
          · rw [hopenings]
            exact .cons ho (hds.imp fun _ _ ho => ho.mono (hes ▸ List.suffix_append _ _))
    · rw [stagesFrom_damaged] at h
      cases h

end Decoder

/-! ## Headers -/

/-- The lines of a header end with the end of the epoch. -/
def headerStep (done : Bool) (l : Line) : Option Bool :=
  if done then none
  else if l.isRecord 52 23 then some true
  else if l.blockette = 50 ∨ l.blockette = 52 then some false
  else none

namespace Decoder

theorem headerStep_label {l : Line} {blockette field : Nat} (hb : blockette = 50 ∨ blockette = 52)
    (hf : field ≤ 23) (h : isLabelBefore l blockette field = true) :
    headerStep false l = some false := by
  obtain ⟨hl, hlt, -, -⟩ := label_iff.mp h
  have hne : l.isRecord 52 23 = false := Bool.eq_false_iff.mpr fun hc => by
    have := (isRecord_iff.mp hc).2
    omega
  simp [headerStep, hne, hl, hb]

theorem headerStep_record {l : Line} {blockette field : Nat} (hb : blockette = 50 ∨ blockette = 52)
    (hf : field < 23) (h : l.isRecord blockette field = true) :
    headerStep false l = some false := by
  obtain ⟨hl, hlf⟩ := isRecord_iff.mp h
  have hne : l.isRecord 52 23 = false := Bool.eq_false_iff.mpr fun hc => by
    have := (isRecord_iff.mp hc).2
    omega
  simp [headerStep, hne, hl, hb]

theorem walks_headerLine {blockette field : Nat} (hb : blockette = 50 ∨ blockette = 52)
    (hf : field < 23) : Walks headerStep false (take blockette field) fun _ q => q = false :=
  walks_take (fun _ hl => headerStep_label hb (Nat.le_of_lt hf) hl)
    fun _ hl => ⟨false, headerStep_record hb hf hl, rfl⟩

theorem walks_lastHeaderLine : Walks headerStep false (take 52 23) fun _ q => q = true :=
  walks_take (fun _ hl => headerStep_label (.inr rfl) (Nat.le_refl _) hl)
    fun l hl => ⟨true, by simp [headerStep, hl], rfl⟩

theorem walks_location : Walks headerStep false location fun _ q => q = false := by
  intro lines es s h
  rcases es with _ | ⟨l | ⟨n, text⟩, es⟩
  · exact ⟨[], false, rfl, rfl, rfl⟩
  · rw [run_location_record] at h ⊢
    by_cases hl : l.isRecord 52 3 = true
    · rw [if_pos hl]
      refine ⟨[l], false, rfl, ?_, rfl⟩
      rw [walk_cons, headerStep_record (.inr rfl) (by decide) hl]
      rfl
    · rw [if_neg hl]
      exact ⟨[], false, rfl, rfl, rfl⟩
  · cases h

theorem walks_header (l : Line) : Walks headerStep false (header l) fun _ q => q = true := by
  refine Walks.then (walks_lift fun _ _ => rfl) fun station => ?_
  refine Walks.then_lift (walks_headerLine (.inl rfl) (by decide)) Line.value fun network => ?_
  refine walks_location.then fun location => ?_
  refine Walks.then_lift (walks_headerLine (.inr rfl) (by decide)) Line.value fun channel => ?_
  refine Walks.then_lift (walks_headerLine (.inr rfl) (by decide)) Line.instant fun start => ?_
  exact Walks.then_lift walks_lastHeaderLine Line.ending fun stop => walks_pure rfl

end Decoder

/-- The record lines among some entries. -/
def recordLines (es : List Entry) : List Line :=
  es.filterMap fun
    | .record l => some l
    | .damaged .. => none

/-- The lines of a channel after its header, which ends with the end of the epoch. -/
def bodyLines (part : List Entry) : List Line :=
  ((recordLines part).dropWhile (!·.isRecord 52 23)).tail

/-- The lines of a body that are looked at. -/
def chainLines (part : List Entry) : List Line :=
  (bodyLines part).takeWhile (·.blockette != 50)

/-- The lines with the number of a stage that no element is decoded from: those that stand in an
unfinished record of the same blockette, and those behind a line of blockette 50. -/
def lostLines (part : List Entry) : List Line :=
  swallowed none (chainLines part) ++
    ((bodyLines part).dropWhile (·.blockette != 50)).filter (·.numbers?.isSome)

theorem recordLines_append (a b : List Entry) :
    recordLines (a ++ b) = recordLines a ++ recordLines b := List.filterMap_append

theorem recordLines_map_record (ls : List Line) : recordLines (ls.map .record) = ls := by
  rw [recordLines, List.filterMap_map]
  exact List.filterMap_some

theorem mem_recordLines {l : Line} {es : List Entry} (h : .record l ∈ es) : l ∈ recordLines es :=
  List.mem_filterMap.mpr ⟨.record l, h, rfl⟩

/-- After a header its body is left. -/
theorem tail_dropWhile_of_walk {ls : List Line} (h : Decoder.walk headerStep false ls = some true)
    (rest : List Line) : ((ls ++ rest).dropWhile (!·.isRecord 52 23)).tail = rest := by
  induction ls with
  | nil => cases h
  | cons l ls ih =>
    obtain ⟨done, hl, hw⟩ := Option.bind_eq_some_iff.mp h
    by_cases hr : l.isRecord 52 23 = true
    · cases ls with
      | nil => simp [hr]
      | cons m ls =>
        have hdone : done = true := by simpa [headerStep, hr] using hl.symm
        rw [hdone] at hw
        cases hw
    · have hdone : done = false := by
        rw [headerStep, if_neg Bool.false_ne_true, if_neg hr] at hl
        split at hl
        · exact (Option.some.inj hl).symm
        · cases hl
      rw [List.cons_append, List.dropWhile_cons_of_pos (by simp [hr])]
      exact ih (hdone ▸ hw)

/-- What has been looked at, and the line of blockette 50 behind it. -/
theorem span_chainLines {ls : List Line} {rest : List Entry} (hls : ∀ l ∈ ls, l.blockette ≠ 50)
    (hrest : ∀ e ∈ rest.head?, ∃ l, e = .record l ∧ l.blockette = 50) :
    (ls ++ recordLines rest).takeWhile (·.blockette != 50) = ls ∧
      (ls ++ recordLines rest).dropWhile (·.blockette != 50) = recordLines rest := by
  have hpos : ∀ l ∈ ls, (l.blockette != 50) = true := fun l hl => by simp [hls l hl]
  rw [List.takeWhile_append_of_pos hpos, List.dropWhile_append_of_pos hpos]
  cases rest with
  | nil => simp [recordLines]
  | cons e rest =>
    obtain ⟨l, rfl, hl⟩ := hrest e rfl
    simp [recordLines, hl]

/-! ## Elements of stages -/

/-- A stage grows by one element, or another one begins with it. -/
theorem elements_addElement (stages : List (Stage Float)) (d : Decoded) :
    (Decoder.addElement stages d).reverse.flatMap (·.elements) =
      stages.reverse.flatMap (·.elements) ++ [d.element] := by
  cases stages with
  | nil => simp [Decoder.addElement, elements_absorb, Stage.empty]
  | cons last earlier =>
    rw [Decoder.addElement]
    split
    · simp [elements_absorb]
    · simp [elements_absorb, Stage.empty]

theorem elements_foldl_addElement (ds : List Decoded) (stages : List (Stage Float)) :
    (ds.foldl Decoder.addElement stages).reverse.flatMap (·.elements) =
      stages.reverse.flatMap (·.elements) ++ ds.map (·.element) := by
  induction ds generalizing stages with
  | nil => simp
  | cons d ds ih =>
    rw [List.foldl_cons, ih, elements_addElement, List.append_assoc, List.map_cons]
    rfl

/-! ## Channels -/

/-- The elements of a channel and the lines with the number of a stage: those that open a record are
decoded, one element each, and the others are lost. -/
structure Accounted [Memory] (undecoded : Bool) (lines : Nat) (part : List Entry)
    (c : Channel Float) : Prop where
  decoded : ∃ ds, List.Forall₂ (Opens undecoded lines part) (openings none (chainLines part)) ds ∧
    c.stages = (ds.foldl Decoder.addElement []).reverse ∧ c.elements = ds.map (·.element)
  total : c.elements.length + (lostLines part).length =
    (bodyLines part).countP (·.numbers?.isSome)

/-- Nothing is lost if and only if there are as many elements as lines with the number of a stage. -/
theorem Accounted.lostLines_eq_nil_iff [Memory] {undecoded : Bool} {lines : Nat} {part : List Entry}
    {c : Channel Float} (h : Accounted undecoded lines part c) :
    lostLines part = [] ↔ c.elements.length = (bodyLines part).countP (·.numbers?.isSome) := by
  rw [← h.total, ← List.length_eq_zero_iff]
  omega

theorem accounted_of_run [Memory] {undecoded : Bool} {lines : Nat} {l : Line} {es : List Entry}
    {c : Channel Float} (hl : l.isHeader = true) (h60 : ∀ m, .record m ∈ es → m.blockette ≠ 60)
    (h : ((Decoder.header l >>= Decoder.body undecoded).run lines es).result = .ok c) :
    Accounted undecoded lines (.record l :: es) c := by
  obtain ⟨c₀, hc₀, h, -⟩ := Decoder.andThen_eq_ok h
  obtain ⟨hs, done, hes, hw, rfl⟩ := Decoder.walks_header l lines es c₀ hc₀
  generalize ((Decoder.header l).run lines es).rest = rest at h hes
  obtain ⟨stages, hstages, hc, -⟩ := Decoder.andThen_eq_ok h
  obtain ⟨ls, left, ds, rfl, hls, hleft, hds, rfl⟩ := Decoder.stagesFrom_eq_ok
    (fun m hm => h60 m (hes ▸ List.mem_append_right _ hm)) hstages
  have hbody : bodyLines (.record l :: es) = ls ++ recordLines left := by
    have hheader : l.isRecord 52 23 = false :=
      Decoder.not_isRecord_of_isHeader hl (Decoder.inner_of_ne (by decide) 23)
    rw [bodyLines, hes, ← List.cons_append, recordLines_append, recordLines_append,
      recordLines_map_record]
    show ((l :: recordLines (hs.map .record) ++ (ls ++ recordLines left)).dropWhile _).tail = _
    rw [recordLines_map_record, List.cons_append, List.dropWhile_cons_of_pos (by simp [hheader])]
    exact tail_dropWhile_of_walk hw _
  have hspan := span_chainLines hls hleft
  have hchain : chainLines (.record l :: es) = ls := by rw [chainLines, hbody, hspan.1]
  have hlost : lostLines (.record l :: es) =
      swallowed none ls ++ (recordLines left).filter (·.numbers?.isSome) := by
    rw [lostLines, hchain, hbody, hspan.2]
  have hstages : c.stages = (ds.foldl Decoder.addElement []).reverse := by
    cases hc
    rfl
  have helements : c.elements = ds.map (·.element) := by
    rw [Channel.elements, hstages, elements_foldl_addElement]
    rfl
  have hopens : List.Forall₂ (Opens undecoded lines (.record l :: es)) (openings none ls) ds :=
    hds.imp fun _ _ ho => ho.mono (hes ▸ (List.suffix_append _ _).trans (List.suffix_cons _ _))
  refine ⟨⟨ds, hchain ▸ hopens, hstages, helements⟩, ?_⟩
  rw [helements, List.length_map, ← hds.length_eq, hlost, hbody, List.countP_append,
    ← length_openings_add_swallowed none ls, List.length_append, List.countP_eq_length_filter,
    Nat.add_assoc]

/-- What was read of a part accounts for its lines. -/
theorem accounted_of_readAt [Memory] {undecoded : Bool} {lines : Nat} {item : Item}
    {part : List Entry} {c : Channel Float} (h : ReadAt undecoded lines item part)
    (hheader : ∀ e ∈ part.head?, e.isHeader = true)
    (h60 : ∀ m, .record m ∈ part → m.blockette ≠ 60) (hc : item.result = .ok c) :
    Accounted undecoded lines part c := by
  obtain ⟨l, es, tail, left, rfl, hes, ht, hr⟩ := h
  obtain ⟨item₁, item', _, left', hr₁, hr', halike, -, -⟩ := readChannel_alike undecoded lines
    lines l l.number (List.forall₂_same.mpr fun e _ => Entry.Same.refl e) hes ht
  have hitem : item₁ = item := Option.some.inj (congrArg Prod.fst (hr₁.symm.trans hr))
  obtain ⟨unknown, hall⟩ := readChannel_all undecoded lines l es
  have hresult :
      item'.result = ((Decoder.header l >>= Decoder.body undecoded).run lines es).result :=
    congrArg Item.result (Option.some.inj (congrArg Prod.fst (hr'.symm.trans hall)))
  rw [hitem, hc, hresult] at halike
  refine accounted_of_run (hheader (.record l) rfl)
    (fun m hm => h60 m (List.mem_cons_of_mem _ hm)) ?_
  cases hrun : ((Decoder.header l >>= Decoder.body undecoded).run lines es).result with
  | error fault =>
    rw [hrun] at halike
    cases halike
  | ok c' =>
    rw [hrun] at halike
    cases halike with
    | ok heq => rw [heq]

/-! ## Texts -/

/-- A channel of a text without references, if it is read: its lines are accounted for, and each
line with the number of a stage has its element if and only if none is lost. -/
def Kept [Memory] (undecoded : Bool) (lines : Nat) (item : Item) (part : List Entry) : Prop :=
  ∀ c, item.result = .ok c → Accounted undecoded lines part c ∧
    (c.elements.length = (bodyLines part).countP (·.numbers?.isSome) ↔ lostLines part = [])

theorem forall₂_kept [Memory] {undecoded : Bool} {lines : Nat} {items : List Item}
    {parts : List (List Entry)} (h : ∀ part ∈ parts, IsPart Entry.isHeader part)
    (h60 : ∀ m, .record m ∈ parts.flatten → m.blockette ≠ 60)
    (hitems : List.Forall₂ (ReadAt undecoded lines) items parts) :
    List.Forall₂ (Kept undecoded lines) items parts := by
  induction hitems with
  | nil => exact .nil
  | @cons item part items parts hitem hitems ih =>
    refine .cons ?_ (ih (fun p hp => h p (List.mem_cons_of_mem _ hp))
      fun m hm => h60 m (List.mem_append_right _ hm))
    obtain ⟨e, es, rfl, he, -⟩ := h part List.mem_cons_self
    have hheader : ∀ e' ∈ (e :: es).head?, e'.isHeader = true := by
      rintro _ ⟨rfl⟩
      exact he
    intro c hc
    have haccounted := accounted_of_readAt hitem hheader
      (fun m hm => h60 m (List.mem_append_left _ hm)) hc
    exact ⟨haccounted, haccounted.lostLines_eq_nil_iff.symm⟩

/-- **Where a line with the number of a stage is lost.**  In a text without references each line
with the number of a stage that opens a record of a channel is decoded into one element of it, in
order; the others are lost.  So as many elements as such lines are read if and only if no line with
the number of a stage stands in an unfinished record of the same blockette, or behind a line of
blockette 50 in the body of the channel. -/
theorem stageLines_accounted [Memory] (undecoded : Bool) (text : String)
    (h60 : ∀ l ∈ recordLines (entries text), l.blockette ≠ 60) :
    ∃ items, channels (fun _ => true) undecoded text = leadingFault text ++ items ∧
      List.Forall₂ (Kept undecoded (lineCount text)) items
        (cutBefore Entry.isHeader (entries text)).2 := by
  refine ⟨_, channels_eq_leadingFault_append undecoded text, ?_⟩
  have hcut := cutBefore_append Entry.isHeader (entries text)
  have hparts := isPart_cutBefore Entry.isHeader (entries text)
  have hread : List.Forall₂ (ReadAt undecoded (lineCount text))
      (channelsFrom (fun _ => true) undecoded (lineCount text) (entries text))
      (cutBefore Entry.isHeader (entries text)).2 := by
    conv => lhs; rw [← hcut]
    rw [channelsFrom_headless (forall_fst_cutBefore Entry.isHeader _)]
    exact channelsFrom_parts undecoded _ hparts
  exact forall₂_kept hparts
    (fun m hm => h60 m (mem_recordLines (hcut ▸ List.mem_append_right _ hm))) hread

/-- A channel whose first response list lacks its number of rows, and whose third one stands behind
another network line. -/
def overrun : String :=
  textOf ["B050F03 Station: A", "B050F16 Network: B", "B052F04 Channel: C",
    "B052F22 Start: 2020,001", "B052F23 End: No Ending Time",
    "B055F03 Stage: 1", "B055F04 Input: V", "B055F05 Output: V",
    "B055F03 Stage: 2", "B055F04 Input: V", "B055F05 Output: V", "B055F06 Rows: 0",
    "B050F16 Network: B",
    "B055F03 Stage: 3", "B055F04 Input: V", "B055F05 Output: V", "B055F06 Rows: 0"]

theorem ne_60_overrun : ∀ l ∈ recordLines (entries overrun), l.blockette ≠ 60 := by
  rw [overrun, entries_textOf (by decide +kernel)]
  decide +kernel

theorem stageLines_accounted_overrun :
    (∀ l ∈ recordLines (entries overrun), l.blockette ≠ 60) ∧
    ∃ items, channels (fun _ => true) false overrun = leadingFault overrun ++ items ∧
      List.Forall₂ (Kept false (lineCount overrun)) items
        (cutBefore Entry.isHeader (entries overrun)).2 :=
  ⟨ne_60_overrun, stageLines_accounted false overrun ne_60_overrun⟩

/-- Two of its three lists are lost, and nothing is said about it. -/
theorem overrun_loses_stageLines :
    (∀ l ∈ recordLines (entries overrun), l.blockette ≠ 60) ∧
    (channels (fun _ => true) false overrun).map
        (fun item => item.result.toOption.map (·.elements.length)) = [some 1] ∧
    (bodyLines (entries overrun)).countP (·.numbers?.isSome) = 3 ∧
    (lostLines (entries overrun)).map (·.number) = [9, 14] := by
  refine ⟨ne_60_overrun, ?_⟩
  rw [channels_eq_leadingFault_append, leadingFault, overrun, entries_textOf (by decide +kernel),
    lineCount_textOf (by decide +kernel)]
  decide +kernel

end InstrumentResponse.Record
