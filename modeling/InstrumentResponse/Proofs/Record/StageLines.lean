import InstrumentResponse.Proofs.Record.Consumption
import InstrumentResponse.Record.Blockette

/-!
# Lines with the number of a stage

Each inline blockette has a line with the number of its stage and, further on, a last line before
its tables.  Between the two a record is unfinished.

* `openings`: the lines with a stage's number that begin a record of their own.
* `swallowed`: those that stand in an unfinished record of the same blockette.
* `walks_element`: an element comes from one record, which begins with the first such line.
-/

namespace InstrumentResponse.Record

/-- The field with the number of the stage. -/
def Kind.sequenceField : Kind → Nat
  | poleZero | coefficients | polynomial => 4
  | list | generic | decimation | gain | fir => 3

/-- The last field before the tables of a blockette. -/
def Kind.lastField : Kind → Nat
  | poleZero | polynomial => 14
  | coefficients => 10
  | decimation | fir => 8
  | list | generic | gain => 6

/-- The blockette whose stage a line numbers. -/
def Line.numbers? (l : Line) : Option Kind :=
  (Kind.ofBlockette? .inline l.blockette).filter (·.sequenceField == l.field)

/-- Is a line the last one of a record before its tables? -/
def Line.finishes (l : Line) (kind : Kind) : Bool :=
  l.isRecord (kind.blockette .inline) kind.lastField

/-- The lines with the number of a stage, each with whether it begins a record.  It does unless a
record of its blockette is unfinished. -/
def stageLines (unfinished : Option Kind) : List Line → List (Line × Bool)
  | [] => []
  | l :: ls =>
    match l.numbers? with
    | some kind => (l, unfinished != some kind) :: stageLines (some kind) ls
    | none => stageLines (unfinished.filter (!l.finishes ·)) ls

/-- The lines with the number of a stage that begin a record. -/
def openings (unfinished : Option Kind) (ls : List Line) : List Line :=
  ((stageLines unfinished ls).filter (·.2)).map (·.1)

/-- The lines with the number of a stage that stand in an unfinished record. -/
def swallowed (unfinished : Option Kind) (ls : List Line) : List Line :=
  ((stageLines unfinished ls).filter (!·.2)).map (·.1)

theorem stageLines_cons_some {l : Line} {kind : Kind} (h : l.numbers? = some kind)
    (unfinished : Option Kind) (ls : List Line) :
    stageLines unfinished (l :: ls) =
      (l, unfinished != some kind) :: stageLines (some kind) ls := by
  rw [stageLines, h]

theorem stageLines_cons_none {l : Line} (h : l.numbers? = none) (unfinished : Option Kind)
    (ls : List Line) :
    stageLines unfinished (l :: ls) = stageLines (unfinished.filter (!l.finishes ·)) ls := by
  rw [stageLines, h]

theorem length_stageLines (unfinished : Option Kind) (ls : List Line) :
    (stageLines unfinished ls).length = ls.countP (·.numbers?.isSome) := by
  induction ls generalizing unfinished with
  | nil => rfl
  | cons l ls ih =>
    rw [List.countP_cons]
    cases h : l.numbers? with
    | none => simp [stageLines_cons_none h, ih]
    | some kind => simp [stageLines_cons_some h, ih]

/-- Every line with the number of a stage begins a record or stands in an unfinished one. -/
theorem length_openings_add_swallowed (unfinished : Option Kind) (ls : List Line) :
    (openings unfinished ls).length + (swallowed unfinished ls).length =
      ls.countP (·.numbers?.isSome) := by
  rw [openings, swallowed, List.length_map, List.length_map, ← length_stageLines unfinished ls,
    ← List.countP_eq_length_filter, ← List.countP_eq_length_filter]
  simpa using (List.length_eq_countP_add_countP (l := stageLines unfinished ls) (·.2)).symm

/-! ## The automaton of a record -/

/-- How far a record has been read. -/
inductive Phase where
  /-- Before the number of its stage. -/
  | before
  /-- After the line with the number of its stage. -/
  | inside (opening : Line)
  /-- After its last line before the tables. -/
  | after (opening : Line)

/-- A line of a record. -/
def Kind.step (kind : Kind) (phase : Phase) (l : Line) : Option Phase :=
  if l.blockette ≠ kind.blockette .inline then none
  else if l.field = kind.sequenceField then
    match phase with
    | .before => some (.inside l)
    | .inside opening => some (.inside opening)
    | .after _ => none
  else if l.field = kind.lastField then
    match phase with
    | .inside opening => some (.after opening)
    | _ => none
  else some phase

namespace Kind

variable {kind : Kind} {l : Line}

theorem sequenceField_lt_lastField (kind : Kind) : kind.sequenceField < kind.lastField := by
  cases kind <;> decide

theorem step_label (hb : l.blockette = kind.blockette .inline) (hs : l.field ≠ kind.sequenceField)
    (hf : l.field ≠ kind.lastField) (p : Phase) : kind.step p l = some p := by
  simp [step, hb, hs, hf]

theorem step_before (hb : l.blockette = kind.blockette .inline) (hs : l.field = kind.sequenceField) :
    kind.step .before l = some (.inside l) := by
  simp [step, hb, hs]

theorem step_inside (hb : l.blockette = kind.blockette .inline) (hs : l.field = kind.sequenceField)
    (o : Line) : kind.step (.inside o) l = some (.inside o) := by
  simp [step, hb, hs]

theorem step_last (hb : l.blockette = kind.blockette .inline) (hf : l.field = kind.lastField)
    (o : Line) : kind.step (.inside o) l = some (.after o) := by
  have hs : kind.lastField ≠ kind.sequenceField := by
    have := kind.sequenceField_lt_lastField
    omega
  simp [step, hb, hf, hs]

end Kind

namespace Decoder

variable {β γ : Type} {kind : Kind} {p q : Phase}

/-- The line of a record, with the labels before it, leads from one phase to another. -/
def Leads (kind : Kind) (p : Phase) (field : Nat) (q : Phase) : Prop :=
  Walks kind.step p (take (kind.blockette .inline) field) fun _ r => r = q

theorem label_iff {l : Line} {blockette field : Nat} :
    isLabelBefore l blockette field = true ↔ l.blockette = blockette ∧ l.field < field ∧
      l.lastField.isNone = true ∧ l.isHeader = false := by
  simp [isLabelBefore, and_assoc]

theorem isRecord_iff {l : Line} {blockette field : Nat} :
    l.isRecord blockette field = true ↔ l.blockette = blockette ∧ l.field = field := by
  simp [Line.isRecord]

/-- Before the number of the stage. -/
theorem leads_before {field : Nat} (h : field < kind.sequenceField) :
    Leads kind .before field .before := by
  have hlt := kind.sequenceField_lt_lastField
  refine walks_take (fun l hl => ?_) fun l hl => ?_
  · obtain ⟨hb, hf, -, -⟩ := label_iff.mp hl
    exact Kind.step_label hb (by omega) (by omega) _
  · obtain ⟨hb, hf⟩ := isRecord_iff.mp hl
    exact ⟨.before, Kind.step_label hb (by omega) (by omega) _, rfl⟩

/-- The first line with the number of the stage. -/
theorem walks_sequenceLine :
    Walks kind.step .before (take (kind.blockette .inline) kind.sequenceField)
      fun l q => q = .inside l := by
  have hlt := kind.sequenceField_lt_lastField
  refine walks_take (fun l hl => ?_) fun l hl => ?_
  · obtain ⟨hb, hf, -, -⟩ := label_iff.mp hl
    exact Kind.step_label hb (by omega) (by omega) _
  · obtain ⟨hb, hf⟩ := isRecord_iff.mp hl
    exact ⟨.inside l, Kind.step_before hb hf, rfl⟩

/-- In an unfinished record another line with the number of a stage counts as a label. -/
theorem step_labelInside {o l : Line} {field : Nat} (h : field ≤ kind.lastField)
    (hl : isLabelBefore l (kind.blockette .inline) field = true) :
    kind.step (.inside o) l = some (.inside o) := by
  obtain ⟨hb, hf, -, -⟩ := label_iff.mp hl
  by_cases hs : l.field = kind.sequenceField
  · exact Kind.step_inside hb hs o
  · exact Kind.step_label hb hs (by omega) _

/-- Between the number of the stage and the last line. -/
theorem leads_inside (o : Line) {field : Nat} (h : kind.sequenceField < field)
    (h' : field < kind.lastField) : Leads kind (.inside o) field (.inside o) := by
  refine walks_take (fun l hl => step_labelInside (by omega) hl) fun l hl => ?_
  obtain ⟨hb, hf⟩ := isRecord_iff.mp hl
  exact ⟨.inside o, Kind.step_label hb (by omega) (by omega) _, rfl⟩

theorem leads_last (o : Line) : Leads kind (.inside o) kind.lastField (.after o) := by
  refine walks_take (fun l hl => step_labelInside (Nat.le_refl _) hl) fun l hl => ?_
  obtain ⟨hb, hf⟩ := isRecord_iff.mp hl
  exact ⟨.after o, Kind.step_last hb hf o, rfl⟩

/-- Rows of tables are no lines of interest. -/
theorem step_row {field : Nat} (h : field ≠ kind.sequenceField) (h' : field ≠ kind.lastField)
    (p : Phase) : ∀ l, l.isRecord (kind.blockette .inline) field = true →
      kind.step p l = some p := by
  intro l hl
  obtain ⟨hb, hf⟩ := isRecord_iff.mp hl
  exact Kind.step_label hb (by omega) (by omega) p

/-! ## Blockettes -/

theorem walks_value {field : Nat} (h : Leads kind p field q) (g : Line → Except ReadFault β) :
    Walks kind.step p (take (kind.blockette .inline) field >>= fun l => lift (g l))
      fun _ r => r = q :=
  h.bind fun _ _ hr => walks_lift fun _ _ => hr

theorem walks_sequence :
    Walks kind.step .before (sequence .inline (kind.blockette .inline) kind.sequenceField)
      fun n q => ∃ o m, q = .inside o ∧ n = some m ∧ o.sequence = .ok m := by
  refine walks_sequenceLine.bind ?_
  rintro o _ rfl
  refine (walks_lift (Q := fun m q => q = .inside o ∧ o.sequence = .ok m)
    fun m hm => ⟨rfl, hm⟩).bind ?_
  rintro m _ ⟨rfl, hm⟩
  exact walks_pure ⟨o, m, rfl, rfl, hm⟩

theorem walks_unit (undecoded : Bool) {field : Nat} (h : Leads kind p field q) :
    Walks kind.step p (unit undecoded (kind.blockette .inline) field) fun _ r => r = q := by
  refine Walks.then_lift h Line.value fun name => ?_
  cases undecoded with
  | true => exact walks_pure rfl
  | false =>
    by_cases hq : Quantity.read name = .undefined
    · simp only [Bool.false_eq_true, if_false, if_pos hq]
      exact (walks_noteUnit name).bind fun _ _ hr => walks_pure hr
    · simp only [Bool.false_eq_true, if_false, if_neg hq]
      exact walks_pure rfl

theorem walks_units (undecoded : Bool) (o : Line) {field : Nat} (h : kind.sequenceField < field)
    (h' : field + 1 < kind.lastField) :
    Walks kind.step (.inside o) (units undecoded (kind.blockette .inline) field)
      fun _ r => r = .inside o :=
  (walks_unit undecoded (leads_inside o h (by omega))).then fun _ =>
    (walks_unit undecoded (leads_inside o (by omega) h')).then fun _ => walks_pure rfl

/-- An element comes from one record, and is given the stage of its first line that has one. -/
def FromRecord (d : Decoded) (q : Phase) : Prop :=
  ∃ o n, q = .after o ∧ d.sequence = some n ∧ o.sequence = .ok n

theorem walks_element [Memory] (kind : Kind) (undecoded : Bool) :
    Walks kind.step .before (element kind .inline undecoded) FromRecord := by
  cases kind with
  | poleZero =>
    refine Walks.then_lift (leads_before (by decide)) Line.plane fun plane => ?_
    refine walks_sequence.bind ?_
    rintro _ _ ⟨o, n, rfl, rfl, hn⟩
    refine (walks_units undecoded o (by decide) (by decide)).then fun units => ?_
    refine (walks_value (leads_inside o (by decide) (by decide)) Line.decimal).then fun scale => ?_
    refine (walks_value (leads_inside o (by decide) (by decide)) Line.decimal).then fun at' => ?_
    refine (walks_value (leads_inside o (by decide) (by decide)) Line.count).then fun zeros => ?_
    refine (walks_value (leads_last o) Line.count).then fun poles => ?_
    refine (walks_table (step_row (by decide) (by decide) _) _ _ _).then fun zeros => ?_
    refine (walks_table (step_row (by decide) (by decide) _) _ _ _).then fun poles => ?_
    exact walks_pure ⟨o, n, rfl, rfl, hn⟩
  | coefficients =>
    refine Walks.then_lift (leads_before (by decide)) (Line.expectType · _ _) fun _ => ?_
    refine walks_sequence.bind ?_
    rintro _ _ ⟨o, n, rfl, rfl, hn⟩
    refine (walks_units undecoded o (by decide) (by decide)).then fun units => ?_
    refine (walks_value (leads_inside o (by decide) (by decide)) Line.count).then fun _ => ?_
    refine (walks_value (leads_last o) Line.count).then fun _ => ?_
    refine (walks_table (step_row (by decide) (by decide) _) _ _ _).then fun _ => ?_
    refine (walks_table (step_row (by decide) (by decide) _) _ _ _).then fun _ => ?_
    exact walks_pure ⟨o, n, rfl, rfl, hn⟩
  | list =>
    refine walks_sequence.bind ?_
    rintro _ _ ⟨o, n, rfl, rfl, hn⟩
    refine (walks_units undecoded o (by decide) (by decide)).then fun units => ?_
    refine (walks_value (leads_last o) Line.count).then fun _ => ?_
    refine (walks_table (step_row (by decide) (by decide) _) _ _ _).then fun _ => ?_
    exact walks_pure ⟨o, n, rfl, rfl, hn⟩
  | generic =>
    refine walks_sequence.bind ?_
    rintro _ _ ⟨o, n, rfl, rfl, hn⟩
    refine (walks_units undecoded o (by decide) (by decide)).then fun units => ?_
    refine (walks_value (leads_last o) Line.count).then fun _ => ?_
    refine (walks_table (step_row (by decide) (by decide) _) _ _ _).then fun _ => ?_
    exact walks_pure ⟨o, n, rfl, rfl, hn⟩
  | decimation =>
    refine walks_sequence.bind ?_
    rintro _ _ ⟨o, n, rfl, rfl, hn⟩
    refine (walks_value (leads_inside o (by decide) (by decide)) Line.decimal).then fun rate => ?_
    refine Walks.then_lift (leads_inside o (by decide) (by decide)) (Line.smallCount · _) fun _ => ?_
    refine Walks.then_lift (leads_inside o (by decide) (by decide)) (Line.smallCount · _) fun _ => ?_
    refine (walks_value (leads_inside o (by decide) (by decide)) Line.decimal).then fun _ => ?_
    refine (walks_value (leads_last o) Line.decimal).then fun _ => ?_
    exact walks_pure ⟨o, n, rfl, rfl, hn⟩
  | gain =>
    refine walks_sequence.bind ?_
    rintro _ _ ⟨o, n, rfl, rfl, hn⟩
    refine (walks_value (leads_inside o (by decide) (by decide)) Line.decimal).then fun value => ?_
    refine (walks_value (leads_inside o (by decide) (by decide)) Line.decimal).then fun at' => ?_
    refine (walks_value (leads_last o) Line.count).then fun _ => ?_
    refine (walks_rows (step_row (by decide) (by decide) _) _ _ _).then fun _ => ?_
    exact walks_pure ⟨o, n, rfl, rfl, hn⟩
  | fir =>
    refine walks_sequence.bind ?_
    rintro _ _ ⟨o, n, rfl, rfl, hn⟩
    refine Walks.then_lift (leads_inside o (by decide) (by decide)) Line.symmetry fun _ => ?_
    refine (walks_units undecoded o (by decide) (by decide)).then fun units => ?_
    refine (walks_value (leads_last o) Line.count).then fun _ => ?_
    refine (walks_table (step_row (by decide) (by decide) _) _ _ _).then fun _ => ?_
    exact walks_pure ⟨o, n, rfl, rfl, hn⟩
  | polynomial =>
    refine Walks.then_lift (leads_before (by decide)) (Line.expectType · _ _) fun _ => ?_
    refine walks_sequence.bind ?_
    rintro _ _ ⟨o, n, rfl, rfl, hn⟩
    refine (walks_units undecoded o (by decide) (by decide)).then fun units => ?_
    refine (walks_value (leads_inside o (by decide) (by decide)) Line.code).then fun _ => ?_
    refine (walks_value (leads_inside o (by decide) (by decide)) Line.code).then fun _ => ?_
    refine (walks_value (leads_inside o (by decide) (by decide)) Line.decimal).then fun _ => ?_
    refine (walks_value (leads_inside o (by decide) (by decide)) Line.decimal).then fun _ => ?_
    refine (walks_value (leads_inside o (by decide) (by decide)) Line.decimal).then fun _ => ?_
    refine (walks_value (leads_inside o (by decide) (by decide)) Line.decimal).then fun _ => ?_
    refine (walks_value (leads_inside o (by decide) (by decide)) Line.decimal).then fun _ => ?_
    refine (walks_value (leads_last o) Line.count).then fun _ => ?_
    refine (walks_table (step_row (by decide) (by decide) _) _ _ _).then fun _ => ?_
    exact walks_pure ⟨o, n, rfl, rfl, hn⟩

end Decoder

end InstrumentResponse.Record
