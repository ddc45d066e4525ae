import Mathlib.Tactic.MkIffOfInductiveProp
import InstrumentResponse.Proofs.Chain.StageNumbers
import InstrumentResponse.Proofs.Record.Accounting
import InstrumentResponse.Proofs.Record.StageLines

/-!
# Texts under other stage numbers

Two texts may differ in the numbers of the stages alone, those of one of them being related by `ρ` to
those of the other one.  Reading makes out of both of them the same elements in the same order, or
refuses both.  The stages are the same as well, but for their numbers, as long as `ρ` keeps equal
numbers equal and other ones different.

* `Line.Restaged`, `Entry.Restaged`: lines of two such texts.
* `Decoder.Restages`: two decoders read two such lists of lines alike; `Decoder.Restages.bind`: what
  is made of steps that do so does so too.
* `Decoder.restages_element`, `Decoder.restages_reference`, `Decoder.restages_body`: the parts of a
  channel.
* `channels_restaged`: the channels of the two texts.
-/

namespace InstrumentResponse.Record

/-! ## Lines -/

/-- Does a record hold the number of a stage, which an inline blockette or a reference gives? -/
def numbersStage (blockette field : Nat) : Bool :=
  Kind.all.any (fun kind => kind.blockette .inline == blockette && kind.sequenceField == field) ||
    (blockette == 60 && field == 4)

/-- Lines that are the same, but for the number of a stage in them. -/
@[mk_iff]
structure Line.Restaged (ρ : Nat → Nat → Prop) (l l' : Line) : Prop where
  blockette_eq : l'.blockette = l.blockette
  field_eq : l'.field = l.field
  lastField_eq : l'.lastField = l.lastField
  number : numbersStage l.blockette l.field = true → Alike ρ l.sequence l'.sequence
  other : numbersStage l.blockette l.field = false → l' = l

/-- Entries that are the same, but for the number of a stage in them. -/
inductive Entry.Restaged (ρ : Nat → Nat → Prop) : Entry → Entry → Prop
  | record {l l' : Line} (h : l.Restaged ρ l') : Restaged ρ (.record l) (.record l')
  | damaged (number : Nat) (text : String) :
      Restaged ρ (.damaged number text) (.damaged number text)

instance (ρ : Nat → Nat → Prop) [DecidableRel ρ] (l l' : Line) : Decidable (l.Restaged ρ l') :=
  decidable_of_iff' _ (Line.restaged_iff ρ l l')

instance (ρ : Nat → Nat → Prop) [DecidableRel ρ] : ∀ e e', Decidable (Entry.Restaged ρ e e')
  | .record l, .record l' => decidable_of_iff (l.Restaged ρ l') ⟨.record, fun | .record h => h⟩
  | .damaged m text, .damaged n other =>
    decidable_of_iff (m = n ∧ text = other)
      ⟨fun ⟨hNumber, hText⟩ => hNumber ▸ hText ▸ .damaged m text, fun | .damaged _ _ => ⟨rfl, rfl⟩⟩
  | .record _, .damaged _ _ => isFalse nofun
  | .damaged _ _, .record _ => isFalse nofun

section

variable {ρ : Nat → Nat → Prop} {l l' : Line} (h : l.Restaged ρ l')

include h

theorem Line.Restaged.isRecord_eq (blockette field : Nat) :
    l'.isRecord blockette field = l.isRecord blockette field := by
  rw [Line.isRecord, Line.isRecord, h.blockette_eq, h.field_eq]

theorem Line.Restaged.isHeader_eq : l'.isHeader = l.isHeader := h.isRecord_eq 50 3

theorem Line.Restaged.isLabelBefore_eq (blockette field : Nat) :
    Decoder.isLabelBefore l' blockette field = Decoder.isLabelBefore l blockette field := by
  rw [Decoder.isLabelBefore, Decoder.isLabelBefore, h.blockette_eq, h.field_eq, h.lastField_eq,
    h.isHeader_eq]

theorem Line.Restaged.eq_of_isRecord {blockette field : Nat}
    (hRecord : l.isRecord blockette field = true) (hPlace : numbersStage blockette field = false) :
    l' = l := by
  obtain ⟨hb, hf⟩ := Bool.and_eq_true_iff.mp hRecord
  refine h.other ?_
  rwa [beq_iff_eq.mp hb, beq_iff_eq.mp hf]

theorem Line.Restaged.sequence {blockette field : Nat}
    (hRecord : l.isRecord blockette field = true) (hPlace : numbersStage blockette field = true) :
    Alike ρ l.sequence l'.sequence := by
  obtain ⟨hb, hf⟩ := Bool.and_eq_true_iff.mp hRecord
  refine h.number ?_
  rwa [beq_iff_eq.mp hb, beq_iff_eq.mp hf]

end

/-- Fields after the names of a blockette are no numbers of stages. -/
theorem numbersStage_firstField (kind : Kind) (form : Form) (k : Nat) :
    numbersStage (kind.blockette form) (kind.firstField form + k) = false := by
  cases kind <;> cases form <;> simp [numbersStage, Kind.all, Kind.blockette, Kind.firstField,
    Kind.sequenceField] <;> omega

/-! ## Decoders -/

/-- Replies that are alike, with lines left that are alike. -/
structure Reply.Restaged {β γ : Type} (ρ : Nat → Nat → Prop) (R : β → γ → Prop) (r : Reply β)
    (r' : Reply γ) : Prop where
  result : Record.Alike R r.result r'.result
  rest : List.Forall₂ (Entry.Restaged ρ) r.rest r'.rest

namespace Decoder

variable {β γ δ ε : Type} {ρ : Nat → Nat → Prop} {R : β → γ → Prop} {S : δ → ε → Prop}
  {blockette field : Nat}

/-- Two decoders read lines under some numbers of stages and under other ones alike. -/
def Restages (ρ : Nat → Nat → Prop) (R : β → γ → Prop) (d : Decoder β) (d' : Decoder γ) : Prop :=
  ∀ lines lines' es es', List.Forall₂ (Entry.Restaged ρ) es es' →
    (d.run lines es).Restaged ρ R (d'.run lines' es')

theorem restages_lift {x : Except ReadFault β} {y : Except ReadFault γ} (h : Alike R x y) :
    Restages ρ R (lift x) (lift y) := fun _ _ _ _ hes => ⟨h, hes⟩

theorem restages_pure {b : β} {c : γ} (h : R b c) : Restages ρ R (pure b) (pure c) :=
  restages_lift (.ok h)

theorem restages_fail {e e' : ReadFault} (h : e.faultClass = e'.faultClass) :
    Restages ρ R (fail e) (fail e') := restages_lift (.error h)

theorem restages_andThen {r : Reply β} {r' : Reply γ} {f : β → List Entry → Reply δ}
    {f' : γ → List Entry → Reply ε} (h : r.Restaged ρ R r')
    (hNext : ∀ b c, r.result = .ok b → R b c → (f b r.rest).Restaged ρ S (f' c r'.rest)) :
    (andThen r f).Restaged ρ S (andThen r' f') := by
  obtain ⟨units, result, rest⟩ := r
  obtain ⟨units', result', rest'⟩ := r'
  obtain ⟨hResult, hRest⟩ := h
  cases hResult with
  | error hClass => exact ⟨.error hClass, hRest⟩
  | ok hb =>
    obtain ⟨hResult', hRest'⟩ := hNext _ _ rfl hb
    exact ⟨hResult', hRest'⟩

theorem Restages.bind {d : Decoder β} {d' : Decoder γ} {f : β → Decoder δ} {f' : γ → Decoder ε}
    (h : Restages ρ R d d') (hNext : ∀ b c, R b c → Restages ρ S (f b) (f' c)) :
    Restages ρ S (d >>= f) (d' >>= f') := by
  intro lines lines' es es' hes
  refine restages_andThen (h lines lines' es es' hes) ?_
  intro b c _ hb
  exact hNext b c hb lines lines' _ _ (h lines lines' es es' hes).rest

theorem Restages.then {d : Decoder β} {f : β → Decoder δ} {f' : β → Decoder ε}
    (h : Restages ρ Eq d d) (hNext : ∀ b, Restages ρ S (f b) (f' b)) :
    Restages ρ S (d >>= f) (d >>= f') :=
  h.bind fun b _ hb => hb ▸ hNext b

theorem Restages.map {d d' : Decoder β} {T : β → β → Prop} {f : β → δ} {f' : β → ε}
    (h : Restages ρ T d d') (hf : ∀ b c, T b c → S (f b) (f' c)) :
    Restages ρ S (f <$> d) (f' <$> d') :=
  h.bind fun b c hb => restages_pure (hf b c hb)

theorem alike_refl (x : Except ReadFault β) : Alike Eq x x := .of_unnumbered rfl

/-! ### Consuming lines -/

/-- The next lines of two such texts are two such lines. -/
theorem restages_peek : Restages ρ (Option.Rel (Line.Restaged ρ)) peek peek := by
  intro lines lines' es es' hes
  cases hes with
  | nil => exact ⟨.ok .none, .nil⟩
  | cons he hes =>
    cases he with
    | record hl => exact ⟨.ok (.some hl), .cons (.record hl) hes⟩
    | damaged number text => exact ⟨.error rfl, hes⟩

theorem restages_take (blockette field : Nat) :
    Restages ρ (fun l l' => l.Restaged ρ l' ∧ l.isRecord blockette field = true)
      (take blockette field) (take blockette field) := by
  intro lines lines' es es' hes
  show (takeFrom blockette field lines es).Restaged ρ _ (takeFrom blockette field lines' es')
  induction hes with
  | nil => exact ⟨.error rfl, .nil⟩
  | @cons e e' es es' he hes ih =>
    cases he with
    | damaged number text => exact ⟨.error rfl, hes⟩
    | @record l l' hl =>
      rw [takeFrom, takeFrom, hl.isRecord_eq, hl.isLabelBefore_eq]
      by_cases hRecord : l.isRecord blockette field = true
      · rw [if_pos hRecord, if_pos hRecord]
        exact ⟨.ok ⟨hl, hRecord⟩, hes⟩
      · rw [if_neg hRecord, if_neg hRecord]
        by_cases hLabel : isLabelBefore l blockette field = true
        · rw [if_pos hLabel, if_pos hLabel]
          exact ih
        · rw [if_neg hLabel, if_neg hLabel]
          exact ⟨.error rfl, .cons (.record hl) hes⟩

/-- A line without the number of a stage, what it holds, and what is read after it. -/
theorem restages_read (hPlace : numbersStage blockette field = false)
    (g : Line → Except ReadFault β) {f : β → Decoder δ} {f' : β → Decoder ε}
    (hNext : ∀ b, Restages ρ S (f b) (f' b)) :
    Restages ρ S (take blockette field >>= fun l => lift (g l) >>= f)
      (take blockette field >>= fun l => lift (g l) >>= f') := by
  refine (restages_take blockette field).bind ?_
  rintro l l' ⟨hl, hRecord⟩
  rw [hl.eq_of_isRecord hRecord hPlace]
  exact (restages_lift (alike_refl (g l))).then hNext

theorem restages_value (hPlace : numbersStage blockette field = false)
    (g : Line → Except ReadFault β) :
    Restages ρ Eq (take blockette field >>= fun l => lift (g l))
      (take blockette field >>= fun l => lift (g l)) := by
  refine (restages_take blockette field).bind ?_
  rintro l l' ⟨hl, hRecord⟩
  rw [hl.eq_of_isRecord hRecord hPlace]
  exact restages_lift (alike_refl (g l))

theorem restages_rows (hPlace : numbersStage blockette field = false) (count : Nat)
    (what : String) (row : Line → Except ReadFault β) :
    Restages ρ Eq (rows blockette field count what row) (rows blockette field count what row) := by
  intro lines lines' es es' hes
  show (rowsFrom blockette field what row 0 count es).Restaged ρ _
    (rowsFrom blockette field what row 0 count es')
  generalize 0 = found
  induction hes generalizing found count with
  | nil =>
    cases count with
    | zero => exact ⟨.ok rfl, .nil⟩
    | succ left => exact ⟨.error rfl, .nil⟩
  | @cons e e' es es' he hes ih =>
    cases count with
    | zero => exact ⟨.ok rfl, .cons he hes⟩
    | succ left =>
      cases he with
      | damaged number text => exact ⟨.error rfl, hes⟩
      | @record l l' hl =>
        rw [rowsFrom, rowsFrom, hl.isRecord_eq]
        by_cases hRecord : l.isRecord blockette field = true
        · rw [if_pos hRecord, if_pos hRecord, hl.eq_of_isRecord hRecord hPlace]
          cases row l with
          | error fault => exact ⟨.error rfl, hes⟩
          | ok b =>
            obtain ⟨hResult, hRest⟩ := ih left (found + 1)
            exact ⟨hResult.map (b :: ·), hRest⟩
        · rw [if_neg hRecord, if_neg hRecord]
          exact ⟨.error rfl, .cons (.record hl) hes⟩

theorem restages_table [Memory] (hPlace : numbersStage blockette field = false) (count : Nat)
    (what : String) (row : Line → Except ReadFault β) :
    Restages ρ Eq (table blockette field count what row)
      (table blockette field count what row) := by
  unfold table
  by_cases hRoom : Memory.canHold what count = true
  · rw [if_pos hRoom]
    exact restages_rows hPlace count what row
  · rw [if_neg hRoom]
    exact restages_fail rfl

/-! ## Blockettes -/

/-- The number of the stage of a blockette. -/
theorem restages_sequence (form : Form) {kind : Kind} (hField : kind.sequenceField = field) :
    Restages ρ (Option.Rel ρ) (sequence form (kind.blockette form) field)
      (sequence form (kind.blockette form) field) := by
  cases form with
  | dictionary => exact restages_pure .none
  | inline =>
    subst hField
    refine (restages_take _ _).bind ?_
    rintro l l' ⟨hl, hRecord⟩
    exact (restages_lift (hl.sequence hRecord (by cases kind <;> rfl))).bind fun m n hNumber =>
      restages_pure (.some hNumber)

theorem restages_unit (undecoded : Bool) (hPlace : numbersStage blockette field = false) :
    Restages ρ Eq (unit undecoded blockette field) (unit undecoded blockette field) := by
  refine restages_read hPlace Line.value fun name => ?_
  cases undecoded with
  | true => exact restages_pure rfl
  | false =>
    by_cases hUnknown : Quantity.read name = .undefined
    · simp only [Bool.false_eq_true, if_false, if_pos hUnknown]
      exact Restages.then (fun _ _ _ _ hes => ⟨.ok rfl, hes⟩) fun _ => restages_pure rfl
    · simp only [Bool.false_eq_true, if_false, if_neg hUnknown]
      exact restages_pure rfl

theorem restages_units (undecoded : Bool) (kind : Kind) (form : Form) :
    Restages ρ Eq (units undecoded (kind.blockette form) (kind.firstField form))
      (units undecoded (kind.blockette form) (kind.firstField form)) :=
  (restages_unit undecoded (numbersStage_firstField kind form 0)).then fun _ =>
    (restages_unit undecoded (numbersStage_firstField kind form 1)).then fun _ => restages_pure rfl

end Decoder

/-- What a blockette gives, and the same under another number of its stage. -/
inductive Decoded.Restaged (ρ : Nat → Nat → Prop) : Decoded → Decoded → Prop
  | renumber (d : Decoded) {sequence : Option Nat} (h : Option.Rel ρ d.sequence sequence) :
      Restaged ρ d { d with sequence }

theorem absorb_renumber (s : Stage Float) (d : Decoded) (n : Nat) (sequence : Option Nat) :
    absorb { s with sequence := n } { d with sequence } = { absorb s d with sequence := n } := by
  rcases d with ⟨old, _ | u, element⟩
  · rfl
  · cases hHas : s.hasUnits with
    | true => rw [absorb_of_hasUnits (s := { s with sequence := n }) hHas, absorb_of_hasUnits hHas]
    | false =>
      rw [absorb_of_units (s := { s with sequence := n }) hHas (d := ⟨sequence, some u, element⟩) rfl,
        absorb_of_units hHas rfl]

theorem absorb_restaged {ρ : Nat → Nat → Prop} {s s' : Stage Float} {d d' : Decoded}
    (hs : s.Restaged ρ s') (hd : d.Restaged ρ d') : (absorb s d).Restaged ρ (absorb s' d') := by
  cases hs with
  | @renumber n hNumber =>
    cases hd with
    | @renumber sequence _ =>
      rw [absorb_renumber s d n sequence]
      exact .renumber _ (by rwa [sequence_absorb])

namespace Decoder

variable {ρ : Nat → Nat → Prop}

theorem restages_decimal {blockette field : Nat} (hPlace : numbersStage blockette field = false) :
    Restages ρ Eq (decimal blockette field) (decimal blockette field) :=
  restages_value hPlace Line.decimal

theorem restages_count {blockette field : Nat} (hPlace : numbersStage blockette field = false) :
    Restages ρ Eq (count blockette field) (count blockette field) :=
  restages_value hPlace Line.count

theorem restages_code {blockette field : Nat} (hPlace : numbersStage blockette field = false) :
    Restages ρ Eq (code blockette field) (code blockette field) :=
  restages_value hPlace Line.code

/-- Every element is read alike, under the numbers of both texts. -/
theorem restages_element [Memory] (kind : Kind) (form : Form) (undecoded : Bool) :
    Restages ρ (Decoded.Restaged ρ) (element kind form undecoded)
      (element kind form undecoded) := by
  have hPlace := numbersStage_firstField kind form
  cases kind with
  | poleZero =>
    exact restages_read (by cases form <;> rfl) Line.plane fun _ =>
      (restages_sequence form rfl).bind fun _ _ hNumber =>
      (restages_units undecoded .poleZero form).then fun _ =>
      (restages_decimal (hPlace 2)).then fun _ =>
      (restages_decimal (hPlace 3)).then fun _ =>
      (restages_count (hPlace 4)).then fun _ =>
      (restages_count (hPlace 9)).then fun _ =>
      (restages_table (hPlace 5) _ _ _).then fun _ =>
      (restages_table (hPlace 10) _ _ _).then fun _ => restages_pure (.renumber _ hNumber)
  | coefficients =>
    exact restages_read (by cases form <;> rfl) (Line.expectType · 'D' .coefficientsType) fun _ =>
      (restages_sequence form rfl).bind fun _ _ hNumber =>
      (restages_units undecoded .coefficients form).then fun _ =>
      (restages_count (hPlace 2)).then fun _ =>
      (restages_count (hPlace 5)).then fun _ =>
      (restages_table (hPlace 3) _ _ _).then fun _ =>
      (restages_table (hPlace 6) _ _ _).then fun _ => restages_pure (.renumber _ hNumber)
  | list =>
    exact (restages_sequence form rfl).bind fun _ _ hNumber =>
      (restages_units undecoded .list form).then fun _ =>
      (restages_count (hPlace 2)).then fun _ =>
      (restages_table (hPlace 3) _ _ _).then fun _ => restages_pure (.renumber _ hNumber)
  | generic =>
    exact (restages_sequence form rfl).bind fun _ _ hNumber =>
      (restages_units undecoded .generic form).then fun _ =>
      (restages_count (hPlace 2)).then fun _ =>
      (restages_table (hPlace 3) _ _ _).then fun _ => restages_pure (.renumber _ hNumber)
  | decimation =>
    exact (restages_sequence form rfl).bind fun _ _ hNumber =>
      (restages_decimal (hPlace 0)).then fun _ =>
      restages_read (hPlace 1) (Line.smallCount · fun _ => .decimationFactor) fun _ =>
      restages_read (hPlace 2) (Line.smallCount · fun _ => .decimationOffset) fun _ =>
      (restages_decimal (hPlace 3)).then fun _ =>
      (restages_decimal (hPlace 4)).then fun _ => restages_pure (.renumber _ hNumber)
  | gain =>
    exact (restages_sequence form rfl).bind fun _ _ hNumber =>
      (restages_decimal (hPlace 0)).then fun _ =>
      (restages_decimal (hPlace 1)).then fun _ =>
      (restages_count (hPlace 2)).then fun _ =>
      (restages_rows (hPlace 3) _ _ _).then fun _ => restages_pure (.renumber _ hNumber)
  | fir =>
    exact (restages_sequence form rfl).bind fun _ _ hNumber =>
      restages_read (by cases form <;> rfl) Line.symmetry fun _ =>
      (restages_units undecoded .fir form).then fun _ =>
      (restages_count (hPlace 2)).then fun _ =>
      (restages_table (hPlace 3) _ _ _).then fun _ => restages_pure (.renumber _ hNumber)
  | polynomial =>
    exact restages_read (by cases form <;> rfl) (Line.expectType · 'P' .polynomialType) fun _ =>
      (restages_sequence form rfl).bind fun _ _ hNumber =>
      (restages_units undecoded .polynomial form).then fun _ =>
      (restages_code (hPlace 2)).then fun _ =>
      (restages_code (hPlace 3)).then fun _ =>
      (restages_decimal (hPlace 4)).then fun _ =>
      (restages_decimal (hPlace 5)).then fun _ =>
      (restages_decimal (hPlace 6)).then fun _ =>
      (restages_decimal (hPlace 7)).then fun _ =>
      (restages_decimal (hPlace 8)).then fun _ =>
      (restages_count (hPlace 9)).then fun _ =>
      (restages_table (hPlace 10) _ _ _).then fun _ => restages_pure (.renumber _ hNumber)

/-! ### References -/

theorem restages_endOfInput {β γ : Type} {R : β → γ → Prop} (blockette field : Nat) :
    Restages ρ R (endOfInput blockette field) (endOfInput blockette field) :=
  fun _ _ _ _ hes => ⟨.error rfl, hes⟩

theorem restages_entriesOf [Memory] (undecoded : Bool) {s s' : Stage Float}
    (hs : s.Restaged ρ s') (n : Nat) :
    Restages ρ (Stage.Restaged ρ) (entriesOf undecoded s n) (entriesOf undecoded s' n) := by
  induction n generalizing s s' with
  | zero => exact restages_pure hs
  | succ n ih =>
    refine restages_peek.bind ?_
    intro seen seen' hSeen
    cases hSeen with
    | none => exact restages_endOfInput 60 5
    | @some l l' hl =>
      cases hKind : Kind.ofBlockette? .dictionary l.blockette with
      | some kind =>
        simp only [hl.blockette_eq, hKind]
        exact (restages_element kind .dictionary undecoded).bind fun d d' hd =>
          ih (absorb_restaged hs hd)
      | none =>
        simp only [hl.blockette_eq, hKind]
        exact restages_fail rfl

theorem restages_referencedStage [Memory] (undecoded : Bool) :
    Restages ρ (Stage.Restaged ρ) (referencedStage undecoded) (referencedStage undecoded) := by
  refine (restages_take 60 4).bind ?_
  rintro l l' ⟨hl, hRecord⟩
  exact (restages_lift (hl.sequence hRecord rfl)).bind fun m n hNumber =>
    (restages_count rfl).then fun responses =>
    restages_entriesOf undecoded (.renumber (.empty m) hNumber) responses

theorem restages_otherStages [Memory] (undecoded : Bool) (stageCount n : Nat) :
    Restages ρ (List.Forall₂ (Stage.Restaged ρ)) (otherStages undecoded stageCount n)
      (otherStages undecoded stageCount n) := by
  induction n with
  | zero => exact restages_pure .nil
  | succ n ih =>
    refine (restages_take 60 3).bind ?_
    rintro l l' ⟨hl, hRecord⟩
    rw [hl.eq_of_isRecord hRecord rfl]
    refine (restages_lift (alike_refl l.count)).then fun again => ?_
    by_cases hAgain : again = stageCount
    · simp only [if_pos hAgain]
      exact (restages_referencedStage undecoded).bind fun s s' hs =>
        ih.bind fun rest rest' hRest => restages_pure (.cons hs hRest)
    · simp only [if_neg hAgain]
      exact restages_fail rfl

theorem restages_reference [Memory] (undecoded : Bool) :
    Restages ρ (List.Forall₂ (Stage.Restaged ρ)) (reference undecoded) (reference undecoded) := by
  refine (restages_count rfl).then fun stageCount => ?_
  unfold stagesOf
  by_cases hRoom : Memory.canHold "referenced stages" stageCount = true
  · rw [if_pos hRoom]
    by_cases hNone : stageCount = 0
    · rw [if_pos hNone]
      exact restages_pure .nil
    · rw [if_neg hNone]
      exact (restages_referencedStage undecoded).bind fun s s' hs =>
        (restages_otherStages undecoded stageCount _).bind fun rest rest' hRest =>
        restages_pure (.cons hs hRest)
  · rw [if_neg hRoom]
    exact restages_fail rfl

end Decoder

/-! ## Stages of a body -/

/-- Numbers are equal in one text if and only if they are in the other one, and so are those that
are 0. -/
structure Faithful (ρ : Nat → Nat → Prop) : Prop where
  zero : ρ 0 0
  eq_iff {m n m' n' : Nat} (h : ρ m m') (h' : ρ n n') : m = n ↔ m' = n'

theorem Faithful.zero_iff {ρ : Nat → Nat → Prop} (h : Faithful ρ) (m n : Nat) (hmn : ρ m n) :
    m = 0 ↔ n = 0 := h.eq_iff hmn h.zero

/-- Stages of two texts, in order: the same elements, and the same stages if the numbers allow it. -/
structure StagesRestaged (ρ : Nat → Nat → Prop) (stages stages' : List (Stage Float)) : Prop where
  elements_eq : stages'.flatMap (·.elements) = stages.flatMap (·.elements)
  forall₂ : Faithful ρ → List.Forall₂ (Stage.Restaged ρ) stages stages'

theorem elements_eq_of_restaged {ρ : Nat → Nat → Prop} {stages stages' : List (Stage Float)}
    (h : List.Forall₂ (Stage.Restaged ρ) stages stages') :
    stages'.flatMap (·.elements) = stages.flatMap (·.elements) := by
  induction h with
  | nil => rfl
  | cons hs _ ih =>
    cases hs
    rw [List.flatMap_cons, List.flatMap_cons, ih]

theorem elements_addReference (stages referenced : List (Stage Float)) :
    (Decoder.addReference stages referenced).reverse.flatMap (·.elements) =
      stages.reverse.flatMap (·.elements) ++ referenced.flatMap (·.elements) := by
  rcases stages with _ | ⟨last, earlier⟩
  · simp [Decoder.addReference]
  rcases referenced with _ | ⟨first, others⟩
  · simp [Decoder.addReference]
  rw [Decoder.addReference]
  split
  · simp [Decoder.elements_continueStage]
  · simp

theorem rel_getD {ρ : Nat → Nat → Prop} {o o' : Option Nat} (h : Option.Rel ρ o o') {n n' : Nat}
    (hn : ρ n n') : ρ (o.getD n) (o'.getD n') := by
  cases h with
  | none => exact hn
  | some hm => exact hm

namespace Decoder

variable {ρ : Nat → Nat → Prop}

theorem continueStage_renumber (s t : Stage Float) (n m : Nat) :
    continueStage { s with sequence := n } { t with sequence := m } =
      { continueStage s t with sequence := n } := by
  have hUnits : (!({ s with sequence := n } : Stage Float).hasUnits &&
    ({ t with sequence := m } : Stage Float).hasUnits) = (!s.hasUnits && t.hasUnits) := rfl
  unfold continueStage
  rw [hUnits]
  split
  · rfl
  · rfl

theorem continueStage_restaged {s s' t t' : Stage Float} (hs : s.Restaged ρ s')
    (ht : t.Restaged ρ t') : (continueStage s t).Restaged ρ (continueStage s' t') := by
  cases hs with
  | @renumber n hNumber =>
    cases ht with
    | @renumber m _ =>
      rw [continueStage_renumber s t n m]
      exact .renumber _ (by rwa [sequence_continueStage])

section

variable (hFaithful : Faithful ρ) {stages stages' : List (Stage Float)}
  (hStages : List.Forall₂ (Stage.Restaged ρ) stages stages')

include hFaithful hStages

theorem addElement_restaged {d d' : Decoded} (hd : d.Restaged ρ d') :
    List.Forall₂ (Stage.Restaged ρ) (addElement stages d) (addElement stages' d') := by
  have hGiven : Option.Rel ρ d.sequence d'.sequence := by
    cases hd with
    | renumber h => exact h
  refine forall₂_addElement (fun hs ht => hFaithful.eq_iff hs.number ht.number) hStages ?_ ?_ ?_
  · exact .renumber (.empty _) (rel_getD hGiven hFaithful.zero)
  · intro s s' hs
    exact .renumber (.empty _) (rel_getD hGiven hs.number)
  · intro s s' hs
    exact absorb_restaged hs hd

theorem addReference_restaged {referenced referenced' : List (Stage Float)}
    (hReferenced : List.Forall₂ (Stage.Restaged ρ) referenced referenced') :
    List.Forall₂ (Stage.Restaged ρ) (addReference stages referenced)
      (addReference stages' referenced') :=
  forall₂_addReference (fun hs ht => hFaithful.eq_iff hs.number ht.number) hStages
    continueStage_restaged hReferenced

end

/-- A record of a body does the same to the stages, under the numbers of both texts. -/
theorem restages_bodyRecord [Memory] {undecoded : Bool} {blockette : Nat}
    {d : { d : Decoder (List (Stage Float) → List (Stage Float)) // d.Advances }}
    (hd : bodyRecord? undecoded blockette = some d) :
    Restages ρ (fun update update' => ∀ stages stages',
      StagesRestaged ρ stages.reverse stages'.reverse →
        StagesRestaged ρ (update stages).reverse (update' stages').reverse) d.1 d.1 := by
  unfold bodyRecord? at hd
  split at hd
  · cases hd
    refine (restages_reference undecoded).map ?_
    intro referenced referenced' hReferenced stages stages' h
    constructor
    · rw [elements_addReference, elements_addReference, h.elements_eq,
        elements_eq_of_restaged hReferenced]
    · intro hFaithful
      exact List.rel_reverse (addReference_restaged hFaithful
        (List.forall₂_reverse_iff.mp (h.forall₂ hFaithful)) hReferenced)
  · obtain ⟨kind, -, rfl⟩ := Option.map_eq_some_iff.mp hd
    refine (restages_element kind .inline undecoded).map ?_
    intro element element' hElement stages stages' h
    constructor
    · rw [elements_addElement, elements_addElement, h.elements_eq]
      cases hElement
      rfl
    · intro hFaithful
      exact List.rel_reverse (addElement_restaged hFaithful
        (List.forall₂_reverse_iff.mp (h.forall₂ hFaithful)) hElement)

theorem restages_stagesFrom [Memory] (undecoded : Bool) (lines lines' : Nat)
    {stages stages' : List (Stage Float)}
    (hStages : StagesRestaged ρ stages.reverse stages'.reverse) {es es' : List Entry}
    (hes : List.Forall₂ (Entry.Restaged ρ) es es') :
    (stagesFrom undecoded lines stages es).Restaged ρ (StagesRestaged ρ)
      (stagesFrom undecoded lines' stages' es') := by
  -- a record takes any number of lines, so the induction is on how many are left
  induction hLength : es.length using Nat.strongRecOn generalizing es es' stages stages' with
  | ind length ih =>
    subst hLength
    cases hes with
    | nil =>
      rw [stagesFrom_nil, stagesFrom_nil]
      exact ⟨.ok hStages, .nil⟩
    | @cons e e' es es' he hes =>
      cases he with
      | damaged number text =>
        rw [stagesFrom_damaged, stagesFrom_damaged]
        exact ⟨.error rfl, hes⟩
      | @record l l' hl =>
        have hBlockette := hl.blockette_eq
        by_cases h50 : l.blockette = 50
        · rw [stagesFrom_station _ _ _ h50, stagesFrom_station _ _ _ (hBlockette.trans h50)]
          exact ⟨.ok hStages, .cons (.record hl) hes⟩
        · cases hd : bodyRecord? undecoded l.blockette with
          | none =>
            rw [stagesFrom_pass _ _ _ h50 hd,
              stagesFrom_pass _ _ _ (hBlockette ▸ h50) (hBlockette ▸ hd)]
            exact ih es.length (Nat.lt_succ_self _) hStages hes rfl
          | some d =>
            have hRecord := restages_bodyRecord hd lines lines' _ _ (.cons (.record hl) hes)
            rw [stagesFrom_record _ _ _ h50 hd,
              stagesFrom_record _ _ _ (hBlockette ▸ h50) (hBlockette ▸ hd)]
            refine restages_andThen hRecord ?_
            intro update update' hOk hUpdate
            exact ih _ (d.2 _ _ _ hOk) (hUpdate _ _ hStages) hRecord.rest rfl

theorem unitScaleOf_restaged {stages stages' : List (Stage Float)}
    (h : List.Forall₂ (Stage.Restaged ρ) stages stages') :
    unitScaleOf stages' = unitScaleOf stages := by
  induction h with
  | nil => rfl
  | @cons s s' stages stages' hs h ih =>
    cases hs with
    | @renumber n hNumber =>
      have hSame : ({ s with sequence := n } : Stage Float).hasUnits = s.hasUnits := rfl
      rw [unitScaleOf, unitScaleOf, List.find?_cons, List.find?_cons, hSame]
      cases s.hasUnits with
      | true => rfl
      | false => exact ih

end Decoder

/-- Channels of two texts: the same header and elements, and the same stages if the numbers allow
it. -/
structure ChannelRestaged (ρ : Nat → Nat → Prop) (c c' : Channel Float) : Prop where
  header_eq : { c' with stages := [], unitScale := 1 } = { c with stages := [], unitScale := 1 }
  stages : StagesRestaged ρ c.stages c'.stages
  unitScale_eq : Faithful ρ → c'.unitScale = c.unitScale

namespace Decoder

variable {ρ : Nat → Nat → Prop}

theorem restages_body [Memory] (undecoded : Bool) (c : Channel Float) :
    Restages ρ (ChannelRestaged ρ) (body undecoded c) (body undecoded c) := by
  have hNone : StagesRestaged ρ [].reverse [].reverse := ⟨rfl, fun _ => .nil⟩
  refine Restages.bind (fun lines lines' _ _ hes =>
    restages_stagesFrom undecoded lines lines' hNone hes) ?_
  intro stages stages' h
  refine restages_pure ⟨rfl, h, fun hFaithful => ?_⟩
  rw [unitScaleOf_restaged (h.forall₂ hFaithful)]

/-! ### Headers -/

theorem restages_location : Restages ρ Eq location location := by
  intro lines lines' es es' hes
  cases hes with
  | nil => exact ⟨.ok rfl, .nil⟩
  | @cons e e' es es' he hes =>
    cases he with
    | damaged number text => exact ⟨.error rfl, hes⟩
    | @record l l' hl =>
      rw [run_location_record, run_location_record, hl.isRecord_eq]
      by_cases hRecord : l.isRecord 52 3 = true
      · rw [if_pos hRecord, if_pos hRecord, hl.eq_of_isRecord hRecord rfl]
        exact ⟨alike_refl _, hes⟩
      · rw [if_neg hRecord, if_neg hRecord]
        exact ⟨.ok rfl, .cons (.record hl) hes⟩

theorem restages_header (l : Line) : Restages ρ Eq (header l) (header l) :=
  (restages_lift (alike_refl l.value)).then fun _ =>
    restages_read rfl Line.value fun _ =>
    restages_location.then fun _ =>
    restages_read rfl Line.value fun _ =>
    restages_read rfl Line.instant fun _ =>
    restages_read rfl Line.ending fun _ => restages_pure rfl

end Decoder

/-! ## Channels -/

variable {ρ : Nat → Nat → Prop}

/-- Items of two texts. -/
def Item.Restaged (ρ : Nat → Nat → Prop) (item item' : Item) : Prop :=
  Alike (ChannelRestaged ρ) item.result item'.result

/-- A channel of one text is one of the other text, under other numbers. -/
theorem exists_channel_restaged {items items' : List Item}
    (h : List.Forall₂ (Item.Restaged ρ) items items') {item : Item} (hItem : item ∈ items)
    {c : Channel Float} (hOk : item.result = .ok c) :
    ∃ item' ∈ items', ∃ c', item'.result = .ok c' ∧ ChannelRestaged ρ c c' := by
  induction h with
  | nil => cases hItem
  | @cons first first' items items' hFirst _ ih =>
    rcases List.mem_cons.mp hItem with rfl | hItem
    · rw [Item.Restaged, hOk] at hFirst
      generalize hResult : first'.result = result at hFirst
      cases hFirst with
      | ok hc => exact ⟨first', List.mem_cons_self, _, hResult, hc⟩
    · obtain ⟨item', hItem', hFound⟩ := ih hItem
      exact ⟨item', List.mem_cons_of_mem _ hItem', hFound⟩

section

variable [Memory] {select : Channel Float → Bool} {undecoded : Bool}
  {lines lines' : Nat}

theorem readChannel_restaged (l : Line) {es es' : List Entry}
    (hes : List.Forall₂ (Entry.Restaged ρ) es es') :
    List.Forall₂ (Item.Restaged ρ) (readChannel select undecoded lines l es).1.toList
        (readChannel select undecoded lines' l es').1.toList ∧
      List.Forall₂ (Entry.Restaged ρ) (readChannel select undecoded lines l es).2
        (readChannel select undecoded lines' l es').2 := by
  have hHead := Decoder.restages_header l lines lines' es es' hes
  unfold readChannel
  dsimp only
  generalize (Decoder.header l).run lines es = head at hHead ⊢
  generalize (Decoder.header l).run lines' es' = head' at hHead ⊢
  obtain ⟨units, result, rest⟩ := head
  obtain ⟨units', result', rest'⟩ := head'
  obtain ⟨hResult, hRest⟩ := hHead
  cases hResult with
  | error hClass => exact ⟨.cons (.error hClass) .nil, hRest⟩
  | @ok c c' hSame =>
    subst hSame
    dsimp only
    cases hSelect : select c with
    | true =>
      obtain ⟨hBody, hLeft⟩ := Decoder.restages_body undecoded c lines lines' rest rest' hRest
      exact ⟨.cons hBody .nil, hLeft⟩
    | false => exact ⟨.nil, hRest⟩

theorem channelsFrom_restaged {es es' : List Entry}
    (hes : List.Forall₂ (Entry.Restaged ρ) es es') :
    List.Forall₂ (Item.Restaged ρ) (channelsFrom select undecoded lines es)
      (channelsFrom select undecoded lines' es') := by
  induction hLength : es.length using Nat.strongRecOn generalizing es es' with
  | ind length ih =>
    subst hLength
    cases hes with
    | nil =>
      rw [channelsFrom, channelsFrom]
      exact .nil
    | @cons e e' es es' he hes =>
      cases he with
      | damaged number text =>
        rw [channelsFrom, channelsFrom]
        exact ih _ (Nat.lt_succ_self _) hes rfl
      | @record l l' hl =>
        by_cases hHeader : l.isHeader = true
        · rw [hl.eq_of_isRecord hHeader rfl, channelsFrom_header hHeader,
            channelsFrom_header hHeader]
          obtain ⟨hItem, hRest⟩ := readChannel_restaged l hes
          exact List.rel_append hItem
            (ih _ (Nat.lt_succ_of_le (length_rest_readChannel_le ..)) hRest rfl)
        · rw [channelsFrom, channelsFrom, if_neg hHeader, if_neg (hl.isHeader_eq ▸ hHeader)]
          exact ih _ (Nat.lt_succ_self _) hes rfl

/-- **Reading refuses no order of stages.**  Texts that differ in the numbers of the stages alone
have the same channels, but for these numbers, and faults of the same classes. -/
theorem channels_restaged {text text' : String}
    (hEntries : List.Forall₂ (Entry.Restaged ρ) (entries text) (entries text')) :
    List.Forall₂ (Item.Restaged ρ) (channels select undecoded text)
      (channels select undecoded text') := by
  unfold channels
  dsimp only
  generalize entries text = es at hEntries ⊢
  generalize entries text' = es' at hEntries ⊢
  cases hEntries with
  | nil => exact channelsFrom_restaged .nil
  | cons he hes =>
    cases he with
    | damaged number line => exact .cons (.error rfl) (channelsFrom_restaged hes)
    | record hl => exact channelsFrom_restaged (.cons (.record hl) hes)

end

end InstrumentResponse.Record
