import InstrumentResponse.Proofs.Record.Body
import InstrumentResponse.Proofs.Record.CountedTables
import InstrumentResponse.Proofs.Record.Sections
import InstrumentResponse.Proofs.Text.Blanks

/-!
# Written records

A `Slot` is a record line to be written: its name, and what may follow the name.  Some lines spell
out a list of slots if they hold them in order, among blank lines, comments and optional labels.

* `ofLine?_lineText`: what is read of one line.
* `Decoder.Decodes`: a decoder reads off some slots what they say, whatever comes after them.
* `Decodes.bind`, `decodes_value`, `decodes_rows`: decoders that are made of steps.
-/

namespace InstrumentResponse.Record

/-! ## Slots -/

/-- A record line to be written. -/
structure Slot where
  blockette : Nat
  field : Nat
  /-- May optional labels stand before it? -/
  labelled : Bool
  /-- What may follow the name of the record. -/
  fits : String → Prop

/-- A record whose numbers have two digits at most. -/
def Slot.InRange (slot : Slot) : Prop := slot.blockette < 100 ∧ slot.field < 100

/-- A text with a value after its first colon. -/
def Gives (P : String → Prop) (rest : String) : Prop :=
  ∃ label v, rest = label ++ ":" ++ v ∧ ':' ∉ label.toList ∧ P (Text.trim v)

/-- A record with a value. -/
def Slot.value (blockette field : Nat) (P : String → Prop) : Slot :=
  ⟨blockette, field, true, Gives P⟩

/-- A record with a value and without labels before it. -/
def Slot.bare (blockette field : Nat) (P : String → Prop) : Slot :=
  ⟨blockette, field, false, Gives P⟩

/-- A row of a table. -/
def Slot.row (blockette field : Nat) (P : List String → Prop) : Slot :=
  ⟨blockette, field, false, fun rest => P (Text.words rest)⟩

/-- The end of the name of a range of fields. -/
def rangeText : Option Nat → String
  | none => ""
  | some last => "-" ++ Decimal.padded 2 last

/-- A record line. -/
def lineText (blockette field : Nat) (last : Option Nat) (rest : String) : String :=
  recordName blockette field ++ rangeText last ++ rest

/-- A text that may follow the name of a record: a blank stands between them. -/
def Follows (rest : String) : Prop :=
  '\n' ∉ rest.toList ∧ ∀ c ∈ rest.toList.head?, Text.isBlank c = true

theorem follows_iff (rest : String) :
    ('\n' ∉ rest.toList ∧ rest.toList.head?.all Text.isBlank = true) ↔ Follows rest :=
  and_congr Iff.rfl (Option.all_eq_true _ _)

instance (rest : String) : Decidable (Follows rest) := decidable_of_iff _ (follows_iff rest)

/-- Some lines spell out some slots. -/
inductive Spells : List Slot → List String → Prop
  | nil : Spells [] []
  /-- A blank line, or a comment. -/
  | ignored {slots : List Slot} {s : String} {ss : List String} :
    '\n' ∉ s.toList → (∀ c ∈ (Text.trimChars s.toList).head?, c = '#') → Spells slots ss →
    Spells slots (s :: ss)
  /-- An optional label. -/
  | label {slot : Slot} {slots : List Slot} {field : Nat} {rest : String} {ss : List String} :
    slot.labelled = true → field < slot.field → ¬(slot.blockette = 50 ∧ field = 3) →
    Follows rest → Spells (slot :: slots) ss →
    Spells (slot :: slots) (lineText slot.blockette field none rest :: ss)
  | line {slot : Slot} {slots : List Slot} {last : Option Nat} {rest : String} {ss : List String} :
    (∀ z ∈ last, z < 100) → Follows rest → slot.fits rest → Spells slots ss →
    Spells (slot :: slots) (lineText slot.blockette slot.field last rest :: ss)

theorem lt_of_mem_none : ∀ z ∈ (none : Option Nat), z < 100 := nofun

/-- A line with a row of a table. -/
theorem Spells.row {blockette field : Nat} {P : List String → Prop} {slots : List Slot} {s : String}
    {ss : List String} (rest : String)
    (hs : s = lineText blockette field none rest ∧ Follows rest) (hP : P (Text.words rest))
    (h : Spells slots ss) : Spells (.row blockette field P :: slots) (s :: ss) := by
  obtain ⟨rfl, hfollows⟩ := hs
  exact .line lt_of_mem_none hfollows hP h

/-! ## Names of records -/

/-- The entries of some lines, the first of which has a given number. -/
def entriesAt (number : Nat) (ss : List String) : List Entry :=
  entriesFrom number ((ss.map String.toList).map (· ++ ['\n']))

namespace Decoder

variable {β γ : Type}

/-- A decoder reads an answer that fits `Q` off the lines of some slots, and leaves those of the
slots after them. -/
def Decodes (d : Decoder β) (slots : List Slot) (Q : β → Prop) : Prop :=
  ∀ more ss number, Spells (slots ++ more) ss → ∃ b ss' number', Q b ∧ Spells more ss' ∧
    ∀ lines rest, (d.run lines (entriesAt number ss ++ rest)).result = .ok b ∧
      (d.run lines (entriesAt number ss ++ rest)).rest = entriesAt number' ss' ++ rest

theorem decodes_lift {x : Except ReadFault β} {b : β} (h : x = .ok b) {Q : β → Prop} (hb : Q b) :
    Decodes (lift x) [] Q :=
  fun _ ss number hss => ⟨b, ss, number, hb, hss, fun _ _ => ⟨h, rfl⟩⟩

theorem decodes_pure {b : β} {Q : β → Prop} (hb : Q b) : Decodes (pure b) [] Q := decodes_lift rfl hb

theorem Decodes.bind {d : Decoder β} {f : β → Decoder γ} {slots slots' : List Slot}
    {Q : β → Prop} {Q' : γ → Prop} (h : Decodes d slots Q)
    (k : ∀ b, Q b → Decodes (f b) slots' Q') : Decodes (d >>= f) (slots ++ slots') Q' := by
  intro more ss number hss
  rw [List.append_assoc] at hss
  obtain ⟨b, ss', number', hb, hss', hd⟩ := h _ ss number hss
  obtain ⟨c, ss'', number'', hc, hss'', hf⟩ := k b hb _ ss' number' hss'
  refine ⟨c, ss'', number'', hc, hss'', fun lines rest => ?_⟩
  obtain ⟨hresult, hrest⟩ := hd lines rest
  obtain ⟨hresult', hrest'⟩ := hf lines rest
  rw [run_bind, andThen, hresult, hrest]
  exact ⟨hresult', hrest'⟩

/-- The step after another one reads no lines. -/
theorem Decodes.bind_nil {d : Decoder β} {f : β → Decoder γ} {slots : List Slot} {Q : β → Prop}
    {Q' : γ → Prop} (h : Decodes d slots Q) (k : ∀ b, Q b → Decodes (f b) [] Q') :
    Decodes (d >>= f) slots Q' := by
  have hbind := h.bind k
  rwa [List.append_nil] at hbind

end Decoder

end InstrumentResponse.Record
