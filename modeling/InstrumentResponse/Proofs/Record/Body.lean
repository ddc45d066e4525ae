import Mathlib.Data.List.Forall2
import InstrumentResponse.Record.Stream

/-!
# Steps of reading a channel

`absorb_of_hasUnits` and `absorb_of_units` say which units a stage has after one more element;
`sequence_absorb` and `sequence_continueStage` that it keeps its number.  `forall₂_addElement` and
`forall₂_addReference` carry a relation between the stages of two bodies along.
`andThen_eq_ok` takes a step and the one after it apart, and `run_location_record` says when the
location line is read.  `stagesFrom` reads one record after another.  The lemmas about it say what it
does with the next line: it ends before one of blockette 50, passes over a blockette that is not
part of a chain, and goes on after a record of a chain with the stages as that record leaves them.
-/

namespace InstrumentResponse.Record

theorem Kind.ofBlockette?_blockette (kind : Kind) (form : Form) :
    Kind.ofBlockette? form (kind.blockette form) = some kind := by
  cases kind <;> cases form <;> rfl

/-! ## Stages -/

theorem absorb_of_units_none {d : Decoded} (h : d.units = none) (s : Stage Float) :
    absorb s d = { s with elements := s.elements ++ [d.element] } := by
  rw [absorb, h]

theorem absorb_of_hasUnits {s : Stage Float} (h : s.hasUnits = true) (d : Decoded) :
    absorb s d = { s with elements := s.elements ++ [d.element] } := by
  unfold absorb
  cases d.units with
  | none => rfl
  | some u => exact if_pos h

theorem absorb_of_units {s : Stage Float} (h : s.hasUnits = false) {d : Decoded} {u : Units}
    (hd : d.units = some u) :
    absorb s d = ⟨s.sequence, u.input, u.output, u.inputName, s.elements ++ [d.element]⟩ := by
  unfold absorb
  rw [hd]
  exact if_neg (by simpa [Stage.hasUnits] using h)

theorem sequence_absorb (s : Stage Float) (d : Decoded) : (absorb s d).sequence = s.sequence := by
  unfold absorb
  cases d.units with
  | none => rfl
  | some u =>
    dsimp only
    split <;> rfl

theorem elements_absorb (s : Stage Float) (d : Decoded) :
    (absorb s d).elements = s.elements ++ [d.element] := by
  unfold absorb
  cases d.units with
  | none => rfl
  | some u =>
    dsimp only
    split <;> rfl

namespace Decoder

theorem sequence_continueStage (s t : Stage Float) :
    (continueStage s t).sequence = s.sequence := by
  unfold continueStage
  split
  · rfl
  · rfl

theorem elements_continueStage (s t : Stage Float) :
    (continueStage s t).elements = s.elements ++ t.elements := by
  unfold continueStage
  split
  · rfl
  · rfl

section

variable {T : Stage Float → Stage Float → Prop} {stages stages' : List (Stage Float)}
  (hSame : ∀ {s s' t t'}, T s s' → T t t' → (s.sequence = t.sequence ↔ s'.sequence = t'.sequence))
  (hStages : List.Forall₂ T stages stages')

include hSame hStages

/-- An element goes to two bodies that are related stage by stage, and they stay so. -/
theorem forall₂_addElement {d d' : Decoded}
    (hFirst : T (.empty (d.sequence.getD 0)) (.empty (d'.sequence.getD 0)))
    (hOpen : ∀ {s s'}, T s s' →
      T (.empty (d.sequence.getD s.sequence)) (.empty (d'.sequence.getD s'.sequence)))
    (hAbsorb : ∀ {s s'}, T s s' → T (absorb s d) (absorb s' d')) :
    List.Forall₂ T (addElement stages d) (addElement stages' d') := by
  cases hStages with
  | nil => exact .cons (hAbsorb hFirst) .nil
  | @cons last last' earlier earlier' hLast hEarlier =>
    have hGoesOn : last.sequence = d.sequence.getD last.sequence ↔
        last'.sequence = d'.sequence.getD last'.sequence := hSame hLast (hOpen hLast)
    rw [addElement, addElement]
    by_cases h : last.sequence = d.sequence.getD last.sequence
    · rw [if_pos h, if_pos (hGoesOn.mp h)]
      exact .cons (hAbsorb hLast) hEarlier
    · rw [if_neg h, if_neg (mt hGoesOn.mpr h)]
      exact .cons (hAbsorb (hOpen hLast)) (.cons hLast hEarlier)

/-- The stages of a reference go to two bodies that are related stage by stage, and they stay so. -/
theorem forall₂_addReference
    (hContinue : ∀ {s s' t t'}, T s s' → T t t' → T (continueStage s t) (continueStage s' t'))
    {referenced referenced' : List (Stage Float)}
    (hReferenced : List.Forall₂ T referenced referenced') :
    List.Forall₂ T (addReference stages referenced) (addReference stages' referenced') := by
  cases hStages with
  | nil => exact List.rel_append (List.rel_reverse hReferenced) .nil
  | @cons last last' earlier earlier' hLast hEarlier =>
    cases hReferenced with
    | nil => exact .cons hLast hEarlier
    | @cons first first' others others' hFirst hOthers =>
      rw [addReference, addReference]
      by_cases h : last.sequence = first.sequence
      · rw [if_pos h, if_pos ((hSame hLast hFirst).mp h)]
        exact List.rel_append (List.rel_reverse hOthers) (.cons (hContinue hLast hFirst) hEarlier)
      · rw [if_neg h, if_neg (mt (hSame hLast hFirst).mpr h)]
        exact List.rel_append (List.rel_reverse (.cons hFirst hOthers)) (.cons hLast hEarlier)

end

/-- Both of two steps succeed if the second one is to answer. -/
theorem andThen_eq_ok {β γ : Type} {r : Reply β} {f : β → List Entry → Reply γ} {c : γ}
    (h : (andThen r f).result = .ok c) :
    ∃ b, r.result = .ok b ∧ (f b r.rest).result = .ok c ∧
      (andThen r f).rest = (f b r.rest).rest := by
  obtain ⟨u, e | b, rest⟩ := r
  · cases h
  · exact ⟨b, rfl, h, rfl⟩

theorem result_run_map {β γ : Type} (f : β → γ) (d : Decoder β) (lines : Nat) (es : List Entry) :
    ((f <$> d).run lines es).result = (d.run lines es).result.map f := by
  show (andThen (d.run lines es) fun b rest => ⟨[], .ok (f b), rest⟩).result = _
  rcases d.run lines es with ⟨u, e | b, rest⟩ <;> rfl

theorem rest_run_map {β γ : Type} (f : β → γ) (d : Decoder β) (lines : Nat) (es : List Entry) :
    ((f <$> d).run lines es).rest = (d.run lines es).rest := by
  show (andThen (d.run lines es) fun b rest => ⟨[], .ok (f b), rest⟩).rest = _
  rcases d.run lines es with ⟨u, e | b, rest⟩ <;> rfl

theorem except_map_eq_ok {ε β γ : Type} {f : β → γ} {x : Except ε β} {c : γ}
    (h : x.map f = .ok c) : ∃ b, x = .ok b ∧ f b = c := by
  cases x with
  | error e => cases h
  | ok b => exact ⟨b, rfl, Except.ok.inj h⟩

/-! ## Bodies -/

variable (undecoded : Bool) (lines : Nat) (stages : List (Stage Float))

@[simp] theorem stagesFrom_nil [Memory] :
    stagesFrom undecoded lines stages [] = ⟨[], .ok stages.reverse, []⟩ := by
  rw [stagesFrom]

@[simp] theorem stagesFrom_damaged [Memory] (number : Nat) (text : String) (rest : List Entry) :
    stagesFrom undecoded lines stages (.damaged number text :: rest) =
      ⟨[], .error (.line number 0 0 text .malformed), rest⟩ := by
  rw [stagesFrom]

theorem stagesFrom_station [Memory] {l : Line} (h : l.blockette = 50) (rest : List Entry) :
    stagesFrom undecoded lines stages (.record l :: rest) =
      ⟨[], .ok stages.reverse, .record l :: rest⟩ := by
  rw [stagesFrom, if_pos h]

theorem stagesFrom_pass [Memory] {l : Line} (h : l.blockette ≠ 50)
    (hd : bodyRecord? undecoded l.blockette = none) (rest : List Entry) :
    stagesFrom undecoded lines stages (.record l :: rest) =
      stagesFrom undecoded lines stages rest := by
  rw [stagesFrom, if_neg h]
  split
  · rfl
  · next hs => rw [hd] at hs; cases hs

theorem bodyRecord?_kind [Memory] {undecoded : Bool} {kind : Kind} {blockette : Nat}
    (h60 : blockette ≠ 60) (hk : Kind.ofBlockette? .inline blockette = some kind) :
    bodyRecord? undecoded blockette =
      some ⟨(fun d stages => addElement stages d) <$> element kind .inline undecoded,
        (advances_element kind undecoded).map _⟩ := by
  rw [bodyRecord?, if_neg h60, hk, Option.map_some]

theorem bodyRecord?_none [Memory] {undecoded : Bool} {blockette : Nat} (h60 : blockette ≠ 60)
    (hk : Kind.ofBlockette? .inline blockette = none) : bodyRecord? undecoded blockette = none := by
  rw [bodyRecord?, if_neg h60, hk, Option.map_none]

/-- A record of a chain changes the stages, and the loop goes on after it. -/
theorem stagesFrom_record [Memory] {l : Line} (h : l.blockette ≠ 50)
    {d : { d : Decoder (List (Stage Float) → List (Stage Float)) // d.Advances }}
    (hd : bodyRecord? undecoded l.blockette = some d) (rest : List Entry) :
    stagesFrom undecoded lines stages (.record l :: rest) =
      andThen (d.1.run lines (.record l :: rest)) fun update rest =>
        stagesFrom undecoded lines (update stages) rest := by
  rw [stagesFrom, if_neg h]
  split
  · next hs => rw [hd] at hs; cases hs
  · next d' hs =>
    rw [hd] at hs
    cases hs
    dsimp only [andThen]
    split <;> split <;> simp_all

/-- The location line is read if it is there, and otherwise nothing is. -/
theorem run_location_record (l : Line) (rest : List Entry) :
    location.run lines (.record l :: rest) =
      if l.isRecord 52 3 then ⟨[], l.value.map optionalCode, rest⟩
      else ⟨[], .ok "", .record l :: rest⟩ := by
  unfold location
  rw [run_bind]
  show andThen ⟨[], .ok (some l), .record l :: rest⟩ _ = _
  by_cases h : l.isRecord 52 3 = true
  · simp only [andThen, if_pos h, run_bind, skip]
    cases l.value <;> rfl
  · simp only [andThen, if_neg h]
    rfl

end Decoder

end InstrumentResponse.Record
