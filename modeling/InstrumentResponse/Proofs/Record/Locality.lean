import Mathlib.Data.List.Forall2
import InstrumentResponse.Proofs.Record.Renumbering
import InstrumentResponse.Record.Stream

/-!
# Decoders do not look behind a header

The lines of a channel may stand alone, or be followed by the header of another channel.  A decoder
is *local* if that makes no difference to it: it answers alike, and the lines that it leaves are the
same, apart from those of the other channel.

* `Decoder.Local`: two decoders read lines that differ in their numbers alike, whether a header
  comes after them or nothing.
* `Decoder.Local.bind`: what is made of local steps is local.
* `Decoder.local_take`, `Decoder.local_table`: consuming lines is local.
* `Decoder.local_element`: reading an element is local.
-/

namespace InstrumentResponse.Record

/-- Nothing is left, or a header comes next. -/
def Stops (tail : List Entry) : Prop := ∀ e ∈ tail.head?, e.isHeader = true

/-- Two replies are alike: that to `es` with `tail` behind them, and that to the same lines under
other numbers with nothing behind them. -/
structure Reply.Alike {β γ : Type} (R : β → γ → Prop) (es tail : List Entry) (r : Reply β)
    (r' : Reply γ) : Prop where
  result : Record.Alike R r.result r'.result
  rest : ∃ left, r.rest = left ++ tail ∧ left <:+ es ∧ List.Forall₂ Entry.Same left r'.rest

namespace Decoder

variable {β γ δ ε : Type} {R : β → γ → Prop} {S : δ → ε → Prop}

/-- Two decoders read the lines of a channel alike, whether a header comes after them or nothing. -/
def Local (R : β → γ → Prop) (d : Decoder β) (d' : Decoder γ) : Prop :=
  ∀ lines lines' es es' tail, List.Forall₂ Entry.Same es es' → Headless es → Stops tail →
    (d.run lines (es ++ tail)).Alike R es tail (d'.run lines' es')

/-- A decoder reads the lines of a channel alike in both texts. -/
abbrev IsLocal (d : Decoder β) : Prop := Local Eq d d

theorem local_lift {x : Except ReadFault β} {y : Except ReadFault γ} (h : Alike R x y) :
    Local R (lift x) (lift y) :=
  fun _ _ es _ _ hs _ _ => ⟨h, es, rfl, List.suffix_refl es, hs⟩

theorem local_pure (b : β) : IsLocal (pure b : Decoder β) := local_lift (.ok rfl)

theorem local_fail {e e' : ReadFault} (h : e.faultClass = e'.faultClass) :
    Local R (fail e) (fail e') := local_lift (.error h)

theorem local_noteUnit (name : String) : IsLocal (noteUnit name) :=
  fun _ _ es _ _ hs _ _ => ⟨.ok rfl, es, rfl, List.suffix_refl es, hs⟩

/-- One step after another: what is left of the first one is read alike by the second one. -/
theorem alike_andThen {es tail : List Entry} {r : Reply β} {r' : Reply γ}
    {f : β → List Entry → Reply δ} {f' : γ → List Entry → Reply ε} (h : r.Alike R es tail r')
    (k : ∀ b c left left', r.result = .ok b → r.rest = left ++ tail → R b c → left <:+ es →
      List.Forall₂ Entry.Same left left' → (f b (left ++ tail)).Alike S left tail (f' c left')) :
    (andThen r f).Alike S es tail (andThen r' f') := by
  obtain ⟨u, result, rest⟩ := r
  obtain ⟨u', result', rest'⟩ := r'
  obtain ⟨hresult, left, rfl, hleft, hsame⟩ := h
  cases hresult with
  | error he => exact ⟨.error he, left, rfl, hleft, hsame⟩
  | ok hb =>
    obtain ⟨hresult, left₂, hrest₂, hleft₂, hsame₂⟩ := k _ _ left rest' rfl rfl hb hleft hsame
    exact ⟨hresult, left₂, hrest₂, hleft₂.trans hleft, hsame₂⟩

theorem Local.bind {d : Decoder β} {d' : Decoder γ} {f : β → Decoder δ} {f' : γ → Decoder ε}
    (h : Local R d d') (k : ∀ b c, R b c → Local S (f b) (f' c)) :
    Local S (d >>= f) (d' >>= f') := by
  intro lines lines' es es' tail hs hn ht
  refine alike_andThen (h lines lines' es es' tail hs hn ht) ?_
  intro b c left left' _ _ hb hleft hsame
  exact k b c hb lines lines' left left' tail hsame (hn.suffix hleft) ht

theorem IsLocal.bind {d : Decoder β} {f : β → Decoder δ} {f' : β → Decoder ε} (h : IsLocal d)
    (k : ∀ b, Local S (f b) (f' b)) : Local S (d >>= f) (d >>= f') :=
  Local.bind h fun b _ hb => hb ▸ k b

theorem IsLocal.map {d : Decoder β} (h : IsLocal d) (f : β → δ) : IsLocal (f <$> d) :=
  h.bind fun b => local_pure (f b)

/-! ## Consuming lines -/

/-- The fields that are read are not those of the line that opens a channel. -/
def Inner (blockette field : Nat) : Prop := ¬ (blockette = 50 ∧ field = 3)

theorem not_isRecord_of_isHeader {l : Line} {blockette field : Nat} (h : l.isHeader = true)
    (hi : Inner blockette field) : l.isRecord blockette field = false := by
  by_contra hc
  simp only [Line.isHeader, Line.isRecord, Bool.and_eq_true, beq_iff_eq] at h
  simp only [Line.isRecord, Bool.not_eq_false, Bool.and_eq_true, beq_iff_eq] at hc
  exact hi ⟨by omega, by omega⟩

theorem Stops.cases {tail : List Entry} (h : Stops tail) :
    tail = [] ∨ ∃ l rest, tail = .record l :: rest ∧ l.isHeader = true := by
  rcases tail with _ | ⟨l | ⟨n, text⟩, rest⟩
  · exact .inl rfl
  · exact .inr ⟨l, rest, rfl, h (.record l) rfl⟩
  · exact absurd (h (.damaged n text) rfl) (by simp [Entry.isHeader])

/-- Lines are the same line under two numbers. -/
def SameLine (l l' : Line) : Prop := ∃ n, l' = l.renumbered n

/-- Where no line of the channel is left, the line of a record is missed in both texts. -/
theorem takeFrom_stops {blockette field : Nat} (hi : Inner blockette field) (lines : Nat)
    {tail : List Entry} (ht : Stops tail) :
    ∃ fault, takeFrom blockette field lines tail = ⟨[], .error fault, tail⟩ ∧
      fault.faultClass = .line := by
  rcases Stops.cases ht with rfl | ⟨l, rest, rfl, hl⟩
  · exact ⟨_, rfl, rfl⟩
  · refine ⟨l.refuse (.mismatch blockette field), ?_, rfl⟩
    have hlabel : isLabelBefore l blockette field = false := by simp [isLabelBefore, hl]
    simp [takeFrom, not_isRecord_of_isHeader hl hi, hlabel]

theorem local_take {blockette field : Nat} (hi : Inner blockette field) :
    Local SameLine (take blockette field) (take blockette field) := by
  intro lines lines' es es' tail hs hn ht
  show (takeFrom blockette field lines (es ++ tail)).Alike _ es tail
    (takeFrom blockette field lines' es')
  induction hs with
  | nil =>
    obtain ⟨fault, hf, hclass⟩ := takeFrom_stops hi lines ht
    rw [List.nil_append, hf]
    exact ⟨.error hclass, [], rfl, List.suffix_refl _, .nil⟩
  | @cons e e' es es' he hs ih =>
    have hn' : Headless es := hn.suffix (List.suffix_cons e es)
    cases he with
    | damaged m n text =>
      exact ⟨.error rfl, es, rfl, List.suffix_cons _ _, hs⟩
    | record l n =>
      rw [List.cons_append, takeFrom, takeFrom]
      have hr : (l.renumbered n).isRecord blockette field = l.isRecord blockette field := rfl
      have hb : isLabelBefore (l.renumbered n) blockette field = isLabelBefore l blockette field :=
        rfl
      rw [hr, hb]
      by_cases h1 : l.isRecord blockette field = true
      · rw [if_pos h1, if_pos h1]
        exact ⟨.ok ⟨n, rfl⟩, es, rfl, List.suffix_cons _ _, hs⟩
      · rw [if_neg h1, if_neg h1]
        by_cases h2 : isLabelBefore l blockette field = true
        · rw [if_pos h2, if_pos h2]
          obtain ⟨hresult, left, hrest, hleft, hsame⟩ := ih hn'
          exact ⟨hresult, left, hrest, hleft.trans (List.suffix_cons _ _), hsame⟩
        · rw [if_neg h2, if_neg h2]
          exact ⟨.error rfl, .record l :: es, rfl, List.suffix_refl _, .cons (.record l n) hs⟩

/-- Where no line of the channel is left, a row is missed in both texts. -/
theorem rowsFrom_stops {blockette field : Nat} (hi : Inner blockette field) (what : String)
    (row : Line → Except ReadFault β) (found left : Nat) {tail : List Entry} (ht : Stops tail) :
    rowsFrom blockette field what row found (left + 1) tail =
      ⟨[], .error (.truncated what found (found + (left + 1))), tail⟩ := by
  rcases Stops.cases ht with rfl | ⟨l, rest, rfl, hl⟩
  · rfl
  · simp [rowsFrom, not_isRecord_of_isHeader hl hi]

theorem local_rows {blockette field : Nat} (hi : Inner blockette field) (count : Nat)
    (what : String) {row : Line → Except ReadFault β} (hrow : Line.Steady row) :
    IsLocal (rows blockette field count what row) := by
  intro lines lines' es es' tail hs hn ht
  show (rowsFrom blockette field what row 0 count (es ++ tail)).Alike _ es tail
    (rowsFrom blockette field what row 0 count es')
  generalize 0 = found
  induction hs generalizing found count with
  | nil =>
    cases count with
    | zero => exact ⟨.ok rfl, [], rfl, List.suffix_refl _, .nil⟩
    | succ left =>
      rw [List.nil_append, rowsFrom_stops hi what row found left ht]
      exact ⟨.error rfl, [], rfl, List.suffix_refl _, .nil⟩
  | @cons e e' es es' he hs ih =>
    have hn' : Headless es := hn.suffix (List.suffix_cons e es)
    cases count with
    | zero => exact ⟨.ok rfl, e :: es, rfl, List.suffix_refl _, .cons he hs⟩
    | succ left =>
      cases he with
      | damaged m n text => exact ⟨.error rfl, es, rfl, List.suffix_cons _ _, hs⟩
      | record l n =>
        rw [List.cons_append, rowsFrom, rowsFrom]
        have hr : (l.renumbered n).isRecord blockette field = l.isRecord blockette field := rfl
        rw [hr]
        by_cases h1 : l.isRecord blockette field = true
        · rw [if_pos h1, if_pos h1]
          have hl := hrow l n
          generalize row l = x at hl ⊢
          generalize row (l.renumbered n) = y at hl ⊢
          cases hl with
          | error hclass => exact ⟨.error hclass, es, rfl, List.suffix_cons _ _, hs⟩
          | @ok b b' hb =>
            subst hb
            obtain ⟨hresult, rest, hrest, hleft, hsame⟩ := ih left hn' (found + 1)
            exact ⟨hresult.map (b :: ·), rest, hrest, hleft.trans (List.suffix_cons _ _), hsame⟩
        · rw [if_neg h1, if_neg h1]
          exact ⟨.error rfl, .record l :: es, rfl, List.suffix_refl _, .cons (.record l n) hs⟩

theorem local_table [Memory] {blockette field : Nat} (hi : Inner blockette field) (count : Nat)
    (what : String) {row : Line → Except ReadFault β} (hrow : Line.Steady row) :
    IsLocal (table blockette field count what row) := by
  unfold table
  by_cases h : Memory.canHold what count = true
  · rw [if_pos h]
    exact local_rows hi count what hrow
  · rw [if_neg h]
    exact local_fail rfl

/-! ## Blockettes -/

/-- The line of a record, what it holds, and what is read after it. -/
theorem local_take_lift {blockette field : Nat} (hi : Inner blockette field)
    {g : Line → Except ReadFault β} (hg : Line.Steady g) {f : β → Decoder δ}
    {f' : β → Decoder ε}
    (k : ∀ b, Local S (f b) (f' b)) :
    Local S (take blockette field >>= fun l => lift (g l) >>= f)
      (take blockette field >>= fun l => lift (g l) >>= f') := by
  refine (local_take hi).bind ?_
  rintro l _ ⟨n, rfl⟩
  exact (local_lift (hg l n)).bind fun b _ hb => hb ▸ k b

theorem local_value {blockette field : Nat} (hi : Inner blockette field)
    {g : Line → Except ReadFault β} (hg : Line.Steady g) :
    IsLocal (take blockette field >>= fun l => lift (g l)) := by
  refine (local_take hi).bind ?_
  rintro l _ ⟨n, rfl⟩
  exact local_lift (hg l n)

theorem local_decimal {blockette field : Nat} (hi : Inner blockette field) :
    IsLocal (decimal blockette field) := local_value hi Line.blind_decimal.steady

theorem local_count {blockette field : Nat} (hi : Inner blockette field) :
    IsLocal (count blockette field) := local_value hi Line.blind_count.steady

theorem local_code {blockette field : Nat} (hi : Inner blockette field) :
    IsLocal (code blockette field) := local_value hi Line.blind_code.steady

theorem local_sequence (form : Form) {blockette field : Nat} (hi : Inner blockette field) :
    IsLocal (sequence form blockette field) := by
  cases form with
  | inline => exact local_take_lift hi Line.blind_sequence.steady fun n => local_pure (some n)
  | dictionary => exact local_pure none

theorem local_unit (undecoded : Bool) {blockette field : Nat} (hi : Inner blockette field) :
    IsLocal (unit undecoded blockette field) := by
  refine local_take_lift hi Line.blind_value.steady fun name => ?_
  cases undecoded with
  | true => exact local_pure _
  | false =>
    by_cases h : Quantity.read name = .undefined
    · simp only [Bool.false_eq_true, if_false, if_pos h]
      exact (local_noteUnit name).bind fun _ => local_pure _
    · simp only [Bool.false_eq_true, if_false, if_neg h]
      exact local_pure _

theorem local_units (undecoded : Bool) {blockette field : Nat} (hi : ∀ f, Inner blockette f) :
    IsLocal (units undecoded blockette field) :=
  (local_unit undecoded (hi _)).bind fun _ => (local_unit undecoded (hi _)).bind fun _ =>
    local_pure _

theorem inner_blockette (kind : Kind) (form : Form) (field : Nat) :
    Inner (kind.blockette form) field := by
  rintro ⟨h, -⟩
  revert h
  cases kind <;> cases form <;> decide

/-- Every element is read alike, from either form of its blockette. -/
theorem local_element [Memory] (kind : Kind) (form : Form) (undecoded : Bool) :
    IsLocal (element kind form undecoded) := by
  have hi := inner_blockette kind form
  cases kind with
  | poleZero =>
    exact local_take_lift (hi _) Line.blind_plane.steady fun _ =>
      (local_sequence form (hi _)).bind fun _ =>
      (local_units undecoded hi).bind fun _ =>
      (local_decimal (hi _)).bind fun _ =>
      (local_decimal (hi _)).bind fun _ =>
      (local_count (hi _)).bind fun _ =>
      (local_count (hi _)).bind fun _ =>
      (local_table (hi _) _ _ Line.blind_root.steady).bind fun _ =>
      (local_table (hi _) _ _ Line.blind_root.steady).bind fun _ => local_pure _
  | coefficients =>
    exact local_take_lift (hi _) (Line.blind_expectType _ _).steady fun _ =>
      (local_sequence form (hi _)).bind fun _ =>
      (local_units undecoded hi).bind fun _ =>
      (local_count (hi _)).bind fun _ =>
      (local_count (hi _)).bind fun _ =>
      (local_table (hi _) _ _ Line.blind_indexedValue.steady).bind fun _ =>
      (local_table (hi _) _ _ Line.blind_indexedValue.steady).bind fun _ => local_pure _
  | list =>
    exact (local_sequence form (hi _)).bind fun _ =>
      (local_units undecoded hi).bind fun _ =>
      (local_count (hi _)).bind fun _ =>
      (local_table (hi _) _ _ Line.blind_listRow.steady).bind fun _ => local_pure _
  | generic =>
    exact (local_sequence form (hi _)).bind fun _ =>
      (local_units undecoded hi).bind fun _ =>
      (local_count (hi _)).bind fun _ =>
      (local_table (hi _) _ _ Line.blind_corner.steady).bind fun _ => local_pure _
  | decimation =>
    exact (local_sequence form (hi _)).bind fun _ =>
      (local_decimal (hi _)).bind fun _ =>
      local_take_lift (hi _) (Line.blind_smallCount _).steady fun _ =>
      local_take_lift (hi _) (Line.blind_smallCount _).steady fun _ =>
      (local_decimal (hi _)).bind fun _ =>
      (local_decimal (hi _)).bind fun _ => local_pure _
  | gain =>
    exact (local_sequence form (hi _)).bind fun _ =>
      (local_decimal (hi _)).bind fun _ =>
      (local_decimal (hi _)).bind fun _ =>
      (local_count (hi _)).bind fun _ =>
      (local_rows (hi _) _ _ (Line.blind_ok ()).steady).bind fun _ => local_pure _
  | fir =>
    exact (local_sequence form (hi _)).bind fun _ =>
      local_take_lift (hi _) Line.blind_symmetry.steady fun _ =>
      (local_units undecoded hi).bind fun _ =>
      (local_count (hi _)).bind fun _ =>
      (local_table (hi _) _ _ Line.blind_indexedValue.steady).bind fun _ => local_pure _
  | polynomial =>
    exact local_take_lift (hi _) (Line.blind_expectType _ _).steady fun _ =>
      (local_sequence form (hi _)).bind fun _ =>
      (local_units undecoded hi).bind fun _ =>
      (local_code (hi _)).bind fun _ =>
      (local_code (hi _)).bind fun _ =>
      (local_decimal (hi _)).bind fun _ =>
      (local_decimal (hi _)).bind fun _ =>
      (local_decimal (hi _)).bind fun _ =>
      (local_decimal (hi _)).bind fun _ =>
      (local_decimal (hi _)).bind fun _ =>
      (local_count (hi _)).bind fun _ =>
      (local_table (hi _) _ _ Line.blind_coefficientRow.steady).bind fun _ => local_pure _

end Decoder

end InstrumentResponse.Record
