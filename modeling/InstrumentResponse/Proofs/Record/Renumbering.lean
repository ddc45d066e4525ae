import InstrumentResponse.Record.Blockette

/-!
# Lines under other numbers

The number of a line depends on what stands before it in its text.  It shows in faults, and nowhere
else.

* `Alike`: both outcomes are results in a relation, or faults of one class.
* `Line.Blind`: what a line is found to hold does not depend on its number, which shows in faults
  only; `Line.Steady`: two numbers make no difference to it, apart from those faults.
* `blind_root`, `blind_listRow` and the lemmas around them: this holds of all values and rows of
  blockettes.
-/

namespace InstrumentResponse.Record

/-! ## Outcomes -/

/-- The classes of faults. -/
inductive FaultClass where
  /-- A line is refused, or missing. -/
  | line
  /-- A table is not as long as it is declared, or longer than can be held. -/
  | table
deriving DecidableEq, Repr

def ReadFault.faultClass : ReadFault → FaultClass
  | line .. => .line
  | unreservable .. | truncated .. => .table

/-- A fault without the number of its line. -/
def ReadFault.unnumbered : ReadFault → ReadFault
  | .line _ blockette field text cause => .line 0 blockette field text cause
  | .unreservable what count => .unreservable what count
  | .truncated what found count => .truncated what found count

theorem ReadFault.faultClass_unnumbered (fault : ReadFault) :
    fault.unnumbered.faultClass = fault.faultClass := by
  cases fault <;> rfl

/-- Two outcomes are alike: results in a relation, or faults of one class. -/
inductive Alike {β γ : Type} (R : β → γ → Prop) :
    Except ReadFault β → Except ReadFault γ → Prop
  | ok {b : β} {c : γ} : R b c → Alike R (.ok b) (.ok c)
  | error {e e' : ReadFault} : e.faultClass = e'.faultClass → Alike R (.error e) (.error e')

instance {β γ : Type} (R : β → γ → Prop) [∀ b c, Decidable (R b c)] :
    ∀ x y, Decidable (Alike R x y)
  | .ok b, .ok c => decidable_of_iff (R b c) ⟨.ok, fun | .ok h => h⟩
  | .error e, .error e' =>
    decidable_of_iff (e.faultClass = e'.faultClass) ⟨.error, fun | .error h => h⟩
  | .ok _, .error _ => isFalse nofun
  | .error _, .ok _ => isFalse nofun

section

variable {β δ : Type} {x y : Except ReadFault β}

/-- Outcomes that differ in the numbers of lines only are alike. -/
theorem Alike.of_unnumbered
    (h : x.mapError ReadFault.unnumbered = y.mapError ReadFault.unnumbered) : Alike Eq x y := by
  rcases x with e | b <;> rcases y with e' | b'
  · have hFault : e.unnumbered = e'.unnumbered := Except.error.inj h
    refine .error ?_
    rw [← e.faultClass_unnumbered, hFault, e'.faultClass_unnumbered]
  · cases h
  · cases h
  · exact .ok (Except.ok.inj h)

theorem Alike.map (h : Alike Eq x y) (f : β → δ) : Alike Eq (x.map f) (y.map f) := by
  cases h with
  | ok hb => exact .ok (congrArg f hb)
  | error he => exact .error he

end

/-! ## Lines under other numbers -/

/-- A line under another number. -/
def Line.renumbered (l : Line) (number : Nat) : Line := { l with number }

/-- Entries that differ in their numbers only. -/
inductive Entry.Same : Entry → Entry → Prop
  | record (l : Line) (number : Nat) : Same (.record l) (.record (l.renumbered number))
  | damaged (m n : Nat) (text : String) : Same (.damaged m text) (.damaged n text)

/-- The first line of a channel. -/
def Entry.isHeader : Entry → Bool
  | record l => l.isHeader
  | damaged .. => false

theorem Entry.Same.isHeader_eq {e e' : Entry} (h : Entry.Same e e') : e'.isHeader = e.isHeader := by
  cases h <;> rfl

theorem Entry.Same.refl (e : Entry) : Entry.Same e e := by
  cases e with
  | record l => exact .record l l.number
  | damaged n text => exact .damaged n n text

/-- No line opens a channel. -/
def Headless (es : List Entry) : Prop := ∀ e ∈ es, e.isHeader = false

theorem Headless.suffix {left es : List Entry} (h : Headless es) (hs : left <:+ es) :
    Headless left := fun e he => h e (hs.mem he)

namespace Line

variable {β γ : Type}

/-- What a line is found to hold does not depend on its number. -/
def Steady (g : Line → Except ReadFault β) : Prop :=
  ∀ l n, Alike Eq (g l) (g (l.renumbered n))

/-- A line without its number is found to hold the same, with faults without a number. -/
def Blind (g : Line → Except ReadFault β) : Prop :=
  ∀ l, g (l.renumbered 0) = (g l).mapError ReadFault.unnumbered

theorem Blind.steady {g : Line → Except ReadFault β} (h : Blind g) : Steady g :=
  fun l n => .of_unnumbered ((h l).symm.trans (h (l.renumbered n)))

theorem blind_ok (b : β) : Blind fun _ => .ok b := fun _ => rfl

theorem blind_refuse (cause : Cause) : Blind (β := β) fun l => .error (l.refuse cause) :=
  fun _ => rfl

theorem Blind.bind {g : Line → Except ReadFault β} {k : Line → β → Except ReadFault γ}
    (hg : Blind g) (hk : ∀ b, Blind (k · b)) : Blind fun l => g l >>= k l := by
  intro l
  show g (l.renumbered 0) >>= k (l.renumbered 0) = (g l >>= k l).mapError ReadFault.unnumbered
  rw [hg l]
  cases g l with
  | error fault => rfl
  | ok b => exact hk b l

theorem blind_ite {p : Prop} [Decidable p] {g k : Line → Except ReadFault β} (hg : Blind g)
    (hk : Blind k) : Blind fun l => if p then g l else k l := by
  by_cases h : p
  · simpa only [if_pos h] using hg
  · simpa only [if_neg h] using hk

theorem blind_value : Blind value := by
  intro l
  show value { l with number := 0 } = (value l).mapError ReadFault.unnumbered
  simp only [value]
  rcases Text.cutAt ':' l.rest.toList with ⟨_, _ | cs⟩
  · exact blind_refuse .noSeparator l
  · rfl

theorem blind_firstWord : Blind firstWord := by
  refine blind_value.bind fun s => ?_
  rcases Text.words s with _ | ⟨word, _⟩
  · exact blind_refuse .emptyValue
  · exact blind_ok word

theorem blind_numberOf (word : String) : Blind (numberOf · word) := by
  unfold numberOf
  rcases Decimal.readDouble? word with _ | x
  · exact blind_refuse (.notNumber word)
  · exact blind_ite (blind_ok x) (blind_refuse (.notNumber word))

theorem blind_decimal : Blind decimal := blind_firstWord.bind blind_numberOf

theorem blind_integer : Blind integer := by
  refine blind_firstWord.bind fun word => ?_
  rcases Decimal.readSigned64? word with _ | n
  · exact blind_refuse (.notInteger word)
  · exact blind_ok n

theorem blind_count : Blind count :=
  blind_integer.bind fun n => blind_ite (blind_refuse (.negativeCount n)) (blind_ok n.toNat)

theorem blind_smallCount (refusal : Int → Cause) : Blind (smallCount · refusal) :=
  blind_integer.bind fun n => blind_ite (blind_ok n.toNat) (blind_refuse (refusal n))

theorem blind_code : Blind code := by
  refine blind_firstWord.bind fun word => ?_
  rcases word.toList with _ | ⟨c, _⟩
  · exact blind_refuse .emptyValue
  · exact blind_ok _

theorem blind_numberAt (position : Nat) : Blind (numberAt · position) := by
  intro l
  show numberAt { l with number := 0 } position =
    (numberAt l position).mapError ReadFault.unnumbered
  simp only [numberAt, tokens]
  rcases (Text.words l.rest)[position]? with _ | word
  · exact blind_refuse (.missingValue (position + 1)) l
  · exact blind_numberOf word l

/-! ### Values and rows of blockettes -/

theorem blind_sequence : Blind sequence := blind_smallCount .sequenceNumber

theorem blind_plane : Blind plane := by
  refine blind_code.bind fun c => ?_
  split
  · exact blind_ok _
  · exact blind_ok _
  · exact blind_ok _
  · exact blind_refuse (.transferType c)

theorem blind_symmetry : Blind symmetry := by
  refine blind_code.bind fun c => ?_
  split
  · exact blind_ok _
  · exact blind_ok _
  · exact blind_ok _
  · exact blind_refuse (.symmetryCode c)

theorem blind_expectType (expected : Char) (refusal : Char → Cause) :
    Blind (expectType · expected refusal) :=
  blind_code.bind fun c => blind_ite (blind_ok ()) (blind_refuse (refusal c))

/-- Which position of a row is looked at may depend on how many values it has. -/
theorem blind_of_tokens {g : Line → Except ReadFault β}
    (p : List String → Line → Except ReadFault β)
    (hg : ∀ l, g l = p l.tokens l) (hp : ∀ ts, Blind (p ts)) : Blind g := by
  intro l
  rw [hg, hg]
  exact hp l.tokens l

theorem blind_indexedValue : Blind indexedValue :=
  blind_of_tokens (fun ts l => l.numberAt (if 2 ≤ ts.length then 1 else 0)) (fun _ => rfl)
    fun _ => blind_numberAt _

theorem blind_indexedError : Blind indexedError :=
  blind_of_tokens (fun ts l => if 3 ≤ ts.length then l.numberAt 2 else .ok 0) (fun _ => rfl)
    fun _ => blind_ite (blind_numberAt 2) (blind_ok 0)

theorem blind_root : Blind root :=
  (blind_numberAt 1).bind fun re => (blind_numberAt 2).bind fun im => blind_ok (Phasor.mk re im)

/-- The values of a row of a response list from a position on. -/
theorem blind_listValues (offset : Nat) : Blind fun l => do
    let frequency ← l.numberAt offset
    let amplitude ← l.numberAt (offset + 1)
    let phase ← l.numberAt (offset + 3)
    return (frequency, amplitude, phase) :=
  (blind_numberAt _).bind fun frequency => (blind_numberAt _).bind fun amplitude =>
    (blind_numberAt _).bind fun phase => blind_ok (frequency, amplitude, phase)

theorem blind_listRow : Blind listRow := by
  intro l
  have htokens : (l.renumbered 0).tokens = l.tokens := rfl
  unfold listRow
  rw [htokens]
  split
  · exact blind_listValues 1 l
  · exact blind_listValues 0 l
  · exact blind_refuse _ l

theorem blind_corner : Blind corner :=
  blind_of_tokens (fun ts l => do
    let offset := if 3 ≤ ts.length then 1 else 0
    let frequency ← l.numberAt offset
    let slope ← l.numberAt (offset + 1)
    return (frequency, slope)) (fun _ => rfl) fun _ =>
      (blind_numberAt _).bind fun frequency => (blind_numberAt _).bind fun slope =>
        blind_ok (frequency, slope)

theorem blind_coefficientRow : Blind coefficientRow :=
  blind_indexedValue.bind fun value => blind_indexedError.bind fun error =>
    blind_ok (value, error)

end Line

end InstrumentResponse.Record
