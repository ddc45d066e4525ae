import InstrumentResponse.Proofs.Record.CountedTables

/-!
# The lines that a decoder consumes

An automaton runs over the lines that a decoder consumes.  `Walks` says from which state to which
one they lead it, for a decoder that succeeds; a decoder that is made of steps leads from state to
state as its steps do.

* `takeFrom_eq_ok`: a record that is found stands behind nothing but labels.
* `Walks.bind`: one step after another.
* `walks_take`, `walks_rows`: the two ways in which lines are consumed.
-/

namespace InstrumentResponse.Record.Decoder

variable {σ β γ : Type}

/-- The state of an automaton after some lines, none if it gets stuck. -/
def walk (step : σ → Line → Option σ) (p : σ) (ls : List Line) : Option σ := ls.foldlM step p

theorem walk_cons (step : σ → Line → Option σ) (p : σ) (l : Line) (ls : List Line) :
    walk step p (l :: ls) = (step p l).bind (walk step · ls) := rfl

theorem walk_append (step : σ → Line → Option σ) (p : σ) (a b : List Line) :
    walk step p (a ++ b) = (walk step p a).bind (walk step · b) := List.foldlM_append

/-- Labels that do not move the automaton. -/
theorem walk_eq_self {step : σ → Line → Option σ} {p : σ} {ls : List Line}
    (h : ∀ l ∈ ls, step p l = some p) : walk step p ls = some p := by
  induction ls with
  | nil => rfl
  | cons l ls ih =>
    rw [walk_cons, h l List.mem_cons_self]
    exact ih fun m hm => h m (List.mem_cons_of_mem _ hm)

/-- Where it succeeds, a decoder consumes record lines that lead from the state `p` to a state that
fits its answer. -/
def Walks (step : σ → Line → Option σ) (p : σ) (d : Decoder β) (Q : β → σ → Prop) : Prop :=
  ∀ lines es b, (d.run lines es).result = .ok b →
    ∃ (ls : List Line) (q : σ), es = ls.map .record ++ (d.run lines es).rest ∧
      walk step p ls = some q ∧ Q b q

variable {step : σ → Line → Option σ} {p : σ}

theorem walks_lift {x : Except ReadFault β} {Q : β → σ → Prop} (h : ∀ b, x = .ok b → Q b p) :
    Walks step p (lift x) Q := fun _ _ b hb => ⟨[], p, rfl, rfl, h b hb⟩

theorem walks_pure {b : β} {Q : β → σ → Prop} (h : Q b p) : Walks step p (pure b) Q :=
  walks_lift fun _ hc => by cases hc; exact h

theorem walks_fail {fault : ReadFault} {Q : β → σ → Prop} : Walks step p (fail fault) Q :=
  walks_lift fun _ hc => by cases hc

theorem walks_noteUnit (name : String) : Walks step p (noteUnit name) fun _ q => q = p :=
  fun _ _ _ _ => ⟨[], p, rfl, rfl, rfl⟩

theorem Walks.bind {d : Decoder β} {f : β → Decoder γ} {Q : β → σ → Prop} {Q' : γ → σ → Prop}
    (h : Walks step p d Q) (k : ∀ b q, Q b q → Walks step q (f b) Q') :
    Walks step p (d >>= f) Q' := by
  intro lines es c hc
  rw [run_bind] at hc ⊢
  have hd := h lines es
  generalize d.run lines es = r at hc hd ⊢
  obtain ⟨u, e | b, rest⟩ := r
  · cases hc
  · obtain ⟨ls, q, rfl, hw, hq⟩ := hd b rfl
    obtain ⟨ls', q', hrest, hw', hq'⟩ := k b q hq lines rest c hc
    refine ⟨ls ++ ls', q', ?_, ?_, hq'⟩
    · rw [List.map_append, List.append_assoc]
      exact congrArg _ hrest
    · rw [walk_append, hw]
      exact hw'

/-- What a step leads to does not depend on its answer. -/
theorem Walks.then {q : σ} {d : Decoder β} (h : Walks step p d fun _ r => r = q)
    {f : β → Decoder γ} {Q : γ → σ → Prop} (k : ∀ b, Walks step q (f b) Q) :
    Walks step p (d >>= f) Q :=
  h.bind fun b _ hr => hr ▸ k b

/-- A line is consumed, and something is read off it. -/
theorem Walks.then_lift {q : σ} {d : Decoder Line} (h : Walks step p d fun _ r => r = q)
    (g : Line → Except ReadFault β) {f : β → Decoder γ} {Q : γ → σ → Prop}
    (k : ∀ b, Walks step q (f b) Q) : Walks step p (d >>= fun l => lift (g l) >>= f) Q :=
  h.then fun _ => Walks.then (walks_lift fun _ _ => rfl) k

/-! ## Consuming lines -/

/-- A record that is found stands behind nothing but labels. -/
theorem takeFrom_eq_ok {blockette field lines : Nat} {es : List Entry} {l : Line}
    (h : (takeFrom blockette field lines es).result = .ok l) :
    ∃ labels : List Line,
      es = labels.map .record ++ .record l :: (takeFrom blockette field lines es).rest ∧
      (∀ m ∈ labels, isLabelBefore m blockette field = true) ∧
      l.isRecord blockette field = true := by
  induction es with
  | nil => cases h
  | cons e es ih =>
    cases e with
    | damaged n text => cases h
    | record m =>
      rw [takeFrom] at h ⊢
      by_cases hr : m.isRecord blockette field = true
      · rw [if_pos hr] at h ⊢
        cases h
        exact ⟨[], rfl, fun _ hm => absurd hm List.not_mem_nil, hr⟩
      · rw [if_neg hr] at h ⊢
        by_cases hb : isLabelBefore m blockette field = true
        · rw [if_pos hb] at h ⊢
          obtain ⟨labels, hes, hlabels, hl⟩ := ih h
          refine ⟨m :: labels, ?_, ?_, hl⟩
          · rw [List.map_cons, List.cons_append]
            exact congrArg _ hes
          · intro m' hm'
            rcases List.mem_cons.mp hm' with rfl | hm'
            · exact hb
            · exact hlabels m' hm'
        · rw [if_neg hb] at h
          cases h

theorem walks_take {blockette field : Nat} {Q : Line → σ → Prop}
    (hlabel : ∀ l, isLabelBefore l blockette field = true → step p l = some p)
    (hrecord : ∀ l, l.isRecord blockette field = true → ∃ q, step p l = some q ∧ Q l q) :
    Walks step p (take blockette field) Q := by
  intro lines es l hl
  obtain ⟨labels, hes, hlabels, hr⟩ := takeFrom_eq_ok hl
  obtain ⟨q, hstep, hq⟩ := hrecord l hr
  refine ⟨labels ++ [l], q, ?_, ?_, hq⟩
  · rw [List.map_append, List.append_assoc]
    exact hes
  · rw [walk_append, walk_eq_self fun m hm => hlabel m (hlabels m hm), Option.bind_some, walk_cons,
      hstep]
    rfl

theorem walks_rows {blockette field : Nat}
    (hrow : ∀ l, l.isRecord blockette field = true → step p l = some p) (count : Nat)
    (what : String) (row : Line → Except ReadFault β) :
    Walks step p (rows blockette field count what row) fun _ q => q = p := by
  intro lines es bs hbs
  obtain ⟨ls, hes, -, hRows⟩ := run_rows_eq_ok_iff.mp ⟨hbs, rfl⟩
  refine ⟨ls, p, hes, walk_eq_self ?_, rfl⟩
  intro l hl
  exact hrow l (isRecord_of_mem hRows l hl)

theorem walks_table [Memory] {blockette field : Nat}
    (hrow : ∀ l, l.isRecord blockette field = true → step p l = some p) (count : Nat)
    (what : String) (row : Line → Except ReadFault β) :
    Walks step p (table blockette field count what row) fun _ q => q = p := by
  unfold table
  by_cases h : Memory.canHold what count = true
  · rw [if_pos h]
    exact walks_rows hrow count what row
  · rw [if_neg h]
    exact walks_fail

end InstrumentResponse.Record.Decoder
