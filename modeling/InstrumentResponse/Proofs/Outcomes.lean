import InstrumentResponse.Report

/-!
# Results and faults

How results and faults pass through work that is done one after the other.

* `Report.result_bind_eq_ok`, `Step.bind_of_ok`: the outcome of a report or a step and the next one;
  `Step.bind_congr`: steps after the same one matter only where it succeeds.
* `Report.FaultsAre`: a property of the faults that some work can end with.
* `faultOf?`: the fault of a computation; `faultOf?_foldlM`, `faultOf?_mapM`: a computation over a
  list has the first fault that comes up.
* `mapM_cons_eq_ok`, `mapM_eq_ok_zipWith`: the results of a computation over a list.
-/

namespace InstrumentResponse

/-! ## Reports and steps -/

/-- Both parts of some work succeed if the whole does. -/
theorem Report.result_bind_eq_ok {α β γ : Type} {r : Report α β} {next : β → Report α γ} {c : γ} :
    (r >>= next).result = .ok c ↔ ∃ b, r.result = .ok b ∧ (next b).result = .ok c := by
  show (r.andThen next).result = .ok c ↔ _
  rcases r with ⟨warnings, fault | b⟩ <;> simp [Report.andThen]

theorem Report.result_bind_of_ok {α β γ : Type} {r : Report α β} {b : β} (hr : r.result = .ok b)
    (next : β → Report α γ) : (r >>= next).result = (next b).result := by
  show (r.andThen next).result = _
  rw [Report.andThen, hr]

theorem Report.result_bind_of_error {α β γ : Type} {r : Report α β} {fault : Fault α}
    (hr : r.result = .error fault) (next : β → Report α γ) :
    (r >>= next).result = .error fault := by
  show (r.andThen next).result = _
  rw [Report.andThen, hr]

theorem Report.exists_bind_eq_ok {α β γ : Type} {r : Report α β} {next : β → Report α γ} {b : β}
    (hr : r.result = .ok b) (h : ∃ c, (next b).result = .ok c) :
    ∃ c, (r >>= next).result = .ok c := by
  obtain ⟨c, hc⟩ := h
  exact ⟨c, Report.result_bind_eq_ok.mpr ⟨b, hr, hc⟩⟩

theorem Step.bind_of_ok {α β γ : Type} {step : Step α β} {c : Channel α} {b : β}
    (h : (step c).2.result = .ok b) (next : β → Step α γ) :
    ((step >>= next) c).1 = (next b (step c).1).1 ∧
      ((step >>= next) c).2.result = (next b (step c).1).2.result := by
  change (Step.andThen step next c).1 = _ ∧ (Step.andThen step next c).2.result = _
  rw [Step.andThen]
  generalize step c = r at h ⊢
  rcases r with ⟨d, warnings, result⟩
  cases h
  exact ⟨rfl, rfl⟩

theorem Step.exists_of_bind_ok {α β γ : Type} {step : Step α β} {next : β → Step α γ}
    {c : Channel α} {x : γ} (h : ((step >>= next) c).2.result = .ok x) :
    ∃ b, (step c).2.result = .ok b := by
  change (Step.andThen step next c).2.result = _ at h
  rw [Step.andThen] at h
  generalize step c = r at h ⊢
  rcases r with ⟨d, warnings, fault | b⟩
  · cases h
  · exact ⟨b, rfl⟩

/-- What follows on a step matters only where the step succeeds. -/
theorem Step.bind_congr {α β γ : Type} {step : Step α β} {next next' : β → Step α γ} {c : Channel α}
    (h : ∀ b, (step c).2.result = .ok b → next b (step c).1 = next' b (step c).1) :
    (step >>= next) c = (step >>= next') c := by
  show Step.andThen step next c = Step.andThen step next' c
  rw [Step.andThen, Step.andThen]
  generalize step c = r at h ⊢
  rcases r with ⟨d, warnings, fault | b⟩
  · rfl
  · dsimp only
    rw [h b rfl]

/-! ## Faults of reports -/

namespace Report

variable {α β γ : Type} {P : Fault α → Prop}

/-- Whatever fault some work ends with has a property. -/
def FaultsAre (P : Fault α → Prop) (r : Report α β) : Prop :=
  ∀ fault, r.result = .error fault → P fault

theorem faultsAre_of_ok {r : Report α β} {b : β} (h : r.result = .ok b) : r.FaultsAre P := by
  intro fault hFault
  rw [h] at hFault
  cases hFault

theorem faultsAre_error {warnings : List (Warning α)} {fault : Fault α} (h : P fault) :
    FaultsAre P (⟨warnings, .error fault⟩ : Report α β) := by
  rintro _ ⟨⟩
  exact h

theorem FaultsAre.bind {r : Report α β} {next : β → Report α γ} (h : r.FaultsAre P)
    (hNext : ∀ b, r.result = .ok b → (next b).FaultsAre P) : (r >>= next).FaultsAre P := by
  intro fault hFault
  rcases r with ⟨warnings, e | b⟩
  · cases hFault
    exact h fault rfl
  · exact hNext b rfl fault hFault

theorem faultsAre_foldlM {step : γ → β → Report α γ} (h : ∀ c b, (step c b).FaultsAre P)
    (l : List β) (c : γ) : (l.foldlM step c).FaultsAre P := by
  induction l generalizing c with
  | nil => exact faultsAre_of_ok rfl
  | cons b l ih => exact (h c b).bind fun c' _ => ih c'

end Report

/-! ## Faults of computations -/

section Faults

variable {ε β γ : Type}

/-- The fault of a computation that has no result. -/
def faultOf? : Except ε β → Option ε
  | .error fault => some fault
  | .ok _ => none

theorem faultOf?_eq_some_iff {x : Except ε β} {fault : ε} :
    faultOf? x = some fault ↔ x = .error fault := by
  cases x with
  | error e => rw [faultOf?, Option.some.injEq, Except.error.injEq]
  | ok b => exact ⟨nofun, nofun⟩

theorem faultOf?_eq_none_iff {x : Except ε β} : faultOf? x = none ↔ ∃ b, x = .ok b := by
  cases x with
  | error e => exact ⟨nofun, nofun⟩
  | ok b => exact ⟨fun _ => ⟨b, rfl⟩, fun _ => rfl⟩

theorem faultOf?_map (f : β → γ) (x : Except ε β) : faultOf? (x.map f) = faultOf? x := by
  cases x <;> rfl

/-- A computation has its own fault, or that of the next one. -/
theorem faultOf?_bind {x : Except ε β} {next : β → Except ε γ} {fault : Option ε}
    (h : ∀ b, faultOf? (next b) = fault) : faultOf? (x >>= next) = (faultOf? x).or fault := by
  cases x with
  | error e => rfl
  | ok b => exact h b

theorem faultOf?_bind_pure (x : Except ε β) (f : β → γ) :
    faultOf? (x >>= fun b => pure (f b)) = faultOf? x := by
  cases x <;> rfl

/-- A computation along a list has the first fault that comes up. -/
theorem faultOf?_foldlM (fault : β → Option ε) {step : γ → β → Except ε γ} {l : List β}
    (h : ∀ b ∈ l, ∀ c, faultOf? (step c b) = fault b) (c : γ) :
    faultOf? (l.foldlM step c) = l.findSome? fault := by
  induction l generalizing c with
  | nil => rfl
  | cons b l ih =>
    obtain ⟨hb, hRest⟩ := List.forall_mem_cons.mp h
    rw [List.foldlM_cons, faultOf?_bind (ih hRest), hb c, List.findSome?_cons]
    cases fault b <;> rfl

/-- A computation for each element of a list has the first fault that comes up. -/
theorem faultOf?_mapM (fault : β → Option ε) {f : β → Except ε γ} {l : List β}
    (h : ∀ b ∈ l, faultOf? (f b) = fault b) : faultOf? (l.mapM f) = l.findSome? fault := by
  induction l with
  | nil => rfl
  | cons b l ih =>
    obtain ⟨hb, hRest⟩ := List.forall_mem_cons.mp h
    have hOthers : ∀ c, faultOf? (l.mapM f >>= fun cs => pure (c :: cs)) = l.findSome? fault := by
      intro c
      rw [faultOf?_bind_pure, ih hRest]
    rw [List.mapM_cons, faultOf?_bind hOthers, hb, List.findSome?_cons]
    cases fault b <;> rfl

theorem mapM_cons_eq_ok {f : β → Except ε γ} {b : β} {l : List β} {results : List γ} :
    (b :: l).mapM f = .ok results ↔
      ∃ c cs, f b = .ok c ∧ l.mapM f = .ok cs ∧ results = c :: cs := by
  rw [List.mapM_cons]
  cases hFirst : f b with
  | error e => exact ⟨nofun, fun ⟨_, _, h, _⟩ => nomatch h⟩
  | ok c =>
    cases hRest : l.mapM f with
    | error e => exact ⟨nofun, fun ⟨_, _, _, h, _⟩ => nomatch h⟩
    | ok cs =>
      constructor
      · intro h
        cases h
        exact ⟨c, cs, rfl, rfl, rfl⟩
      · rintro ⟨_, _, ⟨⟩, ⟨⟩, rfl⟩
        rfl

theorem length_of_mapM_eq_ok {f : β → Except ε γ} {l : List β} {results : List γ}
    (h : l.mapM f = .ok results) : results.length = l.length := by
  induction l generalizing results with
  | nil =>
    cases h
    rfl
  | cons b l ih =>
    obtain ⟨c, cs, -, hRest, rfl⟩ := mapM_cons_eq_ok.mp h
    rw [List.length_cons, List.length_cons, ih hRest]

/-- Where the results of two computations give that of a third one, so do their lists. -/
theorem mapM_eq_ok_zipWith {δ ζ : Type} {op : γ → δ → ζ} {f : β → Except ε γ} {g : β → Except ε δ}
    {k : β → Except ε ζ} (h : ∀ b c d, f b = .ok c → g b = .ok d → k b = .ok (op c d))
    {l : List β} {cs : List γ} {ds : List δ} (hf : l.mapM f = .ok cs) (hg : l.mapM g = .ok ds) :
    l.mapM k = .ok (cs.zipWith op ds) := by
  induction l generalizing cs ds with
  | nil =>
    cases hf
    cases hg
    rfl
  | cons b l ih =>
    obtain ⟨c, cs, hc, hcs, rfl⟩ := mapM_cons_eq_ok.mp hf
    obtain ⟨d, ds, hd, hds, rfl⟩ := mapM_cons_eq_ok.mp hg
    exact mapM_cons_eq_ok.mpr ⟨_, _, h b c d hc hd, ih hcs hds, List.zipWith_cons_cons⟩

/-- Where all faults are the same, there is one if any element has it. -/
theorem findSome?_ite (p : β → Bool) (fault : Option ε) (l : List β) :
    (l.findSome? fun b => if p b then fault else none) = if l.any p then fault else none := by
  induction l with
  | nil => rfl
  | cons b l ih =>
    rw [List.findSome?_cons, List.any_cons, ih]
    cases p b <;> cases fault <;> simp

end Faults

end InstrumentResponse
