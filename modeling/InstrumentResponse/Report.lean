import InstrumentResponse.Fault

/-!
# Reports and steps

Work ends with a result or a fault, and with the warnings that came up before, which a fault does
not take back: that is a `Report`.  A `Step` is work on a channel that also leaves the channel
changed, whether it succeeds or not.
-/

namespace InstrumentResponse

/-- The warnings and the outcome of some work over scalars `α`. -/
structure Report (α β : Type) where
  warnings : List (Warning α)
  result : Except (Fault α) β

namespace Report

variable {α β γ : Type}

/-- A result without warnings. -/
def done (b : β) : Report α β := ⟨[], .ok b⟩

/-- A fault without warnings. -/
def fail (fault : Fault α) : Report α β := ⟨[], .error fault⟩

/-- A warning. -/
def warn (w : Warning α) : Report α Unit := ⟨[w], .ok ()⟩

/-- A result or a fault, without warnings. -/
def ofExcept (result : Except (Fault α) β) : Report α β := ⟨[], result⟩

/-- More work on a result. -/
def andThen (r : Report α β) (next : β → Report α γ) : Report α γ :=
  match r.result with
  | .error fault => ⟨r.warnings, .error fault⟩
  | .ok b => ⟨r.warnings ++ (next b).warnings, (next b).result⟩

instance : Monad (Report α) where
  pure := done
  bind := andThen

end Report

/-- Work on a channel: the channel as it is left, and the report. -/
def Step (α β : Type) : Type := Channel α → Channel α × Report α β

namespace Step

variable {α β γ : Type}

/-- A report on a channel that is left as it is. -/
def ofReport (report : Channel α → Report α β) : Step α β := fun c => (c, report c)

/-- More work, on the channel that the first one leaves. -/
def andThen (first : Step α β) (next : β → Step α γ) : Step α γ := fun c =>
  match first c with
  | (c, ⟨warnings, .error fault⟩) => (c, ⟨warnings, .error fault⟩)
  | (c, ⟨warnings, .ok b⟩) =>
    let (c, report) := next b c
    (c, ⟨warnings ++ report.warnings, report.result⟩)

instance : Monad (Step α) where
  pure b := ofReport fun _ => .done b
  bind := andThen

end Step

end InstrumentResponse
