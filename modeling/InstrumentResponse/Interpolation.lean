import InstrumentResponse.Phase
import InstrumentResponse.Report
import InstrumentResponse.Spline

/-!
# Response lists at other frequencies

`ResponseList.interpolate` gives the rows of a table at requested frequencies, by splines through
the amplitudes and the unwrapped phases.  Requests outside the table are dropped, except that those
just outside are moved to its ends.
-/

namespace InstrumentResponse

variable {α : Type} [Scalar α]

/-- Is `f` beyond an end of a table by less than a millionth of it? -/
def justBeyond (bound f : α) : Bool :=
  decide (Scalar.abs (f - bound) < Scalar.abs bound * (1 / (1000000 : Nat)))

/-- A requested frequency as a table from `low` to `high` can serve it. -/
def clip? (low high f : α) : Option α :=
  if f < low && justBeyond low f then some low
  else if high < f && justBeyond high f then some high
  else if low ≤ f ∧ f ≤ high then some f
  else none

/-- The requested frequencies that a table from `low` to `high` can serve. -/
def clipAll (low high : α) (requested : List α) : Report α (List α) := do
  let kept := requested.filterMap (clip? low high)
  if kept.isEmpty then .fail (.outsideList requested.length low high)
  else
    let dropped := requested.length - kept.length
    if dropped = 0 then return kept
    .warn (.frequenciesClipped dropped low high)
    return kept

namespace ResponseList

/-- The same rows in the opposite order. -/
def reverse (l : ResponseList α) : ResponseList α :=
  ⟨l.frequencies.reverse, l.amplitudes.reverse, l.phases.reverse⟩

/-- The rows from the lower end to the upper. -/
def ascending (l : ResponseList α) : ResponseList α :=
  match l.frequencies.head?, l.frequencies.getLast? with
  | some first, some last => if last < first then l.reverse else l
  | _, _ => l

/-- The least of the tabulated amplitudes. -/
def leastAmplitude? (l : ResponseList α) : Option α :=
  match l.amplitudes with
  | [] => none
  | a :: rest => some (rest.foldl Scalar.smaller a)

/-- Amplitudes from which the overshoot of a spline is taken: in a table of positive ones, all that
are not become a tenth of the least. -/
def raised (l : ResponseList α) (amplitudes : List α) : List α :=
  match l.leastAmplitude? with
  | none => amplitudes
  | some least => if 0 < least then amplitudes.map fun a => if a ≤ 0 then least / 10 else a else amplitudes

/-- The curve through one column of a table. -/
def fitColumn (l : ResponseList α) (column : List α) : Report α (Spline α) :=
  .ofExcept ((Spline.fit l.frequencies column).mapError .config)

/-- The rows at the requested frequencies that a table can serve. -/
def interpolate (list : ResponseList α) (requested : List α) : Report α (ResponseList α) := do
  let l := list.ascending
  match l.frequencies.head?, l.frequencies.getLast? with
  | some low, some high =>
    let frequencies ← clipAll low high requested
    if l.frequencies.length = 1 then
      let constant (column : List α) : List α := frequencies.map fun _ => column.headD 0
      return ⟨frequencies, constant l.amplitudes, constant l.phases⟩
    let amplitudeCurve ← l.fitColumn l.amplitudes
    let (phases, moved) := Phase.unwrap l.phases
    let phaseCurve ← l.fitColumn phases
    let interpolated := frequencies.map phaseCurve.evaluate
    return ⟨frequencies, l.raised (frequencies.map amplitudeCurve.evaluate),
      if moved then interpolated.map Phase.wrap else interpolated⟩
  | _, _ => .fail (.outsideList requested.length 0 0)

end ResponseList

end InstrumentResponse
