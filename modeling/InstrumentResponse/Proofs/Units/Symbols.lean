import InstrumentResponse.Proofs.Chain.UndecodedUnits

/-!
# The symbols of ground motions

A unit description is told by how it begins.  For ground motions that is a matter of its leading
symbol: a symbol of meters, with the tail of a velocity or an acceleration or without one.

* `leadingSymbol`: the symbol that a description begins with; `groundMotion?_leadingSymbol`: nothing
  behind it counts.
* `motionSymbols`: the symbols of each ground motion; `Begins`: symbols that begin with one.
* `read_of_leadingSymbol`: which descriptions are read as which ground motion.  Every symbol of
  `motionSymbols` is read as its motion, but so is every other symbol that begins with one.
-/

namespace InstrumentResponse.Quantity

/-! ## Symbols -/

/-- The characters of unit symbols. -/
def isSymbolChar (c : Char) : Bool := c.isAlphanum || c == '/' || c == '*' || c == '^'

/-- The symbol that a description begins with. -/
def leadingSymbol (name : String) : List Char := (symbol name).takeWhile isSymbolChar

/-- The symbols of meters, centi-, milli- and nanometers. -/
def meters : List String := ["M", "CM", "MM", "NM"]

/-- What a symbol of meters is followed by in the symbols of a ground motion. -/
def tails : Quantity → List String
  | displacement => [""]
  | velocity => ["/S", "/SEC"]
  | acceleration => ["/S**2", "/SEC**2"]
  | _ => []

/-- The symbols of a ground motion. -/
def motionSymbols (q : Quantity) : List String :=
  (tails q).flatMap fun tail => meters.map (· ++ tail)

/-- Does a text begin with a symbol of a ground motion? -/
def Begins (q : Quantity) (cs : List Char) : Prop := ∃ s ∈ motionSymbols q, s.toList <+: cs

/-! ## Beginnings -/

theorem startsMeter_iff {tail cs : List Char} :
    startsMeter tail cs = true ↔ ∃ m ∈ meters, m.toList ++ tail <+: cs := by
  have hM : "M".toList = ['M'] := rfl
  have hCM : "CM".toList = ['C', 'M'] := rfl
  have hMM : "MM".toList = ['M', 'M'] := rfl
  have hNM : "NM".toList = ['N', 'M'] := rfl
  simp only [meters, List.mem_cons, List.not_mem_nil, or_false, exists_eq_or_imp, exists_eq_left,
    hM, hCM, hMM, hNM, List.cons_append, List.nil_append]
  cases cs with
  | nil => simp [startsMeter]
  | cons c rest =>
    simp only [startsMeter, Bool.or_eq_true, Bool.and_eq_true, beq_iff_eq,
      List.isPrefixOf_iff_prefix, List.cons_prefix_cons]
    tauto

theorem begins_iff {q : Quantity} {cs : List Char} :
    Begins q cs ↔ ∃ tail ∈ tails q, startsMeter tail.toList cs = true := by
  simp only [Begins, motionSymbols, List.mem_flatMap, List.mem_map, startsMeter_iff]
  constructor
  · rintro ⟨s, ⟨tail, hTail, m, hm, rfl⟩, h⟩
    exact ⟨tail, hTail, m, hm, String.toList_append ▸ h⟩
  · rintro ⟨tail, hTail, m, hm, h⟩
    exact ⟨m ++ tail, ⟨tail, hTail, m, hm, rfl⟩, String.toList_append ▸ h⟩

theorem startsMeter_mono {tail longer cs : List Char} (hTail : tail <+: longer)
    (h : startsMeter longer cs = true) : startsMeter tail cs = true := by
  obtain ⟨m, hm, hPrefix⟩ := startsMeter_iff.mp h
  exact startsMeter_iff.mpr ⟨m, hm, ((List.prefix_append_right_inj _).mpr hTail).trans hPrefix⟩

theorem begins_acceleration_iff {cs : List Char} : Begins acceleration cs ↔
    (startsMeter "/S**2".toList cs || startsMeter "/SEC**2".toList cs) = true := by
  simp [begins_iff, tails]

/-- The second symbol of a velocity begins with the first one. -/
theorem begins_velocity_iff {cs : List Char} :
    Begins velocity cs ↔ startsMeter "/S".toList cs = true := by
  have hSec : startsMeter "/SEC".toList cs = true → startsMeter "/S".toList cs = true :=
    startsMeter_mono (by decide)
  simp only [begins_iff, tails, List.mem_cons, List.not_mem_nil, or_false, exists_eq_or_imp,
    exists_eq_left]
  exact or_iff_left_of_imp hSec

theorem begins_displacement_iff {cs : List Char} :
    Begins displacement cs ↔ startsMeter [] cs = true := by
  simp [begins_iff, tails]

theorem Begins.toVelocity {cs : List Char} (h : Begins acceleration cs) : Begins velocity cs := by
  rw [begins_acceleration_iff, Bool.or_eq_true] at h
  rw [begins_velocity_iff]
  rcases h with h | h
  · exact startsMeter_mono (by decide) h
  · exact startsMeter_mono (by decide) h

theorem Begins.toDisplacement {cs : List Char} (h : Begins velocity cs) : Begins displacement cs :=
  begins_displacement_iff.mpr (startsMeter_mono List.nil_prefix (begins_velocity_iff.mp h))

/-! ## What is read -/

/-- The ground motion that a text begins with is the one with the longest tail. -/
theorem groundMotion?_eq_some_iff {cs : List Char} {q : Quantity} : groundMotion? cs = some q ↔
    q = acceleration ∧ Begins acceleration cs ∨
      q = velocity ∧ Begins velocity cs ∧ ¬ Begins acceleration cs ∨
      q = displacement ∧ Begins displacement cs ∧ ¬ Begins velocity cs := by
  have hAcceleration : Begins acceleration cs → Begins velocity cs := Begins.toVelocity
  rw [groundMotion?]
  split_ifs with hAcc hVel hDis
  all_goals rw [← begins_acceleration_iff] at hAcc
  · simp [hAcc, hAcc.toVelocity, eq_comm]
  all_goals rw [← begins_velocity_iff] at hVel
  · simp [hAcc, hVel, eq_comm]
  all_goals rw [← begins_displacement_iff] at hDis
  · simp [hAcc, hVel, hDis, eq_comm]
  · simp [hAcc, hVel, hDis]

theorem isGroundMotion_of_groundMotion? {cs : List Char} {q : Quantity}
    (h : groundMotion? cs = some q) : q.isGroundMotion = true := by
  rcases groundMotion?_eq_some_iff.mp h with ⟨rfl, _⟩ | ⟨rfl, _⟩ | ⟨rfl, _⟩ <;> rfl

/-- Symbols of ground motions are made of characters of symbols, so that a text begins with one if
its leading symbol does. -/
theorem begins_takeWhile_iff {q : Quantity} {cs : List Char} :
    Begins q (cs.takeWhile isSymbolChar) ↔ Begins q cs := by
  have hAll : (motionSymbols q).all (·.toList.all isSymbolChar) = true := by cases q <;> decide
  have hChars : ∀ s ∈ motionSymbols q, ∀ c ∈ s.toList, isSymbolChar c = true := by
    simpa only [List.all_eq_true] using hAll
  constructor
  · rintro ⟨s, hs, h⟩
    exact ⟨s, hs, h.trans (List.takeWhile_prefix _)⟩
  · rintro ⟨s, hs, h⟩
    obtain ⟨rest, rfl⟩ := h
    refine ⟨s, hs, ?_⟩
    rw [List.takeWhile_append_of_pos (hChars s hs)]
    exact List.prefix_append _ _

/-- Nothing behind the leading symbol counts. -/
theorem groundMotion?_takeWhile (cs : List Char) :
    groundMotion? (cs.takeWhile isSymbolChar) = groundMotion? cs := by
  refine Option.ext fun q => ?_
  simp only [groundMotion?_eq_some_iff, begins_takeWhile_iff]

/-- No symbol of meters is a beginning that tells a pressure, a flux density or a temperature. -/
theorem groundMotion?_of_isPrefixOf {s : String} {cs : List Char} (hs : s ∈ ["PA", "T -", "C -"])
    (h : s.toList.isPrefixOf cs = true) : groundMotion? cs = none := by
  obtain ⟨rest, rfl⟩ := List.isPrefixOf_iff_prefix.mp h
  simp only [List.mem_cons, List.not_mem_nil, or_false] at hs
  rcases hs with rfl | rfl | rfl <;> simp [groundMotion?, startsMeter]

/-- A ground motion is read where a description begins with one of its symbols. -/
theorem read_eq_iff {name : String} {q : Quantity} (hq : q.isGroundMotion = true) :
    read name = q ↔ groundMotion? (symbol name) = some q := by
  have hElse : ∀ {other : Quantity}, other.isGroundMotion = false →
      groundMotion? (symbol name) = none →
      (other = q ↔ groundMotion? (symbol name) = some q) := by
    intro other hOther hNone
    rw [hNone]
    refine iff_of_false ?_ nofun
    rintro rfl
    exact absurd (hq.symm.trans hOther) nofun
  unfold read
  dsimp only
  split
  · next h => exact hElse rfl (groundMotion?_of_isPrefixOf (by simp) h)
  split
  · next h => exact hElse rfl (groundMotion?_of_isPrefixOf (by simp) h)
  split
  · next h => exact hElse rfl (groundMotion?_of_isPrefixOf (by simp) h)
  split
  · next motion h => rw [h, Option.some.injEq]
  · next h =>
    split
    · exact hElse rfl h
    split
    · exact hElse rfl h
    · exact hElse rfl h

/-- A description is read as a ground motion if its leading symbol begins with one of its symbols,
and not with one that has a longer tail. -/
theorem read_eq_iff_begins {name : String} {q : Quantity} (hq : q.isGroundMotion = true) :
    read name = q ↔ q = acceleration ∧ Begins acceleration (leadingSymbol name) ∨
      q = velocity ∧ Begins velocity (leadingSymbol name) ∧
        ¬ Begins acceleration (leadingSymbol name) ∨
      q = displacement ∧ Begins displacement (leadingSymbol name) ∧
        ¬ Begins velocity (leadingSymbol name) := by
  rw [read_eq_iff hq, ← groundMotion?_takeWhile, groundMotion?_eq_some_iff, leadingSymbol]

/-- Every symbol is read as its motion. -/
theorem read_of_mem {name : String} {q : Quantity}
    (h : String.ofList (leadingSymbol name) ∈ motionSymbols q) : read name = q := by
  have hTable : (motionSymbols q).all fun s =>
      q.isGroundMotion && groundMotion? s.toList == some q := by cases q <;> decide
  have hEntry := List.all_eq_true.mp hTable _ h
  rw [Bool.and_eq_true, beq_iff_eq] at hEntry
  obtain ⟨hq, hSome⟩ := hEntry
  rw [read_eq_iff hq, ← groundMotion?_takeWhile]
  rwa [String.toList_ofList] at hSome

/-- A description is read as some ground motion if its leading symbol begins with a symbol of
meters. -/
theorem isGroundMotion_read_iff {name : String} :
    (read name).isGroundMotion = true ↔ Begins displacement (leadingSymbol name) := by
  constructor
  · intro hq
    rcases (read_eq_iff_begins hq).mp rfl with ⟨_, h⟩ | ⟨_, h, _⟩ | ⟨_, h, _⟩
    · exact h.toVelocity.toDisplacement
    · exact h.toDisplacement
    · exact h
  · intro hDis
    by_cases hAcc : Begins acceleration (leadingSymbol name)
    · rw [(read_eq_iff_begins rfl).mpr (.inl ⟨rfl, hAcc⟩)]
      rfl
    by_cases hVel : Begins velocity (leadingSymbol name)
    · rw [(read_eq_iff_begins rfl).mpr (.inr (.inl ⟨rfl, hVel, hAcc⟩))]
      rfl
    · rw [(read_eq_iff_begins rfl).mpr (.inr (.inr ⟨rfl, hDis, hVel⟩))]
      rfl

/-- Is a description taken for a ground motion, although its leading symbol is none of that motion's
symbols? -/
def IsMistaken (name : String) : Prop :=
  (read name).isGroundMotion = true ∧
    String.ofList (leadingSymbol name) ∉ motionSymbols (read name)

/-- What is mistaken for a ground motion are the symbols that go on behind a symbol of meters and
are in no table. -/
theorem isMistaken_iff {name : String} : IsMistaken name ↔
    Begins displacement (leadingSymbol name) ∧
      ∀ q, String.ofList (leadingSymbol name) ∉ motionSymbols q := by
  rw [IsMistaken, isGroundMotion_read_iff]
  refine and_congr_right fun _ => ⟨?_, fun h => h _⟩
  intro hRead q hq
  exact hRead (read_of_mem hq ▸ hq)

/-- Only ground motions are scaled to meters. -/
theorem scaleToMeters_of_not_isGroundMotion {α : Type} [Scalar α] {name : String}
    (h : (read name).isGroundMotion = false) : (scaleToMeters name : α) = 1 := by
  have hNone : groundMotion? (symbol name) = none := by
    rw [Option.eq_none_iff_forall_ne_some]
    intro q hSome
    have hq := isGroundMotion_of_groundMotion? hSome
    rw [(read_eq_iff hq).mpr hSome, hq] at h
    cases h
  simp [scaleToMeters, hNone]

/-- How ground motions are recognized.  The leading symbol of a description decides, by the longest
symbol of a motion that it begins with; so every symbol of a motion is read as that motion, and what
is mistaken for one are exactly the symbols that go on behind a symbol of meters and are no symbol
of a motion.  What is not read as a ground motion is neither scaled nor converted as one. -/
theorem read_of_leadingSymbol (name : String) :
    (read name = acceleration ↔ Begins acceleration (leadingSymbol name)) ∧
    (read name = velocity ↔
      Begins velocity (leadingSymbol name) ∧ ¬ Begins acceleration (leadingSymbol name)) ∧
    (read name = displacement ↔
      Begins displacement (leadingSymbol name) ∧ ¬ Begins velocity (leadingSymbol name)) ∧
    (∀ q, String.ofList (leadingSymbol name) ∈ motionSymbols q → read name = q) ∧
    (IsMistaken name ↔ Begins displacement (leadingSymbol name) ∧
      ∀ q, String.ofList (leadingSymbol name) ∉ motionSymbols q) ∧
    ((read name).isGroundMotion = false → ∀ (α : Type) [Analytic α],
      (scaleToMeters name : α) = 1 ∧
        ∀ (w : α) (output : OutputUnit) (v : Phasor α), convert w (read name) output v = v) := by
  refine ⟨?_, ?_, ?_, fun q => read_of_mem, isMistaken_iff, ?_⟩
  · simpa using (read_eq_iff_begins rfl : read name = acceleration ↔ _)
  · simpa using (read_eq_iff_begins rfl : read name = velocity ↔ _)
  · simpa using (read_eq_iff_begins rfl : read name = displacement ↔ _)
  · intro h α _
    exact ⟨scaleToMeters_of_not_isGroundMotion h, Chain.convert_of_not_isGroundMotion h⟩

/-- A symbol of accelerations, and a description of counts. -/
theorem read_of_leadingSymbol_centimeters :
    String.ofList (leadingSymbol "cm/sec**2 - Acceleration") ∈ motionSymbols acceleration ∧
      read "cm/sec**2 - Acceleration" = acceleration ∧
      (read "COUNTS - Digital counts").isGroundMotion = false ∧
      (scaleToMeters "COUNTS - Digital counts" : Float) = 1 := by
  have hSymbol :
      String.ofList (leadingSymbol "cm/sec**2 - Acceleration") ∈ motionSymbols acceleration := by
    decide +kernel
  have hCounts : (read "COUNTS - Digital counts").isGroundMotion = false := by decide +kernel
  exact ⟨hSymbol, (read_of_leadingSymbol _).2.2.2.1 _ hSymbol, hCounts,
    ((read_of_leadingSymbol _).2.2.2.2.2 hCounts Float).1⟩

/-- Millibars are mistaken for a displacement: `MBAR` goes on behind the symbol of meters. -/
theorem read_millibar : ¬ ∀ (name : String) (q : Quantity), q.isGroundMotion = true →
    read name = q → String.ofList (leadingSymbol name) ∈ motionSymbols q := by
  intro h
  exact absurd (h "MBAR - Millibar" displacement rfl (by decide +kernel)) (by decide +kernel)

end InstrumentResponse.Quantity
