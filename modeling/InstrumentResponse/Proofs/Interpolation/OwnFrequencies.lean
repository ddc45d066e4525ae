import Mathlib.Algebra.Order.Field.Rat
import Mathlib.Data.List.Forall2
import InstrumentResponse.Proofs.Interpolation.Knots
import InstrumentResponse.Proofs.Interpolation.Requests
import InstrumentResponse.Proofs.Interpolation.Turns

/-!
# Tables at their own frequencies

A table that is asked for its own frequencies answers with its own rows: they lie between its ends,
the curves run through them, no amplitude among them is one that an overshoot would have to be taken
from, and phases are changed by whole turns only.

* `ResponseList.Ordered`: the frequencies of a table go up, or they go down.
* `ResponseList.pairwise_ascending`: its rows can be put in ascending order.
* `clipAll_of_forall`, `ResponseList.raised_of_subset`: what is left as it is.
* `ResponseList.interpolate_constant`, `ResponseList.interpolate_curves`: tables of one row and of
  more rows.
* `ResponseList.Tells`: two functions that tell a table; `ResponseList.exists_tells`: an answer is
  read off such functions.
* `ResponseList.interpolate_own`: the rows of an answer.
-/

namespace InstrumentResponse

/-! ## Requests between the ends -/

section Requests

variable {α : Type} [ExactScalar α]

theorem clip?_of_between {low high f : α} (hLow : low ≤ f) (hHigh : f ≤ high) :
    clip? low high f = some f := by
  have hNotBelow : ¬ f < low := not_lt.mpr hLow
  have hNotAbove : ¬ high < f := not_lt.mpr hHigh
  simp [clip?, hNotBelow, hNotAbove, hLow, hHigh]

/-- Requests between the ends of a table are all kept, without a warning. -/
theorem clipAll_of_forall {low high : α} {requested : List α} (hSome : requested ≠ [])
    (h : ∀ f ∈ requested, low ≤ f ∧ f ≤ high) :
    (clipAll low high requested).result = .ok requested := by
  have hKept : requested.filterMap (clip? low high) = requested := by
    conv => rhs; rw [← List.filterMap_some (l := requested)]
    exact List.filterMap_congr fun f hf => clip?_of_between (h f hf).1 (h f hf).2
  have hAny : ¬ requested.isEmpty = true := by rwa [List.isEmpty_iff]
  rw [clipAll]
  dsimp only
  rw [hKept, Nat.sub_self, if_pos rfl, if_neg hAny]
  rfl

end Requests

namespace ResponseList

/-! ## Amplitudes that are left alone -/

section Amplitudes

variable {α : Type} [ExactScalar α] {l : ResponseList α}

theorem smaller_eq_min (a b : α) : Scalar.smaller a b = min a b := by
  rw [Scalar.smaller, ExactScalar.beq_self]
  by_cases h : a ≤ b
  · rw [if_pos (.inl h), min_eq_left h]
  · rw [if_neg (not_or.mpr ⟨h, nofun⟩), min_eq_right (le_of_not_ge h)]

theorem foldl_smaller_le (rest : List α) (a : α) :
    rest.foldl Scalar.smaller a ≤ a ∧ ∀ b ∈ rest, rest.foldl Scalar.smaller a ≤ b := by
  induction rest generalizing a with
  | nil => exact ⟨le_refl a, nofun⟩
  | cons b rest ih =>
    obtain ⟨hFirst, hRest⟩ := ih (Scalar.smaller a b)
    rw [smaller_eq_min] at hFirst hRest
    rw [List.foldl_cons, smaller_eq_min]
    exact ⟨hFirst.trans (min_le_left a b),
      List.forall_mem_cons.mpr ⟨hFirst.trans (min_le_right a b), hRest⟩⟩

theorem leastAmplitude?_le {least a : α} (hLeast : l.leastAmplitude? = some least)
    (ha : a ∈ l.amplitudes) : least ≤ a := by
  rw [leastAmplitude?] at hLeast
  cases hAmplitudes : l.amplitudes with
  | nil =>
    rw [hAmplitudes] at ha
    cases ha
  | cons first rest =>
    rw [hAmplitudes] at ha hLeast
    cases hLeast
    obtain ⟨hFirst, hRest⟩ := foldl_smaller_le rest first
    obtain rfl | hLater := List.mem_cons.mp ha
    · exact hFirst
    · exact hRest a hLater

/-- Tabulated amplitudes are no overshoot. -/
theorem raised_of_subset {amplitudes : List α} (h : ∀ a ∈ amplitudes, a ∈ l.amplitudes) :
    l.raised amplitudes = amplitudes := by
  rw [raised]
  cases hLeast : l.leastAmplitude? with
  | none => rfl
  | some least =>
    dsimp only
    split
    · next hPositive =>
      conv => rhs; rw [← List.map_id amplitudes]
      refine List.map_congr_left fun a ha => if_neg (not_le.mpr ?_)
      exact lt_of_lt_of_le hPositive (leastAmplitude?_le hLeast (h a ha))
    · rfl

end Amplitudes

/-! ## Ascending rows -/

section Order

variable {α : Type} [ExactScalar α] {l : ResponseList α}

/-- The frequencies of a table go up throughout, or they go down throughout. -/
def Ordered (l : ResponseList α) : Prop :=
  l.frequencies.Pairwise (· < ·) ∨ l.frequencies.Pairwise (· > ·)

theorem ascending_eq (l : ResponseList α) : l.ascending = l ∨ l.ascending = l.reverse := by
  rw [ascending]
  split
  · split
    · exact .inr rfl
    · exact .inl rfl
  · exact .inl rfl

theorem Rectangular.ascending (h : l.Rectangular) : l.ascending.Rectangular := by
  obtain hSame | hReversed := ascending_eq l
  · rwa [hSame]
  · rw [hReversed]
    constructor
    · rw [reverse, List.length_reverse, List.length_reverse, h.length_amplitudes]
    · rw [reverse, List.length_reverse, List.length_reverse, h.length_phases]

theorem mem_ascending_frequencies {f : α} :
    f ∈ l.ascending.frequencies ↔ f ∈ l.frequencies := by
  obtain hSame | hReversed := ascending_eq l
  · rw [hSame]
  · rw [hReversed]
    exact List.mem_reverse

theorem head_le_of_pairwise {f low : α} {frequencies : List α}
    (hOrder : frequencies.Pairwise (· < ·)) (hLow : frequencies.head? = some low)
    (hf : f ∈ frequencies) : low ≤ f := by
  obtain ⟨rest, rfl⟩ := List.head?_eq_some_iff.mp hLow
  obtain rfl | hLater := List.mem_cons.mp hf
  · exact le_refl f
  · exact ((List.pairwise_cons.mp hOrder).1 f hLater).le

theorem le_getLast_of_pairwise {f high : α} {frequencies : List α}
    (hOrder : frequencies.Pairwise (· < ·)) (hHigh : frequencies.getLast? = some high)
    (hf : f ∈ frequencies) : f ≤ high := by
  obtain ⟨rest, rfl⟩ := List.getLast?_eq_some_iff.mp hHigh
  obtain hEarlier | hLast := List.mem_append.mp hf
  · exact ((List.pairwise_append.mp hOrder).2.2 f hEarlier high (List.mem_singleton_self high)).le
  · rw [List.mem_singleton.mp hLast]

theorem pairwise_ascending (h : l.Ordered) : l.ascending.frequencies.Pairwise (· < ·) := by
  rw [ascending]
  cases hFirst : l.frequencies.head? with
  | none =>
    rw [List.head?_eq_none_iff.mp hFirst]
    exact .nil
  | some first =>
    cases hLast : l.frequencies.getLast? with
    | none =>
      rw [List.getLast?_eq_none_iff.mp hLast]
      exact .nil
    | some last =>
      dsimp only
      have hMem : last ∈ l.frequencies := List.mem_of_getLast? hLast
      split
      · next hDown =>
        obtain hUp | hOrder := h
        · exact absurd (head_le_of_pairwise hUp hFirst hMem) (not_le.mpr hDown)
        · exact List.pairwise_reverse.mpr hOrder
      · next hNotDown =>
        obtain hUp | hOrder := h
        · exact hUp
        · -- the last of descending frequencies is the first one only if there is no other
          obtain ⟨rest, hRest⟩ := List.head?_eq_some_iff.mp hFirst
          rw [hRest] at hOrder hLast ⊢
          cases rest with
          | nil => exact List.pairwise_singleton _ first
          | cons f rest =>
            rw [List.getLast?_cons_cons] at hLast
            have hBelow := (List.pairwise_cons.mp hOrder).1 last (List.mem_of_getLast? hLast)
            exact absurd hBelow hNotDown

end Order

/-! ## Interpolating -/

section Rows

variable {l : ResponseList ℚ} {requested : List ℚ}

/-- The requests of a table that is asked for its own frequencies. -/
theorem clipAll_of_own {low high : ℚ} (hLow : l.ascending.frequencies.head? = some low)
    (hHigh : l.ascending.frequencies.getLast? = some high)
    (hOrder : l.ascending.frequencies.Pairwise (· < ·)) (hRequested : requested ≠ [])
    (hOwn : ∀ f ∈ requested, f ∈ l.ascending.frequencies) :
    (clipAll low high requested).result = .ok requested :=
  clipAll_of_forall hRequested fun f hf =>
    ⟨head_le_of_pairwise hOrder hLow (hOwn f hf), le_getLast_of_pairwise hOrder hHigh (hOwn f hf)⟩

/-- A table of one row answers with it. -/
theorem interpolate_constant {low high : ℚ} {frequencies : List ℚ}
    (hOne : l.ascending.frequencies.length = 1)
    (hLow : l.ascending.frequencies.head? = some low)
    (hHigh : l.ascending.frequencies.getLast? = some high)
    (hClipped : (clipAll low high requested).result = .ok frequencies) :
    (l.interpolate requested).result =
      .ok ⟨frequencies, frequencies.map fun _ => l.ascending.amplitudes.headD 0,
        frequencies.map fun _ => l.ascending.phases.headD 0⟩ := by
  rw [interpolate]
  dsimp only
  rw [hLow, hHigh]
  refine Report.result_bind_eq_ok.mpr ⟨frequencies, hClipped, ?_⟩
  rw [if_pos hOne]
  rfl

/-- A table of more rows answers with what two curves through its columns say. -/
theorem interpolate_curves {low high : ℚ} {frequencies : List ℚ}
    (hRectangular : l.ascending.Rectangular) (hTwo : 2 ≤ l.ascending.frequencies.length)
    (hOrder : l.ascending.frequencies.Pairwise (· < ·))
    (hLow : l.ascending.frequencies.head? = some low)
    (hHigh : l.ascending.frequencies.getLast? = some high)
    (hClipped : (clipAll low high requested).result = .ok frequencies) :
    ∃ amplitudes phases : Spline ℚ,
      (l.interpolate requested).result =
          .ok ⟨frequencies, l.ascending.raised (frequencies.map amplitudes.evaluate),
            if (Phase.unwrap l.ascending.phases).2 then
              (frequencies.map phases.evaluate).map Phase.wrap
            else frequencies.map phases.evaluate⟩ ∧
        l.ascending.frequencies.map amplitudes.evaluate = l.ascending.amplitudes ∧
        l.ascending.frequencies.map phases.evaluate = (Phase.unwrap l.ascending.phases).1 := by
  have hUnwound : (Phase.unwrap l.ascending.phases).1.length = l.ascending.phases.length :=
    (Phase.sameAngle_unwrap l.ascending.phases).length_eq.symm
  obtain ⟨amplitudes, hAmplitudes, hKnots⟩ :=
    Spline.exists_fit hRectangular.length_amplitudes.symm hTwo hOrder
  obtain ⟨phases, hPhases, hPhaseKnots⟩ :=
    Spline.exists_fit (hRectangular.length_phases.symm.trans hUnwound.symm) hTwo hOrder
  refine ⟨amplitudes, phases, ?_, hKnots, hPhaseKnots⟩
  rw [interpolate]
  dsimp only
  rw [hLow, hHigh]
  refine Report.result_bind_eq_ok.mpr ⟨frequencies, hClipped, ?_⟩
  rw [if_neg (by omega)]
  refine Report.result_bind_eq_ok.mpr ⟨amplitudes, ?_, Report.result_bind_eq_ok.mpr
    ⟨phases, ?_, rfl⟩⟩
  · rw [fitColumn, hAmplitudes]
    rfl
  · rw [fitColumn, hPhases]
    rfl

end Rows

/-! ## Rows -/

/-- The rows of a table: frequency, amplitude and phase. -/
def rows {α : Type} (l : ResponseList α) : List (α × α × α) :=
  l.frequencies.zip (l.amplitudes.zip l.phases)

/-- Two functions tell the amplitudes of a table, and its phases up to whole turns; the phases
themselves unless one had to be moved. -/
structure Tells (moved : Bool) (amplitude phase : ℚ → ℚ) (l : ResponseList ℚ) : Prop where
  amplitudes_eq : l.frequencies.map amplitude = l.amplitudes
  phases : List.Forall₂ (fun p f => Phase.SameAngle p (phase f) ∧ (moved = false → phase f = p))
    l.phases l.frequencies

section Tells

variable {moved : Bool} {amplitude phase : ℚ → ℚ} {l : ResponseList ℚ}

theorem Tells.reverse (h : Tells moved amplitude phase l) :
    Tells moved amplitude phase l.reverse where
  amplitudes_eq := by rw [ResponseList.reverse, List.map_reverse, h.amplitudes_eq]
  phases := List.rel_reverse h.phases

theorem reverse_reverse (l : ResponseList ℚ) : l.reverse.reverse = l := by
  rw [ResponseList.reverse, ResponseList.reverse, List.reverse_reverse, List.reverse_reverse,
    List.reverse_reverse]

theorem Tells.of_ascending (h : Tells moved amplitude phase l.ascending) :
    Tells moved amplitude phase l := by
  obtain hSame | hReversed := ascending_eq l
  · rwa [hSame] at h
  · rw [hReversed] at h
    rw [← reverse_reverse l]
    exact h.reverse

theorem tells_constant {a p : ℚ} (hOne : l.frequencies.length = 1)
    (hAmplitudes : l.amplitudes = [a]) (hPhases : l.phases = [p]) :
    Tells moved (fun _ => a) (fun _ => p) l := by
  obtain ⟨f, hFrequencies⟩ := List.length_eq_one_iff.mp hOne
  constructor
  · rw [hFrequencies, hAmplitudes]
    rfl
  · rw [hFrequencies, hPhases]
    exact .cons ⟨⟨0, by simp⟩, fun _ => rfl⟩ .nil

/-- A row of the table for each of its frequencies. -/
theorem Tells.exists_row (h : Tells moved amplitude phase l) {f : ℚ} (hf : f ∈ l.frequencies) :
    ∃ p, (f, amplitude f, p) ∈ l.rows ∧ Phase.SameAngle p (phase f) ∧
      (moved = false → phase f = p) := by
  have hPhases := h.phases
  rw [rows, ← h.amplitudes_eq]
  generalize l.frequencies = frequencies at hf hPhases
  generalize l.phases = phases at hPhases
  induction hPhases with
  | nil => cases hf
  | @cons p f' phases frequencies hHere _ ih =>
    obtain rfl | hLater := List.mem_cons.mp hf
    · exact ⟨p, List.mem_cons_self, hHere⟩
    · obtain ⟨p', hRow, hPhase⟩ := ih hLater
      exact ⟨p', List.mem_cons_of_mem _ hRow, hPhase⟩

end Tells

theorem exists_tells {l : ResponseList ℚ} {requested : List ℚ} (hRectangular : l.Rectangular)
    (hSome : l.frequencies ≠ []) (hOrdered : l.Ordered) (hRequested : requested ≠ [])
    (hOwn : ∀ f ∈ requested, f ∈ l.frequencies) :
    ∃ amplitude phase : ℚ → ℚ,
      (l.interpolate requested).result =
          .ok ⟨requested, requested.map amplitude, requested.map phase⟩ ∧
        Tells (Phase.unwrap l.ascending.phases).2 amplitude phase l := by
  have hAscending := hRectangular.ascending
  have hOrder := pairwise_ascending hOrdered
  have hOwn : ∀ f ∈ requested, f ∈ l.ascending.frequencies :=
    fun f hf => mem_ascending_frequencies.mpr (hOwn f hf)
  have hAny : l.ascending.frequencies ≠ [] := by
    obtain ⟨f, hf⟩ := List.exists_mem_of_ne_nil _ hSome
    exact List.ne_nil_of_mem (mem_ascending_frequencies.mpr hf)
  have hLow := List.head?_eq_some_head hAny
  have hHigh := List.getLast?_eq_some_getLast hAny
  have hClipped := clipAll_of_own hLow hHigh hOrder hRequested hOwn
  by_cases hOne : l.ascending.frequencies.length = 1
  · obtain ⟨a, hAmplitudes⟩ := List.length_eq_one_iff.mp (hAscending.length_amplitudes.trans hOne)
    obtain ⟨p, hPhases⟩ := List.length_eq_one_iff.mp (hAscending.length_phases.trans hOne)
    refine ⟨fun _ => a, fun _ => p, ?_, (tells_constant hOne hAmplitudes hPhases).of_ascending⟩
    rw [interpolate_constant hOne hLow hHigh hClipped, hAmplitudes, hPhases]
    rfl
  · have hTwo : 2 ≤ l.ascending.frequencies.length := by
      have hPositive := List.length_pos_of_ne_nil hAny
      omega
    obtain ⟨amplitudes, phases, hResult, hKnots, hPhaseKnots⟩ :=
      interpolate_curves hAscending hTwo hOrder hLow hHigh hClipped
    have hTabulated : ∀ a ∈ requested.map amplitudes.evaluate, a ∈ l.ascending.amplitudes := by
      intro a ha
      obtain ⟨f, hf, rfl⟩ := List.mem_map.mp ha
      rw [← hKnots]
      exact List.mem_map_of_mem (hOwn f hf)
    rw [raised_of_subset hTabulated] at hResult
    rw [hResult]
    cases hMoved : (Phase.unwrap l.ascending.phases).2 with
    | true =>
      refine ⟨amplitudes.evaluate, Phase.wrap ∘ phases.evaluate, ?_, .of_ascending ⟨hKnots, ?_⟩⟩
      · rw [if_pos rfl, List.map_map]
      · have hUnwound := Phase.sameAngle_unwrap l.ascending.phases
        rw [← hPhaseKnots, List.forall₂_map_right_iff] at hUnwound
        exact hUnwound.imp fun p f h => ⟨h.trans (Phase.sameAngle_wrap _), nofun⟩
    | false =>
      refine ⟨amplitudes.evaluate, phases.evaluate, ?_, .of_ascending ⟨hKnots, ?_⟩⟩
      · rw [if_neg Bool.false_ne_true]
      · have hSame : List.Forall₂ Eq l.ascending.phases
            (l.ascending.frequencies.map phases.evaluate) := by
          rw [List.forall₂_eq_eq_eq, hPhaseKnots, Phase.unwrap_of_unmoved hMoved]
        rw [List.forall₂_map_right_iff] at hSame
        exact hSame.imp fun p f h => ⟨⟨0, by simp [h]⟩, fun _ => h.symm⟩

/-- **A table is exact at its own frequencies**: if these go up or down throughout and it is asked
for some of them, in whatever order and however often, it answers with its own rows.  Amplitudes are
the tabulated ones, and phases are so up to whole turns; where none of them has to be unwound, they
are the tabulated ones too. -/
theorem interpolate_own (l : ResponseList ℚ) (requested : List ℚ) (hRectangular : l.Rectangular)
    (hSome : l.frequencies ≠ []) (hOrdered : l.Ordered) (hRequested : requested ≠ [])
    (hOwn : ∀ f ∈ requested, f ∈ l.frequencies) :
    ∃ answer, (l.interpolate requested).result = .ok answer ∧ answer.frequencies = requested ∧
      answer.Rectangular ∧
      ∀ f a p, (f, a, p) ∈ answer.rows →
        ∃ tabulated, (f, a, tabulated) ∈ l.rows ∧ Phase.SameAngle tabulated p ∧
          ((Phase.unwrap l.ascending.phases).2 = false → p = tabulated) := by
  obtain ⟨amplitude, phase, hResult, hTells⟩ :=
    exists_tells hRectangular hSome hOrdered hRequested hOwn
  refine ⟨_, hResult, rfl, ⟨List.length_map _, List.length_map _⟩, fun f a p hRow => ?_⟩
  have hRows : rows ⟨requested, requested.map amplitude, requested.map phase⟩ =
      requested.map fun f => (f, amplitude f, phase f) := by
    have hZip : (requested.map id).zip (requested.map fun f => (amplitude f, phase f)) =
        requested.map fun f => (f, amplitude f, phase f) := List.zip_map'
    rw [rows, List.zip_map']
    rwa [List.map_id] at hZip
  rw [hRows] at hRow
  obtain ⟨f, hf, hSame⟩ := List.mem_map.mp hRow
  cases hSame
  exact hTells.exists_row (hOwn f hf)

/-- A table with descending frequencies, whose phases jump. -/
def descendingTable : ResponseList ℚ := ⟨[4, 2, 1], [3, 1, 2], [-170, 170, 10]⟩

theorem interpolate_own_descendingTable :
    descendingTable.Rectangular ∧ descendingTable.Ordered ∧
      (Phase.unwrap descendingTable.ascending.phases).2 = true ∧
      ∃ answer, (descendingTable.interpolate [2, 4, 2]).result = .ok answer ∧
        answer.frequencies = [2, 4, 2] ∧ answer.Rectangular := by
  have hRectangular : descendingTable.Rectangular := ⟨rfl, rfl⟩
  have hOrdered : descendingTable.Ordered := by
    unfold ResponseList.Ordered
    decide +kernel
  obtain ⟨answer, hResult, hFrequencies, hAnswer, -⟩ :=
    interpolate_own descendingTable [2, 4, 2] hRectangular nofun hOrdered nofun (by decide +kernel)
  exact ⟨hRectangular, hOrdered, by decide +kernel, answer, hResult, hFrequencies, hAnswer⟩

end ResponseList

end InstrumentResponse
