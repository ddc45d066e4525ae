import Mathlib.Algebra.Order.Field.Rat
import Mathlib.Data.List.Forall2
import InstrumentResponse.Proofs.Interpolation.OwnFrequencies
import InstrumentResponse.Proofs.Interpolation.Unwinding

/-!
# What a table answers

A table serves the requests from its lower to its upper end, those included that are beyond an end
by less than a millionth of it.  If there are none it has no answer; if there are some, it has one
unless its frequencies are out of order.

* `ServedAt`: the frequency at which a request is served; `Clips`: those at which a list of requests
  is.
* `clips_filterMap`, `clipAll_of_unserved`, `exists_clipAll_eq_ok`: the requests that are kept.
* `ResponseList.Spans`: the ends of a table; `ResponseList.CanServe`: a request that it serves.
* `ResponseList.raised_pos`: amplitudes without the overshoot of a curve.
* `ResponseList.IsAnswer`: what an answer is like.
* `ResponseList.interpolate_outcome`: when there is one.
-/

namespace InstrumentResponse

/-! ## Requests -/

/-- The frequency at which a table from `low` to `high` serves a request: the requested one between
the ends, and the nearer end just outside of them. -/
inductive ServedAt (low high f : ℚ) : ℚ → Prop
  | between : low ≤ f → f ≤ high → ServedAt low high f f
  | justBelow : f < low → low - f < |low| / 1000000 → ServedAt low high f low
  | justAbove : high < f → f - high < |high| / 1000000 → ServedAt low high f high

/-- The frequencies at which some requests are served, in the order of the requests and as often;
those that cannot be served are dropped. -/
inductive Clips (low high : ℚ) : List ℚ → List ℚ → Prop
  | nil : Clips low high [] []
  | serve {f g : ℚ} {requested kept : List ℚ} : ServedAt low high f g →
      Clips low high requested kept → Clips low high (f :: requested) (g :: kept)
  | drop {f : ℚ} {requested kept : List ℚ} : (∀ g, ¬ ServedAt low high f g) →
      Clips low high requested kept → Clips low high (f :: requested) kept

section Requests

variable {low high f g : ℚ} {requested kept : List ℚ}

theorem ServedAt.mem_range (h : ServedAt low high f g) (hEnds : low ≤ high) :
    low ≤ g ∧ g ≤ high := by
  cases h with
  | between hLow hHigh => exact ⟨hLow, hHigh⟩
  | justBelow _ _ => exact ⟨le_refl low, hEnds⟩
  | justAbove _ _ => exact ⟨hEnds, le_refl high⟩

theorem Clips.mem_range (h : Clips low high requested kept) (hEnds : low ≤ high) :
    ∀ g ∈ kept, low ≤ g ∧ g ≤ high := by
  induction h with
  | nil => exact nofun
  | serve hServed _ ih => exact List.forall_mem_cons.mpr ⟨hServed.mem_range hEnds, ih⟩
  | drop _ _ ih => exact ih

/-- Nothing is kept if and only if nothing can be served. -/
theorem Clips.eq_nil_iff (h : Clips low high requested kept) :
    kept = [] ↔ ∀ f ∈ requested, ∀ g, ¬ ServedAt low high f g := by
  induction h with
  | nil => exact ⟨fun _ => nofun, fun _ => rfl⟩
  | serve hServed _ _ =>
    exact ⟨nofun, fun hNone => absurd hServed (hNone _ List.mem_cons_self _)⟩
  | drop hUnserved _ ih =>
    rw [ih, List.forall_mem_cons]
    exact ⟨fun hRest => ⟨hUnserved, hRest⟩, fun hAll => hAll.2⟩

theorem justBeyond_iff (bound f : ℚ) :
    justBeyond bound f = true ↔ |f - bound| < |bound| / 1000000 := by
  have hMillionth : |bound| * (1 / ((1000000 : Nat) : ℚ)) = |bound| / 1000000 := by
    rw [mul_one_div, Nat.cast_ofNat]
  rw [← hMillionth]
  exact decide_eq_true_iff

theorem clip?_of_below (hEnds : low ≤ high) (hBelow : f < low) :
    clip? low high f = if low - f < |low| / 1000000 then some low else none := by
  have hNotAbove : ¬ high < f := not_lt.mpr (hBelow.le.trans hEnds)
  have hJust : justBeyond low f = true ↔ low - f < |low| / 1000000 := by
    rw [justBeyond_iff, abs_sub_comm, abs_of_pos (sub_pos.mpr hBelow)]
  by_cases hNear : low - f < |low| / 1000000
  · simp [clip?, hBelow, hJust.mpr hNear, hNear]
  · simp [clip?, hBelow, Bool.eq_false_iff.mpr (mt hJust.mp hNear), hNear, hNotAbove,
      not_le.mpr hBelow]

theorem clip?_of_above (hEnds : low ≤ high) (hAbove : high < f) :
    clip? low high f = if f - high < |high| / 1000000 then some high else none := by
  have hNotBelow : ¬ f < low := not_lt.mpr (hEnds.trans hAbove.le)
  have hJust : justBeyond high f = true ↔ f - high < |high| / 1000000 := by
    rw [justBeyond_iff, abs_of_pos (sub_pos.mpr hAbove)]
  by_cases hNear : f - high < |high| / 1000000
  · simp [clip?, hNotBelow, hAbove, hJust.mpr hNear, hNear]
  · simp [clip?, hNotBelow, Bool.eq_false_iff.mpr (mt hJust.mp hNear), hNear, hAbove,
      not_le.mpr hAbove]

theorem clip?_eq_some_iff (hEnds : low ≤ high) :
    clip? low high f = some g ↔ ServedAt low high f g := by
  constructor
  · intro hClip
    rcases lt_or_ge f low with hBelow | hLow
    · rw [clip?_of_below hEnds hBelow, Option.ite_none_right_eq_some] at hClip
      obtain ⟨hNear, hSame⟩ := hClip
      cases hSame
      exact .justBelow hBelow hNear
    · rcases lt_or_ge high f with hAbove | hHigh
      · rw [clip?_of_above hEnds hAbove, Option.ite_none_right_eq_some] at hClip
        obtain ⟨hNear, hSame⟩ := hClip
        cases hSame
        exact .justAbove hAbove hNear
      · rw [clip?_of_between hLow hHigh] at hClip
        cases hClip
        exact .between hLow hHigh
  · intro hServed
    cases hServed with
    | between hLow hHigh => exact clip?_of_between hLow hHigh
    | justBelow hBelow hNear => rw [clip?_of_below hEnds hBelow, if_pos hNear]
    | justAbove hAbove hNear => rw [clip?_of_above hEnds hAbove, if_pos hNear]

theorem clips_filterMap (hEnds : low ≤ high) (requested : List ℚ) :
    Clips low high requested (requested.filterMap (clip? low high)) := by
  induction requested with
  | nil => exact .nil
  | cons f requested ih =>
    cases hClip : clip? low high f with
    | some g =>
      rw [List.filterMap_cons_some hClip]
      exact .serve ((clip?_eq_some_iff hEnds).mp hClip) ih
    | none =>
      rw [List.filterMap_cons_none hClip]
      refine .drop (fun g hServed => ?_) ih
      rw [(clip?_eq_some_iff hEnds).mpr hServed] at hClip
      cases hClip

/-- Requests none of which can be served are refused. -/
theorem clipAll_of_unserved (hEnds : low ≤ high)
    (hNone : ∀ f ∈ requested, ∀ g, ¬ ServedAt low high f g) :
    (clipAll low high requested).result = .error (.outsideList requested.length low high) := by
  have hKept : requested.filterMap (clip? low high) = [] :=
    (clips_filterMap hEnds requested).eq_nil_iff.mpr hNone
  rw [clipAll]
  dsimp only
  rw [hKept]
  rfl

/-- Requests one of which can be served are clipped. -/
theorem exists_clipAll_eq_ok (hEnds : low ≤ high)
    (hSome : ∃ f ∈ requested, ∃ g, ServedAt low high f g) :
    ∃ kept, (clipAll low high requested).result = .ok kept ∧ Clips low high requested kept := by
  have hClips := clips_filterMap hEnds requested
  have hAny : ¬ (requested.filterMap (clip? low high)).isEmpty = true := by
    rw [List.isEmpty_iff, hClips.eq_nil_iff]
    intro hNone
    obtain ⟨f, hf, g, hServed⟩ := hSome
    exact hNone f hf g hServed
  refine ⟨_, ?_, hClips⟩
  rw [clipAll]
  dsimp only
  rw [if_neg hAny]
  split
  · rfl
  · rfl

end Requests

namespace ResponseList

variable {l : ResponseList ℚ} {low high f : ℚ} {requested : List ℚ}

/-! ## The ends of a table -/

/-- A table has the frequencies `low` and `high` at its ends. -/
def Spans (l : ResponseList ℚ) (low high : ℚ) : Prop :=
  ∃ first last, l.frequencies.head? = some first ∧ l.frequencies.getLast? = some last ∧
    low = min first last ∧ high = max first last

/-- A request that a table can serve; one without rows serves none. -/
def CanServe (l : ResponseList ℚ) (f : ℚ) : Prop :=
  ∃ low high g, l.Spans low high ∧ ServedAt low high f g

theorem exists_spans (hSome : l.frequencies ≠ []) : ∃ low high, l.Spans low high :=
  ⟨_, _, l.frequencies.head hSome, l.frequencies.getLast hSome, List.head?_eq_some_head hSome,
    List.getLast?_eq_some_getLast hSome, rfl, rfl⟩

theorem CanServe.rows (h : l.CanServe f) : l.frequencies ≠ [] := by
  obtain ⟨low, high, g, ⟨first, last, hFirst, -⟩, -⟩ := h
  exact List.ne_nil_of_mem (List.mem_of_head? hFirst)

theorem Spans.le (h : l.Spans low high) : low ≤ high := by
  obtain ⟨first, last, -, -, rfl, rfl⟩ := h
  exact min_le_max

theorem Spans.unique {low' high' : ℚ} (h : l.Spans low high) (h' : l.Spans low' high') :
    low' = low ∧ high' = high := by
  obtain ⟨first, last, hFirst, hLast, rfl, rfl⟩ := h
  obtain ⟨first', last', hFirst', hLast', rfl, rfl⟩ := h'
  obtain rfl : first' = first := Option.some.inj (hFirst'.symm.trans hFirst)
  obtain rfl : last' = last := Option.some.inj (hLast'.symm.trans hLast)
  exact ⟨rfl, rfl⟩

theorem Spans.canServe_iff (h : l.Spans low high) :
    l.CanServe f ↔ ∃ g, ServedAt low high f g := by
  constructor
  · rintro ⟨low', high', g, hSpans, hServed⟩
    obtain ⟨rfl, rfl⟩ := h.unique hSpans
    exact ⟨g, hServed⟩
  · rintro ⟨g, hServed⟩
    exact ⟨low, high, g, h, hServed⟩

/-- In ascending order a table starts at its lower end and stops at its upper one. -/
theorem Spans.ascending (h : l.Spans low high) :
    l.ascending.frequencies.head? = some low ∧ l.ascending.frequencies.getLast? = some high := by
  obtain ⟨first, last, hFirst, hLast, rfl, rfl⟩ := h
  rw [ResponseList.ascending, hFirst, hLast]
  dsimp only
  by_cases hDown : last < first
  · rw [if_pos hDown, min_eq_right hDown.le, max_eq_left hDown.le]
    exact ⟨List.head?_reverse.trans hLast, List.getLast?_reverse.trans hFirst⟩
  · rw [if_neg hDown, min_eq_left (not_lt.mp hDown), max_eq_right (not_lt.mp hDown)]
    exact ⟨hFirst, hLast⟩

/-- The rows of a table are in ascending order once those that go down are reversed. -/
theorem pairwise_ascending_iff : l.ascending.frequencies.Pairwise (· < ·) ↔ l.Ordered := by
  constructor
  · intro hUp
    obtain hSame | hReversed := ascending_eq l
    · exact .inl (hSame ▸ hUp)
    · rw [hReversed] at hUp
      exact .inr (List.pairwise_reverse.mp hUp)
  · exact pairwise_ascending

theorem ordered_of_length_lt (h : l.frequencies.length < 2) : l.Ordered := by
  rcases hFrequencies : l.frequencies with _ | ⟨f, _ | ⟨f', rest⟩⟩
  · exact .inl (hFrequencies ▸ .nil)
  · exact .inl (hFrequencies ▸ List.pairwise_singleton _ f)
  · rw [hFrequencies] at h
    exact absurd h (by simp)

theorem length_ascending_frequencies : l.ascending.frequencies.length = l.frequencies.length := by
  obtain hSame | hReversed := ascending_eq l
  · rw [hSame]
  · rw [hReversed]
    exact List.length_reverse

theorem mem_ascending_amplitudes {a : ℚ} : a ∈ l.ascending.amplitudes ↔ a ∈ l.amplitudes := by
  obtain hSame | hReversed := ascending_eq l
  · rw [hSame]
  · rw [hReversed]
    exact List.mem_reverse

/-! ## Amplitudes -/

theorem foldl_smaller_mem (rest : List ℚ) (a : ℚ) : rest.foldl Scalar.smaller a ∈ a :: rest := by
  induction rest generalizing a with
  | nil => exact List.mem_cons_self
  | cons b rest ih =>
    rw [List.foldl_cons]
    obtain hFirst | hLater := List.mem_cons.mp (ih (Scalar.smaller a b))
    · rw [hFirst, smaller_eq_min]
      obtain hLess | hLess := min_choice a b
      · rw [hLess]
        exact List.mem_cons_self
      · rw [hLess]
        exact List.mem_cons_of_mem _ List.mem_cons_self
    · exact List.mem_cons_of_mem _ (List.mem_cons_of_mem _ hLater)

/-- A curve through positive amplitudes is positive once the overshoot is taken from it. -/
theorem raised_pos (hSome : l.amplitudes ≠ []) (hPositive : ∀ a ∈ l.amplitudes, 0 < a)
    (amplitudes : List ℚ) : ∀ a ∈ l.raised amplitudes, 0 < a := by
  cases hAmplitudes : l.amplitudes with
  | nil => exact absurd hAmplitudes hSome
  | cons first rest =>
    have hLeast : 0 < rest.foldl Scalar.smaller first :=
      hPositive _ (hAmplitudes ▸ foldl_smaller_mem rest first)
    rw [raised, leastAmplitude?, hAmplitudes]
    dsimp only
    rw [if_pos hLeast]
    intro a ha
    obtain ⟨b, -, rfl⟩ := List.mem_map.mp ha
    split
    · exact div_pos hLeast (by decide +kernel)
    · next hAbove => exact not_le.mp hAbove

/-! ## Outcomes -/

/-- What the answer of a table from `low` to `high` to some requests is like. -/
structure IsAnswer (l : ResponseList ℚ) (low high : ℚ) (requested : List ℚ)
    (answer : ResponseList ℚ) : Prop where
  clips : Clips low high requested answer.frequencies
  mem_range : ∀ f ∈ answer.frequencies, low ≤ f ∧ f ≤ high
  rectangular : answer.Rectangular
  /-- No curve through positive amplitudes falls to 0. -/
  positive : (∀ a ∈ l.amplitudes, 0 < a) → ∀ a ∈ answer.amplitudes, 0 < a
  /-- Phases that jump by more than half a turn from row to row, or from 0 to the first one, come
  back wrapped. -/
  wrapped : 2 ≤ l.frequencies.length →
    ¬ (0 :: l.ascending.phases).IsChain (fun p q => |q - p| ≤ 180) →
    ∀ p ∈ answer.phases, -180 < p ∧ p ≤ 180

theorem interpolate_of_empty (hNone : l.frequencies = []) :
    (l.interpolate requested).result = .error (.outsideList requested.length 0 0) := by
  have hLow : l.ascending.frequencies.head? = none := by
    rw [List.head?_eq_none_iff, ← List.length_eq_zero_iff, length_ascending_frequencies, hNone]
    rfl
  rw [interpolate]
  dsimp only
  rw [hLow]
  rfl

theorem interpolate_of_unserved (hSpans : l.Spans low high)
    (hNone : ∀ f ∈ requested, ¬ l.CanServe f) :
    (l.interpolate requested).result = .error (.outsideList requested.length low high) := by
  obtain ⟨hLow, hHigh⟩ := hSpans.ascending
  rw [interpolate]
  dsimp only
  rw [hLow, hHigh]
  refine Report.result_bind_of_error (clipAll_of_unserved hSpans.le fun f hf g hServed => ?_) _
  exact hNone f hf (hSpans.canServe_iff.mpr ⟨g, hServed⟩)

theorem interpolate_of_disorder {kept : List ℚ} (hRectangular : l.Rectangular)
    (hSpans : l.Spans low high) (hClipped : (clipAll low high requested).result = .ok kept)
    (hTwo : 2 ≤ l.frequencies.length) (hDisorder : ¬ l.Ordered) :
    ∃ fault, (l.interpolate requested).result = .error (.config fault) := by
  obtain ⟨hLow, hHigh⟩ := hSpans.ascending
  rw [← length_ascending_frequencies] at hTwo
  obtain ⟨fault, hFit⟩ := Spline.exists_fit_eq_error hRectangular.ascending.length_amplitudes.symm
    hTwo (mt pairwise_ascending_iff.mp hDisorder)
  refine ⟨fault, ?_⟩
  rw [interpolate]
  dsimp only
  rw [hLow, hHigh]
  dsimp only
  rw [Report.result_bind_of_ok hClipped, if_neg (by omega)]
  refine Report.result_bind_of_error ?_ _
  rw [fitColumn, hFit]
  rfl

theorem interpolate_of_ordered {kept : List ℚ} (hRectangular : l.Rectangular)
    (hSpans : l.Spans low high) (hClipped : (clipAll low high requested).result = .ok kept)
    (hClips : Clips low high requested kept) (hOrdered : l.Ordered) :
    ∃ answer, (l.interpolate requested).result = .ok answer ∧
      l.IsAnswer low high requested answer := by
  obtain ⟨hLow, hHigh⟩ := hSpans.ascending
  have hAscending := hRectangular.ascending
  have hAmplitudes : l.ascending.amplitudes ≠ [] := by
    rw [← List.length_pos_iff, hAscending.length_amplitudes, List.length_pos_iff]
    exact List.ne_nil_of_mem (List.mem_of_head? hLow)
  have hPositive : (∀ a ∈ l.amplitudes, 0 < a) → ∀ a ∈ l.ascending.amplitudes, 0 < a :=
    fun hAll a ha => hAll a (mem_ascending_amplitudes.mp ha)
  by_cases hOne : l.ascending.frequencies.length = 1
  · refine ⟨_, interpolate_constant hOne hLow hHigh hClipped, hClips, hClips.mem_range hSpans.le,
      ⟨List.length_map _, List.length_map _⟩, fun hAll a ha => ?_, fun hTwo => ?_⟩
    · obtain ⟨f, -, rfl⟩ := List.mem_map.mp ha
      obtain ⟨first, rest, hColumn⟩ := List.exists_cons_of_ne_nil hAmplitudes
      rw [hColumn]
      exact hPositive hAll first (hColumn ▸ List.mem_cons_self)
    · rw [length_ascending_frequencies] at hOne
      omega
  · have hTwo : 2 ≤ l.ascending.frequencies.length := by
      have hSome := List.length_pos_of_mem (List.mem_of_head? hLow)
      omega
    obtain ⟨amplitudes, phases, hResult, -, -⟩ := interpolate_curves hAscending hTwo
      (pairwise_ascending hOrdered) hLow hHigh hClipped
    refine ⟨_, hResult, hClips, hClips.mem_range hSpans.le, ⟨?_, ?_⟩, fun hAll => ?_,
      fun _ hJumps => ?_⟩
    · exact (length_raised _ _).trans (List.length_map _)
    · dsimp only
      split
      · rw [List.length_map, List.length_map]
      · exact List.length_map _
    · exact raised_pos hAmplitudes (hPositive hAll) _
    · dsimp only
      rw [if_pos ((Phase.unwrap_moved_iff_not_isChain _).mpr hJumps)]
      intro p hp
      obtain ⟨q, -, rfl⟩ := List.mem_map.mp hp
      exact Phase.wrap_mem q

/-- The three ways in which an interpolation can end. -/
theorem interpolate_cases (hRectangular : l.Rectangular) (requested : List ℚ) :
    ((∀ f ∈ requested, ¬ l.CanServe f) ∧ ∃ low high,
        (l.interpolate requested).result = .error (.outsideList requested.length low high)) ∨
      ((∃ f ∈ requested, l.CanServe f) ∧ (2 ≤ l.frequencies.length ∧ ¬ l.Ordered) ∧
        ∃ fault, (l.interpolate requested).result = .error (.config fault)) ∨
      ((∃ f ∈ requested, l.CanServe f) ∧ l.Ordered ∧ ∃ low high answer,
        (l.interpolate requested).result = .ok answer ∧ l.Spans low high ∧
          l.IsAnswer low high requested answer) := by
  by_cases hRows : l.frequencies = []
  · exact .inl ⟨fun f _ hCan => hCan.rows hRows, 0, 0, interpolate_of_empty hRows⟩
  · obtain ⟨low, high, hSpans⟩ := exists_spans hRows
    by_cases hServed : ∃ f ∈ requested, l.CanServe f
    · have hSome : ∃ f ∈ requested, ∃ g, ServedAt low high f g := by
        obtain ⟨f, hf, hCan⟩ := hServed
        exact ⟨f, hf, hSpans.canServe_iff.mp hCan⟩
      obtain ⟨kept, hClipped, hClips⟩ := exists_clipAll_eq_ok hSpans.le hSome
      by_cases hOrdered : l.Ordered
      · obtain ⟨answer, hResult, hAnswer⟩ :=
          interpolate_of_ordered hRectangular hSpans hClipped hClips hOrdered
        exact .inr (.inr ⟨hServed, hOrdered, low, high, answer, hResult, hSpans, hAnswer⟩)
      · have hTwo : 2 ≤ l.frequencies.length :=
          Nat.le_of_not_lt (mt ordered_of_length_lt hOrdered)
        exact .inr (.inl ⟨hServed, ⟨hTwo, hOrdered⟩,
          interpolate_of_disorder hRectangular hSpans hClipped hTwo hOrdered⟩)
    · have hNone : ∀ f ∈ requested, ¬ l.CanServe f := fun f hf hCan => hServed ⟨f, hf, hCan⟩
      exact .inl ⟨hNone, low, high, interpolate_of_unserved hSpans hNone⟩

theorem not_refused (hServed : ∃ f ∈ requested, l.CanServe f) :
    ¬ (l.frequencies = [] ∨ ∀ f ∈ requested, ¬ l.CanServe f) := by
  obtain ⟨f, hf, hCan⟩ := hServed
  rintro (hRows | hNone)
  · exact hCan.rows hRows
  · exact hNone f hf hCan

/-- **When a table answers, and what.**  A table is refused for its range if it has no rows or none
of the requests lies between its ends or beyond one by less than a millionth of it.  Otherwise it is
refused for its order if and only if it has at least two rows and its frequencies, from the lower
end to the upper, do not go up throughout.  Otherwise it answers: at the requests that it serves, in
their order and as often, those just outside moved to the end next to them; with a column of
amplitudes and one of phases of the same length; with positive amplitudes if the tabulated ones are;
and with phases in `(-180, 180]` if the tabulated ones have to be unwound. -/
theorem interpolate_outcome (l : ResponseList ℚ) (requested : List ℚ)
    (hRectangular : l.Rectangular) :
    ((∃ count low high,
        (l.interpolate requested).result = .error (.outsideList count low high)) ↔
      l.frequencies = [] ∨ ∀ f ∈ requested, ¬ l.CanServe f) ∧
    ((∃ fault, (l.interpolate requested).result = .error (.config fault)) ↔
      (∃ f ∈ requested, l.CanServe f) ∧
        2 ≤ l.frequencies.length ∧ ¬ l.ascending.frequencies.Pairwise (· < ·)) ∧
    ((∃ answer, (l.interpolate requested).result = .ok answer) ↔
      (∃ f ∈ requested, l.CanServe f) ∧
        (2 ≤ l.frequencies.length → l.ascending.frequencies.Pairwise (· < ·))) ∧
    ∀ answer, (l.interpolate requested).result = .ok answer →
      ∃ low high, l.Spans low high ∧ l.IsAnswer low high requested answer := by
  rw [pairwise_ascending_iff]
  obtain ⟨hNone, low, high, hResult⟩ | ⟨hServed, hDisorder, fault, hResult⟩ |
    ⟨hServed, hOrdered, low, high, answer, hResult, hSpans, hAnswer⟩ :=
    interpolate_cases hRectangular requested
  · have hUnserved : ¬ ∃ f ∈ requested, l.CanServe f := by
      rintro ⟨f, hf, hCan⟩
      exact hNone f hf hCan
    rw [hResult]
    refine ⟨⟨fun _ => .inr hNone, fun _ => ⟨_, _, _, rfl⟩⟩, ⟨?_, fun h => absurd h.1 hUnserved⟩,
      ⟨?_, fun h => absurd h.1 hUnserved⟩, ?_⟩
    · rintro ⟨fault, ⟨⟩⟩
    · rintro ⟨answer, ⟨⟩⟩
    · rintro answer ⟨⟩
  · rw [hResult]
    refine ⟨⟨?_, fun h => absurd h (not_refused hServed)⟩,
      ⟨fun _ => ⟨hServed, hDisorder⟩, fun _ => ⟨_, rfl⟩⟩,
      ⟨?_, fun h => absurd (h.2 hDisorder.1) hDisorder.2⟩, ?_⟩
    · rintro ⟨count, low, high, ⟨⟩⟩
    · rintro ⟨answer, ⟨⟩⟩
    · rintro answer ⟨⟩
  · rw [hResult]
    refine ⟨⟨?_, fun h => absurd h (not_refused hServed)⟩, ⟨?_, fun h => absurd hOrdered h.2.2⟩,
      ⟨fun _ => ⟨hServed, fun _ => hOrdered⟩, fun _ => ⟨_, rfl⟩⟩, ?_⟩
    · rintro ⟨count, low, high, ⟨⟩⟩
    · rintro ⟨fault, ⟨⟩⟩
    · rintro _ ⟨⟩
      exact ⟨low, high, hSpans, hAnswer⟩

/-- The descending table, asked for a frequency inside, one just above and one far above. -/
theorem interpolate_outcome_descendingTable :
    descendingTable.Rectangular ∧
      ∃ answer, (descendingTable.interpolate [3, 4000001 / 1000000, 5]).result = .ok answer ∧
        answer.frequencies = [3, 4] ∧ ∃ low high, descendingTable.Spans low high ∧
          descendingTable.IsAnswer low high [3, 4000001 / 1000000, 5] answer := by
  have hRectangular : descendingTable.Rectangular := ⟨rfl, rfl⟩
  have hSpans : descendingTable.Spans 1 4 := ⟨4, 1, rfl, rfl, by decide +kernel, by decide +kernel⟩
  have hServed : ServedAt 1 4 3 3 := .between (by decide +kernel) (by decide +kernel)
  obtain ⟨-, -, hAnswers, hAnswer⟩ :=
    interpolate_outcome descendingTable [3, 4000001 / 1000000, 5] hRectangular
  obtain ⟨answer, hResult⟩ := hAnswers.mpr
    ⟨⟨3, List.mem_cons_self, 1, 4, 3, hSpans, hServed⟩, fun _ => by decide +kernel⟩
  have hFrequencies : answer.frequencies = [3, 4] := by
    rw [(interpolate_eq_ok hResult).1]
    decide +kernel
  exact ⟨hRectangular, answer, hResult, hFrequencies, hAnswer answer hResult⟩

end ResponseList

end InstrumentResponse
