import InstrumentResponse.Proofs.Chain.Acceptance
import InstrumentResponse.Proofs.Scalar.Exact

/-!
# The canonical form of a chain

What a successful check leaves behind, told from the joined elements of the stages alone.

* `Stage.parts`: the filter, the decimation and the gain of a stage.
* `Stage.canonical`, `documentedOf`, `timingOf`: a stage in canonical form, and what is written down
  for a whole chain.
* `checkStage_eq_ok`, `checkStages_eq_ok`: one stage and what it passes on, then all of them.
* `canonical_of_check`, `check_canonicalizes`: the check leaves the canonical form.
-/

namespace InstrumentResponse

open Chain

variable {α : Type}

/-! ## Filters -/

section Filters

variable [Scalar α]

/-- An impulse response in canonical form. -/
def Fir.canonicalForm (h : Fir α) : Fir α :=
  match h.symmetry with
  | .asymmetric => folded { h with taps := unitSum h.taps }
  | _ => h

/-- A filter whose impulse response is in canonical form. -/
def Filter.canonicalForm : Filter α → Filter α
  | .fir h => .fir h.canonicalForm
  | f => f

theorem Fir.result_canonical (id : ChannelId) (h : Fir α) :
    (h.canonical id).result = .ok h.canonicalForm := by
  rcases h with ⟨symmetry, taps, scale⟩
  cases symmetry <;> rfl

theorem Fir.length_unitSum (taps : List α) : (unitSum taps).length = taps.length := by
  unfold unitSum
  split
  · rfl
  · exact List.length_map _

/-- Storing taps by half does not change how many they stand for. -/
theorem Fir.fullLength_folded {h : Fir α} (hAll : h.symmetry = .asymmetric) :
    h.folded.fullLength = h.taps.length := by
  unfold folded
  by_cases hSymmetric : isSymmetric h.taps = true
  · rw [if_pos hSymmetric]
    by_cases hEven : h.taps.length % 2 = 0
    · simp only [hEven, if_true, fullLength, List.length_take]
      omega
    · simp only [hEven, if_false, fullLength, List.length_take]
      omega
  · rw [if_neg hSymmetric, fullLength, hAll]

theorem Fir.fullLength_canonicalForm (h : Fir α) : h.canonicalForm.fullLength = h.fullLength := by
  unfold canonicalForm
  split
  · next hAll =>
    have hFull : h.fullLength = h.taps.length := by rw [fullLength, hAll]
    rw [hFull, ← length_unitSum h.taps]
    exact fullLength_folded hAll
  · rfl

theorem Filter.tapCount_canonicalForm (f : Filter α) : f.canonicalForm.tapCount = f.tapCount := by
  cases f with
  | fir h => exact h.fullLength_canonicalForm
  | _ => rfl

end Filters

/-! ## Stages -/

/-- The elements of a stage by their kinds, with continuations joined. -/
def Stage.parts (s : Stage α) : Parts α :=
  ⟨(filters (joined s.elements)).head?, (decimations (joined s.elements)).head?,
    (gains (joined s.elements)).head?⟩

/-- A stage consists of some parts, none of which comes twice. -/
structure Stage.Holds (s : Stage α) (q : Parts α) : Prop where
  filter_eq : filters (joined s.elements) = q.filter.toList
  decimation_eq : decimations (joined s.elements) = q.decimation.toList
  gain_eq : gains (joined s.elements) = q.gain.toList
  filter_of_decimation : q.filter = none → q.decimation = none

theorem Stage.Holds.parts_eq {s : Stage α} {q : Parts α} (h : s.Holds q) : s.parts = q := by
  rw [parts, h.filter_eq, h.decimation_eq, h.gain_eq, Option.head?_toList, Option.head?_toList,
    Option.head?_toList]

namespace Chain

/-- The decimations of a chain. -/
def decimationsOf (stages : List (Stage α)) : List (Decimation α) :=
  stages.filterMap fun s => s.parts.decimation

/-- The gains of the stages 0. -/
def sensitivitiesOf (stages : List (Stage α)) : List (Gain α) :=
  (stages.filter fun s => s.sequence == 0).filterMap fun s => s.parts.gain

theorem decimationsOf_cons_none {s : Stage α} (h : s.parts.decimation = none)
    (stages : List (Stage α)) : decimationsOf (s :: stages) = decimationsOf stages := by
  simp only [decimationsOf, List.filterMap_cons, h]

theorem decimationsOf_cons_some {s : Stage α} {d : Decimation α} (h : s.parts.decimation = some d)
    (stages : List (Stage α)) : decimationsOf (s :: stages) = d :: decimationsOf stages := by
  simp only [decimationsOf, List.filterMap_cons, h]

theorem sensitivitiesOf_cons (s : Stage α) (stages : List (Stage α)) :
    sensitivitiesOf (s :: stages) =
      if s.sequence = 0 then s.parts.gain.toList ++ sensitivitiesOf stages
      else sensitivitiesOf stages := by
  by_cases hZero : s.sequence = 0
  · rw [if_pos hZero, sensitivitiesOf, List.filter_cons_of_pos (by simpa using hZero)]
    rw [List.filterMap_cons]
    cases hGain : s.parts.gain with
    | none => rfl
    | some g => rfl
  · rw [if_neg hZero, sensitivitiesOf, List.filter_cons_of_neg (by simpa using hZero)]
    rfl

end Chain

variable [Scalar α]

/-- The filter, the decimation and the gain, in this order; the gain of a filter that has none
is 1. -/
def Chain.Parts.canonicalElements (q : Parts α) : List (Element α) :=
  match q.filter with
  | .none => q.gain.toList.map .gain
  | .some f =>
    .filter f.canonicalForm ::
      (q.decimation.toList.map .decimation ++ [.gain (q.gain.getD ⟨1, 1⟩)])

/-- A stage in canonical form. -/
def Stage.canonical (s : Stage α) : Stage α := { s with elements := s.parts.canonicalElements }

/-- The delay that a filter has by its length, if it has taps and a decimation. -/
def Stage.tapDelay? (s : Stage α) : Option α :=
  match s.parts.filter, s.parts.decimation with
  | some f, some d =>
    if 0 < f.tapCount then some (((f.tapCount : α) - 1) / 2 * d.interval) else none
  | _, _ => none

namespace Chain

/-- The delays that the filters of a chain have by their lengths. -/
def tapDelaysOf (stages : List (Stage α)) : List α := stages.filterMap fun s => s.tapDelay?

theorem tapDelaysOf_cons_none {s : Stage α} (h : s.tapDelay? = none) (stages : List (Stage α)) :
    tapDelaysOf (s :: stages) = tapDelaysOf stages := by
  simp only [tapDelaysOf, List.filterMap_cons, h]

theorem tapDelaysOf_cons_some {s : Stage α} {x : α} (h : s.tapDelay? = some x)
    (stages : List (Stage α)) : tapDelaysOf (s :: stages) = x :: tapDelaysOf stages := by
  simp only [tapDelaysOf, List.filterMap_cons, h]

/-- The gain of the last stage 0 that has one. -/
def documentedOf (stages : List (Stage α)) : Gain α := (sensitivitiesOf stages).getLast?.getD ⟨0, 0⟩

/-- The sums of the delays of a chain, and the sample interval after its last decimation. -/
def timingOf (stages : List (Stage α)) : Timing α where
  computedDelay := Scalar.sum (tapDelaysOf stages)
  estimatedDelay := Scalar.sum ((decimationsOf stages).map (·.estimatedDelay))
  appliedCorrection := Scalar.sum ((decimationsOf stages).map (·.appliedCorrection))
  interval := (decimationsOf stages).getLast?.elim 0 fun d => d.interval * (d.factor : α)

end Chain

/-- A channel in canonical form. -/
def Channel.canonical (c : Channel α) : Channel α :=
  { c with
    stages := c.stages.map Stage.canonical
    documented := documentedOf c.stages
    timing := timingOf c.stages }

namespace Chain

/-! ## Elements in their places -/

variable {around : Surroundings} {sequence : Nat}

theorem accept_eq_ok {f g : Filter α} (h : (accept around sequence f).result = .ok g) :
    g = f.canonicalForm := by
  cases f with
  | fir fir =>
    obtain ⟨fir', hFir, hg⟩ := Report.result_bind_eq_ok.mp h
    rw [Fir.result_canonical] at hFir
    cases hFir
    cases hg
    rfl
  | list l =>
    rw [accept] at h
    split at h
    · cases h
    · cases h
      rfl
  | poleZero pz =>
    cases h
    rfl
  | recursive r =>
    cases h
    rfl
  | generic corners =>
    cases h
    rfl
  | polynomial p =>
    cases h
    rfl

theorem filter_of_place {parts q : Parts α} {e : Element α}
    (h : (place around sequence parts e).result = .ok q) :
    q.filter.toList = parts.filter.toList ++ (filters [e]).map Filter.canonicalForm := by
  rcases parts with ⟨filter, decimation, gain⟩
  rcases e with f | d | g
  · rcases filter with _ | filter
    · obtain ⟨f', hf', hq⟩ := Report.result_bind_eq_ok.mp h
      cases hq
      rw [accept_eq_ok hf']
      rfl
    · cases h
  · rcases decimation with _ | decimation
    · cases h
      exact (List.append_nil _).symm
    · cases h
  · rcases gain with _ | gain
    · cases h
      exact (List.append_nil _).symm
    · cases h

/-- The filter in place is that of the elements, in canonical form. -/
theorem filter_of_foldlM {es : List (Element α)} {parts q : Parts α}
    (h : (es.foldlM (place around sequence) parts).result = .ok q) :
    q.filter.toList = parts.filter.toList ++ (filters es).map Filter.canonicalForm := by
  induction es generalizing parts with
  | nil =>
    cases h
    exact (List.append_nil _).symm
  | cons e es ih =>
    rw [List.foldlM_cons] at h
    obtain ⟨r, hr, hq⟩ := Report.result_bind_eq_ok.mp h
    have hSplit : filters (e :: es) = filters [e] ++ filters es := filters_append [e] es
    rw [ih hq, filter_of_place hr, hSplit, List.map_append, List.append_assoc]

/-- The parts that a stage is arranged into are its own, with the filter in canonical form. -/
theorem arrange_eq_ok_parts {s : Stage α} {q : Parts α} (h : (arrange around s).result = .ok q) :
    filters (joined s.elements) = s.parts.filter.toList ∧
      decimations (joined s.elements) = s.parts.decimation.toList ∧
      gains (joined s.elements) = s.parts.gain.toList ∧
      q = ⟨s.parts.filter.map Filter.canonicalForm, s.parts.decimation, s.parts.gain⟩ := by
  have hPlaced := arrange_eq_ok h
  obtain ⟨merged, hMerged, hFold⟩ := Report.result_bind_eq_ok.mp h
  have hJoined : merged = joined s.elements := by
    obtain hOk | ⟨⟨fault, hError⟩, -⟩ := merge_cases s.elements
    · rw [hOk] at hMerged
      cases hMerged
      rfl
    · rw [hError] at hMerged
      cases hMerged
  have hFilter : q.filter.toList = (filters (joined s.elements)).map Filter.canonicalForm := by
    rw [← hJoined]
    exact filter_of_foldlM hFold
  have hDecimation : decimations (joined s.elements) = q.decimation.toList :=
    hPlaced.decimations_eq.symm
  have hGain : gains (joined s.elements) = q.gain.toList := hPlaced.gains_eq.symm
  have hDecimationPart : s.parts.decimation = q.decimation := by
    rw [Stage.parts, hDecimation, Option.head?_toList]
  have hGainPart : s.parts.gain = q.gain := by
    rw [Stage.parts, hGain, Option.head?_toList]
  have hFilterPart : filters (joined s.elements) = s.parts.filter.toList ∧
      q.filter = s.parts.filter.map Filter.canonicalForm := by
    rw [Stage.parts]
    rcases hfs : filters (joined s.elements) with _ | ⟨f, _ | ⟨f', fs⟩⟩
    · rw [hfs] at hFilter
      exact ⟨rfl, Option.toList_eq_nil_iff.mp hFilter⟩
    · rw [hfs] at hFilter
      exact ⟨rfl, Option.toList_eq_singleton_iff.mp hFilter⟩
    · have hLength := length_toList_le_one q.filter
      rw [hFilter, hfs] at hLength
      simp at hLength
  refine ⟨hFilterPart.1, hDecimationPart ▸ hDecimation, hGainPart ▸ hGain, ?_⟩
  rw [hDecimationPart, hGainPart, ← hFilterPart.2]

/-! ## Stages and what they pass on -/

/-- What is passed on after a stage. -/
def Passed.after (p : Passed α) (s : Stage α) : Passed α where
  timing := s.parts.filter.elim p.timing fun f => p.timingAfter f s.parts.decimation
  documented := p.documentedAfter s s.parts.gain
  previous := if feeds s then some (s.sequence, s.output) else p.previous

theorem timingAfter_canonicalForm (p : Passed α) (f : Filter α) (d : Option (Decimation α)) :
    p.timingAfter f.canonicalForm d = p.timingAfter f d := by
  cases d with
  | none => rfl
  | some d => rw [Passed.timingAfter, Passed.timingAfter, f.tapCount_canonicalForm]

theorem gainOr_eq_ok {g : Option (Gain α)} {gain : Gain α}
    (h : (gainOr around sequence g).result = .ok gain) : gain = g.getD ⟨1, 1⟩ := by
  cases g with
  | none =>
    cases h
    rfl
  | some g =>
    cases h
    rfl

/-- A stage that is accepted holds its parts and nothing else, is left in canonical form, and passes
on what follows from its parts. -/
theorem checkStage_eq_ok {p passed : Passed α} {s checked : Stage α}
    (h : (checkStage around p s).result = .ok (checked, passed)) :
    s.Holds s.parts ∧ checked = s.canonical ∧ passed = p.after s := by
  have hPrevious := (of_checkStage_eq_ok h).2.2
  obtain ⟨q, hArrange, h⟩ := Report.result_bind_eq_ok.mp h
  obtain ⟨hFilters, hDecimations, hGains, rfl⟩ := arrange_eq_ok_parts hArrange
  cases hFilter : s.parts.filter with
  | none =>
    simp only [hFilter, Option.map_none] at h
    split at h
    · cases h
    · next hStray =>
      cases h
      have hNone : s.parts.decimation = none := Option.not_isSome_iff_eq_none.mp hStray
      refine ⟨⟨hFilters, hDecimations, hGains, fun _ => hNone⟩, ?_, ?_⟩
      · rw [Stage.canonical, Parts.canonicalElements, hFilter]
      · rw [Passed.after, hFilter, ← hPrevious]
        rfl
  | some f =>
    simp only [hFilter, Option.map_some] at h
    split at h
    · cases h
    · obtain ⟨gain, hGain, hOk⟩ := Report.result_bind_eq_ok.mp h
      cases hOk
      refine ⟨⟨hFilters, hDecimations, hGains, fun hc => ?_⟩, ?_, ?_⟩
      · rw [hFilter] at hc
        cases hc
      · simp only [Stage.canonical, Parts.canonicalElements, hFilter, gainOr_eq_ok hGain]
        rfl
      · rw [Passed.after, hFilter, ← hPrevious, timingAfter_canonicalForm]
        rfl

theorem checkStages_cons_eq_ok {s : Stage α} {stages : List (Stage α)} {p last : Passed α}
    (h : (checkStages around p (s :: stages)).2.result = .ok last) :
    ∃ checked next, (checkStage around p s).result = .ok (checked, next) ∧
      (checkStages around next stages).2.result = .ok last ∧
      (checkStages around p (s :: stages)).1 = checked :: (checkStages around next stages).1 := by
  rw [checkStages] at h ⊢
  generalize checkStage around p s = report at h ⊢
  rcases report with ⟨warnings, fault | ⟨checked, next⟩⟩
  · cases h
  · exact ⟨checked, next, rfl, h, rfl⟩

theorem checkStages_ok_cons {s checked : Stage α} {stages : List (Stage α)}
    {p next last : Passed α} (hStage : (checkStage around p s).result = .ok (checked, next))
    (hRest : (checkStages around next stages).2.result = .ok last) :
    (checkStages around p (s :: stages)).2.result = .ok last := by
  rw [checkStages]
  generalize checkStage around p s = report at hStage ⊢
  rcases report with ⟨warnings, result⟩
  cases hStage
  exact hRest

theorem checkStages_eq_ok {stages : List (Stage α)} {p passed : Passed α}
    (h : (checkStages around p stages).2.result = .ok passed) :
    (∀ s ∈ stages, s.Holds s.parts) ∧
      (checkStages around p stages).1 = stages.map Stage.canonical ∧
      passed = stages.foldl Passed.after p := by
  induction stages generalizing p with
  | nil =>
    cases h
    exact ⟨nofun, rfl, rfl⟩
  | cons s stages ih =>
    obtain ⟨checked, next, hStage, hRest, hStages⟩ := checkStages_cons_eq_ok h
    obtain ⟨hHolds, rfl, rfl⟩ := checkStage_eq_ok hStage
    obtain ⟨hAll, hCanonical, hPassed⟩ := ih hRest
    refine ⟨List.forall_mem_cons.mpr ⟨hHolds, hAll⟩, ?_, hPassed⟩
    rw [hStages, hCanonical, List.map_cons]

/-! ## Sums over a chain -/

theorem documented_foldl_after (stages : List (Stage α)) (p : Passed α) :
    (stages.foldl Passed.after p).documented =
      (sensitivitiesOf stages).getLast?.or p.documented := by
  induction stages generalizing p with
  | nil => rfl
  | cons s stages ih =>
    have hAfter : (p.after s).documented = p.documentedAfter s s.parts.gain := rfl
    rw [List.foldl_cons, ih, hAfter, Passed.documentedAfter, sensitivitiesOf_cons]
    by_cases hZero : s.sequence = 0
    · rw [if_pos hZero, if_pos hZero, List.getLast?_append, Option.or_assoc]
      cases s.parts.gain <;> rfl
    · rw [if_neg hZero, if_neg hZero]

/-- The timing `t` with what some more stages add to it. -/
def timingFrom (t : Timing α) (stages : List (Stage α)) : Timing α where
  computedDelay := (tapDelaysOf stages).foldl (· + ·) t.computedDelay
  estimatedDelay := ((decimationsOf stages).map (·.estimatedDelay)).foldl (· + ·) t.estimatedDelay
  appliedCorrection :=
    ((decimationsOf stages).map (·.appliedCorrection)).foldl (· + ·) t.appliedCorrection
  interval := (decimationsOf stages).getLast?.elim t.interval fun d => d.interval * (d.factor : α)

theorem timingFrom_cons {s : Stage α} (hs : s.Holds s.parts) (p : Passed α)
    (stages : List (Stage α)) :
    timingFrom p.timing (s :: stages) = timingFrom (p.after s).timing stages := by
  cases hFilter : s.parts.filter with
  | none =>
    have hNone : s.parts.decimation = none := hs.filter_of_decimation hFilter
    have hDelay : s.tapDelay? = none := by rw [Stage.tapDelay?, hFilter]
    have hSame : (p.after s).timing = p.timing := by rw [Passed.after, hFilter]; rfl
    rw [hSame, timingFrom, timingFrom, decimationsOf_cons_none hNone,
      tapDelaysOf_cons_none hDelay]
  | some f =>
    have hAfter : (p.after s).timing = p.timingAfter f s.parts.decimation := by
      rw [Passed.after, hFilter]; rfl
    cases hDecimation : s.parts.decimation with
    | none =>
      have hDelay : s.tapDelay? = none := by rw [Stage.tapDelay?, hFilter, hDecimation]
      have hSame : (p.after s).timing = p.timing := by rw [hAfter, hDecimation]; rfl
      rw [hSame, timingFrom, timingFrom, decimationsOf_cons_none hDecimation,
        tapDelaysOf_cons_none hDelay]
    | some d =>
      have hDelay : s.tapDelay? =
          if 0 < f.tapCount then some (((f.tapCount : α) - 1) / 2 * d.interval) else none := by
        rw [Stage.tapDelay?, hFilter, hDecimation]
      have hLast : ((d :: decimationsOf stages).getLast?.elim p.timing.interval fun d =>
            d.interval * (d.factor : α)) =
          (decimationsOf stages).getLast?.elim (d.interval * (d.factor : α)) fun d =>
            d.interval * (d.factor : α) := by
        rw [List.getLast?_cons]
        cases (decimationsOf stages).getLast? <;> rfl
      rw [hAfter, hDecimation, timingFrom, decimationsOf_cons_some hDecimation, hLast]
      by_cases hTaps : 0 < f.tapCount
      · rw [if_pos hTaps] at hDelay
        rw [tapDelaysOf_cons_some hDelay, Passed.timingAfter, if_pos hTaps]
        rfl
      · rw [if_neg hTaps] at hDelay
        rw [tapDelaysOf_cons_none hDelay, Passed.timingAfter, if_neg hTaps]
        rfl

theorem timing_foldl_after {stages : List (Stage α)} (hHolds : ∀ s ∈ stages, s.Holds s.parts)
    (p : Passed α) : (stages.foldl Passed.after p).timing = timingFrom p.timing stages := by
  induction stages generalizing p with
  | nil => rfl
  | cons s stages ih =>
    obtain ⟨hs, hRest⟩ := List.forall_mem_cons.mp hHolds
    rw [List.foldl_cons, ih hRest, timingFrom_cons hs]

/-! ## Chains -/

/-- What the stages of a channel are checked with. -/
def surroundings (c : Channel α) : Surroundings := ⟨c.id, c.stages.countP (!·.isGainOnly)⟩

/-- The report on a channel is that on its stages. -/
theorem report_check (c : Channel α) : (check c).2 =
    ⟨(checkStages (surroundings c) .start c.stages).2.warnings,
      (checkStages (surroundings c) .start c.stages).2.result.map fun _ => ()⟩ := by
  unfold check surroundings
  dsimp only
  rcases checkStages _ .start c.stages with ⟨stages, warnings, fault | passed⟩
  · rfl
  · rfl

/-- The check of a channel is that of its stages. -/
theorem check_eq_ok_iff_checkStages (c : Channel α) : (check c).2.result = .ok () ↔
    ∃ passed, (checkStages (surroundings c) .start c.stages).2.result = .ok passed := by
  unfold check surroundings
  dsimp only
  rcases checkStages _ .start c.stages with ⟨stages, warnings, fault | passed⟩
  · exact ⟨nofun, nofun⟩
  · exact ⟨fun _ => ⟨passed, rfl⟩, fun _ => rfl⟩

theorem channel_of_check {c : Channel α} {passed : Passed α}
    (h : (checkStages (surroundings c) .start c.stages).2.result = .ok passed) :
    (check c).1 =
      { c with
        stages := (checkStages (surroundings c) .start c.stages).1
        documented := passed.documented.getD ⟨0, 0⟩
        timing := passed.timing } := by
  unfold surroundings at h ⊢
  unfold check
  dsimp only
  rw [h]

/-- A check that succeeds leaves the canonical form of a channel. -/
theorem canonical_of_check {c : Channel α} (h : (check c).2.result = .ok ()) :
    (check c).1 = c.canonical ∧ ∀ s ∈ c.stages, s.Holds s.parts := by
  obtain ⟨passed, hResult⟩ := (check_eq_ok_iff_checkStages c).mp h
  obtain ⟨hHolds, hStages, hPassed⟩ := checkStages_eq_ok hResult
  have hStart : (Passed.start : Passed α).documented = none := rfl
  have hDocumented : passed.documented.getD ⟨0, 0⟩ = documentedOf c.stages := by
    rw [hPassed, documented_foldl_after, documentedOf, hStart, Option.or_none]
  have hTiming : passed.timing = timingOf c.stages := by
    rw [hPassed, timing_foldl_after hHolds]
    rfl
  refine ⟨?_, hHolds⟩
  rw [channel_of_check hResult, hStages, hDocumented, hTiming, Channel.canonical]

/-- What a check makes of a stage. -/
structure Canonicalized (s t : Stage α) : Prop where
  sequence_eq : t.sequence = s.sequence
  input_eq : t.input = s.input
  output_eq : t.output = s.output
  inputName_eq : t.inputName = s.inputName
  /-- The filter, the decimation if there is one, and the gain, which is 1 if there is none. -/
  filtered : ∀ f ∈ filters (joined s.elements),
    ∃ (d : Option (Decimation α)) (g : Option (Gain α)),
      filters (joined s.elements) = [f] ∧ decimations (joined s.elements) = d.toList ∧
        gains (joined s.elements) = g.toList ∧
        t.elements = .filter f.canonicalForm ::
          (d.toList.map .decimation ++ [.gain (g.getD ⟨1, 1⟩)])
  /-- A gain or nothing. -/
  plain : filters (joined s.elements) = [] →
    ∃ g : Option (Gain α), decimations (joined s.elements) = [] ∧
      gains (joined s.elements) = g.toList ∧ t.elements = g.toList.map .gain

theorem canonicalized_canonical {s : Stage α} (h : s.Holds s.parts) :
    Canonicalized s s.canonical := by
  refine ⟨rfl, rfl, rfl, rfl, ?_, ?_⟩
  · intro f hf
    have hFilter : s.parts.filter = some f := by
      rw [h.filter_eq] at hf
      exact Option.mem_toList.mp hf
    refine ⟨s.parts.decimation, s.parts.gain, ?_, h.decimation_eq, h.gain_eq, ?_⟩
    · rw [h.filter_eq, hFilter, Option.toList_some]
    · simp only [Stage.canonical, Parts.canonicalElements, hFilter]
  · intro hNone
    have hFilter : s.parts.filter = none := by
      rw [h.filter_eq] at hNone
      exact Option.toList_eq_nil_iff.mp hNone
    refine ⟨s.parts.gain, ?_, h.gain_eq, ?_⟩
    · rw [h.decimation_eq, h.filter_of_decimation hFilter, Option.toList_none]
    · simp only [Stage.canonical, Parts.canonicalElements, hFilter]

/-- **A check that succeeds leaves the canonical form**: each stage with its filter, decimation and
gain in this order, the last gain of a stage 0 as documented sensitivity, and the delays summed up
in the order of the stages.  Nothing else is changed. -/
theorem check_canonicalizes (c : Channel α) (h : (check c).2.result = .ok ()) :
    List.Forall₂ Canonicalized c.stages (check c).1.stages ∧
      (check c).1.documented = (sensitivitiesOf c.stages).getLast?.getD ⟨0, 0⟩ ∧
      (check c).1.timing =
        { computedDelay := Scalar.sum (tapDelaysOf c.stages)
          estimatedDelay := Scalar.sum ((decimationsOf c.stages).map (·.estimatedDelay))
          appliedCorrection := Scalar.sum ((decimationsOf c.stages).map (·.appliedCorrection))
          interval :=
            (decimationsOf c.stages).getLast?.elim 0 fun d => d.interval * (d.factor : α) } ∧
      (check c).1 =
        { c with
          stages := (check c).1.stages
          documented := (check c).1.documented
          timing := (check c).1.timing } := by
  obtain ⟨hCanonical, hHolds⟩ := canonical_of_check h
  rw [hCanonical]
  refine ⟨?_, rfl, rfl, rfl⟩
  exact List.forall₂_map_right_iff.mpr
    (List.forall₂_same.mpr fun s hs => canonicalized_canonical (hHolds s hs))

/-- A sensor, a decimating filter in two parts and without a gain, and a sensitivity. -/
def digitizer : Channel ℚ :=
  { Channel.empty ⟨"IU", "ANMO", "00", "BHZ"⟩ none none with
    stages :=
      [⟨1, .velocity, .volts, "M/S",
          [.gain ⟨1500, 1⟩, .filter (.poleZero ⟨.laplace, 1, 1, [⟨0, 0⟩], [⟨-6, 0⟩]⟩)]⟩,
        ⟨2, .volts, .counts, "V",
          [.decimation ⟨1 / 100, 2, 0, 1 / 2, 1 / 4⟩, .filter (.fir ⟨.asymmetric, [1, 2], 1⟩),
            .filter (.fir ⟨.asymmetric, [5], 1⟩)]⟩,
        ⟨0, .undefined, .undefined, "", [.gain ⟨1000, 5⟩]⟩] }

theorem check_canonicalizes_digitizer :
    (check digitizer).2.result = .ok () ∧
      List.Forall₂ Canonicalized digitizer.stages (check digitizer).1.stages ∧
      (check digitizer).1.documented = ⟨1000, 5⟩ ∧
      (check digitizer).1.timing = ⟨1 / 100, 1 / 2, 1 / 4, 1 / 50⟩ := by
  have h : (check digitizer).2.result = .ok () := by decide +kernel
  obtain ⟨hStages, hDocumented, hTiming, -⟩ := check_canonicalizes digitizer h
  refine ⟨h, hStages, ?_, ?_⟩
  · rw [hDocumented]
    decide +kernel
  · rw [hTiming]
    decide +kernel

end Chain

end InstrumentResponse
