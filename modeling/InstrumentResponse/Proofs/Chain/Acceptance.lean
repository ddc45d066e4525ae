import InstrumentResponse.Chain.Check
import InstrumentResponse.Proofs.Chain.Joining
import InstrumentResponse.Proofs.Outcomes

/-!
# The chains that are accepted

* `StageWellFormed`, `WellFormed`: what a chain must be like.
* `placed_of_foldlM`, `exists_foldlM`: what it takes to put the elements of a stage in their places.
* `of_checkStage_eq_ok`, `exists_checkStage`: one stage, and what it passes on.
* `check_eq_ok_iff`: the check accepts the well-formed chains.
-/

namespace InstrumentResponse

namespace Chain

variable {α : Type}

/-! ## Well-formed chains -/

/-- Does a filter work on samples: taps, coefficients, or roots in the plane of the delay? -/
def WorksOnSamples : Filter α → Prop
  | .fir h => h.taps ≠ []
  | .recursive _ => True
  | .poleZero pz => pz.plane = .digital ∧ (pz.zeros ≠ [] ∨ pz.poles ≠ [])
  | _ => False

/-- A response list stands in a chain with at most one stage that is more than gains. -/
def MayStand (functional : Nat) (f : Filter α) : Prop := ∀ l, f = .list l → functional ≤ 1

/-- What a stage must be like in a chain with `functional` stages that hold more than gains. -/
structure StageWellFormed (functional : Nat) (s : Stage α) : Prop where
  filters_le : (filters (joined s.elements)).length ≤ 1
  decimations_le : (decimations (joined s.elements)).length ≤ 1
  gains_le : (gains (joined s.elements)).length ≤ 1
  filter_of_decimation : decimations (joined s.elements) ≠ [] → filters (joined s.elements) ≠ []
  units : filters (joined s.elements) ≠ [] → s.input ≠ .undefined ∧ s.output ≠ .undefined
  decimation_of_samples : ∀ f ∈ filters (joined s.elements), WorksOnSamples f →
    decimations (joined s.elements) ≠ []
  list_alone : ∀ f ∈ filters (joined s.elements), MayStand functional f

/-- Does a stage shape the response? -/
def HasFilter (s : Stage α) : Prop := filters (joined s.elements) ≠ []

/-- Does a stage say what the next one with a filter takes in? -/
def feeds (s : Stage α) : Bool := !(filters (joined s.elements)).isEmpty && s.sequence != 0

/-- The stage before which a stage stands, if there is one. -/
def feeding? (before : List (Stage α)) : Option (Stage α) := (before.filter feeds).getLast?

/-- Each stage with a filter takes in what the nearest stage before it with a filter gives out,
apart from stages 0.  The stages `before` come before all others. -/
def ContinuousAfter (before stages : List (Stage α)) : Prop :=
  ∀ between s after, stages = between ++ s :: after → HasFilter s →
    ∀ t, feeding? (before ++ between) = some t → t.output = s.input

/-- A chain of stages that can be evaluated. -/
structure WellFormed (c : Channel α) : Prop where
  stages : ∀ s ∈ c.stages, StageWellFormed (c.stages.countP (!·.isGainOnly)) s
  continuous : ContinuousAfter [] c.stages

theorem isSampled_iff (f : Filter α) : f.isSampled = true ↔ WorksOnSamples f := by
  cases f with
  | poleZero pz =>
    simp only [Filter.isSampled, WorksOnSamples, PoleZero.isRootless, Bool.and_eq_true, beq_iff_eq,
      Bool.not_eq_true', Bool.and_eq_false_iff, List.isEmpty_eq_false_iff, ne_eq]
  | fir h => simp [Filter.isSampled, WorksOnSamples]
  | recursive _ => simp [Filter.isSampled, WorksOnSamples]
  | list _ => simp [Filter.isSampled, WorksOnSamples]
  | generic _ => simp [Filter.isSampled, WorksOnSamples]
  | polynomial _ => simp [Filter.isSampled, WorksOnSamples]

theorem continuousAfter_nil (before : List (Stage α)) : ContinuousAfter before [] := by
  intro between s after h
  simp at h

/-- A chain is continuous if its first stage fits, and the others after it. -/
theorem continuousAfter_cons {before : List (Stage α)} {s : Stage α} {stages : List (Stage α)} :
    ContinuousAfter before (s :: stages) ↔
      (HasFilter s → ∀ t, feeding? before = some t → t.output = s.input) ∧
        ContinuousAfter (before ++ [s]) stages := by
  constructor
  · intro h
    refine ⟨fun hs t ht => h [] s stages rfl hs t (by rwa [List.append_nil]), ?_⟩
    intro between s' after hsplit hs' t ht
    refine h (s :: between) s' after (by rw [hsplit, List.cons_append]) hs' t ?_
    rwa [List.append_assoc] at ht
  · rintro ⟨hfirst, hrest⟩ between s' after hsplit hs' t ht
    cases between with
    | nil =>
      rw [List.nil_append, List.cons.injEq] at hsplit
      obtain ⟨rfl, rfl⟩ := hsplit
      exact hfirst hs' t (by rwa [List.append_nil] at ht)
    | cons first between =>
      rw [List.cons_append, List.cons.injEq] at hsplit
      obtain ⟨rfl, rfl⟩ := hsplit
      exact hrest between s' after rfl hs' t (by rwa [List.append_assoc])

theorem feeding?_append (before : List (Stage α)) (s : Stage α) :
    feeding? (before ++ [s]) = if feeds s then some s else feeding? before := by
  rw [feeding?, List.filter_append]
  by_cases h : feeds s = true
  · simp [h]
  · simp [h, feeding?]

/-! ## Elements in their places -/

variable [Scalar α] {around : Surroundings} {sequence : Nat}

/-- Some elements have been put in their places, besides those that were there. -/
structure Placed (functional : Nat) (parts : Parts α) (es : List (Element α)) (q : Parts α) :
    Prop where
  samples : q.filter.toList.map Filter.isSampled =
    parts.filter.toList.map Filter.isSampled ++ (filters es).map Filter.isSampled
  decimations_eq : q.decimation.toList = parts.decimation.toList ++ decimations es
  gains_eq : q.gain.toList = parts.gain.toList ++ gains es
  mayStand : ∀ f ∈ filters es, MayStand functional f

omit [Scalar α] in
theorem Placed.refl (functional : Nat) (parts : Parts α) : Placed functional parts [] parts :=
  ⟨by simp [filters], by simp [decimations], by simp [gains], by simp [filters]⟩

omit [Scalar α] in
theorem Placed.trans {functional : Nat} {p q r : Parts α} {es es' : List (Element α)}
    (h : Placed functional p es q) (h' : Placed functional q es' r) :
    Placed functional p (es ++ es') r where
  samples := by
    rw [h'.samples, h.samples, filters_append, List.map_append, List.append_assoc]
  decimations_eq := by
    rw [h'.decimations_eq, h.decimations_eq, decimations_append, List.append_assoc]
  gains_eq := by
    rw [h'.gains_eq, h.gains_eq, gains_append, List.append_assoc]
  mayStand := by
    intro f hf
    rw [filters_append] at hf
    rcases List.mem_append.mp hf with hf | hf
    · exact h.mayStand f hf
    · exact h'.mayStand f hf

omit [Scalar α] in
/-- As many filters are in place as there were, and as there are among the elements. -/
theorem Placed.length_filter {functional : Nat} {p q : Parts α} {es : List (Element α)}
    (h : Placed functional p es q) :
    q.filter.toList.length = p.filter.toList.length + (filters es).length := by
  have := congrArg List.length h.samples
  simpa using this

theorem isEmpty_folded (h : Fir α) : h.folded.taps.isEmpty = h.taps.isEmpty := by
  unfold Fir.folded
  split
  · show (h.taps.take ((h.taps.length + 1) / 2)).isEmpty = _
    cases h.taps with
    | nil => rw [List.take_nil]
    | cons tap taps =>
      have hpos : 0 < ((tap :: taps).length + 1) / 2 := by rw [List.length_cons]; omega
      obtain ⟨n, hn⟩ := Nat.exists_eq_succ_of_ne_zero (Nat.ne_of_gt hpos)
      rw [hn]
      rfl
  · rfl

theorem isEmpty_unitSum (taps : List α) : (Fir.unitSum taps).isEmpty = taps.isEmpty := by
  unfold Fir.unitSum
  split
  · rfl
  · exact List.isEmpty_map

/-- Neither scaling nor folding takes away all taps. -/
theorem isEmpty_canonical {id : ChannelId} {h h' : Fir α} (hok : (h.canonical id).result = .ok h') :
    h'.taps.isEmpty = h.taps.isEmpty := by
  unfold Fir.canonical at hok
  split at hok
  · cases hok
    rw [isEmpty_folded, isEmpty_unitSum]
  · cases hok
    rfl

theorem isOk_canonical (id : ChannelId) (h : Fir α) : ∃ h', (h.canonical id).result = .ok h' := by
  unfold Fir.canonical
  split
  · exact ⟨_, rfl⟩
  · exact ⟨h, rfl⟩

/-- A filter that is accepted may stand where it does, and works on samples as before. -/
theorem of_accept_eq_ok {f g : Filter α} (h : (accept around sequence f).result = .ok g) :
    g.isSampled = f.isSampled ∧ MayStand around.functional f := by
  cases f with
  | fir fir =>
    obtain ⟨fir', hfir, hg⟩ := Report.result_bind_eq_ok.mp h
    cases hg
    exact ⟨by rw [Filter.isSampled, Filter.isSampled, isEmpty_canonical hfir], nofun⟩
  | list l =>
    rw [accept] at h
    split at h
    · cases h
    · next hle =>
      cases h
      exact ⟨rfl, fun _ _ => Nat.le_of_not_lt hle⟩
  | poleZero pz =>
    cases h
    exact ⟨rfl, nofun⟩
  | recursive r =>
    cases h
    exact ⟨rfl, nofun⟩
  | generic corners =>
    cases h
    exact ⟨rfl, nofun⟩
  | polynomial p =>
    cases h
    exact ⟨rfl, nofun⟩

theorem exists_accept {f : Filter α} (h : MayStand around.functional f) :
    ∃ g, (accept around sequence f).result = .ok g := by
  cases f with
  | fir fir =>
    obtain ⟨fir', hfir⟩ := isOk_canonical around.id fir
    exact ⟨.fir fir', Report.result_bind_eq_ok.mpr ⟨fir', hfir, rfl⟩⟩
  | list l =>
    rw [accept, if_neg (Nat.not_lt.mpr (h l rfl))]
    exact ⟨.list l, rfl⟩
  | poleZero pz => exact ⟨_, rfl⟩
  | recursive r => exact ⟨_, rfl⟩
  | generic corners => exact ⟨_, rfl⟩
  | polynomial p => exact ⟨_, rfl⟩

theorem placed_of_place {parts q : Parts α} {e : Element α}
    (h : (place around sequence parts e).result = .ok q) :
    Placed around.functional parts [e] q := by
  rcases parts with ⟨filter, decimation, gain⟩
  rcases e with f | d | g
  · rcases filter with _ | filter
    · obtain ⟨f', hf', hq⟩ := Report.result_bind_eq_ok.mp h
      cases hq
      obtain ⟨hsampled, hstand⟩ := of_accept_eq_ok hf'
      refine ⟨?_, ?_, ?_, ?_⟩
      · simp [filters, Element.filter?, hsampled]
      · simp [decimations, Element.decimation?]
      · simp [gains, Element.gain?]
      · simpa [filters, Element.filter?] using hstand
    · cases h
  · rcases decimation with _ | decimation
    · cases h
      refine ⟨?_, ?_, ?_, ?_⟩ <;>
        simp [filters, decimations, gains, Element.filter?, Element.decimation?, Element.gain?]
    · cases h
  · rcases gain with _ | gain
    · cases h
      refine ⟨?_, ?_, ?_, ?_⟩ <;>
        simp [filters, decimations, gains, Element.filter?, Element.decimation?, Element.gain?]
    · cases h

/-- An element is put in its place if that is free, and if it may stand at all. -/
theorem exists_place {parts : Parts α} {e : Element α}
    (hf : parts.filter.toList.length + (filters [e]).length ≤ 1)
    (hd : parts.decimation.toList.length + (decimations [e]).length ≤ 1)
    (hg : parts.gain.toList.length + (gains [e]).length ≤ 1)
    (hs : ∀ f ∈ filters [e], MayStand around.functional f) :
    ∃ q, (place around sequence parts e).result = .ok q := by
  rcases parts with ⟨filter, decimation, gain⟩
  rcases e with f | d | g
  · rcases filter with _ | filter
    · obtain ⟨f', hf'⟩ : ∃ f', (accept around sequence f).result = .ok f' :=
        exists_accept (hs f (by simp [filters, Element.filter?]))
      exact ⟨_, Report.result_bind_eq_ok.mpr ⟨f', hf', rfl⟩⟩
    · simp [filters, Element.filter?] at hf
  · rcases decimation with _ | decimation
    · exact ⟨_, rfl⟩
    · simp [decimations, Element.decimation?] at hd
  · rcases gain with _ | gain
    · exact ⟨_, rfl⟩
    · simp [gains, Element.gain?] at hg

theorem placed_of_foldlM {es : List (Element α)} {parts q : Parts α}
    (h : (es.foldlM (place around sequence) parts).result = .ok q) :
    Placed around.functional parts es q := by
  induction es generalizing parts with
  | nil =>
    cases h
    exact .refl _ _
  | cons e es ih =>
    rw [List.foldlM_cons] at h
    obtain ⟨r, hr, hq⟩ := Report.result_bind_eq_ok.mp h
    exact (placed_of_place hr).trans (ih hq)

theorem exists_foldlM {es : List (Element α)} {parts : Parts α}
    (hf : parts.filter.toList.length + (filters es).length ≤ 1)
    (hd : parts.decimation.toList.length + (decimations es).length ≤ 1)
    (hg : parts.gain.toList.length + (gains es).length ≤ 1)
    (hs : ∀ f ∈ filters es, MayStand around.functional f) :
    ∃ q, (es.foldlM (place around sequence) parts).result = .ok q := by
  induction es generalizing parts with
  | nil => exact ⟨parts, rfl⟩
  | cons e es ih =>
    have hfs : filters (e :: es) = filters [e] ++ filters es := filters_append [e] es
    have hds : decimations (e :: es) = decimations [e] ++ decimations es := decimations_append [e] es
    have hgs : gains (e :: es) = gains [e] ++ gains es := gains_append [e] es
    rw [hfs, List.length_append] at hf
    rw [hds, List.length_append] at hd
    rw [hgs, List.length_append] at hg
    rw [hfs] at hs
    obtain ⟨r, hr⟩ : ∃ r, (place around sequence parts e).result = .ok r :=
      exists_place (by omega) (by omega) (by omega) fun f hf => hs f (List.mem_append_left _ hf)
    have hplaced := placed_of_place hr
    obtain ⟨q, hq⟩ := ih
      (by rw [hplaced.length_filter]; omega)
      (by rw [hplaced.decimations_eq, List.length_append]; omega)
      (by rw [hplaced.gains_eq, List.length_append]; omega)
      fun f hf => hs f (List.mem_append_right _ hf)
    exact ⟨q, by rw [List.foldlM_cons]; exact Report.result_bind_eq_ok.mpr ⟨r, hr, hq⟩⟩

/-! ## Stages -/

theorem arrange_eq_ok {s : Stage α} {q : Parts α} (h : (arrange around s).result = .ok q) :
    Placed around.functional .none (joined s.elements) q := by
  obtain ⟨merged, hmerged, hq⟩ := Report.result_bind_eq_ok.mp h
  obtain hok | ⟨⟨fault, herror⟩, -⟩ := merge_cases s.elements
  · rw [hok] at hmerged
    cases hmerged
    exact placed_of_foldlM hq
  · rw [herror] at hmerged
    cases hmerged

theorem exists_arrange {s : Stage α} (h : StageWellFormed around.functional s) :
    ∃ q, (arrange around s).result = .ok q := by
  obtain hok | ⟨-, hlt⟩ := merge_cases s.elements
  · obtain ⟨q, hq⟩ :
        ∃ q, ((joined s.elements).foldlM (place around s.sequence) .none).result = .ok q :=
      exists_foldlM (by simpa [Parts.none] using h.filters_le)
        (by simpa [Parts.none] using h.decimations_le) (by simpa [Parts.none] using h.gains_le)
        h.list_alone
    refine ⟨q, Report.result_bind_eq_ok.mpr ⟨joined s.elements, ?_, hq⟩⟩
    rw [hok]
    rfl
  · exact absurd h.filters_le (Nat.not_le_of_lt hlt)

omit [Scalar α] in
/-- At most one filter is in place, and it stands for the one among the elements. -/
theorem Placed.filter_cases {functional : Nat} {es : List (Element α)} {q : Parts α}
    (h : Placed functional .none es q) :
    (q.filter = none ∧ filters es = []) ∨
      ∃ f g, q.filter = some f ∧ filters es = [g] ∧ f.isSampled = g.isSampled := by
  have hsamples : q.filter.toList.map Filter.isSampled = (filters es).map Filter.isSampled :=
    h.samples
  cases hq : q.filter with
  | none =>
    rw [hq] at hsamples
    exact .inl ⟨rfl, List.map_eq_nil_iff.mp hsamples.symm⟩
  | some f =>
    rw [hq] at hsamples
    obtain ⟨g, hg, hsampled⟩ := List.map_eq_singleton_iff.mp hsamples.symm
    exact .inr ⟨f, g, rfl, hg, hsampled.symm⟩

omit [Scalar α] in
theorem Placed.decimations_eq_toList {functional : Nat} {es : List (Element α)} {q : Parts α}
    (h : Placed functional .none es q) : decimations es = q.decimation.toList :=
  h.decimations_eq.symm

omit [Scalar α] in
theorem length_toList_le_one {β : Type} (b : Option β) : b.toList.length ≤ 1 := by
  cases b with
  | none => exact Nat.zero_le 1
  | some b => exact Nat.le_refl 1

omit [Scalar α] in
/-- A filter fits if the units of its stage are known, a decimation stands beside it if it needs
one, and it takes in what the stage before gives out. -/
theorem misfit?_eq_none_iff {p : Passed α} {s : Stage α} {f : Filter α} {d : Option (Decimation α)} :
    misfit? p s f d = none ↔ (s.input ≠ .undefined ∧ s.output ≠ .undefined) ∧
      (f.isSampled = true → d.isSome = true) ∧ ∀ prev, p.previous = some prev → prev.2 = s.input := by
  unfold misfit?
  by_cases hunits : s.input = .undefined ∨ s.output = .undefined
  · rw [if_pos hunits]
    refine ⟨nofun, fun ⟨⟨hin, hout⟩, _⟩ => absurd hunits ?_⟩
    rintro (h | h)
    · exact hin h
    · exact hout h
  · rw [if_neg hunits]
    have hknown : s.input ≠ .undefined ∧ s.output ≠ .undefined := not_or.mp hunits
    by_cases hmissing : (d.isNone && f.isSampled) = true
    · rw [if_pos hmissing]
      obtain ⟨hd, hf⟩ := Bool.and_eq_true_iff.mp hmissing
      refine ⟨nofun, fun ⟨_, h, _⟩ => ?_⟩
      have hsome := h hf
      rw [Option.isNone_iff_eq_none.mp hd] at hsome
      cases hsome
    · rw [if_neg hmissing]
      have hdecimation : f.isSampled = true → d.isSome = true := by
        intro hf
        cases d with
        | none => exact absurd (by simp [hf]) hmissing
        | some d => rfl
      rcases p.previous with _ | ⟨previous, output⟩
      · exact ⟨fun _ => ⟨hknown, hdecimation, nofun⟩, fun _ => rfl⟩
      · dsimp only
        by_cases hfits : output = s.input
        · rw [if_pos hfits]
          refine ⟨fun _ => ⟨hknown, hdecimation, ?_⟩, fun _ => rfl⟩
          rintro _ ⟨rfl⟩
          exact hfits
        · rw [if_neg hfits]
          exact ⟨nofun, fun ⟨_, _, h⟩ => absurd (h _ rfl) hfits⟩

/-- What is true of a stage that is accepted, and what it passes on. -/
theorem of_checkStage_eq_ok {p passed : Passed α} {s checked : Stage α}
    (h : (checkStage around p s).result = .ok (checked, passed)) :
    StageWellFormed around.functional s ∧
      (HasFilter s → ∀ prev, p.previous = some prev → prev.2 = s.input) ∧
      passed.previous = if feeds s then some (s.sequence, s.output) else p.previous := by
  obtain ⟨q, harrange, h⟩ := Report.result_bind_eq_ok.mp h
  have hplaced := arrange_eq_ok harrange
  have hdecimations := hplaced.decimations_eq_toList
  have hdecimations_le : (decimations (joined s.elements)).length ≤ 1 :=
    hdecimations ▸ length_toList_le_one _
  have hgains_le : (gains (joined s.elements)).length ≤ 1 := by
    rw [← show q.gain.toList = gains (joined s.elements) from hplaced.gains_eq]
    exact length_toList_le_one _
  obtain ⟨hq, hfilters⟩ | ⟨f, g, hq, hfilters, hsampled⟩ := hplaced.filter_cases
  · simp only [hq] at h
    split at h
    · cases h
    · next hstray =>
      cases h
      have hnone : decimations (joined s.elements) = [] := by
        rw [hdecimations, Option.not_isSome_iff_eq_none.mp hstray]
        rfl
      refine ⟨⟨by simp [hfilters], hdecimations_le, hgains_le, fun hc => absurd hnone hc,
        fun hc => absurd hfilters hc, by simp [hfilters], hplaced.mayStand⟩,
        fun hc => absurd hfilters hc, ?_⟩
      rw [feeds, hfilters]
      rfl
  · simp only [hq] at h
    split at h
    · cases h
    · next hmisfit =>
      obtain ⟨hunits, hdecimation, hprevious⟩ := misfit?_eq_none_iff.mp hmisfit
      obtain ⟨gain, -, hok⟩ := Report.result_bind_eq_ok.mp h
      cases hok
      refine ⟨⟨by simp [hfilters], hdecimations_le, hgains_le, fun _ => by simp [hfilters],
        fun _ => hunits, ?_, hplaced.mayStand⟩, fun _ => hprevious, ?_⟩
      · intro f' hf' hsamples
        rw [hfilters, List.mem_singleton] at hf'
        have hsome := hdecimation (hsampled.trans (hf' ▸ (isSampled_iff f').mpr hsamples))
        rw [hdecimations]
        obtain ⟨d, hd⟩ := Option.isSome_iff_exists.mp hsome
        simp [hd]
      · by_cases hzero : s.sequence = 0
        · simp [feeds, hfilters, hzero]
        · simp [feeds, hfilters, hzero]

/-- A well-formed stage that takes in what it is given is accepted. -/
theorem exists_checkStage {p : Passed α} {s : Stage α} (h : StageWellFormed around.functional s)
    (hfits : HasFilter s → ∀ prev, p.previous = some prev → prev.2 = s.input) :
    ∃ r, (checkStage around p s).result = .ok r := by
  obtain ⟨q, harrange⟩ := exists_arrange h
  have hplaced := arrange_eq_ok harrange
  have hdecimations := hplaced.decimations_eq_toList
  obtain ⟨hq, hfilters⟩ | ⟨f, g, hq, hfilters, hsampled⟩ := hplaced.filter_cases
  · have hnone : q.decimation = none := by
      have hempty : decimations (joined s.elements) = [] :=
        Classical.not_not.mp fun hc => h.filter_of_decimation hc hfilters
      exact Option.toList_eq_nil_iff.mp (hdecimations.symm.trans hempty)
    refine Report.exists_bind_eq_ok harrange ?_
    simp only [hq, hnone]
    exact ⟨_, rfl⟩
  · have hfilter : HasFilter s := by simp [HasFilter, hfilters]
    have hmisfit : misfit? p s f q.decimation = none := by
      refine misfit?_eq_none_iff.mpr ⟨h.units hfilter, fun hf => ?_, hfits hfilter⟩
      have hsome := h.decimation_of_samples g (by simp [hfilters])
        ((isSampled_iff g).mp (hsampled.symm.trans hf))
      rw [hdecimations] at hsome
      cases hd : q.decimation with
      | none => rw [hd] at hsome; exact absurd rfl hsome
      | some d => rfl
    have hgain : ∃ gain, (gainOr around s.sequence q.gain).result = .ok gain := by
      cases q.gain with
      | none => exact ⟨_, rfl⟩
      | some g => exact ⟨g, rfl⟩
    obtain ⟨gain, hgain⟩ := hgain
    refine Report.exists_bind_eq_ok harrange ?_
    simp only [hq, hmisfit]
    exact Report.exists_bind_eq_ok hgain ⟨_, rfl⟩

/-! ## Chains -/

/-- What has been passed on tells the nearest stage before that feeds the next one. -/
def Remembers (p : Passed α) (before : List (Stage α)) : Prop :=
  p.previous = (feeding? before).map fun t => (t.sequence, t.output)

omit [Scalar α] in
/-- A stage takes in what has been passed on if it takes in what the nearest stage gives out. -/
theorem Remembers.fits_iff {p : Passed α} {before : List (Stage α)} (h : Remembers p before)
    (s : Stage α) :
    (∀ prev, p.previous = some prev → prev.2 = s.input) ↔
      ∀ t, feeding? before = some t → t.output = s.input := by
  rw [h]
  simp

/-- The stages of a chain are accepted if they are well-formed and continuous. -/
theorem checkStages_eq_ok_iff (around : Surroundings) (stages : List (Stage α)) {p : Passed α}
    {before : List (Stage α)} (hp : Remembers p before) :
    (∃ passed, (checkStages around p stages).2.result = .ok passed) ↔
      (∀ s ∈ stages, StageWellFormed around.functional s) ∧ ContinuousAfter before stages := by
  -- the stages before grow by one at each step, and what is passed on keeps up with them
  induction stages generalizing p before with
  | nil => exact ⟨fun _ => ⟨fun s hs => absurd hs List.not_mem_nil, continuousAfter_nil before⟩,
      fun _ => ⟨p, rfl⟩⟩
  | cons s stages ih =>
    rw [List.forall_mem_cons, continuousAfter_cons, checkStages]
    cases hstage : checkStage around p s with
    | mk warnings result =>
      cases result with
      | error fault =>
        refine ⟨nofun, fun ⟨⟨hs, _⟩, hfits, _⟩ => ?_⟩
        obtain ⟨r, hr⟩ := exists_checkStage hs fun hfilter => (hp.fits_iff s).mpr (hfits hfilter)
        rw [hstage] at hr
        cases hr
      | ok r =>
        obtain ⟨checked, passed⟩ := r
        obtain ⟨hs, hfits, hprevious⟩ := of_checkStage_eq_ok (congrArg Report.result hstage)
        have hremembers : Remembers passed (before ++ [s]) := by
          rw [Remembers, hprevious, feeding?_append, hp]
          split <;> rfl
        dsimp only
        rw [ih hremembers]
        refine ⟨fun ⟨hrest, hcontinuous⟩ => ⟨⟨hs, hrest⟩, fun hfilter => ?_, hcontinuous⟩,
          fun ⟨⟨_, hrest⟩, _, hcontinuous⟩ => ⟨hrest, hcontinuous⟩⟩
        exact (hp.fits_iff s).mp (hfits hfilter)

/-- A channel is accepted if its stages are. -/
theorem check_accepts_iff (c : Channel α) :
    (check c).2.result = .ok () ↔
      (∀ s ∈ c.stages, StageWellFormed (c.stages.countP (!·.isGainOnly)) s) ∧
        ContinuousAfter [] c.stages := by
  have hstart : Remembers (Passed.start : Passed α) [] := rfl
  refine Iff.trans ?_
    (checkStages_eq_ok_iff ⟨c.id, c.stages.countP (!·.isGainOnly)⟩ c.stages hstart)
  unfold check
  dsimp only
  generalize checkStages _ _ c.stages = checked
  obtain ⟨stages, warnings, fault | passed⟩ := checked
  · exact ⟨nofun, nofun⟩
  · exact ⟨fun _ => ⟨passed, rfl⟩, fun _ => rfl⟩

/-- **The check accepts the well-formed chains**, and no others. -/
theorem check_eq_ok_iff (c : Channel α) : (check c).2.result = .ok () ↔ WellFormed c :=
  (check_accepts_iff c).trans
    ⟨fun ⟨hstages, hcontinuous⟩ => ⟨hstages, hcontinuous⟩,
      fun h => ⟨h.stages, h.continuous⟩⟩

end Chain

end InstrumentResponse
