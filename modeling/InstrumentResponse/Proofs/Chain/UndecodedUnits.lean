import InstrumentResponse.Proofs.Chain.Tables

/-!
# Chains with undecoded units

A chain of which no unit was looked at fits together whatever its stages are, and its input is no
ground motion, so that a response cannot be turned into one to another ground motion.

* `Stage.Undecoded`: what units a stage has where they are left undecoded.
* `check_undecoded`: a check finds nothing wrong with such units.
* `evaluateChannel_outputUnit`: an evaluation without ground motion does not depend on the ground
  motion that is wanted.
-/

namespace InstrumentResponse

variable {α : Type}

/-- No unit of a stage was looked at: both are undecoded, or there are none, and no filter
either. -/
inductive Stage.Undecoded (s : Stage α) : Prop where
  | undecoded (input_eq : s.input = .undecoded) (output_eq : s.output = .undecoded)
  | bare (hasUnits_eq : s.hasUnits = false) (filter?_eq : s.filter? = none)

/-- No unit of a channel was looked at. -/
structure Channel.Undecoded [Scalar α] (c : Channel α) : Prop where
  stages : ∀ s ∈ c.stages, s.Undecoded
  unitScale_eq : c.unitScale = 1

/-- Is a fault about units that are not known, or that do not fit? -/
def Fault.isAboutUnits : Fault α → Bool
  | .chain _ .undefinedUnits => true
  | .unitsMismatch .. => true
  | _ => false

namespace Chain

/-! ## Faults of a check -/

section Faults

variable {β γ : Type}

/-- What went wrong with some work, if anything, is not about units. -/
def SparesUnits (r : Report α β) : Prop :=
  ∀ fault, r.result = .error fault → fault.isAboutUnits = false

theorem sparesUnits_done (b : β) : SparesUnits (.done b : Report α β) := nofun

theorem sparesUnits_error {warnings : List (Warning α)} {fault : Fault α}
    (h : fault.isAboutUnits = false) : SparesUnits (⟨warnings, .error fault⟩ : Report α β) :=
  Report.faultsAre_error h

theorem SparesUnits.bind {r : Report α β} {next : β → Report α γ} (h : SparesUnits r)
    (hNext : ∀ b, r.result = .ok b → SparesUnits (next b)) : SparesUnits (r >>= next) :=
  Report.FaultsAre.bind h hNext

theorem sparesUnits_foldlM {step : γ → β → Report α γ} (h : ∀ c b, SparesUnits (step c b))
    (l : List β) (c : γ) : SparesUnits (l.foldlM step c) :=
  Report.faultsAre_foldlM h l c

theorem join?_ne_undefinedUnits (a b : Element α) : join? a b ≠ .error .undefinedUnits := by
  unfold join?
  split
  · exact nofun
  · exact nofun
  · exact nofun
  · exact nofun
  · exact nofun

theorem mergeFrom_ne_undefinedUnits (element : Element α) (rest : List (Element α)) :
    mergeFrom element rest ≠ .error .undefinedUnits := by
  induction rest generalizing element with
  | nil => rintro ⟨⟩
  | cons next rest ih =>
    cases hJoin : join? element next with
    | error fault =>
      rw [mergeFrom_of_error hJoin]
      rintro ⟨⟩
      exact join?_ne_undefinedUnits element next hJoin
    | ok joined =>
      cases joined with
      | some both =>
        rw [mergeFrom_of_some hJoin]
        exact ih both
      | none =>
        have hRest := ih next
        rw [mergeFrom_of_none hJoin]
        cases hMerge : mergeFrom next rest with
        | error fault =>
          rintro ⟨⟩
          exact hRest hMerge
        | ok others => rintro ⟨⟩

theorem sparesUnits_merge (n : Nat) (es : List (Element α)) :
    SparesUnits (.ofExcept ((merge es).mapError (.chain n)) : Report α _) := by
  have hMerge : merge es ≠ .error .undefinedUnits := by
    cases es with
    | nil => exact nofun
    | cons element rest => exact mergeFrom_ne_undefinedUnits element rest
  intro fault hFault
  cases hResult : merge es with
  | ok merged =>
    rw [hResult] at hFault
    cases hFault
  | error e =>
    rw [hResult] at hFault hMerge
    cases hFault
    cases e with
    | undefinedUnits => exact absurd rfl hMerge
    | _ => rfl

variable [Scalar α] {around : Surroundings} {sequence : Nat}

theorem sparesUnits_accept (f : Filter α) : SparesUnits (accept around sequence f) := by
  cases f with
  | fir h =>
    obtain ⟨h', hCanonical⟩ := isOk_canonical around.id h
    refine SparesUnits.bind ?_ fun b _ => sparesUnits_done _
    intro fault hFault
    rw [hCanonical] at hFault
    cases hFault
  | generic corners => exact SparesUnits.bind nofun fun _ _ => sparesUnits_done _
  | list l =>
    rw [accept]
    split
    · exact sparesUnits_error rfl
    · exact sparesUnits_done _
  | poleZero pz => exact sparesUnits_done _
  | recursive r => exact sparesUnits_done _
  | polynomial p => exact sparesUnits_done _

theorem sparesUnits_place (parts : Parts α) (e : Element α) :
    SparesUnits (place around sequence parts e) := by
  rcases e with f | d | g
  · rw [place]
    split
    · exact sparesUnits_error rfl
    · exact (sparesUnits_accept f).bind fun _ _ => sparesUnits_done _
  · rw [place]
    split
    · exact sparesUnits_error rfl
    · exact sparesUnits_done _
  · rw [place]
    split
    · exact sparesUnits_error rfl
    · exact sparesUnits_done _

theorem sparesUnits_arrange (s : Stage α) : SparesUnits (arrange around s) :=
  (sparesUnits_merge s.sequence s.elements).bind fun _ _ => sparesUnits_foldlM sparesUnits_place _ _

end Faults

/-! ## Stages -/

section Stages

variable [Scalar α] {around : Surroundings} {p : Passed α} {s : Stage α}

/-- What the last stage with a filter gives out was not looked at. -/
def PassesUndecoded (p : Passed α) : Prop := p.previous.all (·.2 == .undecoded) = true

omit [Scalar α] in
/-- The units of a stage with a filter are undecoded, not missing. -/
theorem undecoded_of_hasFilter (h : s.Undecoded) (hFilter : HasFilter s) :
    s.input = .undecoded ∧ s.output = .undecoded := by
  cases h with
  | undecoded hInput hOutput => exact ⟨hInput, hOutput⟩
  | bare _ hNone =>
    rw [Stage.filter?, ← List.head?_filterMap, List.head?_eq_none_iff] at hNone
    exact absurd ((filters_joined_eq_nil_iff s.elements).mpr hNone) hFilter

omit [Scalar α] in
/-- A stage with a filter that was not looked at fits after others of the kind. -/
theorem isAboutUnits_misfit? {f : Filter α} {d : Option (Decimation α)} {fault : Fault α}
    (hUnits : s.input = .undecoded ∧ s.output = .undecoded) (hPassed : PassesUndecoded p)
    (h : misfit? p s f d = some fault) : fault.isAboutUnits = false := by
  obtain ⟨hInput, hOutput⟩ := hUnits
  rw [misfit?, hInput, hOutput] at h
  split at h
  · next hUndefined => simp at hUndefined
  · split at h
    · cases h
      rfl
    · cases hPrevious : p.previous with
      | none =>
        rw [hPrevious] at h
        cases h
      | some prev =>
        rw [PassesUndecoded, hPrevious, Option.all_some, beq_iff_eq] at hPassed
        rw [hPrevious] at h
        dsimp only at h
        rw [if_pos hPassed] at h
        cases h

theorem sparesUnits_checkStage (hs : s.Undecoded) (hPassed : PassesUndecoded p) :
    SparesUnits (checkStage around p s) := by
  refine (sparesUnits_arrange s).bind fun q hArrange => ?_
  obtain ⟨hNone, -⟩ | ⟨f, g, hSome, hFilters, -⟩ := (arrange_eq_ok hArrange).filter_cases
  · simp only [hNone]
    split
    · exact sparesUnits_error rfl
    · exact sparesUnits_done _
  · have hFilter : HasFilter s := by
      rw [HasFilter, hFilters]
      exact List.cons_ne_nil g []
    simp only [hSome]
    cases hMisfit : misfit? p s f q.decimation with
    | some fault =>
      exact sparesUnits_error
        (isAboutUnits_misfit? (undecoded_of_hasFilter hs hFilter) hPassed hMisfit)
    | none =>
      refine SparesUnits.bind ?_ fun _ _ => sparesUnits_done _
      cases q.gain with
      | some gain => exact sparesUnits_done gain
      | none => rintro _ ⟨⟩

theorem passesUndecoded_of_checkStage {checked : Stage α} {passed : Passed α} (hs : s.Undecoded)
    (hPassed : PassesUndecoded p) (h : (checkStage around p s).result = .ok (checked, passed)) :
    PassesUndecoded passed := by
  obtain ⟨-, -, hPrevious⟩ := of_checkStage_eq_ok h
  rw [PassesUndecoded, hPrevious]
  split
  · next hFeeds =>
    have hFilter : HasFilter s := by
      intro hNil
      rw [feeds, hNil] at hFeeds
      cases hFeeds
    rw [Option.all_some, (undecoded_of_hasFilter hs hFilter).2]
    rfl
  · exact hPassed

theorem sparesUnits_checkStages {stages : List (Stage α)} (h : ∀ s ∈ stages, s.Undecoded)
    (hPassed : PassesUndecoded p) : SparesUnits (checkStages around p stages).2 := by
  induction stages generalizing p with
  | nil => exact sparesUnits_done p
  | cons s stages ih =>
    obtain ⟨hs, hRest⟩ := List.forall_mem_cons.mp h
    have hSpares : SparesUnits (checkStage around p s) := sparesUnits_checkStage hs hPassed
    rw [checkStages]
    rcases hStage : checkStage around p s with ⟨warnings, fault | ⟨checked, passed⟩⟩
    · rw [hStage] at hSpares
      exact sparesUnits_error (hSpares fault rfl)
    · have hOk : (checkStage around p s).result = .ok (checked, passed) := by rw [hStage]
      exact ih hRest (passesUndecoded_of_checkStage hs hPassed hOk)

/-- Where no unit of a channel was looked at, a check finds nothing wrong with the units. -/
theorem check_undecoded {c : Channel α} (h : c.Undecoded) : SparesUnits (check c).2 := by
  have hStages : SparesUnits
      (checkStages ⟨c.id, c.stages.countP (!·.isGainOnly)⟩ .start c.stages).2 :=
    sparesUnits_checkStages h.stages rfl
  rw [check]
  dsimp only
  generalize checkStages _ .start c.stages = r at hStages ⊢
  rcases r with ⟨stages, warnings, fault | passed⟩
  · exact sparesUnits_error (hStages fault rfl)
  · exact nofun

end Stages

/-! ## Inputs -/

/-- What the stages of a channel take in. -/
def inputs (c : Channel α) : List Quantity := c.stages.map (·.input)

theorem inputs_check [Scalar α] {c : Channel α} (h : (check c).2.result = .ok ()) :
    inputs (check c).1 = inputs c := by
  rw [(canonical_of_check h).1]
  exact List.map_map

theorem inputs_withList (c : Channel α) (l : ResponseList α) :
    inputs (c.withList l) = inputs c := by
  refine map_replaceFirst_of (fun s t hReplaced => ?_) c.stages
  rw [Stage.withList?] at hReplaced
  split at hReplaced
  · cases hReplaced
    rfl
  · cases hReplaced

section Evaluation

variable [Analytic α] {c : Channel α}

theorem inputs_align (mode : ListMode) (requested : List α) (c : Channel α) :
    inputs (align mode requested c).1 = inputs c := by
  rw [align]
  cases c.list? with
  | none => rfl
  | some l =>
    cases mode with
    | native => rfl
    | interpolateOutput => rfl
    | interpolateInput =>
      dsimp only
      rcases l.interpolate requested with ⟨warnings, fault | aligned⟩
      · rfl
      · exact inputs_withList c aligned

theorem Normalized.inputs_eq {range : StageRange} {n : Channel α} (h : Normalized range c n) :
    inputs n = inputs c := by
  rw [inputs, inputs, ← List.forall₂_eq_eq_eq]
  refine List.rel_map (fun s t hTo => ?_) h.stages_to.flip
  cases hTo with
  | kept => rfl
  | moved => rfl

/-- No stage of a channel takes in ground motion. -/
def TakesNoMotion (c : Channel α) : Prop := ∀ q ∈ inputs c, q.isGroundMotion = false

omit [Analytic α] in
theorem TakesNoMotion.input (h : TakesNoMotion c) : c.input.isGroundMotion = false := by
  rw [Channel.input]
  cases hFirst : c.stages.find? (·.hasUnits) with
  | none => rfl
  | some s => exact h _ (List.mem_map.mpr ⟨s, List.mem_of_find?_eq_some hFirst, rfl⟩)

omit [Analytic α] in
theorem takesNoMotion_of_undecoded [Scalar α] (h : c.Undecoded) : TakesNoMotion c := by
  intro q hq
  obtain ⟨s, hs, rfl⟩ := List.mem_map.mp hq
  cases h.stages s hs with
  | undecoded hInput => rw [hInput]; rfl
  | bare hUnits =>
    rw [Stage.hasUnits, Bool.or_eq_false_iff, bne_eq_false_iff_eq] at hUnits
    rw [hUnits.1]
    rfl

/-- A response to something else than ground motion is not turned into one to ground motion. -/
theorem convert_of_not_isGroundMotion {input : Quantity} (h : input.isGroundMotion = false)
    (w : α) (output : OutputUnit) (v : Phasor α) : convert w input output v = v := by
  rw [convert]
  cases output.target? with
  | none => rfl
  | some target => exact if_pos (.inl h)

theorem calculate_outputUnit (h : TakesNoMotion c) (options : Options α) (u : OutputUnit)
    (frequencies : List α) :
    calculate { options with outputUnit := u } c frequencies = calculate options c frequencies := by
  have hAt : ∀ (f : α) (index : Nat),
      responseAt { options with outputUnit := u } c f index = responseAt options c f index := by
    intro f index
    rw [responseAt, responseAt]
    simp only [convert_of_not_isGroundMotion h.input]
    rfl
  rw [calculate, calculate]
  simp only [hAt]

end Evaluation

end Chain

open Chain

/-- **Without ground motion at its input an evaluation does not depend on the ground motion that is
wanted**: neither the response nor the warnings nor the channel that is left. -/
theorem evaluateChannel_outputUnit [Analytic α] {c : Channel α} (h : TakesNoMotion c)
    (options : Options α) (requested : List α) (u : OutputUnit) :
    evaluateChannel { options with outputUnit := u } requested c =
      evaluateChannel options requested c := by
  refine Step.bind_congr fun _ hCheck => Step.bind_congr fun frequencies hAlign =>
    Step.bind_congr fun _ hNormalize => ?_
  have hInputs : inputs (normalize options.stages
      (align options.listMode requested (check c).1).1).1 = inputs c := by
    rw [(normalized_of_ok hNormalize).inputs_eq, inputs_align, inputs_check hCheck]
  have hNone : TakesNoMotion (normalize options.stages
      (align options.listMode requested (check c).1).1).1 := by
    rw [TakesNoMotion, hInputs]
    exact h
  show (_, Report.ofExcept ((calculate { options with outputUnit := u } _ frequencies).map _)) = _
  rw [calculate_outputUnit hNone]
  rfl

end InstrumentResponse
