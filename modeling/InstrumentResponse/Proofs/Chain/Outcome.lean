import InstrumentResponse.Proofs.Chain.Tables

/-!
# When an evaluation fails

Once a channel is checked, aligned with the frequencies of the response and normalized, its response
can be calculated, unless no stage is in range, or a polynomial is that has no positive operating
point.

* `operatingFault?`: what is wrong with the operating point.
* `faultOf?_stageResponse`, `faultOf?_responseAt`, `faultOf?_calculate`: the fault of a stage, of a
  frequency and of a calculation.
* `faultOf?_evaluateChannel`: that of an evaluation, told from the channel before all steps.
* `evaluateChannel_outcome`: the faults and the responses of an evaluation.
-/

namespace InstrumentResponse

namespace Chain

variable {α : Type} [Analytic α] {options : Options α} {c : Channel α}

/-! ## Stages -/

/-- What is wrong with the point at which polynomials are evaluated: there is none, or it is not
positive or not finite. -/
def operatingFault? (options : Options α) : Option (Fault α) :=
  options.operatingPoint.elim (some (.domain .noOperatingPoint)) fun x =>
    if x ≤ 0 ∨ Scalar.isFinite x = false then some (.domain (.notPositive x)) else none

theorem faultOf?_responseAt_mapError (cs : List α) {x : α}
    (hPoint : options.operatingPoint = some x) :
    faultOf? (((Polynomial.responseAt cs x).map some).mapError Fault.domain) =
      operatingFault? options := by
  rw [operatingFault?, hPoint, Option.elim_some, Polynomial.responseAt]
  by_cases hWrong : x ≤ (Scalar.ofNat 0).ofNat ∨ Scalar.isFinite x = false
  · rw [if_pos hWrong, if_pos hWrong]
    rfl
  · rw [if_neg hWrong, if_neg hWrong]
    rfl

theorem exists_row? {l : ResponseList α} {index : Nat} (hAmplitudes : index < l.amplitudes.length)
    (hPhases : index < l.phases.length) : ∃ v, l.row? index = some v := by
  rw [ResponseList.row?, List.getElem?_eq_getElem hAmplitudes, List.getElem?_eq_getElem hPhases]
  exact ⟨_, rfl⟩

/-- The factor of an element can be told unless it is a polynomial, if lists are long enough. -/
theorem faultOf?_elementResponse {s : Stage α} {f : α} {index : Nat} {e : Element α}
    (h : ∀ l, e.list? = some l → index < l.amplitudes.length ∧ index < l.phases.length) :
    faultOf? (elementResponse options s f index e) =
      if e.isPolynomial then operatingFault? options else none := by
  rcases e with main | d | g
  · cases main with
    | list l =>
      obtain ⟨hAmplitudes, hPhases⟩ := h l rfl
      obtain ⟨v, hRow⟩ := exists_row? hAmplitudes hPhases
      rw [elementResponse, hRow]
      rfl
    | polynomial p =>
      rw [elementResponse]
      cases hPoint : options.operatingPoint with
      | none =>
        rw [operatingFault?, hPoint]
        rfl
      | some x => exact faultOf?_responseAt_mapError p.coefficients hPoint
    | _ => rfl
  · rfl
  · rfl

theorem faultOf?_stageResponse {s : Stage α} {f : α} {index : Nat}
    (h : ∀ e ∈ s.elements, ∀ l, e.list? = some l →
      index < l.amplitudes.length ∧ index < l.phases.length) :
    faultOf? (stageResponse options f index s) =
      if s.elements.any Element.isPolynomial then operatingFault? options else none := by
  rw [stageResponse, ← findSome?_ite]
  refine faultOf?_foldlM _ (fun e he v => ?_) 1
  rw [faultOf?_bind_pure, faultOf?_elementResponse (h e he)]

/-! ## Channels -/

/-- Does a stage in range hold a polynomial? -/
def NeedsOperatingPoint (range : StageRange) (c : Channel α) : Prop :=
  ∃ s ∈ c.stages, range.contains s.sequence = true ∧ ∃ p, .filter (.polynomial p) ∈ s.elements

/-- The stages in range that hold a polynomial. -/
def polynomialInRange (range : StageRange) (c : Channel α) : Bool :=
  (c.stages.filter (range.contains ·.sequence)).any fun s => s.elements.any Element.isPolynomial

omit [Analytic α] in
theorem polynomialInRange_eq (range : StageRange) (c : Channel α) :
    polynomialInRange range c = (outlines c).any fun o => range.contains o.1 && o.2 := by
  rw [polynomialInRange, outlines, List.any_filter, List.any_map]
  rfl

omit [Analytic α] in
theorem anyInRange_eq (range : StageRange) (c : Channel α) :
    (c.stages.any fun s => range.contains s.sequence) =
      (outlines c).any fun o => range.contains o.1 := by
  rw [outlines, List.any_map]
  rfl

omit [Analytic α] in
theorem polynomialInRange_iff {range : StageRange} :
    polynomialInRange range c = true ↔ NeedsOperatingPoint range c := by
  rw [polynomialInRange, List.any_eq_true]
  constructor
  · rintro ⟨s, hs, hPolynomial⟩
    obtain ⟨hStage, hInside⟩ := List.mem_filter.mp hs
    obtain ⟨e, he, hKind⟩ := List.any_eq_true.mp hPolynomial
    rcases e with f | d | g
    · cases f with
      | polynomial p => exact ⟨s, hStage, hInside, p, he⟩
      | _ => cases hKind
    · cases hKind
    · cases hKind
  · rintro ⟨s, hStage, hInside, p, hp⟩
    exact ⟨s, List.mem_filter.mpr ⟨hStage, hInside⟩, List.any_eq_true.mpr ⟨_, hp, rfl⟩⟩

theorem faultOf?_responseAt {f : α} {index rows : Nat} (hServes : Serves rows c.elements)
    (hIndex : index < rows) :
    faultOf? (responseAt options c f index) =
      if polynomialInRange options.stages c then operatingFault? options else none := by
  have hStages : ∀ s ∈ c.stages.filter (options.stages.contains ·.sequence), ∀ v : Phasor α,
      faultOf? (stageResponse options f index s >>= fun w => pure (v * w)) =
        if s.elements.any Element.isPolynomial then operatingFault? options else none := by
    intro s hs v
    rw [faultOf?_bind_pure]
    refine faultOf?_stageResponse fun e he l hList => ?_
    have hMem : e ∈ c.elements := List.mem_flatMap.mpr ⟨s, (List.mem_filter.mp hs).1, he⟩
    obtain ⟨hAmplitudes, hPhases⟩ := hServes l (List.mem_filterMap.mpr ⟨e, hMem, hList⟩)
    rw [hAmplitudes, hPhases]
    exact ⟨hIndex, hIndex⟩
  rw [responseAt, faultOf?_bind_pure, totalResponse, polynomialInRange, ← findSome?_ite]
  exact faultOf?_foldlM _ hStages 1

/-- Why a response cannot be calculated. -/
def calculationFault? (options : Options α) (c : Channel α) (frequencies : List α) :
    Option (Fault α) :=
  if c.stages.any (options.stages.contains ·.sequence) then
    if !frequencies.isEmpty && polynomialInRange options.stages c then operatingFault? options
    else none
  else some (.noStageMatched options.stages)

theorem calculationFault?_of_outlines_eq {d : Channel α} {frequencies : List α}
    (h : outlines d = outlines c) :
    calculationFault? options d frequencies = calculationFault? options c frequencies := by
  rw [calculationFault?, calculationFault?, polynomialInRange_eq, polynomialInRange_eq,
    anyInRange_eq, anyInRange_eq, h]

/-- The fault of a calculation at some frequencies, for which the lists of a channel have rows. -/
theorem faultOf?_calculate {frequencies : List α} (hServes : Serves frequencies.length c.elements) :
    faultOf? (calculate options c frequencies) =
      calculationFault? options c frequencies := by
  rw [calculate, calculationFault?]
  by_cases hAny : c.stages.any (options.stages.contains ·.sequence) = true
  · rw [if_pos hAny, if_pos hAny]
    have hRows : ∀ p ∈ frequencies.zipIdx, faultOf? (responseAt options c p.1 p.2) =
        if polynomialInRange options.stages c then operatingFault? options else none := by
      intro p hp
      exact faultOf?_responseAt hServes (List.snd_lt_of_mem_zipIdx hp)
    refine (faultOf?_mapM (fun _ =>
      if polynomialInRange options.stages c then operatingFault? options else none) hRows).trans ?_
    rw [findSome?_ite]
    cases frequencies with
    | nil => rfl
    | cons f rest => cases polynomialInRange options.stages c <;> simp
  · rw [if_neg hAny, if_neg hAny]
    rfl

theorem calculationFault?_eq_some_iff {frequencies : List α} {fault : Fault α} :
    calculationFault? options c frequencies = some fault ↔
      (fault = .noStageMatched options.stages ∧
        ∀ s ∈ c.stages, options.stages.contains s.sequence = false) ∨
      (operatingFault? options = some fault ∧ frequencies ≠ [] ∧
        NeedsOperatingPoint options.stages c) := by
  rw [calculationFault?]
  by_cases hAny : c.stages.any (options.stages.contains ·.sequence) = true
  · obtain ⟨s, hs, hInside⟩ := List.any_eq_true.mp hAny
    have hMatched : ¬ ∀ s ∈ c.stages, options.stages.contains s.sequence = false := by
      intro hNone
      rw [hNone s hs] at hInside
      cases hInside
    rw [if_pos hAny, ← polynomialInRange_iff, ← List.isEmpty_eq_false_iff]
    cases frequencies.isEmpty with
    | true => simp [hMatched]
    | false => cases polynomialInRange options.stages c <;> simp [hMatched]
  · have hOutside : ∀ s ∈ c.stages, options.stages.contains s.sequence = false := fun s hs =>
      Bool.eq_false_iff.mpr fun hInside => hAny (List.any_eq_true.mpr ⟨s, hs, hInside⟩)
    have hNeeds : ¬ NeedsOperatingPoint options.stages c := by
      rintro ⟨s, hs, hInside, -⟩
      rw [hOutside s hs] at hInside
      cases hInside
    rw [if_neg hAny, Option.some.injEq, and_iff_left hOutside, eq_comm]
    simp [hNeeds]

theorem calculate_length {frequencies : List α} {values : List (Phasor α)}
    (h : calculate options c frequencies = .ok values) : values.length = frequencies.length := by
  rw [calculate] at h
  split at h
  · rw [length_of_mapM_eq_ok h, List.length_zipIdx]
  · cases h

theorem of_responseOf_eq_ok {frequencies : List α} {r : Response α}
    (h : responseOf options frequencies c = .ok r) :
    r.frequencies = frequencies ∧ r.values.length = frequencies.length := by
  rw [responseOf] at h
  cases hValues : calculate options c frequencies with
  | error fault =>
    rw [hValues] at h
    cases h
  | ok values =>
    rw [hValues] at h
    cases h
    exact ⟨rfl, calculate_length hValues⟩

/-! ## Evaluations -/

/-- An evaluation whose steps before the calculation succeed. -/
theorem evaluateChannel_of_steps {requested frequencies : List α}
    (hCheck : (check c).2.result = .ok ())
    (hAlign : (align options.listMode requested (check c).1).2.result = .ok frequencies)
    (hNormalize : (normalize options.stages
      (align options.listMode requested (check c).1).1).2.result = .ok ()) :
    (evaluateChannel options requested c).2.result =
      responseOf options frequencies
        (normalize options.stages (align options.listMode requested (check c).1).1).1 := by
  obtain ⟨-, hFinish⟩ := evaluateChannel_of_aligned hCheck hAlign
  exact hFinish.trans (finish_of_ok hNormalize).2

/-- The fault of an evaluation whose steps before the calculation succeed. -/
theorem faultOf?_evaluateChannel {requested frequencies : List α}
    (hLists : RectangularLists c) (hCheck : (check c).2.result = .ok ())
    (hAlign : (align options.listMode requested (check c).1).2.result = .ok frequencies)
    (hNormalize : (normalize options.stages
      (align options.listMode requested (check c).1).1).2.result = .ok ()) :
    faultOf? (evaluateChannel options requested c).2.result =
      calculationFault? options c frequencies := by
  have hRectangular : RectangularLists (check c).1 :=
    forall_lists_check (fun _ _ => ResponseList.Rectangular.append) hCheck hLists
  obtain ⟨-, hServes, hOutlines⟩ :=
    of_align_eq_ok hRectangular (length_lists_check hCheck) hAlign
  have hNormalized := normalized_of_ok hNormalize
  -- the stages in range and the polynomials in them are those of the channel before all steps
  have hSame := hNormalized.outlines_eq.trans (hOutlines.trans (outlines_check hCheck))
  rw [evaluateChannel_of_steps hCheck hAlign hNormalize, responseOf, faultOf?_map,
    faultOf?_calculate (hNormalized.serves hServes), calculationFault?_of_outlines_eq hSame]

/-- **When an evaluation fails, and what it has otherwise.**  After its check, its alignment and its
normalization, an evaluation fails if and only if no stage is in range, or a polynomial is, there is
a frequency, and something is wrong with the operating point; no row of a list is ever missing.
Otherwise there is one value for each frequency of the response: for each requested one without a
response list, for those of the list, or for the requested ones that the list can serve if it is
interpolated. -/
theorem evaluateChannel_outcome (options : Options α) (requested frequencies : List α)
    (c : Channel α)
    (hLists : RectangularLists c) (hCheck : (check c).2.result = .ok ())
    (hAlign : (align options.listMode requested (check c).1).2.result = .ok frequencies)
    (hNormalize : (normalize options.stages
      (align options.listMode requested (check c).1).1).2.result = .ok ()) :
    (∀ fault, (evaluateChannel options requested c).2.result = .error fault ↔
      (fault = .noStageMatched options.stages ∧
        ∀ s ∈ c.stages, options.stages.contains s.sequence = false) ∨
      (operatingFault? options = some fault ∧ frequencies ≠ [] ∧
        NeedsOperatingPoint options.stages c)) ∧
    ((∀ fault, (evaluateChannel options requested c).2.result ≠ .error fault) →
      ∃ r, (evaluateChannel options requested c).2.result = .ok r ∧
        r.frequencies = frequencies ∧ r.values.length = frequencies.length) ∧
    (c.list? = none → frequencies = requested) ∧
    (c.list? ≠ none → ∃ l, (check c).1.list? = some l ∧
      frequencies = if options.listMode = .interpolateInput then l.kept requested
        else l.frequencies) := by
  have hRectangular : RectangularLists (check c).1 :=
    forall_lists_check (fun _ _ => ResponseList.Rectangular.append) hCheck hLists
  have hSome := isSome_list?_check hCheck
  obtain ⟨hFrequencies, -⟩ := of_align_eq_ok hRectangular (length_lists_check hCheck) hAlign
  rw [alignedFrequencies] at hFrequencies
  refine ⟨fun fault => ?_, fun hNone => ?_, fun hList => ?_, fun hList => ?_⟩
  · rw [← faultOf?_eq_some_iff, faultOf?_evaluateChannel hLists hCheck hAlign hNormalize,
      calculationFault?_eq_some_iff]
  · obtain ⟨r, hResponse⟩ : ∃ r, (evaluateChannel options requested c).2.result = .ok r :=
      faultOf?_eq_none_iff.mp (Option.eq_none_iff_forall_ne_some.mpr fun fault hSome =>
        hNone fault (faultOf?_eq_some_iff.mp hSome))
    refine ⟨r, hResponse, ?_⟩
    rw [evaluateChannel_of_steps hCheck hAlign hNormalize] at hResponse
    exact of_responseOf_eq_ok hResponse
  · rw [hList, Option.isSome_none, Option.isSome_eq_false_iff, Option.isNone_iff_eq_none] at hSome
    rwa [hSome, Option.elim_none] at hFrequencies
  · rw [Option.isSome_iff_ne_none.mpr hList] at hSome
    obtain ⟨l, hl⟩ := Option.isSome_iff_exists.mp hSome
    rw [hl, Option.elim_some] at hFrequencies
    exact ⟨l, hl, hFrequencies⟩

/-- A sensor that is tabulated in two pieces. -/
noncomputable def tabulatedSensor : Channel ℝ :=
  { Channel.empty ⟨"IU", "ANMO", "00", "BHZ"⟩ none none with
    stages :=
      [⟨1, .velocity, .volts, "M/S",
        [.filter (.list ⟨[1, 2], [10, 20], [0, 45]⟩), .filter (.list ⟨[5], [30], [90]⟩),
          .gain ⟨20, 1⟩]⟩] }

theorem normalize_tabulatedSensor :
    (normalize .all (check tabulatedSensor).1).2.result = .ok () := by
  have hFault : gainFault? (check tabulatedSensor).1 = none :=
    gainFault?_eq_none_of_ne_zero (List.forall_mem_singleton.mpr ⟨⟨20, 1⟩, rfl, by norm_num⟩)
  -- a table has no response of its own that could be moved
  have hSettled : ∀ s ∈ (check tabulatedSensor).1.stages,
      Settled .all (referenceFrequency (check tabulatedSensor).1) s := by
    intro s hs _ gain main _ hMain hResponse
    obtain rfl := List.mem_singleton.mp hs
    cases hMain
    cases hResponse
  exact normalize_eq_ok_iff.mpr ⟨hFault, _, _, normalizeStages_of_settled hSettled _⟩

theorem evaluateChannel_outcome_tabulatedSensor :
    RectangularLists tabulatedSensor ∧ (check tabulatedSensor).2.result = .ok () ∧
      (align .native [7, 8] (check tabulatedSensor).1).2.result = .ok [1, 2, 5] ∧
      (normalize .all (align .native [7, 8] (check tabulatedSensor).1).1).2.result = .ok () ∧
      ∃ r, (evaluateChannel .standard [7, 8] tabulatedSensor).2.result = .ok r ∧
        r.frequencies = [1, 2, 5] ∧ r.values.length = 3 := by
  have hLists : RectangularLists tabulatedSensor :=
    List.forall_mem_cons.mpr ⟨⟨rfl, rfl⟩, List.forall_mem_singleton.mpr ⟨rfl, rfl⟩⟩
  obtain ⟨hFails, hAnswers, -⟩ := evaluateChannel_outcome .standard [7, 8] [1, 2, 5] tabulatedSensor
    hLists rfl rfl normalize_tabulatedSensor
  refine ⟨hLists, rfl, rfl, normalize_tabulatedSensor, hAnswers fun fault hFault => ?_⟩
  obtain ⟨-, hOutside⟩ | ⟨-, -, s, hs, -, p, hPolynomial⟩ := (hFails fault).mp hFault
  · cases hOutside _ (List.mem_singleton_self _)
  · obtain rfl := List.mem_singleton.mp hs
    simp at hPolynomial

end Chain

end InstrumentResponse
