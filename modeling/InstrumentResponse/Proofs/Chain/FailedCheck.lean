import InstrumentResponse.Proofs.Chain.CanonicalForm

/-!
# What a failed check leaves behind

A check works its way along the stages of a channel and stops at the first one that breaks the rules
of a chain.  That stage has lost its elements by then, those before it are in canonical form, and
those after it have not been looked at.

* `Fault.stage?`, `Blames`: the stage that a fault names, and work on a stage that names no other.
* `checkStages_eq_error`: the stages around the one at fault.
* `check_failed_leaves`: what is left of the channel.
-/

namespace InstrumentResponse

open Chain

variable {α : Type}

/-- The stage that a fault names, if it was found in a chain. -/
def Fault.stage? : Fault α → Option Nat
  | .chain stage _ => some stage
  | .unitsMismatch _ _ stage _ => some stage
  | _ => none

/-- A stage without its elements: its number, units and the name of its input. -/
def Stage.emptied (s : Stage α) : Stage α := { s with elements := [] }

namespace Chain

/-! ## The stage at fault -/

/-- Whatever goes wrong with some work is put down to stage `n`. -/
def Blames {β : Type} (n : Nat) (r : Report α β) : Prop := r.FaultsAre (·.stage? = some n)

variable [Scalar α] {around : Surroundings} {n : Nat}

theorem blames_accept (f : Filter α) : Blames n (accept around n f) := by
  cases f with
  | fir h =>
    obtain ⟨h', hCanonical⟩ := isOk_canonical around.id h
    exact (Report.faultsAre_of_ok hCanonical).bind fun _ _ => Report.faultsAre_of_ok rfl
  | list l =>
    rw [accept]
    split
    · exact Report.faultsAre_error rfl
    · exact Report.faultsAre_of_ok rfl
  | poleZero pz => exact Report.faultsAre_of_ok rfl
  | recursive r => exact Report.faultsAre_of_ok rfl
  | generic corners => exact Report.faultsAre_of_ok rfl
  | polynomial p => exact Report.faultsAre_of_ok rfl

theorem blames_place (parts : Parts α) (e : Element α) : Blames n (place around n parts e) := by
  rcases e with f | d | g
  · rw [place]
    split
    · exact Report.faultsAre_error rfl
    · exact (blames_accept f).bind fun _ _ => Report.faultsAre_of_ok rfl
  · rw [place]
    split
    · exact Report.faultsAre_error rfl
    · exact Report.faultsAre_of_ok rfl
  · rw [place]
    split
    · exact Report.faultsAre_error rfl
    · exact Report.faultsAre_of_ok rfl

theorem blames_arrange (s : Stage α) : Blames s.sequence (arrange around s) := by
  have hMerge : Blames s.sequence
      (.ofExcept ((merge s.elements).mapError (.chain s.sequence)) : Report α _) := by
    intro fault hFault
    cases hMerged : merge s.elements with
    | ok merged =>
      rw [hMerged] at hFault
      cases hFault
    | error e =>
      rw [hMerged] at hFault
      cases hFault
      rfl
  exact hMerge.bind fun merged _ => Report.faultsAre_foldlM blames_place merged .none

omit [Scalar α] in
theorem stage?_of_misfit? {p : Passed α} {s : Stage α} {f : Filter α} {d : Option (Decimation α)}
    {fault : Fault α} (h : misfit? p s f d = some fault) : fault.stage? = some s.sequence := by
  rw [misfit?] at h
  split at h
  · cases h
    rfl
  · split at h
    · cases h
      rfl
    · split at h
      · cases h
      · split at h
        · cases h
        · cases h
          rfl

/-- Whatever is wrong with a stage is put down to that stage. -/
theorem blames_checkStage (p : Passed α) (s : Stage α) :
    Blames s.sequence (checkStage around p s) := by
  refine (blames_arrange s).bind fun parts _ => ?_
  cases parts.filter with
  | none =>
    dsimp only
    split
    · exact Report.faultsAre_error rfl
    · exact Report.faultsAre_of_ok rfl
  | some f =>
    dsimp only
    cases hMisfit : misfit? p s f parts.decimation with
    | some fault => exact Report.faultsAre_error (stage?_of_misfit? hMisfit)
    | none =>
      have hGain : Blames s.sequence (gainOr around s.sequence parts.gain) := by
        cases parts.gain with
        | none => exact Report.faultsAre_of_ok rfl
        | some g => exact Report.faultsAre_of_ok rfl
      exact hGain.bind fun _ _ => Report.faultsAre_of_ok rfl

/-! ## The stages around it -/

/-- One stage is at fault: those before it are accepted, and those after it are left as they
were. -/
theorem checkStages_eq_error {stages : List (Stage α)} {p : Passed α} {fault : Fault α}
    (h : (checkStages around p stages).2.result = .error fault) :
    ∃ before s after passed, stages = before ++ s :: after ∧
      (checkStages around p before).2.result = .ok passed ∧
      (checkStage around passed s).result = .error fault ∧
      (checkStages around p stages).1 = before.map Stage.canonical ++ s.emptied :: after := by
  induction stages generalizing p with
  | nil => cases h
  | cons s stages ih =>
    rw [checkStages] at h ⊢
    cases hStage : checkStage around p s with
    | mk warnings result =>
      cases result with
      | error e =>
        rw [hStage] at h
        cases h
        exact ⟨[], s, stages, p, rfl, rfl, by rw [hStage], rfl⟩
      | ok r =>
        obtain ⟨checked, next⟩ := r
        rw [hStage] at h
        obtain ⟨before, t, after, passed, rfl, hBefore, hFault, hStages⟩ := ih h
        have hResult : (checkStage around p s).result = .ok (checked, next) := by rw [hStage]
        obtain ⟨-, rfl, -⟩ := checkStage_eq_ok hResult
        refine ⟨s :: before, t, after, passed, rfl, checkStages_ok_cons hResult hBefore, hFault, ?_⟩
        exact congrArg (s.canonical :: ·) hStages

omit [Scalar α] in
/-- A stage of a chain stands as well in a chain with fewer stages. -/
theorem StageWellFormed.mono {functional functional' : Nat} {s : Stage α}
    (h : StageWellFormed functional s) (hLe : functional' ≤ functional) :
    StageWellFormed functional' s where
  filters_le := h.filters_le
  decimations_le := h.decimations_le
  gains_le := h.gains_le
  filter_of_decimation := h.filter_of_decimation
  units := h.units
  decimation_of_samples := h.decimation_of_samples
  list_alone f hf l hl := hLe.trans (h.list_alone f hf l hl)

/-- Stages that are accepted at the front of a chain are accepted as a chain of their own. -/
theorem check_of_front {c : Channel α} {before rest : List (Stage α)} {passed : Passed α}
    (hSplit : c.stages = before ++ rest)
    (h : (checkStages (surroundings c) .start before).2.result = .ok passed) :
    (check { c with stages := before }).2.result = .ok () := by
  have hStart : Remembers (Passed.start : Passed α) [] := rfl
  obtain ⟨hStages, hContinuous⟩ := (checkStages_eq_ok_iff _ before hStart).mp ⟨passed, h⟩
  have hFewer : before.countP (!·.isGainOnly) ≤ (surroundings c).functional := by
    show _ ≤ c.stages.countP (!·.isGainOnly)
    rw [hSplit, List.countP_append]
    exact Nat.le_add_right _ _
  exact (check_eq_ok_iff_checkStages _).mpr ((checkStages_eq_ok_iff _ before hStart).mpr
    ⟨fun s hs => (hStages s hs).mono hFewer, hContinuous⟩)

theorem channel_of_check_error {c : Channel α} {fault : Fault α}
    (h : (checkStages (surroundings c) .start c.stages).2.result = .error fault) :
    (check c).1 = { c with stages := (checkStages (surroundings c) .start c.stages).1 } := by
  unfold surroundings at h ⊢
  unfold check
  dsimp only
  rw [h]

/-! ## The channel -/

/-- **A failed check leaves the stages before the one at fault** as a check leaves them that
succeeds, which they would pass as a chain of their own.  The stage at fault, which is the one that
the fault names, has no elements; the stages after it, what each stage is called and takes and gives
out, and everything that is written down for the whole channel is as it was. -/
theorem check_failed_leaves (c : Channel α) {fault : Fault α}
    (h : (check c).2.result = .error fault) :
    ∃ before s after, c.stages = before ++ s :: after ∧ fault.stage? = some s.sequence ∧
      (check { c with stages := before }).2.result = .ok () ∧
      List.Forall₂ Canonicalized before (check { c with stages := before }).1.stages ∧
      (check c).1.stages = (check { c with stages := before }).1.stages ++ s.emptied :: after ∧
      (check c).1.stages.map Stage.emptied = c.stages.map Stage.emptied ∧
      (check c).1 = { c with stages := (check c).1.stages } := by
  have hStages : (checkStages (surroundings c) .start c.stages).2.result = .error fault := by
    rw [report_check] at h
    cases hResult : (checkStages (surroundings c) .start c.stages).2.result with
    | ok passed =>
      rw [hResult] at h
      cases h
    | error e =>
      rw [hResult] at h
      cases h
      rfl
  obtain ⟨before, s, after, passed, hSplit, hBefore, hFault, hLeft⟩ := checkStages_eq_error hStages
  have hOk := check_of_front hSplit hBefore
  obtain ⟨hCanonical, hHolds⟩ := canonical_of_check hOk
  have hFront : (check { c with stages := before }).1.stages = before.map Stage.canonical := by
    rw [hCanonical]
    rfl
  have hChannel := channel_of_check_error hStages
  have hAll : (check c).1.stages = before.map Stage.canonical ++ s.emptied :: after := by
    rw [hChannel, ← hLeft]
  refine ⟨before, s, after, hSplit, blames_checkStage passed s fault hFault, hOk, ?_, ?_, ?_, ?_⟩
  · rw [hFront]
    exact List.forall₂_map_right_iff.mpr
      (List.forall₂_same.mpr fun t ht => canonicalized_canonical (hHolds t ht))
  · rw [hAll, hFront]
  · -- neither the canonical form nor the loss of elements changes anything else
    have hSame : Stage.emptied ∘ Stage.canonical = (Stage.emptied : Stage α → Stage α) := rfl
    rw [hAll, hSplit, List.map_append, List.map_append, List.map_map, hSame, List.map_cons,
      List.map_cons]
    rfl
  · rw [hChannel]

/-- A filter that takes in volts, where counts are given out. -/
def misfitStage : Stage ℚ :=
  ⟨3, .volts, .counts, "V", [.gain ⟨2, 1⟩, .filter (.poleZero ⟨.laplace, 1, 1, [], []⟩)]⟩

/-- The last stage of a chain, with its gain in front. -/
def lastStage : Stage ℚ :=
  ⟨4, .counts, .counts, "COUNTS", [.gain ⟨3, 1⟩, .filter (.poleZero ⟨.laplace, 1, 1, [], []⟩)]⟩

/-- A chain whose fourth stage is at fault. -/
def mismatchedChain : Channel ℚ :=
  { digitizer with stages := digitizer.stages ++ [misfitStage, lastStage] }

theorem check_failed_leaves_mismatchedChain :
    (check mismatchedChain).2.result = .error (.unitsMismatch 2 .counts 3 .volts) ∧
      ∃ checked, List.Forall₂ Canonicalized digitizer.stages checked ∧
        (check mismatchedChain).1 =
          { mismatchedChain with stages := checked ++ [misfitStage.emptied, lastStage] } := by
  have hFault : (check mismatchedChain).2.result =
      .error (.unitsMismatch 2 .counts 3 .volts) := by decide +kernel
  obtain ⟨before, s, after, hSplit, hNames, -, hChecked, hStages, -, hChannel⟩ :=
    check_failed_leaves mismatchedChain hFault
  -- the only stage of number 3 is the fourth one
  have hPlace : before = digitizer.stages ∧ s = misfitStage ∧ after = [lastStage] := by
    have hNumber : s.sequence = 3 := (Option.some.inj hNames).symm
    change [_, _, _, misfitStage, lastStage] = before ++ s :: after at hSplit
    rcases before with _ | ⟨a, _ | ⟨b, _ | ⟨c, _ | ⟨d, _ | ⟨e, before⟩⟩⟩⟩⟩
    · cases hSplit
      cases hNumber
    · cases hSplit
      cases hNumber
    · cases hSplit
      cases hNumber
    · cases hSplit
      exact ⟨rfl, rfl, rfl⟩
    · cases hSplit
      cases hNumber
    · simp at hSplit
  obtain ⟨rfl, rfl, rfl⟩ := hPlace
  refine ⟨hFault, _, hChecked, ?_⟩
  rw [hChannel, hStages]

end Chain

end InstrumentResponse
