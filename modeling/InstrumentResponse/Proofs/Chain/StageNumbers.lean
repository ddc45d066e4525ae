import Mathlib.Data.List.Forall2
import InstrumentResponse.Proofs.Chain.Acceptance

/-!
# Chains under other stage numbers

A check asks one thing of the number of a stage, whether it is 0.  So a chain is accepted under any
other numbers just as well, in whatever order they come.

* `Stage.Restaged`: a stage, and the same one under another number.
* `Chain.check_restaged_iff`: the check accepts both of two chains, or neither of them.
-/

namespace InstrumentResponse

variable {α : Type} {ρ : Nat → Nat → Prop}

/-- A stage and the same one under another number, which `ρ` relates to its own. -/
inductive Stage.Restaged (ρ : Nat → Nat → Prop) : Stage α → Stage α → Prop
  | renumber (s : Stage α) {n : Nat} (h : ρ s.sequence n) : Restaged ρ s { s with sequence := n }

theorem Stage.Restaged.number {s t : Stage α} (h : s.Restaged ρ t) : ρ s.sequence t.sequence := by
  cases h with
  | renumber hNumber => exact hNumber

theorem Stage.Restaged.imp {ρ' : Nat → Nat → Prop} {s t : Stage α} (h : s.Restaged ρ t)
    (hImp : ∀ m n, ρ m n → ρ' m n) : s.Restaged ρ' t := by
  cases h with
  | renumber hNumber => exact .renumber s (hImp _ _ hNumber)

namespace Chain

section

variable {s t : Stage α} (h : s.Restaged ρ t)

include h

theorem isGainOnly_restaged : t.isGainOnly = s.isGainOnly := by
  cases h
  rfl

theorem hasFilter_restaged_iff : HasFilter t ↔ HasFilter s := by
  cases h
  exact Iff.rfl

theorem stageWellFormed_restaged_iff {functional : Nat} :
    StageWellFormed functional t ↔ StageWellFormed functional s := by
  cases h
  constructor
  · intro h
    exact ⟨h.filters_le, h.decimations_le, h.gains_le, h.filter_of_decimation, h.units,
      h.decimation_of_samples, h.list_alone⟩
  · intro h
    exact ⟨h.filters_le, h.decimations_le, h.gains_le, h.filter_of_decimation, h.units,
      h.decimation_of_samples, h.list_alone⟩

end

theorem countP_restaged {stages stages' : List (Stage α)}
    (h : List.Forall₂ (Stage.Restaged ρ) stages stages') :
    stages'.countP (!·.isGainOnly) = stages.countP (!·.isGainOnly) := by
  induction h with
  | nil => rfl
  | cons hs _ ih => rw [List.countP_cons, List.countP_cons, ih, isGainOnly_restaged hs]

theorem forall_wellFormed_restaged_iff {functional : Nat} {stages stages' : List (Stage α)}
    (h : List.Forall₂ (Stage.Restaged ρ) stages stages') :
    (∀ s ∈ stages', StageWellFormed functional s) ↔
      ∀ s ∈ stages, StageWellFormed functional s := by
  induction h with
  | nil => exact Iff.rfl
  | cons hs _ ih =>
    rw [List.forall_mem_cons, List.forall_mem_cons, ih, stageWellFormed_restaged_iff hs]

section

variable (hZero : ∀ m n, ρ m n → (m = 0 ↔ n = 0))

include hZero

theorem feeds_restaged {s t : Stage α} (h : s.Restaged ρ t) : feeds t = feeds s := by
  cases h with
  | @renumber n hNumber =>
    have hSame : (n != 0) = (s.sequence != 0) := by
      rw [Bool.eq_iff_iff, bne_iff_ne, bne_iff_ne, ne_eq, ne_eq, hZero _ _ hNumber]
    exact congrArg (!(filters (joined s.elements)).isEmpty && ·) hSame

/-- The stages that feed the next one are the same in both chains. -/
theorem feeding?_restaged {before before' : List (Stage α)}
    (h : List.Forall₂ (Stage.Restaged ρ) before before') :
    Option.Rel (Stage.Restaged ρ) (feeding? before) (feeding? before') := by
  have hFeed : List.Forall₂ (Stage.Restaged ρ) (before.filter feeds) (before'.filter feeds) :=
    List.rel_filter (p := feeds) (q := feeds)
      (fun s t hs => Bool.eq_iff_iff.mp (feeds_restaged hZero hs).symm) h
  have hBack := List.rel_reverse hFeed
  rw [feeding?, feeding?, List.getLast?_eq_head?_reverse, List.getLast?_eq_head?_reverse]
  generalize (before.filter feeds).reverse = back at hBack ⊢
  generalize (before'.filter feeds).reverse = back' at hBack ⊢
  cases hBack with
  | nil => exact .none
  | cons hs _ => exact .some hs

theorem continuousAfter_restaged_iff {before before' stages stages' : List (Stage α)}
    (hBefore : List.Forall₂ (Stage.Restaged ρ) before before')
    (h : List.Forall₂ (Stage.Restaged ρ) stages stages') :
    ContinuousAfter before' stages' ↔ ContinuousAfter before stages := by
  induction h generalizing before before' with
  | nil => exact iff_of_true (continuousAfter_nil _) (continuousAfter_nil _)
  | @cons s t stages stages' hs h ih =>
    rw [continuousAfter_cons, continuousAfter_cons, hasFilter_restaged_iff hs,
      ih (List.rel_append hBefore (.cons hs .nil))]
    have hFeeding := feeding?_restaged hZero hBefore
    generalize feeding? before = fed at hFeeding ⊢
    generalize feeding? before' = fed' at hFeeding ⊢
    refine and_congr_left' (imp_congr_right fun _ => ?_)
    cases hs
    cases hFeeding with
    | none => simp
    | some hFeeds =>
      cases hFeeds
      simp

end

/-- **The check refuses no order of stages.**  Chains that differ in the numbers of their stages
alone are both accepted or both refused, as long as the same stages are numbered 0. -/
theorem check_restaged_iff [Scalar α] (hZero : ∀ m n, ρ m n → (m = 0 ↔ n = 0)) {c c' : Channel α}
    (h : List.Forall₂ (Stage.Restaged ρ) c.stages c'.stages) :
    (check c').2.result = .ok () ↔ (check c).2.result = .ok () := by
  rw [check_accepts_iff, check_accepts_iff, countP_restaged h, forall_wellFormed_restaged_iff h,
    continuousAfter_restaged_iff hZero .nil h]

end Chain

end InstrumentResponse
