import InstrumentResponse.Proofs.Chain.CanonicalForm

/-!
# Filters cut into continuations

A long impulse response, or a long table, may be spread over several elements that follow each
other.  They are joined before anything is looked at, so that it does not matter where the filter is
cut: scaling, folding and delays see all of its taps.

* `Element.Cut`, `Stage.Cut`: a filter in pieces, and a stage with filters in pieces.
* `join?_assoc`: whatever an element is joined with, it is joined with a piece of it first.
* `mergeFrom_cuts`, `merge_cuts`: pieces are merged to what the whole is merged to.
* `checkStages_cut`, `check_cut`: a check does not see where filters are cut.
-/

namespace InstrumentResponse

variable {α : Type}

/-! ## Pieces -/

/-- The rows of some tables, one table after the other. -/
def ResponseList.flatten (tables : List (ResponseList α)) : ResponseList α :=
  ⟨(tables.map (·.frequencies)).flatten, (tables.map (·.amplitudes)).flatten,
    (tables.map (·.phases)).flatten⟩

/-- A filter cut into consecutive pieces, of which there is at least one: some of the taps of an
impulse response, none perhaps, or some of the rows of a table. -/
inductive Element.Cut : Element α → List (Element α) → Prop
  | fir (symmetry : Symmetry) (scale : α) {pieces : List (List α)} (hSome : pieces ≠ []) :
      Cut (.filter (.fir ⟨symmetry, pieces.flatten, scale⟩))
        (pieces.map fun taps => .filter (.fir ⟨symmetry, taps, scale⟩))
  | list {pieces : List (ResponseList α)} (hSome : pieces ≠ []) :
      Cut (.filter (.list (.flatten pieces))) (pieces.map fun table => .filter (.list table))

namespace Chain

/-- Some elements, and the same ones with filters cut into pieces. -/
inductive Cuts : List (Element α) → List (Element α) → Prop
  | nil : Cuts [] []
  | keep (e : Element α) {es es' : List (Element α)} (h : Cuts es es') : Cuts (e :: es) (e :: es')
  | cut {e : Element α} {pieces es es' : List (Element α)} (hCut : e.Cut pieces)
      (h : Cuts es es') : Cuts (e :: es) (pieces ++ es')

end Chain

/-- The second stage is the first one with filters cut into pieces. -/
structure Stage.Cut (s t : Stage α) : Prop where
  elements : Chain.Cuts s.elements t.elements
  /-- Nothing else is different. -/
  stage_eq : t = { s with elements := t.elements }

namespace Chain

/-! ## Joining pieces -/

/-- What one element is joined with, it is joined with piece by piece as well. -/
theorem join?_assoc {x y both : Element α} (h : join? x y = .ok (some both)) (e : Element α) :
    (join? e x = .ok none ∧ join? e both = .ok none) ∨
      ∃ first all, join? e x = .ok (some first) ∧ join? first y = .ok (some all) ∧
        join? e both = .ok (some all) := by
  have hContinued : continued? x y = some both := by
    obtain hOk | ⟨⟨fault, hError⟩, -⟩ := join?_cases x y
    · rw [h] at hOk
      exact (Except.ok.inj hOk).symm
    · rw [h] at hError
      cases hError
  obtain ⟨l, l', rfl, rfl, rfl⟩ | ⟨f, f', g, rfl, rfl, rfl⟩ := continued?_cases hContinued
  · rcases e with main | d | gain
    · cases main with
      | list k =>
        refine .inr ⟨_, _, rfl, rfl, ?_⟩
        simp only [join?, ResponseList.append, List.append_assoc]
      | _ => exact .inl ⟨rfl, rfl⟩
    · exact .inl ⟨rfl, rfl⟩
    · exact .inl ⟨rfl, rfl⟩
  · -- the joined response has the symmetry of both
    rw [continued?] at hContinued
    split at hContinued
    · next hSymmetry =>
      cases hContinued
      rcases e with main | d | gain
      · cases main with
        | fir k =>
          by_cases hSame : k.symmetry = f.symmetry
          · refine .inr ⟨.filter (.fir { k with taps := k.taps ++ f.taps }),
              .filter (.fir { k with taps := k.taps ++ f.taps ++ f'.taps }), ?_, ?_, ?_⟩
            · rw [join?, if_pos hSame]
            · rw [join?, if_pos (hSame.trans hSymmetry)]
            · rw [join?, if_pos hSame, List.append_assoc]
          · refine .inl ⟨?_, ?_⟩
            · rw [join?, if_neg hSame]
            · rw [join?, if_neg hSame]
        | _ => exact .inl ⟨rfl, rfl⟩
      · exact .inl ⟨rfl, rfl⟩
      · exact .inl ⟨rfl, rfl⟩
    · cases hContinued

/-- Two elements that are joined may be joined beforehand. -/
theorem mergeFrom_join {x y both : Element α} (h : join? x y = .ok (some both)) (e : Element α)
    (rest : List (Element α)) : mergeFrom e (x :: y :: rest) = mergeFrom e (both :: rest) := by
  obtain ⟨hApart, hBoth⟩ | ⟨first, all, hFirst, hAll, hBoth⟩ := join?_assoc h e
  · rw [mergeFrom_of_none hApart, mergeFrom_of_some h, mergeFrom_of_none hBoth]
  · rw [mergeFrom_of_some hFirst, mergeFrom_of_some hAll, mergeFrom_of_some hBoth]

/-- Elements that join to a single one, from the left. -/
inductive JoinsTo (whole : Element α) : Element α → List (Element α) → Prop
  | single : JoinsTo whole whole []
  | more {x y both : Element α} {rest : List (Element α)} (hJoin : join? x y = .ok (some both))
      (h : JoinsTo whole both rest) : JoinsTo whole x (y :: rest)

theorem JoinsTo.mergeFrom_first {whole x : Element α} {pieces : List (Element α)}
    (h : JoinsTo whole x pieces) (rest : List (Element α)) :
    mergeFrom x (pieces ++ rest) = mergeFrom whole rest := by
  induction h with
  | single => rfl
  | more hJoin _ ih => rw [List.cons_append, mergeFrom_of_some hJoin, ih]

theorem JoinsTo.mergeFrom_after {whole x : Element α} {pieces : List (Element α)}
    (h : JoinsTo whole x pieces) (e : Element α) (rest : List (Element α)) :
    mergeFrom e (x :: pieces ++ rest) = mergeFrom e (whole :: rest) := by
  induction h with
  | single => rfl
  | more hJoin _ ih => rw [List.cons_append, List.cons_append, mergeFrom_join hJoin, ← ih,
      List.cons_append]

theorem joinsTo_fir (symmetry : Symmetry) (scale : α) (taps : List α) (pieces : List (List α)) :
    JoinsTo (.filter (.fir ⟨symmetry, (taps :: pieces).flatten, scale⟩))
      (.filter (.fir ⟨symmetry, taps, scale⟩))
      (pieces.map fun taps => .filter (.fir ⟨symmetry, taps, scale⟩)) := by
  induction pieces generalizing taps with
  | nil =>
    rw [List.flatten_cons, List.flatten_nil, List.append_nil]
    exact .single
  | cons more pieces ih =>
    have hJoin : join? (.filter (.fir ⟨symmetry, taps, scale⟩))
        (.filter (.fir ⟨symmetry, more, scale⟩)) =
          .ok (some (.filter (.fir ⟨symmetry, taps ++ more, scale⟩))) := by
      rw [join?, if_pos rfl]
    have hRest := ih (taps ++ more)
    rw [List.flatten_cons, List.append_assoc, ← List.flatten_cons, ← List.flatten_cons] at hRest
    exact .more hJoin hRest

theorem joinsTo_list (table : ResponseList α) (pieces : List (ResponseList α)) :
    JoinsTo (.filter (.list (.flatten (table :: pieces)))) (.filter (.list table))
      (pieces.map fun table => .filter (.list table)) := by
  induction pieces generalizing table with
  | nil =>
    have hSame : ResponseList.flatten [table] = table := by
      simp [ResponseList.flatten]
    rw [hSame]
    exact .single
  | cons more pieces ih =>
    refine .more rfl ?_
    have hRest := ih (table.append more)
    have hSame : ResponseList.flatten (table.append more :: pieces) =
        ResponseList.flatten (table :: more :: pieces) := by
      simp [ResponseList.flatten, ResponseList.append]
    rwa [hSame] at hRest

/-- The pieces of a filter join to the whole. -/
theorem exists_joinsTo {whole : Element α} {pieces : List (Element α)} (h : whole.Cut pieces) :
    ∃ x rest, pieces = x :: rest ∧ JoinsTo whole x rest := by
  cases h with
  | fir symmetry scale hSome =>
    obtain ⟨taps, pieces, rfl⟩ := List.exists_cons_of_ne_nil hSome
    exact ⟨_, _, rfl, joinsTo_fir symmetry scale taps pieces⟩
  | list hSome =>
    obtain ⟨table, pieces, rfl⟩ := List.exists_cons_of_ne_nil hSome
    exact ⟨_, _, rfl, joinsTo_list table pieces⟩

/-! ## Merging pieces -/

/-- What is equal after each element is equal after one more. -/
theorem mergeFrom_congr {es es' : List (Element α)} (h : ∀ e, mergeFrom e es' = mergeFrom e es)
    (e next : Element α) : mergeFrom e (next :: es') = mergeFrom e (next :: es) := by
  cases hJoin : join? e next with
  | error fault => rw [mergeFrom_of_error hJoin, mergeFrom_of_error hJoin]
  | ok joined =>
    cases joined with
    | none => rw [mergeFrom_of_none hJoin, mergeFrom_of_none hJoin, h next]
    | some both => rw [mergeFrom_of_some hJoin, mergeFrom_of_some hJoin, h both]

theorem mergeFrom_cuts {es es' : List (Element α)} (h : Cuts es es') (e : Element α) :
    mergeFrom e es' = mergeFrom e es := by
  induction h generalizing e with
  | nil => rfl
  | keep next _ ih => exact mergeFrom_congr ih e next
  | @cut whole pieces es es' hCut _ ih =>
    obtain ⟨x, rest, rfl, hJoins⟩ := exists_joinsTo hCut
    rw [hJoins.mergeFrom_after]
    exact mergeFrom_congr ih e whole

/-- Cut filters are merged to what the whole ones are merged to. -/
theorem merge_cuts {es es' : List (Element α)} (h : Cuts es es') : merge es' = merge es := by
  cases h with
  | nil => rfl
  | keep e h => exact mergeFrom_cuts h e
  | @cut whole pieces es es' hCut h =>
    obtain ⟨x, rest, rfl, hJoins⟩ := exists_joinsTo hCut
    exact (hJoins.mergeFrom_first es').trans (mergeFrom_cuts h whole)

/-- Pieces of a filter are filters. -/
theorem all_of_cut {whole : Element α} {pieces : List (Element α)} (h : whole.Cut pieces) :
    pieces.isEmpty = false ∧ pieces.all (·.gain?.isSome) = whole.gain?.isSome := by
  cases h with
  | fir symmetry scale hSome =>
    obtain ⟨taps, pieces, rfl⟩ := List.exists_cons_of_ne_nil hSome
    exact ⟨rfl, rfl⟩
  | list hSome =>
    obtain ⟨table, pieces, rfl⟩ := List.exists_cons_of_ne_nil hSome
    exact ⟨rfl, rfl⟩

theorem all_of_cuts {es es' : List (Element α)} (h : Cuts es es') :
    es'.isEmpty = es.isEmpty ∧
      es'.all (·.gain?.isSome) = es.all (·.gain?.isSome) := by
  induction h with
  | nil => exact ⟨rfl, rfl⟩
  | keep e _ ih => exact ⟨rfl, by rw [List.all_cons, List.all_cons, ih.2]⟩
  | @cut whole pieces es es' hCut _ ih =>
    obtain ⟨hSome, hAll⟩ := all_of_cut hCut
    refine ⟨?_, ?_⟩
    · cases pieces with
      | nil => cases hSome
      | cons x rest => rfl
    · rw [List.all_append, List.all_cons, hAll, ih.2]

theorem isGainOnly_of_cut {s t : Stage α} (h : s.Cut t) : t.isGainOnly = s.isGainOnly := by
  obtain ⟨hEmpty, hAll⟩ := all_of_cuts h.elements
  rw [Stage.isGainOnly, Stage.isGainOnly, hEmpty, hAll]

theorem countP_of_cut {stages others : List (Stage α)} (h : List.Forall₂ Stage.Cut stages others) :
    others.countP (!·.isGainOnly) = stages.countP (!·.isGainOnly) := by
  induction h with
  | nil => rfl
  | cons hCut _ ih => rw [List.countP_cons, List.countP_cons, ih, isGainOnly_of_cut hCut]

/-! ## Checking pieces -/

variable [Scalar α]

theorem checkStage_cut (around : Surroundings) {s t : Stage α} (h : s.Cut t) (p : Passed α) :
    checkStage around p t = checkStage around p s := by
  have hArrange : arrange around t = arrange around s := by
    rw [h.stage_eq, arrange, arrange, merge_cuts h.elements]
  rw [checkStage, checkStage, hArrange, h.stage_eq]
  rfl

/-- Stages with cut filters pass the same on, and are left the same if all are accepted. -/
theorem checkStages_cut (around : Surroundings) {stages others : List (Stage α)}
    (h : List.Forall₂ Stage.Cut stages others) (p : Passed α) :
    (checkStages around p others).2 = (checkStages around p stages).2 ∧
      ∀ passed, (checkStages around p stages).2.result = .ok passed →
        (checkStages around p others).1 = (checkStages around p stages).1 := by
  induction h generalizing p with
  | nil => exact ⟨rfl, fun _ _ => rfl⟩
  | @cons s t stages others hCut _ ih =>
    rw [checkStages, checkStages, checkStage_cut around hCut]
    rcases checkStage around p s with ⟨warnings, fault | ⟨checked, next⟩⟩
    · refine ⟨rfl, fun passed hOk => ?_⟩
      cases hOk
    · obtain ⟨hReport, hStages⟩ := ih next
      dsimp only
      rw [hReport]
      refine ⟨rfl, fun passed hOk => ?_⟩
      rw [hStages passed hOk]

/-- **A check does not see where filters are cut** into pieces that follow each other: it comes to
the same result with the same warnings, and leaves the same channel if it succeeds. -/
theorem check_cut (c : Channel α) {stages : List (Stage α)}
    (h : List.Forall₂ Stage.Cut c.stages stages) :
    (check { c with stages }).2 = (check c).2 ∧
      ((check c).2.result = .ok () → (check { c with stages }).1 = (check c).1) := by
  have hAround : surroundings { c with stages } = surroundings c :=
    congrArg (Surroundings.mk c.id) (countP_of_cut h)
  obtain ⟨hReport, hSame⟩ := checkStages_cut (surroundings c) h .start
  refine ⟨?_, fun hOk => ?_⟩
  · rw [report_check, report_check, hAround, hReport]
  · obtain ⟨passed, hPassed⟩ := (check_eq_ok_iff_checkStages c).mp hOk
    have hCut : (checkStages (surroundings { c with stages }) .start stages).2.result =
        .ok passed := by
      rw [hAround, hReport, hPassed]
    rw [channel_of_check hPassed, channel_of_check (c := { c with stages }) hCut, hAround,
      hSame passed hPassed]

/-- A recorder whose impulse response comes in two blocks. -/
def blockRecorder : Channel ℚ :=
  { Channel.empty ⟨"IU", "ANMO", "00", "BHZ"⟩ none none with
    stages :=
      [⟨1, .volts, .counts, "V",
          [.filter (.fir ⟨.asymmetric, [1, 2], 1⟩), .filter (.fir ⟨.asymmetric, [3, 2, 1], 1⟩),
            .decimation ⟨1 / 100, 2, 0, 1 / 2, 1 / 4⟩, .gain ⟨1500, 1⟩]⟩,
        ⟨0, .undefined, .undefined, "", [.gain ⟨1500, 1⟩]⟩] }

/-- The second block cut into three pieces, of which one is empty. -/
def blockPieces : List (Stage ℚ) :=
  [⟨1, .volts, .counts, "V",
      [.filter (.fir ⟨.asymmetric, [1, 2], 1⟩), .filter (.fir ⟨.asymmetric, [3], 1⟩),
        .filter (.fir ⟨.asymmetric, [], 1⟩), .filter (.fir ⟨.asymmetric, [2, 1], 1⟩),
        .decimation ⟨1 / 100, 2, 0, 1 / 2, 1 / 4⟩, .gain ⟨1500, 1⟩]⟩,
    ⟨0, .undefined, .undefined, "", [.gain ⟨1500, 1⟩]⟩]

theorem check_cut_blockRecorder :
    List.Forall₂ Stage.Cut blockRecorder.stages blockPieces ∧
      (check { blockRecorder with stages := blockPieces }).2.result = .ok () ∧
      (check { blockRecorder with stages := blockPieces }).1.stages =
        [⟨1, .volts, .counts, "V",
            [.filter (.fir ⟨.odd, [1 / 9, 2 / 9, 3 / 9], 1⟩),
              .decimation ⟨1 / 100, 2, 0, 1 / 2, 1 / 4⟩, .gain ⟨1500, 1⟩]⟩,
          ⟨0, .undefined, .undefined, "", [.gain ⟨1500, 1⟩]⟩] := by
  have hBlock : Element.Cut (.filter (.fir ⟨.asymmetric, [3, 2, 1], (1 : ℚ)⟩))
      [.filter (.fir ⟨.asymmetric, [3], 1⟩), .filter (.fir ⟨.asymmetric, [], 1⟩),
        .filter (.fir ⟨.asymmetric, [2, 1], 1⟩)] :=
    .fir .asymmetric 1 (List.cons_ne_nil [3] [[], [2, 1]])
  have hPieces : List.Forall₂ Stage.Cut blockRecorder.stages blockPieces :=
    .cons ⟨.keep _ (.cut hBlock (.keep _ (.keep _ .nil))), rfl⟩ (.cons ⟨.keep _ .nil, rfl⟩ .nil)
  obtain ⟨hReport, hChannel⟩ := check_cut blockRecorder hPieces
  have hOk : (check blockRecorder).2.result = .ok () := by decide +kernel
  refine ⟨hPieces, by rw [hReport, hOk], ?_⟩
  rw [hChannel hOk]
  decide +kernel

end Chain

end InstrumentResponse
