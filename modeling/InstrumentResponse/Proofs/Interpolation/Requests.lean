import InstrumentResponse.Interpolation
import InstrumentResponse.Proofs.Outcomes

/-!
# Which requests a table serves

An interpolation that succeeds gives one row for each requested frequency that the table can serve,
in the order of the requests.

* `ResponseList.Rectangular`: a table whose columns are as long as each other.
* `ResponseList.kept`: the requested frequencies that are served.
* `ResponseList.interpolate_eq_ok`: the rows of an interpolation.
-/

namespace InstrumentResponse

variable {α : Type}

namespace ResponseList

/-- There is an amplitude and a phase for each frequency. -/
structure Rectangular (l : ResponseList α) : Prop where
  length_amplitudes : l.amplitudes.length = l.frequencies.length
  length_phases : l.phases.length = l.frequencies.length

theorem Rectangular.append {a b : ResponseList α} (ha : a.Rectangular) (hb : b.Rectangular) :
    (a.append b).Rectangular where
  length_amplitudes := by
    rw [ResponseList.append, List.length_append, List.length_append, ha.length_amplitudes,
      hb.length_amplitudes]
  length_phases := by
    rw [ResponseList.append, List.length_append, List.length_append, ha.length_phases,
      hb.length_phases]

variable [Scalar α]

/-- The requested frequencies that a table can serve, those just outside moved to its ends. -/
def kept (l : ResponseList α) (requested : List α) : List α :=
  l.ascending.frequencies.head?.elim [] fun low =>
    l.ascending.frequencies.getLast?.elim [] fun high => requested.filterMap (clip? low high)

theorem clipAll_eq_ok {low high : α} {requested frequencies : List α}
    (h : (clipAll low high requested).result = .ok frequencies) :
    frequencies = requested.filterMap (clip? low high) := by
  rw [clipAll] at h
  dsimp only at h
  split at h
  · cases h
  · split at h
    · cases h
      rfl
    · obtain ⟨-, -, hKept⟩ := Report.result_bind_eq_ok.mp h
      cases hKept
      rfl

theorem length_raised (l : ResponseList α) (amplitudes : List α) :
    (l.raised amplitudes).length = amplitudes.length := by
  rw [raised]
  cases l.leastAmplitude? with
  | none => rfl
  | some least =>
    dsimp only
    split
    · exact List.length_map _
    · rfl

theorem interpolate_eq_ok {l aligned : ResponseList α} {requested : List α}
    (h : (l.interpolate requested).result = .ok aligned) :
    aligned.frequencies = l.kept requested ∧ aligned.Rectangular := by
  rw [interpolate] at h
  dsimp only at h
  rw [kept]
  cases hLow : l.ascending.frequencies.head? with
  | none =>
    rw [hLow] at h
    cases h
  | some low =>
    cases hHigh : l.ascending.frequencies.getLast? with
    | none =>
      rw [hLow, hHigh] at h
      cases h
    | some high =>
      rw [hLow, hHigh] at h
      obtain ⟨frequencies, hClipped, hRows⟩ := Report.result_bind_eq_ok.mp h
      rw [Option.elim_some, Option.elim_some, ← clipAll_eq_ok hClipped]
      split at hRows
      · cases hRows
        exact ⟨rfl, List.length_map _, List.length_map _⟩
      · obtain ⟨amplitudeCurve, -, hRows⟩ := Report.result_bind_eq_ok.mp hRows
        obtain ⟨phaseCurve, -, hRows⟩ := Report.result_bind_eq_ok.mp hRows
        cases hRows
        refine ⟨rfl, ?_, ?_⟩
        · exact (length_raised _ _).trans (List.length_map _)
        · dsimp only
          split
          · rw [List.length_map, List.length_map]
          · exact List.length_map _

end ResponseList

end InstrumentResponse
