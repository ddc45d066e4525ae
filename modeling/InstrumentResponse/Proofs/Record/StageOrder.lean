import InstrumentResponse.Proofs.Chain.CanonicalForm
import InstrumentResponse.Proofs.Chain.StageNumbers
import InstrumentResponse.Proofs.Record.Grouping
import InstrumentResponse.Proofs.Record.StageNumbers

/-!
# The order of stages

Stages are neither sorted nor renumbered: those of a channel stand in the order of its records, and
the check leaves them there.  No order of their numbers is refused.

* `Ascending`: numbers that do not go down, apart from those that are 0.
* `ascending_gathers`: stages are in order if and only if what they are made of is.
* `Chain.sequences_of_check`: the check keeps the numbers of the stages.
* `stages_in_record_order`: both of them for the channels of a text, and those of texts with other
  numbers.
-/

namespace InstrumentResponse

/-- A check that succeeds keeps the numbers of the stages. -/
theorem Chain.sequences_of_check {α : Type} [Scalar α] {c : Channel α}
    (h : (check c).2.result = .ok ()) :
    (check c).1.stages.map (·.sequence) = c.stages.map (·.sequence) := by
  rw [(canonical_of_check h).1, Channel.canonical, List.map_map]
  rfl

namespace Record

/-- The numbers do not go down, apart from those that are 0. -/
def Ascending (numbers : List Nat) : Prop := (numbers.filter (· ≠ 0)).Pairwise (· ≤ ·)

instance (numbers : List Nat) : Decidable (Ascending numbers) :=
  inferInstanceAs (Decidable (List.Pairwise _ _))

theorem ascending_append {numbers others : List Nat} :
    Ascending (numbers ++ others) ↔ Ascending numbers ∧ Ascending others ∧
      ∀ m ∈ numbers, ∀ n ∈ others, m ≠ 0 → n ≠ 0 → m ≤ n := by
  rw [Ascending, List.filter_append, List.pairwise_append]
  refine and_congr_right' (and_congr_right' ?_)
  simp only [List.mem_filter, decide_eq_true_eq]
  exact ⟨fun h m hm n hn hm0 hn0 => h m ⟨hm, hm0⟩ n ⟨hn, hn0⟩,
    fun h m ⟨hm, hm0⟩ n ⟨hn, hn0⟩ => h m hm n hn hm0 hn0⟩

theorem ascending_constant {n : Nat} {numbers : List Nat} (h : ∀ m ∈ numbers, m = n) :
    Ascending numbers := by
  refine List.Pairwise.filter _ (List.pairwise_of_forall_mem_list fun a ha b hb => ?_)
  rw [h a ha, h b hb]

section

variable {s : Stage Float} {group : List Contribution} {stages : List (Stage Float)}
  {groups : List (List Contribution)}

theorem Gathers.sequence_mem (h : Gathers s group) :
    ∀ m ∈ group.map (·.sequence), m = s.sequence := by
  intro m hm
  obtain ⟨x, hx, rfl⟩ := List.mem_map.mp hm
  exact h.sequence_eq x hx

/-- A number is that of a stage if and only if something is given under it. -/
theorem mem_sequences_gathers (h : List.Forall₂ Gathers stages groups)
    (hne : ∀ group ∈ groups, group ≠ []) (n : Nat) :
    n ∈ groups.flatten.map (·.sequence) ↔ n ∈ stages.map (·.sequence) := by
  induction h with
  | nil => exact Iff.rfl
  | @cons s group stages groups hs _ ih =>
    obtain ⟨hGroup, hRest⟩ := List.forall_mem_cons.mp hne
    obtain ⟨x, hx⟩ := List.exists_mem_of_ne_nil group hGroup
    rw [List.flatten_cons, List.map_append, List.mem_append, List.map_cons, List.mem_cons, ih hRest]
    refine or_congr_left ⟨hs.sequence_mem n, ?_⟩
    rintro rfl
    exact List.mem_map.mpr ⟨x, hx, hs.sequence_eq x hx⟩

/-- Stages are in order if and only if what they are made of is. -/
theorem ascending_gathers (h : List.Forall₂ Gathers stages groups)
    (hne : ∀ group ∈ groups, group ≠ []) :
    Ascending (stages.map (·.sequence)) ↔ Ascending (groups.flatten.map (·.sequence)) := by
  induction h with
  | nil => exact Iff.rfl
  | @cons s group stages groups hs hAll ih =>
    obtain ⟨hGroup, hRest⟩ := List.forall_mem_cons.mp hne
    obtain ⟨x, hx⟩ := List.exists_mem_of_ne_nil group hGroup
    have hNumber : s.sequence ∈ group.map (·.sequence) :=
      List.mem_map.mpr ⟨x, hx, hs.sequence_eq x hx⟩
    rw [← List.singleton_append, List.map_append, List.flatten_cons, List.map_append,
      ascending_append, ascending_append, ih hRest]
    refine and_congr (iff_of_true ?_ (ascending_constant hs.sequence_mem)) (and_congr_right' ?_)
    · exact ascending_constant fun m hm => List.mem_singleton.mp hm
    simp only [mem_sequences_gathers hAll hRest]
    constructor
    · intro hBefore m hm
      rw [hs.sequence_mem m hm]
      exact hBefore s.sequence List.mem_cons_self
    · intro hBefore m hm
      rw [List.mem_singleton.mp hm]
      exact hBefore s.sequence hNumber

end

theorem ReadFrom.ascending_iff [Memory] {undecoded : Bool} {text : String} {c : Channel Float}
    {contents : List Content} (h : ReadFrom undecoded text c contents) :
    Ascending (c.stages.map (·.sequence)) ↔
      Ascending ((contents.flatMap Content.contributions).map (·.sequence)) := by
  have hStages := ascending_gathers h.gathers fun _ hGroup => List.ne_nil_of_mem_splitBy hGroup
  rwa [List.flatten_splitBy] at hStages

/-- Whether the check of a channel succeeds, and the numbers of its stages. -/
def acceptedNumbers (c : Channel Float) : Bool × List Nat :=
  ((faultOf? (Chain.check c).2.result).isNone, c.stages.map (·.sequence))

theorem exists_accepted {items : List Item} {numbers : List Nat}
    (h : items.map (fun item => item.result.toOption.map acceptedNumbers) =
      [some (true, numbers)]) :
    ∃ item ∈ items, ∃ c, item.result = .ok c ∧ (Chain.check c).2.result = .ok () ∧
      c.stages.map (·.sequence) = numbers := by
  obtain ⟨item, hItem, c, hOk, hSeen⟩ := exists_of_map_toOption h
  obtain ⟨hAccepted, hNumbers⟩ := Prod.mk.inj hSeen
  obtain ⟨_, hCheck⟩ := faultOf?_eq_none_iff.mp (Option.isNone_iff_eq_none.mp hAccepted)
  exact ⟨item, hItem, c, hOk, hCheck, hNumbers⟩

/-- **Stages stand in the order of their records.**  Each stage of a channel is made of what some
records in a row give under its number.  A check that succeeds keeps the numbers and their order,
whatever it is.  So they do not go down, apart from those that are 0, if and only if the numbers in
the records of the text do not.  Neither reading nor the check refuses an order: other numbers may
stand in the text, and other ones for those of a chain that are not 0. -/
theorem stages_in_record_order [Memory] (select : Channel Float → Bool) (undecoded : Bool)
    (text : String) :
    (∀ item ∈ channels select undecoded text, ∀ c, item.result = .ok c →
      ∃ contents, ReadFrom undecoded text c contents ∧
        List.Forall₂ Gathers c.stages
          ((contents.flatMap Content.contributions).splitBy Contribution.continues) ∧
        ((Chain.check c).2.result = .ok () →
          (Chain.check c).1.stages.map (·.sequence) = c.stages.map (·.sequence) ∧
          (Ascending ((Chain.check c).1.stages.map (·.sequence)) ↔
            Ascending ((contents.flatMap Content.contributions).map (·.sequence))))) ∧
    (∀ ρ other, List.Forall₂ (Entry.Restaged ρ) (entries text) (entries other) →
      List.Forall₂ (Item.Restaged ρ) (channels select undecoded text)
        (channels select undecoded other)) ∧
    ∀ c c' : Channel Float,
      List.Forall₂ (Stage.Restaged fun m n => m = 0 ↔ n = 0) c.stages c'.stages →
        ((Chain.check c').2.result = .ok () ↔ (Chain.check c).2.result = .ok ()) := by
  refine ⟨?_, fun ρ other hEntries => channels_restaged hEntries,
    fun c c' hStages => Chain.check_restaged_iff (fun _ _ h => h) hStages⟩
  intro item hItem c hOk
  obtain ⟨contents, hRead⟩ := exists_readFrom hItem hOk
  refine ⟨contents, hRead, hRead.gathers, fun hCheck => ?_⟩
  have hSame := Chain.sequences_of_check hCheck
  rw [hSame, hRead.ascending_iff]
  exact ⟨rfl, Iff.rfl⟩

/-- A sensor, a sensitivity, and an amplifier, with the numbers of the first one and the last
one. -/
def amplifiedChain (sensor amplifier : String) : String :=
  textOf ["B050F03 Station: A", "B050F16 Network: B", "B052F04 Channel: C",
    "B052F22 Start: 2020,001", "B052F23 End: No Ending Time",
    "B056F03 Stage: " ++ sensor, "B056F04 Input: M/S", "B056F05 Output: V", "B056F06 Corners: 0",
    "B058F03 Stage: 0", "B058F04 Gain: 6.0", "B058F05 Frequency: 1.0", "B058F06 Calibrations: 0",
    "B056F03 Stage: " ++ amplifier, "B056F04 Input: V", "B056F05 Output: V", "B056F06 Corners: 0",
    "B058F03 Stage: " ++ amplifier, "B058F04 Gain: 3.0", "B058F05 Frequency: 1.0",
    "B058F06 Calibrations: 0"]

/-- The numbers 1 and 2 stand for each other. -/
def Exchanged (m n : Nat) : Prop := (m, n) ∈ [(0, 0), (1, 2), (2, 1)]

instance : DecidableRel Exchanged := fun _ _ => inferInstanceAs (Decidable (_ ∈ _))

theorem faithful_exchanged : Faithful Exchanged where
  zero := by decide
  eq_iff h h' := by
    simp only [Exchanged, List.mem_cons, Prod.mk.injEq, List.not_mem_nil, or_false] at h h'
    omega

theorem entries_amplifiedChain :
    List.Forall₂ (Entry.Restaged Exchanged) (entries (amplifiedChain "1" "2"))
      (entries (amplifiedChain "2" "1")) := by
  rw [amplifiedChain, entries_textOf (by decide +kernel), amplifiedChain,
    entries_textOf (by decide +kernel)]
  decide +kernel

/-- The chain is accepted in either order of its numbers. -/
theorem stages_in_record_order_amplifiedChain :
    ∃ item ∈ channels (fun _ => true) false (amplifiedChain "1" "2"), ∃ c, item.result = .ok c ∧
      (Chain.check c).2.result = .ok () ∧
      (∃ contents, ReadFrom false (amplifiedChain "1" "2") c contents ∧
        (Chain.check c).1.stages.map (·.sequence) = [1, 0, 2] ∧
        Ascending ((contents.flatMap Content.contributions).map (·.sequence))) ∧
      ∃ item' ∈ channels (fun _ => true) false (amplifiedChain "2" "1"),
        ∃ c', item'.result = .ok c' ∧
          List.Forall₂ (Stage.Restaged Exchanged) c.stages c'.stages ∧
          (Chain.check c').2.result = .ok () := by
  have hRead : (channels (fun _ => true) false (amplifiedChain "1" "2")).map (fun item =>
      item.result.toOption.map acceptedNumbers) = [some (true, [1, 0, 2])] := by
    rw [channels_eq_leadingFault_append, leadingFault, amplifiedChain,
      entries_textOf (by decide +kernel), lineCount_textOf (by decide +kernel)]
    decide +kernel
  obtain ⟨item, hItem, c, hOk, hCheck, hNumbers⟩ := exists_accepted hRead
  obtain ⟨hOrder, hReading, hChecking⟩ :=
    stages_in_record_order (fun _ => true) false (amplifiedChain "1" "2")
  refine ⟨item, hItem, c, hOk, hCheck, ?_, ?_⟩
  · obtain ⟨contents, hRecords, -, hChecked⟩ := hOrder item hItem c hOk
    obtain ⟨hSame, hAscending⟩ := hChecked hCheck
    rw [hNumbers] at hSame
    rw [hSame] at hAscending
    exact ⟨contents, hRecords, hSame, hAscending.mp (by decide)⟩
  · obtain ⟨item', hItem', c', hOk', hSame⟩ :=
      exists_channel_restaged (hReading Exchanged _ entries_amplifiedChain) hItem hOk
    have hStages := hSame.stages.forall₂ faithful_exchanged
    refine ⟨item', hItem', c', hOk', hStages, (hChecking c c' ?_).mpr hCheck⟩
    exact hStages.imp fun s t hs => hs.imp faithful_exchanged.zero_iff

/-- A sensor of number 2, and an amplifier of number 1 behind it. -/
def countedDown : String :=
  textOf ["B050F03 Station: A", "B050F16 Network: B", "B052F04 Channel: C",
    "B052F22 Start: 2020,001", "B052F23 End: No Ending Time",
    "B056F03 Stage: 2", "B056F04 Input: M/S", "B056F05 Output: V", "B056F06 Corners: 0",
    "B056F03 Stage: 1", "B056F04 Input: V", "B056F05 Output: V", "B056F06 Corners: 0"]

/-- The check accepts its channel, and leaves the stages as they stand. -/
theorem countedDown_not_ascending :
    ∃ item ∈ channels (fun _ => true) false countedDown, ∃ c, item.result = .ok c ∧
      (Chain.check c).2.result = .ok () ∧
      (Chain.check c).1.stages.map (·.sequence) = [2, 1] ∧
      ¬ Ascending ((Chain.check c).1.stages.map (·.sequence)) := by
  have hRead : (channels (fun _ => true) false countedDown).map (fun item =>
      item.result.toOption.map acceptedNumbers) = [some (true, [2, 1])] := by
    rw [channels_eq_leadingFault_append, leadingFault, countedDown,
      entries_textOf (by decide +kernel), lineCount_textOf (by decide +kernel)]
    decide +kernel
  obtain ⟨item, hItem, c, hOk, hCheck, hNumbers⟩ := exists_accepted hRead
  have hSame := Chain.sequences_of_check hCheck
  rw [hNumbers] at hSame
  refine ⟨item, hItem, c, hOk, hCheck, hSame, ?_⟩
  rw [hSame]
  decide

end Record

end InstrumentResponse
