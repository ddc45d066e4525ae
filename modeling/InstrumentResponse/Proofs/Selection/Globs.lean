import InstrumentResponse.Proofs.Record.Selecting

/-!
# What pattern lists select

A pattern list is read character by character into patterns, which are matched with backtracking.
Here stands what it means: its items are its longest runs without separators, and an item is a glob.

* `Globs`, `matchesChars_iff`: globs as a relation on texts, and the matcher that decides it.
* `Selects`, `anyAccepts_readList_iff`: the codes that a pattern list selects.
* `ofLists_selects`: a selection by four lists accepts the channels whose codes they select.
-/

namespace InstrumentResponse

namespace Pattern

/-! ## Globs -/

/-- A text that a glob stands for: `*` is any run of characters, `?` any one character, and every
other character itself. -/
inductive Globs : List Char → List Char → Prop
  | nil : Globs [] []
  | anyRun {ps cs : List Char} (run : List Char) (h : Globs ps cs) : Globs ('*' :: ps) (run ++ cs)
  | anyOne {ps cs : List Char} (c : Char) (h : Globs ps cs) : Globs ('?' :: ps) (c :: cs)
  | literal {c : Char} {ps cs : List Char} (hRun : c ≠ '*') (hOne : c ≠ '?') (h : Globs ps cs) :
      Globs (c :: ps) (c :: cs)

theorem globs_nil_iff {cs : List Char} : Globs [] cs ↔ cs = [] := by
  constructor
  · rintro ⟨⟩
    rfl
  · rintro rfl
    exact .nil

/-- A star leaves some end of the text to the rest of the glob. -/
theorem globs_anyRun_iff {ps cs : List Char} :
    Globs ('*' :: ps) cs ↔ ∃ rest, rest <:+ cs ∧ Globs ps rest := by
  constructor
  · intro h
    cases h with
    | anyRun run h => exact ⟨_, List.suffix_append run _, h⟩
    | literal hRun => exact absurd rfl hRun
  · rintro ⟨rest, ⟨run, rfl⟩, h⟩
    exact .anyRun run h

theorem globs_anyOne_iff {ps cs : List Char} :
    Globs ('?' :: ps) cs ↔ ∃ c rest, cs = c :: rest ∧ Globs ps rest := by
  constructor
  · intro h
    cases h with
    | anyOne c h => exact ⟨c, _, rfl, h⟩
    | literal _ hOne => exact absurd rfl hOne
  · rintro ⟨c, rest, rfl, h⟩
    exact .anyOne c h

theorem globs_literal_iff {d : Char} (hRun : d ≠ '*') (hOne : d ≠ '?') {ps cs : List Char} :
    Globs (d :: ps) cs ↔ ∃ rest, cs = d :: rest ∧ Globs ps rest := by
  constructor
  · intro h
    cases h with
    | anyRun => exact absurd rfl hRun
    | anyOne => exact absurd rfl hOne
    | literal _ _ h => exact ⟨_, rfl, h⟩
  · rintro ⟨rest, rfl, h⟩
    exact .literal hRun hOne h

/-! ## The matcher -/

theorem matchesChars_anyOne_iff {ps : List PatternChar} {cs : List Char} (h : '\n' ∉ cs) :
    matchesChars (.anyOne :: ps) cs = true ↔
      ∃ c rest, cs = c :: rest ∧ matchesChars ps rest = true := by
  cases cs with
  | nil => simp [matchesChars]
  | cons c cs => simp [matchesChars, isWild_of_not_mem h]

theorem matchesChars_literal_iff {d : Char} {ps : List PatternChar} {cs : List Char} :
    matchesChars (.literal d :: ps) cs = true ↔
      ∃ rest, cs = d :: rest ∧ matchesChars ps rest = true := by
  cases cs with
  | nil => simp [matchesChars]
  | cons c cs => simp [matchesChars]

/-- The matcher accepts a text of one line exactly if the glob stands for it. -/
theorem matchesChars_iff {ps cs : List Char} (h : '\n' ∉ cs) :
    matchesChars (ps.map charOf) cs = true ↔ Globs ps cs := by
  induction ps generalizing cs with
  | nil => rw [List.map_nil, matchesChars_nil_iff, globs_nil_iff]
  | cons p ps ih =>
    rw [List.map_cons]
    by_cases hRun : p = '*'
    · subst hRun
      have hChar : charOf '*' = .anyRun := rfl
      rw [hChar, matchesChars_anyRun_iff h, globs_anyRun_iff]
      exact exists_congr fun rest => and_congr_right fun hRest =>
        ih fun hm => h (hRest.subset hm)
    by_cases hOne : p = '?'
    · subst hOne
      have hChar : charOf '?' = .anyOne := rfl
      rw [hChar, matchesChars_anyOne_iff h, globs_anyOne_iff]
      refine exists_congr fun c => exists_congr fun rest => and_congr_right ?_
      rintro rfl
      exact ih fun hm => h (List.mem_cons_of_mem _ hm)
    · have hChar : charOf p = .literal p := by rw [charOf, if_neg hRun, if_neg hOne]
      rw [hChar, matchesChars_literal_iff, globs_literal_iff hRun hOne]
      refine exists_congr fun rest => and_congr_right ?_
      rintro rfl
      exact ih fun hm => h (List.mem_cons_of_mem _ hm)

/-! ## Lists of patterns -/

/-- What separates the items of a pattern list. -/
def isSeparator (c : Char) : Bool := c == ',' || Text.isBlank c

/-- An item of a pattern list: a longest run without separators. -/
structure IsItem (list item : String) : Prop where
  ne_empty : item ≠ ""
  isPiece : Text.IsPiece isSeparator list.toList item.toList

/-- The codes that a pattern list selects: the blank code if it has no items or the item `??`, and
those that another item stands for. -/
inductive Selects (list code : String) : Prop
  | noItems (h : ∀ item, ¬ IsItem list item) (hCode : code = "")
  | blankItem (h : IsItem list "??") (hCode : code = "")
  | glob {item : String} (h : IsItem list item) (hItem : item ≠ "??")
      (hCode : Globs item.toList code.toList)

/-- The items of a pattern list, in order. -/
def items (list : String) : List String :=
  (Text.piecesBy isSeparator list).filter (!·.isEmpty)

theorem mem_items_iff {list item : String} : item ∈ items list ↔ IsItem list item := by
  have hPiece : item ∈ Text.piecesBy isSeparator list ↔
      Text.IsPiece isSeparator list.toList item.toList := by
    rw [Text.piecesBy, List.mem_map, ← Text.mem_piecesOf_iff]
    constructor
    · rintro ⟨w, hw, rfl⟩
      rwa [String.toList_ofList]
    · exact fun hw => ⟨_, hw, String.ofList_toList⟩
  rw [items, List.mem_filter, hPiece, Bool.not_eq_true', Bool.eq_false_iff, ne_eq,
    String.isEmpty_iff]
  exact ⟨fun h => ⟨h.2, h.1⟩, fun h => ⟨h.isPiece, h.ne_empty⟩⟩

theorem readList_of_items {list : String} (h : items list = []) : readList list = [blank] := by
  have hItems : (Text.piecesBy (fun c => c == ',' || Text.isBlank c) list).filter (!·.isEmpty) =
    [] := h
  rw [readList, hItems]

theorem readList_of_ne_nil {list : String} (h : items list ≠ []) :
    readList list = (items list).map read := by
  have hItems : (Text.piecesBy (fun c => c == ',' || Text.isBlank c) list).filter (!·.isEmpty) =
    items list := rfl
  rw [readList, hItems]
  split
  · next hNil => exact absurd hNil h
  · rfl

theorem accepts_read_iff {item code : String} (hItem : item ≠ "") (h : '\n' ∉ code.toList) :
    (read item).accepts code = true ↔
      item = "??" ∧ code = "" ∨ item ≠ "??" ∧ Globs item.toList code.toList := by
  by_cases hBlank : item = "??"
  · rw [read, if_pos (.inr hBlank), accepts, String.isEmpty_iff]
    simp [hBlank]
  · rw [read, if_neg (by tauto), accepts, matchesChars_iff h]
    simp [hBlank]

/-- A pattern list accepts exactly the codes of one line that it selects. -/
theorem anyAccepts_readList_iff {list code : String} (h : '\n' ∉ code.toList) :
    anyAccepts (readList list) code = true ↔ Selects list code := by
  by_cases hNone : items list = []
  · have hNoItem : ∀ item, ¬ IsItem list item := fun item hItem => by
      simpa [hNone] using mem_items_iff.mpr hItem
    have hBlank : anyAccepts [blank] code = code.isEmpty := Bool.or_false _
    rw [readList_of_items hNone, hBlank, String.isEmpty_iff]
    constructor
    · exact .noItems hNoItem
    · intro hSelects
      cases hSelects with
      | noItems _ hCode => exact hCode
      | blankItem hItem => exact absurd hItem (hNoItem _)
      | glob hItem => exact absurd hItem (hNoItem _)
  · rw [readList_of_ne_nil hNone, anyAccepts, List.any_map, List.any_eq_true]
    constructor
    · rintro ⟨item, hMem, hAccepts⟩
      have hItem := mem_items_iff.mp hMem
      rcases (accepts_read_iff hItem.ne_empty h).mp hAccepts with ⟨rfl, hCode⟩ | ⟨hNe, hCode⟩
      · exact .blankItem hItem hCode
      · exact .glob hItem hNe hCode
    · intro hSelects
      cases hSelects with
      | noItems hNoItem =>
        obtain ⟨item, hMem⟩ := List.exists_mem_of_ne_nil _ hNone
        exact absurd (mem_items_iff.mp hMem) (hNoItem item)
      | blankItem hItem hCode =>
        exact ⟨_, mem_items_iff.mpr hItem,
          (accepts_read_iff hItem.ne_empty h).mpr (.inl ⟨rfl, hCode⟩)⟩
      | glob hItem hNe hCode =>
        exact ⟨_, mem_items_iff.mpr hItem,
          (accepts_read_iff hItem.ne_empty h).mpr (.inr ⟨hNe, hCode⟩)⟩

end Pattern

/-! ## Selections -/

namespace Selection

open Pattern

/-- A pattern list accepts exactly the codes of one line that it selects, and a selection by four
lists accepts the channels whose codes are selected by the list for each. -/
theorem ofLists_selects :
    (∀ list code : String, '\n' ∉ code.toList →
      (anyAccepts (readList list) code = true ↔ Selects list code)) ∧
    ∀ (stations channels networks locations : String) (instant : Option Instant) (id : ChannelId),
      id.OneLine →
      ((ofLists stations channels networks locations instant).acceptsId id = true ↔
        Selects stations id.station ∧ Selects channels id.channel ∧
          Selects networks id.network ∧ Selects locations id.location) := by
  refine ⟨fun list code h => anyAccepts_readList_iff h, ?_⟩
  intro stations channels networks locations instant id h
  simp only [acceptsId, ofLists, Bool.and_eq_true, anyAccepts_readList_iff h.station,
    anyAccepts_readList_iff h.channel, anyAccepts_readList_iff h.network,
    anyAccepts_readList_iff h.location, and_assoc]

/-- A point is no wildcard, a question mark stands for a character of any width, and `??` for the
blank code. -/
theorem ofLists_selects_pointed :
    ChannelId.OneLine ⟨"IU", "A.Bé", "", "BHZ"⟩ ∧ '\n' ∉ "AxBé".toList ∧
      (Selects "COL*, A.*B?" "A.Bé" ∧ Selects "BH?" "BHZ" ∧ Selects "*" "IU" ∧ Selects "??" "") ∧
      ¬ Selects "COL*, A.*B?" "AxBé" := by
  have hOneLine : ChannelId.OneLine ⟨"IU", "A.Bé", "", "BHZ"⟩ :=
    ⟨by decide, by decide, by decide, by decide⟩
  have hOther : '\n' ∉ "AxBé".toList := by decide
  refine ⟨hOneLine, hOther, ?_, ?_⟩
  · exact (ofLists_selects.2 "COL*, A.*B?" "BH?" "*" "??" none _ hOneLine).mp (by decide +kernel)
  · intro h
    exact absurd ((ofLists_selects.1 _ _ hOther).mpr h) (by decide +kernel)

end Selection

end InstrumentResponse
