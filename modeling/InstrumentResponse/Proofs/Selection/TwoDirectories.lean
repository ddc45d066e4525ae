import InstrumentResponse.FileSearch

/-!
# Files of two directories

The files of a second directory come after those of the local one, and a local file hides one of the
same name.

* `FileTree.Reaches`, `reaches_walk`, `Reaches.unique`: places in a tree, and the paths that lead to
  them; two paths with the same canonical form lead to the same entries.
* `mem_selectedNames_iff`, `pairwise_selectedNames`: the selected files of one directory, by name.
* `find_merges`: the files that are found in two directories.
-/

namespace InstrumentResponse.FileTree

variable {t here place : FileTree} {above path other : List (String × FileTree)}

/-! ## Places in a tree -/

/-- A place in a tree, with the directories on the way to it, the innermost first. -/
inductive Reaches (t : FileTree) : List (String × FileTree) → FileTree → Prop
  | top : Reaches t [] t
  | entry {above : List (String × FileTree)} {entries : List (String × FileTree)} {name : String}
      {next : FileTree} (h : Reaches t above (.directory entries))
      (hName : entries.lookup name = some next) :
      Reaches t ((name, .directory entries) :: above) next

/-- A walk that starts at a place ends at one. -/
theorem reaches_walk {steps : List String} (h : Reaches t above here)
    (hWalk : walk here above steps = some (place, path)) : Reaches t path place := by
  induction steps generalizing here above with
  | nil =>
    cases hWalk
    exact h
  | cons step steps ih =>
    cases here with
    | file => cases hWalk
    | directory entries =>
      simp only [walk] at hWalk
      split at hWalk
      · exact ih h hWalk
      split at hWalk
      · split at hWalk
        · exact ih h hWalk
        · cases h with
          | entry hParent => exact ih hParent hWalk
      · split at hWalk
        · cases hWalk
        · next next hName => exact ih (.entry h hName) hWalk

/-- The names on the way tell a place. -/
theorem Reaches.unique (h : Reaches t path place) (hOther : Reaches t other here)
    (hNames : path.map (·.1) = other.map (·.1)) : place = here := by
  induction h generalizing other here with
  | top =>
    obtain rfl : other = [] := List.map_eq_nil_iff.mp hNames.symm
    cases hOther
    rfl
  | entry _ hName ih =>
    cases hOther with
    | top => cases hNames
    | entry hParent hOtherName =>
      obtain ⟨rfl, hAbove⟩ := List.cons.inj hNames
      cases ih hParent hAbove
      exact Option.some.inj (hName.symm.trans hOtherName)

/-- Two paths with the same canonical form lead to the same place. -/
theorem lookup?_eq_of_canonical? {a b : String} {steps : List String}
    (ha : t.canonical? a = some steps) (hb : t.canonical? b = some steps) :
    t.lookup? a = t.lookup? b := by
  obtain ⟨⟨placeA, pathA⟩, hWalkA, rfl⟩ := Option.map_eq_some_iff.mp ha
  obtain ⟨⟨placeB, pathB⟩, hWalkB, hSteps⟩ := Option.map_eq_some_iff.mp hb
  have hPlace : placeB = placeA := (reaches_walk .top hWalkB).unique (reaches_walk .top hWalkA)
    (List.reverse_inj.mp hSteps)
  rw [lookup?, lookup?, hWalkA, hWalkB, Option.map_some, Option.map_some, hPlace]

theorem isSame_iff {a b : String} : t.isSame a b = true ↔
    ∃ steps, t.canonical? a = some steps ∧ t.canonical? b = some steps := by
  rw [isSame]
  split
  · next hA hB =>
    rw [beq_iff_eq]
    constructor
    · rintro rfl
      exact ⟨_, hA, hB⟩
    · rintro ⟨steps, hStepsA, hStepsB⟩
      exact Option.some.inj ((hA.symm.trans hStepsA).trans (hStepsB.symm.trans hB))
  · next hNot =>
    refine iff_of_false Bool.false_ne_true ?_
    rintro ⟨steps, hA, hB⟩
    exact hNot steps steps hA hB

/-- What can be listed has a canonical form. -/
theorem exists_canonical? {a : String} {entries : List (String × FileTree)}
    (h : t.list? a = some entries) : ∃ steps, t.canonical? a = some steps := by
  obtain ⟨place, hPlace, _⟩ := Option.bind_eq_some_iff.mp h
  obtain ⟨⟨_, path⟩, hWalk, _⟩ := Option.map_eq_some_iff.mp hPlace
  exact ⟨_, Option.map_eq_some_iff.mpr ⟨_, hWalk, rfl⟩⟩

/-- Two names of one directory list the same entries. -/
theorem entries_eq_of_isSame {a b : String} {entries others : List (String × FileTree)}
    (h : t.isSame a b = true) (ha : t.list? a = some others) (hb : t.list? b = some entries) :
    others = entries := by
  obtain ⟨steps, hStepsA, hStepsB⟩ := isSame_iff.mp h
  rw [list?, lookup?_eq_of_canonical? hStepsA hStepsB, ← list?, hb] at ha
  exact Option.some.inj ha.symm

/-! ## The files of one directory -/

variable {selection : Selection} {entries : List (String × FileTree)} {name : String}

/-- Is there a regular file of a name, which is that of a selected channel? -/
def IsSelectedFile (selection : Selection) (entries : List (String × FileTree)) (name : String) :
    Prop :=
  (name, file) ∈ entries ∧
    ∃ id, ChannelId.ofFileName? name = some id ∧ selection.acceptsId id = true

theorem isSelected_iff {entry : String × FileTree} : isSelected selection entry = true ↔
    entry.2 = file ∧
      ∃ id, ChannelId.ofFileName? entry.1 = some id ∧ selection.acceptsId id = true := by
  have hFile : entry.2.isFile = true ↔ entry.2 = file := by
    cases entry.2 <;> simp [isFile]
  rw [isSelected, Bool.and_eq_true, hFile, Option.any_eq_true]

theorem mem_selectedNames_iff :
    name ∈ selectedNames selection entries ↔ IsSelectedFile selection entries name := by
  rw [selectedNames, List.mem_mergeSort, List.mem_map]
  constructor
  · rintro ⟨⟨name, place⟩, hMem, rfl⟩
    obtain ⟨hEntry, hSelected⟩ := List.mem_filter.mp hMem
    obtain ⟨rfl, hId⟩ := isSelected_iff.mp hSelected
    exact ⟨hEntry, hId⟩
  · rintro ⟨hEntry, hId⟩
    exact ⟨_, List.mem_filter.mpr ⟨hEntry, isSelected_iff.mpr ⟨rfl, hId⟩⟩, rfl⟩

/-- In a directory with distinct names the selected files come in the order of their names, each
once. -/
theorem pairwise_selectedNames (h : (entries.map (·.1)).Nodup) :
    (selectedNames selection entries).Pairwise (· < ·) := by
  have hSorted : (selectedNames selection entries).Pairwise (· ≤ ·) := by
    refine (List.pairwise_mergeSort ?_ ?_ _).imp of_decide_eq_true
    · intro a b c hab hbc
      exact decide_eq_true (String.le_trans (of_decide_eq_true hab) (of_decide_eq_true hbc))
    · intro a b
      rw [Bool.or_eq_true, decide_eq_true_eq, decide_eq_true_eq]
      exact String.le_total a b
  have hNodup : (selectedNames selection entries).Nodup :=
    (List.mergeSort_perm _ _).nodup_iff.mpr (h.sublist (List.filter_sublist.map _))
  refine (hSorted.and hNodup).imp fun {a b} hab => ?_
  rw [← String.not_le]
  exact fun hba => hab.2 (String.le_antisymm hab.1 hba)

theorem scan_of_list? {path : String} (h : t.list? path = some entries) :
    t.scan selection path = .ok (selectedNames selection entries) := by
  rw [scan, h]

/-! ## Two directories -/

variable {home seed : String} {locals others : List (String × FileTree)}

/-- The names of the selected files of a second directory that the local one does not hide. -/
def unhiddenNames (selection : Selection) (locals others : List (String × FileTree)) :
    List String :=
  (selectedNames selection others).filter (!(selectedNames selection locals).contains ·)

theorem mem_unhiddenNames_iff : name ∈ unhiddenNames selection locals others ↔
    IsSelectedFile selection others name ∧ ¬ IsSelectedFile selection locals name := by
  rw [unhiddenNames, List.mem_filter, Bool.not_eq_true', ← Bool.not_eq_true,
    List.contains_iff_mem, mem_selectedNames_iff, mem_selectedNames_iff]

/-- A directory hides its own files. -/
theorem unhiddenNames_self : unhiddenNames selection entries entries = [] := by
  rw [List.eq_nil_iff_forall_not_mem]
  intro name hName
  obtain ⟨hFile, hNot⟩ := mem_unhiddenNames_iff.mp hName
  exact hNot hFile

/-- A second directory that is the local one is not searched, which makes no difference. -/
theorem find_eq (hHome : t.list? home = some locals) (hSeed : t.list? seed = some others) :
    t.find selection none home (some seed) =
      .ok ((selectedNames selection locals).map (joinPath home) ++
        (unhiddenNames selection locals others).map (joinPath seed)) := by
  by_cases hSame : t.isSame seed home = true
  · obtain rfl := entries_eq_of_isSame hSame hSeed hHome
    rw [unhiddenNames_self, List.map_nil, List.append_nil]
    simp only [find, findIn, scan_of_list? hHome, Option.filter_some, hSame, Bool.not_true]
    rfl
  · rw [Bool.not_eq_true] at hSame
    simp only [find, findIn, scan_of_list? hHome, Option.filter_some, hSame, Bool.not_false]
    change (t.scan selection seed).bind _ = _
    rw [scan_of_list? hSeed]
    rfl

/-- The selected files of a local and a second directory: those of the local one, then those of the
second one that have other names, both in the order of their names.  So each name that is that of a
selected file in one of the two comes once, from the local directory if it is there; and from a
directory that is both the local and the second one nothing comes twice. -/
theorem find_merges (hHome : t.list? home = some locals) (hSeed : t.list? seed = some others)
    (hLocals : (locals.map (·.1)).Nodup) (hOthers : (others.map (·.1)).Nodup)
    (selection : Selection) :
    ∃ names extra : List String,
      t.find selection none home (some seed) =
        .ok (names.map (joinPath home) ++ extra.map (joinPath seed)) ∧
      names.Pairwise (· < ·) ∧ extra.Pairwise (· < ·) ∧
      (∀ name, name ∈ names ↔ IsSelectedFile selection locals name) ∧
      (∀ name, name ∈ extra ↔
        IsSelectedFile selection others name ∧ ¬ IsSelectedFile selection locals name) ∧
      (names ++ extra).Nodup ∧
      (∀ name, name ∈ names ++ extra ↔
        IsSelectedFile selection locals name ∨ IsSelectedFile selection others name) ∧
      (t.canonical? seed = t.canonical? home → extra = []) := by
  have hNames : (selectedNames selection locals).Pairwise (· < ·) :=
    pairwise_selectedNames hLocals
  have hExtra : (unhiddenNames selection locals others).Pairwise (· < ·) :=
    (pairwise_selectedNames hOthers).filter _
  have hDistinct : ∀ {names : List String}, names.Pairwise (· < ·) → names.Nodup := by
    intro names h
    refine List.Pairwise.imp ?_ h
    rintro a _ hLt rfl
    exact String.lt_irrefl a hLt
  refine ⟨_, _, find_eq hHome hSeed, hNames, hExtra, fun name => mem_selectedNames_iff,
    fun name => mem_unhiddenNames_iff, ?_, ?_, ?_⟩
  · refine List.nodup_append.mpr ⟨hDistinct hNames, hDistinct hExtra, ?_⟩
    rintro name hName _ hOther rfl
    exact (mem_unhiddenNames_iff.mp hOther).2 (mem_selectedNames_iff.mp hName)
  · intro name
    rw [List.mem_append, mem_selectedNames_iff, mem_unhiddenNames_iff]
    by_cases hLocal : IsSelectedFile selection locals name <;> simp [hLocal]
  · intro hCanonical
    obtain ⟨steps, hSteps⟩ := exists_canonical? hSeed
    have hSame : t.isSame seed home = true :=
      isSame_iff.mpr ⟨steps, hSteps, hCanonical.symm.trans hSteps⟩
    obtain rfl := entries_eq_of_isSame hSame hSeed hHome
    exact unhiddenNames_self

/-- A local directory with one file of records, and a directory that is named like one. -/
def localEntries : List (String × FileTree) :=
  [("notes.txt", .file), ("RESP.IU.ANMO.00.BHZ", .file), ("RESP.IU.ANMO.00.BHN", .directory [])]

/-- A second directory with the same names, and one that is not in the local one. -/
def seedEntries : List (String × FileTree) :=
  [("RESP.IU.ANMO.10.BHZ", .file), ("RESP.IU.ANMO.00.BHZ", .file), ("RESP.IU.ANMO.00.BHN", .file)]

def twoDirectories : FileTree :=
  .directory [("local", .directory localEntries), ("seed", .directory seedEntries)]

/-- The local file hides the one of its name, and the local directory does not. -/
theorem find_merges_twoDirectories :
    twoDirectories.list? "local" = some localEntries ∧
    twoDirectories.list? "local/../seed" = some seedEntries ∧
    (localEntries.map (·.1)).Nodup ∧ (seedEntries.map (·.1)).Nodup ∧
    ∃ names extra : List String,
      twoDirectories.find .any none "local" (some "local/../seed") =
        .ok (names.map (joinPath "local") ++ extra.map (joinPath "local/../seed")) ∧
      "RESP.IU.ANMO.00.BHZ" ∈ names ∧ "RESP.IU.ANMO.00.BHZ" ∉ extra ∧
      "RESP.IU.ANMO.00.BHN" ∈ extra := by
  have hHome : twoDirectories.list? "local" = some localEntries := rfl
  have hSeed : twoDirectories.list? "local/../seed" = some seedEntries := rfl
  have hLocals : (localEntries.map (·.1)).Nodup := by decide
  have hOthers : (seedEntries.map (·.1)).Nodup := by decide
  have hVertical : IsSelectedFile .any localEntries "RESP.IU.ANMO.00.BHZ" :=
    ⟨by simp [localEntries], _, rfl, by decide +kernel⟩
  have hNorth : IsSelectedFile .any seedEntries "RESP.IU.ANMO.00.BHN" :=
    ⟨by simp [seedEntries], _, rfl, by decide +kernel⟩
  obtain ⟨names, extra, hFind, -, -, hNames, hExtra, -⟩ :=
    find_merges hHome hSeed hLocals hOthers .any
  refine ⟨hHome, hSeed, hLocals, hOthers, names, extra, hFind, (hNames _).mpr hVertical, ?_, ?_⟩
  · exact fun h => ((hExtra _).mp h).2 hVertical
  · exact (hExtra _).mpr ⟨hNorth, fun h => by simpa [localEntries] using h.1⟩

end InstrumentResponse.FileTree
