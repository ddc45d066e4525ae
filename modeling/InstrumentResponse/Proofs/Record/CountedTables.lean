import Mathlib.Data.List.Forall2
import InstrumentResponse.Record.Blockette

/-!
# Counted tables

A table of a given length takes just its rows.  It is read if so many lines are rows of it and
decode, and what follows them is left alone; otherwise it ends at the first line that is no such
row.

* `Decoder.IsRow`: a line of a table, with what it holds.
* `Decoder.StopsAt`: where a table ends too early, with its fault and the lines that are left.
* `Decoder.rowsFrom_append`, `Decoder.rowsFrom_of_stopsAt`: reading rows, and the end of it.
* `Decoder.isRow_or_stopsAt`, `Decoder.exists_rows`: each list of lines begins with a row of the
  table or stops it, so that it is cut behind its first rows.
* `Decoder.run_rows_eq_ok_iff`, `Decoder.run_rows_eq_error_iff`: the two outcomes.
* `Decoder.table_consumes_rows`: a table that there is room for.
-/

namespace InstrumentResponse.Record.Decoder

variable {β : Type} {blockette field found count left : Nat} {what : String}
  {row : Line → Except ReadFault β} {l : Line} {b : β} {ls : List Line} {bs : List β}
  {es rest : List Entry} {fault : ReadFault}

/-! ## Rows -/

/-- A line of a table that decodes, and what it holds. -/
structure IsRow (blockette field : Nat) (row : Line → Except ReadFault β) (l : Line) (b : β) :
    Prop where
  isRecord : l.isRecord blockette field = true
  decodes : row l = .ok b

theorem isRecord_of_mem (h : List.Forall₂ (IsRow blockette field row) ls bs) :
    ∀ l ∈ ls, l.isRecord blockette field = true := by
  induction h with
  | nil => simp
  | cons hRow _ ih => exact List.forall_mem_cons.mpr ⟨hRow.isRecord, ih⟩

/-- A table ends too early, after `found` of its rows: what is next, the fault, and what is left.
The end of the text and another record are left for whatever is read next, while a damaged line and
a line of the table that does not decode are consumed. -/
inductive StopsAt (blockette field : Nat) (what : String) (row : Line → Except ReadFault β)
    (found count : Nat) : List Entry → ReadFault → List Entry → Prop
  | endOfInput : StopsAt blockette field what row found count [] (.truncated what found count) []
  | otherRecord {l : Line} {rest : List Entry} (h : l.isRecord blockette field = false) :
      StopsAt blockette field what row found count (.record l :: rest)
        (.truncated what found count) (.record l :: rest)
  | damagedLine {number : Nat} {text : String} {rest : List Entry} :
      StopsAt blockette field what row found count (.damaged number text :: rest)
        (.line number 0 0 text .malformed) rest
  | badRow {l : Line} {rest : List Entry} {fault : ReadFault}
      (hRecord : l.isRecord blockette field = true) (hRow : row l = .error fault) :
      StopsAt blockette field what row found count (.record l :: rest) fault rest

/-- What is next is a row of the table, or the table ends there. -/
theorem isRow_or_stopsAt (blockette field : Nat) (what : String) (row : Line → Except ReadFault β)
    (es : List Entry) :
    (∃ l b rest, es = .record l :: rest ∧ IsRow blockette field row l b) ∨
      ∀ found total, ∃ fault rest, StopsAt blockette field what row found total es fault rest := by
  cases es with
  | nil => exact Or.inr fun found total => ⟨_, _, .endOfInput⟩
  | cons e rest =>
    cases e with
    | damaged number text => exact Or.inr fun found total => ⟨_, _, .damagedLine⟩
    | record l =>
      cases hRecord : l.isRecord blockette field with
      | false => exact Or.inr fun found total => ⟨_, _, .otherRecord hRecord⟩
      | true =>
        cases hRow : row l with
        | error fault => exact Or.inr fun found total => ⟨_, _, .badRow hRecord hRow⟩
        | ok b => exact Or.inl ⟨l, b, rest, rfl, hRecord, hRow⟩

/-- Some lines are cut behind the rows that they begin with, `count` of them at most. -/
theorem exists_rows (blockette field : Nat) (what : String) (row : Line → Except ReadFault β)
    (count : Nat) (es : List Entry) :
    ∃ ls bs next, es = ls.map .record ++ next ∧
      List.Forall₂ (IsRow blockette field row) ls bs ∧
      (ls.length = count ∨ ls.length < count ∧
        ∀ found total, ∃ fault rest,
          StopsAt blockette field what row found total next fault rest) := by
  induction count generalizing es with
  | zero => exact ⟨[], [], es, rfl, .nil, Or.inl rfl⟩
  | succ count ih =>
    obtain ⟨l, b, rest, rfl, hRow⟩ | hStop := isRow_or_stopsAt blockette field what row es
    · obtain ⟨ls, bs, next, rfl, hRows, hEnd⟩ := ih rest
      refine ⟨l :: ls, b :: bs, next, rfl, .cons hRow hRows, ?_⟩
      simpa using hEnd
    · exact ⟨[], [], es, rfl, .nil, Or.inr ⟨by simp, hStop⟩⟩

/-! ## Reading rows -/

/-- A row is taken, and what follows it is read as the rest of the table. -/
theorem rowsFrom_cons {r : Except ReadFault (List β)} (h : IsRow blockette field row l b)
    (hRest : rowsFrom blockette field what row (found + 1) left es = ⟨[], r, rest⟩) :
    rowsFrom blockette field what row found (left + 1) (.record l :: es) =
      ⟨[], r.map (b :: ·), rest⟩ := by
  rw [rowsFrom, if_pos h.isRecord, h.decodes]
  simp only [hRest]

theorem rowsFrom_of_stopsAt
    (h : StopsAt blockette field what row found (found + (left + 1)) es fault rest) :
    rowsFrom blockette field what row found (left + 1) es = ⟨[], .error fault, rest⟩ := by
  cases h with
  | endOfInput => rw [rowsFrom]
  | otherRecord h => simp [rowsFrom, h]
  | damagedLine => rw [rowsFrom]
  | badRow hRecord hRow => simp [rowsFrom, hRecord, hRow]

/-- All rows that some lines begin with are taken. -/
theorem rowsFrom_append {r : Except ReadFault (List β)}
    (h : List.Forall₂ (IsRow blockette field row) ls bs)
    (hRest : rowsFrom blockette field what row (found + ls.length) left es = ⟨[], r, rest⟩) :
    rowsFrom blockette field what row found (ls.length + left) (ls.map .record ++ es) =
      ⟨[], r.map (bs ++ ·), rest⟩ := by
  -- a fault names the number of rows found, which grows with each row
  induction h generalizing found with
  | nil =>
    rw [List.length_nil, Nat.add_zero] at hRest
    rw [List.length_nil, Nat.zero_add, List.map_nil, List.nil_append, hRest]
    cases r <;> rfl
  | @cons l b ls bs hRow hRows ih =>
    rw [List.length_cons, ← Nat.add_assoc, Nat.add_right_comm] at hRest
    rw [List.length_cons, Nat.add_right_comm, List.map_cons, List.cons_append,
      rowsFrom_cons hRow (ih hRest)]
    cases r <;> rfl

theorem rowsFrom_of_rows (h : List.Forall₂ (IsRow blockette field row) ls bs) (found : Nat)
    (rest : List Entry) : rowsFrom blockette field what row found ls.length
      (ls.map .record ++ rest) = ⟨[], .ok bs, rest⟩ := by
  have hEnd : rowsFrom blockette field what row (found + ls.length) 0 rest = ⟨[], .ok [], rest⟩ := by
    rw [rowsFrom]
  refine (rowsFrom_append h hEnd).trans ?_
  simp [Except.map]

/-- A table that stops behind some rows fails there, whatever rows there were. -/
theorem rowsFrom_of_short (h : List.Forall₂ (IsRow blockette field row) ls bs)
    (hShort : ls.length < count)
    (hStop : StopsAt blockette field what row ls.length count es fault rest) :
    rowsFrom blockette field what row 0 count (ls.map .record ++ es) =
      ⟨[], .error fault, rest⟩ := by
  obtain ⟨left, rfl⟩ : ∃ left, count = ls.length + (left + 1) :=
    ⟨count - ls.length - 1, by omega⟩
  exact rowsFrom_append h (rowsFrom_of_stopsAt (by rwa [Nat.zero_add]))

/-! ## Outcomes -/

/-- A table is read if and only if the next lines are its rows, as many as were declared. -/
theorem run_rows_eq_ok_iff {lines : Nat} :
    ((rows blockette field count what row).run lines es).result = .ok bs ∧
        ((rows blockette field count what row).run lines es).rest = rest ↔
      ∃ ls, es = ls.map .record ++ rest ∧ ls.length = count ∧
        List.Forall₂ (IsRow blockette field row) ls bs := by
  show (rowsFrom blockette field what row 0 count es).result = .ok bs ∧
    (rowsFrom blockette field what row 0 count es).rest = rest ↔ _
  constructor
  · rintro ⟨hResult, hRest⟩
    obtain ⟨ls, taken, next, rfl, hRows, rfl | ⟨hShort, hStop⟩⟩ :=
      exists_rows blockette field what row count es
    · rw [rowsFrom_of_rows hRows] at hResult hRest
      cases hResult
      cases hRest
      exact ⟨ls, rfl, rfl, hRows⟩
    · obtain ⟨fault, rest', hStop⟩ := hStop ls.length count
      rw [rowsFrom_of_short hRows hShort hStop] at hResult
      cases hResult
  · rintro ⟨ls, rfl, rfl, hRows⟩
    rw [rowsFrom_of_rows hRows]
    exact ⟨rfl, rfl⟩

/-- A table fails if and only if it stops behind fewer rows than were declared. -/
theorem run_rows_eq_error_iff {lines : Nat} :
    ((rows blockette field count what row).run lines es).result = .error fault ∧
        ((rows blockette field count what row).run lines es).rest = rest ↔
      ∃ ls bs next, es = ls.map .record ++ next ∧ ls.length < count ∧
        List.Forall₂ (IsRow blockette field row) ls bs ∧
        StopsAt blockette field what row ls.length count next fault rest := by
  show (rowsFrom blockette field what row 0 count es).result = .error fault ∧
    (rowsFrom blockette field what row 0 count es).rest = rest ↔ _
  constructor
  · rintro ⟨hResult, hRest⟩
    obtain ⟨ls, taken, next, rfl, hRows, rfl | ⟨hShort, hStop⟩⟩ :=
      exists_rows blockette field what row count es
    · rw [rowsFrom_of_rows hRows] at hResult
      cases hResult
    · obtain ⟨fault', rest', hStop⟩ := hStop ls.length count
      rw [rowsFrom_of_short hRows hShort hStop] at hResult hRest
      cases hResult
      cases hRest
      exact ⟨ls, taken, next, rfl, hShort, hRows, hStop⟩
  · rintro ⟨ls, bs, next, rfl, hShort, hRows, hStop⟩
    rw [rowsFrom_of_short hRows hShort hStop]
    exact ⟨rfl, rfl⟩

/-- The decoders of a table that there is room for.  Of rows that take none there may be as many as
one likes. -/
inductive HasRoom [Memory] (blockette field count : Nat) (what : String)
    (row : Line → Except ReadFault β) : Decoder (List β) → Prop
  | roomless : HasRoom blockette field count what row (rows blockette field count what row)
  | held (h : Memory.canHold what count = true) :
      HasRoom blockette field count what row (table blockette field count what row)

theorem HasRoom.eq_rows [Memory] {d : Decoder (List β)}
    (h : HasRoom blockette field count what row d) : d = rows blockette field count what row := by
  cases h with
  | roomless => rfl
  | held h => rw [table, if_pos h]

/-- **A table takes just its rows.**  A table that there is room for is read if and only if the next
lines, as many as were declared, all belong to it and decode, and then it holds what they decode to
and leaves what follows them.  Otherwise it stops at the first line that is no such row.  In
particular, where the lines run out behind fewer rows than were declared, it is reported as
truncated; another record that stands there is not swallowed but is the next line to be read. -/
theorem table_consumes_rows [Memory] {d : Decoder (List β)}
    (hRoom : HasRoom blockette field count what row d)
    (lines : Nat) (es : List Entry) :
    (∀ bs rest, (d.run lines es).result = .ok bs ∧ (d.run lines es).rest = rest ↔
      ∃ ls, es = ls.map .record ++ rest ∧ ls.length = count ∧
        List.Forall₂ (IsRow blockette field row) ls bs) ∧
    (∀ fault rest, (d.run lines es).result = .error fault ∧ (d.run lines es).rest = rest ↔
      ∃ ls bs next, es = ls.map .record ++ next ∧ ls.length < count ∧
        List.Forall₂ (IsRow blockette field row) ls bs ∧
        StopsAt blockette field what row ls.length count next fault rest) ∧
    (∀ ls bs, es = ls.map .record → ls.length < count →
      List.Forall₂ (IsRow blockette field row) ls bs →
        (d.run lines es).result = .error (.truncated what ls.length count) ∧
          (d.run lines es).rest = []) ∧
    ∀ ls bs other after, es = ls.map .record ++ .record other :: after → ls.length < count →
      List.Forall₂ (IsRow blockette field row) ls bs → other.isRecord blockette field = false →
        (d.run lines es).result = .error (.truncated what ls.length count) ∧
          (d.run lines es).rest = .record other :: after ∧
          (peek.run lines (d.run lines es).rest).result = .ok (some other) := by
  obtain rfl := hRoom.eq_rows
  refine ⟨fun bs rest => run_rows_eq_ok_iff, fun fault rest => run_rows_eq_error_iff, ?_, ?_⟩
  · intro ls bs hLines hShort hRows
    rw [← List.append_nil (ls.map _)] at hLines
    exact run_rows_eq_error_iff.mpr ⟨ls, bs, [], hLines, hShort, hRows, .endOfInput⟩
  · intro ls bs other after hLines hShort hRows hOther
    have hStop : StopsAt blockette field what row ls.length count (.record other :: after) _ _ :=
      .otherRecord hOther
    obtain ⟨hResult, hRest⟩ :=
      run_rows_eq_error_iff.mpr ⟨ls, bs, _, hLines, hShort, hRows, hStop⟩
    exact ⟨hResult, hRest, by rw [hRest]; rfl⟩

/-- Two coefficients, and the header of another channel behind them. -/
def twoTaps : String := "B061F09 0 0.5\nB061F09 1 0.5\nB050F03 Station: X\n"

/-- If there should be three of them the header is left all the same. -/
theorem table_consumes_rows_twoTaps :
    ∃ first second header : Line,
      entries twoTaps = [.record first, .record second, .record header] ∧
      header.isHeader = true ∧
      HasRoom 61 9 2 "FIR coefficients" Line.indexedValue
        (table 61 9 2 "FIR coefficients" Line.indexedValue) ∧
      HasRoom 61 9 3 "FIR coefficients" Line.indexedValue
        (table 61 9 3 "FIR coefficients" Line.indexedValue) ∧
      ((table 61 9 2 "FIR coefficients" Line.indexedValue).run 3 (entries twoTaps)).result =
        .ok [0.5, 0.5] ∧
      ((table 61 9 3 "FIR coefficients" Line.indexedValue).run 3 (entries twoTaps)).result =
        .error (.truncated "FIR coefficients" 2 3) ∧
      ((table 61 9 3 "FIR coefficients" Line.indexedValue).run 3 (entries twoTaps)).rest =
        [.record header] := by
  have hLines : entries twoTaps = [
      .record ⟨1, "B061F09 0 0.5", 61, 9, none, " 0 0.5"⟩,
      .record ⟨2, "B061F09 1 0.5", 61, 9, none, " 1 0.5"⟩,
      .record ⟨3, "B050F03 Station: X", 50, 3, none, " Station: X"⟩] := by decide +kernel
  have hRows : List.Forall₂ (IsRow 61 9 Line.indexedValue)
      [⟨1, "B061F09 0 0.5", 61, 9, none, " 0 0.5"⟩, ⟨2, "B061F09 1 0.5", 61, 9, none, " 1 0.5"⟩]
      [0.5, 0.5] :=
    .cons ⟨rfl, by decide +kernel⟩ (.cons ⟨rfl, by decide +kernel⟩ .nil)
  have hTwo : HasRoom 61 9 2 "FIR coefficients" Line.indexedValue _ := .held (by decide)
  have hThree : HasRoom 61 9 3 "FIR coefficients" Line.indexedValue _ := .held (by decide)
  obtain ⟨hRead, -, -, -⟩ := table_consumes_rows hTwo 3 (entries twoTaps)
  obtain ⟨-, -, -, hShort⟩ := table_consumes_rows hThree 3 (entries twoTaps)
  obtain ⟨hResult, hRest, -⟩ := hShort [_, _] _ _ _ hLines (by decide) hRows rfl
  exact ⟨_, _, _, hLines, rfl, hTwo, hThree, ((hRead _ _).mpr ⟨[_, _], hLines, rfl, hRows⟩).1, hResult,
    hRest⟩

end InstrumentResponse.Record.Decoder
