import InstrumentResponse.FileSearch
import InstrumentResponse.Proofs.CommandLine.Sinks
import InstrumentResponse.Proofs.Text.Pieces

/-!
# Names of files

Channels whose codes hold no points are told by the names of their files, both of those that they
are read from and of those that their responses are written to.

* `ChannelId.IsPlain`: a channel whose codes hold no points.
* `ChannelId.ofFileName?_eq_some_iff`: the names that a channel has as a file of records, with an
  empty location or without one.
* `Response.pieces_fileName`, `Response.fileName_inj`: the format and the codes in the name of the
  file of a response.
* `CommandLine.lookup_writeFiles`, `CommandLine.lookup_foldl_writeFiles`: what one response and
  many of them leave of the files of another channel.
* `fileNames_identify`: the names of files tell channels.
-/

namespace InstrumentResponse

namespace ChannelId

variable {id : ChannelId} {name : String}

def codes (id : ChannelId) : List String := [id.network, id.station, id.location, id.channel]

/-- No code of the channel holds a point. -/
def IsPlain (id : ChannelId) : Prop := ∀ code ∈ id.codes, '.' ∉ code.toList

instance (id : ChannelId) : Decidable id.IsPlain :=
  inferInstanceAs (Decidable (∀ code ∈ id.codes, '.' ∉ code.toList))

/-- The codes of a channel but its location, with points between them. -/
def shortText (id : ChannelId) : String := id.network ++ "." ++ id.station ++ "." ++ id.channel

theorem codes_injective : Function.Injective codes := by
  rintro ⟨network, station, location, channel⟩ other h
  simp only [codes, List.cons.injEq] at h
  obtain ⟨rfl, rfl, rfl, rfl, -⟩ := h
  rfl

theorem intercalate_codes (first : String) (id : ChannelId) :
    (String.singleton '.').intercalate (first :: id.codes) = first ++ "." ++ id.text := by
  apply String.toList_injective
  simp [codes, text]

theorem intercalate_shortCodes (first : String) (id : ChannelId) :
    (String.singleton '.').intercalate [first, id.network, id.station, id.channel] =
      first ++ "." ++ id.shortText := by
  apply String.toList_injective
  simp [shortText]

/-- A name is cut into a word without points and the codes of a channel. -/
theorem pieces_eq_cons_codes_iff {first : String} (hFirst : '.' ∉ first.toList) :
    Text.pieces '.' name = first :: id.codes ↔ id.IsPlain ∧ name = first ++ "." ++ id.text := by
  rw [Text.pieces_eq_iff (List.cons_ne_nil _ _), intercalate_codes, List.forall_mem_cons,
    and_iff_right hFirst, IsPlain]

/-- A file of records is named after a channel with all of its codes, or without its location if
this is empty. -/
theorem ofFileName?_eq_some_iff_pieces : ofFileName? name = some id ↔
    Text.pieces '.' name = "RESP" :: id.codes ∨
      id.location = "" ∧ Text.pieces '.' name = ["RESP", id.network, id.station, id.channel] := by
  rcases id with ⟨network, station, location, channel⟩
  rw [ofFileName?]
  split
  · next hFull => simp [hFull, codes]
  · next hShort =>
    simp only [hShort, codes, Option.some.injEq, mk.injEq]
    grind
  · next hFull hShort =>
    simp only [codes, reduceCtorEq, false_iff, not_or, not_and]
    exact ⟨hFull _ _ _ _, fun _ => hShort _ _ _⟩

/-- The names of the file of records of a channel. -/
theorem ofFileName?_eq_some_iff : ofFileName? name = some id ↔ id.IsPlain ∧
    (name = "RESP." ++ id.text ∨ id.location = "" ∧ name = "RESP." ++ id.shortText) := by
  have hFirst : '.' ∉ "RESP".toList := by decide
  -- an empty location holds no point, so the other codes settle the matter
  have hShort : id.location = "" → ((∀ code ∈ ["RESP", id.network, id.station, id.channel],
      '.' ∉ code.toList) ↔ id.IsPlain) := by
    intro hNone
    simp [IsPlain, codes, hNone]
  rw [ofFileName?_eq_some_iff_pieces, pieces_eq_cons_codes_iff hFirst,
    Text.pieces_eq_iff (List.cons_ne_nil _ _), intercalate_shortCodes, and_or_left]
  refine or_congr_right ?_
  constructor
  · rintro ⟨hNone, hFree, rfl⟩
    exact ⟨(hShort hNone).mp hFree, hNone, rfl⟩
  · rintro ⟨hPlain, hNone, rfl⟩
    exact ⟨hNone, (hShort hNone).mpr hPlain, rfl⟩

end ChannelId

/-! ## Responses -/

theorem OutputFormat.fileCode_injective : Function.Injective OutputFormat.fileCode := by
  intro format other
  cases format <;> cases other <;> decide

namespace Response

variable {α : Type} {r s : Response α} {format other : OutputFormat}

/-- The name of the file of a response is cut into its format and the codes of its channel. -/
theorem pieces_fileName (h : r.id.IsPlain) (format : OutputFormat) :
    Text.pieces '.' (r.fileName format) = format.fileCode :: r.id.codes := by
  refine (ChannelId.pieces_eq_cons_codes_iff ?_).mpr ⟨h, rfl⟩
  cases format <;> decide

/-- Files have one name only if they hold the response of one channel in one format. -/
theorem fileName_inj (hr : r.id.IsPlain) (hs : s.id.IsPlain) :
    r.fileName format = s.fileName other ↔ format = other ∧ r.id = s.id := by
  constructor
  · intro h
    have hParts := congrArg (Text.pieces '.') h
    rw [pieces_fileName hr, pieces_fileName hs, List.cons.injEq] at hParts
    exact ⟨OutputFormat.fileCode_injective hParts.1, ChannelId.codes_injective hParts.2⟩
  · rintro ⟨rfl, hId⟩
    rw [fileName, fileName, hId]

end Response

namespace CommandLine

variable {r s : Response Float}

/-- A response leaves the files of another channel as they are. -/
theorem lookup_writeFiles (hr : r.id.IsPlain) (hs : s.id.IsPlain) (hOther : r.id ≠ s.id)
    (type : ResponseType) (unwrap : Bool) (files : List (String × String)) (format : OutputFormat) :
    (writeFiles type unwrap files s).lookup (r.fileName format) =
      files.lookup (r.fileName format) := by
  have hNone : (tables type unwrap s).filter (·.1 == r.fileName format) = [] := by
    rw [List.filter_eq_nil_iff]
    intro file hFile hName
    obtain ⟨other, -, rfl⟩ := List.mem_map.mp hFile
    exact hOther ((Response.fileName_inj hs hr).mp (beq_iff_eq.mp hName)).2.symm
  have hWritten := foldl_writeFiles type unwrap files [s]
  rw [List.foldl_cons, List.foldl_nil, List.flatMap_singleton] at hWritten
  rw [hWritten, lookup_foldl_put, hNone]
  rfl

/-- However many responses are written, they leave the files of a channel that none of them is of. -/
theorem lookup_foldl_writeFiles {rs : List (Response Float)} (hr : r.id.IsPlain)
    (hOthers : ∀ s ∈ rs, s.id.IsPlain ∧ r.id ≠ s.id) (type : ResponseType) (unwrap : Bool)
    (files : List (String × String)) (format : OutputFormat) :
    (rs.foldl (writeFiles type unwrap) files).lookup (r.fileName format) =
      files.lookup (r.fileName format) := by
  induction rs generalizing files with
  | nil => rfl
  | cons s rs ih =>
    obtain ⟨hs, hOther⟩ := hOthers s List.mem_cons_self
    rw [List.foldl_cons, ih fun t ht => hOthers t (List.mem_cons_of_mem _ ht),
      lookup_writeFiles hr hs hOther]

end CommandLine

/-! ## Channels by their files -/

/-- **Names of files tell channels** whose codes hold no points.  Such a channel is read from the
name that is made of all of its codes; a name that is read is this one, or the one that leaves out
an empty location and the point behind it.  Two responses that differ in format or channel have
files of different names, so that whatever is written of other channels touches no file of a
channel. -/
theorem fileNames_identify :
    (∀ id : ChannelId, id.IsPlain → ChannelId.ofFileName? ("RESP." ++ id.text) = some id) ∧
    (∀ name id, ChannelId.ofFileName? name = some id → id.IsPlain ∧
      (name = "RESP." ++ id.text ∨ id.location = "" ∧ name = "RESP." ++ id.shortText)) ∧
    (∀ (r s : Response Float) (format other : OutputFormat), r.id.IsPlain → s.id.IsPlain →
      (format, r.id) ≠ (other, s.id) → r.fileName format ≠ s.fileName other) ∧
    ∀ (r : Response Float) (others : List (Response Float)), r.id.IsPlain →
      (∀ s ∈ others, s.id.IsPlain ∧ r.id ≠ s.id) → ∀ type unwrap files format,
        (others.foldl (CommandLine.writeFiles type unwrap) files).lookup (r.fileName format) =
          files.lookup (r.fileName format) := by
  refine ⟨?_, ?_, ?_, ?_⟩
  · intro id hPlain
    exact ChannelId.ofFileName?_eq_some_iff.mpr ⟨hPlain, Or.inl rfl⟩
  · intro name id hName
    exact ChannelId.ofFileName?_eq_some_iff.mp hName
  · intro r s format other hr hs hDiffer hName
    obtain ⟨hFormat, hId⟩ := (Response.fileName_inj hr hs).mp hName
    exact hDiffer (by rw [hFormat, hId])
  · intro r others hr hOthers
    exact CommandLine.lookup_foldl_writeFiles hr hOthers

/-- Two channels of one station that differ in their locations, of which one is empty. -/
def blankLocation : ChannelId := ⟨"IU", "ANMO", "", "BHZ"⟩

def numberedLocation : ChannelId := ⟨"IU", "ANMO", "00", "BHZ"⟩

theorem fileNames_identify_locations :
    blankLocation.IsPlain ∧ numberedLocation.IsPlain ∧ blankLocation ≠ numberedLocation ∧
    ChannelId.ofFileName? "RESP.IU.ANMO..BHZ" = some blankLocation ∧
    ChannelId.ofFileName? "RESP.IU.ANMO.BHZ" = some blankLocation ∧
    ("RESP.IU.ANMO.BHZ" = "RESP." ++ blankLocation.text ∨ blankLocation.location = "" ∧
      "RESP.IU.ANMO.BHZ" = "RESP." ++ blankLocation.shortText) ∧
    "AMP.IU.ANMO..BHZ" ≠ "AMP.IU.ANMO.00.BHZ" ∧
    ([⟨numberedLocation, [], []⟩].foldl (CommandLine.writeFiles .separate false)
      [("AMP.IU.ANMO..BHZ", "written before")]).lookup "AMP.IU.ANMO..BHZ" =
        some "written before" := by
  have hBlank : blankLocation.IsPlain := by decide
  have hNumbered : numberedLocation.IsPlain := by decide
  have hDiffer : blankLocation ≠ numberedLocation := by decide
  have hShort : ChannelId.ofFileName? "RESP.IU.ANMO.BHZ" = some blankLocation := by decide +kernel
  obtain ⟨hRead, hNamed, hNames, hWritten⟩ := fileNames_identify
  refine ⟨hBlank, hNumbered, hDiffer, hRead _ hBlank, hShort, (hNamed _ _ hShort).2, ?_, ?_⟩
  · exact hNames ⟨blankLocation, [], []⟩ ⟨numberedLocation, [], []⟩ .amplitude .amplitude hBlank
      hNumbered (by decide)
  · exact hWritten ⟨blankLocation, [], []⟩ [⟨numberedLocation, [], []⟩] hBlank
      (List.forall_mem_singleton.mpr ⟨hNumbered, hDiffer⟩) .separate false
      [("AMP.IU.ANMO..BHZ", "written before")] .amplitude

end InstrumentResponse
