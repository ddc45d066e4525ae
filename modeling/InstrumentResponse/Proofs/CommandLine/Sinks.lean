import Mathlib.Data.List.Nodup
import InstrumentResponse.CommandLine.Run
import InstrumentResponse.Proofs.Outcomes
import InstrumentResponse.Proofs.Record.Selecting

/-!
# Where responses go

A run turns each selected channel of its inputs into a response or a fault, and passes them to a
sink one after the other.  A fault leaves no trace in the sink.

* `results plan inputs`: what comes of the channels of some inputs, each text by itself;
  `map_result_evaluateInputs`: a run has just these.
* `collect_eq`: a sink takes the responses in order, and all channels are counted (`tallyOf`).
* `sectionOf`: the lines of a section; `banner_eq_sectionOf`: they are what is written.
* `toStream_eq`: a stream is the `sections` of the responses.  `toStream_append`: **the streams of
  two runs below one another are the stream of both**.
* `lookup_foldl_put`: a file holds what was last written to it.
* `format_unique`: files of two formats have two names, so only a table of the same format replaces
  another (`filter_tables_of`).
* `lookup_toDirectory_iff`: a file of a directory holds the table of the last response of its
  name.
* `sinks_hold_responses`: both sinks at once, of any plan.
-/

namespace InstrumentResponse.CommandLine

/-! ## Results of a run -/

/-- What comes of the selected channels of some inputs, each text evaluated by itself. -/
def results [Record.Memory] (plan : Plan) (inputs : List Input) :
    List (Except (Fault Float) (Response Float)) :=
  inputs.flatMap fun input =>
    (evaluateAll plan.selection plan.options plan.frequencies input.text).map (·.result)

/-- The responses among some results, in order. -/
def responses (rs : List (Except (Fault Float) (Response Float))) : List (Response Float) :=
  rs.filterMap (·.toOption)

/-- The faults among some results, in order. -/
def faults (rs : List (Except (Fault Float) (Response Float))) : List (Fault Float) :=
  rs.filterMap faultOf?

theorem responses_append (rs more : List (Except (Fault Float) (Response Float))) :
    responses (rs ++ more) = responses rs ++ responses more := List.filterMap_append

theorem faults_append (rs more : List (Except (Fault Float) (Response Float))) :
    faults (rs ++ more) = faults rs ++ faults more := List.filterMap_append

theorem result_outcome (plan : Plan) (verbose : Bool) (origin : String) (item : Record.Item) :
    (outcome plan verbose origin item).result =
      (withFailure item (evaluateItem plan.options plan.frequencies item)).result := by
  rw [result_withFailure, outcome, evaluateItem]
  rcases item with ⟨notes, fault | c⟩
  · rfl
  · rfl

/-- A run evaluates an input as a library call evaluates its text. -/
theorem map_result_evaluateInput [Record.Memory] (plan : Plan) (verbose : Bool) (input : Input) :
    (evaluateInput plan verbose input).map (·.result) =
      (evaluateAll plan.selection plan.options plan.frequencies input.text).map (·.result) := by
  rw [evaluateInput, evaluateAll, List.map_map, List.map_map]
  exact List.map_congr_left fun item _ => result_outcome plan verbose input.origin item

theorem map_result_evaluateInputs [Record.Memory] (plan : Plan) (verbose : Bool)
    (inputs : List Input) :
    (evaluateInputs plan verbose inputs).map (·.result) = results plan inputs := by
  rw [evaluateInputs, List.map_flatMap, results]
  simp only [map_result_evaluateInput]

/-! ## Sinks -/

section Sinks

variable {σ : Type} {write : σ → Response Float → σ}

/-- A response goes to the sink, a fault does not, and both are counted. -/
theorem foldl_add (outcomes : List Outcome) (sink : σ) (tally : Tally) :
    outcomes.foldl (Progress.add write) (Progress.mk sink tally) =
      Progress.mk ((responses (outcomes.map (·.result))).foldl write sink)
        ⟨tally.responses + (responses (outcomes.map (·.result))).length,
          tally.failures + (faults (outcomes.map (·.result))).length⟩ := by
  induction outcomes generalizing sink tally with
  | nil => rfl
  | cons o outcomes ih =>
    rcases o with ⟨notes, fault | r⟩
    · show outcomes.foldl (Progress.add write)
        (Progress.mk sink ⟨tally.responses, tally.failures + 1⟩) = _
      rw [ih, Nat.add_right_comm]
      rfl
    · show outcomes.foldl (Progress.add write)
        (Progress.mk (write sink r) ⟨tally.responses + 1, tally.failures⟩) = _
      rw [ih, Nat.add_right_comm]
      rfl

/-- The numbers of responses and of faults. -/
def tallyOf (rs : List (Except (Fault Float) (Response Float))) : Tally :=
  ⟨(responses rs).length, (faults rs).length⟩

theorem tallyOf_append (rs more : List (Except (Fault Float) (Response Float))) :
    tallyOf (rs ++ more) = ⟨(tallyOf rs).responses + (tallyOf more).responses,
      (tallyOf rs).failures + (tallyOf more).failures⟩ := by
  rw [tallyOf, responses_append, faults_append, List.length_append, List.length_append]
  rfl

theorem collect_eq (empty : σ) (outcomes : List Outcome) :
    collect write empty outcomes =
      Progress.mk ((responses (outcomes.map (·.result))).foldl write empty)
        (tallyOf (outcomes.map (·.result))) := by
  rw [collect, foldl_add, Nat.zero_add, Nat.zero_add]
  rfl

end Sinks

/-! ## Streams -/

/-- A rule is a blank and fifty dashes. -/
def rule : String := String.ofList (' ' :: List.replicate 50 '-')

/-- The section of a response in one format: a line with a rule, one with a blank and the name of
the file, a rule, the table, and a rule. -/
def sectionOf (r : Response Float) (unwrap : Bool) (format : OutputFormat) : String :=
  rule ++ "\n" ++ " " ++ r.fileName format ++ "\n" ++ rule ++ "\n" ++ r.render format unwrap ++
    rule ++ "\n"

theorem banner_eq_sectionOf (r : Response Float) (unwrap : Bool) (format : OutputFormat) :
    banner r unwrap format = sectionOf r unwrap format := by
  have hRuler : ruler = rule ++ "\n" := by decide +kernel
  rw [banner, sectionOf, hRuler]
  simp only [String.append_assoc]

/-- The sections of some responses below one another, one for each format. -/
def sections (type : ResponseType) (unwrap : Bool) (rs : List (Response Float)) : String :=
  String.join (rs.flatMap fun r => type.formats.map (sectionOf r unwrap))

theorem sections_append (type : ResponseType) (unwrap : Bool) (rs more : List (Response Float)) :
    sections type unwrap (rs ++ more) = sections type unwrap rs ++ sections type unwrap more := by
  rw [sections, List.flatMap_append, String.join_append]
  rfl

/-- The sections that are written for one response. -/
theorem writeStream_eq (type : ResponseType) (unwrap : Bool) (stream : String)
    (r : Response Float) : writeStream type unwrap stream r =
      stream ++ String.join (type.formats.map (sectionOf r unwrap)) := by
  have hBanner : banner r unwrap = sectionOf r unwrap := funext (banner_eq_sectionOf r unwrap)
  rw [writeStream, hBanner]

theorem foldl_writeStream (type : ResponseType) (unwrap : Bool) (stream : String)
    (rs : List (Response Float)) :
    rs.foldl (writeStream type unwrap) stream = stream ++ sections type unwrap rs := by
  induction rs generalizing stream with
  | nil => exact String.append_empty.symm
  | cons r rs ih =>
    rw [List.foldl_cons, ih, writeStream_eq, sections, sections, List.flatMap_cons,
      String.join_append, String.append_assoc]

/-- A stream is the sections of the responses. -/
theorem toStream_eq (type : ResponseType) (unwrap : Bool) (outcomes : List Outcome) :
    toStream type unwrap outcomes =
      Progress.mk (sections type unwrap (responses (outcomes.map (·.result))))
        (tallyOf (outcomes.map (·.result))) := by
  rw [toStream, collect_eq, foldl_writeStream, String.empty_append]

/-- **The streams of two runs below one another are the stream of both**, and their numbers add
up. -/
theorem toStream_append (type : ResponseType) (unwrap : Bool) (outcomes more : List Outcome) :
    toStream type unwrap (outcomes ++ more) =
      Progress.mk ((toStream type unwrap outcomes).sink ++ (toStream type unwrap more).sink)
        ⟨(toStream type unwrap outcomes).tally.responses +
            (toStream type unwrap more).tally.responses,
          (toStream type unwrap outcomes).tally.failures +
            (toStream type unwrap more).tally.failures⟩ := by
  rw [toStream_eq, toStream_eq, toStream_eq, List.map_append, responses_append, sections_append,
    tallyOf_append]

/-! ## Files -/

/-- What is written of a response: a file for each format. -/
def tables (type : ResponseType) (unwrap : Bool) (r : Response Float) : List (String × String) :=
  type.formats.map fun format => (r.fileName format, r.render format unwrap)

/-- Some files after one more is written. -/
def put (files : List (String × String)) (file : String × String) : List (String × String) :=
  putFile file.1 file.2 files

theorem foldl_writeFiles (type : ResponseType) (unwrap : Bool) (files : List (String × String))
    (rs : List (Response Float)) :
    rs.foldl (writeFiles type unwrap) files =
      (rs.flatMap (tables type unwrap)).foldl put files := by
  rw [List.foldl_flatMap]
  refine congrArg (fun step => rs.foldl step files) (funext fun files => funext fun r => ?_)
  rw [tables, List.foldl_map]
  rfl

theorem lookup_cons_eq_ite (name text other : String) (files : List (String × String)) :
    ((name, text) :: files).lookup other =
      if other = name then some text else files.lookup other := by
  rw [List.lookup_cons]
  by_cases h : other = name
  · rw [if_pos h, beq_iff_eq.mpr h]
  · rw [if_neg h, beq_eq_false_iff_ne.mpr h]

theorem lookup_putFile (name text other : String) (files : List (String × String)) :
    (putFile name text files).lookup other =
      if other = name then some text else files.lookup other := by
  induction files with
  | nil => exact lookup_cons_eq_ite name text other []
  | cons file files ih =>
    rcases file with ⟨old, before⟩
    rw [putFile]
    by_cases hSame : old = name
    · rw [if_pos hSame, lookup_cons_eq_ite, lookup_cons_eq_ite, hSame]
      by_cases h : other = name
      · rw [if_pos h, if_pos h]
      · rw [if_neg h, if_neg h, if_neg h]
    · rw [if_neg hSame, lookup_cons_eq_ite, lookup_cons_eq_ite, ih]
      by_cases h : other = old
      · rw [if_pos h, if_pos h, if_neg (h ▸ hSame)]
      · rw [if_neg h, if_neg h]

/-- A file holds what was last written to it. -/
theorem lookup_foldl_put (written files : List (String × String)) (name : String) :
    (written.foldl put files).lookup name =
      ((written.filter (·.1 == name)).getLast?.map (·.2)).or (files.lookup name) := by
  induction written generalizing files with
  | nil => rfl
  | cons file written ih =>
    rw [List.foldl_cons, ih, put, lookup_putFile, List.filter_cons]
    by_cases h : file.1 = name
    · rw [if_pos h.symm, if_pos (beq_iff_eq.mpr h), List.getLast?_cons]
      cases (written.filter (·.1 == name)).getLast? <;> rfl
    · rw [if_neg (Ne.symm h), if_neg (by rwa [beq_iff_eq])]

theorem names_putFile (name text : String) (files : List (String × String)) :
    (putFile name text files).map (·.1) =
      if name ∈ files.map (·.1) then files.map (·.1) else files.map (·.1) ++ [name] := by
  induction files with
  | nil => rfl
  | cons file files ih =>
    rcases file with ⟨old, before⟩
    rw [putFile, List.map_cons]
    by_cases hSame : old = name
    · rw [if_pos hSame, if_pos (hSame ▸ List.mem_cons_self), List.map_cons, hSame]
    · rw [if_neg hSame, List.map_cons, ih]
      by_cases h : name ∈ files.map (·.1)
      · rw [if_pos h, if_pos (List.mem_cons_of_mem _ h)]
      · rw [if_neg h, if_neg (not_or.mpr ⟨Ne.symm hSame, h⟩ ∘ List.mem_cons.mp)]
        rfl

/-- No name stands for two files. -/
theorem nodup_foldl_put (written : List (String × String)) {files : List (String × String)}
    (h : (files.map (·.1)).Nodup) : ((written.foldl put files).map (·.1)).Nodup := by
  induction written generalizing files with
  | nil => exact h
  | cons file written ih =>
    refine ih ?_
    rw [put, names_putFile]
    split
    · exact h
    · next hNew =>
      refine List.nodup_append.mpr ⟨h, List.nodup_singleton _, ?_⟩
      intro other hOld name hLast hSame
      rw [hSame, List.mem_singleton.mp hLast] at hOld
      exact hNew hOld

/-! ## Directories -/

/-- The first letter of the name of a file tells its format. -/
theorem head?_fileName (r : Response Float) (format : OutputFormat) :
    (r.fileName format).toList.head? = format.fileCode.toList.head? := by
  rw [Response.fileName, String.toList_append, String.toList_append, List.append_assoc,
    List.head?_append]
  cases format <;> rfl

theorem format_unique {r s : Response Float} {format other : OutputFormat}
    (h : r.fileName format = s.fileName other) : format = other := by
  have hFirst := congrArg (·.toList.head?) h
  rw [head?_fileName, head?_fileName] at hFirst
  revert hFirst
  cases format <;> cases other <;> decide

theorem filter_formats {type : ResponseType} {format : OutputFormat} (h : format ∈ type.formats) :
    type.formats.filter (· == format) = [format] := by
  revert h
  cases type <;> cases format <;> decide

/-- A response writes to a file of some format its table in this format, and no other one. -/
theorem filter_tables_of {type : ResponseType} (unwrap : Bool) {format : OutputFormat}
    (hFormat : format ∈ type.formats) (named r : Response Float) :
    (tables type unwrap r).filter (·.1 == named.fileName format) =
      if r.fileName format == named.fileName format then
        [(named.fileName format, r.render format unwrap)] else [] := by
  rw [tables, List.filter_map]
  by_cases hName : r.fileName format = named.fileName format
  · have hSame : ∀ other ∈ type.formats,
        ((·.1 == named.fileName format) ∘ fun f => (r.fileName f, r.render f unwrap)) other =
          (other == format) := by
      intro other _
      rw [Function.comp_apply, Bool.eq_iff_iff, beq_iff_eq, beq_iff_eq]
      exact ⟨format_unique, fun h => h ▸ hName⟩
    rw [List.filter_congr hSame, filter_formats hFormat, if_pos (beq_iff_eq.mpr hName),
      List.map_singleton, hName]
  · have hNone : ∀ other ∈ type.formats,
        ¬ ((·.1 == named.fileName format) ∘ fun f => (r.fileName f, r.render f unwrap)) other =
          true := by
      intro other _
      rw [Function.comp_apply, beq_iff_eq]
      exact fun h => hName (format_unique h ▸ h)
    rw [List.filter_eq_nil_iff.mpr hNone, if_neg (by rwa [beq_iff_eq])]
    rfl

/-- What is written to the file of a response in a format: the tables of the responses of this
name in just this format. -/
theorem filter_tables {type : ResponseType} (unwrap : Bool) {format : OutputFormat}
    (hFormat : format ∈ type.formats) (named : Response Float) (rs : List (Response Float)) :
    (rs.flatMap (tables type unwrap)).filter (·.1 == named.fileName format) =
      (rs.filter (·.fileName format == named.fileName format)).map fun r =>
        (named.fileName format, r.render format unwrap) := by
  induction rs with
  | nil => rfl
  | cons r rs ih =>
    rw [List.flatMap_cons, List.filter_append, ih, filter_tables_of unwrap hFormat,
      List.filter_cons]
    split
    · rfl
    · rfl

/-- The files of some responses: each holds the table of the last response of its name. -/
theorem lookup_files_iff (type : ResponseType) (unwrap : Bool) (rs : List (Response Float))
    (name text : String) :
    ((rs.flatMap (tables type unwrap)).foldl put []).lookup name = some text ↔
      ∃ format ∈ type.formats, ∃ last,
        (rs.filter (·.fileName format == name)).getLast? = some last ∧
          text = last.render format unwrap := by
  rw [lookup_foldl_put, List.lookup_nil, Option.or_none]
  constructor
  · intro h
    obtain ⟨file, hLast, rfl⟩ := Option.map_eq_some_iff.mp h
    obtain ⟨hMem, hName⟩ := List.mem_filter.mp (List.mem_of_getLast? hLast)
    obtain ⟨r, -, hTable⟩ := List.mem_flatMap.mp hMem
    obtain ⟨format, hFormat, rfl⟩ := List.mem_map.mp hTable
    rw [beq_iff_eq] at hName
    rw [← hName, filter_tables unwrap hFormat, List.getLast?_map] at hLast
    obtain ⟨last, hLast, hTable⟩ := Option.map_eq_some_iff.mp hLast
    refine ⟨format, hFormat, last, hName ▸ hLast, ?_⟩
    exact (Prod.ext_iff.mp hTable).2.symm
  · rintro ⟨format, hFormat, last, hLast, rfl⟩
    have hName : last.fileName format = name :=
      beq_iff_eq.mp (List.mem_filter.mp (List.mem_of_getLast? hLast)).2
    rw [← hName] at hLast ⊢
    rw [filter_tables unwrap hFormat, List.getLast?_map, hLast]
    rfl

/-- A directory holds the files of the responses. -/
theorem toDirectory_eq (type : ResponseType) (unwrap : Bool) (outcomes : List Outcome) :
    toDirectory type unwrap outcomes =
      Progress.mk
        (((responses (outcomes.map (·.result))).flatMap (tables type unwrap)).foldl put [])
        (tallyOf (outcomes.map (·.result))) := by
  rw [toDirectory, collect_eq, foldl_writeFiles]

/-- A file of a directory holds the table of the last response of its name. -/
theorem lookup_toDirectory_iff (type : ResponseType) (unwrap : Bool) (outcomes : List Outcome)
    (name text : String) :
    (toDirectory type unwrap outcomes).sink.lookup name = some text ↔
      ∃ format ∈ type.formats, ∃ last,
        ((responses (outcomes.map (·.result))).filter (·.fileName format == name)).getLast? =
            some last ∧
          text = last.render format unwrap := by
  rw [toDirectory_eq]
  exact lookup_files_iff type unwrap _ name text

theorem nodup_toDirectory (type : ResponseType) (unwrap : Bool) (outcomes : List Outcome) :
    ((toDirectory type unwrap outcomes).sink.map (·.1)).Nodup := by
  rw [toDirectory_eq]
  exact nodup_foldl_put _ List.nodup_nil

/-! ## The theorem -/

/-- **Faults and tables stay with their channel**: a run evaluates an input as a library call
evaluates its text; a stream holds the sections of the responses, input by input, and counts
responses and faults, so two runs below one another make one; a directory counts the same, and each
of its files holds the table of the last response of its name. -/
theorem sinks_hold_responses [Record.Memory] (plan : Plan) (verbose unwrap : Bool)
    (type : ResponseType) (inputs : List Input) :
    (∀ input, (evaluateInput plan verbose input).map (·.result) =
      (evaluateAll plan.selection plan.options plan.frequencies input.text).map (·.result)) ∧
    toStream type unwrap (evaluateInputs plan verbose inputs) =
      Progress.mk (sections type unwrap (responses (results plan inputs)))
        (tallyOf (results plan inputs)) ∧
    (∀ more, toStream type unwrap (evaluateInputs plan verbose (inputs ++ more)) =
      Progress.mk
        ((toStream type unwrap (evaluateInputs plan verbose inputs)).sink ++
          (toStream type unwrap (evaluateInputs plan verbose more)).sink)
        ⟨(toStream type unwrap (evaluateInputs plan verbose inputs)).tally.responses +
            (toStream type unwrap (evaluateInputs plan verbose more)).tally.responses,
          (toStream type unwrap (evaluateInputs plan verbose inputs)).tally.failures +
            (toStream type unwrap (evaluateInputs plan verbose more)).tally.failures⟩) ∧
    (toDirectory type unwrap (evaluateInputs plan verbose inputs)).tally =
      tallyOf (results plan inputs) ∧
    ((toDirectory type unwrap (evaluateInputs plan verbose inputs)).sink.map (·.1)).Nodup ∧
    ∀ name text,
      (toDirectory type unwrap (evaluateInputs plan verbose inputs)).sink.lookup name = some text ↔
        ∃ format ∈ type.formats, ∃ last,
          ((responses (results plan inputs)).filter (·.fileName format == name)).getLast? =
              some last ∧
            text = last.render format unwrap := by
  have hResults := map_result_evaluateInputs plan verbose inputs
  refine ⟨map_result_evaluateInput plan verbose, ?_, fun more => ?_, ?_,
    nodup_toDirectory type unwrap _, fun name text => ?_⟩
  · rw [toStream_eq, hResults]
  · rw [evaluateInputs, List.flatMap_append]
    exact toStream_append type unwrap _ _
  · rw [toDirectory_eq, hResults]
  · rw [lookup_toDirectory_iff, hResults]

end InstrumentResponse.CommandLine
