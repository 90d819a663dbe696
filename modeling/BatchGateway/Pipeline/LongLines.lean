import BatchGateway.Pipeline.Conservation
import BatchGateway.Worker.PlanFiles

/-! Lines that are too long for a plan entry: the length that is stored has 32 bits, so that the
lines after such a line are read back from the wrong place. -/
namespace BatchGateway

open Interleaving GoJson

/-! ### Lines with blanks at their end -/

def blanks (n : Nat) : Bytes := List.replicate n 32

/-- A line with blanks before its newline. -/
def paddedLine (text : Bytes) (n : Nat) : Bytes := text ++ blanks n ++ newline

theorem length_paddedLine (text : Bytes) (n : Nat) :
    (paddedLine text n).length = text.length + n + 1 := by
  simp [paddedLine, blanks, newline]
  omega

variable {line : Bytes}

theorem normalizedLines_append {text rest : Bytes} (h : 10 ∉ text) :
    normalizedLines line (text ++ newline ++ rest) =
      (line ++ text ++ newline) :: normalizedLines [] rest := by
  induction text generalizing line with
  | nil => simp [normalizedLines, newline]
  | cons b text ih =>
    have hb : b ≠ 10 := by
      rintro rfl
      exact h List.mem_cons_self
    rw [List.cons_append, List.cons_append, normalizedLines, if_neg hb,
      ih fun hmem => h (List.mem_cons_of_mem _ hmem)]
    simp

theorem normalizedLines_paddedLine {text rest : Bytes} (h : 10 ∉ text) (n : Nat) :
    normalizedLines [] (paddedLine text n ++ rest) =
      paddedLine text n :: normalizedLines [] rest := by
  have hpad : 10 ∉ text ++ blanks n := by
    intro hmem
    rcases List.mem_append.1 hmem with hmem | hmem
    · exact h hmem
    · cases List.eq_of_mem_replicate hmem
  exact normalizedLines_append hpad

/-! ### Three requests -/

def paddedCodec : Codec := requestsCodec [("a", "m"), ("b", "xy"), ("c", "m")]

theorem rdropWhile_blanks (text : Bytes) (n : Nat) :
    (text ++ blanks n).rdropWhile (· = 32) = text.rdropWhile (· = 32) := by
  induction n with
  | zero => simp [blanks]
  | succ n ih =>
    have hsnoc : text ++ blanks (n + 1) = (text ++ blanks n) ++ [32] := by
      rw [blanks, List.replicate_succ', ← List.append_assoc, blanks]
    rw [hsnoc, List.rdropWhile_concat_pos _ _ _ (by decide), ih]

theorem extract_paddedLine (lib : Stdlib) (cfg : IngestConfig) (text : Bytes) (n : Nat) :
    extractAndValidateLine lib paddedCodec cfg (paddedLine text n) =
      extractAndValidateLine lib paddedCodec cfg (text ++ newline) := by
  have htrim : ∀ data : Bytes, trimNewline (data ++ newline) = data := by
    intro data
    simp [trimNewline, newline]
  have hparse : paddedCodec.parse (text ++ blanks n) = paddedCodec.parse text := by
    simp only [paddedCodec, requestsCodec, rdropWhile_blanks]
  unfold extractAndValidateLine
  rw [paddedLine, htrim, htrim, Codec.unmarshal, Codec.unmarshal, hparse]
  cases paddedCodec.parse text <;> rfl

/-- The first line is accepted and 2³² bytes longer than its text, the second is rejected and has
2³² bytes, the third is accepted and one byte shorter than the text of the second. -/
def longInput : Bytes :=
  paddedLine (requestBytes "a" "m") (2 ^ 32 - 1) ++
    (paddedLine (requestBytes "b" "xy") (2 ^ 32 - 1 - (requestBytes "b" "xy").length) ++
      paddedLine (requestBytes "c" "m") 0)

def firstLength : Nat := (requestBytes "a" "m").length

/-- The text of the second line is one byte longer than the others. -/
theorem length_requestBytes : (requestBytes "a" "m").length = 83 ∧
    (requestBytes "b" "xy").length = 84 ∧ (requestBytes "c" "m").length = 83 := by
  decide +kernel

theorem length_firstLine :
    (paddedLine (requestBytes "a" "m") (2 ^ 32 - 1)).length = firstLength + 2 ^ 32 := by
  rw [length_paddedLine, firstLength]
  omega

theorem length_secondLine : (paddedLine (requestBytes "b" "xy")
    (2 ^ 32 - 1 - (requestBytes "b" "xy").length)).length = 2 ^ 32 := by
  rw [length_paddedLine, length_requestBytes.2.1]
  omega

/-! ### Their ingestion -/

def longMeta (customID model : String) : LineMeta := ⟨⟨customID, model⟩, noPrefixHash⟩

def longEntry (ordinal : Int) (customID model : String) : ManifestEntry :=
  Stdlib.injective.manifestEntry "batch_1" sampleIngestConfig.registered ordinal ⟨customID, model⟩

/-- The plan of the model `m`: the offset of the third line is that of the second. -/
def longPlan : List PlanEntry :=
  [⟨0, UInt32.ofNat firstLength, noPrefixHash⟩,
    ⟨firstLength + 2 ^ 32, UInt32.ofNat ((requestBytes "c" "m").length + 1), noPrefixHash⟩]

def longPlans : PlanAccumulator :=
  longPlan.foldl (fun acc e => acc.accumulatePlanEntry "m" e) {}

def longManifest : List ManifestEntry :=
  [longEntry 0 "a" "m", longEntry 1 "b" "xy", longEntry 2 "c" "m"]

def longIngestion : Ingestion where
  input := longInput
  entries := longManifest
  plans := longPlans
  seenCustomIDs := ["c", "b", "a"]
  offset := firstLength + 2 ^ 32 + (requestBytes "c" "m").length + 1
  lineCount := 3
  rejectedCount := 1

variable {lib : Stdlib} {cfg : IngestConfig} {jobID : String} {info : LineMeta} {st : Ingestion}

theorem preProcessLoop_line {codec : Codec} {rest : List Bytes}
    (hinfo : extractAndValidateLine lib codec cfg line = .ok info)
    (hseen : info.customID ∉ st.seenCustomIDs) :
    lib.preProcessLoop codec cfg jobID (fun _ => none) (line :: rest) st =
      lib.preProcessLoop codec cfg jobID (fun _ => none) rest
        (lib.ingestLine cfg jobID st line info) := by
  rw [Stdlib.preProcessLoop]
  simp only [hinfo, if_neg hseen]

theorem ingestLine_accepted (h : cfg.registered info.modelID = true) :
    lib.ingestLine cfg jobID st line info =
      { input := st.input ++ line
        entries := st.entries ++
          [lib.manifestEntry jobID cfg.registered st.lineCount info.toRequestMeta]
        plans := st.plans.accumulatePlanEntry info.modelID
          ⟨st.offset, UInt32.ofNat line.length, info.prefixHash⟩
        seenCustomIDs := info.customID :: st.seenCustomIDs
        offset := st.offset + (UInt32.ofNat line.length).toNat
        lineCount := st.lineCount + 1
        rejectedCount := st.rejectedCount } := by
  unfold Stdlib.ingestLine
  dsimp only
  rw [if_neg (by rw [Stdlib.manifestEntry_rejected, h]; decide)]

theorem ingestLine_rejected (h : cfg.registered info.modelID = false) :
    lib.ingestLine cfg jobID st line info =
      { input := st.input ++ line
        entries := st.entries ++
          [lib.manifestEntry jobID cfg.registered st.lineCount info.toRequestMeta]
        plans := st.plans
        seenCustomIDs := info.customID :: st.seenCustomIDs
        offset := st.offset + line.length
        lineCount := st.lineCount + 1
        rejectedCount := st.rejectedCount + 1 } := by
  unfold Stdlib.ingestLine
  dsimp only
  rw [if_pos (by rw [Stdlib.manifestEntry_rejected, h]; decide)]

/-- The three lines are accepted, rejected and accepted. -/
theorem preProcessJob_longInput :
    Stdlib.injective.preProcessJob paddedCodec sampleIngestConfig "batch_1" (fun _ => none)
      longInput = .ok longIngestion := by
  have hfirst : extractAndValidateLine .injective paddedCodec sampleIngestConfig
      (requestBytes "a" "m" ++ newline) = .ok (longMeta "a" "m") := by decide +kernel
  have hsecond : extractAndValidateLine .injective paddedCodec sampleIngestConfig
      (requestBytes "b" "xy" ++ newline) = .ok (longMeta "b" "xy") := by decide +kernel
  have hthird : extractAndValidateLine .injective paddedCodec sampleIngestConfig
      (requestBytes "c" "m" ++ newline) = .ok (longMeta "c" "m") := by decide +kernel
  have hlines : normalizedLines [] longInput =
      [paddedLine (requestBytes "a" "m") (2 ^ 32 - 1),
        paddedLine (requestBytes "b" "xy") (2 ^ 32 - 1 - (requestBytes "b" "xy").length),
        paddedLine (requestBytes "c" "m") 0] := by
    rw [longInput, normalizedLines_paddedLine (by decide +kernel),
      normalizedLines_paddedLine (by decide +kernel), ← List.append_nil (paddedLine _ 0),
      normalizedLines_paddedLine (by decide +kernel)]
    rfl
  have hword : UInt32.ofNat (firstLength + 2 ^ 32) = UInt32.ofNat firstLength := by
    rw [firstLength, length_requestBytes.1]
    rfl
  have hshort : (UInt32.ofNat ((requestBytes "c" "m").length + 1)).toNat =
      (requestBytes "c" "m").length + 1 := by
    rw [length_requestBytes.2.2]
    rfl
  have hfirstLength : (UInt32.ofNat firstLength).toNat = firstLength := by
    rw [firstLength, length_requestBytes.1]
    rfl
  rw [Stdlib.preProcessJob, hlines,
    preProcessLoop_line ((extract_paddedLine ..).trans hfirst) (by decide),
    ingestLine_accepted (by decide),
    preProcessLoop_line ((extract_paddedLine ..).trans hsecond) (by decide),
    ingestLine_rejected (by decide),
    preProcessLoop_line ((extract_paddedLine ..).trans hthird) (by decide),
    ingestLine_accepted (by decide), Stdlib.preProcessLoop]
  rw [length_firstLine, length_secondLine, length_paddedLine, hword]
  dsimp only
  rw [hfirstLength, hshort]
  refine congrArg Except.ok ?_
  rw [longIngestion, Ingestion.mk.injEq]
  refine ⟨?_, rfl, ?_, rfl, ?_, rfl, rfl⟩
  · rw [longInput, List.append_assoc]
    rfl
  · rw [longPlans, longPlan, List.foldl_cons, List.foldl_cons, List.foldl_nil]
    simp [longMeta]
  · push_cast
    omega

/-! ### An execution on these lines -/

/-- The request that is read back from a text. -/
def longRequest (customID model : String) : RequestItem :=
  (sampleSource []).readLine .injective paddedCodec "0" (requestBytes customID model) "m"

/-- Read back are the first line and, in place of the third, the second. -/
def RunConfig.longLines : RunConfig :=
  { RunConfig.sample "batch_1" "" with
    manifest := ⟨longManifest⟩
    lineCount := 3
    rejectedCount := 1
    requests := [.ok (longRequest "a" "m"), .ok (longRequest "b" "xy")] }

theorem planned_longPlans : PlanFileSource.planned longPlans = longPlan.map fun e => ("m", e) :=
  rfl

/-- The first entry leads to the text of the first line. -/
theorem readAt_first :
    readAt longInput 0 (UInt32.ofNat firstLength).toNat = some (requestBytes "a" "m") := by
  have hlength : (UInt32.ofNat firstLength).toNat = (requestBytes "a" "m").length := by
    rw [firstLength, length_requestBytes.1]
    rfl
  have hread := readAt_append (blanks (2 ^ 32 - 1) ++ newline ++
    (paddedLine (requestBytes "b" "xy") (2 ^ 32 - 1 - (requestBytes "b" "xy").length) ++
      paddedLine (requestBytes "c" "m") 0)) (readAt_end [] (requestBytes "a" "m"))
  rw [hlength]
  have hzero : (([] : Bytes).length : Int) = 0 := rfl
  rw [List.nil_append, hzero] at hread
  simpa only [longInput, paddedLine, List.append_assoc] using hread

/-- The entry of the third line leads to the text of the second. -/
theorem readAt_third :
    readAt longInput (firstLength + 2 ^ 32)
      (UInt32.ofNat ((requestBytes "c" "m").length + 1)).toNat =
        some (requestBytes "b" "xy") := by
  have hlength : (UInt32.ofNat ((requestBytes "c" "m").length + 1)).toNat =
      (requestBytes "b" "xy").length := by
    rw [length_requestBytes.2.1, length_requestBytes.2.2]
    rfl
  have hoffset : (firstLength + 2 ^ 32 : Int) =
      (paddedLine (requestBytes "a" "m") (2 ^ 32 - 1)).length := by
    rw [length_firstLine]
    push_cast
    rfl
  have hread := readAt_append
    (blanks (2 ^ 32 - 1 - (requestBytes "b" "xy").length) ++ newline ++
      paddedLine (requestBytes "c" "m") 0)
    (readAt_end (paddedLine (requestBytes "a" "m") (2 ^ 32 - 1)) (requestBytes "b" "xy"))
  rw [hlength, hoffset]
  simpa only [longInput, paddedLine, List.append_assoc] using hread

theorem readEntry_longPlan :
    longPlan.map (fun e => (sampleSource longInput).readEntry .injective paddedCodec (fun _ => "0")
      e "m") = RunConfig.longLines.requests := by
  have hread : ∀ (e : PlanEntry) {file line : Bytes},
      readAt file e.offset e.length.toNat = some line →
      (sampleSource file).readEntry .injective paddedCodec (fun _ => "0") e "m" =
        .ok ((sampleSource []).readLine .injective paddedCodec "0" line "m") := by
    intro e file line h
    have hfile : readAt (sampleSource file).inputFile e.offset e.length.toNat = some line := h
    rw [PlanFileSource.readEntry, hfile]
    rfl
  have hfirst := hread ⟨0, UInt32.ofNat firstLength, noPrefixHash⟩ readAt_first
  have hthird := hread ⟨firstLength + 2 ^ 32, UInt32.ofNat ((requestBytes "c" "m").length + 1),
    noPrefixHash⟩ readAt_third
  rw [longPlan, List.map_cons, List.map_cons, List.map_nil, hfirst, hthird]
  rfl

theorem RunConfig.ingested_longLines :
    RunConfig.longLines.Ingested .injective paddedCodec sampleIngestConfig longInput := by
  have hfresh : ∀ m ∈ longManifest, newBatchRequestID "0" ≠ m.requestID := by decide +kernel
  refine ⟨longIngestion, sampleSource longInput, fun _ => "0",
    { ingested := ⟨fun _ => none, preProcessJob_longInput⟩
      manifest := rfl
      lineCount := rfl
      rejectedCount := rfl
      batchID := rfl
      inputFile := rfl
      requests := ?_
      fresh := fun _ => hfresh }⟩
  have hplanned : longIngestion.plans = longPlans := rfl
  rw [hplanned, planned_longPlans, List.map_map]
  exact .of_eq readEntry_longPlan.symm

def Setup.longLines : Setup := { Setup.sample [.longLines] with lib := .injective }

def Hub.longLines : Hub .longLines where
  worlds _ := { batch := ⟨{ id := "batch_1", status := { status := .validating }
                            priority := 1000 }, .empty⟩ }

/-- The first request is executed, the second is dropped at the fence because its entry is
finished, and the job goes on to finalization. -/
def proceedLongLines : List (Event .longLines) :=
  let run := Event.run (S := .longLines) ⟨0, by decide⟩
  let call := Event.call (S := .longLines) ⟨0, by decide⟩
  [⟨.other ⟨0, by decide⟩ (.exec (.pqDequeue "p" 0)), {}⟩, run .job, call .job, call .job,
      run .job, run .job] ++
    Event.fence ⟨0, by decide⟩ ++ [run .aimd, run .aimd, run .aimd] ++
    Event.answer ⟨0, by decide⟩ ++
    [run .drain, run .drain, run .drain, run .drain, run .source, run .pre, call .pre, call .pre,
      run .pre, run .source, run .source, run .source, run .source, run .pre, run .aimd,
      run .direct, run .direct, run .release, run .aimd, run .forward, run .pre, run .drain,
      run .drain, run .job, run .job, run .job]

/-- The job goes on although the entry of the third line was never attempted. -/
theorem proceedLongLines_open :
    Hub.longLines.Initial ∧
    Setup.longLines.Inputs paddedCodec (fun _ => sampleIngestConfig) (fun _ => longInput)
      (fun _ => "batch_1") ∧
    ((exec Setup.longLines.step .longLines proceedLongLines).map fun h =>
      ((h.runs ⟨0, by decide⟩).job matches .proceed,
        (h.worlds ⟨0, by decide⟩).batch.entries.rows.map fun row => (row.customID, row.status))) =
      some (true, [("a", .completed), ("b", .failed), ("c", .pending)]) := by
  refine ⟨⟨fun i => by revert i; decide, rfl, rfl, rfl⟩, ⟨fun j => ?_, fun j => ?_⟩,
    by decide +kernel⟩
  all_goals
    have hj : Setup.longLines.config j = .longLines := List.mem_singleton.1 (List.get_mem _ _)
    rw [hj]
  · rfl
  · exact RunConfig.ingested_longLines

end BatchGateway
