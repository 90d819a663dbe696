import BatchGateway.Pipeline.System
import BatchGateway.Worker.Ingestion
import BatchGateway.Worker.Partition

/-! Executions that work on an input file. -/
namespace BatchGateway

open GoJson

section Inputs

variable (lib : Stdlib) (codec : Codec) (icfg : IngestConfig) (input : Bytes)

/-- The execution starts from what ingestion made of the input file: the manifest, the counts and
the plan files, whose lines are read back model by model. A line that cannot be parsed gets a random
ID, which no line of the manifest has. -/
structure RunConfig.IngestedAs (cfg : RunConfig) (st : Ingestion) (source : PlanFileSource)
    (uuid : PlanEntry → String) : Prop where
  ingested : ∃ cause, lib.preProcessJob codec icfg cfg.batchID cause input = .ok st
  manifest : cfg.manifest.entries = st.entries
  lineCount : cfg.lineCount = st.lineCount
  rejectedCount : cfg.rejectedCount = st.rejectedCount
  batchID : source.batchID = cfg.batchID
  inputFile : source.inputFile = st.input
  requests : cfg.requests.Perm ((PlanFileSource.planned st.plans).map fun q =>
    source.readEntry lib codec uuid q.2 q.1)
  fresh : ∀ e, ∀ m ∈ st.entries, newBatchRequestID (uuid e) ≠ m.requestID

def RunConfig.Ingested (cfg : RunConfig) : Prop :=
  ∃ st source uuid, cfg.IngestedAs lib codec icfg input st source uuid

end Inputs

variable {lib : Stdlib} {codec : Codec} {icfg : IngestConfig} {input : Bytes}
  {cfg cfg' : RunConfig}

namespace RunConfig.Ingested

section

variable (h : cfg.Ingested lib codec icfg input)
include h

theorem wellFormed : cfg.manifest.WellFormed := by
  obtain ⟨st, -, -, ⟨cause, hok⟩, hm, -⟩ := h
  obtain ⟨infos, -, hingest, -⟩ := preProcessJob_manifest hok
  have := Stdlib.ingest_wellFormed hingest
  rwa [← hm] at this

theorem counts :
    cfg.lineCount = cfg.manifest.entries.length ∧
    cfg.rejectedCount = cfg.manifest.entries.countP ManifestEntry.rejected := by
  obtain ⟨st, -, -, ⟨cause, hok⟩, hm, hn, hr, -⟩ := h
  obtain ⟨infos, -, -, -, hlen, hcount, hrej⟩ := preProcessJob_manifest hok
  rw [hm, hn, hr, hcount, hlen, hrej]
  exact ⟨rfl, rfl⟩

/-- Every execution of the batch finds the same manifest. -/
theorem manifest_eq (h' : cfg'.Ingested lib codec icfg input) (hid : cfg'.batchID = cfg.batchID) :
    cfg'.manifest = cfg.manifest := by
  obtain ⟨st, -, -, ⟨cause, hok⟩, hm, -⟩ := h
  obtain ⟨st', -, -, ⟨cause', hok'⟩, hm', -⟩ := h'
  rw [hid] at hok'
  cases preProcessLoop_unique hok hok'
  exact congrArg RequestManifest.mk (hm'.trans hm.symm)

/-- The lines are the same, whatever models are registered. -/
theorem identities_eq {icfg' : IngestConfig} (h' : cfg'.Ingested lib codec icfg' input)
    (hid : cfg'.batchID = cfg.batchID) :
    cfg'.manifest.identities = cfg.manifest.identities := by
  obtain ⟨st, -, -, ⟨cause, hok⟩, hm, -⟩ := h
  obtain ⟨st', -, -, ⟨cause', hok'⟩, hm', -⟩ := h'
  rw [hid] at hok'
  have := preProcessLoop_identities hok hok' rfl rfl
  rwa [← hm, ← hm'] at this

/-- Request IDs come from the custom IDs. -/
theorem requestID_eq {m : ManifestEntry} (hm : m ∈ cfg.manifest.entries) :
    m.requestID = lib.stableBatchRequestID cfg.batchID m.customID := by
  obtain ⟨st, -, -, ⟨cause, hok⟩, hst, -⟩ := h
  obtain ⟨infos, -, hingest, -⟩ := preProcessJob_manifest hok
  obtain ⟨ordinal, line, rfl⟩ := Stdlib.ingest_entry hingest (hst ▸ hm)
  rw [Stdlib.manifestEntry_requestID, Stdlib.manifestEntry_customID]

/-- The error object of a rejected line. -/
theorem rejected {m : ManifestEntry} (hm : m ∈ cfg.manifest.entries) (hr : m.rejected = true) :
    m.resultKey = resumableResultKey cfg.batchID m.requestID ∧
      m.resultBytes = m.errLine.length ∧ m.resultSHA256 = lib.sha256 m.errLine ∧
      ∃ error, m.errLine = lib.marshal ⟨m.requestID, m.customID, none, some error⟩ ++ newline := by
  obtain ⟨st, -, -, ⟨cause, hok⟩, hst, -⟩ := h
  obtain ⟨infos, -, hingest, -⟩ := preProcessJob_manifest hok
  obtain ⟨ordinal, line, rfl⟩ := Stdlib.ingest_entry hingest (hst ▸ hm)
  obtain ⟨hkey, hbytes, hsha⟩ := Stdlib.manifestEntry_resultKey hr
  refine ⟨hkey, hbytes, hsha, ?_⟩
  unfold Stdlib.manifestEntry at hr ⊢
  dsimp only at hr ⊢
  split at hr
  · cases hr
  next hreg =>
    rw [if_neg hreg]
    exact ⟨_, rfl⟩

/-- A request has the ID of its custom ID, or one that no line has. -/
theorem request (hne : cfg.batchID ≠ "") {msg : RequestItem} (hmsg : .ok msg ∈ cfg.requests) :
    msg.requestID = lib.stableBatchRequestID cfg.batchID msg.customID ∨
    ∀ m ∈ cfg.manifest.entries, msg.requestID ≠ m.requestID := by
  obtain ⟨st, source, uuid, -, hm, -, -, hid, -, hreq, hfresh⟩ := h
  obtain ⟨q, -, hq⟩ := List.mem_map.1 (hreq.mem_iff.1 hmsg)
  unfold PlanFileSource.readEntry at hq
  split at hq
  · cases hq
  · cases hq
    unfold PlanFileSource.readLine
    split
    · rw [hm]
      exact .inr fun m hmem => hfresh q.2 m hmem
    · rw [hid, if_pos hne]
      exact .inl rfl

/-- Requests that could not be parsed are none of the manifest. -/
theorem parseError {msg : RequestItem} (hmsg : .ok msg ∈ cfg.requests)
    (he : msg.parseError.isSome) : ∀ m ∈ cfg.manifest.entries, msg.requestID ≠ m.requestID := by
  obtain ⟨st, source, uuid, -, hm, -, -, -, -, hreq, hfresh⟩ := h
  have hmem := hreq.mem_iff.1 hmsg
  obtain ⟨q, -, hq⟩ := List.mem_map.1 hmem
  unfold PlanFileSource.readEntry at hq
  split at hq
  · cases hq
  · cases hq
    unfold PlanFileSource.readLine at he ⊢
    split at he
    · rw [hm]
      intro m hmem
      exact hfresh q.2 m hmem
    · cases he

/-- Every request has a custom ID, when no line is too long for its plan entry. -/
theorem customID_ne (hlen : ∀ line ∈ normalizedLines [] input, line.length < 2 ^ 32)
    {msg : RequestItem} (hmsg : .ok msg ∈ cfg.requests) : msg.customID ≠ "" := by
  obtain ⟨st, source, uuid, ⟨cause, hok⟩, -, -, -, -, hfile, hreq, -⟩ := h
  obtain ⟨q, hq, hread⟩ := List.mem_map.1 (hreq.mem_iff.1 hmsg)
  obtain ⟨safe, -, he⟩ := PlanFileSource.mem_planned.1 hq
  obtain ⟨p, -, hback⟩ := (planned_preProcessJob hok fun p hp _ =>
    hlen p.1 (List.of_mem_zip hp).1).entry safe q.2 he
  obtain ⟨info, hinfo, -⟩ := hback.line
  have hline : source.readLine lib codec (uuid q.2) p.1 q.1 = msg := by
    simpa [PlanFileSource.readEntry, hfile, hback.bytes] using hread
  obtain ⟨_, -, -, -, -, -, -, hne⟩ := extract_ok hinfo
  rcases source.readLine_cases (uuid q.2) q.1 hinfo with ⟨-, hparse, -⟩ | ⟨-, -, hcid, -⟩
  · rw [← hline]
    unfold PlanFileSource.readLine at hparse ⊢
    split at hparse
    · simp [newBatchRequestID]
    · exact absurd rfl hparse
  · rw [← hline, hcid]
    exact hne

/-- Every accepted line leads to a request, with its ID or with one that no line has. -/
theorem covered (hlen : ∀ line ∈ normalizedLines [] input, line.length < 2 ^ 32)
    (hid : cfg.batchID ≠ "") {m : ManifestEntry} (hm : m ∈ cfg.manifest.entries)
    (hr : m.rejected = false) :
    ∃ msg, .ok msg ∈ cfg.requests ∧ (msg.requestID = m.requestID ∨
      ∀ m' ∈ cfg.manifest.entries, msg.requestID ≠ m'.requestID) := by
  have hparse := @parseError lib codec icfg input cfg h
  obtain ⟨st, source, uuid, ⟨cause, hok⟩, hst, -, -, hbatch, hfile, hreq, -⟩ := h
  have hplanned := planned_preProcessJob hok fun p hp _ => hlen p.1 (List.of_mem_zip hp).1
  obtain ⟨i, hi, rfl⟩ := List.getElem_of_mem (hst ▸ hm)
  have hi' : i < (normalizedLines [] input).length := hplanned.aligned ▸ hi
  have hzip : ((normalizedLines [] input)[i], st.entries[i]) ∈
      (normalizedLines [] input).zip st.entries := by
    rw [← List.getElem_zip (h := by rw [List.length_zip]; omega)]
    exact List.getElem_mem _
  obtain ⟨safe, hs, e, he, hback⟩ := hplanned.manifest _ hzip hr
  obtain ⟨modelID, hmodel⟩ := PlanAccumulator.mem_safeToModel hs
  have hq : (modelID, e) ∈ PlanFileSource.planned st.plans :=
    PlanFileSource.mem_planned.2 ⟨safe, hmodel, he⟩
  rw [← hfile, ← hbatch] at hback
  obtain ⟨msg, hread, hiff, hids⟩ := PlanFileSource.readEntry_identity (s := source) modelID hback
    (hbatch ▸ hid)
  have hmsg : .ok msg ∈ cfg.requests := hreq.mem_iff.2 (List.mem_map.2 ⟨_, hq, hread⟩)
  refine ⟨msg, hmsg, ?_⟩
  by_cases hnone : msg.parseError = none
  · exact .inl (hids (hiff.1 hnone)).1
  · exact .inr (hparse hmsg (Option.isSome_iff_ne_none.2 hnone))

end

end RunConfig.Ingested

/-- The executions of a batch work on the same input file. The models registered may differ. -/
structure Setup.Inputs (S : Setup) (codec : Codec) (icfg : Fin S.jobs → IngestConfig)
    (input : Fin S.batches → Bytes) (id : Fin S.batches → String) : Prop where
  batchID : ∀ j, (S.config j).batchID = id (S.batch j)
  ingested : ∀ j, (S.config j).Ingested S.lib codec (icfg j) (input (S.batch j))

theorem Setup.Inputs.manifest_eq {S : Setup} {codec : Codec} {icfg : Fin S.jobs → IngestConfig}
    {input : Fin S.batches → Bytes} {id : Fin S.batches → String}
    (h : S.Inputs codec icfg input id) {j j' : Fin S.jobs} (hb : S.batch j' = S.batch j)
    (hcfg : icfg j' = icfg j) : (S.config j').manifest = (S.config j).manifest := by
  have hj' := h.ingested j'
  rw [hb, hcfg] at hj'
  exact (h.ingested j).manifest_eq hj' (by rw [h.batchID, h.batchID, hb])

/-! ### A concrete input -/

/-- What ingestion makes of an input file. -/
def sampleIngestion (codec : Codec) (input : Bytes) : Ingestion :=
  (Stdlib.sample.preProcessJob codec sampleIngestConfig "batch_1" (fun _ => none)
    input).toOption.getD {}

/-- An execution on this input file. -/
def RunConfig.ofInput (codec : Codec) (input : Bytes) : RunConfig :=
  let st := sampleIngestion codec input
  { RunConfig.sample "batch_1" "" with
    manifest := ⟨st.entries⟩
    lineCount := st.lineCount
    rejectedCount := st.rejectedCount
    requests := (PlanFileSource.planned st.plans).map fun q =>
      (sampleSource st.input).readEntry .sample codec (fun _ => "0") q.2 q.1 }

theorem RunConfig.ingested_ofInput (hok : (Stdlib.sample.preProcessJob codec sampleIngestConfig
      "batch_1" (fun _ => none) input).toOption.isSome = true)
    (hfresh : ∀ m ∈ (sampleIngestion codec input).entries, newBatchRequestID "0" ≠ m.requestID) :
    (RunConfig.ofInput codec input).Ingested .sample codec sampleIngestConfig input :=
  ⟨sampleIngestion codec input, sampleSource _, fun _ => "0",
    { ingested := ⟨fun _ => none, ok_of_isSome hok {}⟩
      manifest := rfl
      lineCount := rfl
      rejectedCount := rfl
      batchID := rfl
      inputFile := rfl
      requests := .refl _
      fresh := fun _ => hfresh }⟩

/-- A file with one line. -/
def RunConfig.ofLine : RunConfig := .ofInput oneModelCodec (sampleRequestLine oneModel)

theorem RunConfig.ingested_ofLine :
    RunConfig.ofLine.Ingested .sample oneModelCodec sampleIngestConfig (sampleRequestLine oneModel) :=
  ingested_ofInput (by decide +kernel) (by decide +kernel)

/-- A file with two lines; the model of the second one is not served. -/
def twoLines : List (String × String) := [("a", "m"), ("b", "xy")]

def RunConfig.ofLines : RunConfig := .ofInput (requestsCodec twoLines) (requestsInput twoLines)

theorem RunConfig.ofLine_manifest : ∀ m ∈ RunConfig.ofLine.manifest.entries,
    m.requestID = Stdlib.sampleRequest ∧ m.customID = "a" := by
  decide +kernel

theorem RunConfig.ofLine_requests {msg : RequestItem} (h : .ok msg ∈ RunConfig.ofLine.requests) :
    msg.requestID = Stdlib.sampleRequest ∧ msg.customID = "a" := by
  have hall : RunConfig.ofLine.requests.all (fun
      | .ok msg => decide (msg.requestID = Stdlib.sampleRequest ∧ msg.customID = "a")
      | .error _ => true) = true := by decide +kernel
  simpa using List.all_eq_true.1 hall _ h

theorem RunConfig.Ingested.overQueue (h : cfg.Ingested lib codec icfg input) :
    cfg.overQueue.Ingested lib codec icfg input := by
  obtain ⟨st, source, uuid, h⟩ := h
  exact ⟨st, source, uuid, { h with }⟩

theorem Setup.inputs_sample (hid : cfg.batchID = "batch_1")
    (h : cfg.Ingested .sample codec sampleIngestConfig input) :
    (Setup.sample [cfg]).Inputs codec (fun _ => sampleIngestConfig) (fun _ => input)
      (fun _ => "batch_1") := by
  have hj : ∀ j, (Setup.sample [cfg]).config j = cfg :=
    fun j => List.mem_singleton.1 (List.get_mem _ _)
  refine ⟨fun j => ?_, fun j => ?_⟩ <;> rw [hj]
  · exact hid
  · exact h

end BatchGateway
