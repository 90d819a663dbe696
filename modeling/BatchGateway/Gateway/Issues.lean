import BatchGateway.Gateway.System
import BatchGateway.Lib.Monitor

/-! Which statements a program issues, for the programs that make no other use of the batch row. -/
namespace BatchGateway

open Interleaving Prog

/-- The calls that publish an artifact or compare one. -/
def Call.IsArtifact : Call → Bool
  | commitStream .. | retrieveArtifact .. => true
  | _ => false

/-- The calls that concern neither the batch tables nor the adoption, the start or the cancellation of
a job; among the objects they touch results only. -/
def Call.IsPlain : Call → Bool
  | exec _ | go _ | fetch .polling _ | fetch .recovery _ | fetch .refresh _ | eventChannel
  | sendCancelEvent | commitStream .. | retrieveArtifact .. => false
  | store key .. | delete key | deleteDir key => isResultKey key
  | _ => true

/-- The program issues statements in `P` only, and no other call that matters for the batch row. -/
def Issues {α : Type} (P : Stmt → Prop) (m : Task α) : Prop :=
  m.Calls fun
    | .exec st => P st
    | c => c.IsPlain = true

/-- The program issues no statements, but it may publish artifacts. -/
def Assembles {α : Type} (m : Task α) : Prop :=
  m.Calls fun c => c.IsPlain = true ∨ c.IsArtifact = true

variable {α β : Type} {P P' : Stmt → Prop} {lib : Stdlib}

theorem Issues.bind {m : Task α} {f : α → Task β} (hm : Issues P m) (hf : ∀ a, Issues P (f a)) :
    Issues P (m >>= f) := Calls.bind hm hf

theorem Issues.mono {m : Task α} (hm : Issues P m) (h : ∀ st, P st → P' st) : Issues P' m :=
  Calls.mono hm fun c hc => by
    cases c <;> first | exact hc | exact h _ hc

theorem Issues.exec {st : Stmt} {f : Except Err Bool → Task β} (h : P st)
    (hf : ∀ r, Issues P (f r)) : Issues P (call (.exec st) >>= f) := ⟨h, hf⟩

theorem Issues.plain {c : Call} {f : c.Resp → Task β} (h : c.IsPlain = true)
    (hf : ∀ r, Issues P (f r)) : Issues P (call c >>= f) := by
  refine ⟨?_, hf⟩
  cases c <;> first | exact h | cases h

theorem Issues.assembles {m : Task α} (hm : Issues (fun _ => False) m) : Assembles m :=
  Calls.mono hm fun c hc => by
    cases c <;> first | exact .inl hc | exact hc.elim

theorem Assembles.bind {m : Task α} {f : α → Task β} (hm : Assembles m)
    (hf : ∀ a, Assembles (f a)) : Assembles (m >>= f) := Calls.bind hm hf

theorem Assembles.plain {c : Call} {f : c.Resp → Task β} (h : c.IsPlain = true)
    (hf : ∀ r, Assembles (f r)) : Assembles (call c >>= f) := ⟨.inl h, hf⟩

theorem Assembles.artifact {c : Call} {f : c.Resp → Task β} (h : c.IsArtifact = true)
    (hf : ∀ r, Assembles (f r)) : Assembles (call c >>= f) := ⟨.inr h, hf⟩

/-! ### The store clients -/

theorem pqEnqueue_issues (jp : BatchJobPriority) : Issues (· = .pqEnqueue jp) (pqEnqueue jp) := by
  unfold pqEnqueue
  split_ifs <;> first | exact trivial | skip
  refine .exec rfl fun r => ?_
  split <;> exact trivial

theorem pqDelete_issues (id : String) : Issues (· = .pqDelete id) (pqDelete id) := by
  refine .exec rfl fun r => ?_
  split <;> exact trivial

theorem activateResumableBatch_issues (a : ResumableActivation) :
    Issues (fun st => st = .activate a ∧ a.entries ≠ []) (activateResumableBatch a) := by
  unfold activateResumableBatch
  split_ifs with _ _ hne <;> first | exact trivial | skip
  refine .exec ⟨rfl, hne⟩ fun r => ?_
  split <;> exact trivial

theorem renewResumableBatchLease_issues (id p : String) (e : Int) (ttl : Duration) :
    Issues (· = .renew id p e ttl) (renewResumableBatchLease id p e ttl) := by
  unfold renewResumableBatchLease
  split_ifs <;> first | exact trivial | skip
  refine .exec rfl fun r => ?_
  split <;> exact trivial

theorem requeueResumableOrphan_issues (id p : String) (e : Int) (expired bump : Bool) :
    Issues (fun st => st = .requeue id p e expired bump ∨ st = .recordSubmitter id p e)
      (requeueResumableOrphan id p e expired bump) := by
  refine .exec (.inl rfl) fun r => ?_
  split <;> first | exact trivial | skip
  refine .exec (.inr rfl) fun r => ?_
  split <;> exact trivial

theorem entryNotUpdatable_issues (op id r p : String) (e : Int) :
    Issues P (entryNotUpdatable op id r p e) := by
  refine .plain rfl fun r => ?_
  split <;> first | exact trivial | skip
  split <;> exact trivial

theorem markEntryInFlight_issues (id r p : String) (e : Int) :
    Issues (· = .mark id r p e) (markEntryInFlight id r p e) := by
  refine .exec rfl fun r => ?_
  split <;> first | exact trivial | exact entryNotUpdatable_issues ..

theorem checkpointEntryResult_issues (id r p : String) (e : Int) (result : ResumableResult) :
    Issues (fun st => st = .checkpoint id r p e result ∧ result.status.isTerminal = true)
      (checkpointEntryResult id r p e result) := by
  unfold checkpointEntryResult
  split_ifs with ht <;> first | exact trivial | skip
  refine .exec ⟨rfl, by simpa using ht⟩ fun r => ?_
  split <;> first | exact trivial | exact entryNotUpdatable_issues ..

theorem dbUpdateProgress_issues (id : String) (e : Int) (counts : BatchRequestCounts) :
    Issues (· = .updateProgress id e counts) (dbUpdateProgress id e counts) := by
  unfold dbUpdateProgress
  split_ifs <;> first | exact trivial | skip
  refine .exec rfl fun r => ?_
  split <;> exact trivial

/-! ### The result store -/

theorem verifyStored_issues (key digest : String) (size : Int) :
    Issues P (lib.verifyStored key digest size) := by
  refine .plain rfl fun r => ?_
  split <;> exact trivial

theorem storeObject_issues (s : BatchResultStore) (r : String) (line : Bytes) (digest : String)
    (size : Int) : Issues P (s.storeObject lib r line digest size) := by
  refine .plain (isResultKey_resumableResultKey ..) fun r => ?_
  split <;> first | exact trivial | skip
  split <;> first | exact trivial | skip
  refine (verifyStored_issues ..).bind fun found => ?_
  split <;> first | exact trivial | skip
  refine .plain rfl fun env => .plain (isResultKey_fallbackResultKey ..) fun r => ?_
  split <;> exact trivial

theorem storeObject_returns (s : BatchResultStore) (r : String) (line : Bytes) (digest : String)
    (size : Int) : (s.storeObject lib r line digest size).Returns
      fun r => ∀ key, r = .ok key → isResultKey key = true := by
  refine Returns.lift_bind fun r => ?_
  split
  · rintro _ ⟨⟩
    exact isResultKey_resumableResultKey ..
  · split
    · exact nofun
    · refine (returns_true _).bind fun found _ => ?_
      split
      · rintro _ ⟨⟩
        exact isResultKey_resumableResultKey ..
      · refine Returns.lift_bind fun env => Returns.lift_bind fun r => ?_
        split
        · exact nofun
        · rintro _ ⟨⟩
          exact isResultKey_fallbackResultKey ..

/-- A checkpoint commits its result with the size and digest of the line. -/
theorem checkpointResult_commits (s : BatchResultStore) (msg : ResultItem) :
    Issues (fun st => ∃ key, st = .checkpoint s.batchID msg.requestID s.processorID s.epoch
        { msg.entryResult (lib.sha256 (lib.resultLine msg)) (lib.resultLine msg).length with
          resultKey := key })
      (s.checkpointResult lib msg) := by
  refine .plain rfl fun r => ?_
  split <;> first | exact trivial | skip
  split <;> first | exact trivial | skip
  refine Calls.bind_returns (storeObject_issues ..) (storeObject_returns s _ _ _ _) fun r hr => ?_
  split <;> first | exact trivial | skip
  refine ((checkpointEntryResult_issues ..).mono fun st hst => ⟨_, hst.1⟩).bind fun r => ?_
  split <;> first | exact trivial | skip
  split <;> first | exact trivial | skip
  exact .plain (hr _ rfl) fun r => trivial

theorem checkpointResult_issues (s : BatchResultStore) (msg : ResultItem) :
    Issues (fun st => ∃ result, st = .checkpoint s.batchID msg.requestID s.processorID s.epoch result ∧
        result.status.isTerminal = true)
      (s.checkpointResult lib msg) := by
  refine (checkpointResult_commits s msg).mono fun st hst => ?_
  obtain ⟨key, rfl⟩ := hst
  exact ⟨_, rfl, msg.entryResult_status (lib.sha256 (lib.resultLine msg))
    (lib.resultLine msg).length⟩

theorem putRejectedObjects_issues (s : BatchResultStore) {es : List ManifestEntry}
    (h : ∀ e ∈ es, e.rejected = true → isResultKey e.resultKey = true) :
    Issues P (s.putRejectedObjects lib es) := by
  induction es with
  | nil => exact trivial
  | cons e es ih =>
    obtain ⟨he, hes⟩ := List.forall_mem_cons.1 h
    unfold BatchResultStore.putRejectedObjects
    split
    next hrej =>
      refine Issues.bind (.plain (he hrej) fun r => ?_) fun r => ?_
      · split <;> first | exact trivial | skip
        split <;> first | exact trivial | skip
        refine (verifyStored_issues ..).bind fun found => ?_
        split <;> exact trivial
      · split
        · exact trivial
        · exact ih hes
    next => exact ih hes

theorem activateResumable_issues (s : BatchResultStore) (p : String) (ttl : Duration)
    {manifest : RequestManifest} (hm : manifest.WellFormed) :
    Issues (fun st => st = .activate ⟨s.batchID, p, s.epoch, ttl, manifest.activationEntries⟩ ∧
        manifest.activationEntries ≠ [])
      (s.activateResumable lib p ttl manifest) := by
  refine (putRejectedObjects_issues s hm.keys).bind fun r => ?_
  split <;> first | exact trivial | skip
  refine (activateResumableBatch_issues _).bind fun r => ?_
  split <;> exact trivial

/-! ### Artifacts and entry lists -/

theorem writeResult_issues (a : ArtifactWriter) (line : Bytes) : Issues P (a.writeResult line) := by
  refine Issues.bind ?_ fun r => ?_
  · unfold ArtifactWriter.ensure
    split
    · exact trivial
    · refine .plain rfl fun r => ?_
      split <;> first | exact trivial | skip
      split <;> exact trivial
  · split
    · exact trivial
    · unfold ArtifactWriter.write
      split
      · exact trivial
      · refine .plain rfl fun r => ?_
        split <;> exact trivial

theorem fetchPage_issues (es : List EntryRow) : Issues P (lib.fetchPage es) := by
  induction es with
  | nil => exact trivial
  | cons e es ih =>
    unfold Stdlib.fetchPage
    split
    · refine Issues.bind (.plain rfl fun r => ?_) fun r => ?_
      · split <;> first | exact trivial | skip
        split <;> first | exact trivial | skip
        split <;> exact trivial
      · split <;> first | exact trivial | skip
        refine ih.bind fun r => ?_
        split <;> exact trivial
    · refine ih.bind fun r => ?_
      split <;> exact trivial

theorem assembleEntry_issues (code : Option BatchErrorCode) (st : Assembly) (e : EntryRow)
    (data : Bytes) : Issues P (lib.assembleEntry code st e data) := by
  unfold Stdlib.assembleEntry
  dsimp only
  split
  · refine (writeResult_issues ..).bind fun r => ?_
    split <;> exact trivial
  · split <;>
    · refine (writeResult_issues ..).bind fun r => ?_
      split <;> exact trivial
  all_goals
    split
    · exact trivial
    · refine (writeResult_issues ..).bind fun r => ?_
      split <;> exact trivial

theorem assemblePage_issues (code : Option BatchErrorCode) (st : Assembly)
    (page : List (EntryRow × Bytes)) : Issues P (lib.assemblePage code st page) := by
  induction page generalizing st with
  | nil => exact trivial
  | cons x page ih =>
    refine (assembleEntry_issues ..).bind fun r => ?_
    split
    · exact trivial
    · exact ih _

theorem assemblePages_issues (jobID : String) (code : Option BatchErrorCode) (pages : Nat)
    (after : Int) (st : Assembly) : Issues P (lib.assemblePages jobID code pages after st) := by
  induction pages generalizing after st with
  | zero => exact trivial
  | succ pages ih =>
    refine .plain rfl fun r => ?_
    split <;> first | exact trivial | skip
    refine (fetchPage_issues _).bind fun r => ?_
    split <;> first | exact trivial | skip
    refine (assemblePage_issues ..).bind fun r => ?_
    split <;> first | exact trivial | skip
    split
    · exact trivial
    · exact ih _ _

theorem commitArtifact_assembles (a : ArtifactWriter) (publication : Publication) :
    Assembles (lib.commitArtifact a publication) := by
  unfold Stdlib.commitArtifact
  split
  · exact trivial
  · refine Assembles.bind (.artifact rfl fun r => ?_) fun r => ?_
    · split <;> first | exact trivial | skip
      split <;> exact trivial
    · split <;> first | exact trivial | skip
      refine .plain rfl fun r => ?_
      split <;> exact trivial
  · refine .artifact rfl fun r => ?_
    split <;> first | exact trivial | skip
    refine .plain rfl fun r => ?_
    split <;> exact trivial

theorem assembleResumableArtifacts_assembles (jobID : String) (code : Option BatchErrorCode) :
    Assembles (lib.assembleResumableArtifacts jobID code) := by
  refine .plain rfl fun env => (assemblePages_issues ..).assembles.bind fun r => ?_
  split <;> first | exact trivial | skip
  refine (commitArtifact_assembles ..).bind fun r => ?_
  split <;> first | exact trivial | skip
  refine (commitArtifact_assembles ..).bind fun r => ?_
  split <;> exact trivial

theorem listResumableEntries_issues (jobID : String) (pages : Nat) (after : Int) :
    Issues P (listResumableEntries jobID pages after) := by
  induction pages generalizing after with
  | zero => exact trivial
  | succ pages ih =>
    refine .plain rfl fun r => ?_
    split <;> first | exact trivial | skip
    split <;> first | exact trivial | skip
    refine (ih _).bind fun r => ?_
    split <;> exact trivial

theorem recoverResumable_issues (item : BatchItem) (manifest : RequestManifest) :
    Issues P (recoverResumable item manifest) := by
  refine .plain rfl fun env => (listResumableEntries_issues ..).bind fun r => ?_
  split <;> first | exact trivial | skip
  split <;> exact trivial

/-! ### Beside the run -/

theorem renewBatchLease_issues (p : String) (ttl : Duration) (item : BatchItem) :
    Issues (· = .renew item.id p item.epoch ttl) (renewBatchLease p ttl item) := by
  refine .plain rfl fun env => ?_
  induction Env.count env with
  | zero => exact trivial
  | succ ticks ih =>
    refine (renewResumableBatchLease_issues ..).bind fun r => ?_
    split
    · split
      · exact trivial
      · exact ih
    · exact ih

end BatchGateway
