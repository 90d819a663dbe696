import BatchGateway.Database.Client

/-! The status writes of a processor. -/
namespace BatchGateway

open Interleaving

/-- The document of one transition from the item's current status. The only modifier that callers
pass sets file IDs; empty IDs set nothing. -/
def buildStatus (job : BatchItem) (newStatus : BatchStatus) (counts : Option BatchRequestCounts)
    (slo : Option Time) (outputFileID errorFileID : String) (now : Time) :
    Except Err BatchStatusInfo :=
  match job.status with
  | none => .error ⟨"dbJob.Status is empty", .plain⟩
  | some original =>
    match buildUpdatedStatusInfo original newStatus counts slo now with
    | .error text => .error ⟨text, .plain⟩
    | .ok info => .ok (withFileIDs outputFileID errorFileID info)

theorem buildStatus_status {job : BatchItem} {newStatus : BatchStatus}
    {counts : Option BatchRequestCounts} {slo : Option Time} {out err : String} {now : Time}
    {doc : BatchStatusInfo} (h : buildStatus job newStatus counts slo out err now = .ok doc) :
    doc.status = newStatus := by
  unfold buildStatus at h
  split at h
  · cases h
  · split at h
    · cases h
    next hinfo =>
      cases h
      simpa using buildUpdatedStatusInfo_status hinfo

theorem buildStatus_error {job : BatchItem} {newStatus : BatchStatus}
    {counts : Option BatchRequestCounts} {slo : Option Time} {out err : String} {now : Time}
    {e : Err} (h : buildStatus job newStatus counts slo out err now = .error e) :
    e.kind = .plain := by
  unfold buildStatus at h
  split at h
  · cases h
    rfl
  · split at h <;> cases h
    rfl

/-- The row update that writes a document for the job. -/
def BatchItem.statusUpdate (job : BatchItem) (doc : BatchStatusInfo) : BatchItem where
  id := job.id
  status := some doc
  epoch := job.epoch
  expectedResumable := job.expectedResumable

/-- Write the document of a transition, fenced by the item's epoch and, when they are given, by the
resumable flag and the expected document. The item takes over a document that was written. -/
def updatePersistentStatusFrom (expectedStatus : Option BatchStatusInfo) (job : BatchItem)
    (newStatus : BatchStatus) (counts : Option BatchRequestCounts) (slo : Option Time)
    (outputFileID errorFileID : String) : Task (Except Err BatchItem) := do
  let env ← call .ask
  match buildStatus job newStatus counts slo outputFileID errorFileID env.now with
  | .error e => return .error e
  | .ok doc =>
    match ← dbUpdate (job.statusUpdate doc) expectedStatus with
    | .error e => return .error e
    | .ok () => return .ok { job with status := some doc }

def updatePersistentStatus (job : BatchItem) (newStatus : BatchStatus)
    (counts : Option BatchRequestCounts) (slo : Option Time) : Task (Except Err BatchItem) :=
  updatePersistentStatusFrom none job newStatus counts slo "" ""

/-- The only transition that compares the whole status document. -/
def updateFailedStatus (job : BatchItem) (counts : Option BatchRequestCounts)
    (outputFileID errorFileID : String) : Task (Except Err BatchItem) :=
  updatePersistentStatusFrom job.status job .failed counts none outputFileID errorFileID

def updateCancelledStatus (job : BatchItem) (counts : Option BatchRequestCounts)
    (outputFileID errorFileID : String) : Task (Except Err BatchItem) :=
  updatePersistentStatusFrom none job .cancelled counts none outputFileID errorFileID

def updateExpiredStatus (job : BatchItem) (counts : Option BatchRequestCounts)
    (outputFileID errorFileID : String) : Task (Except Err BatchItem) :=
  updatePersistentStatusFrom none job .expired counts none outputFileID errorFileID

end BatchGateway
