import BatchGateway.Worker.Recovery
import BatchGateway.Worker.ResultStore

/-! A processor's work on one job: the pickup after a dequeue, the run, and what runs beside it.
Each program returns the error that it logs. -/
namespace BatchGateway

open Interleaving

/-- Forget a value that nothing uses. -/
def ignore {α : Type} (r : Except Err α) : Except Err Unit := r.map fun _ => ()

/-! ### Ends of a job -/

def handleFailed (item : BatchItem) (counts : Option BatchRequestCounts) :
    Task (Except Err Unit) := do
  return ignore (← updateFailedStatus item counts "" "")

def handleExpired (item : BatchItem) (counts : Option BatchRequestCounts) :
    Task (Except Err Unit) := do
  return ignore (← updateExpiredStatus item counts "" "")

/-- A cancellation that cannot be written falls back to failed. -/
def handleCancelled (item : BatchItem) (counts : Option BatchRequestCounts) :
    Task (Except Err Unit) := do
  match ← updateCancelledStatus item counts "" "" with
  | .ok _ => return .ok ()
  | .error e =>
    match ← updateFailedStatus item counts "" "" with
    | .error _ => return .error (e.wrap "failed to update job status to cancelled")
    | .ok _ => return .error ⟨"cancelled status write failed", .plain⟩

/-- The end of a job whose ingestion or execution failed. An activated or resumed batch is
finalized through its entries, any other one by a plain status write. -/
def handleJobError (lib : Stdlib) (p : Processor) (item : BatchItem) (durable : Bool)
    (counts : Option BatchRequestCounts) (err : Err) : Task (Except Err Unit) :=
  if durable then
    match err.kind with
    | .cancelled =>
      finalizeResumableAs lib p.processorID item .cancelled .batchCancelled .cancelling
    | .expired => finalizeResumableAs lib p.processorID item .expired .batchExpired .inProgress
    | .shutdown => return .ok ()
    | _ => finalizeResumableAs lib p.processorID item .failed .batchFailed .inProgress
  else
    match err.kind with
    | .cancelled => handleCancelled item counts
    | .expired => handleExpired item counts
    | .shutdown => return .ok ()
    | _ => handleFailed item counts

/-! ### The run -/

/-- The abort of a job that lost its owner carries none of the known causes. -/
def isNeutralAbort (cause : Option Err) : Bool :=
  cause.any fun e => e.kind ≠ .cancelled ∧ e.kind ≠ .expired ∧ e.kind ≠ .shutdown

/-- The item takes over the status that the activation wrote, and nothing else of the row. -/
def refreshStatus (item : BatchItem) : Except Err (Option BatchItem) → BatchItem
  | .ok (some fresh) => { item with status := fresh.status }
  | _ => item

theorem refreshStatus_epoch (item : BatchItem) (fresh : Except Err (Option BatchItem)) :
    (refreshStatus item fresh).epoch = item.epoch := by
  unfold refreshStatus
  split <;> rfl

/-- Execution and finalization of an activated batch. Whoever lost the ownership stops without a
write. -/
def runActivated (lib : Stdlib) (p : Processor) (jobItem : BatchItem) : Task (Except Err Unit) := do
  let fresh ← call (.fetch .refresh jobItem.id)
  let item := refreshStatus jobItem fresh
  call (.go (.renewal p.processorID item))
  call (.go (.requests p.processorID item))
  let env ← call .ask
  if isNeutralAbort env.cause then return .ok ()
  else match env.outcome with
    | .error e =>
      if e.isConflict then return .ok ()
      else handleJobError lib p item true none e
    | .ok _ =>
      match ← finalizeResumableJob lib p.processorID item with
      | .error e => if e.isConflict then return .ok () else return .error e
      | .ok () => return .ok ()

/-- Activate a fresh batch or check a resumed one. -/
def activateOrRecover (lib : Stdlib) (p : Processor) (item : BatchItem) (task : BatchJobPriority)
    (manifest : RequestManifest) : Task (Except Err Unit) :=
  let sink : BatchResultStore := ⟨item.id, p.processorID, item.epoch, 0⟩
  if task.resumable then recoverResumable item manifest
  else sink.activateResumable lib item.processorID p.leaseDuration manifest

def runManifest (lib : Stdlib) (p : Processor) (item : BatchItem) (task : BatchJobPriority)
    (manifest : RequestManifest) : Task (Except Err Unit) := do
  match ← activateOrRecover lib p item task manifest with
  | .ok () => runActivated lib p item
  | .error e =>
    if e.isConflict then return .ok ()
    else if task.resumable then
      match getJobStatus item with
      | some expected => finalizeResumableAs lib p.processorID item .failed .batchFailed expected
      | none => return .error e
    else handleFailed item none

/-- Ingestion: the input file becomes a manifest. -/
def runIngestion (lib : Stdlib) (p : Processor) (item : BatchItem) (task : BatchJobPriority) :
    Task (Except Err Unit) := do
  let env ← call .ask
  match env.ingested with
  | .error e => handleJobError lib p item task.resumable none e
  | .ok lines =>
    match lib.ingest item.id p.registered lines with
    | .error e => handleJobError lib p item task.resumable none e
    | .ok manifest => runManifest lib p item task manifest

/-- Give a job back to the queue. -/
def returnToQueue (item : BatchItem) (task : BatchJobPriority) : Task (Except Err Unit) := do
  match ← pqEnqueue task with
  | .error _ => handleFailed item none
  | .ok () => return .ok ()

/-- Wait for cancel events, then ingest and run. -/
def runFromEvents (lib : Stdlib) (p : Processor) (item : BatchItem) (task : BatchJobPriority) :
    Task (Except Err Unit) := do
  match ← call .eventChannel with
  | .error _ =>
    if task.resumable then
      requeueResumableOrphan task.id item.processorID item.epoch false true
    else returnToQueue item task
  | .ok () => runIngestion lib p item task

def runJob (lib : Stdlib) (p : Processor) (item : BatchItem) (task : BatchJobPriority) :
    Task (Except Err Unit) :=
  if task.resumable then do
    call (.go (.renewal p.processorID item))
    match ← routeResumedPickup lib p item task with
    | some result => return result
    | none => runFromEvents lib p item task
  else runFromEvents lib p item task

/-- One round of the polling loop after the dequeue returned a job. -/
def pollJob (lib : Stdlib) (p : Processor) (task : BatchJobPriority) : Task (Except Err Unit) := do
  match ← call (.fetch .polling task.id) with
  | .error _ => pqEnqueue task
  | .ok none => return .ok ()
  | .ok (some item) =>
    match dbItemToBatch item with
    | .error _ => handleFailed item none
    | .ok batch =>
      let env ← call .ask
      let status := batch.map BatchStatusInfo.status
      if task.resumable = false ∧ isJobExpired task env.now then
        return ignore (← updatePersistentStatus item .expired none none)
      else if task.resumable = false ∧ status.any isJobRunnable = false then
        if status = some .cancelling then
          return ignore (← updateCancelledStatus item none "" "")
        else return .ok ()
      else if env.flag then
        -- the polling context was cancelled between the dequeue and here
        if task.resumable then
          requeueResumableOrphan task.id p.processorID task.epoch false true
        else returnToQueue item task
      else runJob lib p item task

/-! ### Beside the run -/

/-- The renewals of a lease, one per tick, until ownership is lost or the job ends. -/
def renewBatchLeaseTicks (jobID processorID : String) (epoch : Int) (ttl : Duration) :
    Nat → Task (Except Err Unit)
  | 0 => return .ok ()
  | ticks + 1 => do
    match ← renewResumableBatchLease jobID processorID epoch ttl with
    | .error e =>
      if e.isConflict then return .ok ()
      else renewBatchLeaseTicks jobID processorID epoch ttl ticks
    | .ok () => renewBatchLeaseTicks jobID processorID epoch ttl ticks

def renewBatchLease (processorID : String) (ttl : Duration) (item : BatchItem) :
    Task (Except Err Unit) := do
  let env ← call .ask
  renewBatchLeaseTicks item.id processorID item.epoch ttl env.count

/-- One piece of work of the pipeline: the mark before a dispatch, the checkpoint of a result or a
progress write. -/
def handleWork (lib : Stdlib) (processorID : String) (item : BatchItem) : Work → Task (Except Err Unit)
  | .mark requestID => do
    return ignore (← markEntryInFlight item.id requestID processorID item.epoch)
  | .checkpoint msg => do
    let sink : BatchResultStore := ⟨item.id, processorID, item.epoch, 0⟩
    return ignore (← sink.checkpointResult lib msg)
  | .progress counts => dbUpdateProgress item.id item.epoch counts

end BatchGateway
