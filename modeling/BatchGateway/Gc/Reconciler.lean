import BatchGateway.Worker.StatusUpdater

/-! The reconciler: it looks for jobs whose processor is gone. -/
namespace BatchGateway

open Interleaving

structure Reconciler where
  dryRun : Bool := false

namespace Reconciler

variable (r : Reconciler)

def isSLOExpired (job : BatchItem) (now : Time) : Bool := 0 < job.priority ∧ job.priority < now

/-- A resumable batch is requeued when its owner is dead or let the lease lapse. -/
def triageResumable (live : List String) (job : BatchItem) : Task (Except Err Unit) := do
  let env ← call .ask
  let ownerAlive := decide (job.processorID ∈ live)
  if ownerAlive ∧ job.ownerLeaseExpiresAt.any (env.now < ·) then return .ok ()
  else if r.dryRun then return .ok ()
  else requeueResumableOrphan job.id job.processorID job.epoch ownerAlive true

/-- The row update that moves an orphan to its target status. -/
def orphanUpdate (job : BatchItem) (doc : BatchStatusInfo) : BatchItem where
  id := job.id
  status := some doc
  epoch := job.epoch
  bumpEpoch := true
  expectedResumable := some false

def transitionOrphan (job : BatchItem) (statusInfo : BatchStatusInfo) (target : BatchStatus) :
    Task (Except Err Unit) := do
  let env ← call .ask
  match buildUpdatedStatusInfo statusInfo target none none env.now with
  | .error text => return .error ⟨text, .plain⟩
  | .ok doc =>
    if r.dryRun then return .ok ()
    else dbUpdate (orphanUpdate job doc) job.status

def reEnqueueOrphan (job : BatchItem) (expectedStatus : BatchStatus) : Task (Except Err Unit) :=
  if job.priority ≤ 0 then return .error ⟨"missing priority", .plain⟩
  else if r.dryRun then return .ok ()
  else pqEnqueue { id := job.id, slo := job.priority, epoch := job.epoch,
                   processorID := job.processorID, expectedStatus := some expectedStatus }

/-- A job of a dead processor that is not resumable. -/
def triageOrphan (job : BatchItem) : Task (Except Err Unit) := do
  match job.status with
  | none => return .error ⟨"unexpected end of JSON input", .plain⟩
  | some statusInfo =>
    if statusInfo.status = .cancelling then r.transitionOrphan job statusInfo .cancelled
    else
      let env ← call .ask
      if isSLOExpired job env.now then r.transitionOrphan job statusInfo .failed
      else r.reEnqueueOrphan job statusInfo.status

def triageJob (live : List String) (job : BatchItem) : Task (Except Err Unit) :=
  if job.resumable then r.triageResumable live job
  else if job.processorID ∈ live then return .ok ()
  else r.triageOrphan job

def triageJobs (live : List String) : List BatchItem → Task (Except Err Unit)
  | [] => return .ok ()
  | job :: jobs => do
    let _ ← r.triageJob live job
    triageJobs live jobs

/-- One cycle. The set of live processors is read before the jobs. -/
def run : Task (Except Err Unit) := do
  let env ← call .ask
  match ← call .fetchOwned with
  | .error e => return .error e
  | .ok jobs => r.triageJobs env.live jobs

end Reconciler
end BatchGateway
