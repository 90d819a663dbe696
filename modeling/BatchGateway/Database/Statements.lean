import BatchGateway.Database.Types

/-! The SQL statements of the store, each as a function on one batch. A statement is atomic; it
returns `none` when no row matched and the batch after the write otherwise. -/
namespace BatchGateway

variable {b b' : BatchState} {now : Time}

/-- `NOW() + make_interval(secs => d)` -/
def leaseUntil (now : Time) (d : Duration) : Time := now + Duration.seconds d * 1000000

/-- An empty string is written as `NULL`. -/
def orNull (s : String) : Option String := if s = "" then none else some s

theorem orNull_getD (s : String) : (orNull s).getD "" = s := by
  unfold orNull
  split
  next h => rw [h]; rfl
  next => rfl

/-! ### The queue -/

/-- The re-enqueue of a claimed, non-resumable job. -/
def pqEnqueueStmt (jp : BatchJobPriority) (b : BatchState) : Option BatchState :=
  if b.row.id = jp.id ∧ b.row.epoch = jp.epoch ∧ b.row.processorID = some jp.processorID ∧
      some b.row.status.status = jp.expectedStatus ∧ b.row.resumable = false ∧ b.row.NonTerminal then
    some { b with row := { b.row with
      processorID := none
      status := { b.row.status with status := .validating }
      epoch := b.row.epoch + 1 } }
  else none

/-- The claim of an unowned job: a fresh one, or a requeued resumable one when the lease is
positive. -/
def pqDequeueStmt (now : Time) (processorID : String) (lease : Duration) (b : BatchState) :
    Option BatchState :=
  if b.row.processorID = none ∧
      ((b.row.resumable = false ∧ b.row.status.status = .validating) ∨
        (b.row.resumable = true ∧ 0 < Duration.seconds lease ∧ b.row.NonTerminal)) then
    some { b with row := { b.row with
      processorID := some processorID
      epoch := b.row.epoch + 1
      recoveryAttempts := if b.row.resumable then b.row.recoveryAttempts else 0
      ownerLeaseExpiresAt := if b.row.resumable then some (leaseUntil now lease) else none } }
  else none

/-- The job that the claim of a row returns. -/
def pqDequeueTask (processorID : String) (row : BatchRow) : BatchJobPriority where
  id := row.id
  slo := row.priority
  epoch := row.epoch
  processorID := processorID
  expectedStatus := some row.status.status
  resumable := row.resumable

/-- The startup claim of a job that the processor already owns. -/
def pqClaimOwnedStmt (processorID : String) (b : BatchState) : Option BatchState :=
  if b.row.processorID = some processorID ∧ b.row.NonTerminal then
    some { b with row := { b.row with
      epoch := b.row.epoch + 1
      recoveryAttempts := b.row.recoveryAttempts + 1 } }
  else none

/-- The job that a startup claim returns: its processor and its expected status stay empty. -/
def pqClaimOwnedTask (row : BatchRow) : BatchJobPriority where
  id := row.id
  slo := row.priority
  epoch := row.epoch
  recoveryAttempts := row.recoveryAttempts
  resumable := row.resumable

/-- The cancellation of a job that is still in the queue. -/
def pqDeleteStmt (id : String) (now : Time) (b : BatchState) : Option BatchState :=
  if b.row.id = id ∧ b.row.processorID = none ∧ b.row.resumable = false ∧
      b.row.status.status = .validating then
    some { b with row := { b.row with
      status := { b.row.status with status := .cancelled, cancelledAt := some (Time.unix now) }
      epoch := b.row.epoch + 1 } }
  else none

/-! ### Resumable batches -/

/-- The row that activation inserts for one entry. -/
def activationRow (now : Time) (e : ResumableActivationEntry) : EntryRow where
  requestID := e.requestID
  ordinal := e.ordinal
  customID := e.customID
  status := e.entryStatus
  resultKey := orNull e.resultKey
  resultBytes := if e.resultBytes = 0 then none else some e.resultBytes
  resultSHA256 := orNull e.resultSHA256
  errorCode := orNull e.errorCode
  createdAt := now
  updatedAt := now
  completedAt := if e.entryStatus = .failed then some now else none

/-- The row that the activation writes. -/
def activatedRow (now : Time) (a : ResumableActivation) (row : BatchRow) : BatchRow :=
  { row with
    status := { row.status with status := .inProgress, inProgressAt := some (Time.unix now) }
    resumable := true
    ownerLeaseExpiresAt := some (leaseUntil now a.leaseTTL) }

/-- The activation: the entry set is inserted and the row becomes resumable in one statement, unless
a constraint of `batch_entries` is violated. -/
def activateStmt (now : Time) (a : ResumableActivation) (b : BatchState) :
    Except Err (Option BatchState) :=
  if b.row.id = a.batchID ∧ b.row.processorID = some a.processorID ∧ b.row.epoch = a.epoch ∧
      b.row.status.status = .validating ∧ b.row.resumable = false ∧ b.entries.rows = [] then
    if h : (a.entries.map ResumableActivationEntry.requestID).Nodup then
      if ∀ e ∈ a.entries, (EntryStatus.ofText? e.status).isSome then
        .ok (some ⟨activatedRow now a b.row, a.entries.map (activationRow now),
          by rw [List.map_map]; exact h⟩)
      else .error ⟨"new row for relation \"batch_entries\" violates check constraint", .plain⟩
    else .error ⟨"duplicate key value violates unique constraint", .plain⟩
  else .ok none

theorem activateStmt_some {a : ResumableActivation} (h : activateStmt now a b = .ok (some b')) :
    (b.row.id = a.batchID ∧ b.row.processorID = some a.processorID ∧ b.row.epoch = a.epoch ∧
      b.row.status.status = .validating ∧ b.row.resumable = false ∧ b.entries.rows = []) ∧
    b'.row = activatedRow now a b.row ∧ b'.entries.rows = a.entries.map (activationRow now) := by
  unfold activateStmt at h
  split at h
  next hg =>
    split at h
    · split at h <;> cases h
      exact ⟨hg, rfl, rfl⟩
    · cases h
  next => cases h

def renewStmt (now : Time) (batchID processorID : String) (epoch : Int) (ttl : Duration)
    (b : BatchState) : Option BatchState :=
  if b.row.id = batchID ∧ b.row.processorID = some processorID ∧ b.row.epoch = epoch ∧
      b.row.resumable = true ∧ b.row.LeaseHeld now ∧ b.row.NonTerminal then
    some { b with row := { b.row with ownerLeaseExpiresAt := some (leaseUntil now ttl) } }
  else none

/-- First statement of a requeue: give up the ownership of a resumable batch. -/
def requeueStmt (now : Time) (batchID processorID : String) (epoch : Int)
    (requireExpiredLease bumpAttempts : Bool) (b : BatchState) : Option BatchState :=
  if b.row.id = batchID ∧ b.row.processorID = some processorID ∧ b.row.epoch = epoch ∧
      b.row.resumable = true ∧ b.row.NonTerminal ∧
      (requireExpiredLease = true → b.row.LeaseLapsed now) then
    some { b with row := { b.row with
      processorID := none
      ownerLeaseExpiresAt := none
      epoch := b.row.epoch + 1
      recoveryAttempts :=
        if bumpAttempts then b.row.recoveryAttempts + 1 else b.row.recoveryAttempts } }
  else none

def EntryRow.NeedsSubmitter (r : EntryRow) : Prop := r.status = .inFlight ∧ r.submittedBy = none

instance (r : EntryRow) : Decidable r.NeedsSubmitter := inferInstanceAs (Decidable (_ ∧ _))

/-- An in-flight entry without a submitter gets one. -/
def EntryRow.recordSubmitter (processorID : String) (r : EntryRow) : EntryRow :=
  if r.NeedsSubmitter then { r with submittedBy := some processorID } else r

theorem EntryRow.recordSubmitter_requestID (processorID : String) (r : EntryRow) :
    (r.recordSubmitter processorID).requestID = r.requestID := by
  unfold recordSubmitter
  split <;> rfl

/-- Second statement of a requeue. It is not fenced. -/
def recordSubmitterStmt (batchID processorID : String) (b : BatchState) : Option BatchState :=
  if b.row.id = batchID ∧ ∃ r ∈ b.entries.rows, r.NeedsSubmitter then
    some { b with entries := b.entries.mapRows _ (EntryRow.recordSubmitter_requestID processorID) }
  else none

/-- The terminal transition. Its guard names the source status and nothing else about it. -/
def finalizeStmt (now : Time) (fin : ResumableFinalization) (b : BatchState) : Option BatchState :=
  if b.row.id = fin.batchID ∧ b.row.processorID = some fin.processorID ∧
      b.row.epoch = fin.epoch ∧ b.row.resumable = true ∧ b.row.LeaseHeld now ∧
      some b.row.status.status = fin.expectedStatus then
    some { b with row := { b.row with
      status := fin.status
      resumable := false
      ownerLeaseExpiresAt := none } }
  else none

/-- The ownership fence that entry writes share. -/
def OwnerLock (now : Time) (batchID processorID : String) (epoch : Int) (row : BatchRow) : Prop :=
  row.id = batchID ∧ row.processorID = some processorID ∧ row.epoch = epoch ∧
    row.LeaseHeld now ∧ row.resumable = true ∧ row.NonTerminal

instance (now : Time) (batchID processorID : String) (epoch : Int) (row : BatchRow) :
    Decidable (OwnerLock now batchID processorID epoch row) :=
  inferInstanceAs (Decidable (_ ∧ _))

/-- An entry write: it needs the ownership fence and an open entry. -/
def entryStmt (now : Time) (batchID requestID processorID : String) (epoch : Int)
    (f : EntryRow → EntryRow) (hf : ∀ r, (f r).requestID = r.requestID) (b : BatchState) :
    Option BatchState :=
  if OwnerLock now batchID processorID epoch b.row ∧
      ∃ r ∈ b.entries.rows, r.requestID = requestID ∧ r.IsOpen then
    some { b with entries := b.entries.updateOpen requestID f hf }
  else none

/-- What marking does to an entry. -/
def EntryRow.mark (now : Time) (processorID : String) (r : EntryRow) : EntryRow :=
  { r with
    status := .inFlight
    attempts := r.attempts + 1
    submittedBy := some processorID
    updatedAt := now }

/-- What committing a result does to an entry. -/
def EntryRow.commit (now : Time) (result : ResumableResult) (r : EntryRow) : EntryRow :=
  { r with
    status := result.status
    resultKey := orNull result.resultKey
    resultBytes := if 0 < result.resultBytes then some result.resultBytes else none
    resultSHA256 := orNull result.resultSHA256
    errorCode := orNull result.errorCode
    completedAt := some now
    updatedAt := now }

theorem EntryRow.mark_requestID (now : Time) (processorID : String) (r : EntryRow) :
    (r.mark now processorID).requestID = r.requestID := rfl

theorem EntryRow.commit_requestID (now : Time) (result : ResumableResult) (r : EntryRow) :
    (r.commit now result).requestID = r.requestID := rfl

def markStmt (now : Time) (batchID requestID processorID : String) (epoch : Int) :
    BatchState → Option BatchState :=
  entryStmt now batchID requestID processorID epoch _ (EntryRow.mark_requestID now processorID)

def checkpointStmt (now : Time) (batchID requestID processorID : String) (epoch : Int)
    (result : ResumableResult) : BatchState → Option BatchState :=
  entryStmt now batchID requestID processorID epoch _ (EntryRow.commit_requestID now result)

/-! ### The batch table -/

/-- `request_counts` of a non-terminal batch, fenced by the epoch alone. -/
def updateProgressStmt (id : String) (epoch : Int) (counts : BatchRequestCounts) (b : BatchState) :
    Option BatchState :=
  if b.row.id = id ∧ b.row.NonTerminal ∧ b.row.epoch = epoch then
    some { b with row := { b.row with status := { b.row.status with requestCounts := counts } } }
  else none

/-- The general row update. The epoch is compared when it is positive or bumped, the resumable
flag and the whole status document only when the caller gives them. -/
def dbUpdateStmt (item : BatchItem) (expectedStatus : Option BatchStatusInfo) (b : BatchState) :
    Option BatchState :=
  if b.row.id = item.id ∧ (∀ doc ∈ expectedStatus, b.row.status = doc) ∧
      ((0 < item.epoch ∨ item.bumpEpoch = true) → b.row.epoch = item.epoch) ∧
      (∀ flag ∈ item.expectedResumable, b.row.resumable = flag) then
    some { b with row := { b.row with
      status := item.status.getD b.row.status
      tags := if item.tags = [] then b.row.tags else item.tags
      epoch := if item.bumpEpoch then b.row.epoch + 1 else b.row.epoch } }
  else none

end BatchGateway
