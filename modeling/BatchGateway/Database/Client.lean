import BatchGateway.World

/-! The store clients: argument checks, the statement, and what its row count means. -/
namespace BatchGateway

open Interleaving

/-- `processor` at `epoch`, as the error texts name an owner. -/
def ownerText (processorID : String) (epoch : Int) : String :=
  processorID ++ " at epoch " ++ toString epoch

def quoted (s : String) : String := "\"" ++ s ++ "\""

def pqEnqueue (jp : BatchJobPriority) : Task (Except Err Unit) :=
  if jp.id = "" then
    return .error ⟨"PQEnqueue: empty job ID", .plain⟩
  else if jp.epoch < 0 then
    return .error ⟨"PQEnqueue: invalid epoch for " ++ jp.id, .plain⟩
  else if jp.processorID = "" then
    return .error ⟨"PQEnqueue: empty processor ID for " ++ jp.id, .plain⟩
  else if jp.expectedStatus = none then
    return .error ⟨"PQEnqueue: empty expected status for " ++ jp.id, .plain⟩
  else do
    match ← call (.exec (.pqEnqueue jp)) with
    | .error e => return .error (e.wrap "PQEnqueue")
    | .ok false => return .error (.conflict
        ("PQEnqueue: " ++ jp.id ++ " is resumable, not owned, or already terminal"))
    | .ok true => return .ok ()

/-- Whether the job was still in the queue and is now cancelled. -/
def pqDelete (id : String) : Task (Except Err Bool) := do
  match ← call (.exec (.pqDelete id)) with
  | .error e => return .error (e.wrap "PQDelete")
  | .ok n => return .ok n

def activateResumableBatch (a : ResumableActivation) : Task (Except Err Unit) :=
  if a.batchID = "" ∨ a.processorID = "" then
    return .error ⟨"ActivateResumableBatch: batch ID and processor ID are required", .plain⟩
  else if a.leaseTTL ≤ 0 then
    return .error ⟨"ActivateResumableBatch: lease TTL must be > 0", .plain⟩
  else if a.entries = [] then
    return .error ⟨"ActivateResumableBatch: empty entry set for " ++ a.batchID, .plain⟩
  else do
    match ← call (.exec (.activate a)) with
    | .error e => return .error (e.wrap "ActivateResumableBatch")
    | .ok false => return .error (.conflict ("ActivateResumableBatch: " ++ a.batchID ++
        " is not owned at epoch " ++ toString a.epoch ++ " or already activated"))
    | .ok true => return .ok ()

def renewResumableBatchLease (batchID processorID : String) (epoch : Int) (ttl : Duration) :
    Task (Except Err Unit) :=
  if ttl ≤ 0 then
    return .error ⟨"RenewResumableBatchLease: lease TTL must be > 0", .plain⟩
  else do
    match ← call (.exec (.renew batchID processorID epoch ttl)) with
    | .error e => return .error (e.wrap "RenewResumableBatchLease")
    | .ok false => return .error (.conflict ("RenewResumableBatchLease: " ++ batchID ++
        " is not owned by " ++ ownerText processorID epoch))
    | .ok true => return .ok ()

/-- A requeue that matches nothing raced with the current owner and succeeds without effect. -/
def requeueResumableOrphan (batchID processorID : String) (epoch : Int)
    (requireExpiredLease bumpAttempts : Bool) : Task (Except Err Unit) := do
  match ← call (.exec (.requeue batchID processorID epoch requireExpiredLease bumpAttempts)) with
  | .error e => return .error (e.wrap "RequeueResumableOrphan")
  | .ok false => return .ok ()
  | .ok true =>
    match ← call (.exec (.recordSubmitter batchID processorID epoch)) with
    | .error e => return .error (e.wrap "RequeueResumableOrphan: record submitter")
    | .ok _ => return .ok ()

/-- A transition that matches nothing is verified: a row that already holds the document was
written by an earlier attempt. -/
def finalizeResumableBatch (fin : ResumableFinalization) : Task (Except Err Unit) :=
  match fin.expectedStatus with
  | none =>
    return .error ⟨"FinalizeResumableBatch: expected and target status are required", .plain⟩
  | some expected =>
    if fin.batchID = "" ∨ fin.processorID = "" then
      return .error ⟨"FinalizeResumableBatch: batch ID and processor ID are required", .plain⟩
    else do
      match ← call (.exec (.finalize fin)) with
      | .error e => return .error (e.wrap "FinalizeResumableBatch")
      | .ok true => return .ok ()
      | .ok false =>
        match ← call (.committedStatus fin.batchID) with
        | .error e =>
          return .error (e.wrap
            ("FinalizeResumableBatch: verify committed status of " ++ fin.batchID))
        | .ok committed =>
          if committed = some fin.status then return .ok ()
          else return .error (.conflict ("FinalizeResumableBatch: " ++ fin.batchID ++
            " is not owned by " ++ ownerText fin.processorID fin.epoch ++
            " in status " ++ quoted expected.text))

/-- Why an entry write matched nothing: a terminal entry is a duplicate delivery, anything else a
lost ownership. -/
def entryNotUpdatable (op batchID requestID processorID : String) (epoch : Int) :
    Task (Except Err Bool) := do
  match ← call (.entryStatus batchID requestID processorID epoch) with
  | .error _ | .ok none => return .error (.conflict (op ++ ": " ++ batchID ++ "/" ++ requestID ++
      " is not owned by " ++ ownerText processorID epoch))
  | .ok (some status) =>
    if status.isTerminal then return .ok false
    else return .error (.conflict (op ++ ": " ++ batchID ++ "/" ++ requestID ++ " is " ++
      quoted status.text ++ " but not updatable by " ++ ownerText processorID epoch))

def markEntryInFlight (batchID requestID processorID : String) (epoch : Int) :
    Task (Except Err Bool) := do
  match ← call (.exec (.mark batchID requestID processorID epoch)) with
  | .error e => return .error (e.wrap "MarkEntryInFlight")
  | .ok true => return .ok true
  | .ok false => entryNotUpdatable "MarkEntryInFlight" batchID requestID processorID epoch

def checkpointEntryResult (batchID requestID processorID : String) (epoch : Int)
    (result : ResumableResult) : Task (Except Err Bool) :=
  if result.status.isTerminal = false then
    return .error ⟨"CheckpointEntryResult: status must be " ++ quoted EntryStatus.completed.text ++
      " or " ++ quoted EntryStatus.failed.text ++ ", got " ++ quoted result.status.text, .plain⟩
  else do
    match ← call (.exec (.checkpoint batchID requestID processorID epoch result)) with
    | .error e => return .error (e.wrap "CheckpointEntryResult")
    | .ok true => return .ok true
    | .ok false => entryNotUpdatable "CheckpointEntryResult" batchID requestID processorID epoch

/-- An update without anything to set is not sent at all. -/
def dbUpdate (item : BatchItem) (expectedStatus : Option BatchStatusInfo) :
    Task (Except Err Unit) :=
  if item.id = "" then
    return .error ⟨"ID is empty", .plain⟩
  else if item.status = none ∧ item.tags = [] then
    return .ok ()
  else do
    match ← call (.exec (.dbUpdate item expectedStatus)) with
    | .error e => return .error e
    | .ok true => return .ok ()
    | .ok false =>
      if expectedStatus.isSome ∨ 0 < item.epoch ∨ item.bumpEpoch ∨ item.expectedResumable.isSome then
        return .error (.conflict "DBUpdate")
      else return .error ⟨"DBUpdate: item " ++ item.id ++ " not found", .plain⟩

def dbUpdateProgress (id : String) (epoch : Int) (counts : BatchRequestCounts) :
    Task (Except Err Unit) :=
  if id = "" then
    return .error ⟨"DBUpdateProgress: empty ID", .plain⟩
  else do
    match ← call (.exec (.updateProgress id epoch counts)) with
    | .error e => return .error (e.wrap "DBUpdateProgress")
    | .ok false => return .error (.conflict "DBUpdateProgress")
    | .ok true => return .ok ()

end BatchGateway
