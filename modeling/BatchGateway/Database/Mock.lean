import BatchGateway.Database.Client

/-! The in-memory store that the tests use in place of the database. -/
namespace BatchGateway

/-- An entry as the stores return it. Its status is a text. -/
structure ResumableEntry where
  batchID : String
  requestID : String
  ordinal : Int
  customID : String
  status : String
  attempts : Int := 0
  submittedBy : String := ""
  resultKey : String := ""
  resultBytes : Int := 0
  resultSHA256 : String := ""
  errorCode : String := ""
  deriving DecidableEq, Repr

def ResumableEntry.isTerminal (e : ResumableEntry) : Bool :=
  e.status = EntryStatus.completed.text ∨ e.status = EntryStatus.failed.text

/-- The zero value of a point in time, in nanoseconds. -/
def zeroTime : Int := Time.zero * 1000

structure MockResumableBatch where
  processorID : String
  epoch : Int
  recoveryAttempts : Int := 0
  resumable : Bool := false
  terminal : Bool := false
  /-- Nanoseconds. -/
  leaseExpiresAt : Int := zeroTime
  /-- Ordered by ordinal. -/
  entries : List ResumableEntry := []
  statusName : String := ""
  statusDoc : Option BatchStatusInfo := none
  deriving DecidableEq, Repr

namespace MockResumableBatch

variable (b : MockResumableBatch) (now : Time)

/-- The lease ends after the given moment. -/
def leaseAfter : Bool := now * 1000 < b.leaseExpiresAt

/-- The ownership predicate of entry writes. -/
def ownedFence (processorID : String) (epoch : Int) : Bool :=
  !b.terminal && b.resumable && b.processorID = processorID && b.epoch = epoch && b.leaseAfter now

end MockResumableBatch

/-- The batches by their IDs. -/
abbrev MockResumableStore := List (String × MockResumableBatch)

namespace MockResumableStore

variable (m : MockResumableStore) (now : Time)

def find (batchID : String) : Option MockResumableBatch :=
  (m.find? (·.1 = batchID)).map Prod.snd

def set (batchID : String) (b : MockResumableBatch) : MockResumableStore :=
  m.map fun p => if p.1 = batchID then (batchID, b) else p

def markTerminal (batchID : String) : MockResumableStore :=
  match m.find batchID with
  | some b => m.set batchID { b with terminal := true }
  | none => m

def setBatchStatus (batchID statusName : String) : MockResumableStore :=
  match m.find batchID with
  | some b => m.set batchID { b with statusName }
  | none => m

/-- The entry that an activation adds. -/
def newEntry (batchID : String) (e : ResumableActivationEntry) : ResumableEntry where
  batchID
  requestID := e.requestID
  ordinal := e.ordinal
  customID := e.customID
  status := e.status
  resultKey := e.resultKey
  resultBytes := e.resultBytes
  resultSHA256 := e.resultSHA256
  errorCode := e.errorCode

def activateResumableBatch (a : ResumableActivation) : MockResumableStore × Except Err Unit :=
  if a.batchID = "" ∨ a.processorID = "" then
    (m, .error ⟨"ActivateResumableBatch: batch ID and processor ID are required", .plain⟩)
  else if a.leaseTTL ≤ 0 then
    (m, .error ⟨"ActivateResumableBatch: lease TTL must be > 0", .plain⟩)
  else if a.entries = [] then
    (m, .error ⟨"ActivateResumableBatch: empty entry set for " ++ a.batchID, .plain⟩)
  else
    let conflict := .error (.conflict ("ActivateResumableBatch: " ++ a.batchID ++
      " is not owned at epoch " ++ toString a.epoch ++ " or already activated"))
    match m.find a.batchID with
    | none => (m, conflict)
    | some b =>
      if b.terminal ∨ b.resumable ∨ b.entries ≠ [] ∨ b.processorID ≠ a.processorID ∨
          b.epoch ≠ a.epoch then (m, conflict)
      else (m.set a.batchID { b with
        entries := (b.entries ++ a.entries.map (newEntry a.batchID)).insertionSort
          (·.ordinal ≤ ·.ordinal)
        resumable := true
        leaseExpiresAt := now * 1000 + a.leaseTTL
        statusName := "in_progress" }, .ok ())

def renewResumableBatchLease (batchID processorID : String) (epoch : Int) (ttl : Duration) :
    MockResumableStore × Except Err Unit :=
  if ttl ≤ 0 then
    (m, .error ⟨"RenewResumableBatchLease: lease TTL must be > 0", .plain⟩)
  else
    let conflict := .error (.conflict ("RenewResumableBatchLease: " ++ batchID ++
      " is not owned by " ++ ownerText processorID epoch))
    match m.find batchID with
    | none => (m, conflict)
    | some b =>
      if b.terminal ∨ b.resumable = false ∨ b.processorID ≠ processorID ∨ b.epoch ≠ epoch ∨
          b.leaseAfter now = false then (m, conflict)
      else (m.set batchID { b with leaseExpiresAt := now * 1000 + ttl }, .ok ())

def finalizeResumableBatch (fin : ResumableFinalization) : MockResumableStore × Except Err Unit :=
  if fin.batchID = "" ∨ fin.processorID = "" then
    (m, .error ⟨"FinalizeResumableBatch: batch ID and processor ID are required", .plain⟩)
  else match fin.expectedStatus with
    | none =>
      (m, .error ⟨"FinalizeResumableBatch: expected and target status are required", .plain⟩)
    | some expected =>
      let conflict := .error (.conflict ("FinalizeResumableBatch: " ++ fin.batchID ++
        " is not owned by " ++ ownerText fin.processorID fin.epoch ++
        " in status " ++ quoted expected.text))
      match m.find fin.batchID with
      | none => (m, conflict)
      | some b =>
        if b.ownedFence now fin.processorID fin.epoch ∧ b.statusName = expected.text then
          (m.set fin.batchID { b with
            statusDoc := some fin.status
            terminal := true
            resumable := false
            leaseExpiresAt := zeroTime }, .ok ())
        else if b.terminal ∧ b.statusDoc = some fin.status then (m, .ok ())
        else (m, conflict)

/-- The orphaned owner becomes the submitter of its in-flight entries. -/
def recordSubmitter (processorID : String) (e : ResumableEntry) : ResumableEntry :=
  if e.status = EntryStatus.inFlight.text ∧ e.submittedBy = "" then
    { e with submittedBy := processorID } else e

def requeueResumableOrphan (batchID processorID : String) (epoch : Int)
    (requireExpiredLease bumpAttempts : Bool) : MockResumableStore × Except Err Unit :=
  match m.find batchID with
  | none => (m, .ok ())
  | some b =>
    if b.terminal ∨ b.resumable = false ∨ b.processorID ≠ processorID ∨ b.epoch ≠ epoch then
      (m, .ok ())
    else if requireExpiredLease ∧ b.leaseAfter now then (m, .ok ())
    else (m.set batchID { b with
      processorID := ""
      leaseExpiresAt := zeroTime
      epoch := b.epoch + 1
      recoveryAttempts := if bumpAttempts then b.recoveryAttempts + 1 else b.recoveryAttempts
      entries := b.entries.map (recordSubmitter processorID) }, .ok ())

/-- The first entry with a request ID. -/
def findEntry (entries : List ResumableEntry) (requestID : String) : Option ResumableEntry :=
  entries.find? (·.requestID = requestID)

/-- Write through the entry that `findEntry` returns. -/
def updateEntry (requestID : String) (f : ResumableEntry → ResumableEntry) :
    List ResumableEntry → List ResumableEntry
  | [] => []
  | e :: entries =>
    if e.requestID = requestID then f e :: entries else e :: updateEntry requestID f entries

/-- Why an entry was not written. -/
def entryNotUpdatable (op : String) (b : MockResumableBatch) (e : ResumableEntry)
    (batchID requestID processorID : String) (epoch : Int) : Except Err Bool :=
  if e.isTerminal ∧ b.processorID = processorID ∧ b.epoch = epoch then .ok false
  else .error (.conflict (op ++ ": " ++ batchID ++ "/" ++ requestID ++ " is not owned by " ++
    ownerText processorID epoch))

/-- A fenced write of one entry. -/
def writeEntry (op batchID requestID processorID : String) (epoch : Int)
    (f : ResumableEntry → ResumableEntry) : MockResumableStore × Except Err Bool :=
  let conflict := .error (.conflict (op ++ ": " ++ batchID ++ "/" ++ requestID ++
    " is not owned by " ++ ownerText processorID epoch))
  match m.find batchID with
  | none => (m, conflict)
  | some b =>
    match findEntry b.entries requestID with
    | none => (m, conflict)
    | some e =>
      if e.isTerminal = false ∧ b.ownedFence now processorID epoch then
        (m.set batchID { b with entries := updateEntry requestID f b.entries }, .ok true)
      else (m, entryNotUpdatable op b e batchID requestID processorID epoch)

def markEntry (processorID : String) (e : ResumableEntry) : ResumableEntry :=
  { e with
    status := EntryStatus.inFlight.text, attempts := e.attempts + 1, submittedBy := processorID }

def markEntryInFlight (batchID requestID processorID : String) (epoch : Int) :
    MockResumableStore × Except Err Bool :=
  m.writeEntry now "MarkEntryInFlight" batchID requestID processorID epoch (markEntry processorID)

def commitEntry (result : ResumableResult) (e : ResumableEntry) : ResumableEntry :=
  { e with
    status := result.status.text
    resultKey := result.resultKey
    resultBytes := result.resultBytes
    resultSHA256 := result.resultSHA256
    errorCode := result.errorCode }

def checkpointEntryResult (batchID requestID processorID : String) (epoch : Int)
    (result : ResumableResult) : MockResumableStore × Except Err Bool :=
  if result.status.isTerminal = false then
    (m, .error ⟨"CheckpointEntryResult: status must be " ++ quoted EntryStatus.completed.text ++
      " or " ++ quoted EntryStatus.failed.text ++ ", got " ++ quoted result.status.text, .plain⟩)
  else m.writeEntry now "CheckpointEntryResult" batchID requestID processorID epoch
    (commitEntry result)

def listBatchEntries (batchID : String) (afterOrdinal limit : Int) :
    Except Err (List ResumableEntry) :=
  if limit ≤ 0 then .error ⟨"ListBatchEntries: limit must be > 0", .plain⟩
  else match m.find batchID with
    | none => .error ⟨"ListBatchEntries: unknown batch " ++ batchID, .plain⟩
    | some b => .ok ((b.entries.filter (afterOrdinal < ·.ordinal)).take limit.toNat)

def hasOpenEntryByRequest (requestID : String) : Bool :=
  m.any fun p => p.2.entries.any fun e => e.requestID = requestID ∧ e.isTerminal = false

end MockResumableStore
end BatchGateway
