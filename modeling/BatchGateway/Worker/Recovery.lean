import BatchGateway.Worker.Finalizer

/-! What a processor does with jobs that it finds already started: recovery at startup, and the
pickup of a requeued resumable batch. -/
namespace BatchGateway

open Interleaving

structure Processor where
  processorID : String
  leaseDuration : Duration
  /-- The models that some gateway serves. -/
  registered : String → Bool := fun _ => true

/-- The batch that an item describes; an item without a status document has the empty status. -/
def dbItemToBatch (item : BatchItem) : Except Err (Option BatchStatusInfo) :=
  if item.specDecodes then .ok item.status
  else .error ⟨"failed to unmarshal batch spec", .plain⟩

def getJobStatus (item : BatchItem) : Option BatchStatus := item.status.map BatchStatusInfo.status

def maxRecoveryAttempts : Int := 3

/-! ### Startup recovery -/

/-- Requeue a resumable batch that was claimed at startup. -/
def recoverResumableOwned (task : BatchJobPriority) : Task (Except Err Unit) := do
  match ← call (.fetch .recovery task.id) with
  | .error e => return .error e
  | .ok none => return .ok ()
  | .ok (some item) =>
    match ← requeueResumableOrphan task.id item.processorID item.epoch false false with
    | .error e => return .error (e.wrap "requeue resumable job")
    | .ok () => return .ok ()

/-- The fallback of every recovery: mark the job as failed. -/
def recoverWithFailed (item : BatchItem) (counts : Option BatchRequestCounts) :
    Task (Except Err Unit) := do
  match ← updateFailedStatus item counts "" "" with
  | .error e => return .error e
  | .ok _ => return .ok ()

def recoverExhausted (jobID : String) : Task (Except Err Unit) := do
  match ← call (.fetch .recovery jobID) with
  | .error e => return .error e
  | .ok none => return .ok ()
  | .ok (some item) => recoverWithFailed item none

def extractRequestCounts (item : BatchItem) : Option BatchRequestCounts :=
  item.status.bind fun doc => if doc.requestCounts.total = 0 then none else some doc.requestCounts

def extractRecoverySLO (item : BatchItem) (batch : Option BatchStatusInfo) : Except Err Time :=
  if 0 < item.priority then .ok item.priority
  else match batch.bind BatchStatusInfo.expiresAt with
    | some seconds => .ok (seconds * 1000000)
    | none => .error ⟨"missing recovery SLO for job " ++ item.id, .plain⟩

def buildRecoveryTask (item : BatchItem) (slo : Time) (expectedStatus : BatchStatus) :
    Except Err BatchJobPriority :=
  if slo = Time.zero then .error ⟨"missing recovery SLO for job " ++ item.id, .plain⟩
  else .ok { id := item.id, slo := slo, epoch := item.epoch, processorID := item.processorID,
             expectedStatus := some expectedStatus }

def resetStatus (item : BatchItem) (slo : Time) (resetToValidating : Bool) :
    Task (Except Err BatchItem) :=
  if resetToValidating then updatePersistentStatus item .validating none (some slo)
  else return .ok item

/-- Re-enqueue a job, or expire it when its deadline has passed. A failure carries the counts that
the fallback keeps. -/
def recoverReEnqueue (item : BatchItem) (batch : Option BatchStatusInfo)
    (resetToValidating : Bool) :
    Task (Except (Err × Option BatchRequestCounts) Unit) := do
  match extractRecoverySLO item batch with
  | .error e => return .error (e.wrap "failed to recover SLO for re-enqueue", none)
  | .ok slo =>
    let env ← call .ask
    if slo < env.now then
      let counts := extractRequestCounts item
      match ← updateExpiredStatus item counts "" "" with
      | .error e => return .error (e.wrap "failed to update expired status", counts)
      | .ok _ => return .ok ()
    else
      match ← resetStatus item slo resetToValidating with
      | .error e => return .error (e.wrap "failed to reset status to validating", none)
      | .ok item =>
        match buildRecoveryTask item slo .validating with
        | .error e => return .error (e.wrap "failed to build recovery task", none)
        | .ok task =>
          match ← pqEnqueue task with
          | .error e => return .error (e.wrap "failed to re-enqueue job", none)
          | .ok () => return .ok ()

/-- One attempt to recover a job that is not resumable. -/
def recoverJobOnce (jobID : String) : Task (Except Err Unit) := do
  match ← call (.fetch .recovery jobID) with
  | .error e => return .error e
  | .ok none => return .ok ()
  | .ok (some item) =>
    match dbItemToBatch item with
    | .error _ => recoverWithFailed item none
    | .ok batch =>
      match batch.map BatchStatusInfo.status with
      | some .validating =>
        match ← recoverReEnqueue item batch false with
        | .error (_, counts) => recoverWithFailed item counts
        | .ok () => return .ok ()
      | some .inProgress | some .finalizing | some .cancelling | none =>
        recoverWithFailed item none
      | some .completed | some .failed | some .expired | some .cancelled => return .ok ()

/-- A conflict means that the row changed under the recovery, which is then tried once more. -/
def recoverJob (jobID : String) : Task (Except Err Unit) := do
  match ← recoverJobOnce jobID with
  | .error e => if e.isConflict then recoverJobOnce jobID else return .error e
  | .ok () => return .ok ()

/-- The recovery of one job that the startup claim returned. -/
def recoverOwnedJob (task : BatchJobPriority) : Task (Except Err Unit) :=
  if task.resumable then recoverResumableOwned task
  else if maxRecoveryAttempts < task.recoveryAttempts then recoverExhausted task.id
  else recoverJob task.id

/-! ### Resumable pickup -/

/-- The terminal status that a requeued batch is bound for, and the code of its open entries. -/
def resumedPickupRoute (item : BatchItem) (task : BatchJobPriority) (now : Time) :
    Option (BatchStatus × BatchErrorCode) :=
  if getJobStatus item = some .cancelling then some (.cancelled, .batchCancelled)
  else if isJobExpired task now then some (.expired, .batchExpired)
  else if maxRecoveryAttempts < item.recoveryAttempts then some (.failed, .batchFailed)
  else none

/-- Finalize a requeued batch that must not run on; `none` lets it resume. -/
def routeResumedPickup (lib : Stdlib) (p : Processor) (item : BatchItem) (task : BatchJobPriority) :
    Task (Option (Except Err Unit)) := do
  let env ← call .ask
  match getJobStatus item, resumedPickupRoute item task env.now with
  | some expected, some (status, code) =>
    return some (← finalizeResumableAs lib p.processorID item status code expected)
  | _, _ => return none

/-- The entries in ordinal order, page by page. -/
def listResumableEntries (jobID : String) : Nat → Int → Task (Except Err (List EntryRow))
  | 0, _ => return .error ⟨"context deadline exceeded", .plain⟩
  | pages + 1, afterOrdinal => do
    match ← call (.listEntries jobID afterOrdinal resumableEntriesPageSize) with
    | .error e => return .error e
    | .ok entries =>
      if entries.length < resumableEntriesPageSize then return .ok entries
      else
        match ← listResumableEntries jobID pages
            ((entries.getLast?.map EntryRow.ordinal).getD afterOrdinal) with
        | .error e => return .error e
        | .ok rest => return .ok (entries ++ rest)

/-- The loop that compares the entries with the manifest, index by index. -/
def checkManifestEntries : Nat → List EntryRow → List ManifestEntry → Except Err Unit
  | i, e :: es, m :: ms =>
    if e.requestID ≠ m.requestID ∨ e.ordinal ≠ m.ordinal ∨ e.customID ≠ m.customID then
      .error ⟨"entry " ++ toString i ++ " identity mismatch: persisted (" ++ e.requestID ++ ", " ++
        toString e.ordinal ++ ", " ++ e.customID ++ "), manifest (" ++ m.requestID ++ ", " ++
        toString m.ordinal ++ ", " ++ m.customID ++ ")", .plain⟩
    else
      let rejected := decide (e.status = .failed ∧ e.attempts = 0)
      if rejected ≠ m.rejected then
        .error ⟨"entry " ++ toString i ++ " (" ++ e.requestID ++
        ") rejected-set mismatch: persisted " ++
          toString rejected ++ ", manifest " ++ toString m.rejected, .plain⟩
      else checkManifestEntries (i + 1) es ms
  | _, _, _ => .ok ()

/-- Whether the entry set is the one that the manifest would activate. -/
def checkManifestIntegrity (manifest : RequestManifest) (entries : List EntryRow) :
    Except Err Unit :=
  if entries.length ≠ manifest.entries.length then
    .error ⟨"entry set has " ++ toString entries.length ++ " entries, manifest has " ++
      toString manifest.entries.length, .plain⟩
  else checkManifestEntries 0 entries manifest.entries

/-- What a resumed execution takes over from the entries. -/
structure ResumableResumeState where
  completed : Int := 0
  failed : Int := 0
  terminalRequestIDs : List String := []
  /-- In-flight entries with the processor that submitted them. -/
  inFlightSubmittedBy : List (String × String) := []

namespace ResumableResumeState

def add (seed : ResumableResumeState) (e : EntryRow) : ResumableResumeState :=
  match e.status with
  | .completed => { seed with
      completed := seed.completed + 1
      terminalRequestIDs := seed.terminalRequestIDs ++ [e.requestID] }
  | .failed => { seed with
      failed := seed.failed + 1
      terminalRequestIDs := seed.terminalRequestIDs ++ [e.requestID] }
  | .inFlight => match e.submittedBy with
    | some submitter => if submitter = "" then seed else { seed with
        inFlightSubmittedBy := seed.inFlightSubmittedBy ++ [(e.requestID, submitter)] }
    | none => seed
  | .pending => seed

def ofEntries (entries : List EntryRow) : ResumableResumeState := entries.foldl add {}

variable {entries : List EntryRow} (seed : ResumableResumeState)

theorem foldl_completed : (entries.foldl add seed).completed =
    seed.completed + entries.countP (·.status = .completed) := by
  induction entries generalizing seed with
  | nil => simp
  | cons e entries ih =>
    rw [List.foldl_cons, ih, List.countP_cons]
    unfold add
    cases hs : e.status <;> grind

theorem foldl_failed : (entries.foldl add seed).failed =
    seed.failed + entries.countP (·.status = .failed) := by
  induction entries generalizing seed with
  | nil => simp
  | cons e entries ih =>
    rw [List.foldl_cons, ih, List.countP_cons]
    unfold add
    cases hs : e.status <;> grind

theorem mem_foldl_terminal {q : String} : q ∈ (entries.foldl add seed).terminalRequestIDs ↔
    q ∈ seed.terminalRequestIDs ∨ ∃ e ∈ entries, e.requestID = q ∧ e.status.isTerminal = true := by
  induction entries generalizing seed with
  | nil => simp
  | cons e entries ih =>
    rw [List.foldl_cons, ih]
    unfold add
    cases hs : e.status <;> grind [EntryStatus.isTerminal]

theorem mem_foldl_inFlight {p : String × String} :
    p ∈ (entries.foldl add seed).inFlightSubmittedBy ↔ p ∈ seed.inFlightSubmittedBy ∨
      ∃ e ∈ entries, e.status = .inFlight ∧ e.submittedBy = some p.2 ∧ p.2 ≠ "" ∧
        e.requestID = p.1 := by
  induction entries generalizing seed with
  | nil => simp
  | cons e entries ih =>
    rw [List.foldl_cons, ih]
    unfold add
    cases hs : e.status <;> grind

theorem ofEntries_completed : (ofEntries entries).completed =
    entries.countP (·.status = .completed) := by
  rw [ofEntries, foldl_completed]
  exact Int.zero_add _

theorem ofEntries_failed : (ofEntries entries).failed = entries.countP (·.status = .failed) := by
  rw [ofEntries, foldl_failed]
  exact Int.zero_add _

theorem mem_terminalRequestIDs {q : String} : q ∈ (ofEntries entries).terminalRequestIDs ↔
    ∃ e ∈ entries, e.requestID = q ∧ e.status.isTerminal = true := by
  rw [ofEntries, mem_foldl_terminal]
  simp

theorem mem_inFlightSubmittedBy {p : String × String} :
    p ∈ (ofEntries entries).inFlightSubmittedBy ↔ ∃ e ∈ entries, e.status = .inFlight ∧
      e.submittedBy = some p.2 ∧ p.2 ≠ "" ∧ e.requestID = p.1 := by
  rw [ofEntries, mem_foldl_inFlight]
  simp

end ResumableResumeState

/-- The entry is the one that the line of the manifest activates. -/
def EntryRow.Matches (e : EntryRow) (m : ManifestEntry) : Prop :=
  e.requestID = m.requestID ∧ e.ordinal = m.ordinal ∧ e.customID = m.customID ∧
    (m.rejected = true ↔ e.status = .failed ∧ e.attempts = 0)

theorem checkManifestEntries_iff {i : Nat} {es : List EntryRow} {ms : List ManifestEntry}
    (h : es.length = ms.length) :
    checkManifestEntries i es ms = .ok () ↔ List.Forall₂ EntryRow.Matches es ms := by
  induction es generalizing i ms with
  | nil =>
    cases ms with
    | nil => simp [checkManifestEntries]
    | cons m ms => cases h
  | cons e es ih =>
    cases ms with
    | nil => cases h
    | cons m ms =>
      rw [List.forall₂_cons, ← ih (i := i + 1) (Nat.succ.inj h), checkManifestEntries,
        EntryRow.Matches]
      grind

theorem checkManifestIntegrity_iff {manifest : RequestManifest} {entries : List EntryRow} :
    checkManifestIntegrity manifest entries = .ok () ↔
      List.Forall₂ EntryRow.Matches entries manifest.entries := by
  unfold checkManifestIntegrity
  split
  next hne =>
    refine ⟨fun h => ?_, fun h => absurd (List.Forall₂.length_eq h) hne⟩
    cases h
  next h => exact checkManifestEntries_iff (not_not.1 h)

/-- The resume state of a batch whose entry set is the one of the manifest. -/
def resumeState (jobID : String) (manifest : RequestManifest) (pages : Nat) :
    Task (Except Err ResumableResumeState) := do
  match ← listResumableEntries jobID pages (-1) with
  | .error e => return .error (e.wrap "list batch entries")
  | .ok entries =>
    match checkManifestIntegrity manifest entries with
    | .error e => return .error (e.wrap "batch entry set diverged from the input file")
    | .ok () => return .ok (.ofEntries entries)

/-- Check the entry set of a requeued batch before its execution resumes. -/
def recoverResumable (item : BatchItem) (manifest : RequestManifest) :
    Task (Except Err Unit) := do
  let env ← call .ask
  match ← listResumableEntries item.id env.count (-1) with
  | .error e => return .error (e.wrap "list batch entries")
  | .ok entries =>
    match checkManifestIntegrity manifest entries with
    | .error e => return .error (e.wrap "batch entry set diverged from the input file")
    | .ok () => return .ok ()

end BatchGateway
