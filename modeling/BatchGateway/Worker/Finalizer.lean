import BatchGateway.Worker.StatusUpdater

/-! Finalization of a resumable batch: the results of its entries are assembled into an output and
an error artifact, and the terminal transition is written under the owner's fence. -/
namespace BatchGateway

open Interleaving

def resumableEntriesPageSize : Nat := 500

inductive ArtifactMode where
  | closed | writing | existing
  deriving DecidableEq, Repr

/-- One artifact. When an earlier attempt already published it, nothing is written: the content is
only compared at the end. -/
structure ArtifactWriter where
  key : String
  fileID : String
  mode : ArtifactMode := .closed
  /-- What was written, or would have been. -/
  content : Bytes := []
  deriving DecidableEq, Repr

/-- The two artifacts on the way, the counts, and the entries that had no result. -/
structure Assembly where
  output : ArtifactWriter
  errorW : ArtifactWriter
  counts : BatchRequestCounts := {}
  unfinished : List String := []
  deriving DecidableEq, Repr

namespace ArtifactWriter

variable (a : ArtifactWriter)

def ensure : Task (Except Err ArtifactWriter) :=
  if a.mode ≠ .closed then
    return .ok a
  else do
    match ← call (.openStream a.key) with
    | .ok () => return .ok { a with mode := .writing }
    | .error e =>
      if e.kind = .fileExists then return .ok { a with mode := .existing }
      else return .error (e.wrap ("open artifact stream " ++ a.key))

/-- Append to the open stream, or to what is compared later. -/
def write (data : Bytes) : Task (Except Err ArtifactWriter) :=
  if a.mode = .existing then
    return .ok { a with content := a.content ++ data }
  else do
    match ← call (.writeStream a.key) with
    | .error e => return .error (e.wrap ("write artifact " ++ a.key))
    | .ok () => return .ok { a with content := a.content ++ data }

def writeResult (line : Bytes) : Task (Except Err ArtifactWriter) := do
  match ← a.ensure with
  | .error e => return .error e
  | .ok a => a.write line

end ArtifactWriter

namespace Stdlib

variable (lib : Stdlib)

/-- The error line of an entry that was not executed. -/
def notExecutedLine (e : EntryRow) (code : BatchErrorCode) : Bytes :=
  lib.marshal ⟨e.requestID, e.customID, none, some ⟨code.text, code.message⟩⟩ ++ newline

/-- The file ID of an artifact depends on the batch and the kind of file only. -/
def stableFileID (batchID fileType : String) : String :=
  "file_" ++ lib.uuidSHA1 (batchID ++ "\x00" ++ fileType)

def newArtifactWriter (jobID fileType : String) : ArtifactWriter where
  key := lib.stableFileID jobID fileType ++ ".jsonl"
  fileID := lib.stableFileID jobID fileType

/-- Compare a published artifact with the content that would have been written. -/
def verifyExisting (a : ArtifactWriter) (publication : Publication) : Task (Except Err Unit) := do
  match ← call (.retrieveArtifact a.key publication) with
  | .error e => return .error (e.wrap ("retrieve committed artifact " ++ a.key))
  | .ok data =>
    if data.length ≠ a.content.length ∨ lib.sha256 data ≠ lib.sha256 a.content then
      return .error ⟨"committed artifact " ++ a.key ++ " does not match re-derived content: got " ++
        toString data.length ++ " bytes, want " ++ toString a.content.length, .mismatch⟩
    else return .ok ()

/-- Publish or verify an artifact and return its file ID; one that was never opened has none. -/
def commitArtifact (a : ArtifactWriter) (publication : Publication) :
    Task (Except Err String) := do
  match a.mode with
  | .closed => return .ok ""
  | .existing =>
    match ← lib.verifyExisting a publication with
    | .error e => return .error e
    | .ok () =>
      match ← call (.ensureFileRecord a.key) with
      | .error e => return .error e
      | .ok () => return .ok a.fileID
  | .writing =>
    match ← call (.commitStream a.key a.content publication) with
    | .error e => return .error (e.wrap ("commit artifact " ++ a.key))
    | .ok () =>
      match ← call (.ensureFileRecord a.key) with
      | .error e => return .error e
      | .ok () => return .ok a.fileID

/-- The result object of an entry, checked against its recorded size and digest. -/
def fetchResult (e : EntryRow) : Task (Except Err Bytes) := do
  let key := e.resultKey.getD ""
  match ← call (.retrieve key) with
  | .error err => return .error (err.wrap ("retrieve result " ++ key))
  | .ok data =>
    if (data.length : Int) ≠ e.resultBytes.getD 0 then
      return .error ⟨"result " ++ key ++ " failed integrity check: got " ++ toString data.length ++
        " bytes, want " ++ toString (e.resultBytes.getD 0), .plain⟩
    else if lib.sha256 data ≠ e.resultSHA256.getD "" then
      return .error ⟨"result " ++ key ++ " failed integrity check: digest mismatch", .plain⟩
    else return .ok data

/-- The results of one page, in order; an entry without a result has none to fetch. -/
def fetchPage : List EntryRow → Task (Except Err (List (EntryRow × Bytes)))
  | [] => return .ok []
  | e :: es =>
    if e.status.isTerminal then do
      match ← lib.fetchResult e with
      | .error err => return .error err
      | .ok data =>
        match ← fetchPage es with
        | .error err => return .error err
        | .ok rest => return .ok ((e, data) :: rest)
    else do
      match ← fetchPage es with
      | .error err => return .error err
      | .ok rest => return .ok ((e, []) :: rest)

/-- Route one entry into the output artifact, the error artifact, or, when it is open, to a
not-executed line. Without a code an open entry is an error. -/
def assembleEntry (code : Option BatchErrorCode) (st : Assembly) (e : EntryRow) (data : Bytes) :
    Task (Except Err Assembly) := do
  let counts := { st.counts with total := st.counts.total + 1 }
  match e.status with
  | .completed =>
    match ← st.output.writeResult data with
    | .error err => return .error err
    | .ok output =>
      return .ok { st with
        output := output, counts := { counts with completed := counts.completed + 1 } }
  | .failed =>
    let counts := { counts with failed := counts.failed + 1 }
    if e.errorCode.getD "" ≠ "" then
      match ← st.errorW.writeResult data with
      | .error err => return .error err
      | .ok errorW => return .ok { st with errorW := errorW, counts := counts }
    else
      match ← st.output.writeResult data with
      | .error err => return .error err
      | .ok output => return .ok { st with output := output, counts := counts }
  | .pending | .inFlight =>
    match code with
    | none => return .error ⟨"entry " ++ e.requestID ++ " is still " ++ e.status.text, .plain⟩
    | some code =>
      match ← st.errorW.writeResult (lib.notExecutedLine e code) with
      | .error err => return .error err
      | .ok errorW =>
        return .ok { st with errorW := errorW, unfinished := st.unfinished ++ [e.requestID]
                             counts := { counts with failed := counts.failed + 1 } }

def assemblePage (code : Option BatchErrorCode) :
    Assembly → List (EntryRow × Bytes) → Task (Except Err Assembly)
  | st, [] => return .ok st
  | st, (e, data) :: rest => do
    match ← lib.assembleEntry code st e data with
    | .error err => return .error err
    | .ok st => assemblePage code st rest

/-- The loop over the pages in ordinal order, until the entries or the time for them run out. -/
def assemblePages (jobID : String) (code : Option BatchErrorCode) :
    Nat → Int → Assembly → Task (Except Err Assembly)
  | 0, _, _ => return .error ⟨"list batch entries: context deadline exceeded", .plain⟩
  | pages + 1, afterOrdinal, st => do
    match ← call (.listEntries jobID afterOrdinal resumableEntriesPageSize) with
    | .error e => return .error (e.wrap "list batch entries")
    | .ok entries =>
      match ← lib.fetchPage entries with
      | .error e => return .error e
      | .ok fetched =>
        match ← lib.assemblePage code st fetched with
        | .error e => return .error e
        | .ok st =>
          if entries.length < resumableEntriesPageSize then return .ok st
          else
            assemblePages jobID code pages ((entries.getLast?.map EntryRow.ordinal).getD afterOrdinal) st

/-- Assemble and publish both artifacts: the counts and the file IDs. -/
def assembleResumableArtifacts (jobID : String) (code : Option BatchErrorCode) :
    Task (Except Err (BatchRequestCounts × String × String)) := do
  let env ← call .ask
  match ← lib.assemblePages jobID code env.count (-1)
      ⟨lib.newArtifactWriter jobID "output", lib.newArtifactWriter jobID "error", {}, []⟩ with
  | .error e => return .error e
  | .ok st =>
    match ← lib.commitArtifact st.output ⟨code, st.unfinished⟩ with
    | .error e => return .error e
    | .ok outputFileID =>
      match ← lib.commitArtifact st.errorW ⟨code, st.unfinished⟩ with
      | .error e => return .error e
      | .ok errorFileID => return .ok (st.counts, outputFileID, errorFileID)

end Stdlib

/-- The fenced terminal transition. Afterwards the result objects are no longer needed. -/
def finalizeResumableStatus (processorID : String) (job : BatchItem) (expected terminal : BatchStatus)
    (counts : BatchRequestCounts) (outputFileID errorFileID : String) : Task (Except Err Unit) := do
  let env ← call .ask
  match buildStatus job terminal (some counts) none outputFileID errorFileID env.now with
  | .error e => return .error e
  | .ok doc =>
    match ← finalizeResumableBatch ⟨job.id, processorID, job.epoch, some expected, doc⟩ with
    | .error e => return .error (e.wrap
        ("fenced terminal status write (" ++ expected.text ++ " → " ++ terminal.text ++ ")"))
    | .ok () =>
      let _ ← call (.deleteDir ("results/" ++ job.id))
      return .ok ()

def errCancelled : Err := ⟨"batch job cancelled", .cancelled⟩

/-- Finalize a batch whose execution ended normally: finalizing, the artifacts, completed. A cancel
that arrived meanwhile is honoured at the end. -/
def finalizeResumableJob (lib : Stdlib) (processorID : String) (dbJob : BatchItem) :
    Task (Except Err Unit) := do
  let dbJob := { dbJob with expectedResumable := some true }
  match ← updatePersistentStatus dbJob .finalizing none none with
  | .error e => return .error (e.wrap "failed to update job status to finalizing")
  | .ok job =>
    match ← lib.assembleResumableArtifacts job.id none with
    | .error e => return .error (e.wrap "assemble resumable artifacts")
    | .ok (counts, outputFileID, errorFileID) =>
      let env ← call .ask
      if env.cause.any (·.kind = .cancelled) then
        match ← finalizeResumableStatus processorID job .finalizing .cancelled counts
            outputFileID errorFileID with
        | .error e => return .error (e.wrap "cancelled status write failed")
        | .ok () => return .error errCancelled
      else
        match ← finalizeResumableStatus processorID job .finalizing .completed counts
            outputFileID errorFileID with
        | .error e => return .error (e.wrap "completed status write failed")
        | .ok () => return .ok ()

/-- Terminalize a batch that must not run on: entries without a result get a not-executed line. -/
def finalizeResumableAs (lib : Stdlib) (processorID : String) (dbJob : BatchItem)
    (status : BatchStatus) (notExecutedCode : BatchErrorCode) (expected : BatchStatus) :
    Task (Except Err Unit) := do
  match ← lib.assembleResumableArtifacts dbJob.id (some notExecutedCode) with
  | .error e => return .error (e.wrap "assemble resumable artifacts")
  | .ok (counts, outputFileID, errorFileID) =>
    match ← finalizeResumableStatus processorID dbJob expected status counts
        outputFileID errorFileID with
    | .error e => return .error (e.wrap ("update job status to " ++ status.text))
    | .ok () => return .ok ()

end BatchGateway
