import BatchGateway.Database.Client

/-! The result store of an activated batch: every result becomes an object of its own, which is
then committed to its entry. -/
namespace BatchGateway

open Interleaving

/-- No error object and an HTTP 2xx response. -/
def ResultItem.succeeded (msg : ResultItem) : Bool :=
  msg.error.isNone && msg.response.any fun r => 200 ≤ r.statusCode ∧ r.statusCode ≤ 299

/-- The store of one batch as its owner at an epoch uses it. `caller` marks the objects that this
user creates; the code has no such field. -/
structure BatchResultStore where
  batchID : String
  processorID : String
  epoch : Int
  caller : Nat := 0
  deriving DecidableEq, Repr

/-- What a result commits to its entry, apart from the key of its object. -/
def ResultItem.entryResult (msg : ResultItem) (digest : String) (size : Int) : ResumableResult where
  status := if msg.succeeded then .completed else .failed
  resultBytes := size
  resultSHA256 := digest
  errorCode := if msg.succeeded then "" else (msg.error.map OutputError.code).getD ""

theorem ResultItem.entryResult_status (msg : ResultItem) (digest : String) (size : Int) :
    (msg.entryResult digest size).status.isTerminal = true := by
  simp only [entryResult]
  split <;> rfl

namespace Stdlib

variable (lib : Stdlib)

/-- One result as an output line with its newline. -/
def resultLine (msg : ResultItem) : Bytes :=
  lib.marshal ⟨msg.requestID, msg.customID, msg.response, msg.error⟩ ++ newline

/-- Whether the object at the key has exactly this size and digest. -/
def verifyStored (key digest : String) (size : Int) : Task Bool := do
  match ← call (.retrieve key) with
  | .error _ => return false
  | .ok data => return decide ((data.length : Int) = size ∧ lib.sha256 data = digest)

end Stdlib

namespace BatchResultStore

variable (s : BatchResultStore) (lib : Stdlib)

/-- Put the line at its canonical key. A taken key is ours when the content matches; otherwise the
line goes to a fallback key. -/
def storeObject (requestID : String) (line : Bytes) (digest : String) (size : Int) :
    Task (Except Err String) := do
  let key := resumableResultKey s.batchID requestID
  match ← call (.store key line s.caller) with
  | .ok () => return .ok key
  | .error e =>
    if e.kind ≠ .fileExists then return .error (e.wrap ("store result " ++ key))
    else
      if ← lib.verifyStored key digest size then return .ok key
      else
        let env ← call .ask
        let fallback := fallbackResultKey s.batchID requestID env.uuid
        match ← call (.store fallback line s.caller) with
        | .error e => return .error (e.wrap ("store result " ++ fallback))
        | .ok () => return .ok fallback

/-- Commit a stored object to its entry. A lost race leaves a fallback object behind, which is
deleted; an error leaves it alone, since the commit may have happened. -/
def commitObject (msg : ResultItem) (digest : String) (size : Int) (key : String) :
    Task (Except Err Bool) := do
  let result := { msg.entryResult digest size with resultKey := key }
  match ← checkpointEntryResult s.batchID msg.requestID s.processorID s.epoch result with
  | .error e => return .error (e.wrap ("checkpoint entry " ++ msg.requestID))
  | .ok true => return .ok true
  | .ok false =>
    if key ≠ resumableResultKey s.batchID msg.requestID then
      let _ ← call (.delete key)
      return .ok false
    else return .ok false

/-- Store the line and commit its entry; `false` is a duplicate delivery. -/
def checkpoint (msg : ResultItem) (line : Bytes) (digest : String) (size : Int) :
    Task (Except Err Bool) := do
  match ← call (.findEntry s.batchID msg.requestID) with
  | .error e => return .error (e.wrap ("find entry " ++ msg.requestID))
  | .ok entry =>
    if entry.any (·.status.isTerminal) then return .ok false
    else
      match ← s.storeObject lib msg.requestID line digest size with
      | .error e => return .error e
      | .ok key => s.commitObject msg digest size key

/-- Render a result and checkpoint it with its digest and size. -/
def checkpointResult (msg : ResultItem) : Task (Except Err Bool) :=
  let line := lib.resultLine msg
  s.checkpoint lib msg line (lib.sha256 line) line.length

/-- Store the error object of a rejected line. The line is deterministic, so a taken key must hold
the same bytes. -/
def putRejectedObject (e : ManifestEntry) : Task (Except Err Unit) := do
  match ← call (.store e.resultKey e.errLine s.caller) with
  | .ok () => return .ok ()
  | .error err =>
    if err.kind ≠ .fileExists then
      return .error (err.wrap ("store rejected result " ++ e.resultKey))
    else
      if ← lib.verifyStored e.resultKey e.resultSHA256 e.resultBytes then return .ok ()
      else return .error ⟨"rejected result " ++ e.resultKey ++ " holds unexpected bytes", .plain⟩

/-- The loop over the rejected lines of a manifest. -/
def putRejectedObjects : List ManifestEntry → Task (Except Err Unit)
  | [] => return .ok ()
  | e :: es =>
    if e.rejected then do
      match ← s.putRejectedObject lib e with
      | .error err => return .error err
      | .ok () => putRejectedObjects es
    else putRejectedObjects es

/-- Flip a batch into the durable pipeline: the error objects first, then the activation. -/
def activateResumable (jobProcessorID : String) (leaseTTL : Duration) (manifest : RequestManifest) :
    Task (Except Err Unit) := do
  match ← s.putRejectedObjects lib manifest.entries with
  | .error e => return .error e
  | .ok () =>
    match ← activateResumableBatch
        ⟨s.batchID, jobProcessorID, s.epoch, leaseTTL, manifest.activationEntries⟩ with
    | .error e => return .error (e.wrap "activate resumable batch")
    | .ok () => return .ok ()

end BatchResultStore
end BatchGateway
