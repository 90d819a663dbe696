import BatchGateway.Worker.Recovery

/-! Cancellation of a batch by the API server. -/
namespace BatchGateway

open Interleaving

def maxCancelAttempts : Nat := 3

/-- The row update that marks an item as cancelling. -/
def BatchItem.cancelUpdate (item : BatchItem) (batch : BatchStatusInfo) (now : Time) :
    BatchItem where
  id := item.id
  tags := item.tags
  status := some { batch with status := .cancelling, cancellingAt := some (Time.unix now) }
  epoch := item.epoch
  expectedResumable := some item.resumable

/-- Persist the cancelling transition, conditional on the document that was read. A conflict is
retried on the fresh row while its status and epoch are unchanged. -/
def markCancelling (fromStatus : BatchStatus) :
    Nat → BatchItem → BatchStatusInfo → Task (Except Err Unit)
  | 0, _, _ => return .error (.conflict "markCancelling")
  | attempts + 1, item, batch => do
    let env ← call .ask
    match ← dbUpdate (item.cancelUpdate batch env.now) item.status with
    | .ok () => return .ok ()
    | .error e =>
      if e.isConflict = false ∨ attempts = 0 then return .error e
      else
        match ← call (.fetch .apiserver item.id) with
        | .error e => return .error (e.wrap "markCancelling")
        | .ok none => return .error (.conflict "markCancelling")
        | .ok (some fresh) =>
          if fresh.epoch ≠ item.epoch then return .error (.conflict "markCancelling")
          else
            match dbItemToBatch fresh with
            | .error e => return .error (e.wrap "markCancelling")
            | .ok none => return .error (.conflict "markCancelling")
            | .ok (some freshBatch) =>
              if freshBatch.status ≠ fromStatus then return .error (.conflict "markCancelling")
              else markCancelling fromStatus attempts fresh freshBatch

def sendCancelEvent : Task (Except Err Unit) := do
  match ← call .sendCancelEvent with
  | .error e => return .error e
  | .ok () => return .ok ()

/-- The status is persisted before the event is sent, so that a worker's later write is final. -/
def cancelBatch (batchID : String) : Task (Except Err Unit) := do
  match ← call (.fetch .apiserver batchID) with
  | .error e => return .error e
  | .ok none => return .error ⟨"Batch with ID " ++ batchID ++ " not found", .plain⟩
  | .ok (some item) =>
    match dbItemToBatch item with
    | .error e => return .error e
    | .ok none => return .error ⟨"Batch with status  cannot be cancelled", .plain⟩
    | .ok (some batch) =>
      if batch.status = .cancelled then return .ok ()
      else if batch.status.isCancellable = false then
        return .error ⟨"Batch with status " ++ batch.status.text ++ " cannot be cancelled", .plain⟩
      else if batch.status = .cancelling then sendCancelEvent
      else
        match ← pqDelete batchID with
        | .error e => return .error e
        | .ok true =>
          match ← call (.fetch .apiserver batchID) with
          | .error e => return .error e
          | .ok none => return .error ⟨"Batch with ID " ++ batchID ++ " not found", .plain⟩
          | .ok (some fresh) => return (dbItemToBatch fresh).map fun _ => ()
        | .ok false =>
          match ← markCancelling batch.status maxCancelAttempts item batch with
          | .error e => return .error e
          | .ok () => sendCancelEvent

end BatchGateway
