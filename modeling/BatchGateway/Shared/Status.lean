import Mathlib.Data.Option.Basic

/-! Batch statuses and the status document of a batch row. -/
namespace BatchGateway

/-- Microseconds since the Unix epoch. -/
abbrev Time := Int

/-- Nanoseconds. -/
abbrev Duration := Int

namespace Time

/-- The zero value of a point in time, 0001-01-01. -/
def zero : Time := -62135596800000000

/-- Whole seconds since the Unix epoch, rounded down. -/
def unix (t : Time) : Int := t / 1000000

end Time

/-- The lease length handed to the database: whole seconds, rounded towards zero. -/
def Duration.seconds (d : Duration) : Int := Int.tdiv d 1000000000

inductive BatchStatus where
  | validating | failed | inProgress | finalizing | completed | expired | cancelling | cancelled
  deriving DecidableEq, Repr

namespace BatchStatus

def text : BatchStatus → String
  | validating => "validating"
  | failed => "failed"
  | inProgress => "in_progress"
  | finalizing => "finalizing"
  | completed => "completed"
  | expired => "expired"
  | cancelling => "cancelling"
  | cancelled => "cancelled"

def terminalStatuses : List BatchStatus := [completed, failed, expired, cancelled]

def isTerminal (s : BatchStatus) : Bool := s ∈ terminalStatuses

def isCancellable : BatchStatus → Bool
  | validating | inProgress | cancelling => true
  | _ => false

end BatchStatus

/-- Why a request of a terminated batch was not executed. -/
inductive BatchErrorCode where
  | batchExpired | batchCancelled | batchFailed
  deriving DecidableEq, Repr

namespace BatchErrorCode

def text : BatchErrorCode → String
  | batchExpired => "batch_expired"
  | batchCancelled => "batch_cancelled"
  | batchFailed => "batch_failed"

def message : BatchErrorCode → String
  | batchExpired => "This request could not be executed before the completion window expired."
  | batchCancelled => "This request was not executed because the batch was cancelled."
  | batchFailed => "This request was not executed because the batch encountered a system error."

end BatchErrorCode

structure BatchRequestCounts where
  total : Int := 0
  completed : Int := 0
  failed : Int := 0
  deriving DecidableEq, Repr

/-- The status document of a batch row. -/
structure BatchStatusInfo where
  status : BatchStatus
  outputFileID : Option String := none
  errorFileID : Option String := none
  cancelledAt : Option Int := none
  cancellingAt : Option Int := none
  completedAt : Option Int := none
  expiredAt : Option Int := none
  expiresAt : Option Int := none
  failedAt : Option Int := none
  finalizingAt : Option Int := none
  inProgressAt : Option Int := none
  requestCounts : BatchRequestCounts := {}
  deriving DecidableEq, Repr

/-- The document of a status change: the status, its timestamp and, when given, the counts. -/
def buildUpdatedStatusInfo (original : BatchStatusInfo) (newStatus : BatchStatus)
    (counts : Option BatchRequestCounts) (slo : Option Time) (now : Time) :
    Except String BatchStatusInfo :=
  let updated := { original with status := newStatus }
  let stamped : Except String BatchStatusInfo := match newStatus with
    | .inProgress => .ok { updated with inProgressAt := some (Time.unix now) }
    | .completed => .ok { updated with completedAt := some (Time.unix now) }
    | .failed => .ok { updated with failedAt := some (Time.unix now) }
    | .cancelled => .ok { updated with cancelledAt := some (Time.unix now) }
    | .expired => .ok { updated with expiredAt := some (Time.unix now) }
    | .finalizing => .ok { updated with finalizingAt := some (Time.unix now) }
    | .cancelling => .ok { updated with cancellingAt := some (Time.unix now) }
    | .validating =>
      match slo with
      | none => .error ("SLO is required for status " ++ newStatus.text)
      | some slo => .ok { updated with expiresAt := some (Time.unix slo) }
  stamped.map fun info =>
    match counts with
    | none => info
    | some counts => { info with requestCounts := counts }

theorem buildUpdatedStatusInfo_status {original info : BatchStatusInfo} {newStatus : BatchStatus}
    {counts : Option BatchRequestCounts} {slo : Option Time} {now : Time}
    (h : buildUpdatedStatusInfo original newStatus counts slo now = .ok info) :
    info.status = newStatus := by
  cases newStatus <;> cases counts <;> cases slo <;>
    simp [buildUpdatedStatusInfo, Except.map] at h <;> rw [← h]

/-- Output and error file IDs are recorded only when they are not empty. -/
def withFileIDs (outputFileID errorFileID : String) (info : BatchStatusInfo) : BatchStatusInfo :=
  { info with
    outputFileID := if outputFileID ≠ "" then some outputFileID else info.outputFileID
    errorFileID := if errorFileID ≠ "" then some errorFileID else info.errorFileID }

@[simp] theorem withFileIDs_status (out err : String) (info : BatchStatusInfo) :
    (withFileIDs out err info).status = info.status := rfl

end BatchGateway
