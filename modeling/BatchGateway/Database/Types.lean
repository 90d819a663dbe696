import BatchGateway.Shared.Status
import Mathlib.Data.List.Nodup

/-! The rows of `batch_items` and `batch_entries` and the values exchanged with the store. -/
namespace BatchGateway

/-- What `errors.Is` can tell about an error. `mismatch` marks the error of a published artifact with
other content, which the code tells apart by its text only. -/
inductive ErrKind where
  | plain | conflict | cancelled | expired | shutdown | fileExists | mismatch
  deriving DecidableEq, Repr

structure Err where
  text : String
  kind : ErrKind := .plain
  deriving DecidableEq, Repr

namespace Err

/-- `ErrConflict` wrapped with the context in which a fence matched no row. -/
def conflict (context : String) : Err := ⟨context ++ ": status conflict", .conflict⟩

/-- Prepend context to an error without changing what it is. -/
def wrap (context : String) (e : Err) : Err := ⟨context ++ ": " ++ e.text, e.kind⟩

def isConflict (e : Err) : Bool := e.kind = .conflict

end Err

abbrev Tags := List (String × String)

/-- One row of `batch_items`. A `NULL` column is `none`. -/
structure BatchRow where
  id : String
  tags : Tags := []
  /-- The spec column decodes into a batch specification. -/
  specDecodes : Bool := true
  status : BatchStatusInfo
  processorID : Option String := none
  priority : Int := 0
  epoch : Int := 0
  recoveryAttempts : Int := 0
  resumable : Bool := false
  ownerLeaseExpiresAt : Option Time := none
  deriving DecidableEq, Repr

namespace BatchRow

def NonTerminal (row : BatchRow) : Prop := row.status.status.isTerminal = false

/-- `owner_lease_expires_at > NOW()` -/
def LeaseHeld (row : BatchRow) (now : Time) : Prop := ∃ t ∈ row.ownerLeaseExpiresAt, now < t

/-- `owner_lease_expires_at <= NOW()` -/
def LeaseLapsed (row : BatchRow) (now : Time) : Prop := ∃ t ∈ row.ownerLeaseExpiresAt, t ≤ now

/-- The row of a batch that was just created: unowned, at epoch zero, waiting in the queue. The
store takes no row without an ID. -/
def Fresh (row : BatchRow) : Prop :=
  row.id ≠ "" ∧ row.status.status = .validating ∧ row.processorID = none ∧ row.epoch = 0 ∧
    row.recoveryAttempts = 0 ∧ row.resumable = false ∧ row.ownerLeaseExpiresAt = none

instance (row : BatchRow) : Decidable row.NonTerminal := inferInstanceAs (Decidable (_ = _))

instance (row : BatchRow) : Decidable row.Fresh := inferInstanceAs (Decidable (_ ∧ _))

instance (row : BatchRow) (now : Time) : Decidable (row.LeaseHeld now) :=
  inferInstanceAs (Decidable (∃ t ∈ row.ownerLeaseExpiresAt, now < t))

instance (row : BatchRow) (now : Time) : Decidable (row.LeaseLapsed now) :=
  inferInstanceAs (Decidable (∃ t ∈ row.ownerLeaseExpiresAt, t ≤ now))

end BatchRow

/-- A batch as the processors, the API server and the reconciler hold it in memory, and the
argument of a row update. An empty status document is `none`. -/
structure BatchItem where
  id : String
  tags : Tags := []
  specDecodes : Bool := true
  status : Option BatchStatusInfo := none
  processorID : String := ""
  priority : Int := 0
  epoch : Int := 0
  bumpEpoch : Bool := false
  recoveryAttempts : Int := 0
  resumable : Bool := false
  ownerLeaseExpiresAt : Option Time := none
  expectedResumable : Option Bool := none
  deriving DecidableEq, Repr

/-- The item that `DBGet` builds from a row: a `NULL` processor reads as the empty string. -/
def BatchRow.toItem (row : BatchRow) : BatchItem where
  id := row.id
  tags := row.tags
  specDecodes := row.specDecodes
  status := some row.status
  processorID := row.processorID.getD ""
  priority := row.priority
  epoch := row.epoch
  recoveryAttempts := row.recoveryAttempts
  resumable := row.resumable
  ownerLeaseExpiresAt := row.ownerLeaseExpiresAt

/-- A job handed out by the queue, and the argument of a re-enqueue. An expected status that was
not filled in is `none`. -/
structure BatchJobPriority where
  id : String
  slo : Time
  epoch : Int
  processorID : String := ""
  expectedStatus : Option BatchStatus := none
  recoveryAttempts : Int := 0
  resumable : Bool := false
  deriving DecidableEq, Repr

def isJobExpired (task : BatchJobPriority) (now : Time) : Bool :=
  task.slo ≠ Time.zero ∧ task.slo < now

def isJobRunnable (status : BatchStatus) : Bool :=
  status = .validating ∨ status = .inProgress

inductive EntryStatus where
  | pending | inFlight | completed | failed
  deriving DecidableEq, Repr

namespace EntryStatus

def text : EntryStatus → String
  | pending => "pending"
  | inFlight => "in_flight"
  | completed => "completed"
  | failed => "failed"

def isTerminal (s : EntryStatus) : Bool := s = completed ∨ s = failed

/-- The texts that the `CHECK` constraint of the column lets through. -/
def ofText? (text : String) : Option EntryStatus :=
  [pending, inFlight, completed, failed].find? (·.text = text)

@[simp] theorem text_inj {s s' : EntryStatus} : s.text = s'.text ↔ s = s' := by
  cases s <;> cases s' <;> decide

@[simp] theorem ofText?_text (s : EntryStatus) : ofText? s.text = some s := by
  cases s <;> rfl

theorem text_of_ofText? {text : String} {s : EntryStatus} (h : ofText? text = some s) :
    s.text = text := by
  simpa using List.find?_some h

end EntryStatus

/-- One row of `batch_entries` of a fixed batch. -/
structure EntryRow where
  requestID : String
  ordinal : Int
  customID : String
  status : EntryStatus
  attempts : Int := 0
  submittedBy : Option String := none
  resultKey : Option String := none
  resultBytes : Option Int := none
  resultSHA256 : Option String := none
  errorCode : Option String := none
  createdAt : Time
  updatedAt : Time
  completedAt : Option Time := none
  deriving DecidableEq, Repr

def EntryRow.IsOpen (r : EntryRow) : Prop := r.status.isTerminal = false

instance (r : EntryRow) : Decidable r.IsOpen := inferInstanceAs (Decidable (_ = _))

/-- The entries of one batch; the request ID is their primary key. -/
structure EntryTable where
  rows : List EntryRow
  primaryKey : (rows.map EntryRow.requestID).Nodup
  deriving DecidableEq

namespace EntryTable

def empty : EntryTable := ⟨[], List.nodup_nil⟩

/-- Rewrite every row by a function that keeps the key. -/
def mapRows (t : EntryTable) (f : EntryRow → EntryRow)
    (hf : ∀ r, (f r).requestID = r.requestID) : EntryTable where
  rows := t.rows.map f
  primaryKey := by
    have : t.rows.map (EntryRow.requestID ∘ f) = t.rows.map EntryRow.requestID :=
      List.map_congr_left fun r _ => hf r
    rw [List.map_map, this]
    exact t.primaryKey

/-- `UPDATE batch_entries SET .. WHERE request_id = $2 AND status IN ('pending','in_flight')` -/
def updateOpen (t : EntryTable) (requestID : String) (f : EntryRow → EntryRow)
    (hf : ∀ r, (f r).requestID = r.requestID) : EntryTable :=
  t.mapRows (fun r => if r.requestID = requestID ∧ r.IsOpen then f r else r) fun r => by
    split
    · exact hf r
    · rfl

def find (t : EntryTable) (requestID : String) : Option EntryRow :=
  t.rows.find? (·.requestID = requestID)

@[simp] theorem rows_empty : empty.rows = [] := rfl

theorem mem_find {t : EntryTable} {requestID : String} {r : EntryRow}
    (h : t.find requestID = some r) : r ∈ t.rows ∧ r.requestID = requestID :=
  ⟨List.mem_of_find?_eq_some h, by simpa using List.find?_some h⟩

/-- The primary key identifies a row. -/
theorem eq_of_requestID {t : EntryTable} {r r' : EntryRow} (h : r ∈ t.rows) (h' : r' ∈ t.rows)
    (he : r.requestID = r'.requestID) : r = r' :=
  List.inj_on_of_nodup_map t.primaryKey h h' he

theorem find_of_mem {t : EntryTable} {r : EntryRow} (h : r ∈ t.rows) :
    t.find r.requestID = some r := by
  cases hf : t.find r.requestID with
  | none =>
    have := List.find?_eq_none.1 hf r h
    simp at this
  | some r' =>
    obtain ⟨hm, hid⟩ := mem_find hf
    rw [eq_of_requestID hm h hid]

theorem updateOpen_rows (t : EntryTable) (requestID : String) (f : EntryRow → EntryRow)
    (hf : ∀ r, (f r).requestID = r.requestID) : (t.updateOpen requestID f hf).rows =
      t.rows.map fun r => if r.requestID = requestID ∧ r.IsOpen then f r else r := rfl

end EntryTable

/-- One entry of an activation set. Its status can be any text. -/
structure ResumableActivationEntry where
  requestID : String
  ordinal : Int
  customID : String
  status : String
  errorCode : String := ""
  resultKey : String := ""
  resultBytes : Int := 0
  resultSHA256 : String := ""
  deriving DecidableEq, Repr

/-- The status of the row that is inserted for the entry, when the constraint lets it through. -/
def ResumableActivationEntry.entryStatus (e : ResumableActivationEntry) : EntryStatus :=
  (EntryStatus.ofText? e.status).getD .pending

theorem ResumableActivationEntry.entryStatus_of_text {e : ResumableActivationEntry}
    {s : EntryStatus} (h : e.status = s.text) : e.entryStatus = s := by
  rw [entryStatus, h, EntryStatus.ofText?_text]
  rfl

structure ResumableActivation where
  batchID : String
  processorID : String
  epoch : Int
  leaseTTL : Duration
  entries : List ResumableActivationEntry
  deriving DecidableEq, Repr

structure ResumableFinalization where
  batchID : String
  processorID : String
  epoch : Int
  expectedStatus : Option BatchStatus
  status : BatchStatusInfo
  deriving DecidableEq, Repr

/-- Both stores refuse a status other than `completed` and `failed`. -/
structure ResumableResult where
  status : EntryStatus
  resultKey : String := ""
  resultBytes : Int := 0
  resultSHA256 : String := ""
  errorCode : String := ""
  deriving DecidableEq, Repr

/-- A batch as the database holds it: its row and its entries. -/
structure BatchState where
  row : BatchRow
  entries : EntryTable := .empty
  deriving DecidableEq

end BatchGateway
