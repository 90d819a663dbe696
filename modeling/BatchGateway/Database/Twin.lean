import BatchGateway.Database.Mock
import BatchGateway.Lib.Keyset
import BatchGateway.Lib.Run
import Mathlib.Tactic.Ring

/-! The in-memory store next to the database. Both are driven by the same operations. -/
namespace BatchGateway

open Interleaving

/-! ### The database store -/

/-- The entry that the client builds from a row: `NULL` reads as the zero value. -/
def scanEntryRow (batchID : String) (r : EntryRow) : ResumableEntry where
  batchID
  requestID := r.requestID
  ordinal := r.ordinal
  customID := r.customID
  status := r.status.text
  attempts := r.attempts
  submittedBy := r.submittedBy.getD ""
  resultKey := r.resultKey.getD ""
  resultBytes := r.resultBytes.getD 0
  resultSHA256 := r.resultSHA256.getD ""
  errorCode := r.errorCode.getD ""

@[simp] theorem scanEntryRow_isTerminal (batchID : String) (r : EntryRow) :
    (scanEntryRow batchID r).isTerminal = r.status.isTerminal := by
  simp [ResumableEntry.isTerminal, scanEntryRow, EntryStatus.isTerminal]

def listBatchEntries (batchID : String) (afterOrdinal limit : Int) :
    Task (Except Err (List ResumableEntry)) :=
  if limit ≤ 0 then
    return .error ⟨"ListBatchEntries: limit must be > 0", .plain⟩
  else do
    match ← call (.listEntries batchID afterOrdinal limit.toNat) with
    | .error e => return .error (e.wrap "ListBatchEntries")
    | .ok rows => return .ok (rows.map (scanEntryRow batchID))

/-- How the database answers the calls of a client about one batch, when nothing fails. -/
def performRow (now : Time) (row : Option BatchState) : (c : Call) →
    Option (Option BatchState × c.Resp)
  | .exec s =>
    match row with
    | none => some (none, .ok false)
    | some b =>
      match s.exec now b with
      | .error e => some (some b, .error e)
      | .ok none => some (some b, .ok false)
      | .ok (some b') => some (some b', .ok true)
  | .committedStatus _ => some (row, .ok (row.map (·.row.status)))
  | .entryStatus _ requestID processorID epoch => some (row, .ok (row.bind fun b =>
      if b.row.processorID = some processorID ∧ b.row.epoch = epoch then
        (b.entries.find requestID).map EntryRow.status
      else none))
  | .listEntries _ after limit => some (row, .ok (row.elim [] fun b =>
      ((b.entries.rows.filter (after < ·.ordinal)).insertionSort (·.ordinal ≤ ·.ordinal)).take limit))
  | _ => none

/-- Run a client on the row of its batch. -/
def runRow {α : Type} (now : Time) : Option BatchState → Task α → Option (Option BatchState × α)
  | row, .ret a => some (row, a)
  | row, .call c k => (performRow now row c).bind fun p => runRow now p.1 (k p.2)

/-- The batches of the database. -/
abbrev BatchTable := List BatchState

namespace BatchTable

variable (t : BatchTable) (now : Time)

def find (batchID : String) : Option BatchState := t.find? (·.row.id = batchID)

def set (batchID : String) (b : BatchState) : BatchTable :=
  t.map fun b₀ => if b₀.row.id = batchID then b else b₀

def run {α : Type} (batchID : String) (task : Task α) : Option (BatchTable × α) :=
  (runRow now (t.find batchID) task).map fun p => (p.1.elim t (t.set batchID), p.2)

def hasOpenEntryByRequest (requestID : String) : Bool :=
  t.any fun b => b.entries.rows.any fun r => r.requestID = requestID ∧ r.IsOpen

/-- A status change by the store of the batch rows. -/
def setStatus (batchID : String) (doc : BatchStatusInfo) : BatchTable :=
  match t.find batchID with
  | some b => ((dbUpdateStmt { id := batchID, status := some doc } none b).map (t.set batchID)).getD t
  | none => t

end BatchTable

/-! ### Operations -/

inductive TwinOp where
  | activate (a : ResumableActivation)
  | renew (batchID processorID : String) (epoch : Int) (ttl : Duration)
  | requeue (batchID processorID : String) (epoch : Int) (requireExpiredLease bumpAttempts : Bool)
  | finalize (fin : ResumableFinalization)
  | mark (batchID requestID processorID : String) (epoch : Int)
  | checkpoint (batchID requestID processorID : String) (epoch : Int) (result : ResumableResult)
  | list (batchID : String) (afterOrdinal limit : Int)
  | hasOpen (requestID : String)
  /-- The store of the batch rows changes the status, and the test mirrors it. -/
  | setStatus (batchID : String) (doc : BatchStatusInfo)
  | tick (d : Nat)
  deriving DecidableEq, Repr

/-- What a caller sees of an operation. -/
inductive TwinOutcome where
  | success | duplicate | conflict | failed
  | entries (page : List ResumableEntry)
  | found (isOpen : Bool)
  deriving DecidableEq, Repr

namespace TwinOutcome

def ofErr (e : Err) : TwinOutcome := if e.isConflict then conflict else failed

def ofUnit : Except Err Unit → TwinOutcome
  | .ok _ => success
  | .error e => ofErr e

def ofBool : Except Err Bool → TwinOutcome
  | .ok true => success
  | .ok false => duplicate
  | .error e => ofErr e

def ofPage : Except Err (List ResumableEntry) → TwinOutcome
  | .ok page => entries page
  | .error e => ofErr e

end TwinOutcome

namespace MockResumableStore

variable (m : MockResumableStore) (now : Time)

def apply : TwinOp → MockResumableStore × TwinOutcome
  | .activate a => (m.activateResumableBatch now a).map id .ofUnit
  | .renew batchID processorID epoch ttl =>
    (m.renewResumableBatchLease now batchID processorID epoch ttl).map id .ofUnit
  | .requeue batchID processorID epoch requireExpiredLease bumpAttempts =>
    (m.requeueResumableOrphan now batchID processorID epoch requireExpiredLease bumpAttempts).map id
      .ofUnit
  | .finalize fin => (m.finalizeResumableBatch now fin).map id .ofUnit
  | .mark batchID requestID processorID epoch =>
    (m.markEntryInFlight now batchID requestID processorID epoch).map id .ofBool
  | .checkpoint batchID requestID processorID epoch result =>
    (m.checkpointEntryResult now batchID requestID processorID epoch result).map id .ofBool
  | .list batchID afterOrdinal limit => (m, .ofPage (m.listBatchEntries batchID afterOrdinal limit))
  | .hasOpen requestID => (m, .found (m.hasOpenEntryByRequest requestID))
  | .setStatus batchID doc =>
    let m := m.setBatchStatus batchID doc.status.text
    (if doc.status.isTerminal then m.markTerminal batchID else m, .success)
  | .tick _ => (m, .success)

end MockResumableStore

/-- The texts that an operation passes to the database. -/
def TwinOp.texts : TwinOp → List String
  | .activate a => a.batchID :: a.processorID :: a.entries.flatMap fun e =>
      [e.requestID, e.customID, e.status, e.errorCode, e.resultKey, e.resultSHA256]
  | .renew batchID processorID .. | .requeue batchID processorID .. => [batchID, processorID]
  | .finalize fin => fin.batchID :: fin.processorID ::
      (fin.status.outputFileID.toList ++ fin.status.errorFileID.toList)
  | .mark batchID requestID processorID _ => [batchID, requestID, processorID]
  | .checkpoint batchID requestID processorID _ result =>
      [batchID, requestID, processorID, result.resultKey, result.resultSHA256, result.errorCode]
  | .list batchID .. => [batchID]
  | .hasOpen requestID => [requestID]
  | .setStatus .. | .tick _ => []

/-- No text has a NUL character, which the database cannot store. -/
def TwinOp.Storable (op : TwinOp) : Prop := ∀ text ∈ op.texts, '\x00' ∉ text.toList

instance (op : TwinOp) : Decidable op.Storable := inferInstanceAs (Decidable (∀ _ ∈ op.texts, _))

def BatchTable.perform (t : BatchTable) (now : Time) : TwinOp → Option (BatchTable × TwinOutcome)
  | .activate a => (t.run now a.batchID (activateResumableBatch a)).map (·.map id .ofUnit)
  | .renew batchID processorID epoch ttl =>
    (t.run now batchID (renewResumableBatchLease batchID processorID epoch ttl)).map
      (·.map id .ofUnit)
  | .requeue batchID processorID epoch requireExpiredLease bumpAttempts =>
    (t.run now batchID (requeueResumableOrphan batchID processorID epoch requireExpiredLease
      bumpAttempts)).map (·.map id .ofUnit)
  | .finalize fin => (t.run now fin.batchID (finalizeResumableBatch fin)).map (·.map id .ofUnit)
  | .mark batchID requestID processorID epoch =>
    (t.run now batchID (markEntryInFlight batchID requestID processorID epoch)).map
      (·.map id .ofBool)
  | .checkpoint batchID requestID processorID epoch result =>
    (t.run now batchID (checkpointEntryResult batchID requestID processorID epoch result)).map
      (·.map id .ofBool)
  | .list batchID afterOrdinal limit =>
    (t.run now batchID (listBatchEntries batchID afterOrdinal limit)).map (·.map id .ofPage)
  | .hasOpen requestID => some (t, .found (t.hasOpenEntryByRequest requestID))
  | .setStatus batchID doc => some (t.setStatus batchID doc, .success)
  | .tick _ => some (t, .success)

/-- A text that cannot be stored makes every call fail. -/
def BatchTable.apply (t : BatchTable) (now : Time) (op : TwinOp) :
    Option (BatchTable × TwinOutcome) :=
  if op.Storable then t.perform now op else some (t, .failed)

/-- Both stores and their clock. -/
structure StoreTwin where
  now : Time
  mock : MockResumableStore
  table : BatchTable

namespace StoreTwin

/-- The time that an operation takes. -/
def elapsed : TwinOp → Time
  | .tick d => d
  | _ => 0

def step (t : StoreTwin) (op : TwinOp) : Option StoreTwin :=
  (t.table.apply t.now op).map fun p =>
    ⟨t.now + elapsed op, (t.mock.apply t.now op).1, p.1⟩

/-- Both stores answer an operation in the same way. -/
def SameOutcome (t : StoreTwin) (op : TwinOp) : Prop :=
  (t.table.apply t.now op).map Prod.snd = some (t.mock.apply t.now op).2

end StoreTwin

/-! ### Corresponding states -/

/-- A batch of the in-memory store and a batch of the database. An owned resumable batch has a
lease, and no entry has an empty submitter. -/
structure Corresponds (m : MockResumableBatch) (b : BatchState) : Prop where
  processorID : b.row.processorID = orNull m.processorID
  epoch : b.row.epoch = m.epoch
  recoveryAttempts : b.row.recoveryAttempts = m.recoveryAttempts
  resumable : b.row.resumable = m.resumable
  terminal : b.row.status.status.isTerminal = m.terminal
  lease : b.row.ownerLeaseExpiresAt.map (· * 1000) =
    if m.leaseExpiresAt = zeroTime then none else some m.leaseExpiresAt
  leased : m.resumable = true → m.processorID ≠ "" → m.leaseExpiresAt ≠ zeroTime
  statusName : m.resumable = true → m.statusName = b.row.status.status.text
  statusDoc : ∀ doc ∈ m.statusDoc, b.row.status = doc ∧ m.terminal = true
  entries : m.entries.Perm (b.entries.rows.map (scanEntryRow b.row.id))
  sorted : m.entries.Pairwise (·.ordinal < ·.ordinal)
  submitters : ∀ r ∈ b.entries.rows, r.submittedBy ≠ some ""

/-- The stores hold the same batches. -/
structure StoreTwin.Corresponding (t : StoreTwin) : Prop where
  clock : Time.zero ≤ t.now
  /-- The ID is the primary key of the batches. -/
  ids : (t.table.map (·.row.id)).Nodup
  batches : List.Forall₂ (fun p b => p.1 = b.row.id ∧ Corresponds p.2 b) t.mock t.table

/-! ### When the stores agree -/

/-- A length in whole seconds. -/
def WholeSeconds (d : Duration) : Prop := 1000000000 ∣ d

namespace StoreTwin

/-- What the arguments keep to. A batch that was not activated is still validating, an activation has
no duplicates and names the statuses of its entries, lengths of leases are whole seconds, processors
have names, sizes are not negative, a finalization leads from an open to a terminal status and to a
document that nobody else wrote, entries are listed of batches that exist, and the other store
leaves a finished batch alone. -/
def Orderly (t : StoreTwin) : TwinOp → Prop
  | .activate a =>
    (a.entries.map (·.requestID)).Nodup ∧ (a.entries.map (·.ordinal)).Nodup ∧
    (∀ e ∈ a.entries, (EntryStatus.ofText? e.status).isSome) ∧ WholeSeconds a.leaseTTL ∧
    ∀ b ∈ t.table.find a.batchID,
      b.row.NonTerminal → b.row.resumable = false → b.row.status.status = .validating
  | .renew _ processorID _ ttl => processorID ≠ "" ∧ WholeSeconds ttl
  | .requeue _ processorID _ _ _ => processorID ≠ ""
  | .finalize fin =>
    (∀ expected ∈ fin.expectedStatus, expected.isTerminal = false) ∧
    fin.status.status.isTerminal = true ∧
    ∀ b ∈ t.table.find fin.batchID, b.row.status = fin.status →
      ∀ m ∈ t.mock.find fin.batchID, m.statusDoc = some fin.status
  | .mark _ _ processorID _ => processorID ≠ ""
  | .checkpoint _ _ processorID _ result => processorID ≠ "" ∧ 0 ≤ result.resultBytes
  | .list batchID _ limit => 0 < limit → (t.table.find batchID).isSome = true
  | .hasOpen _ => True
  | .setStatus batchID _ => ∀ b ∈ t.table.find batchID, b.row.NonTerminal
  | .tick _ => True

/-- What keeps the stores together. -/
def Compatible (t : StoreTwin) (op : TwinOp) : Prop := op.Storable ∧ t.Orderly op

end StoreTwin

section Run

variable {now : Time} {b b' : BatchState} {s : Stmt} {α : Type}

theorem runRow_hit (h : s.exec now b = .ok (some b')) (k : (Call.exec s).Resp → Task α) :
    runRow now (some b) (call (.exec s) >>= k) = runRow now (some b') (k (.ok true)) := by
  change (performRow now (some b) (.exec s)).bind _ = _
  unfold performRow
  dsimp only
  rw [h]
  rfl

theorem runRow_miss (h : s.exec now b = .ok none) (k : (Call.exec s).Resp → Task α) :
    runRow now (some b) (call (.exec s) >>= k) = runRow now (some b) (k (.ok false)) := by
  change (performRow now (some b) (.exec s)).bind _ = _
  unfold performRow
  dsimp only
  rw [h]
  rfl

end Run

/-! ### Single batches -/

namespace Corresponds

variable {m : MockResumableBatch} {b : BatchState} {now : Time} {processorID : String}

theorem owner (h : Corresponds m b) (hp : processorID ≠ "") :
    b.row.processorID = some processorID ↔ m.processorID = processorID := by
  rw [h.processorID, orNull]
  split
  next hempty =>
    rw [hempty]
    exact ⟨nofun, fun heq => absurd heq.symm hp⟩
  next => exact Option.some_inj

/-- Microseconds compared in nanoseconds. -/
theorem nanos_lt (a c : Int) : a * 1000 < c * 1000 ↔ a < c := by
  omega

theorem held (h : Corresponds m b) (hnow : Time.zero ≤ now) :
    b.row.LeaseHeld now ↔ m.leaseAfter now = true := by
  have hlease := h.lease
  unfold MockResumableBatch.leaseAfter BatchRow.LeaseHeld
  rw [decide_eq_true_eq]
  split at hlease
  next hzero =>
    rw [Option.map_eq_none_iff.1 hlease, hzero]
    exact ⟨nofun, fun hlt => absurd ((nanos_lt now Time.zero).1 hlt) (not_lt.2 hnow)⟩
  next =>
    obtain ⟨t, ht, heq⟩ := Option.map_eq_some_iff.1 hlease
    rw [ht, ← heq]
    constructor
    · rintro ⟨_, ⟨rfl⟩, hlt⟩
      exact (nanos_lt now _).2 hlt
    · intro hlt
      exact ⟨t, rfl, (nanos_lt now t).1 hlt⟩

theorem lapsed (h : Corresponds m b) (hnow : Time.zero ≤ now) (hne : m.leaseExpiresAt ≠ zeroTime) :
    b.row.LeaseLapsed now ↔ m.leaseAfter now = false := by
  have hheld := h.held hnow
  have hlease := h.lease
  rw [if_neg hne] at hlease
  obtain ⟨t, ht, -⟩ := Option.map_eq_some_iff.1 hlease
  unfold BatchRow.LeaseLapsed
  unfold BatchRow.LeaseHeld at hheld
  rw [ht] at hheld ⊢
  rw [← Bool.not_eq_true, ← hheld]
  constructor
  · rintro ⟨_, ⟨rfl⟩, hle⟩ ⟨_, ⟨rfl⟩, hlt⟩
    exact absurd hlt (not_lt.2 hle)
  · intro hnot
    refine ⟨t, rfl, not_lt.1 fun hlt => ?_⟩
    exact hnot ⟨t, rfl, hlt⟩

theorem nonTerminal (h : Corresponds m b) : b.row.NonTerminal ↔ m.terminal = false := by
  unfold BatchRow.NonTerminal
  rw [h.terminal]

/-- The fence of entry writes is the same. -/
theorem fence (h : Corresponds m b) (hnow : Time.zero ≤ now) (hp : processorID ≠ "")
    (epoch : Int) : OwnerLock now b.row.id processorID epoch b.row ↔
      m.ownedFence now processorID epoch = true := by
  unfold OwnerLock MockResumableBatch.ownedFence
  rw [h.owner hp, h.held hnow, h.nonTerminal, h.epoch, h.resumable]
  simp only [Bool.and_eq_true, Bool.not_eq_true', decide_eq_true_eq]
  tauto

/-- A lease of whole seconds. -/
theorem leaseUntil_eq {ttl : Duration} (hwhole : WholeSeconds ttl) :
    leaseUntil now ttl * 1000 = now * 1000 + ttl := by
  obtain ⟨n, rfl⟩ := hwhole
  unfold leaseUntil Duration.seconds
  rw [Int.mul_tdiv_cancel_left _ (by decide)]
  change ((now : Int) + n * 1000000) * 1000 = (now : Int) * 1000 + 1000000000 * n
  ring

theorem lease_set (hnow : Time.zero ≤ now) {ttl : Duration} (hpos : 0 < ttl)
    (hwhole : WholeSeconds ttl) : (some (leaseUntil now ttl)).map (· * 1000) =
      if now * 1000 + ttl = zeroTime then none else some (now * 1000 + ttl) := by
  have hlt : zeroTime < now * 1000 + ttl := by
    have hle : Time.zero * 1000 ≤ now * 1000 := Int.mul_le_mul_of_nonneg_right hnow (by decide)
    exact lt_of_le_of_lt hle (Int.lt_add_of_pos_right _ hpos)
  have hne : now * 1000 + ttl ≠ zeroTime := ne_of_gt hlt
  rw [if_neg hne, Option.map_some, leaseUntil_eq hwhole]

/-! ### Entries -/

theorem scan_mem (h : Corresponds m b) {e : ResumableEntry} :
    e ∈ m.entries ↔ ∃ r ∈ b.entries.rows, scanEntryRow b.row.id r = e := by
  rw [h.entries.mem_iff, List.mem_map]

/-- The search finds the row with the key. -/
theorem findEntry_eq (h : Corresponds m b) (requestID : String) :
    MockResumableStore.findEntry m.entries requestID =
      (b.entries.find requestID).map (scanEntryRow b.row.id) := by
  unfold MockResumableStore.findEntry
  cases hfind : b.entries.find requestID with
  | none =>
    refine List.find?_eq_none.2 fun e he hkey => ?_
    obtain ⟨r, hr, rfl⟩ := h.scan_mem.1 he
    exact List.find?_eq_none.1 hfind r hr hkey
  | some r =>
    obtain ⟨hr, hkey⟩ := EntryTable.mem_find hfind
    cases hmock : m.entries.find? (·.requestID = requestID) with
    | none =>
      have := List.find?_eq_none.1 hmock _ (h.scan_mem.2 ⟨r, hr, rfl⟩)
      exact absurd (decide_eq_true hkey) this
    | some e =>
      obtain ⟨r', hr', rfl⟩ := h.scan_mem.1 (List.mem_of_find?_eq_some hmock)
      have hkey' : r'.requestID = requestID := of_decide_eq_true (List.find?_some hmock :)
      rw [b.entries.eq_of_requestID hr hr' (hkey.trans hkey'.symm)]
      rfl

variable {f : ResumableEntry → ResumableEntry} {entries : List ResumableEntry}

theorem updateEntry_eq {requestID : String} (h : (entries.map (·.requestID)).Nodup) :
    MockResumableStore.updateEntry requestID f entries =
      entries.map fun e => if e.requestID = requestID then f e else e := by
  induction entries with
  | nil => rfl
  | cons e entries ih =>
    obtain ⟨hnot, hrest⟩ := List.nodup_cons.1 h
    unfold MockResumableStore.updateEntry
    rw [List.map_cons]
    split
    next hkey =>
      congr 1
      conv_lhs => rw [← List.map_id entries]
      refine List.map_congr_left fun x hx => ?_
      rw [if_neg fun hx' => hnot (List.mem_map.2 ⟨x, hx, hx'.trans hkey.symm⟩)]
      rfl
    next => rw [ih hrest]

theorem requestIDs_nodup (h : Corresponds m b) : (m.entries.map (·.requestID)).Nodup := by
  rw [(h.entries.map _).nodup_iff, List.map_map]
  exact b.entries.primaryKey

/-- Writing every entry like its row keeps the entries together. -/
theorem entries_map {g : EntryRow → EntryRow} {rows : List EntryRow} {batchID : String}
    (h : entries.Perm (rows.map (scanEntryRow batchID)))
    (hfg : ∀ r ∈ rows, f (scanEntryRow batchID r) = scanEntryRow batchID (g r)) :
    (entries.map f).Perm ((rows.map g).map (scanEntryRow batchID)) := by
  have heq : rows.map (f ∘ scanEntryRow batchID) = rows.map (scanEntryRow batchID ∘ g) :=
    List.map_congr_left hfg
  refine (h.map f).trans ?_
  rw [List.map_map, List.map_map, heq]

theorem sorted_map (h : entries.Pairwise (·.ordinal < ·.ordinal))
    (hf : ∀ e, (f e).ordinal = e.ordinal) :
    (entries.map f).Pairwise (·.ordinal < ·.ordinal) := by
  rw [List.pairwise_map]
  refine h.imp fun hlt => ?_
  rw [hf, hf]
  exact hlt

/-- A fenced write of an open entry. -/
theorem write (h : Corresponds m b) {requestID : String} {r : EntryRow}
    (hfind : b.entries.find requestID = some r) (hopen : r.IsOpen) {g : EntryRow → EntryRow}
    (hg : ∀ r, (g r).requestID = r.requestID) (hf : ∀ e, (f e).ordinal = e.ordinal)
    (hfg : ∀ r, f (scanEntryRow b.row.id r) = scanEntryRow b.row.id (g r))
    (hsubmitter : ∀ r, r.submittedBy ≠ some "" → (g r).submittedBy ≠ some "") :
    Corresponds { m with entries := MockResumableStore.updateEntry requestID f m.entries }
      { b with entries := b.entries.updateOpen requestID g hg } := by
  obtain ⟨hr, hkey⟩ := EntryTable.mem_find hfind
  have hopen' : ∀ x ∈ b.entries.rows, x.requestID = requestID → x.IsOpen := by
    intro x hx hxkey
    rw [b.entries.eq_of_requestID hx hr (hxkey.trans hkey.symm)]
    exact hopen
  refine ⟨h.processorID, h.epoch, h.recoveryAttempts, h.resumable, h.terminal, h.lease, h.leased,
    h.statusName, h.statusDoc, ?_, ?_, ?_⟩
  · change (MockResumableStore.updateEntry requestID f m.entries).Perm _
    rw [updateEntry_eq h.requestIDs_nodup, EntryTable.updateOpen_rows]
    refine entries_map h.entries fun x hx => ?_
    change (if x.requestID = requestID then f (scanEntryRow b.row.id x) else
      scanEntryRow b.row.id x) = scanEntryRow b.row.id _
    by_cases hxkey : x.requestID = requestID
    · have hboth : x.requestID = requestID ∧ x.IsOpen := ⟨hxkey, hopen' x hx hxkey⟩
      rw [if_pos hxkey, if_pos hboth, hfg]
    · have hnot : ¬ (x.requestID = requestID ∧ x.IsOpen) := fun hand => hxkey hand.1
      rw [if_neg hxkey, if_neg hnot]
  · change (MockResumableStore.updateEntry requestID f m.entries).Pairwise _
    rw [updateEntry_eq h.requestIDs_nodup]
    refine sorted_map h.sorted fun e => ?_
    split
    · exact hf e
    · rfl
  · intro x hx
    obtain ⟨x₀, hx₀, rfl⟩ := List.mem_map.1 hx
    split
    · exact hsubmitter x₀ (h.submitters x₀ hx₀)
    · exact h.submitters x₀ hx₀

theorem scan_mark (batchID : String) (now : Time) (processorID : String) (r : EntryRow) :
    MockResumableStore.markEntry processorID (scanEntryRow batchID r) =
      scanEntryRow batchID (r.mark now processorID) := rfl

theorem scan_commit (batchID : String) (now : Time) {result : ResumableResult}
    (hbytes : 0 ≤ result.resultBytes) (r : EntryRow) :
    MockResumableStore.commitEntry result (scanEntryRow batchID r) =
      scanEntryRow batchID (r.commit now result) := by
  have hsize : (if 0 < result.resultBytes then some result.resultBytes else none).getD 0 =
      result.resultBytes := by
    split
    · rfl
    · exact (le_antisymm (not_lt.1 ‹_›) hbytes).symm
  unfold MockResumableStore.commitEntry scanEntryRow EntryRow.commit
  dsimp only
  rw [orNull_getD, orNull_getD, orNull_getD, hsize]

theorem scan_activation (batchID : String) (now : Time) {e : ResumableActivationEntry}
    (hstatus : (EntryStatus.ofText? e.status).isSome) :
    MockResumableStore.newEntry batchID e = scanEntryRow batchID (activationRow now e) := by
  obtain ⟨s, hs⟩ := Option.isSome_iff_exists.1 hstatus
  have htext := EntryStatus.text_of_ofText? hs
  have hsize : (if e.resultBytes = 0 then none else some e.resultBytes).getD 0 = e.resultBytes := by
    split
    next h => exact h.symm
    next => rfl
  unfold MockResumableStore.newEntry scanEntryRow activationRow
  dsimp only
  rw [orNull_getD, orNull_getD, orNull_getD, hsize, e.entryStatus_of_text htext.symm, htext]
  rfl

theorem scan_recordSubmitter (batchID processorID : String) {r : EntryRow}
    (hr : r.submittedBy ≠ some "") :
    MockResumableStore.recordSubmitter processorID (scanEntryRow batchID r) =
      scanEntryRow batchID (r.recordSubmitter processorID) := by
  have hneeds : (r.status.text = EntryStatus.inFlight.text ∧ r.submittedBy.getD "" = "") ↔
    r.NeedsSubmitter := by
    rw [EntryStatus.text_inj, EntryRow.NeedsSubmitter]
    cases hs : r.submittedBy with
    | none => simp
    | some p =>
      have hp : p ≠ "" := fun hp => hr (by rw [hs, hp])
      simp [hp]
  unfold MockResumableStore.recordSubmitter EntryRow.recordSubmitter
  by_cases hn : r.NeedsSubmitter
  · rw [if_pos hn]
    exact if_pos (hneeds.2 hn)
  · rw [if_neg hn]
    exact if_neg fun hn' => hn (hneeds.1 hn')

/-- A page of the listing. -/
theorem page_eq (h : Corresponds m b) (after : Int) (limit : Nat) :
    (((b.entries.rows.filter (after < ·.ordinal)).insertionSort
      (·.ordinal ≤ ·.ordinal)).take limit).map (scanEntryRow b.row.id) =
      (m.entries.filter (after < ·.ordinal)).take limit := by
  rw [List.map_take]
  congr 1
  have hrows : (b.entries.rows.map EntryRow.ordinal).Nodup := by
    have hperm := h.entries.map (·.ordinal)
    rw [List.map_map] at hperm
    refine hperm.nodup_iff.1 ?_
    rw [List.Nodup, List.pairwise_map]
    exact h.sorted.imp fun hlt => ne_of_lt hlt
  have hsorted : (Keyset.sorted EntryRow.ordinal
      (b.entries.rows.filter (after < ·.ordinal))).Pairwise (·.ordinal < ·.ordinal) :=
    Keyset.sorted_lt (hrows.sublist (List.filter_sublist.map _))
  have hmock : (m.entries.filter (after < ·.ordinal)).Pairwise (·.ordinal < ·.ordinal) :=
    h.sorted.sublist List.filter_sublist
  refine List.Perm.eq_of_pairwise (fun a c _ _ hac hca => ?_) ?_ hmock ?_
  · exact absurd (lt_trans hac hca) (lt_irrefl _)
  · rw [List.pairwise_map]
    exact hsorted
  · refine ((List.perm_insertionSort _ _).map _).trans ?_
    refine List.Perm.trans ?_ (h.entries.filter _).symm
    rw [List.filter_map]
    rfl

end Corresponds

/-! ### Both stores -/

namespace StoreTwin

variable {t : StoreTwin} {op : TwinOp} {batchID : String}

/-- The batch with an ID is in both stores or in none. -/
theorem Corresponding.find_cases (h : t.Corresponding) (batchID : String) :
    (t.mock.find batchID = none ∧ t.table.find batchID = none) ∨
    ∃ m b, t.mock.find batchID = some m ∧ t.table.find batchID = some b ∧ b.row.id = batchID ∧
      Corresponds m b := by
  have hbatches := h.batches
  revert hbatches
  generalize t.mock = mock
  generalize t.table = table
  intro hbatches
  induction hbatches with
  | nil => exact .inl ⟨rfl, rfl⟩
  | @cons p b mock table hpb _ ih =>
    obtain ⟨hid, hcorresponds⟩ := hpb
    unfold MockResumableStore.find BatchTable.find at ih ⊢
    by_cases hb : b.row.id = batchID
    · rw [List.find?_cons_of_pos (by simpa using hid.trans hb),
        List.find?_cons_of_pos (by simpa using hb)]
      exact .inr ⟨p.2, b, rfl, rfl, hb, hcorresponds⟩
    · rw [List.find?_cons_of_neg (by simpa [hid] using hb), List.find?_cons_of_neg (by simpa using hb)]
      exact ih

/-- Writing back the batch that is there changes nothing. -/
theorem Corresponding.set_same (h : t.Corresponding) {b : BatchState}
    (hb : t.table.find batchID = some b) : t.table.set batchID b = t.table := by
  unfold BatchTable.set
  conv_rhs => rw [← List.map_id t.table]
  refine List.map_congr_left fun b₀ hb₀ => ?_
  split
  next hid =>
    have hid' : b.row.id = batchID := of_decide_eq_true (List.find?_some hb :)
    exact List.inj_on_of_nodup_map h.ids (List.mem_of_find?_eq_some hb) hb₀ (hid'.trans hid.symm)
  next => rfl

/-- The stores answer an operation that can be stored in the same way and still correspond. -/
structure Agrees (t : StoreTwin) (op : TwinOp) : Prop where
  outcome : op.Storable → t.SameOutcome op
  next : op.Storable → ∀ u, t.step op = some u → u.Corresponding

/-- Neither store changes. -/
theorem Corresponding.same (h : t.Corresponding) (htime : elapsed op = 0)
    (htable : t.table.perform t.now op = some (t.table, (t.mock.apply t.now op).2))
    (hmock : (t.mock.apply t.now op).1 = t.mock) : t.Agrees op where
  outcome hst := by
    unfold SameOutcome
    rw [BatchTable.apply, if_pos hst, htable]
    rfl
  next hst u hu := by
    unfold step at hu
    rw [BatchTable.apply, if_pos hst, htable, hmock, htime] at hu
    cases hu
    exact ⟨(Int.add_zero t.now).symm ▸ h.clock, h.ids, h.batches⟩

/-- Both stores write one batch. -/
theorem Corresponding.write (h : t.Corresponding) (htime : elapsed op = 0)
    {m : MockResumableBatch} {b : BatchState} (hid : b.row.id = batchID) (hmb : Corresponds m b)
    (htable : t.table.perform t.now op =
      some (t.table.set batchID b, (t.mock.apply t.now op).2))
    (hmock : (t.mock.apply t.now op).1 = t.mock.set batchID m) : t.Agrees op where
  outcome hst := by
    unfold SameOutcome
    rw [BatchTable.apply, if_pos hst, htable]
    rfl
  next hst u hu := by
    unfold step at hu
    rw [BatchTable.apply, if_pos hst, htable, hmock, htime] at hu
    cases hu
    refine ⟨(Int.add_zero t.now).symm ▸ h.clock, ?_, ?_⟩
    · have hmap : (t.table.set batchID b).map (·.row.id) = t.table.map (·.row.id) := by
        unfold BatchTable.set
        rw [List.map_map]
        refine List.map_congr_left fun b₀ _ => ?_
        change (if b₀.row.id = batchID then b else b₀).row.id = b₀.row.id
        split
        next hb₀ => rw [hid, hb₀]
        next => rfl
      exact hmap ▸ h.ids
    · unfold MockResumableStore.set BatchTable.set
      rw [List.forall₂_map_left_iff, List.forall₂_map_right_iff]
      refine h.batches.imp fun p b₀ hpb => ?_
      rw [hpb.1]
      split
      · exact ⟨hid.symm, hmb⟩
      · exact hpb

end StoreTwin

end BatchGateway
