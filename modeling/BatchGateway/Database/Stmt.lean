import BatchGateway.Database.Statements

/-! The statements as one type, and what they do to the entries. -/
namespace BatchGateway

/-- A statement with its arguments. The submitter record carries the epoch of the requeue call
that issues it, although its SQL does not compare it. -/
inductive Stmt where
  | pqEnqueue (jp : BatchJobPriority)
  | pqDequeue (processorID : String) (lease : Duration)
  | pqClaimOwned (processorID : String)
  | pqDelete (id : String)
  | activate (a : ResumableActivation)
  | renew (batchID processorID : String) (epoch : Int) (ttl : Duration)
  | requeue (batchID processorID : String) (epoch : Int) (requireExpiredLease bumpAttempts : Bool)
  | recordSubmitter (batchID processorID : String) (epoch : Int)
  | finalize (fin : ResumableFinalization)
  | mark (batchID requestID processorID : String) (epoch : Int)
  | checkpoint (batchID requestID processorID : String) (epoch : Int) (result : ResumableResult)
  | updateProgress (id : String) (epoch : Int) (counts : BatchRequestCounts)
  | dbUpdate (item : BatchItem) (expectedStatus : Option BatchStatusInfo)

namespace Stmt

variable {s : Stmt} {b b' : BatchState} {now : Time} {e : Int}

def exec (now : Time) : Stmt → BatchState → Except Err (Option BatchState)
  | pqEnqueue jp, b => .ok (pqEnqueueStmt jp b)
  | pqDequeue p lease, b => .ok (pqDequeueStmt now p lease b)
  | pqClaimOwned p, b => .ok (pqClaimOwnedStmt p b)
  | pqDelete id, b => .ok (pqDeleteStmt id now b)
  | activate a, b => activateStmt now a b
  | renew id p e ttl, b => .ok (renewStmt now id p e ttl b)
  | requeue id p e expired bump, b => .ok (requeueStmt now id p e expired bump b)
  | recordSubmitter id p _, b => .ok (recordSubmitterStmt id p b)
  | finalize fin, b => .ok (finalizeStmt now fin b)
  | mark id r p e, b => .ok (markStmt now id r p e b)
  | checkpoint id r p e result, b => .ok (checkpointStmt now id r p e result b)
  | updateProgress id e counts, b => .ok (updateProgressStmt id e counts b)
  | dbUpdate item expected, b => .ok (dbUpdateStmt item expected b)

/-- A statement that matched: its condition held, and it wrote what it writes. -/
theorem of_matched {P : Prop} [Decidable P] {x : BatchState}
    (h : (Except.ok (if P then some x else none) : Except Err _) = .ok (some b')) : P ∧ x = b' := by
  simpa using h

/-- The batch after the statement, whether or not it matched. -/
def apply (now : Time) (s : Stmt) (b : BatchState) : BatchState :=
  match s.exec now b with
  | .ok (some b') => b'
  | _ => b

/-- The epoch argument of a statement. -/
def carries : Stmt → Option Int
  | pqEnqueue jp => some jp.epoch
  | pqDequeue .. | pqClaimOwned .. | pqDelete .. => none
  | activate a => some a.epoch
  | renew _ _ e _ => some e
  | requeue _ _ e _ _ => some e
  | recordSubmitter _ _ e => some e
  | finalize fin => some fin.epoch
  | mark _ _ _ e => some e
  | checkpoint _ _ _ e _ => some e
  | updateProgress _ e _ => some e
  | dbUpdate item _ => some item.epoch

/-- What the store's own checks and its documented contract say about the arguments: only terminal
results are checkpointed, activation inserts pending and failed entries, and a row update carries
a positive epoch. -/
def Issued : Stmt → Prop
  | checkpoint _ _ _ _ result => result.status.isTerminal = true
  | activate a => ∀ x ∈ a.entries, x.status = EntryStatus.pending.text ∨
    x.status = EntryStatus.failed.text
  | dbUpdate item _ => 0 < item.epoch
  | _ => True

instance (s : Stmt) : Decidable s.Issued := by
  unfold Issued
  split <;> infer_instance

/-- No entry is inserted as submitted. -/
theorem Issued.not_inFlight {a : ResumableActivation} (h : (activate a).Issued)
    {x : ResumableActivationEntry} (hx : x ∈ a.entries) : x.entryStatus ≠ .inFlight := by
  rcases h x hx with hx | hx <;> simp [x.entryStatus_of_text hx]

theorem apply_of_exec (h : s.exec now b = .ok (some b')) : s.apply now b = b' := by
  simp [apply, h]

theorem apply_cases : s.apply now b = b ∨ s.exec now b = .ok (some (s.apply now b)) := by
  unfold apply
  split
  next h => exact .inr h
  next => exact .inl rfl

/-- What a statement other than the activation can do to one entry. -/
inductive Evolves (now : Time) : Stmt → EntryRow → EntryRow → Prop where
  | same {s : Stmt} {r : EntryRow} : Evolves now s r r
  | mark {id q p : String} {e : Int} {r : EntryRow} (hq : r.requestID = q) (ho : r.IsOpen) :
      Evolves now (mark id q p e) r (r.mark now p)
  | commit {id q p : String} {e : Int} {result : ResumableResult} {r : EntryRow}
      (hq : r.requestID = q) (ho : r.IsOpen) :
      Evolves now (checkpoint id q p e result) r (r.commit now result)
  | submitter {id p : String} {e : Int} {r : EntryRow} (hn : r.NeedsSubmitter) :
      Evolves now (recordSubmitter id p e) r { r with submittedBy := some p }

/-- A statement inserts the entries of an activation into an empty table, or evolves every row. -/
theorem rows_exec (h : s.exec now b = .ok (some b')) :
    (∃ a, s = activate a ∧ b.entries.rows = [] ∧
      b'.entries.rows = a.entries.map (activationRow now)) ∨
    ∃ f, b'.entries.rows = b.entries.rows.map f ∧ ∀ r, Evolves now s r (f r) := by
  cases s with
  | activate a =>
    obtain ⟨⟨-, -, -, -, -, he⟩, -, hrows⟩ := activateStmt_some h
    exact .inl ⟨a, rfl, he, hrows⟩
  | mark id q p e =>
    obtain ⟨-, rfl⟩ := of_matched h
    refine .inr ⟨_, rfl, fun r => ?_⟩
    split
    next hr => exact .mark hr.1 hr.2
    next => exact .same
  | checkpoint id q p e result =>
    obtain ⟨-, rfl⟩ := of_matched h
    refine .inr ⟨_, rfl, fun r => ?_⟩
    split
    next hr => exact .commit hr.1 hr.2
    next => exact .same
  | recordSubmitter id p e =>
    obtain ⟨-, rfl⟩ := of_matched h
    refine .inr ⟨_, rfl, fun r => ?_⟩
    unfold EntryRow.recordSubmitter
    split
    next hr => exact .submitter hr
    next => exact .same
  | _ =>
    obtain ⟨-, rfl⟩ := of_matched h
    exact .inr ⟨id, by simp, fun r => .same⟩

theorem id_exec (h : s.exec now b = .ok (some b')) : b'.row.id = b.row.id := by
  cases s with
  | activate a =>
    obtain ⟨-, hrow, -⟩ := activateStmt_some h
    rw [hrow, activatedRow]
  | _ =>
    obtain ⟨-, rfl⟩ := of_matched h
    rfl

/-- A statement that the database refuses never looks like a conflict. -/
theorem kind_of_exec_error {err : Err} (h : s.exec now b = .error err) : err.kind = .plain := by
  cases s with
  | activate a =>
    simp only [exec, activateStmt] at h
    split at h
    · split at h
      · split at h <;> cases h
        rfl
      · cases h
        rfl
    · cases h
  | _ => cases h

theorem specDecodes_exec (h : s.exec now b = .ok (some b')) :
    b'.row.specDecodes = b.row.specDecodes := by
  cases s with
  | activate a =>
    obtain ⟨-, hrow, -⟩ := activateStmt_some h
    rw [hrow, activatedRow]
  | _ =>
    obtain ⟨-, rfl⟩ := of_matched h
    rfl

/-- The statements that write the batch row and not only its entries. -/
def WritesRow : Stmt → Bool
  | mark .. | checkpoint .. | recordSubmitter .. => false
  | _ => true

/-- A finished row is matched by entry writes, which leave it alone, and by the status writes whose
guard does not exclude it. -/
theorem exec_terminal (h : s.exec now b = .ok (some b')) (ht : ¬ b.row.NonTerminal) :
    b'.row = b.row ∨ (∃ x, s = dbUpdate x none) ∨
    (∃ x old, s = dbUpdate x (some old) ∧ b.row.status = old) ∨
    ∃ fin, s = finalize fin ∧ fin.expectedStatus = some b.row.status.status := by
  have hv : b.row.status.status ≠ .validating := fun hv => ht (by rw [BatchRow.NonTerminal, hv]; rfl)
  cases s with
  | activate a =>
    obtain ⟨⟨-, -, -, hs, -⟩, -, -⟩ := activateStmt_some h
    exact absurd hs hv
  | dbUpdate x expected =>
    cases expected with
    | none => exact .inr (.inl ⟨x, rfl⟩)
    | some old =>
      exact .inr (.inr (.inl ⟨x, old, rfl, (of_matched h).1.2.1 old rfl⟩))
  | finalize fin =>
    exact .inr (.inr (.inr ⟨fin, rfl, (of_matched h).1.2.2.2.2.2.symm⟩))
  | _ =>
    obtain ⟨hguard, rfl⟩ := of_matched h
    first
    | exact .inl rfl
    | exact absurd hguard (by tauto)

/-- Without a change of epoch, only a row update or a finalization ends a job. -/
theorem exec_ends (h : s.exec now b = .ok (some b')) (ho : b.row.NonTerminal)
    (ht : ¬ b'.row.NonTerminal) (he : b'.row.epoch = b.row.epoch) :
    (∃ x expected doc, s = dbUpdate x expected ∧ x.bumpEpoch = false ∧ x.status = some doc ∧
      doc.status.isTerminal = true) ∨ ∃ fin, s = finalize fin := by
  cases s with
  | activate a =>
    obtain ⟨-, hrow, -⟩ := activateStmt_some h
    rw [hrow] at ht
    exact absurd rfl ht
  | finalize fin => exact .inr ⟨fin, rfl⟩
  | dbUpdate x expected =>
    obtain ⟨-, rfl⟩ := of_matched h
    cases hx : x.status with
    | none =>
      simp only [hx, BatchRow.NonTerminal, Option.getD_none] at ht
      exact absurd ho ht
    | some doc =>
      refine .inl ⟨x, expected, doc, rfl, ?_, hx, ?_⟩
      · by_contra hb
        simp only [Bool.not_eq_false] at hb
        simp only [hb, if_true] at he
        omega
      · simpa [hx, BatchRow.NonTerminal] using ht
  | _ =>
    obtain ⟨-, rfl⟩ := of_matched h
    first
    | exact absurd ho ht
    | (dsimp only at he; omega)

theorem Evolves.requestID {r r' : EntryRow} (h : Evolves now s r r') :
    r'.requestID = r.requestID := by
  cases h <;> rfl

/-- A finished entry never changes again. -/
theorem Evolves.eq_of_terminal {r r' : EntryRow} (h : Evolves now s r r')
    (ht : r.status.isTerminal = true) : r' = r := by
  cases h with
  | same => rfl
  | mark _ ho => simp [EntryRow.IsOpen, ht] at ho
  | commit _ ho => simp [EntryRow.IsOpen, ht] at ho
  | submitter hn => simp [hn.1, EntryStatus.isTerminal] at ht

theorem terminal_row_exec {r : EntryRow} (h : s.exec now b = .ok (some b'))
    (hr : r ∈ b.entries.rows) (ht : r.status.isTerminal = true) : r ∈ b'.entries.rows := by
  rcases rows_exec h with ⟨a, -, he, -⟩ | ⟨f, hf, hev⟩
  · rw [he] at hr
    cases hr
  · rw [hf, ← (hev r).eq_of_terminal ht]
    exact List.mem_map_of_mem hr

/-- A finished row after a statement was there before, or the statement put it there. -/
theorem terminal_row_origin {r' : EntryRow} (h : s.exec now b = .ok (some b'))
    (hr : r' ∈ b'.entries.rows) (ht : r'.status.isTerminal = true) :
    r' ∈ b.entries.rows ∨
    (∃ a, s = activate a ∧ ∃ x ∈ a.entries, r' = activationRow now x) ∨
    ∃ id q p e result r, s = checkpoint id q p e result ∧ r ∈ b.entries.rows ∧
      r.requestID = q ∧ r' = r.commit now result := by
  rcases rows_exec h with ⟨a, rfl, -, hrows⟩ | ⟨f, hrows, hev⟩
  · rw [hrows, List.mem_map] at hr
    obtain ⟨x, hx, rfl⟩ := hr
    exact .inr (.inl ⟨a, rfl, x, hx, rfl⟩)
  · rw [hrows, List.mem_map] at hr
    obtain ⟨r, hr, rfl⟩ := hr
    have hstep := hev r
    generalize f r = r' at hstep ht ⊢
    cases hstep with
    | same => exact .inl hr
    | mark => cases ht
    | commit hq => exact .inr (.inr ⟨_, _, _, _, _, r, rfl, hr, hq, rfl⟩)
    | submitter hn => simp [hn.1, EntryStatus.isTerminal] at ht

/-- Statements other than the activation add no request. -/
theorem requestID_origin {r' : EntryRow} (h : s.exec now b = .ok (some b'))
    (hr : r' ∈ b'.entries.rows) : (∃ r ∈ b.entries.rows, r.requestID = r'.requestID) ∨
      ∃ a, s = activate a ∧ ∃ x ∈ a.entries, r' = activationRow now x := by
  rcases rows_exec h with ⟨a, rfl, -, hrows⟩ | ⟨f, hrows, hev⟩
  · rw [hrows, List.mem_map] at hr
    obtain ⟨x, hx, rfl⟩ := hr
    exact .inr ⟨a, rfl, x, hx, rfl⟩
  · rw [hrows, List.mem_map] at hr
    obtain ⟨r, hr, rfl⟩ := hr
    exact .inl ⟨r, hr, ((hev r).requestID).symm⟩

/-- An entry write that matched found its entry open. -/
theorem open_of_mark {id q p : String} (h : (mark id q p e).exec now b = .ok (some b')) :
    ∃ r ∈ b.entries.rows, r.requestID = q ∧ r.IsOpen :=
  (of_matched h).1.2

theorem open_of_checkpoint {id q p : String} {result : ResumableResult}
    (h : (checkpoint id q p e result).exec now b = .ok (some b')) :
    (∃ r ∈ b.entries.rows, r.requestID = q ∧ r.IsOpen ∧ r.commit now result ∈ b'.entries.rows) := by
  obtain ⟨⟨-, r, hr, hq, ho⟩, rfl⟩ := of_matched h
  refine ⟨r, hr, hq, ho, ?_⟩
  rw [EntryTable.updateOpen_rows, List.mem_map]
  exact ⟨r, hr, if_pos ⟨hq, ho⟩⟩

end Stmt
end BatchGateway
