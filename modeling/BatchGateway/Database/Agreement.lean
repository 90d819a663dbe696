import BatchGateway.Database.Twin

/-! The in-memory store and the database agree on every operation that keeps them together. -/
namespace BatchGateway

open Interleaving

/-! ### What the operations write -/

namespace Corresponds

variable {m : MockResumableBatch} {b : BatchState} {now : Time} {ttl : Duration}

theorem lease_ne_zero (hnow : Time.zero ≤ now) (hpos : 0 < ttl) : now * 1000 + ttl ≠ zeroTime := by
  have hle : Time.zero * 1000 ≤ now * 1000 := Int.mul_le_mul_of_nonneg_right hnow (by decide)
  exact ne_of_gt (lt_of_le_of_lt hle (Int.lt_add_of_pos_right _ hpos))

section

variable (h : Corresponds m b)
include h

theorem renew (hnow : Time.zero ≤ now) (hpos : 0 < ttl) (hwhole : WholeSeconds ttl) :
    Corresponds { m with leaseExpiresAt := now * 1000 + ttl }
      { b with row := { b.row with ownerLeaseExpiresAt := some (leaseUntil now ttl) } } :=
  ⟨h.processorID, h.epoch, h.recoveryAttempts, h.resumable, h.terminal,
    lease_set hnow hpos hwhole, fun _ _ => lease_ne_zero hnow hpos, h.statusName, h.statusDoc,
    h.entries, h.sorted, h.submitters⟩

/-- A batch that is still open holds no final document. -/
theorem statusDoc_none (hopen : m.terminal = false) : m.statusDoc = none := by
  cases hdoc : m.statusDoc with
  | none => rfl
  | some doc =>
    have hterminal := (h.statusDoc doc hdoc).2
    rw [hopen] at hterminal
    cases hterminal

theorem entries_nil : m.entries = [] ↔ b.entries.rows = [] := by
  have hlength := h.entries.length_eq
  rw [List.length_map] at hlength
  rw [← List.length_eq_zero_iff, ← List.length_eq_zero_iff, hlength]

theorem activate (hnow : Time.zero ≤ now) {a : ResumableActivation} (hpos : 0 < a.leaseTTL)
    (hwhole : WholeSeconds a.leaseTTL) (hopen : m.terminal = false) (hid : b.row.id = a.batchID)
    (hempty : m.entries = [])
    (hrequests : ((a.entries.map (activationRow now)).map EntryRow.requestID).Nodup)
    (hordinals : (a.entries.map (·.ordinal)).Nodup)
    (hstatuses : ∀ e ∈ a.entries, (EntryStatus.ofText? e.status).isSome) :
    Corresponds { m with
      entries := (m.entries ++ a.entries.map (MockResumableStore.newEntry a.batchID)).insertionSort
        (·.ordinal ≤ ·.ordinal)
      resumable := true
      leaseExpiresAt := now * 1000 + a.leaseTTL
      statusName := "in_progress" }
      ⟨activatedRow now a b.row, a.entries.map (activationRow now), hrequests⟩ := by
  have hnew : a.entries.map (MockResumableStore.newEntry a.batchID) =
      (a.entries.map (activationRow now)).map (scanEntryRow a.batchID) := by
    rw [List.map_map]
    exact List.map_congr_left fun e he => scan_activation a.batchID now (hstatuses e he)
  have hsorted : (Keyset.sorted (·.ordinal)
      (a.entries.map (MockResumableStore.newEntry a.batchID))).Pairwise (·.ordinal < ·.ordinal) := by
    apply Keyset.sorted_lt
    rw [List.map_map]
    exact hordinals
  refine ⟨h.processorID, h.epoch, h.recoveryAttempts, rfl, hopen.symm, lease_set hnow hpos hwhole,
    fun _ _ => lease_ne_zero hnow hpos, fun _ => rfl, ?_, ?_, ?_, ?_⟩
  · intro doc hdoc
    rw [h.statusDoc_none hopen] at hdoc
    cases hdoc
  · rw [hempty, List.nil_append]
    refine (List.perm_insertionSort _ _).trans ?_
    rw [hnew]
    change List.Perm _ ((a.entries.map (activationRow now)).map (scanEntryRow b.row.id))
    rw [hid]
  · rw [hempty, List.nil_append]
    exact hsorted
  · intro r hr
    obtain ⟨e, -, rfl⟩ := List.mem_map.1 hr
    exact nofun

theorem finalize {doc : BatchStatusInfo} (hdoc : doc.status.isTerminal = true) :
    Corresponds { m with
      statusDoc := some doc, terminal := true, resumable := false, leaseExpiresAt := zeroTime }
      { b with row := { b.row with
        status := doc, resumable := false, ownerLeaseExpiresAt := none } } := by
  refine ⟨h.processorID, h.epoch, h.recoveryAttempts, rfl, hdoc, rfl, nofun, nofun, ?_, h.entries,
    h.sorted, h.submitters⟩
  rintro x ⟨rfl⟩
  exact ⟨rfl, rfl⟩

/-- A requeue: the rows are given by what the second statement makes of them. -/
theorem requeue {processorID : String} (hp : processorID ≠ "") (bumpAttempts : Bool)
    {entries : EntryTable}
    (hrows : entries.rows = b.entries.rows.map (EntryRow.recordSubmitter processorID)) :
    Corresponds { m with
      processorID := ""
      leaseExpiresAt := zeroTime
      epoch := m.epoch + 1
      recoveryAttempts := if bumpAttempts then m.recoveryAttempts + 1 else m.recoveryAttempts
      entries := m.entries.map (MockResumableStore.recordSubmitter processorID) }
      { row := { b.row with
          processorID := none
          ownerLeaseExpiresAt := none
          epoch := b.row.epoch + 1
          recoveryAttempts :=
            if bumpAttempts then b.row.recoveryAttempts + 1 else b.row.recoveryAttempts }
        entries } := by
  refine ⟨rfl, ?_, ?_, h.resumable, h.terminal, rfl, ?_, h.statusName, h.statusDoc, ?_, ?_, ?_⟩
  · exact congrArg (· + 1) h.epoch
  · change (if bumpAttempts then b.row.recoveryAttempts + 1 else b.row.recoveryAttempts) = _
    rw [h.recoveryAttempts]
  · exact fun _ hne => absurd rfl hne
  · change List.Perm _ (entries.rows.map _)
    rw [hrows]
    exact entries_map h.entries fun r hr => scan_recordSubmitter _ _ (h.submitters r hr)
  · refine sorted_map h.sorted fun e => ?_
    unfold MockResumableStore.recordSubmitter
    split <;> rfl
  · intro r hr
    change r ∈ entries.rows at hr
    rw [hrows] at hr
    obtain ⟨r₀, hr₀, rfl⟩ := List.mem_map.1 hr
    unfold EntryRow.recordSubmitter
    split
    · simpa using hp
    · exact h.submitters r₀ hr₀

/-- A status change of an open batch. -/
theorem setStatus (hopen : m.terminal = false) (doc : BatchStatusInfo) :
    Corresponds { m with statusName := doc.status.text, terminal := doc.status.isTerminal }
      { b with row := { b.row with status := doc } } := by
  refine ⟨h.processorID, h.epoch, h.recoveryAttempts, h.resumable, rfl, h.lease, h.leased,
    fun _ => rfl, ?_, h.entries, h.sorted, h.submitters⟩
  intro x hx
  rw [h.statusDoc_none hopen] at hx
  cases hx

theorem any_entries (requestID : String) :
    (b.entries.rows.any fun r => r.requestID = requestID ∧ r.IsOpen) =
      m.entries.any fun e => e.requestID = requestID ∧ e.isTerminal = false := by
  rw [h.entries.any_eq, List.any_map]
  refine congrArg b.entries.rows.any (funext fun r => ?_)
  simp only [Function.comp, scanEntryRow_isTerminal]
  rfl

end

end Corresponds

namespace StoreTwin

variable {t : StoreTwin} {op : TwinOp} {batchID : String}

section

variable {β : Type} {f : β → TwinOutcome} {task : Task β} {r : MockResumableStore × β}

/-- Neither store changes: the in-memory store returns as it is, and the client leaves the row of
its batch alone. -/
theorem Corresponding.agree_same (h : t.Corresponding) (op : TwinOp) (f : β → TwinOutcome)
    (task : Task β) (r : MockResumableStore × β) (htime : elapsed op = 0)
    (htable : t.table.perform t.now op = (t.table.run t.now batchID task).map (·.map id f))
    (hmock : t.mock.apply t.now op = r.map id f) (a a' : β)
    (hrun : runRow t.now (t.table.find batchID) task = some (t.table.find batchID, a))
    (hr : r = (t.mock, a')) (houtcome : f a = f a') : t.Agrees op := by
  have hback : t.table.run t.now batchID task = some (t.table, a) := by
    unfold BatchTable.run
    rw [hrun]
    cases hb : t.table.find batchID with
    | none => rfl
    | some b =>
      change some (t.table.set batchID b, a) = _
      rw [h.set_same hb]
  rw [hr] at hmock
  refine h.same htime ?_ ?_
  · rw [htable, hback, hmock]
    change some (t.table, f a) = some (t.table, f a')
    rw [houtcome]
  · rw [hmock]
    rfl

/-- Both stores write the batch. -/
theorem Corresponding.agree_write (h : t.Corresponding) (htime : elapsed op = 0)
    (htable : t.table.perform t.now op = (t.table.run t.now batchID task).map (·.map id f))
    (hmock : t.mock.apply t.now op = r.map id f) {m' : MockResumableBatch} {b b' : BatchState}
    (hb : t.table.find batchID = some b) (hmb : Corresponds m' b') (hid : b'.row.id = batchID)
    (a : β) (hrun : runRow t.now (some b) task = some (some b', a))
    (hr : r = (t.mock.set batchID m', a)) : t.Agrees op := by
  rw [hr] at hmock
  refine h.write htime hid hmb ?_ ?_
  · unfold BatchTable.run at htable
    rw [hb, hrun] at htable
    rw [htable, hmock]
    rfl
  · rw [hmock]
    rfl

end

/-! ### The operations -/

variable {processorID : String} {epoch : Int}

theorem renew_agrees (h : t.Corresponding) {ttl : Duration}
    (hc : t.Orderly (.renew batchID processorID epoch ttl)) :
    t.Agrees (.renew batchID processorID epoch ttl) := by
  obtain ⟨hp, hwhole⟩ := hc
  have hsame := h.agree_same (.renew batchID processorID epoch ttl) .ofUnit
    (renewResumableBatchLease batchID processorID epoch ttl)
    (t.mock.renewResumableBatchLease t.now batchID processorID epoch ttl) rfl rfl rfl
  unfold renewResumableBatchLease MockResumableStore.renewResumableBatchLease at hsame
  by_cases httl : ttl ≤ 0
  · simp only [httl, if_true] at hsame
    exact hsame _ _ rfl rfl rfl
  simp only [httl, if_false] at hsame
  rcases h.find_cases batchID with ⟨hm, hb⟩ | ⟨m, b, hm, hb, hid, hmb⟩
  · rw [hm, hb] at hsame
    exact hsame _ _ rfl rfl rfl
  · have hguard : (b.row.id = batchID ∧ b.row.processorID = some processorID ∧
        b.row.epoch = epoch ∧ b.row.resumable = true ∧ b.row.LeaseHeld t.now ∧
        b.row.NonTerminal) ↔ m.ownedFence t.now processorID epoch = true := by
      rw [← hmb.fence h.clock hp, OwnerLock, hid]
      tauto
    have hmock : (m.terminal ∨ m.resumable = false ∨ m.processorID ≠ processorID ∨
        m.epoch ≠ epoch ∨ m.leaseAfter t.now = false) ↔
        ¬ m.ownedFence t.now processorID epoch = true := by
      unfold MockResumableBatch.ownedFence
      simp only [Bool.and_eq_true, Bool.not_eq_true', decide_eq_true_eq]
      rw [← Bool.not_eq_true m.terminal, ← Bool.not_eq_true m.resumable,
        ← Bool.not_eq_true (m.leaseAfter t.now)]
      tauto
    by_cases hf : m.ownedFence t.now processorID epoch = true
    · have hstmt : (Stmt.renew batchID processorID epoch ttl).exec t.now b = .ok (some { b with
          row := { b.row with ownerLeaseExpiresAt := some (leaseUntil t.now ttl) } }) := by
        simp only [Stmt.exec, renewStmt, if_pos (hguard.2 hf)]
      have hset : t.mock.renewResumableBatchLease t.now batchID processorID epoch ttl =
          (t.mock.set batchID { m with leaseExpiresAt := t.now * 1000 + ttl }, .ok ()) := by
        simp only [MockResumableStore.renewResumableBatchLease, httl, if_false, hm,
          if_neg (mt hmock.1 (not_not.2 hf))]
      refine h.agree_write rfl rfl rfl hb (hmb.renew h.clock (not_le.1 httl) hwhole) hid (.ok ())
        ?_ hset
      simp only [renewResumableBatchLease, httl, if_false, runRow_hit hstmt]
      rfl
    · have hstmt : (Stmt.renew batchID processorID epoch ttl).exec t.now b = .ok none := by
        simp only [Stmt.exec, renewStmt, if_neg (mt hguard.1 hf)]
      rw [hm, hb] at hsame
      simp only [runRow_miss hstmt, if_pos (hmock.2 hf)] at hsame
      exact hsame _ _ rfl rfl rfl

theorem activate_agrees (h : t.Corresponding) {a : ResumableActivation}
    (hc : t.Orderly (.activate a)) : t.Agrees (.activate a) := by
  obtain ⟨hrequests, hordinals, hstatuses, hwhole, hvalidating⟩ := hc
  have hsame := h.agree_same (.activate a) .ofUnit (activateResumableBatch a)
    (t.mock.activateResumableBatch t.now a) rfl rfl rfl
  unfold activateResumableBatch MockResumableStore.activateResumableBatch at hsame
  by_cases hids : a.batchID = "" ∨ a.processorID = ""
  · simp only [hids, if_true] at hsame
    exact hsame _ _ rfl rfl rfl
  by_cases httl : a.leaseTTL ≤ 0
  · simp only [hids, httl, if_true, if_false] at hsame
    exact hsame _ _ rfl rfl rfl
  by_cases hnone : a.entries = []
  · simp only [hids, httl, hnone, if_true, if_false] at hsame
    exact hsame _ _ rfl rfl rfl
  simp only [hids, httl, hnone, if_false] at hsame
  rcases h.find_cases a.batchID with ⟨hm, hb⟩ | ⟨m, b, hm, hb, hid, hmb⟩
  · rw [hm, hb] at hsame
    exact hsame _ _ rfl rfl rfl
  · have hp : a.processorID ≠ "" := fun hp => hids (.inr hp)
    have hguard : (b.row.id = a.batchID ∧ b.row.processorID = some a.processorID ∧
        b.row.epoch = a.epoch ∧ b.row.status.status = .validating ∧ b.row.resumable = false ∧
        b.entries.rows = []) ↔ ¬ (m.terminal ∨ m.resumable ∨ m.entries ≠ [] ∨
          m.processorID ≠ a.processorID ∨ m.epoch ≠ a.epoch) := by
      rw [hmb.owner hp, hmb.epoch, hmb.resumable, ← hmb.entries_nil]
      have hopen : b.row.status.status = .validating → m.terminal = false := by
        intro hv
        rw [← hmb.terminal, hv]
        rfl
      have hback : m.terminal = false → m.resumable = false → b.row.status.status = .validating :=
        fun ht hr => hvalidating b hb (hmb.nonTerminal.2 ht) (hmb.resumable.trans hr)
      simp only [not_or, Bool.not_eq_true, ne_eq, not_not]
      tauto
    by_cases hg : m.terminal ∨ m.resumable ∨ m.entries ≠ [] ∨ m.processorID ≠ a.processorID ∨
        m.epoch ≠ a.epoch
    · have hstmt : (Stmt.activate a).exec t.now b = .ok none := by
        simp only [Stmt.exec, activateStmt, if_neg fun hg' => hguard.1 hg' hg]
      rw [hm, hb] at hsame
      simp only [runRow_miss hstmt, if_pos hg] at hsame
      exact hsame _ _ rfl rfl rfl
    · have hopen : m.terminal = false := Bool.eq_false_iff.2 fun ht => hg (.inl ht)
      have hempty : m.entries = [] := by
        by_contra hne
        exact hg (.inr (.inr (.inl hne)))
      have hkeys : ((a.entries.map (activationRow t.now)).map EntryRow.requestID).Nodup := by
        rw [List.map_map]
        exact hrequests
      have hstmt : (Stmt.activate a).exec t.now b =
          .ok (some ⟨activatedRow t.now a b.row, a.entries.map (activationRow t.now), hkeys⟩) := by
        simp only [Stmt.exec, activateStmt, if_pos (hguard.2 hg), dif_pos hrequests,
          if_pos hstatuses]
      have hset : t.mock.activateResumableBatch t.now a = (t.mock.set a.batchID { m with
          entries := (m.entries ++ a.entries.map
            (MockResumableStore.newEntry a.batchID)).insertionSort (·.ordinal ≤ ·.ordinal)
          resumable := true
          leaseExpiresAt := t.now * 1000 + a.leaseTTL
          statusName := "in_progress" }, .ok ()) := by
        simp only [MockResumableStore.activateResumableBatch, hids, httl, hnone, if_false, hm,
          if_neg hg]
      refine h.agree_write rfl rfl rfl hb (hmb.activate h.clock (not_le.1 httl) hwhole hopen hid
        hempty hkeys hordinals hstatuses) hid (.ok ()) ?_ hset
      simp only [activateResumableBatch, hids, httl, hnone, if_false, runRow_hit hstmt]
      rfl

theorem requeue_agrees (h : t.Corresponding) {requireExpiredLease bumpAttempts : Bool}
    (hc : t.Orderly (.requeue batchID processorID epoch requireExpiredLease bumpAttempts)) :
    t.Agrees (.requeue batchID processorID epoch requireExpiredLease bumpAttempts) := by
  have hp : processorID ≠ "" := hc
  have hsame := h.agree_same
    (.requeue batchID processorID epoch requireExpiredLease bumpAttempts) .ofUnit
    (requeueResumableOrphan batchID processorID epoch requireExpiredLease bumpAttempts)
    (t.mock.requeueResumableOrphan t.now batchID processorID epoch requireExpiredLease bumpAttempts)
    rfl rfl rfl
  unfold requeueResumableOrphan MockResumableStore.requeueResumableOrphan at hsame
  rcases h.find_cases batchID with ⟨hm, hb⟩ | ⟨m, b, hm, hb, hid, hmb⟩
  · rw [hm, hb] at hsame
    exact hsame _ _ rfl rfl rfl
  · have hguard : (b.row.id = batchID ∧ b.row.processorID = some processorID ∧
        b.row.epoch = epoch ∧ b.row.resumable = true ∧ b.row.NonTerminal ∧
        (requireExpiredLease = true → b.row.LeaseLapsed t.now)) ↔
        ¬ (m.terminal ∨ m.resumable = false ∨ m.processorID ≠ processorID ∨ m.epoch ≠ epoch) ∧
        ¬ (requireExpiredLease ∧ m.leaseAfter t.now) := by
      rw [hmb.owner hp, hmb.epoch, hmb.resumable, hmb.nonTerminal]
      have hlapsed : m.resumable = true → m.processorID = processorID →
          (b.row.LeaseLapsed t.now ↔ m.leaseAfter t.now = false) := by
        intro hr ho
        exact hmb.lapsed h.clock (hmb.leased hr (ho ▸ hp))
      simp only [not_or, Bool.not_eq_true, Bool.not_eq_false, ne_eq, not_not, not_and]
      tauto
    by_cases hg : ¬ (m.terminal ∨ m.resumable = false ∨ m.processorID ≠ processorID ∨
        m.epoch ≠ epoch) ∧ ¬ (requireExpiredLease ∧ m.leaseAfter t.now)
    · let row : BatchRow := { b.row with
        processorID := none
        ownerLeaseExpiresAt := none
        epoch := b.row.epoch + 1
        recoveryAttempts :=
          if bumpAttempts then b.row.recoveryAttempts + 1 else b.row.recoveryAttempts }
      have hrequeue : (Stmt.requeue batchID processorID epoch requireExpiredLease
          bumpAttempts).exec t.now b = .ok (some { b with row }) := by
        simp only [Stmt.exec, requeueStmt, if_pos (hguard.2 hg), row]
      have hset : t.mock.requeueResumableOrphan t.now batchID processorID epoch requireExpiredLease
          bumpAttempts = (t.mock.set batchID { m with
            processorID := ""
            leaseExpiresAt := zeroTime
            epoch := m.epoch + 1
            recoveryAttempts := if bumpAttempts then m.recoveryAttempts + 1 else m.recoveryAttempts
            entries := m.entries.map (MockResumableStore.recordSubmitter processorID) },
          .ok ()) := by
        simp only [MockResumableStore.requeueResumableOrphan, hm, if_neg hg.1, if_neg hg.2]
      -- the second statement matches when an entry needs a submitter
      by_cases hneeds : ∃ r ∈ b.entries.rows, r.NeedsSubmitter
      · have hrecord : (Stmt.recordSubmitter batchID processorID epoch).exec t.now { b with row } =
            .ok (some ⟨row, b.entries.mapRows _
              (EntryRow.recordSubmitter_requestID processorID)⟩) := by
          have hboth : row.id = batchID ∧ ∃ r ∈ b.entries.rows, r.NeedsSubmitter := ⟨hid, hneeds⟩
          simp only [Stmt.exec, recordSubmitterStmt, if_pos hboth]
        have hwritten : Corresponds _ ⟨row, b.entries.mapRows _
            (EntryRow.recordSubmitter_requestID processorID)⟩ := hmb.requeue hp bumpAttempts rfl
        refine h.agree_write rfl rfl rfl hb hwritten hid (.ok ()) ?_ hset
        simp only [requeueResumableOrphan, runRow_hit hrequeue, runRow_hit hrecord]
        rfl
      · have hrecord : (Stmt.recordSubmitter batchID processorID epoch).exec t.now { b with row } =
            .ok none := by
          have hnot : ¬ (row.id = batchID ∧ ∃ r ∈ b.entries.rows, r.NeedsSubmitter) :=
            fun hboth => hneeds hboth.2
          simp only [Stmt.exec, recordSubmitterStmt, if_neg hnot]
        have hrows : b.entries.rows =
            b.entries.rows.map (EntryRow.recordSubmitter processorID) := by
          conv_lhs => rw [← List.map_id b.entries.rows]
          refine List.map_congr_left fun r hr => ?_
          exact (if_neg fun hn => hneeds ⟨r, hr, hn⟩).symm
        refine h.agree_write rfl rfl rfl hb (hmb.requeue hp bumpAttempts hrows) hid (.ok ()) ?_ hset
        simp only [requeueResumableOrphan, runRow_hit hrequeue, runRow_miss hrecord]
        rfl
    · have hstmt : (Stmt.requeue batchID processorID epoch requireExpiredLease
          bumpAttempts).exec t.now b = .ok none := by
        simp only [Stmt.exec, requeueStmt, if_neg (mt hguard.1 hg)]
      rw [hm, hb] at hsame
      simp only [runRow_miss hstmt] at hsame
      refine hsame _ (.ok ()) rfl ?_ rfl
      by_cases hfirst : m.terminal ∨ m.resumable = false ∨ m.processorID ≠ processorID ∨
          m.epoch ≠ epoch
      · rw [if_pos hfirst]
      · have hsecond : requireExpiredLease ∧ m.leaseAfter t.now := by
          by_contra hnot
          exact hg ⟨hfirst, hnot⟩
        rw [if_neg hfirst, if_pos hsecond]

theorem runRow_committed {β : Type} (now : Time) (b : BatchState) (batchID : String)
    (k : (Call.committedStatus batchID).Resp → Task β) :
    runRow now (some b) (call (.committedStatus batchID) >>= k) =
      runRow now (some b) (k (.ok (some b.row.status))) := rfl

theorem runRow_entryStatus {β : Type} (now : Time) (b : BatchState)
    (batchID requestID processorID : String) (epoch : Int)
    (k : (Call.entryStatus batchID requestID processorID epoch).Resp → Task β) :
    runRow now (some b) (call (.entryStatus batchID requestID processorID epoch) >>= k) =
      runRow now (some b) (k (.ok
        (if b.row.processorID = some processorID ∧ b.row.epoch = epoch then
          (b.entries.find requestID).map EntryRow.status
        else none))) := rfl

theorem text_injective {s s' : BatchStatus} (h : s.text = s'.text) : s = s' := by
  revert h
  cases s <;> cases s' <;> decide

theorem finalize_agrees (h : t.Corresponding) {fin : ResumableFinalization}
    (hc : t.Orderly (.finalize fin)) : t.Agrees (.finalize fin) := by
  obtain ⟨hopen, hterminal, hdoc⟩ := hc
  have hsame := h.agree_same (.finalize fin) .ofUnit (finalizeResumableBatch fin)
    (t.mock.finalizeResumableBatch t.now fin) rfl rfl rfl
  unfold finalizeResumableBatch MockResumableStore.finalizeResumableBatch at hsame
  cases hexpected : fin.expectedStatus with
  | none =>
    simp only [hexpected] at hsame
    by_cases hids : fin.batchID = "" ∨ fin.processorID = ""
    · rw [if_pos hids] at hsame
      exact hsame _ _ rfl rfl rfl
    · rw [if_neg hids] at hsame
      exact hsame _ _ rfl rfl rfl
  | some expected =>
    simp only [hexpected] at hsame
    by_cases hids : fin.batchID = "" ∨ fin.processorID = ""
    · simp only [hids, if_true] at hsame
      exact hsame _ _ rfl rfl rfl
    simp only [hids, if_false] at hsame
    rcases h.find_cases fin.batchID with ⟨hm, hb⟩ | ⟨m, b, hm, hb, hid, hmb⟩
    · rw [hm, hb] at hsame
      exact hsame _ _ rfl rfl rfl
    · have hp : fin.processorID ≠ "" := fun hp => hids (.inr hp)
      have hguard : (b.row.id = fin.batchID ∧ b.row.processorID = some fin.processorID ∧
          b.row.epoch = fin.epoch ∧ b.row.resumable = true ∧ b.row.LeaseHeld t.now ∧
          some b.row.status.status = fin.expectedStatus) ↔
          m.ownedFence t.now fin.processorID fin.epoch = true ∧ m.statusName = expected.text := by
        rw [← hmb.fence h.clock hp, OwnerLock, hexpected, Option.some_inj, hid]
        have hstatus : b.row.resumable = true →
            (m.statusName = expected.text ↔ b.row.status.status = expected) := by
          intro hr
          rw [hmb.statusName (hmb.resumable ▸ hr)]
          exact ⟨text_injective, fun heq => by rw [heq]⟩
        have hnon : b.row.status.status = expected → b.row.NonTerminal := by
          intro heq
          unfold BatchRow.NonTerminal
          rw [heq]
          exact hopen expected hexpected
        tauto
      by_cases hg : m.ownedFence t.now fin.processorID fin.epoch = true ∧
          m.statusName = expected.text
      · have hstmt : (Stmt.finalize fin).exec t.now b = .ok (some { b with row := { b.row with
            status := fin.status, resumable := false, ownerLeaseExpiresAt := none } }) := by
          simp only [Stmt.exec, finalizeStmt, if_pos (hguard.2 hg)]
        have hset : t.mock.finalizeResumableBatch t.now fin = (t.mock.set fin.batchID { m with
            statusDoc := some fin.status
            terminal := true
            resumable := false
            leaseExpiresAt := zeroTime }, .ok ()) := by
          simp only [MockResumableStore.finalizeResumableBatch, hids, if_false, hexpected, hm,
            if_pos hg]
        refine h.agree_write rfl rfl rfl hb (hmb.finalize hterminal) hid (.ok ()) ?_ hset
        simp only [finalizeResumableBatch, hexpected, hids, if_false, runRow_hit hstmt]
        rfl
      · have hstmt : (Stmt.finalize fin).exec t.now b = .ok none := by
          simp only [Stmt.exec, finalizeStmt, if_neg (mt hguard.1 hg)]
        -- the document is there already, or somebody else owns the batch
        have hcommitted : b.row.status = fin.status ↔
            m.terminal = true ∧ m.statusDoc = some fin.status := by
          constructor
          · intro heq
            have hhas := hdoc b hb heq m hm
            exact ⟨(hmb.statusDoc fin.status hhas).2, hhas⟩
          · intro hhas
            exact (hmb.statusDoc fin.status hhas.2).1
        rw [hm, hb] at hsame
        simp only [runRow_miss hstmt, runRow_committed, Option.some_inj, if_neg hg] at hsame
        by_cases heq : b.row.status = fin.status
        · rw [if_pos heq, if_pos (hcommitted.1 heq)] at hsame
          exact hsame _ _ rfl rfl rfl
        · rw [if_neg heq, if_neg (mt hcommitted.2 heq)] at hsame
          exact hsame _ _ rfl rfl rfl

/-! ### Entries -/

/-- The statement of an entry write, and the reason when it matched nothing. -/
def entryTask (s : Stmt) (name batchID requestID processorID : String) (epoch : Int) :
    Task (Except Err Bool) := do
  match ← call (.exec s) with
  | .error e => return .error (e.wrap name)
  | .ok true => return .ok true
  | .ok false => entryNotUpdatable name batchID requestID processorID epoch

section

variable {s : Stmt} {name requestID processorID : String} {epoch : Int}
  {f : ResumableEntry → ResumableEntry} {g : EntryRow → EntryRow}

/-- What an entry write returns that matched nothing. -/
theorem runRow_entryTask_miss {b : BatchState} (hs : s.exec t.now b = .ok none) :
    ∃ r, runRow t.now (some b) (entryTask s name batchID requestID processorID epoch) =
        some (some b, r) ∧
      TwinOutcome.ofBool r = if (b.row.processorID = some processorID ∧ b.row.epoch = epoch) ∧
        ∃ e ∈ b.entries.find requestID, e.status.isTerminal = true then .duplicate
      else .conflict := by
  unfold entryTask
  rw [runRow_miss hs]
  unfold entryNotUpdatable
  simp only [runRow_entryStatus]
  by_cases howner : b.row.processorID = some processorID ∧ b.row.epoch = epoch
  · rw [if_pos howner]
    cases hfind : b.entries.find requestID with
    | none => exact ⟨_, rfl, (if_neg fun hdup => by obtain ⟨-, e, he, -⟩ := hdup; cases he).symm⟩
    | some e =>
      by_cases hterminal : e.status.isTerminal = true
      · refine ⟨.ok false, ?_, (if_pos ⟨howner, e, rfl, hterminal⟩).symm⟩
        simp only [Option.map_some, if_pos hterminal]
        rfl
      · have hnot : ¬ ((b.row.processorID = some processorID ∧ b.row.epoch = epoch) ∧
            ∃ e' ∈ some e, e'.status.isTerminal = true) := by
          rintro ⟨-, e', ⟨rfl⟩, he'⟩
          exact hterminal he'
        rw [if_neg hnot]
        simp only [Option.map_some, if_neg hterminal]
        exact ⟨_, rfl, rfl⟩
  · rw [if_neg howner]
    exact ⟨_, rfl, (if_neg fun hdup => howner hdup.1).symm⟩

theorem writeEntry_miss {m : MockResumableBatch} (hm : t.mock.find batchID = some m)
    (hmiss : ¬ (m.ownedFence t.now processorID epoch = true ∧
      ∃ e ∈ MockResumableStore.findEntry m.entries requestID, e.isTerminal = false)) :
    ∃ r, t.mock.writeEntry t.now name batchID requestID processorID epoch f = (t.mock, r) ∧
      TwinOutcome.ofBool r = if (m.processorID = processorID ∧ m.epoch = epoch) ∧
        ∃ e ∈ MockResumableStore.findEntry m.entries requestID, e.isTerminal = true then
          .duplicate
        else .conflict := by
  unfold MockResumableStore.writeEntry
  simp only [hm]
  cases hfind : MockResumableStore.findEntry m.entries requestID with
  | none => exact ⟨_, rfl, (if_neg fun hdup => by obtain ⟨-, e, he, -⟩ := hdup; cases he).symm⟩
  | some e =>
    have hnot : ¬ (e.isTerminal = false ∧ m.ownedFence t.now processorID epoch = true) :=
      fun hboth => hmiss ⟨hboth.2, e, hfind, hboth.1⟩
    simp only [if_neg hnot]
    refine ⟨_, rfl, ?_⟩
    unfold MockResumableStore.entryNotUpdatable
    have hiff : (e.isTerminal = true ∧ m.processorID = processorID ∧ m.epoch = epoch) ↔
        (m.processorID = processorID ∧ m.epoch = epoch) ∧
          ∃ e' ∈ some e, e'.isTerminal = true := by
      simp only [Option.mem_some_iff, exists_eq_left']
      tauto
    by_cases hdup : e.isTerminal = true ∧ m.processorID = processorID ∧ m.epoch = epoch
    · rw [if_pos hdup, if_pos (hiff.1 hdup)]
      rfl
    · rw [if_neg hdup, if_neg (mt hiff.2 hdup)]
      rfl

/-- A fenced write of one entry, with the same effect on the entry in both stores. -/
theorem entry_agrees (h : t.Corresponding) (hp : processorID ≠ "") (htime : elapsed op = 0)
    (htable : t.table.perform t.now op = (t.table.run t.now batchID
      (entryTask s name batchID requestID processorID epoch)).map (·.map id .ofBool))
    (hmock : t.mock.apply t.now op =
      (t.mock.writeEntry t.now name batchID requestID processorID epoch f).map id .ofBool)
    (hg : ∀ r, (g r).requestID = r.requestID)
    (hs : ∀ b, s.exec t.now b = .ok (entryStmt t.now batchID requestID processorID epoch g hg b))
    (hf : ∀ e, (f e).ordinal = e.ordinal)
    (hfg : ∀ r, f (scanEntryRow batchID r) = scanEntryRow batchID (g r))
    (hsubmitter : ∀ r, r.submittedBy ≠ some "" → (g r).submittedBy ≠ some "") : t.Agrees op := by
  rcases h.find_cases batchID with ⟨hm, hb⟩ | ⟨m, b, hm, hb, hid, hmb⟩
  · have hmiss : t.mock.writeEntry t.now name batchID requestID processorID epoch f =
        (t.mock, .error (.conflict (name ++ ": " ++ batchID ++ "/" ++ requestID ++
          " is not owned by " ++ ownerText processorID epoch))) := by
      unfold MockResumableStore.writeEntry
      rw [hm]
    refine h.agree_same _ _ _ _ htime htable hmock _ _ ?_ hmiss rfl
    rw [hb]
    rfl
  · have hguard : (OwnerLock t.now batchID processorID epoch b.row ∧
        ∃ r ∈ b.entries.rows, r.requestID = requestID ∧ r.IsOpen) ↔
        m.ownedFence t.now processorID epoch = true ∧
          ∃ e ∈ MockResumableStore.findEntry m.entries requestID, e.isTerminal = false := by
      rw [← hmb.fence h.clock hp, hid, hmb.findEntry_eq]
      refine and_congr_right fun _ => ?_
      constructor
      · rintro ⟨r, hr, rfl, hopen⟩
        refine ⟨scanEntryRow b.row.id r, ?_, (scanEntryRow_isTerminal ..).trans hopen⟩
        rw [EntryTable.find_of_mem hr]
        exact rfl
      · rintro ⟨e, he, hopen⟩
        obtain ⟨r, hr, rfl⟩ := Option.map_eq_some_iff.1 he
        rw [scanEntryRow_isTerminal] at hopen
        exact ⟨r, (EntryTable.mem_find hr).1, (EntryTable.mem_find hr).2, hopen⟩
    by_cases hhit : m.ownedFence t.now processorID epoch = true ∧
        ∃ e ∈ MockResumableStore.findEntry m.entries requestID, e.isTerminal = false
    · obtain ⟨hfence, e, he, hopen⟩ := hhit
      have hfind := he
      rw [hmb.findEntry_eq] at hfind
      obtain ⟨r, hr, rfl⟩ := Option.map_eq_some_iff.1 hfind
      have hstmt : s.exec t.now b =
          .ok (some { b with entries := b.entries.updateOpen requestID g hg }) := by
        rw [hs, entryStmt, if_pos (hguard.2 ⟨hfence, _, he, hopen⟩)]
      have hset : t.mock.writeEntry t.now name batchID requestID processorID epoch f =
          (t.mock.set batchID { m with
            entries := MockResumableStore.updateEntry requestID f m.entries }, .ok true) := by
        unfold MockResumableStore.writeEntry
        simp only [hm, Option.mem_def.1 he, if_pos (And.intro hopen hfence)]
      refine h.agree_write htime htable hmock hb
        (hmb.write hr ((scanEntryRow_isTerminal ..).symm.trans hopen) hg hf (hid ▸ hfg) hsubmitter)
        hid (.ok true) ?_ hset
      unfold entryTask
      rw [runRow_hit hstmt]
      rfl
    · have hstmt : s.exec t.now b = .ok none := by
        rw [hs, entryStmt, if_neg (mt hguard.1 hhit)]
      obtain ⟨a, hrun, ha⟩ := runRow_entryTask_miss hstmt
      obtain ⟨a', hr, ha'⟩ := writeEntry_miss hm hhit
      refine h.agree_same _ _ _ _ htime htable hmock _ _ (hb ▸ hrun) hr ?_
      have hdup : ((b.row.processorID = some processorID ∧ b.row.epoch = epoch) ∧
          ∃ e ∈ b.entries.find requestID, e.status.isTerminal = true) ↔
          (m.processorID = processorID ∧ m.epoch = epoch) ∧
            ∃ e ∈ MockResumableStore.findEntry m.entries requestID, e.isTerminal = true := by
        rw [hmb.owner hp, hmb.epoch, hmb.findEntry_eq]
        refine and_congr_right fun _ => ?_
        cases b.entries.find requestID with
        | none => simp
        | some r => simp
      rw [ha, ha']
      simp only [hdup]

end

theorem mark_agrees (h : t.Corresponding) {requestID : String}
    (hc : t.Orderly (.mark batchID requestID processorID epoch)) :
    t.Agrees (.mark batchID requestID processorID epoch) := by
  have hp : processorID ≠ "" := hc
  have hs (b : BatchState) : (Stmt.mark batchID requestID processorID epoch).exec t.now b =
      .ok (entryStmt t.now batchID requestID processorID epoch _
        (EntryRow.mark_requestID t.now processorID) b) := rfl
  have htask : markEntryInFlight batchID requestID processorID epoch =
      entryTask (.mark batchID requestID processorID epoch) "MarkEntryInFlight" batchID requestID
        processorID epoch := by
    unfold markEntryInFlight entryTask
    congr 1
    funext r
    rcases r with _ | _ | _ <;> rfl
  refine entry_agrees h hp rfl (congrArg (fun task => (t.table.run t.now batchID task).map
    (Prod.map id TwinOutcome.ofBool)) htask) rfl _ hs (fun _ => rfl)
    (Corresponds.scan_mark batchID t.now processorID) fun r _ heq => ?_
  exact hp (Option.some_inj.1 heq)

theorem checkpoint_agrees (h : t.Corresponding) {requestID : String} {result : ResumableResult}
    (hc : t.Orderly (.checkpoint batchID requestID processorID epoch result)) :
    t.Agrees (.checkpoint batchID requestID processorID epoch result) := by
  obtain ⟨hp, hbytes⟩ := hc
  by_cases hterminal : result.status.isTerminal = false
  · have hrefused : t.mock.checkpointEntryResult t.now batchID requestID processorID epoch result =
        (t.mock, _) := if_pos hterminal
    refine h.agree_same _ _ _ _ rfl rfl rfl _ _ ?_ hrefused rfl
    unfold checkpointEntryResult
    rw [if_pos hterminal]
    rfl
  · have hs (b : BatchState) :
        (Stmt.checkpoint batchID requestID processorID epoch result).exec t.now b =
          .ok (entryStmt t.now batchID requestID processorID epoch _
            (EntryRow.commit_requestID t.now result) b) := rfl
    have htask : checkpointEntryResult batchID requestID processorID epoch result =
        entryTask (.checkpoint batchID requestID processorID epoch result) "CheckpointEntryResult"
          batchID requestID processorID epoch := by
      unfold checkpointEntryResult entryTask
      rw [if_neg hterminal]
      congr 1
      funext r
      rcases r with _ | _ | _ <;> rfl
    have hmock : t.mock.checkpointEntryResult t.now batchID requestID processorID epoch result =
        t.mock.writeEntry t.now "CheckpointEntryResult" batchID requestID processorID epoch
          (MockResumableStore.commitEntry result) := if_neg hterminal
    exact entry_agrees h hp rfl (congrArg (fun task => (t.table.run t.now batchID task).map
        (Prod.map id TwinOutcome.ofBool)) htask)
      (congrArg (Prod.map id TwinOutcome.ofBool) hmock) _ hs (fun _ => rfl)
      (Corresponds.scan_commit batchID t.now hbytes) fun _ hr => hr

/-! ### Reads -/

theorem list_agrees (h : t.Corresponding) {afterOrdinal limit : Int}
    (hc : t.Orderly (.list batchID afterOrdinal limit)) :
    t.Agrees (.list batchID afterOrdinal limit) := by
  have hsame := h.agree_same (.list batchID afterOrdinal limit) .ofPage
    (listBatchEntries batchID afterOrdinal limit)
    (t.mock, t.mock.listBatchEntries batchID afterOrdinal limit) rfl rfl rfl
  unfold listBatchEntries MockResumableStore.listBatchEntries at hsame
  by_cases hlimit : limit ≤ 0
  · simp only [hlimit, if_true] at hsame
    exact hsame _ _ rfl rfl rfl
  simp only [hlimit, if_false] at hsame
  rcases h.find_cases batchID with ⟨-, hb⟩ | ⟨m, b, hm, hb, hid, hmb⟩
  · have hfound := hc (not_le.1 hlimit)
    rw [hb] at hfound
    cases hfound
  · rw [hm, hb] at hsame
    refine hsame _ _ rfl rfl ?_
    have hpage := hmb.page_eq afterOrdinal limit.toNat
    rw [hid] at hpage
    exact congrArg TwinOutcome.entries hpage

theorem hasOpen_agrees (h : t.Corresponding) (requestID : String) :
    t.Agrees (.hasOpen requestID) := by
  refine h.same rfl ?_ rfl
  change some (t.table, TwinOutcome.found (t.table.hasOpenEntryByRequest requestID)) =
    some (t.table, .found (t.mock.hasOpenEntryByRequest requestID))
  have hany : t.table.hasOpenEntryByRequest requestID =
      t.mock.hasOpenEntryByRequest requestID := by
    have hbatches := h.batches
    unfold BatchTable.hasOpenEntryByRequest MockResumableStore.hasOpenEntryByRequest
    revert hbatches
    generalize t.mock = mock
    generalize t.table = table
    intro hbatches
    induction hbatches with
    | nil => rfl
    | @cons p b mock table hpb _ ih =>
      rw [List.any_cons, List.any_cons, ih, hpb.2.any_entries requestID]
  rw [hany]

/-! ### Status changes and the clock -/

theorem find_set {m : MockResumableStore} {b b' : MockResumableBatch}
    (h : m.find batchID = some b) : (m.set batchID b').find batchID = some b' := by
  unfold MockResumableStore.find MockResumableStore.set at *
  obtain ⟨p, hp, -⟩ := Option.map_eq_some_iff.1 h
  have hkey : p.1 = batchID := of_decide_eq_true (List.find?_some hp :)
  have hkeys : (fun q : String × MockResumableBatch => decide (q.1 = batchID)) ∘
      (fun q => if q.1 = batchID then (batchID, b') else q) = fun q => decide (q.1 = batchID) := by
    funext q
    by_cases hq : q.1 = batchID <;> simp [hq]
  rw [List.find?_map, hkeys, hp, Option.map_some, if_pos hkey]
  rfl

theorem set_set (m : MockResumableStore) (b b' : MockResumableBatch) :
    (m.set batchID b).set batchID b' = m.set batchID b' := by
  unfold MockResumableStore.set
  rw [List.map_map]
  refine List.map_congr_left fun p _ => ?_
  by_cases hp : p.1 = batchID <;> simp [hp]

/-- What the test mirrors of a status change. -/
theorem mock_setStatus {m : MockResumableBatch} (hm : t.mock.find batchID = some m)
    (hopen : m.terminal = false) (doc : BatchStatusInfo) :
    t.mock.apply t.now (.setStatus batchID doc) = (t.mock.set batchID { m with
      statusName := doc.status.text, terminal := doc.status.isTerminal }, .success) := by
  have hname : t.mock.setBatchStatus batchID doc.status.text =
      t.mock.set batchID { m with statusName := doc.status.text } := by
    unfold MockResumableStore.setBatchStatus
    rw [hm]
  unfold MockResumableStore.apply
  simp only [hname]
  cases hterminal : doc.status.isTerminal with
  | false => simp [hopen]
  | true =>
    unfold MockResumableStore.markTerminal
    simp only [if_true, find_set hm, set_set]

theorem setStatus_agrees (h : t.Corresponding) {doc : BatchStatusInfo}
    (hc : t.Orderly (.setStatus batchID doc)) : t.Agrees (.setStatus batchID doc) := by
  rcases h.find_cases batchID with ⟨hm, hb⟩ | ⟨m, b, hm, hb, hid, hmb⟩
  · have hmock : t.mock.apply t.now (.setStatus batchID doc) = (t.mock, .success) := by
      unfold MockResumableStore.apply MockResumableStore.setBatchStatus
        MockResumableStore.markTerminal
      simp only [hm, ite_self]
    refine h.same rfl ?_ (congrArg Prod.fst hmock)
    rw [hmock]
    unfold BatchTable.perform BatchTable.setStatus
    simp only [hb]
  · have hopen : m.terminal = false := hmb.nonTerminal.1 (hc b hb)
    have hmock := mock_setStatus hm hopen doc
    refine h.write rfl (b := { b with row := { b.row with status := doc } }) hid
      (hmb.setStatus hopen doc) ?_ (congrArg Prod.fst hmock)
    rw [hmock]
    unfold BatchTable.perform BatchTable.setStatus dbUpdateStmt
    simp [hb, hid]

theorem tick_agrees (h : t.Corresponding) (d : Nat) : t.Agrees (.tick d) := by
  have hst : (TwinOp.tick d).Storable := List.forall_mem_nil _
  have happly : t.table.apply t.now (.tick d) = some (t.table, .success) := if_pos hst
  refine ⟨fun _ => congrArg _ happly, fun _ u hu => ?_⟩
  rw [step, happly] at hu
  cases hu
  have hclock : Time.zero ≤ t.now + d :=
    le_trans h.clock (Int.le_add_of_nonneg_right (Int.natCast_nonneg d))
  exact ⟨hclock, h.ids, h.batches⟩

/-! ### Runs -/

theorem agrees (h : t.Corresponding) (hc : t.Orderly op) : t.Agrees op := by
  cases op with
  | activate a => exact activate_agrees h hc
  | renew => exact renew_agrees h hc
  | requeue => exact requeue_agrees h hc
  | finalize => exact finalize_agrees h hc
  | mark => exact mark_agrees h hc
  | checkpoint => exact checkpoint_agrees h hc
  | list => exact list_agrees h hc
  | hasOpen requestID => exact hasOpen_agrees h requestID
  | setStatus => exact setStatus_agrees h hc
  | tick d => exact tick_agrees h d

/-- A compatible operation is answered by the database. -/
theorem exists_step (h : t.Corresponding) (hc : t.Compatible op) : ∃ u, t.step op = some u := by
  obtain ⟨p, hp, -⟩ := Option.map_eq_some_iff.1 ((agrees h hc.2).outcome hc.1)
  exact ⟨_, congrArg (Option.map _) hp⟩

instance (d : Duration) : Decidable (WholeSeconds d) := inferInstanceAs (Decidable (_ ∣ _))

instance (t : StoreTwin) (op : TwinOp) : Decidable (t.Orderly op) := by
  unfold Orderly
  split <;> infer_instance

instance (t : StoreTwin) (op : TwinOp) : Decidable (t.Compatible op) :=
  inferInstanceAs (Decidable (_ ∧ _))

instance (t : StoreTwin) (op : TwinOp) : Decidable (t.SameOutcome op) :=
  inferInstanceAs (Decidable (_ = _))

/-- A validating batch that a processor has claimed. -/
def claimedTwin : StoreTwin where
  now := 0
  mock := [("b", { processorID := "p", epoch := 1 })]
  table := [{ row := {
    id := "b", status := { status := .validating }, processorID := some "p", epoch := 1 } }]

theorem claimedTwin_corresponding : claimedTwin.Corresponding where
  clock := by decide
  ids := by decide
  batches := by
    refine .cons ⟨rfl, ?_⟩ .nil
    exact {
      processorID := by decide
      epoch := rfl
      recoveryAttempts := rfl
      resumable := rfl
      terminal := rfl
      lease := (if_pos rfl).symm
      leased := fun h => Bool.noConfusion h
      statusName := fun h => Bool.noConfusion h
      statusDoc := fun _ h => Option.noConfusion rfl (heq_of_eq h)
      entries := .nil
      sorted := .nil
      submitters := fun _ h => absurd h List.not_mem_nil }

def oneEntryActivation : ResumableActivation where
  batchID := "b"
  processorID := "p"
  epoch := 1
  leaseTTL := 60000000000
  entries := [{ requestID := "r", ordinal := 0, customID := "c", status := "pending" }]

/-- Activation, submission and commit of one entry, a renewal after thirty seconds, and the end of
the batch. -/
def wholeLife : List TwinOp :=
  [.activate oneEntryActivation, .mark "b" "r" "p" 1, .tick 30000000,
    .renew "b" "p" 1 60000000000, .checkpoint "b" "r" "p" 1 { status := .completed },
    .list "b" (-1) 10, .setStatus "b" { status := .finalizing },
    .finalize ⟨"b", "p", 1, some .finalizing, { status := .completed }⟩, .hasOpen "r"]

end StoreTwin
end BatchGateway
