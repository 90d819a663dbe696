import BatchGateway.Gateway.Transitions

/-! The shape of a batch: how its flag, its lease, its status and its entries go together. -/
namespace BatchGateway

open Interleaving

variable {g : Actor} {s : Held} {st : Stmt} {now : Time} {b b' : BatchState}

/-- An entry in flight was attempted, and somebody is known to have submitted it. -/
def EntryRow.Accounted (r : EntryRow) : Prop :=
  r.status = .inFlight → 1 ≤ r.attempts ∧ ∃ p, r.submittedBy = some p ∧ p ≠ ""

/-- A resumable batch has entries and has left the queue, only an owned resumable batch has a lease,
an unfinished batch that is not resumable has no entries, and every entry is accounted for. -/
structure BatchState.Shaped (b : BatchState) : Prop where
  resumable : b.row.resumable = true → b.entries.rows ≠ [] ∧ b.row.status.status ≠ .validating
  lease : b.row.ownerLeaseExpiresAt ≠ none →
    b.row.resumable = true ∧ b.row.processorID ≠ none
  bare : b.row.NonTerminal → b.row.resumable = false → b.entries.rows = []
  accounted : ∀ r ∈ b.entries.rows, r.Accounted

/-- Attempts are counted from zero. -/
structure BatchState.Formed (b : BatchState) : Prop extends b.Shaped where
  attempts : ∀ r ∈ b.entries.rows, 0 ≤ r.attempts

/-! ### Statements on the row -/

/-- A statement that leaves the entries alone has to keep the clauses about the row. -/
theorem BatchState.Formed.withRow (h : b.Formed) (he : b'.entries = b.entries)
    (hr : b'.row.resumable = true → b.row.resumable = true ∧ b'.row.status.status ≠ .validating)
    (hl : b'.row.ownerLeaseExpiresAt ≠ none →
      b'.row.resumable = true ∧ b'.row.processorID ≠ none)
    (hb : b'.row.NonTerminal → b'.row.resumable = false →
      b.row.NonTerminal ∧ b.row.resumable = false) : b'.Formed where
  resumable hres := by
    obtain ⟨hold, hs⟩ := hr hres
    rw [he]
    exact ⟨(h.resumable hold).1, hs⟩
  lease := hl
  bare hn hres := by
    obtain ⟨hn, hres⟩ := hb hn hres
    rw [he]
    exact h.bare hn hres
  accounted := he ▸ h.accounted
  attempts := he ▸ h.attempts

/-- What the row updates of actors write: never the status of a queued job, and an open status only
into a resumable or an open row. -/
theorem Actor.Allows.update {x : BatchItem} {expected : Option BatchStatusInfo}
    (h : g.Allows s (.dbUpdate x expected)) : ∃ doc, x.status = some doc ∧
      doc.status ≠ .validating ∧ (doc.status.isTerminal = true ∨ x.expectedResumable = some true ∨
        ∃ old, expected = some old ∧ old.Open) := by
  have hclaim : ∀ p task, s.Permits p task (.dbUpdate x expected) → ∃ doc, x.status = some doc ∧
      doc.status ≠ .validating ∧ (doc.status.isTerminal = true ∨ x.expectedResumable = some true ∨
        ∃ old, expected = some old ∧ old.Open) := by
    intro p task hp
    cases expected with
    | none =>
      obtain ⟨-, -, _, -, -, doc, hd, hs | hs | ⟨hs, hx⟩⟩ := hp
      · exact ⟨doc, hd, by simp [hs], .inl (by rw [hs]; rfl)⟩
      · exact ⟨doc, hd, by simp [hs], .inl (by rw [hs]; rfl)⟩
      · exact ⟨doc, hd, by simp [hs], .inr (.inl hx)⟩
    | some old =>
      obtain ⟨-, _, -, -, -, -, doc, hd, hs⟩ := hp
      exact ⟨doc, hd, by simp [hs], .inl (by rw [hs]; rfl)⟩
  cases g with
  | poll p task => exact hclaim _ _ h
  | recovery p task => exact hclaim _ _ h
  | renewal p item =>
    obtain ⟨_, h⟩ := h
    cases h
  | request p item work =>
    rcases h with ⟨_, h⟩ | ⟨_, _, h, -⟩ | ⟨_, h⟩ <;> cases h
  | cancel id =>
    rcases h with h | ⟨_, old, h, ho, -, doc, hd, hs⟩
    · cases h
    · cases h
      exact ⟨doc, hd, by simp [hs], .inr (.inr ⟨old, rfl, ho⟩)⟩
  | reconcile r =>
    rcases h with ⟨_, _, _, _, _, h⟩ | ⟨_, _, _, h⟩ | ⟨_, _, h, -⟩ | ⟨_, old, h, ho, -, doc, hd, hs⟩
    · cases h
    · cases h
    · cases h
    · cases h
      exact ⟨doc, hd, by rcases hs with hs | hs <;> simp [hs], .inr (.inr ⟨old, rfl, ho⟩)⟩

theorem formed_update {x : BatchItem} {expected : Option BatchStatusInfo} (h : b.Formed)
    (ha : g.Allows s (.dbUpdate x expected))
    (hb : (Stmt.dbUpdate x expected).exec now b = .ok (some b')) : b'.Formed := by
  obtain ⟨doc, hd, hv, hopen⟩ := ha.update
  obtain ⟨⟨-, hold, -, hflag⟩, rfl⟩ := Stmt.of_matched hb
  refine h.withRow rfl (fun hr => ⟨hr, by simpa [hd] using hv⟩) h.lease fun hn hr => ⟨?_, hr⟩
  simp only [BatchRow.NonTerminal, hd, Option.getD_some] at hn
  rcases hopen with ht | hx | ⟨old, rfl, ho⟩
  · rw [ht] at hn
    cases hn
  · have := hflag true hx
    dsimp only at hr
    rw [hr] at this
    cases this
  · rw [BatchRow.NonTerminal, hold old rfl]
    exact ho

/-- The statements on the row alone, apart from the general update. -/
def Stmt.MovesRow : Stmt → Prop
  | pqEnqueue _ | pqDequeue .. | pqClaimOwned _ | pqDelete _ | renew .. | requeue ..
  | updateProgress .. => True
  | finalize fin => fin.status.status.isTerminal = true
  | _ => False

theorem formed_move (h : b.Formed) (hb : st.exec now b = .ok (some b')) (hst : st.MovesRow) :
    b'.Formed := by
  have hleased : b.row.resumable = false → b.row.ownerLeaseExpiresAt = none := by
    intro hr
    by_contra hl
    exact absurd (hr.symm.trans (h.lease hl).1) nofun
  cases st with
  | pqEnqueue jp =>
    obtain ⟨⟨-, -, -, -, hr, hn⟩, rfl⟩ := Stmt.of_matched hb
    exact h.withRow rfl (fun hr' => absurd (hr.symm.trans hr') nofun)
      (fun hl => absurd (hleased hr) hl) fun _ _ => ⟨hn, hr⟩
  | pqDequeue p lease =>
    obtain ⟨-, rfl⟩ := Stmt.of_matched hb
    refine h.withRow rfl (fun hr => ⟨hr, (h.resumable hr).2⟩) (fun hl => ?_) fun hn hr => ⟨hn, hr⟩
    dsimp only at hl ⊢
    split at hl
    next hr => exact ⟨hr, nofun⟩
    next => exact absurd rfl hl
  | pqClaimOwned p =>
    obtain ⟨-, rfl⟩ := Stmt.of_matched hb
    exact h.withRow rfl (fun hr => ⟨hr, (h.resumable hr).2⟩) h.lease fun hn hr => ⟨hn, hr⟩
  | pqDelete id =>
    obtain ⟨⟨-, -, hr, -⟩, rfl⟩ := Stmt.of_matched hb
    exact h.withRow rfl (fun hr' => absurd (hr.symm.trans hr') nofun)
      (fun hl => absurd (hleased hr) hl) fun hn _ => absurd hn nofun
  | renew id p e ttl =>
    obtain ⟨⟨-, hp, -, hr, -⟩, rfl⟩ := Stmt.of_matched hb
    exact h.withRow rfl (fun hr => ⟨hr, (h.resumable hr).2⟩) (fun _ => ⟨hr, by simp [hp]⟩)
      fun hn hr => ⟨hn, hr⟩
  | requeue id p e lapsed bump =>
    obtain ⟨-, rfl⟩ := Stmt.of_matched hb
    exact h.withRow rfl (fun hr => ⟨hr, (h.resumable hr).2⟩) (fun hl => absurd rfl hl)
      fun hn hr => ⟨hn, hr⟩
  | finalize fin =>
    obtain ⟨-, rfl⟩ := Stmt.of_matched hb
    exact h.withRow rfl nofun (fun hl => absurd rfl hl)
      fun hn _ => absurd (hn.symm.trans hst) nofun
  | updateProgress id e counts =>
    obtain ⟨-, rfl⟩ := Stmt.of_matched hb
    exact h.withRow rfl (fun hr => ⟨hr, (h.resumable hr).2⟩) h.lease fun hn hr => ⟨hn, hr⟩
  | _ => exact hst.elim

/-! ### Statements on the entries -/

/-- A statement that leaves the row alone and rewrites open entries. -/
theorem BatchState.Formed.withRows (h : b.Formed) (hrow : b'.row = b.row) {f : EntryRow → EntryRow}
    (hf : b'.entries.rows = b.entries.rows.map f)
    (hr : ∀ r, 0 ≤ r.attempts → r.Accounted → 0 ≤ (f r).attempts ∧ (f r).Accounted) :
    b'.Formed where
  resumable hres := by
    rw [hrow] at hres ⊢
    rw [hf]
    obtain ⟨hne, hs⟩ := h.resumable hres
    exact ⟨by simpa using hne, hs⟩
  lease := hrow ▸ h.lease
  bare hn hres := by
    rw [hrow] at hn hres
    rw [hf, h.bare hn hres]
    rfl
  accounted := by
    rw [hf, List.forall_mem_map]
    exact fun r hm => (hr r (h.attempts r hm) (h.accounted r hm)).2
  attempts := by
    rw [hf, List.forall_mem_map]
    exact fun r hm => (hr r (h.attempts r hm) (h.accounted r hm)).1

theorem formed_mark {id q p : String} {e : Int} (h : b.Formed) (hp : p ≠ "")
    (hb : (Stmt.mark id q p e).exec now b = .ok (some b')) : b'.Formed := by
  obtain ⟨-, rfl⟩ := Stmt.of_matched hb
  refine h.withRows rfl rfl fun r ha hr => ?_
  split
  · have hattempts : 1 ≤ r.attempts + 1 := by omega
    exact ⟨by simp only [EntryRow.mark]; omega, fun _ => ⟨hattempts, p, rfl, hp⟩⟩
  · exact ⟨ha, hr⟩

theorem formed_checkpoint {id q p : String} {e : Int} {result : ResumableResult} (h : b.Formed)
    (ht : result.status.isTerminal = true)
    (hb : (Stmt.checkpoint id q p e result).exec now b = .ok (some b')) : b'.Formed := by
  obtain ⟨-, rfl⟩ := Stmt.of_matched hb
  refine h.withRows rfl rfl fun r ha hr => ?_
  split
  · refine ⟨ha, fun hin => ?_⟩
    rw [EntryRow.commit] at hin
    dsimp only at hin
    rw [hin] at ht
    cases ht
  · exact ⟨ha, hr⟩

/-- Every entry in flight has a submitter, so there is none left to record. -/
theorem formed_recordSubmitter {id p : String} {e : Int} (h : b.Formed)
    (hb : (Stmt.recordSubmitter id p e).exec now b = .ok (some b')) : b'.Formed := by
  obtain ⟨⟨-, r, hr, hin, hnone⟩, -⟩ := Stmt.of_matched hb
  obtain ⟨-, p', hp', -⟩ := h.accounted r hr hin
  rw [hp'] at hnone
  cases hnone

theorem formed_activate {a : ResumableActivation} (hne : a.entries ≠ [])
    (hi : (Stmt.activate a).Issued) (hb : (Stmt.activate a).exec now b = .ok (some b')) :
    b'.Formed := by
  obtain ⟨⟨-, hp, -⟩, hrow, hrows⟩ := activateStmt_some hb
  refine ⟨⟨fun _ => ?_, fun _ => ?_, fun _ hr => ?_, ?_⟩, ?_⟩
  · rw [hrows, hrow]
    exact ⟨by simpa using hne, by simp [activatedRow]⟩
  · rw [hrow, activatedRow]
    exact ⟨rfl, by simp [hp]⟩
  · rw [hrow, activatedRow] at hr
    cases hr
  · rw [hrows, List.forall_mem_map]
    exact fun x hx hin => absurd hin (Stmt.Issued.not_inFlight hi hx)
  · rw [hrows, List.forall_mem_map]
    exact fun x _ => Int.le_refl _

/-! ### Everything an actor does -/

/-- The processor of a thread has a name. -/
def Actor.Named (g : Actor) : Prop := ∀ gr, g.grant = some gr → gr.1 ≠ ""

theorem formed_permitted {p : Processor} {task : BatchJobPriority} (h : b.Formed)
    (hg : g.claim = some (p, task)) (ha : s.Permits p.processorID task st)
    (hb : st.exec now b = .ok (some b')) : b'.Formed := by
  cases st with
  | dbUpdate x expected => exact formed_update h ((Actor.allows_claim hg).2 ha) hb
  | recordSubmitter id q e => exact formed_recordSubmitter h hb
  | activate a => exact formed_activate ha.2.1 ha.2.2.1 hb
  | pqEnqueue jp => exact formed_move h hb trivial
  | requeue id q e lapsed bump => exact formed_move h hb trivial
  | finalize fin =>
    obtain ⟨_, -, -, -, hterm, -⟩ := ha
    exact formed_move h hb hterm
  | _ => exact ha.elim

theorem formed_allowed (h : b.Formed) (hn : g.Named) (ha : g.Allows s st)
    (hb : st.exec now b = .ok (some b')) : b'.Formed := by
  cases g with
  | poll p task => exact formed_permitted (g := .poll p task) h rfl ha hb
  | recovery p task => exact formed_permitted (g := .recovery p task) h rfl ha hb
  | renewal p item =>
    obtain ⟨ttl, rfl⟩ := ha
    exact formed_move h hb trivial
  | request p item work =>
    rcases ha with ⟨q, rfl⟩ | ⟨q, result, rfl, ht⟩ | ⟨counts, rfl⟩
    · exact formed_mark h (hn _ rfl) hb
    · exact formed_checkpoint h ht hb
    · exact formed_move h hb trivial
  | cancel id =>
    have hcopy := ha
    rcases hcopy with rfl | ⟨x, old, rfl, -⟩
    · exact formed_move h hb trivial
    · exact formed_update h ha hb
  | reconcile r =>
    have hcopy := ha
    rcases hcopy with ⟨_, _, _, _, _, rfl⟩ | ⟨_, _, _, rfl⟩ | ⟨_, _, rfl, -⟩ | ⟨x, old, rfl, -⟩
    · exact formed_move h hb trivial
    · exact formed_recordSubmitter h hb
    · exact formed_move h hb trivial
    · exact formed_update h ha hb

/-! ### Whole runs -/

/-- The batch is formed, and whoever works on it has a name. -/
structure GatewayPool.Formed (pool : GatewayPool) : Prop where
  conducted : Conducted pool
  batch : pool.world.batch.Formed
  background : ∀ work ∈ pool.world.background, work.grant.1 ≠ ""
  named : ∀ (i : Nat) t, pool.threads[i]? = some t → t.who.Named

theorem named_start {env : Env} {w w' : World} (h : g.start env w = some w')
    (hb : ∀ work ∈ w.background, work.grant.1 ≠ "") : g.Named := by
  intro gr hgr
  cases g with
  | poll p task | recovery p task =>
    cases hgr
    intro hp
    rw [Actor.start, if_pos hp] at h
    cases h
  | renewal p item | request p item work =>
    cases hgr
    simp only [Actor.start, Option.ite_none_right_eq_some] at h
    exact hb _ h.1
  | cancel id => cases hgr
  | reconcile r => cases hgr

theorem formed_start {env : Env} {w w' : World} (h : g.start env w = some w')
    (hb : w.batch.Formed) : w'.batch.Formed ∧ w'.background = w.background := by
  cases g with
  | poll p task =>
    simp only [Actor.start] at h
    split_ifs at h
    split at h
    · cases h
    next b hdq =>
      split_ifs at h
      cases h
      have hexec : (Stmt.pqDequeue p.processorID p.leaseDuration).exec env.now w.batch =
          .ok (some b) := congrArg Except.ok hdq
      exact ⟨formed_move hb hexec trivial, rfl⟩
  | recovery p task =>
    simp only [Actor.start] at h
    split_ifs at h
    split at h
    · cases h
    next b hcl =>
      split_ifs at h
      cases h
      have hexec : (Stmt.pqClaimOwned p.processorID).exec env.now w.batch = .ok (some b) :=
        congrArg Except.ok hcl
      exact ⟨formed_move hb hexec trivial, rfl⟩
  | _ =>
    obtain rfl := Actor.start_unclaimed h rfl
    exact ⟨hb, rfl⟩

theorem formed_step {lib : Stdlib} {pool pool' : GatewayPool} {l : Label Env Actor}
    (hs : (gateway lib).step pool l = some pool') (h : GatewayPool.Formed pool) :
    GatewayPool.Formed pool' := by
  have hc := conducted_step hs h.conducted
  rcases (gateway lib).step_cases hs with ⟨env, g, w', hstart⟩ | ⟨i, env, g, c, k, w', r, hi, hp⟩ |
    ⟨i, g, m, hi⟩
  · obtain ⟨hbatch, hback⟩ := formed_start hstart h.batch
    refine ⟨hc, hbatch, fun work hw => h.background work (hback ▸ hw), fun j t hj => ?_⟩
    rcases getElem?_snoc_cases hj with ⟨-, rfl⟩ | ⟨-, hj⟩
    · exact named_start hstart h.background
    · exact h.named j t hj
  · have hn := h.named i _ hi
    obtain ⟨s, -, ha⟩ := h.conducted.allow hi
    refine ⟨hc, ?_, ?_, fun j t hj => ?_⟩
    · rcases World.batch_perform hp with hb | ⟨st, b, rfl, -, hb, rfl⟩
      · exact hb ▸ h.batch
      · exact formed_allowed h.batch hn ha hb
    · rcases (World.frame_perform hp).2 with hback | ⟨work, rfl, -, hback⟩
      · exact fun work hw => h.background work (hback ▸ hw)
      · intro work' hw
        rcases List.mem_cons.1 (hback ▸ hw) with rfl | hw
        · cases g with
          | poll p task =>
            obtain ⟨it, -, hgr⟩ := ha
            rw [hgr]
            exact hn (p.processorID, task.epoch) rfl
          | _ => exact ha.elim
        · exact h.background work' hw
    · rcases getElem?_set_cases hj with ⟨-, rfl⟩ | ⟨-, hj⟩
      · exact hn
      · exact h.named j t hj
  · refine ⟨hc, h.batch, h.background, fun j t hj => ?_⟩
    rcases getElem?_set_cases hj with ⟨-, rfl⟩ | ⟨-, hj⟩
    · exact h.named i ⟨g, some m⟩ hi
    · exact h.named j t hj

theorem formed_fresh {row : BatchRow} (hr : row.resumable = false)
    (hl : row.ownerLeaseExpiresAt = none) : BatchState.Formed ⟨row, .empty⟩ where
  resumable h := absurd (hr.symm.trans h) nofun
  lease h := absurd hl h
  bare _ _ := rfl
  accounted r hm := by cases hm
  attempts r hm := by cases hm

/-- Whatever the processors, the API server and the reconciler do to a freshly created batch, it
keeps its shape. -/
theorem row_shape (lib : Stdlib) (w : World) (row : BatchRow) (hrow : row.Fresh)
    (ls : List (Label Env Actor)) (pool : GatewayPool)
    (hrun : exec (gateway lib).step (initial w row) ls = some pool) : pool.world.batch.Shaped := by
  obtain ⟨-, -, -, -, -, hr, hl⟩ := hrow
  have hinit : GatewayPool.Formed (initial w row) := by
    refine ⟨watched_empty _, formed_fresh hr hl, fun work hw => ?_, fun i t hi => ?_⟩
    · cases hw
    · simp [initial] at hi
  have hfinal := along_invariant (P := fun _ _ => True) (fun _ _ _ h _ hs => formed_step hs h)
    (along_true _ _) hrun hinit
  exact hfinal.batch.toShaped

/-- `p` activates the batch and has not touched its request yet. -/
theorem activationRun_shape : ∃ pool, exec (gateway Stdlib.sample).step sampleInitial activationRun =
    some pool ∧ pool.world.batch.row.resumable = true ∧ pool.world.batch.Shaped := by
  have hrun : (exec (gateway Stdlib.sample).step sampleInitial activationRun).map
      (·.world.batch.row.resumable) = some true := by decide +kernel
  obtain ⟨pool, hpool, hr⟩ := Option.map_eq_some_iff.1 hrun
  exact ⟨pool, hpool, hr,
    row_shape Stdlib.sample _ sampleRow (by decide) activationRun pool hpool⟩

end BatchGateway
