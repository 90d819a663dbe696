import BatchGateway.Gateway.CancelEvents

/-! The sole writer of a row. As long as nobody else writes the row of a job, its owner knows which
status the row has, and its terminal write is accepted. -/
namespace BatchGateway

open Interleaving Prog

variable {lib : Stdlib} {p : Processor} {task : BatchJobPriority} {item : BatchItem}

/-! ### What the owner knows -/

/-- The status and the flag of the row that a job owns; a job that gave the row up is over. -/
structure Tenure where
  status : BatchStatus
  resumable : Bool
  ended : Bool := false

namespace Tenure

variable (s : Tenure)

def afterStmt : Stmt → Except Err Bool → Tenure
  | .dbUpdate x _, .ok true =>
    { s with status := (x.status.map BatchStatusInfo.status).getD s.status }
  | .activate _, .ok true => { s with status := .inProgress, resumable := true }
  | .finalize _, .ok true | .pqEnqueue _, .ok true | .requeue .., .ok true =>
    { s with ended := true }
  | _, _ => s

/-- The terminal write names the status that the row has. -/
def Permits (p : Processor) (task : BatchJobPriority) : Stmt → Prop
  | .finalize fin => s.ended = false ∧ fin.batchID = task.id ∧ fin.processorID = p.processorID ∧
      fin.epoch = task.epoch ∧ s.resumable = true ∧ fin.expectedStatus = some s.status
  | .dbUpdate x _ => x.bumpEpoch = false
  | .activate _ | .pqEnqueue _ | .requeue .. | .recordSubmitter .. => True
  | _ => False

/-- The item shows the row. -/
structure Shows (task : BatchJobPriority) (item : BatchItem) : Prop where
  id : item.id = task.id
  epoch : item.epoch = task.epoch
  status : getJobStatus item = some s.status

end Tenure

/-- `handleJobError` ends no batch for this outcome. -/
def spares {α : Type} : Except Err α → Bool
  | .ok _ => true
  | .error e => e.kind = .shutdown

/-- Neither the ingestion nor the execution gives `handleJobError` a batch to end. -/
def untroubled (lib : Stdlib) (p : Processor) (task : BatchJobPriority) (env : Env) : Bool :=
  spares (env.ingested.bind (lib.ingest task.id p.registered)) && spares env.outcome

/-- The batch is in progress, as `handleJobError` expects, or it will not end the batch. -/
def Tenure.Endable (s : Tenure) (lib : Stdlib) (p : Processor) (task : BatchJobPriority)
    (heard : Env → Bool) : Prop :=
  s.status = .inProgress ∨ ∀ env, heard env = true → untroubled lib p task env = true

/-- The job knows the row, and what it is told satisfies `heard`. -/
def tenure (p : Processor) (task : BatchJobPriority) (heard : Env → Bool) :
    Monitor Tenure Call Call.Resp where
  allow s
    | .exec st => s.Permits p task st
    | _ => True
  answer s
    | .ask => fun env => heard env = true ∧ (env.cancels = true → s.ended = false →
        s.status ≠ .validating ∧ s.status ≠ .inProgress)
    | .fetch .. => fun r => ∀ item, r = .ok (some item) → s.ended = false → s.Shows task item
    | _ => fun _ => True
  next s
    | .exec st => fun r => s.afterStmt st r
    | _ => fun _ => s

/-- The program writes no end of a resumable batch. -/
def Routine {α : Type} (m : Task α) : Prop :=
  m.Calls fun
    | .exec (.dbUpdate x _) => x.bumpEpoch = false
    | .exec (.pqEnqueue _) | .exec (.requeue ..) | .exec (.recordSubmitter ..) => True
    | .exec _ => False
    | _ => True

section Walk

variable {α : Type} {s : Tenure} {heard : Env → Bool}

theorem Routine.tenured {m : Task α} (hm : Routine m) :
    m.Obeys (tenure p task heard) (fun _ _ => True) s := by
  refine Calls.obeys_of_allow hm fun s c hc => ?_
  cases c with
  | exec st => cases st <;> first | exact hc | exact trivial | exact hc.elim
  | _ => trivial

theorem Assembles.tenured {m : Task α} (hm : Assembles m) :
    m.Obeys (tenure p task heard) (fun _ s' => s' = s) s := by
  refine Calls.obeys hm (fun c hc => ?_) fun c r hc => ?_
  · cases c with
    | exec st => simp [Call.IsPlain, Call.IsArtifact] at hc
    | _ => trivial
  · cases c with
    | exec st => simp [Call.IsPlain, Call.IsArtifact] at hc
    | _ => rfl

/-! ### Ends that need no tenure -/

theorem Routine.bind {β : Type} {m : Task α} {f : α → Task β} (hm : Routine m)
    (hf : ∀ a, Routine (f a)) : Routine (m >>= f) := Calls.bind hm hf

theorem Routine.ret (a : α) : Routine (return a) := trivial

theorem pqEnqueue_routine (jp : BatchJobPriority) : Routine (pqEnqueue jp) :=
  Calls.mono (pqEnqueue_issues jp) fun c hc => by
    cases c with
    | exec st =>
      cases hc
      exact trivial
    | _ => trivial

theorem requeue_routine (id q : String) (e : Int) (lapsed bump : Bool) :
    Routine (requeueResumableOrphan id q e lapsed bump) :=
  Calls.mono (requeueResumableOrphan_issues ..) fun c hc => by
    cases c with
    | exec st => rcases hc with rfl | rfl <;> exact trivial
    | _ => trivial

theorem updatePersistentStatusFrom_routine (expected : Option BatchStatusInfo) (job : BatchItem)
    (new : BatchStatus) (counts : Option BatchRequestCounts) (slo : Option Time)
    (out err : String) :
    Routine (updatePersistentStatusFrom expected job new counts slo out err) := by
  refine Calls.lift_bind trivial fun env => ?_
  split
  · exact Routine.ret _
  · refine Calls.bind ?_ fun r => ?_
    · unfold dbUpdate
      split
      · exact Routine.ret _
      split
      · exact Routine.ret _
      · refine Calls.lift_bind rfl fun r => ?_
        split
        · exact Routine.ret _
        · exact Routine.ret _
        · split <;> exact Routine.ret _
    · split <;> exact Routine.ret _

theorem handleFailed_routine (counts : Option BatchRequestCounts) :
    Routine (handleFailed item counts) :=
  (updatePersistentStatusFrom_routine ..).bind fun _ => .ret _

theorem handleCancelled_routine (counts : Option BatchRequestCounts) :
    Routine (handleCancelled item counts) := by
  refine (updatePersistentStatusFrom_routine ..).bind fun r => ?_
  split
  · exact .ret _
  · refine (updatePersistentStatusFrom_routine ..).bind fun r => ?_
    split <;> exact .ret _

theorem returnToQueue_routine : Routine (returnToQueue item task) := by
  refine (pqEnqueue_routine _).bind fun r => ?_
  split
  · exact handleFailed_routine _
  · exact .ret _

/-! ### Ends of a resumable batch -/

theorem finalizeResumableStatus_tenured {expected terminal : BatchStatus}
    {counts : BatchRequestCounts} {out err : String} (ho : s.ended = false)
    (hid : item.id = task.id) (he : item.epoch = task.epoch) (hr : s.resumable = true)
    (hx : expected = s.status) :
    (finalizeResumableStatus p.processorID item expected terminal counts out err).Obeys
      (tenure p task heard) (fun _ _ => True) s := by
  refine Obeys.lift_bind trivial fun env _ => ?_
  split
  · exact .ret trivial
  · refine Obeys.bind (P := fun _ _ => True) ?_ fun r _ _ => ?_
    · unfold finalizeResumableBatch
      dsimp only
      split
      · exact .ret trivial
      · refine Obeys.lift_bind ⟨ho, hid, rfl, he, hr, congrArg some hx⟩ fun r _ => ?_
        split
        · exact .ret trivial
        · exact .ret trivial
        · refine Obeys.lift_bind trivial fun r _ => ?_
          split
          · exact .ret trivial
          · split <;> exact .ret trivial
    · split
      · exact .ret trivial
      · exact Obeys.lift_bind trivial fun _ _ => .ret trivial

theorem finalizeResumableAs_tenured {status expected : BatchStatus} {code : BatchErrorCode}
    (ho : s.ended = false) (hid : item.id = task.id) (he : item.epoch = task.epoch)
    (hr : s.resumable = true) (hx : expected = s.status) :
    (finalizeResumableAs lib p.processorID item status code expected).Obeys (tenure p task heard)
      (fun _ _ => True) s := by
  refine (assembleResumableArtifacts_assembles ..).tenured.bind fun r s' hs => ?_
  subst hs
  split
  · exact .ret trivial
  · refine (finalizeResumableStatus_tenured ho hid he hr hx).bind fun r _ _ => ?_
    split <;> exact .ret trivial

/-- The move to finalizing. -/
theorem updateFinalizing_tenured :
    (updatePersistentStatus item .finalizing none none).Obeys (tenure p task heard)
      (fun r s' => ∀ job, r = .ok job → s' = { s with status := .finalizing } ∧
        job.id = item.id ∧ job.epoch = item.epoch) s := by
  refine Obeys.lift_bind trivial fun env _ => ?_
  split
  · refine .ret ?_
    rintro _ ⟨⟩
  next doc hdoc =>
    have hstatus := buildStatus_status hdoc
    refine Obeys.bind (P := fun r s' => r = .ok () → s' = { s with status := .finalizing }) ?_
      fun r s' hs => ?_
    · unfold dbUpdate
      split
      · exact .ret fun he => by cases he
      split
      next h => cases h.1
      refine Obeys.lift_bind rfl fun r _ => ?_
      split
      · exact .ret fun he => by cases he
      · exact .ret fun _ => by
          simp [tenure, Tenure.afterStmt, BatchItem.statusUpdate, hstatus]
      · split <;> exact .ret fun he => by cases he
    · split
      · refine .ret ?_
        rintro _ ⟨⟩
      · refine .ret ?_
        rintro _ ⟨⟩
        exact ⟨hs rfl, rfl, rfl⟩

theorem finalizeResumableJob_tenured (ho : s.ended = false) (hid : item.id = task.id)
    (he : item.epoch = task.epoch) (hr : s.resumable = true) :
    (finalizeResumableJob lib p.processorID item).Obeys (tenure p task heard) (fun _ _ => True) s := by
  refine updateFinalizing_tenured.bind fun r s' hs => ?_
  split
  · exact .ret trivial
  next job =>
    obtain ⟨rfl, hid', he'⟩ := hs job rfl
    refine (assembleResumableArtifacts_assembles ..).tenured.bind fun r s' hs => ?_
    subst hs
    split
    · exact .ret trivial
    · refine Obeys.lift_bind trivial fun env _ => ?_
      split
      · refine Obeys.bind (finalizeResumableStatus_tenured (s := { s with status := .finalizing }) ho
          (hid'.trans hid) (he'.trans he) hr rfl) fun r _ _ => ?_
        split <;> exact .ret trivial
      · refine Obeys.bind (finalizeResumableStatus_tenured (s := { s with status := .finalizing }) ho
          (hid'.trans hid) (he'.trans he) hr rfl) fun r _ _ => ?_
        split <;> exact .ret trivial

/-- An error ends a running batch; the job is not told of a cancellation. -/
theorem handleJobError_tenured {durable : Bool} {counts : Option BatchRequestCounts} {err : Err}
    {env : Env} (ho : s.ended = false) (hid : item.id = task.id) (he : item.epoch = task.epoch)
    (hd : durable = true → s.resumable = true ∧ s.Endable lib p task heard)
    (hheard : heard env = true) (hne : s.status = .inProgress → err.kind ≠ .cancelled)
    (hspared : untroubled lib p task env = true → err.kind = .shutdown) :
    (handleJobError lib p item durable counts err).Obeys (tenure p task heard)
      (fun _ _ => True) s := by
  unfold handleJobError
  split
  next hdurable =>
    obtain ⟨hr, hs | hs⟩ := hd hdurable
    · split
      next hc => exact absurd hc (hne hs)
      · exact finalizeResumableAs_tenured ho hid he hr hs.symm
      · exact .ret trivial
      · exact finalizeResumableAs_tenured ho hid he hr hs.symm
    · rw [hspared (hs env hheard)]
      exact .ret trivial
  next =>
    split
    · exact (handleCancelled_routine _).tenured
    · exact ((updatePersistentStatusFrom_routine ..).bind fun _ => .ret _).tenured
    · exact .ret trivial
    · exact (handleFailed_routine _).tenured

/-! ### The run -/

theorem refreshStatus_id (item : BatchItem) (fresh : Except Err (Option BatchItem)) :
    (refreshStatus item fresh).id = item.id := by
  unfold refreshStatus
  split <;> rfl

theorem runActivated_tenured (ho : s.ended = false) (hid : item.id = task.id)
    (he : item.epoch = task.epoch) (hr : s.resumable = true) (hs : s.Endable lib p task heard) :
    (runActivated lib p item).Obeys (tenure p task heard) (fun _ _ => True) s := by
  refine Obeys.lift_bind trivial fun fresh _ => ?_
  have hid' := (refreshStatus_id item fresh).trans hid
  have he' := (refreshStatus_epoch item fresh).trans he
  refine Obeys.lift_bind trivial fun _ _ => Obeys.lift_bind trivial fun _ _ =>
    Obeys.lift_bind trivial fun env henv => ?_
  split
  · exact .ret trivial
  split
  next e houtcome =>
    split
    · exact .ret trivial
    · refine handleJobError_tenured ho hid' he' (fun _ => ⟨hr, hs⟩) henv.1 (fun hs hc => ?_)
        fun h => ?_
      · exact (henv.2 (by simp [Env.cancels, houtcome, hc]) ho).2 hs
      · simp only [untroubled, houtcome, Bool.and_eq_true] at h
        exact of_decide_eq_true h.2
  next =>
    refine (finalizeResumableJob_tenured ho hid' he' hr).bind fun r _ _ => ?_
    split
    · split <;> exact .ret trivial
    · exact .ret trivial

/-- The job runs on as the owner of a running batch. -/
theorem activateOrRecover_tenured {manifest : RequestManifest} (hm : manifest.WellFormed)
    (ho : s.ended = false)
    (hres : task.resumable = true → s.resumable = true ∧ s.Endable lib p task heard) :
    (activateOrRecover lib p item task manifest).Obeys (tenure p task heard)
      (fun r s' => (r = .ok () → s'.ended = false ∧ s'.resumable = true ∧
        s'.Endable lib p task heard) ∧
        (task.resumable = true → s' = s)) s := by
  unfold activateOrRecover
  dsimp only
  split
  next h =>
    refine (recoverResumable_issues item manifest).assembles.tenured.mono fun r s' hs => ?_
    subst hs
    exact ⟨fun _ => ⟨ho, hres h⟩, fun _ => rfl⟩
  next h =>
    have hfresh : task.resumable = true → ∀ s' : Tenure, s' = s := fun h' => absurd h' h
    refine (putRejectedObjects_issues _ hm.keys).assembles.tenured.bind fun r s' hs => ?_
    subst hs
    split
    · exact .ret ⟨nofun, fun h' => hfresh h' _⟩
    · refine Obeys.bind (P := fun r s' => r = .ok () →
        s'.ended = false ∧ s'.resumable = true ∧ s'.Endable lib p task heard) ?_ fun r s' hs => ?_
      · unfold activateResumableBatch
        split
        · exact .ret nofun
        split
        · exact .ret nofun
        split
        · exact .ret nofun
        · refine Obeys.lift_bind trivial fun r _ => ?_
          split
          · exact .ret nofun
          · exact .ret nofun
          · exact .ret fun _ => ⟨ho, rfl, .inl rfl⟩
      · split
        · exact .ret ⟨nofun, fun h' => hfresh h' _⟩
        · exact .ret ⟨fun _ => hs rfl, fun h' => hfresh h' _⟩

theorem runManifest_tenured {manifest : RequestManifest} (hm : manifest.WellFormed)
    (ho : s.ended = false) (hi : s.Shows task item)
    (hres : task.resumable = true → s.resumable = true ∧ s.Endable lib p task heard) :
    (runManifest lib p item task manifest).Obeys (tenure p task heard) (fun _ _ => True) s := by
  refine (activateOrRecover_tenured hm ho hres).bind fun r s' hs => ?_
  split
  · obtain ⟨ho', hr, hs⟩ := hs.1 rfl
    exact runActivated_tenured ho' hi.id hi.epoch hr hs
  split
  · exact .ret trivial
  split
  next h =>
    obtain rfl := hs.2 h
    split
    next expected hx =>
      exact finalizeResumableAs_tenured ho hi.id hi.epoch (hres h).1
        (Option.some.inj (hx.symm.trans hi.status))
    · exact .ret trivial
  · exact (handleFailed_routine _).tenured

section

variable (ho : s.ended = false) (hi : s.Shows task item)
include ho hi

theorem runIngestion_tenured
    (hres : task.resumable = true → s.resumable = true ∧ s.Endable lib p task heard) :
    (runIngestion lib p item task).Obeys (tenure p task heard) (fun _ _ => True) s := by
  refine Obeys.lift_bind trivial fun env henv => ?_
  split
  next e hing =>
    refine handleJobError_tenured ho hi.id hi.epoch hres henv.1 (fun hs hc => ?_) fun h => ?_
    · exact (henv.2 (by simp [Env.cancels, hing, hc]) ho).2 hs
    · simp only [untroubled, hing, Bool.and_eq_true] at h
      exact of_decide_eq_true h.1
  next lines hlines =>
    split
    next e hing =>
      refine handleJobError_tenured ho hi.id hi.epoch hres henv.1 (fun _ => ?_) fun h => ?_
      · rw [Stdlib.ingest_error hing]
        decide
      · simp only [untroubled, hlines, Except.bind, ← hi.id, hing, Bool.and_eq_true] at h
        exact of_decide_eq_true h.1
    next hm => exact runManifest_tenured (Stdlib.ingest_wellFormed hm) ho hi hres

theorem runFromEvents_tenured
    (hres : task.resumable = true → s.resumable = true ∧ s.Endable lib p task heard) :
    (runFromEvents lib p item task).Obeys (tenure p task heard) (fun _ _ => True) s := by
  refine Obeys.lift_bind trivial fun r _ => ?_
  split
  · split
    · exact (requeue_routine ..).tenured
    · exact returnToQueue_routine.tenured
  · exact runIngestion_tenured ho hi hres

/-- A pickup that runs on was not being cancelled. -/
theorem routeResumedPickup_tenured (hr : s.resumable = true) :
    (routeResumedPickup lib p item task).Obeys (tenure p task heard)
      (fun r s' => r = none → s' = s ∧ s.status ≠ .cancelling) s := by
  refine Obeys.lift_bind trivial fun env _ => ?_
  split
  next expected status code hx _ =>
    exact (finalizeResumableAs_tenured ho hi.id hi.epoch hr
      (Option.some.inj (hx.symm.trans hi.status))).bind fun r _ _ => .ret nofun
  next hroute =>
    refine .ret fun _ => ⟨rfl, fun hc => ?_⟩
    refine hroute _ .cancelled .batchCancelled hi.status ?_
    rw [resumedPickupRoute, if_pos (hi.status.trans (congrArg some hc))]

theorem runJob_tenured (hr : s.resumable = task.resumable)
    (hres : task.resumable = true → s.Endable lib p task heard ∨ s.status = .cancelling) :
    (runJob lib p item task).Obeys (tenure p task heard) (fun _ _ => True) s := by
  unfold runJob
  split
  next h =>
    refine Obeys.lift_bind trivial fun _ _ =>
      (routeResumedPickup_tenured ho hi (hr.trans h)).bind fun r s' hs => ?_
    split
    · exact .ret trivial
    · obtain ⟨rfl, hne⟩ := hs rfl
      exact runFromEvents_tenured ho hi fun h => ⟨hr.trans h, (hres h).resolve_right hne⟩
  next h => exact runFromEvents_tenured ho hi fun h' => absurd h' h

end

theorem pollJob_tenured (ho : s.ended = false) (hr : s.resumable = task.resumable)
    (hres : task.resumable = true → s.Endable lib p task heard ∨ s.status = .cancelling) :
    (pollJob lib p task).Obeys (tenure p task heard) (fun _ _ => True) s := by
  refine Obeys.lift_bind trivial fun r hfetch => ?_
  split
  · exact (pqEnqueue_routine _).tenured
  · exact .ret trivial
  next item =>
    have hi := hfetch item rfl ho
    split
    · exact (handleFailed_routine _).tenured
    · refine Obeys.lift_bind trivial fun env _ => ?_
      dsimp only
      split
      · exact ((updatePersistentStatusFrom_routine ..).bind fun _ => .ret _).tenured
      split
      · split
        · exact ((updatePersistentStatusFrom_routine ..).bind fun _ => .ret _).tenured
        · exact .ret trivial
      split
      · split
        · exact (requeue_routine ..).tenured
        · exact returnToQueue_routine.tenured
      · exact runJob_tenured ho hi hr hres

end Walk

/-! ### Runs -/

section Runs

variable {s : Tenure} {w w' : World} {env : Env} {pool pool' : GatewayPool} {l : Label Env Actor}
  {j : Nat} {heard : Env → Bool}

/-- The row is as its owner knows it. -/
structure Reigns (p : Processor) (task : BatchJobPriority) (s : Tenure) (row : BatchRow) : Prop where
  id : row.id = task.id
  owner : row.processorID = some p.processorID
  epoch : row.epoch = task.epoch
  status : row.status.status = s.status
  resumable : row.resumable = s.resumable

/-- The job gave the row up, or it knows the row. -/
def Tenured (p : Processor) (task : BatchJobPriority) (s : Tenure) (w : World) : Prop :=
  s.ended = true ∨ Reigns p task s w.batch.row

theorem Tenure.afterStmt_ended (h : s.ended = true) (st : Stmt) (r : Except Err Bool) :
    (s.afterStmt st r).ended = true := by
  unfold afterStmt
  split <;> first | exact h | rfl

theorem Tenure.afterStmt_of_ne {st : Stmt} {r : Except Err Bool} (h : r ≠ .ok true) :
    s.afterStmt st r = s := by
  unfold afterStmt
  split <;> first | rfl | exact absurd rfl h

/-- The owner's own statements. -/
theorem tenured_exec {st : Stmt} {r : Except Err Bool} (h : Reigns p task s w.batch.row)
    (ha : s.Permits p task st) (hf : env.fault = .none) (hp : w.execStmt env st = (w', r)) :
    Tenured p task (s.afterStmt st r) w' := by
  rcases World.execStmt_cases hp with ⟨rfl, hne⟩ | ⟨b, hb, rfl, -⟩
  · rw [Tenure.afterStmt_of_ne hne]
    exact .inr h
  · obtain rfl : r = .ok true := (congrArg Prod.snd (hp.symm.trans (World.execStmt_calm hf hb)))
    cases st with
    | finalize | pqEnqueue | requeue => exact .inl rfl
    | dbUpdate x expected =>
      obtain ⟨-, rfl⟩ := Stmt.of_matched hb
      refine .inr ⟨h.id, h.owner, ?_, ?_, h.resumable⟩
      · rw [show x.bumpEpoch = false from ha]
        exact h.epoch
      · cases hx : x.status <;> simp [Tenure.afterStmt, hx, h.status]
    | activate a =>
      obtain ⟨-, hrow, -⟩ := activateStmt_some hb
      refine .inr ?_
      dsimp only
      rw [hrow]
      exact ⟨h.id, h.owner, h.epoch, rfl, rfl⟩
    | recordSubmitter =>
      obtain ⟨-, rfl⟩ := Stmt.of_matched hb
      exact .inr h
    | _ => exact ha.elim

/-- A step of the owner: the answer is as expected, and the owner still knows the row. -/
theorem tenured_perform {c : Call} {r : c.Resp} (h : Tenured p task s w)
    (ha : (tenure p task heard).allow s c) (hf : env.fault = .none)
    (hheard : heard env = true) (hsent : w.cancelSent = true → w.batch.row.Leaving)
    (hp : w.perform env c = some (w', r)) :
    (tenure p task heard).answer s c r ∧ Tenured p task ((tenure p task heard).next s c r) w' := by
  cases c with
  | exec st =>
    refine ⟨trivial, ?_⟩
    rcases h with ho | h
    · exact .inl (Tenure.afterStmt_ended ho ..)
    · exact tenured_exec h ha hf (Option.some.inj hp)
  | ask =>
    obtain rfl := World.read_perform rfl hp
    simp only [World.perform, Option.ite_none_right_eq_some, Option.some.injEq] at hp
    obtain ⟨himp, heq⟩ := hp
    cases heq
    refine ⟨⟨hheard, fun hc ho => ?_⟩, h⟩
    have hrow := h.resolve_left (by simp [ho])
    rw [← hrow.status]
    exact hsent (himp hc)
  | fetch site id =>
    obtain rfl := World.read_perform rfl hp
    refine ⟨fun item hr ho => ?_, h⟩
    have hrow := h.resolve_left (by simp [ho])
    obtain ⟨rfl, -⟩ := World.item_of_fetch hp hr
    exact ⟨hrow.id, hrow.epoch, congrArg some hrow.status⟩
  | _ =>
    refine ⟨trivial, h.imp_right fun hrow => ?_⟩
    rcases World.batch_perform hp with hb | ⟨_, _, hst, -⟩
    · rw [hb]
      exact hrow
    · cases hst

/-- What runs beside the job leaves its row as it is. -/
theorem reigns_beside {g : Actor} {hl : Held} {st : Stmt} {now : Time} {b b' : BatchState}
    (ha : g.Allows hl st) (hg : g.claim = none) (hgr : g.grant ≠ none)
    (hb : st.exec now b = .ok (some b')) (h : Reigns p task s b.row) : Reigns p task s b'.row := by
  have hst : (∃ id r p e, st = .mark id r p e) ∨ (∃ id r p e x, st = .checkpoint id r p e x) ∨
      (∃ id p e ttl, st = .renew id p e ttl) ∨ ∃ id e counts, st = .updateProgress id e counts := by
    cases g with
    | poll p task | recovery p task => cases hg
    | cancel id | reconcile r => exact absurd rfl hgr
    | renewal p item =>
      obtain ⟨ttl, rfl⟩ := ha
      exact .inr (.inr (.inl ⟨_, _, _, _, rfl⟩))
    | request p item work =>
      rcases ha with ⟨r, rfl⟩ | ⟨r, x, rfl, -⟩ | ⟨counts, rfl⟩
      · exact .inl ⟨_, _, _, _, rfl⟩
      · exact .inr (.inl ⟨_, _, _, _, _, rfl⟩)
      · exact .inr (.inr (.inr ⟨_, _, _, rfl⟩))
  rcases hst with ⟨_, _, _, _, rfl⟩ | ⟨_, _, _, _, _, rfl⟩ | ⟨_, _, _, _, rfl⟩ | ⟨_, _, _, rfl⟩ <;>
  · obtain ⟨-, rfl⟩ := Stmt.of_matched hb
    exact ⟨h.id, h.owner, h.epoch, h.status, h.resumable⟩

/-- Nobody but thread `j`, which works on `task`, and what runs beside it writes the row, the calls
of the thread succeed, and what it is told satisfies `heard`. -/
def soleWriter (p : Processor) (task : BatchJobPriority) (heard : Env → Bool) (j : Nat)
    (pool : GatewayPool) : Label Env Actor → Bool
  | .spawn _ g => g.claim.isNone
  | .run i env =>
    if i = j then env.fault = .none && heard env
    else match pool.threads[i]? with
      | some ⟨g, some (.call (.exec st) _)⟩ => !pool.world.commits env st ||
          (g.claim.isNone && g.grant = some (p.processorID, task.epoch))
      | _ => true
  | .crash _ => true

/-- Thread `j` works on its task as the sole writer of the row. -/
structure Reigning (p : Processor) (task : BatchJobPriority) (heard : Env → Bool) (j : Nat)
    (pool : GatewayPool) : Prop where
  told : Told pool
  job : ∃ code, pool.threads[j]? = some ⟨.poll p task, code⟩ ∧
    ∀ m ∈ code, ∃ s, Tenured p task s pool.world ∧ m.Obeys (tenure p task heard) (fun _ _ => True) s

/-- The other threads leave the row as the job knows it. -/
theorem tenured_other {i : Nat} {g : Actor} {c : Call} {k : c.Resp → Task (Except Err Unit)}
    {r : c.Resp} (hc : Conducted pool) (hij : i ≠ j)
    (hi : pool.threads[i]? = some ⟨g, some (.call c k)⟩)
    (hl : soleWriter p task heard j pool (.run i env) = true)
    (hp : pool.world.perform env c = some (w', r)) (h : Tenured p task s pool.world) :
    Tenured p task s w' := by
  refine h.imp_right fun hrow => ?_
  rcases World.batch_perform hp with hb | ⟨st, b, rfl, hcommit, hb, rfl⟩
  · rw [hb]
    exact hrow
  · simp only [soleWriter, if_neg hij, hi, hcommit, Bool.not_true, Bool.false_or, Bool.and_eq_true,
      Option.isNone_iff_eq_none, decide_eq_true_eq] at hl
    obtain ⟨hs, -, ha⟩ := hc.allow hi
    exact reigns_beside ha hl.1 (by simp [hl.2]) hb hrow

theorem reigning_step (hs : (gateway lib).step pool l = some pool')
    (hl : soleWriter p task heard j pool l = true) (h : Reigning p task heard j pool) :
    Reigning p task heard j pool' := by
  refine ⟨told_step hs h.told, ?_⟩
  obtain ⟨code, hj, hcode⟩ := h.job
  obtain ⟨hlt, -⟩ := List.getElem?_eq_some_iff.1 hj
  rcases (gateway lib).step_cases hs with ⟨env, g, w', hstart⟩ | ⟨i, env, g, c, k, w', r, hi, hp⟩ |
    ⟨i, g, m, hi⟩
  · have hw := Actor.start_unclaimed hstart (by simpa [soleWriter] using hl)
    subst hw
    exact ⟨code, by rw [List.getElem?_append_left hlt]; exact hj, hcode⟩
  · by_cases hij : i = j
    · subst hij
      cases hi.symm.trans hj
      obtain ⟨hf, hheard⟩ : env.fault = .none ∧ heard env = true := by simpa [soleWriter] using hl
      obtain ⟨s, hT, ha, hm⟩ := hcode _ rfl
      obtain ⟨hr, hT'⟩ := tenured_perform hT ha hf hheard h.told.sent hp
      refine ⟨some (k r), by simp [hlt], ?_⟩
      rintro _ ⟨⟩
      exact ⟨_, hT', hm r hr⟩
    · refine ⟨code, by rw [List.getElem?_set_ne hij]; exact hj, fun m hm => ?_⟩
      obtain ⟨s, hT, hobeys⟩ := hcode m hm
      exact ⟨s, tenured_other h.told.conducted hij hi hl hp hT, hobeys⟩
  · by_cases hij : i = j
    · subst hij
      cases hi.symm.trans hj
      exact ⟨none, by simp [hlt], nofun⟩
    · exact ⟨code, by rw [List.getElem?_set_ne hij]; exact hj, hcode⟩

/-- A pickup from the queue starts as the owner of a row that it knows. -/
theorem reigning_start (h : Told pool)
    (hs : (gateway lib).step pool (.spawn env (.poll p task)) = some pool')
    (hheard : pool.world.batch.row.status.status = .finalizing →
      ∀ env, heard env = true → untroubled lib p task env = true) :
    Reigning p task heard pool.threads.length pool' := by
  refine ⟨told_step hs h, ?_⟩
  obtain ⟨_, _, w', hstart⟩ := (gateway lib).step_cases hs
  refine ⟨some (pollJob lib p task), by simp [gateway, Actor.code], ?_⟩
  rintro _ ⟨⟩
  change (Actor.poll p task).start env pool.world = some w' at hstart
  rcases Actor.start_cases hstart with ⟨_, _, hg, hcl⟩ | ⟨hg, -⟩
  · cases hg
    refine ⟨⟨w'.batch.row.status.status, task.resumable, false⟩,
      .inr ⟨hcl.id.1.trans hcl.id.2.symm, hcl.owner, hcl.epoch', rfl,
        hcl.resumable.trans hcl.flag.symm⟩, pollJob_tenured rfl rfl fun hres => ?_⟩
    have hnv : pool.world.batch.row.status.status ≠ .validating := fun hv =>
      absurd (hcl.flag.symm.trans hres) (by simp [h.coherent.waiting hv])
    have hopen := hcl.unfinished
    simp only [Tenure.Endable, hcl.status]
    revert hheard hnv hopen
    simp only [BatchRow.NonTerminal]
    cases pool.world.batch.row.status.status <;>
      simp [BatchStatus.isTerminal, BatchStatus.terminalStatuses]
  · cases hg

/-- The terminal write that a thread is about to make. -/
def aboutToFinalize (pool : GatewayPool) (j : Nat) : Option ResumableFinalization :=
  match pool.threads[j]? with
  | some ⟨_, some (.call (.exec (.finalize fin)) _)⟩ => some fin
  | _ => none

/-- A job that is the sole writer of its row names the right status in its terminal write, which is
accepted while the lease is held, as long as `handleJobError` does not end a batch that was picked
up from finalizing. -/
theorem terminal_write_accepted (lib : Stdlib) (w : World) {row : BatchRow} (hrow : row.Fresh)
    (hw : w.cancelSent = false) {ls ls' : List (Label Env Actor)} {pool pool' pool'' : GatewayPool}
    {env env' : Env} {fin : ResumableFinalization}
    (hp : exec (gateway lib).step (initial w row) ls = some pool)
    (hspawn : (gateway lib).step pool (.spawn env (.poll p task)) = some pool')
    (hsole : Along (gateway lib).step (fun q l => soleWriter p task
      (fun env => pool.world.batch.row.status.status ≠ .finalizing || untroubled lib p task env)
      pool.threads.length q l = true) pool' ls')
    (hp' : exec (gateway lib).step pool' ls' = some pool'')
    (hfin : aboutToFinalize pool'' pool.threads.length = some fin)
    (hlease : pool''.world.batch.row.LeaseHeld env'.now) (hf : env'.fault = .none) :
    pool''.world.batch.row.status.status ∈ fin.expectedStatus ∧
    ∃ w', pool''.world.perform env' (.exec (.finalize fin)) = some (w', .ok true) := by
  have hreign := along_invariant (I := Reigning p task _ pool.threads.length)
    (fun _ _ _ h hl hs => reigning_step hs hl h) hsole hp'
    (reigning_start (told_exec (told_initial w hrow hw) hp) hspawn fun hs env => by simp [hs])
  obtain ⟨code, hj, hcode⟩ := hreign.job
  unfold aboutToFinalize at hfin
  split at hfin
  next g _ k hj' =>
    cases hfin
    cases hj.symm.trans hj'
    obtain ⟨s, hT, ⟨ho, hid, hproc, he, hr, hx⟩, -⟩ := hcode _ rfl
    have hrow := hT.resolve_left (by simp [ho])
    have hmatch : some pool''.world.batch.row.status.status = fin.expectedStatus := by
      rw [hx, hrow.status]
    refine ⟨hmatch.symm, _, congrArg some (World.execStmt_calm hf (congrArg Except.ok (if_pos ?_)))⟩
    exact ⟨hrow.id.trans hid.symm, by rw [hrow.owner, hproc], hrow.epoch.trans he.symm,
      hrow.resumable.trans hr, hlease, hmatch⟩
  next => cases hfin

end Runs

/-- The only line of the batch is rejected, so its execution ends at once; `p` moves the batch to
finalizing. -/
def finalizingRun : List (Label Env Actor) :=
  ingestionRun "x" ++ steps 0 8

def errExpired : Err := ⟨"batch SLO expired", .expired⟩

/-- The pickup resumes the batch, and its time runs out during the ingestion. -/
def expiredIngestion (artifactCalls : Nat) : List (Label Env Actor) :=
  steps 2 5 ++ [.run 2 { ingested := .error errExpired }, .run 2 { count := 1 }] ++
    steps 2 artifactCalls

/-- Picked up from finalizing, the job expects the batch to be in progress, and nobody else wrote
the row. -/
theorem expiredIngestion_refused :
    ∃ pool ∈ exec (gateway .sample).step sampleInitial (finalizingRun ++ startupRequeue),
      pool.threads.length = 2 ∧
      ∃ pool' ∈ (gateway .sample).step pool (requeuedPickup .finalizing),
        Along (gateway .sample).step (fun q l =>
          soleWriter (sampleProcessor "p") (requeuedTask .finalizing) (fun _ => true) 2 q l =
            true) pool' (expiredIngestion 7) ∧
        ∃ pool'' ∈ exec (gateway .sample).step pool' (expiredIngestion 7),
          ∃ fin ∈ aboutToFinalize pool'' 2, pool''.world.batch.row.LeaseHeld 0 ∧
            fin.expectedStatus = some .inProgress ∧
            pool''.world.batch.row.status.status = .finalizing ∧
            pool''.world.commits {} (.finalize fin) = false := by
  decide +kernel

theorem expiredIngestion_accepted :
    ∃ pool ∈ exec (gateway .sample).step sampleInitial (activationRun ++ startupRequeue),
      ∃ pool' ∈ (gateway .sample).step pool (requeuedPickup .inProgress),
        ∃ pool'' ∈ exec (gateway .sample).step pool' (expiredIngestion 6),
          ∃ fin ∈ aboutToFinalize pool'' pool.threads.length,
            pool''.world.batch.row.status.status ∈ fin.expectedStatus ∧
            ∃ w', pool''.world.perform {} (.exec (.finalize fin)) = some (w', .ok true) := by
  obtain ⟨pool, hp, pool', hp', hsole, pool'', hp'', fin, hfin, hlease⟩ :
      ∃ pool ∈ exec (gateway .sample).step sampleInitial (activationRun ++ startupRequeue),
        ∃ pool' ∈ (gateway .sample).step pool (requeuedPickup .inProgress),
          Along (gateway .sample).step (fun q l => soleWriter (sampleProcessor "p")
            (requeuedTask .inProgress) (fun env => pool.world.batch.row.status.status ≠ .finalizing ||
              untroubled .sample (sampleProcessor "p") (requeuedTask .inProgress) env)
            pool.threads.length q l = true) pool' (expiredIngestion 6) ∧
          ∃ pool'' ∈ exec (gateway .sample).step pool' (expiredIngestion 6),
            ∃ fin ∈ aboutToFinalize pool'' pool.threads.length,
              pool''.world.batch.row.LeaseHeld 0 := by
    decide +kernel
  exact ⟨pool, hp, pool', hp', pool'', hp'', fin, hfin,
    terminal_write_accepted .sample _ (by decide) rfl hp hp' hsole hp'' hfin hlease rfl⟩

end BatchGateway
