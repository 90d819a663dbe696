import BatchGateway.Gateway.Transitions

/-! What the actors spend of a batch's recovery budget: pickups that go on, and requeues. -/
namespace BatchGateway

open Interleaving Prog

/-! ### Programs that spend nothing -/

/-- The calls that neither pick up nor start a job nor give it back for free. -/
def Call.IsIdle : Call → Bool
  | exec (.requeue _ _ _ _ bump) => bump
  | eventChannel | fetch .polling _ => false
  | _ => true

/-- The program makes idle calls only. -/
def Idle {α : Type} (m : Task α) : Prop := m.Calls fun c => c.IsIdle = true

section Idle

variable {α β : Type} {lib : Stdlib} {p : Processor} {task : BatchJobPriority} {item : BatchItem}

theorem Idle.bind {m : Task α} {f : α → Task β} (hm : Idle m) (hf : ∀ a, Idle (f a)) :
    Idle (m >>= f) := Calls.bind hm hf

theorem Idle.ret (a : α) : Idle (return a) := trivial

theorem Idle.call {c : Call} {f : c.Resp → Task β} (h : c.IsIdle = true) (hf : ∀ r, Idle (f r)) :
    Idle (BatchGateway.call c >>= f) := ⟨h, hf⟩

theorem Issues.idle {P : Stmt → Prop} {m : Task α} (hm : Issues P m)
    (h : ∀ st, P st → (Call.exec st).IsIdle = true) : Idle m :=
  Calls.mono hm fun c hc => by
    cases c with
    | exec st => exact h st hc
    | fetch site id => cases site <;> first | rfl | cases hc
    | eventChannel => cases hc
    | _ => rfl

theorem Assembles.idle {m : Task α} (hm : Assembles m) : Idle m :=
  Calls.mono hm fun c hc => by
    cases c with
    | exec st => simp [Call.IsPlain, Call.IsArtifact] at hc
    | fetch site id => cases site <;> first | rfl | simp [Call.IsPlain, Call.IsArtifact] at hc
    | eventChannel => simp [Call.IsPlain, Call.IsArtifact] at hc
    | _ => rfl

theorem pqEnqueue_idle (jp : BatchJobPriority) : Idle (pqEnqueue jp) :=
  (pqEnqueue_issues jp).idle fun _ h => h ▸ rfl

theorem requeue_idle (id q : String) (e : Int) (lapsed : Bool) :
    Idle (requeueResumableOrphan id q e lapsed true) := by
  refine (requeueResumableOrphan_issues ..).idle ?_
  rintro _ (rfl | rfl) <;> rfl

theorem dbUpdate_idle (x : BatchItem) (expected : Option BatchStatusInfo) :
    Idle (dbUpdate x expected) := by
  unfold dbUpdate
  split
  · exact .ret _
  split
  · exact .ret _
  · refine .call rfl fun r => ?_
    split
    · exact .ret _
    · exact .ret _
    · split <;> exact .ret _

theorem updatePersistentStatusFrom_idle (expected : Option BatchStatusInfo) (job : BatchItem)
    (new : BatchStatus) (counts : Option BatchRequestCounts) (slo : Option Time)
    (out err : String) : Idle (updatePersistentStatusFrom expected job new counts slo out err) := by
  refine .call rfl fun env => ?_
  split
  · exact .ret _
  · refine (dbUpdate_idle ..).bind fun r => ?_
    split <;> exact .ret _

theorem handleFailed_idle (counts : Option BatchRequestCounts) : Idle (handleFailed item counts) :=
  (updatePersistentStatusFrom_idle ..).bind fun _ => .ret _

theorem handleCancelled_idle (counts : Option BatchRequestCounts) :
    Idle (handleCancelled item counts) := by
  refine (updatePersistentStatusFrom_idle ..).bind fun r => ?_
  split
  · exact .ret _
  · refine (updatePersistentStatusFrom_idle ..).bind fun r => ?_
    split <;> exact .ret _

theorem finalizeResumableBatch_idle (fin : ResumableFinalization) :
    Idle (finalizeResumableBatch fin) := by
  unfold finalizeResumableBatch
  split
  · exact .ret _
  split
  · exact .ret _
  · refine .call rfl fun r => ?_
    split
    · exact .ret _
    · exact .ret _
    · refine .call rfl fun r => ?_
      split
      · exact .ret _
      · split <;> exact .ret _

theorem finalizeResumableStatus_idle (processorID : String) (expected terminal : BatchStatus)
    (counts : BatchRequestCounts) (out err : String) :
    Idle (finalizeResumableStatus processorID item expected terminal counts out err) := by
  refine .call rfl fun env => ?_
  split
  · exact .ret _
  · refine (finalizeResumableBatch_idle _).bind fun r => ?_
    split
    · exact .ret _
    · exact .call rfl fun _ => .ret _

theorem finalizeResumableAs_idle (processorID : String) (status expected : BatchStatus)
    (code : BatchErrorCode) :
    Idle (finalizeResumableAs lib processorID item status code expected) := by
  refine (assembleResumableArtifacts_assembles ..).idle.bind fun r => ?_
  split
  · exact .ret _
  · refine (finalizeResumableStatus_idle ..).bind fun r => ?_
    split <;> exact .ret _

theorem finalizeResumableJob_idle (processorID : String) :
    Idle (finalizeResumableJob lib processorID item) := by
  refine (updatePersistentStatusFrom_idle ..).bind fun r => ?_
  split
  · exact .ret _
  · refine (assembleResumableArtifacts_assembles ..).idle.bind fun r => ?_
    split
    · exact .ret _
    · refine .call rfl fun env => ?_
      split
      · refine (finalizeResumableStatus_idle ..).bind fun r => ?_
        split <;> exact .ret _
      · refine (finalizeResumableStatus_idle ..).bind fun r => ?_
        split <;> exact .ret _

theorem handleJobError_idle (durable : Bool) (counts : Option BatchRequestCounts) (e : Err) :
    Idle (handleJobError lib p item durable counts e) := by
  unfold handleJobError
  split
  · split
    · exact finalizeResumableAs_idle ..
    · exact finalizeResumableAs_idle ..
    · exact .ret _
    · exact finalizeResumableAs_idle ..
  · split
    · exact handleCancelled_idle _
    · exact (updatePersistentStatusFrom_idle ..).bind fun _ => .ret _
    · exact .ret _
    · exact handleFailed_idle _

theorem runActivated_idle : Idle (runActivated lib p item) := by
  refine .call rfl fun fresh => .call rfl fun _ => .call rfl fun _ => .call rfl fun env => ?_
  split
  · exact .ret _
  split
  · split
    · exact .ret _
    · exact handleJobError_idle ..
  · refine (finalizeResumableJob_idle _).bind fun r => ?_
    split
    · split <;> exact .ret _
    · exact .ret _

theorem runManifest_idle {manifest : RequestManifest} (hm : manifest.WellFormed) :
    Idle (runManifest lib p item task manifest) := by
  refine Idle.bind ?_ fun r => ?_
  · unfold activateOrRecover
    dsimp only
    split
    · exact (recoverResumable_issues (P := fun _ => False) item manifest).idle fun _ h => h.elim
    · exact (activateResumable_issues _ _ _ hm).idle fun _ h => h.1 ▸ rfl
  · split
    · exact runActivated_idle
    split
    · exact .ret _
    split
    · split
      · exact finalizeResumableAs_idle ..
      · exact .ret _
    · exact handleFailed_idle _

theorem runIngestion_idle : Idle (runIngestion lib p item task) := by
  refine .call rfl fun env => ?_
  split
  · exact handleJobError_idle ..
  · split
    · exact handleJobError_idle ..
    next hm => exact runManifest_idle (Stdlib.ingest_wellFormed hm)

theorem returnToQueue_idle : Idle (returnToQueue item task) := by
  refine (pqEnqueue_idle _).bind fun r => ?_
  split
  · exact handleFailed_idle _
  · exact .ret _

theorem recoverWithFailed_idle (counts : Option BatchRequestCounts) :
    Idle (recoverWithFailed item counts) := by
  refine (updatePersistentStatusFrom_idle ..).bind fun r => ?_
  split <;> exact .ret _

theorem recoverReEnqueue_idle (batch : Option BatchStatusInfo) (reset : Bool) :
    Idle (recoverReEnqueue item batch reset) := by
  unfold recoverReEnqueue
  split
  · exact .ret _
  refine .call rfl fun env => ?_
  split
  · refine (updatePersistentStatusFrom_idle ..).bind fun r => ?_
    split <;> exact .ret _
  · refine Idle.bind ?_ fun r => ?_
    · unfold resetStatus
      split
      · exact updatePersistentStatusFrom_idle ..
      · exact .ret _
    · split
      · exact .ret _
      split
      · exact .ret _
      · refine (pqEnqueue_idle _).bind fun r => ?_
        split <;> exact .ret _

theorem recoverJobOnce_idle (jobID : String) : Idle (recoverJobOnce jobID) := by
  refine .call rfl fun r => ?_
  split
  · exact .ret _
  · exact .ret _
  split
  · exact recoverWithFailed_idle _
  · split
    · refine (recoverReEnqueue_idle ..).bind fun r => ?_
      split
      · exact recoverWithFailed_idle _
      · exact .ret _
    all_goals first | exact recoverWithFailed_idle _ | exact .ret _

theorem cancelBatch_idle (batchID : String) : Idle (cancelBatch batchID) := by
  have hsend : Idle sendCancelEvent := by
    refine .call rfl fun r => ?_
    split <;> exact .ret _
  have hmark : ∀ status attempts item batch, Idle (markCancelling status attempts item batch) := by
    intro status attempts
    induction attempts with
    | zero => exact fun _ _ => .ret _
    | succ attempts ih =>
      intro item batch
      refine .call rfl fun env => (dbUpdate_idle ..).bind fun r => ?_
      split
      · exact .ret _
      split
      · exact .ret _
      refine .call rfl fun r => ?_
      split
      · exact .ret _
      · exact .ret _
      split
      · exact .ret _
      split
      · exact .ret _
      · exact .ret _
      split
      · exact .ret _
      · exact ih _ _
  refine .call rfl fun r => ?_
  split
  · exact .ret _
  · exact .ret _
  split
  · exact .ret _
  · exact .ret _
  split
  · exact .ret _
  split
  · exact .ret _
  split
  · exact hsend
  refine ((pqDelete_issues batchID).idle fun _ h => h ▸ rfl).bind fun r => ?_
  split
  · exact .ret _
  · refine .call rfl fun r => ?_
    split <;> exact .ret _
  · refine (hmark ..).bind fun r => ?_
    split
    · exact .ret _
    · exact hsend

theorem reconcile_idle (r : Reconciler) : Idle r.run := by
  have htransition : ∀ job info target, Idle (r.transitionOrphan job info target) := by
    intro job info target
    refine .call rfl fun env => ?_
    split
    · exact .ret _
    split
    · exact .ret _
    · exact dbUpdate_idle ..
  have htriage : ∀ live job, Idle (r.triageJob live job) := by
    intro live job
    unfold Reconciler.triageJob
    split
    · refine .call rfl fun env => ?_
      dsimp only
      split
      · exact .ret _
      split
      · exact .ret _
      · exact requeue_idle ..
    split
    · exact .ret _
    unfold Reconciler.triageOrphan
    split
    · exact .ret _
    split
    · exact htransition ..
    refine .call rfl fun env => ?_
    split
    · exact htransition ..
    · unfold Reconciler.reEnqueueOrphan
      split
      · exact .ret _
      split
      · exact .ret _
      · exact pqEnqueue_idle _
  have hjobs : ∀ live jobs, Idle (r.triageJobs live jobs) := by
    intro live jobs
    induction jobs with
    | nil => exact .ret _
    | cons job jobs ih => exact (htriage live job).bind fun _ => ih
  refine .call rfl fun env => .call rfl fun jobs => ?_
  split
  · exact .ret _
  · exact hjobs _ _

end Idle

/-! ### What an actor may spend -/

namespace Actor

/-- A pickup of a requeued batch. -/
def resumed : Actor → Bool
  | poll _ task => task.resumable
  | _ => false

/-- The startup recovery of a resumable batch: its claim has paid for one requeue. -/
def owes : Actor → Bool
  | recovery _ task => task.resumable
  | _ => false

end Actor

/-- What is left to an actor: whether it may still start the job it picked up, with the attempts of
the item that it read, and whether it may still requeue the batch for free. -/
structure Thrift where
  read : Option Int := none
  fresh : Bool := true
  free : Bool := false

/-- The attempts of an item that was read. -/
def Thrift.afterFetch (s : Thrift) : Except Err (Option BatchItem) → Thrift
  | .ok (some item) => { s with read := some item.recoveryAttempts }
  | _ => s

theorem Thrift.afterFetch_cases (s : Thrift) (r : Except Err (Option BatchItem)) :
    (∃ item, r = .ok (some item) ∧ s.afterFetch r = { s with read := some item.recoveryAttempts }) ∨
      s.afterFetch r = s := by
  unfold afterFetch
  split
  next item => exact .inl ⟨item, rfl, rfl⟩
  next => exact .inr rfl

def Actor.thrift (g : Actor) : Monitor Thrift Call Call.Resp where
  allow s
    | .exec (.requeue _ _ _ _ bump) => bump = true ∨ s.free = true
    | .eventChannel => g.resumed = true → s.fresh = true ∧ ∃ a ∈ s.read, a ≤ maxRecoveryAttempts
    | _ => True
  answer _
    | .fetch .polling _ => fun r => ∀ item, r = .ok (some item) → item.status ≠ none
    | _ => fun _ => True
  next s
    | .exec (.requeue _ _ _ _ bump) => fun _ => if bump then s else { s with free := false }
    | .fetch .polling _ => fun r => s.afterFetch r
    | .eventChannel => fun _ => { s with fresh := false }
    | _ => fun _ => s

section Thrift

variable {α : Type} {lib : Stdlib} {g : Actor} {s : Thrift} {p : Processor}
  {task : BatchJobPriority} {item : BatchItem}

theorem Idle.obeys {m : Task α} (hm : Idle m) : m.Obeys g.thrift (fun _ s' => s' = s) s := by
  refine Calls.obeys hm (fun c hc => ?_) fun c r hc => ?_
  · cases c with
    | exec st => cases st <;> first | exact .inl hc | exact trivial
    | eventChannel => cases hc
    | _ => trivial
  · cases c with
    | exec st =>
      cases st with
      | requeue _ _ _ _ bump => exact if_pos hc
      | _ => rfl
    | fetch site id => cases site <;> first | rfl | cases hc
    | eventChannel => cases hc
    | _ => rfl

/-- A program that spends nothing. -/
theorem Idle.thrifty {m : Task α} (hm : Idle m) : m.Obeys g.thrift (fun _ _ => True) s :=
  hm.obeys.mono fun _ _ _ => trivial

theorem runFromEvents_thrifty
    (h : task.resumable = true → s.fresh = true ∧ ∃ a ∈ s.read, a ≤ maxRecoveryAttempts) :
    (runFromEvents lib p item task).Obeys (Actor.poll p task).thrift (fun _ _ => True) s := by
  refine Obeys.lift_bind h fun r _ => ?_
  split
  · split
    · exact (requeue_idle ..).thrifty
    · exact returnToQueue_idle.thrifty
  · exact runIngestion_idle.thrifty

/-- A pickup that is not routed to its end has attempts left. -/
theorem routeResumedPickup_thrifty (hstatus : item.status ≠ none) :
    (routeResumedPickup lib p item task).Obeys (Actor.poll p task).thrift
      (fun r s' => s' = s ∧ (r = none → item.recoveryAttempts ≤ maxRecoveryAttempts)) s := by
  refine Obeys.lift_bind trivial fun env _ => ?_
  split
  · refine (finalizeResumableAs_idle ..).obeys.bind fun r s' hs => ?_
    exact .ret ⟨hs, nofun⟩
  next hroute =>
    refine .ret ⟨rfl, fun _ => ?_⟩
    by_contra hlt
    obtain ⟨doc, hdoc⟩ := Option.ne_none_iff_exists'.1 hstatus
    have hsome : getJobStatus item = some doc.status := by simp [getJobStatus, hdoc]
    obtain ⟨⟨status, code⟩, hcode⟩ : ∃ x, resumedPickupRoute item task env.now = some x := by
      unfold resumedPickupRoute
      split
      · exact ⟨_, rfl⟩
      split
      · exact ⟨_, rfl⟩
      · rw [if_pos (by omega)]
        exact ⟨_, rfl⟩
    exact hroute _ _ _ hsome hcode

theorem runJob_thrifty (hread : s.read = some item.recoveryAttempts) (hfresh : s.fresh = true)
    (hstatus : item.status ≠ none) :
    (runJob lib p item task).Obeys (Actor.poll p task).thrift (fun _ _ => True) s := by
  unfold runJob
  split
  · refine Obeys.lift_bind trivial fun _ _ =>
      (routeResumedPickup_thrifty hstatus).bind fun r s' hr => ?_
    obtain ⟨rfl, hr⟩ := hr
    split
    · exact .ret trivial
    · exact runFromEvents_thrifty fun _ => ⟨hfresh, _, hread, hr rfl⟩
  next hres => exact runFromEvents_thrifty fun h => absurd h hres

theorem pollJob_thrifty :
    (pollJob lib p task).Obeys (Actor.poll p task).thrift (fun _ _ => True) {} := by
  refine Obeys.lift_bind trivial fun r hr => ?_
  split
  · exact (pqEnqueue_idle _).thrifty
  · exact .ret trivial
  next item =>
    have hstatus := hr item rfl
    split
    · exact (handleFailed_idle _).thrifty
    · refine Obeys.lift_bind trivial fun env _ => ?_
      dsimp only
      split
      · exact ((updatePersistentStatusFrom_idle ..).bind fun _ => .ret _).thrifty
      split
      · split
        · exact ((updatePersistentStatusFrom_idle ..).bind fun _ => .ret _).thrifty
        · exact .ret trivial
      split
      · split
        · exact (requeue_idle ..).thrifty
        · exact returnToQueue_idle.thrifty
      · exact runJob_thrifty rfl rfl hstatus

/-- The recovery of a resumable batch uses up what its claim has paid for. -/
theorem recoverOwnedJob_thrifty :
    (recoverOwnedJob task).Obeys (Actor.recovery p task).thrift (fun _ _ => True)
      { free := task.resumable } := by
  unfold recoverOwnedJob
  split
  next hres =>
    refine Obeys.lift_bind trivial fun r _ => ?_
    split
    · exact .ret trivial
    · exact .ret trivial
    · refine Obeys.bind (P := fun _ _ => True) ?_ fun r _ _ => ?_
      · refine Obeys.lift_bind (.inr hres) fun r _ => ?_
        split
        · exact .ret trivial
        · exact .ret trivial
        · refine Obeys.lift_bind trivial fun r _ => ?_
          split <;> exact .ret trivial
      · split <;> exact .ret trivial
  split
  · refine (Idle.call rfl fun r => ?_).thrifty
    split
    · exact .ret _
    · exact .ret _
    · exact recoverWithFailed_idle _
  · refine ((recoverJobOnce_idle _).bind fun r => ?_).thrifty
    split
    · split
      · exact recoverJobOnce_idle _
      · exact .ret _
    · exact .ret _

theorem code_thrifty (lib : Stdlib) (g : Actor) :
    (g.code lib).Obeys g.thrift (fun _ _ => True) { free := g.owes } := by
  cases g with
  | poll p task => exact pollJob_thrifty
  | recovery p task => exact recoverOwnedJob_thrifty
  | renewal p item =>
    exact ((renewBatchLease_issues ..).idle fun _ h => h ▸ rfl).thrifty
  | request p item work =>
    cases work with
    | mark requestID =>
      exact (((markEntryInFlight_issues ..).idle fun _ h => h ▸ rfl).bind fun _ => .ret _).thrifty
    | checkpoint msg =>
      refine (((checkpointResult_issues ..).idle ?_).bind fun _ => .ret _).thrifty
      rintro _ ⟨_, rfl, -⟩
      rfl
    | progress counts => exact ((dbUpdateProgress_issues ..).idle fun _ h => h ▸ rfl).thrifty
  | cancel id => exact (cancelBatch_idle id).thrifty
  | reconcile r => exact (reconcile_idle r).thrifty

end Thrift

end BatchGateway
