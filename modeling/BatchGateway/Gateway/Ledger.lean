import BatchGateway.Gateway.Conduct

/-! The lifecycle timestamps of a batch, and what each writer of a status document rebuilds it
from. -/
namespace BatchGateway

open Interleaving Prog

/-! ### Timestamps -/

inductive Stamp where
  | inProgressAt | finalizingAt | cancellingAt | cancelledAt | completedAt | failedAt | expiredAt
  | expiresAt
  deriving DecidableEq, Repr

namespace BatchStatusInfo

variable {d d' d'' : BatchStatusInfo}

def stamp (d : BatchStatusInfo) : Stamp → Option Int
  | .inProgressAt => d.inProgressAt
  | .finalizingAt => d.finalizingAt
  | .cancellingAt => d.cancellingAt
  | .cancelledAt => d.cancelledAt
  | .completedAt => d.completedAt
  | .failedAt => d.failedAt
  | .expiredAt => d.expiredAt
  | .expiresAt => d.expiresAt

/-- Every timestamp of one document is set in the other one. -/
def Within (d d' : BatchStatusInfo) : Prop := ∀ x, (d.stamp x).isSome → (d'.stamp x).isSome

theorem Within.refl (d : BatchStatusInfo) : d.Within d := fun _ h => h

theorem Within.trans (h : d.Within d') (h' : d'.Within d'') : d.Within d'' := fun x hx =>
  h' x (h x hx)

/-- Documents with the same timestamps. -/
theorem within_of_eq (h : ∀ x, d.stamp x = d'.stamp x) : d.Within d' := fun x hx => h x ▸ hx

end BatchStatusInfo

open BatchStatusInfo

variable {counts : Option BatchRequestCounts}

/-- A status change sets a timestamp and takes none away. -/
theorem buildUpdatedStatusInfo_within {original info : BatchStatusInfo} {new : BatchStatus}
    {slo : Option Time} {now : Time}
    (h : buildUpdatedStatusInfo original new counts slo now = .ok info) : original.Within info := by
  intro x hx
  cases new <;> cases counts <;> cases slo <;>
    simp only [buildUpdatedStatusInfo, Except.map, Except.ok.injEq, reduceCtorEq] at h <;>
    subst h <;> cases x <;> first | exact hx | rfl

theorem buildStatus_within {job : BatchItem} {new : BatchStatus} {slo : Option Time}
    {out err : String} {now : Time} {doc : BatchStatusInfo}
    (h : buildStatus job new counts slo out err now = .ok doc) :
    ∃ original, job.status = some original ∧ original.Within doc := by
  unfold buildStatus at h
  split at h
  · cases h
  next original horiginal =>
    split at h
    · cases h
    next info hinfo =>
      cases h
      refine ⟨original, horiginal, (buildUpdatedStatusInfo_within hinfo).trans ?_⟩
      exact within_of_eq fun x => by cases x <;> rfl

/-! ### Copies -/

/-- The copy of a job's thread: the ID of its row, and a document with all the timestamps that the
row can have while the thread owns it. -/
structure Ledger where
  id : Option String := none
  known : Option BatchStatusInfo := none

namespace Ledger

variable (k : Ledger)

def afterReread : Except Err (Option BatchItem) → Ledger
  | .ok (some item) => ⟨some item.id, item.status⟩
  | _ => k

def afterRefresh : Except Err (Option BatchItem) → Ledger
  | .ok (some item) => { k with known := item.status }
  | _ => k

/-- A write that may have happened leaves the document that it was to store. -/
def afterWrite (written : Option BatchStatusInfo) : Except Err Bool → Ledger
  | .ok false => k
  | _ => { k with known := written }

def afterStmt : Stmt → Except Err Bool → Ledger
  | .dbUpdate x none, r => k.afterWrite x.status r
  | .dbUpdate _ (some _), r | .activate _, r | .finalize _, r => k.afterWrite none r
  | _, _ => k

/-- The document is rebuilt from the one that it replaces, or from the thread's copy. -/
def Permits : Stmt → Prop
  | .dbUpdate x none => ∃ d ∈ k.known, ∃ doc ∈ x.status, d.Within doc
  | .dbUpdate x (some old) => ∀ doc ∈ x.status, old.Within doc
  | .finalize fin => ∃ d ∈ k.known, d.Within fin.status
  | _ => True

end Ledger

/-- The discipline of whoever writes status documents. -/
def ledger : Monitor Ledger Call Call.Resp where
  allow k
    | .exec st => k.Permits st
    | _ => True
  answer k
    | .fetch .refresh id => fun r => some id = k.id → ∃ item, r = .ok (some item)
    | _ => fun _ => True
  next k
    | .exec st => fun r => k.afterStmt st r
    | .fetch .polling _ => fun r => k.afterReread r
    | .fetch .recovery _ => fun r => k.afterReread r
    | .fetch .refresh _ => fun r => k.afterRefresh r
    | _ => fun _ => k

/-- The program rebuilds no document from a copy. -/
def Fenced {α : Type} (m : Task α) : Prop :=
  m.Calls fun
    | .exec st => ∀ k : Ledger, k.Permits st
    | _ => True

section Walk

variable {α β : Type} {lib : Stdlib} {k : Ledger} {p : Processor} {task : BatchJobPriority}
  {item : BatchItem} {m : Task α}

theorem Fenced.ledgered (hm : Fenced m) : m.Obeys ledger (fun _ _ => True) k := by
  refine Calls.obeys_of_allow hm fun k c hc => ?_
  cases c with
  | exec st => exact hc k
  | _ => trivial

theorem Fenced.bind {f : α → Task β} (hm : Fenced m) (hf : ∀ a, Fenced (f a)) :
    Fenced (m >>= f) := Calls.bind hm hf

theorem Fenced.ret (a : α) : Fenced (return a) := trivial

theorem Issues.fenced {P : Stmt → Prop} (hm : Issues P m)
    (h : ∀ st, P st → ∀ k : Ledger, k.Permits st) : Fenced m :=
  Calls.mono hm fun c hc => by
    cases c with
    | exec st => exact h st hc
    | _ => trivial

/-- Calls that neither write a document nor read the row. -/
theorem Assembles.ledgered (hm : Assembles m) :
    m.Obeys ledger (fun _ k' => k' = k) k := by
  refine Calls.obeys hm (fun c hc => ?_) fun c r hc => ?_
  · cases c with
    | exec st => simp [Call.IsPlain, Call.IsArtifact] at hc
    | _ => trivial
  · cases c with
    | exec st => simp [Call.IsPlain, Call.IsArtifact] at hc
    | fetch site id => cases site <;> first | rfl | simp [Call.IsPlain, Call.IsArtifact] at hc
    | _ => rfl

/-! ### Status writes -/

theorem updateFailedStatus_fenced (job : BatchItem) (counts : Option BatchRequestCounts)
    (out err : String) : Fenced (updateFailedStatus job counts out err) := by
  refine Calls.lift_bind trivial fun env => ?_
  split
  · exact Fenced.ret _
  next doc hdoc =>
    obtain ⟨original, horiginal, hwithin⟩ := buildStatus_within hdoc
    refine Calls.bind ?_ fun r => ?_
    · rw [horiginal]
      unfold dbUpdate
      split
      · exact Fenced.ret _
      split
      · exact Fenced.ret _
      · refine Calls.lift_bind (fun k => ?_) fun r => ?_
        · rintro _ ⟨⟩
          exact hwithin
        · split
          · exact Fenced.ret _
          · exact Fenced.ret _
          · split <;> exact Fenced.ret _
    · split <;> exact Fenced.ret _

variable {counts : Option BatchRequestCounts}

/-- A write from the thread's copy, which takes the new document over. -/
theorem updatePersistentStatus_ledgered {job : BatchItem} {new : BatchStatus} {slo : Option Time}
    {out err : String} (hk : k.known = job.status) :
    (updatePersistentStatusFrom none job new counts slo out err).Obeys ledger
      (fun r k' => ∀ job', r = .ok job' → k'.known = job'.status) k := by
  refine Obeys.lift_bind trivial fun env _ => ?_
  split
  · refine .ret ?_
    rintro _ ⟨⟩
  next doc hdoc =>
    obtain ⟨original, horiginal, hwithin⟩ := buildStatus_within hdoc
    refine Obeys.bind (P := fun r k' => r = .ok () → k'.known = some doc) ?_ fun r k' hr => ?_
    · unfold dbUpdate
      split
      · exact .ret nofun
      split
      next h => cases h.1
      refine Obeys.lift_bind ⟨original, hk.trans horiginal, doc, rfl, hwithin⟩ fun r _ => ?_
      split
      · exact .ret nofun
      · exact .ret fun _ => rfl
      · split <;> exact .ret nofun
    · split
      · refine .ret ?_
        rintro _ ⟨⟩
      · refine .ret ?_
        rintro _ ⟨⟩
        exact hr rfl

theorem handleFailed_fenced (counts : Option BatchRequestCounts) :
    Fenced (handleFailed item counts) :=
  (updateFailedStatus_fenced ..).bind fun _ => .ret _

theorem handleCancelled_ledgered (hk : k.known = item.status) :
    (handleCancelled item counts).Obeys ledger (fun _ _ => True) k := by
  refine (updatePersistentStatus_ledgered hk).bind fun r k' _ => ?_
  split
  · exact .ret trivial
  · refine ((updateFailedStatus_fenced ..).bind fun r => ?_).ledgered
    split <;> exact .ret _

variable {q : String}

theorem finalizeResumableStatus_ledgered {expected terminal : BatchStatus}
    {counts : BatchRequestCounts} {out err : String} (hk : k.known = item.status) :
    (finalizeResumableStatus q item expected terminal counts out err).Obeys ledger
      (fun _ _ => True) k := by
  refine Obeys.lift_bind trivial fun env _ => ?_
  split
  · exact .ret trivial
  next doc hdoc =>
    obtain ⟨original, horiginal, hwithin⟩ := buildStatus_within hdoc
    refine Obeys.bind (P := fun _ _ => True) ?_ fun r _ _ => ?_
    · unfold finalizeResumableBatch
      dsimp only
      split
      · exact .ret trivial
      · refine Obeys.lift_bind ⟨original, hk.trans horiginal, hwithin⟩ fun r _ => ?_
        split
        · exact .ret trivial
        · exact .ret trivial
        · refine Obeys.lift_bind trivial fun r _ => ?_
          split
          · exact .ret trivial
          · split <;> exact .ret trivial
    · split
      · exact .ret trivial
      · exact Obeys.lift_bind trivial fun _ _ => .ret trivial

theorem finalizeResumableAs_ledgered {status expected : BatchStatus} {code : BatchErrorCode}
    (hk : k.known = item.status) :
    (finalizeResumableAs lib q item status code expected).Obeys ledger (fun _ _ => True) k := by
  refine (assembleResumableArtifacts_assembles ..).ledgered.bind fun r k' hk' => ?_
  subst hk'
  split
  · exact .ret trivial
  · refine (finalizeResumableStatus_ledgered hk).bind fun r _ _ => ?_
    split <;> exact .ret trivial

theorem finalizeResumableJob_ledgered (hk : k.known = item.status) :
    (finalizeResumableJob lib q item).Obeys ledger (fun _ _ => True) k := by
  have hk : k.known = ({ item with expectedResumable := some true } : BatchItem).status := hk
  refine (updatePersistentStatus_ledgered hk).bind fun r k' hk' => ?_
  split
  · exact .ret trivial
  next job =>
    have hjob := hk' job rfl
    refine (assembleResumableArtifacts_assembles ..).ledgered.bind fun r k'' hk'' => ?_
    subst hk''
    split
    · exact .ret trivial
    · refine Obeys.lift_bind trivial fun env _ => ?_
      split
      · refine Obeys.bind (finalizeResumableStatus_ledgered hjob) fun r _ _ => ?_
        split <;> exact .ret trivial
      · refine Obeys.bind (finalizeResumableStatus_ledgered hjob) fun r _ _ => ?_
        split <;> exact .ret trivial

theorem handleJobError_ledgered {durable : Bool} {err : Err} (hk : k.known = item.status) :
    (handleJobError lib p item durable counts err).Obeys ledger (fun _ _ => True) k := by
  unfold handleJobError
  split
  · split
    · exact finalizeResumableAs_ledgered hk
    · exact finalizeResumableAs_ledgered hk
    · exact .ret trivial
    · exact finalizeResumableAs_ledgered hk
  · split
    · exact handleCancelled_ledgered hk
    · exact (updatePersistentStatus_ledgered hk).bind fun _ _ _ => .ret trivial
    · exact .ret trivial
    · exact (handleFailed_fenced _).ledgered

/-! ### The run -/

/-- The refreshed item is a copy of the row again, whatever the activation has written. -/
theorem runActivated_ledgered (hid : k.id = some item.id) :
    (runActivated lib p item).Obeys ledger (fun _ _ => True) k := by
  refine Obeys.lift_bind trivial fun fresh hfresh => ?_
  obtain ⟨row, rfl⟩ := hfresh hid.symm
  refine Obeys.lift_bind trivial fun _ _ => Obeys.lift_bind trivial fun _ _ =>
    Obeys.lift_bind trivial fun env _ => ?_
  split
  · exact .ret trivial
  split
  · split
    · exact .ret trivial
    · exact handleJobError_ledgered rfl
  · refine Obeys.bind (finalizeResumableJob_ledgered rfl) fun r _ _ => ?_
    split
    · split <;> exact .ret trivial
    · exact .ret trivial

theorem activateOrRecover_ledgered {manifest : RequestManifest} (hm : manifest.WellFormed) :
    (activateOrRecover lib p item task manifest).Obeys ledger
      (fun _ k' => k'.id = k.id ∧ (task.resumable = true → k' = k)) k := by
  unfold activateOrRecover
  dsimp only
  split
  next h =>
    refine (recoverResumable_issues item manifest).assembles.ledgered.mono fun r k' hk' => ?_
    subst hk'
    exact ⟨rfl, fun _ => rfl⟩
  next h =>
    have hfresh : task.resumable = true → ∀ k' : Ledger, k' = k := fun h' => absurd h' h
    refine (putRejectedObjects_issues _ hm.keys).assembles.ledgered.bind fun r k' hk' => ?_
    rw [hk']
    split
    · exact .ret ⟨rfl, fun h' => hfresh h' _⟩
    · refine Obeys.bind (P := fun _ k' => k'.id = k.id) ?_ fun r k' hid => ?_
      · unfold activateResumableBatch
        split
        · exact .ret rfl
        split
        · exact .ret rfl
        split
        · exact .ret rfl
        · refine Obeys.lift_bind trivial fun r _ => ?_
          split <;> exact .ret rfl
      · split <;> exact .ret ⟨hid, fun h' => hfresh h' _⟩

theorem runManifest_ledgered {manifest : RequestManifest} (hm : manifest.WellFormed)
    (hid : k.id = some item.id) (hk : k.known = item.status) :
    (runManifest lib p item task manifest).Obeys ledger (fun _ _ => True) k := by
  refine (activateOrRecover_ledgered hm).bind fun r k' hk' => ?_
  split
  · exact runActivated_ledgered (hk'.1.trans hid)
  split
  · exact .ret trivial
  split
  next h =>
    rw [hk'.2 h]
    split
    · exact finalizeResumableAs_ledgered hk
    · exact .ret trivial
  · exact (handleFailed_fenced _).ledgered

theorem runIngestion_ledgered (hid : k.id = some item.id) (hk : k.known = item.status) :
    (runIngestion lib p item task).Obeys ledger (fun _ _ => True) k := by
  refine Obeys.lift_bind trivial fun env _ => ?_
  split
  · exact handleJobError_ledgered hk
  · split
    · exact handleJobError_ledgered hk
    next hm => exact runManifest_ledgered (Stdlib.ingest_wellFormed hm) hid hk

theorem pqEnqueue_fenced (jp : BatchJobPriority) : Fenced (pqEnqueue jp) :=
  (pqEnqueue_issues jp).fenced fun _ h _ => h ▸ trivial

theorem requeue_fenced (id q : String) (e : Int) (lapsed bump : Bool) :
    Fenced (requeueResumableOrphan id q e lapsed bump) := by
  refine (requeueResumableOrphan_issues ..).fenced ?_
  rintro _ (rfl | rfl) _ <;> exact trivial

theorem returnToQueue_fenced : Fenced (returnToQueue item task) := by
  refine (pqEnqueue_fenced _).bind fun r => ?_
  split
  · exact handleFailed_fenced _
  · exact .ret _

theorem runFromEvents_ledgered (hid : k.id = some item.id) (hk : k.known = item.status) :
    (runFromEvents lib p item task).Obeys ledger (fun _ _ => True) k := by
  refine Obeys.lift_bind trivial fun r _ => ?_
  split
  · split
    · exact (requeue_fenced ..).ledgered
    · exact returnToQueue_fenced.ledgered
  · exact runIngestion_ledgered hid hk

theorem routeResumedPickup_ledgered (hk : k.known = item.status) :
    (routeResumedPickup lib p item task).Obeys ledger (fun r k' => r = none → k' = k) k := by
  refine Obeys.lift_bind trivial fun env _ => ?_
  split
  · exact (finalizeResumableAs_ledgered hk).bind fun r _ _ => .ret nofun
  · exact .ret fun _ => rfl

theorem runJob_ledgered (hid : k.id = some item.id) (hk : k.known = item.status) :
    (runJob lib p item task).Obeys ledger (fun _ _ => True) k := by
  unfold runJob
  split
  · refine Obeys.lift_bind trivial fun _ _ =>
      (routeResumedPickup_ledgered hk).bind fun r k' hk' => ?_
    split
    · exact .ret trivial
    · rw [hk' rfl]
      exact runFromEvents_ledgered hid hk
  · exact runFromEvents_ledgered hid hk

theorem pollJob_ledgered : (pollJob lib p task).Obeys ledger (fun _ _ => True) k := by
  refine Obeys.lift_bind trivial fun r _ => ?_
  split
  · exact (pqEnqueue_fenced _).ledgered
  · exact .ret trivial
  · split
    · exact (handleFailed_fenced _).ledgered
    · refine Obeys.lift_bind trivial fun env _ => ?_
      dsimp only
      split
      · exact Obeys.bind (updatePersistentStatus_ledgered rfl) fun _ _ _ => .ret trivial
      split
      · split
        · exact Obeys.bind (updatePersistentStatus_ledgered rfl) fun _ _ _ => .ret trivial
        · exact .ret trivial
      split
      · split
        · exact (requeue_fenced ..).ledgered
        · exact returnToQueue_fenced.ledgered
      · exact runJob_ledgered rfl rfl

/-! ### The other actors -/

theorem recoverWithFailed_fenced (counts : Option BatchRequestCounts) :
    Fenced (recoverWithFailed item counts) := by
  refine (updateFailedStatus_fenced ..).bind fun r => ?_
  split <;> exact .ret _

theorem recoverReEnqueue_ledgered {batch : Option BatchStatusInfo} (hk : k.known = item.status) :
    (recoverReEnqueue item batch false).Obeys ledger (fun _ _ => True) k := by
  unfold recoverReEnqueue
  split
  · exact .ret trivial
  refine Obeys.lift_bind trivial fun env _ => ?_
  split
  · refine (updatePersistentStatus_ledgered hk).bind fun r _ _ => ?_
    split <;> exact .ret trivial
  · -- the status is not reset
    rw [show resetStatus item _ false = .ret (.ok item) from rfl, Prog.ret_bind]
    dsimp only
    split
    · exact .ret trivial
    · refine ((pqEnqueue_fenced _).bind fun r => ?_).ledgered
      split <;> exact .ret _

theorem recoverJobOnce_ledgered {jobID : String} :
    (recoverJobOnce jobID).Obeys ledger (fun _ _ => True) k := by
  refine Obeys.lift_bind trivial fun r _ => ?_
  split
  · exact .ret trivial
  · exact .ret trivial
  split
  · exact (recoverWithFailed_fenced _).ledgered
  · split
    · refine Obeys.bind (recoverReEnqueue_ledgered rfl) fun r _ _ => ?_
      split
      · exact (recoverWithFailed_fenced _).ledgered
      · exact .ret trivial
    all_goals first | exact (recoverWithFailed_fenced _).ledgered | exact .ret trivial

theorem recoverOwnedJob_ledgered : (recoverOwnedJob task).Obeys ledger (fun _ _ => True) k := by
  unfold recoverOwnedJob
  split
  · refine Obeys.lift_bind trivial fun r _ => ?_
    split
    · exact .ret trivial
    · exact .ret trivial
    · refine ((requeue_fenced ..).bind fun r => ?_).ledgered
      split <;> exact .ret _
  split
  · refine Obeys.lift_bind trivial fun r _ => ?_
    split
    · exact .ret trivial
    · exact .ret trivial
    · exact (recoverWithFailed_fenced _).ledgered
  · refine recoverJobOnce_ledgered.bind fun r _ _ => ?_
    split
    · split
      · exact recoverJobOnce_ledgered
      · exact .ret trivial
    · exact .ret trivial

/-- A conditional update whose document is rebuilt from the expected one. -/
theorem dbUpdate_fenced {x : BatchItem} {old : BatchStatusInfo}
    (h : ∀ doc ∈ x.status, old.Within doc) : Fenced (dbUpdate x (some old)) := by
  unfold dbUpdate
  split
  · exact .ret _
  split
  · exact .ret _
  · refine Calls.lift_bind (fun k => h) fun r => ?_
    split
    · exact Fenced.ret _
    · exact Fenced.ret _
    · split <;> exact Fenced.ret _

theorem markCancelling_fenced (fromStatus : BatchStatus) (attempts : Nat) {batch : BatchStatusInfo}
    (hb : item.status = some batch) : Fenced (markCancelling fromStatus attempts item batch) := by
  induction attempts generalizing item batch with
  | zero => exact .ret _
  | succ attempts ih =>
    refine Calls.lift_bind trivial fun env => Fenced.bind ?_ fun r => ?_
    · rw [hb]
      refine dbUpdate_fenced ?_
      rintro _ ⟨⟩ x hx
      cases x <;> first | exact hx | rfl
    · split
      · exact .ret _
      split
      · exact .ret _
      refine Calls.lift_bind trivial fun r => ?_
      split
      · exact Fenced.ret _
      · exact Fenced.ret _
      next fresh =>
        split
        · exact Fenced.ret _
        unfold dbItemToBatch
        split
        · exact Fenced.ret _
        · exact Fenced.ret _
        next freshBatch hfresh =>
          split_ifs at hfresh
          split
          · exact Fenced.ret _
          · exact ih (Except.ok.inj hfresh)

theorem cancelBatch_fenced (id : String) : Fenced (cancelBatch id) := by
  have hsend : Fenced sendCancelEvent := by
    refine Calls.lift_bind trivial fun r => ?_
    split <;> exact Fenced.ret _
  refine Calls.lift_bind trivial fun r => ?_
  split
  · exact Fenced.ret _
  · exact Fenced.ret _
  next item =>
    unfold dbItemToBatch
    split
    · exact Fenced.ret _
    · exact Fenced.ret _
    next batch hbatch =>
      split_ifs at hbatch
      split
      · exact Fenced.ret _
      split
      · exact Fenced.ret _
      split
      · exact hsend
      refine ((pqDelete_issues id).fenced fun _ h _ => h ▸ trivial).bind fun r => ?_
      split
      · exact .ret _
      · refine Calls.lift_bind trivial fun r => ?_
        split <;> exact Fenced.ret _
      · refine (markCancelling_fenced _ _ (Except.ok.inj hbatch)).bind fun r => ?_
        split
        · exact .ret _
        · exact hsend

theorem transitionOrphan_fenced (r : Reconciler) {job : BatchItem} {info : BatchStatusInfo}
    (target : BatchStatus) (hj : job.status = some info) :
    Fenced (r.transitionOrphan job info target) := by
  refine Calls.lift_bind trivial fun env => ?_
  split
  · exact Fenced.ret _
  next doc hdoc =>
    split
    · exact Fenced.ret _
    · rw [hj]
      refine dbUpdate_fenced ?_
      rintro _ ⟨⟩
      exact buildUpdatedStatusInfo_within hdoc

theorem triageJob_fenced (r : Reconciler) (live : List String) (job : BatchItem) :
    Fenced (r.triageJob live job) := by
  unfold Reconciler.triageJob
  split
  · refine Calls.lift_bind trivial fun env => ?_
    dsimp only
    split
    · exact Fenced.ret _
    split
    · exact Fenced.ret _
    · exact requeue_fenced ..
  split
  · exact .ret _
  unfold Reconciler.triageOrphan
  split
  · exact .ret _
  next info hinfo =>
    split
    · exact transitionOrphan_fenced r _ hinfo
    refine Calls.lift_bind trivial fun env => ?_
    split
    · exact transitionOrphan_fenced r _ hinfo
    · unfold Reconciler.reEnqueueOrphan
      split
      · exact Fenced.ret _
      split
      · exact Fenced.ret _
      · exact pqEnqueue_fenced _

theorem reconcile_fenced (r : Reconciler) : Fenced r.run := by
  refine Calls.lift_bind trivial fun env => Calls.lift_bind trivial fun jobs => ?_
  split
  · exact Fenced.ret _
  next jobs =>
    induction jobs with
    | nil => exact Fenced.ret _
    | cons job jobs ih => exact (triageJob_fenced r _ job).bind fun _ => ih

theorem code_ledgered (lib : Stdlib) (g : Actor) :
    (g.code lib).Obeys ledger (fun _ _ => True) {} := by
  cases g with
  | poll p task => exact pollJob_ledgered
  | recovery p task => exact recoverOwnedJob_ledgered
  | renewal p item =>
    exact ((renewBatchLease_issues ..).fenced fun _ h _ => h ▸ trivial).ledgered
  | request p item work =>
    cases work with
    | mark requestID =>
      exact (((markEntryInFlight_issues ..).fenced fun _ h _ => h ▸ trivial).bind
        fun _ => .ret _).ledgered
    | checkpoint msg =>
      refine (((checkpointResult_issues ..).fenced ?_).bind fun _ => .ret _).ledgered
      rintro _ ⟨_, rfl, -⟩ _
      exact trivial
    | progress counts =>
      exact ((dbUpdateProgress_issues ..).fenced fun _ h _ => h ▸ trivial).ledgered
  | cancel id => exact (cancelBatch_fenced id).ledgered
  | reconcile r => exact (reconcile_fenced r).ledgered

end Walk
end BatchGateway
