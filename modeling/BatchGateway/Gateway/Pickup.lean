import BatchGateway.Gateway.Conduct

/-! What the pickup of a fresh batch leaves behind when no call fails: an activated batch or a
finished one. -/
namespace BatchGateway

open Interleaving Prog

def failsWith {α : Type} (kind : ErrKind) : Except Err α → Bool
  | .error e => e.kind = kind
  | .ok _ => false

/-- No shutdown shows in what the job is told. -/
structure Env.Alive (env : Env) : Prop where
  polling : env.flag = false
  ingested : failsWith .shutdown env.ingested = false
  outcome : failsWith .shutdown env.outcome = false

instance (env : Env) : Decidable env.Alive :=
  decidable_of_iff (env.flag = false ∧ failsWith .shutdown env.ingested = false ∧
    failsWith .shutdown env.outcome = false)
    ⟨fun h => ⟨h.1, h.2.1, h.2.2⟩, fun h => ⟨h.polling, h.ingested, h.outcome⟩⟩

/-- What a pickup has reached: the item that it read, and whether the job is activated or
finished. -/
structure Progress where
  item : Option BatchItem := none
  settled : Bool := false

/-- The item of a pickup shows the row as the dequeue left it, or already cancelling. -/
structure PickedUp (p : Processor) (task : BatchJobPriority) (item : BatchItem) : Prop where
  id : item.id = task.id
  epoch : item.epoch = task.epoch
  owner : item.processorID = p.processorID
  flag : item.expectedResumable = none
  status : ∃ doc, item.status = some doc ∧ (doc.status = .validating ∨ doc.status = .cancelling)

namespace Progress

/-- The statements of a pickup: the activation and the ends of a job, the failed one conditional on
the document that was read. -/
def Permits (s : Progress) : Stmt → Prop
  | .dbUpdate x expected => ∃ it ∈ s.item, ∃ doc, x = it.statusUpdate doc ∧
      doc.status.isTerminal = true ∧ (expected = none ∨ expected = it.status ∧ doc.status = .failed)
  | .activate a => ∃ it ∈ s.item, a.batchID = it.id ∧ a.processorID = it.processorID ∧
      a.epoch = it.epoch
  | _ => False

def Allows (s : Progress) : Call → Prop
  | .exec st => s.Permits st
  | .ask | .fetch .polling _ | .eventChannel | .store .. | .retrieve _ => True
  | _ => False

/-- The answers when no call fails; an activation may still be refused for its entries. -/
def Answers (p : Processor) (task : BatchJobPriority) : (c : Call) → c.Resp → Prop
  | .ask => fun (env : Env) => env.Alive
  | .fetch .polling id => fun r => id = task.id → ∃ item, r = .ok (some item) ∧ PickedUp p task item
  | .eventChannel => fun r => r = .ok ()
  | .exec (.dbUpdate ..) => fun r => r = .ok true
  | .exec (.activate _) => fun r => r = .ok true ∨ ∃ e, r = .error e ∧ e.isConflict = false
  | .store .. => fun r => ∀ e, r = .error e → e.isConflict = false
  | _ => fun _ => True

def next (s : Progress) : (c : Call) → c.Resp → Progress
  | .fetch .polling _ => fun r => match r with
    | .ok (some item) => { s with item := some item }
    | _ => s
  | .exec _ => fun r => match r with
    | .ok true => { s with settled := true }
    | _ => s
  | _ => fun _ => s

end Progress

/-- The discipline of a pickup; once the job is settled there is none. -/
def pickup (p : Processor) (task : BatchJobPriority) : Monitor Progress Call Call.Resp where
  allow s c := s.settled = true ∨ s.Allows c
  answer s c r := s.settled = false → Progress.Answers p task c r
  next := Progress.next

section Walk

variable {α : Type} {lib : Stdlib} {p : Processor} {task : BatchJobPriority} {s : Progress}
  {item : BatchItem} {Q : α → Progress → Prop}

theorem Progress.next_settled {c : Call} {r : c.Resp} (h : s.settled = true) :
    (s.next c r).settled = true := by
  cases c with
  | fetch site id =>
    cases site with
    | polling =>
      simp only [next]
      split <;> exact h
    | _ => exact h
  | exec st =>
    simp only [next]
    split
    · rfl
    · exact h
  | _ => exact h

/-- A settled job stays settled whatever its thread does. -/
theorem obeys_settled {m : Task α} (h : s.settled = true) :
    m.Obeys (pickup p task) (fun _ s' => s'.settled = true) s := by
  induction m generalizing s with
  | ret a => exact h
  | call c k ih => exact ⟨.inl h, fun r _ => ih r (Progress.next_settled h)⟩

theorem pickup_ask {f : Env → Task α} (hs : s.settled = false)
    (hf : ∀ env : Env, env.Alive → (f env).Obeys (pickup p task) Q s) :
    (call .ask >>= f).Obeys (pickup p task) Q s :=
  ⟨.inr trivial, fun env henv => hf env (henv hs)⟩

theorem pickup_retrieve {key : String} {f : Except Err Bytes → Task α}
    (hf : ∀ r, (f r).Obeys (pickup p task) Q s) :
    (call (.retrieve key) >>= f).Obeys (pickup p task) Q s :=
  ⟨.inr trivial, fun r _ => hf r⟩

theorem pickup_store {key : String} {data : Bytes} {t : Nat} {f : Except Err Unit → Task α}
    (hs : s.settled = false)
    (hf : ∀ r, (∀ e, r = .error e → e.isConflict = false) → (f r).Obeys (pickup p task) Q s) :
    (call (.store key data t) >>= f).Obeys (pickup p task) Q s :=
  ⟨.inr trivial, fun r hr => hf r (hr hs)⟩

/-- A thread that works on an item it has read. -/
structure AtWork (p : Processor) (task : BatchJobPriority) (item : BatchItem) (s : Progress) :
    Prop where
  unsettled : s.settled = false
  read : s.item = some item
  pickedUp : PickedUp p task item
  id : task.id ≠ ""

theorem buildStatus_ok {job : BatchItem} {doc : BatchStatusInfo} {newStatus : BatchStatus}
    (h : job.status = some doc) (hne : newStatus ≠ .validating)
    (counts : Option BatchRequestCounts) (slo : Option Time) (out err : String) (now : Time) :
    ∃ info, buildStatus job newStatus counts slo out err now = .ok info := by
  unfold buildStatus
  rw [h]
  cases newStatus <;> first | exact absurd rfl hne | exact ⟨_, rfl⟩

variable {counts : Option BatchRequestCounts}

section

variable (h : AtWork p task item s)
include h

/-- The write of a final status settles the job. -/
theorem statusWrite_settles {expected : Option BatchStatusInfo} {newStatus : BatchStatus}
    {out err : String} (hterm : newStatus.isTerminal = true)
    (hexp : expected = none ∨ expected = item.status ∧ newStatus = .failed) :
    (updatePersistentStatusFrom expected item newStatus counts none out err).Obeys (pickup p task)
      (fun r s' => s'.settled = true ∧ ∃ job, r = .ok job) s := by
  obtain ⟨doc, hdoc, -⟩ := h.pickedUp.status
  have hne : newStatus ≠ .validating := by
    rintro rfl
    cases hterm
  refine pickup_ask h.unsettled fun env _ => ?_
  obtain ⟨info, hinfo⟩ := buildStatus_ok hdoc hne counts none out err env.now
  have hstatus := buildStatus_status hinfo
  simp only [hinfo]
  have hid : (item.statusUpdate info).id ≠ "" := by
    simp only [BatchItem.statusUpdate, h.pickedUp.id]
    exact h.id
  have hset : ¬ ((item.statusUpdate info).status = none ∧ (item.statusUpdate info).tags = []) := by
    simp [BatchItem.statusUpdate]
  simp only [dbUpdate, if_neg hid, if_neg hset]
  refine ⟨.inr ⟨item, h.read, info, rfl, by rw [hstatus]; exact hterm, ?_⟩, fun r hr => ?_⟩
  · rw [hstatus]
    exact hexp
  · cases hr h.unsettled
    exact ⟨rfl, _, rfl⟩

theorem handleFailed_settles :
    (handleFailed item counts).Obeys (pickup p task) (fun _ s' => s'.settled = true) s :=
  Obeys.bind (statusWrite_settles h rfl (.inr ⟨rfl, rfl⟩)) fun _ _ hr => .ret hr.1

theorem handleExpired_settles :
    (handleExpired item counts).Obeys (pickup p task) (fun _ s' => s'.settled = true) s :=
  Obeys.bind (statusWrite_settles h rfl (.inl rfl)) fun _ _ hr => .ret hr.1

theorem handleCancelled_settles :
    (handleCancelled item counts).Obeys (pickup p task) (fun _ s' => s'.settled = true) s :=
  Obeys.bind (statusWrite_settles h rfl (.inl rfl)) fun _ _ hr => by
    obtain ⟨hs, job, rfl⟩ := hr
    exact .ret hs

theorem handleJobError_settles {e : Err} (he : e.kind ≠ .shutdown) :
    (handleJobError lib p item false counts e).Obeys (pickup p task)
      (fun _ s' => s'.settled = true) s := by
  unfold handleJobError
  simp only [Bool.false_eq_true, if_false]
  split
  · exact handleCancelled_settles h
  · exact handleExpired_settles h
  next hk => exact absurd hk he
  · exact handleFailed_settles h

end

/-- Storing the error objects leaves the job as it is, and no failure looks like a conflict. -/
theorem putRejectedObjects_pickup (hs : s.settled = false) (store : BatchResultStore)
    (es : List ManifestEntry) :
    (store.putRejectedObjects lib es).Obeys (pickup p task)
      (fun r s' => s' = s ∧ ∀ e, r = .error e → e.isConflict = false) s := by
  induction es with
  | nil => exact .ret ⟨rfl, fun _ h => by cases h⟩
  | cons e es ih =>
    unfold BatchResultStore.putRejectedObjects
    split
    · refine Obeys.bind (P := fun r s' => s' = s ∧ ∀ e, r = .error e → e.isConflict = false) ?_ ?_
      · refine pickup_store hs fun r hr => ?_
        split
        · exact .ret ⟨rfl, fun _ h => by cases h⟩
        next err =>
          split
          · refine .ret ⟨rfl, fun _ h => ?_⟩
            cases h
            exact hr err rfl
          · refine Obeys.bind (P := fun _ s' => s' = s) (pickup_retrieve fun r => ?_) ?_
            · split <;> exact .ret rfl
            · rintro verified _ rfl
              split
              · exact .ret ⟨rfl, fun _ h => by cases h⟩
              · refine .ret ⟨rfl, fun _ h => ?_⟩
                cases h
                rfl
      · rintro r _ ⟨rfl, hr⟩
        split
        next err =>
          refine .ret ⟨rfl, fun _ h => ?_⟩
          cases h
          exact hr err rfl
        · exact ih
    · exact ih

/-- What the activation of a fresh batch can come to. -/
def Activated (s : Progress) (r : Except Err Unit) (s' : Progress) : Prop :=
  (r = .ok () ∧ s'.settled = true) ∨ (∃ e, r = .error e ∧ e.isConflict = false ∧ s' = s)

section

variable (h : AtWork p task item s)
include h

theorem activateResumableBatch_pickup {a : ResumableActivation} (hid : a.batchID = item.id)
    (howner : a.processorID = item.processorID) (hepoch : a.epoch = item.epoch) :
    (activateResumableBatch a).Obeys (pickup p task) (Activated s) s := by
  unfold activateResumableBatch
  split
  · exact .ret (.inr ⟨_, rfl, rfl, rfl⟩)
  · split
    · exact .ret (.inr ⟨_, rfl, rfl, rfl⟩)
    · split
      · exact .ret (.inr ⟨_, rfl, rfl, rfl⟩)
      · refine ⟨.inr ⟨item, h.read, hid, howner, hepoch⟩, fun r hr => ?_⟩
        rcases hr h.unsettled with rfl | ⟨e, rfl, he⟩
        · exact .ret (.inl ⟨rfl, rfl⟩)
        · exact .ret (.inr ⟨_, rfl, he, rfl⟩)

theorem activateResumable_pickup (manifest : RequestManifest) :
    (BatchResultStore.activateResumable ⟨item.id, p.processorID, item.epoch, 0⟩ lib
      item.processorID p.leaseDuration manifest).Obeys (pickup p task) (Activated s) s := by
  refine Obeys.bind (putRejectedObjects_pickup h.unsettled _ _) fun r s' hr => ?_
  obtain ⟨rfl, hr⟩ := hr
  split
  next e => exact .ret (.inr ⟨e, rfl, hr e rfl, rfl⟩)
  · refine Obeys.bind (activateResumableBatch_pickup h rfl rfl rfl) fun r s' hr => ?_
    rcases hr with ⟨rfl, hs⟩ | ⟨e, rfl, he, rfl⟩
    · exact .ret (.inl ⟨rfl, hs⟩)
    · exact .ret (.inr ⟨_, rfl, he, rfl⟩)

theorem runManifest_settles (ht : task.resumable = false) (manifest : RequestManifest) :
    (runManifest lib p item task manifest).Obeys (pickup p task)
      (fun _ s' => s'.settled = true) s := by
  unfold runManifest activateOrRecover
  simp only [ht, Bool.false_eq_true, if_false]
  refine Obeys.bind (activateResumable_pickup h manifest) fun r s' hr => ?_
  rcases hr with ⟨rfl, hs⟩ | ⟨e, rfl, he, rfl⟩
  · exact obeys_settled hs
  · simp only [he, Bool.false_eq_true, if_false]
    exact handleFailed_settles h

theorem runIngestion_settles (ht : task.resumable = false) :
    (runIngestion lib p item task).Obeys (pickup p task) (fun _ s' => s'.settled = true) s := by
  refine pickup_ask h.unsettled fun env henv => ?_
  rw [ht]
  split
  next e he =>
    have halive := henv.ingested
    rw [he] at halive
    exact handleJobError_settles h (by simpa [failsWith] using halive)
  · split
    next e he => exact handleJobError_settles h (by rw [Stdlib.ingest_error he]; decide)
    · exact runManifest_settles h ht _

theorem runJob_settles (ht : task.resumable = false) :
    (runJob lib p item task).Obeys (pickup p task) (fun _ s' => s'.settled = true) s := by
  unfold runJob
  simp only [ht, Bool.false_eq_true, if_false]
  refine ⟨.inr trivial, fun r hr => ?_⟩
  cases hr h.unsettled
  exact runIngestion_settles h ht

end

/-- The pickup of a fresh job ends with an activated or a finished one. -/
theorem pollJob_settles (lib : Stdlib) (p : Processor) (ht : task.resumable = false)
    (hid : task.id ≠ "") :
    (pollJob lib p task).Obeys (pickup p task) (fun _ s' => s'.settled = true) {} := by
  refine ⟨.inr trivial, fun r hr => ?_⟩
  obtain ⟨item, rfl, hitem⟩ := hr rfl rfl
  have h : AtWork p task item { item := some item } := ⟨rfl, rfl, hitem, hid⟩
  obtain ⟨doc, hdoc, hstatus⟩ := hitem.status
  dsimp only [Prog.bind]
  split
  · exact handleFailed_settles h
  next batch hbatch =>
    have hb : batch = some doc := by
      unfold dbItemToBatch at hbatch
      split at hbatch
      · cases hbatch
        exact hdoc
      · cases hbatch
    subst hb
    refine pickup_ask h.unsettled fun env henv => ?_
    split
    · exact Obeys.bind (statusWrite_settles h rfl (.inl rfl)) fun _ _ hr => .ret hr.1
    · split
      next hrun =>
        split
        · exact Obeys.bind (statusWrite_settles h rfl (.inl rfl)) fun _ _ hr => .ret hr.1
        next hne =>
          rcases hstatus with hv | hc
          · simp [hv, isJobRunnable] at hrun
          · simp [hc] at hne
      · rw [henv.polling]
        exact runJob_settles h ht

end Walk
end BatchGateway
