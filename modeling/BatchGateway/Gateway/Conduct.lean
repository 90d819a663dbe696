import BatchGateway.Gateway.Issues

/-! The conduct of each actor: which statements it issues, and with which arguments. -/
namespace BatchGateway

open Interleaving Prog

/-- What a processor's thread knows about its job: the item of its last claim re-read, whether the
job is still unfinished as far as this thread can tell, and whether it was so at that re-read. -/
structure Held where
  item : Option BatchItem := none
  live : Bool := true
  sure : Bool := false

def BatchStatusInfo.Open (doc : BatchStatusInfo) : Prop := doc.status.isTerminal = false

/-- The statement may end the job. -/
def Stmt.Ends : Stmt → Bool
  | dbUpdate x _ => x.status.any (·.status.isTerminal)
  | finalize _ => true
  | _ => false

namespace Held

variable (s : Held)

/-- The re-read document is known to be open. -/
def Vouches (doc : BatchStatusInfo) : Prop := s.sure = true ∨ doc.Open

/-- A statement that may have ended the job leaves nothing to be sure of. -/
def afterStmt (st : Stmt) : Except Err Bool → Held
  | .ok false => s
  | _ => if st.Ends then { s with live := false } else s

def afterFetch : Except Err (Option BatchItem) → Held
  | .ok (some item) =>
    { item := some item
      live := s.live || item.status.all fun doc => doc.status.isTerminal = false
      sure := s.live }
  | _ => s

/-- The statements that a processor may issue for a job. Every one of them carries the epoch of the
task or of the re-read item. -/
def Permits (processorID : String) (task : BatchJobPriority) : Stmt → Prop
  | .pqEnqueue jp => jp = task ∨ ∃ it ∈ s.item, jp.epoch = it.epoch ∧
      jp.processorID = it.processorID ∧ jp.expectedStatus = some .validating
  | .requeue _ p e _ _ => (p = processorID ∧ e = task.epoch) ∨
      ∃ it ∈ s.item, p = it.processorID ∧ e = it.epoch
  | .recordSubmitter .. => True
  | .activate a => (∃ it ∈ s.item, a.processorID = it.processorID ∧ a.epoch = it.epoch) ∧
      a.entries ≠ [] ∧ (Stmt.activate a).Issued ∧
      a.entries.Pairwise (·.ordinal < ·.ordinal) ∧ ∀ e ∈ a.entries, 0 ≤ e.ordinal
  | .finalize fin => ∃ it ∈ s.item, fin.processorID = processorID ∧ fin.epoch = it.epoch ∧
      fin.status.status.isTerminal = true ∧
      (fin.status.status = .completed → fin.expectedStatus = some .finalizing) ∧
      ∃ expected, fin.expectedStatus = some expected ∧ (expected.isTerminal = false ∨
        ∃ doc, it.status = some doc ∧ doc.status = expected ∧ s.Vouches doc)
  | .dbUpdate x none => s.live = true ∧ x.bumpEpoch = false ∧ ∃ it ∈ s.item, x.epoch = it.epoch ∧
      ∃ doc, x.status = some doc ∧ (doc.status = .expired ∨ doc.status = .cancelled ∨
        doc.status = .finalizing ∧ x.expectedResumable = some true)
  | .dbUpdate x (some old) => x.bumpEpoch = false ∧ ∃ it ∈ s.item, x.epoch = it.epoch ∧
      it.status = some old ∧ s.Vouches old ∧ ∃ doc, x.status = some doc ∧ doc.status = .failed
  | _ => False

end Held

namespace Actor

/-- The statements that an actor may issue. -/
def Allows (s : Held) : Actor → Stmt → Prop
  | poll p task, st | recovery p task, st => s.Permits p.processorID task st
  | renewal p item, st => ∃ ttl, st = .renew item.id p.processorID item.epoch ttl
  | request p item _, st => (∃ r, st = .mark item.id r p.processorID item.epoch) ∨
      (∃ r result, st = .checkpoint item.id r p.processorID item.epoch result ∧
        result.status.isTerminal = true) ∨
      ∃ counts, st = .updateProgress item.id item.epoch counts
  | cancel id, st => st = .pqDelete id ∨ ∃ x old, st = .dbUpdate x (some old) ∧ old.Open ∧
      x.bumpEpoch = false ∧ ∃ doc, x.status = some doc ∧ doc.status = .cancelling
  | reconcile _, st => (∃ id p e alive bump, st = .requeue id p e alive bump) ∨
      (∃ id p e, st = .recordSubmitter id p e) ∨
      (∃ jp status, st = .pqEnqueue jp ∧ jp.expectedStatus = some status ∧ status ≠ .cancelling) ∨
      ∃ x old, st = .dbUpdate x (some old) ∧ old.Open ∧ x.bumpEpoch = true ∧
        ∃ doc, x.status = some doc ∧ (doc.status = .cancelled ∨ doc.status = .failed)

/-- The background work that an actor may announce. -/
def Announces (s : Held) : Actor → Background → Prop
  | poll p _, b => ∃ it ∈ s.item, b.grant = (p.processorID, it.epoch)
  | _, _ => False

/-- The actors that finalize a batch through its artifacts. -/
def polls : Actor → Bool
  | poll .. => true
  | _ => false

/-- The actors that announce a cancellation. -/
def heralds : Actor → Bool
  | cancel _ => true
  | _ => false

/-- The discipline of an actor. -/
def conduct (g : Actor) : Monitor Held Call Call.Resp where
  allow s
    | .exec st => g.Allows s st
    | .go b => g.Announces s b
    | .store key .. | .delete key | .deleteDir key => isResultKey key = true
    | .commitStream .. | .retrieveArtifact .. => g.polls = true
    | .sendCancelEvent => g.heralds = true
    | _ => True
  answer s
    | .exec _ => fun r => ∀ e, r = .error e → e.isConflict = false
    | .fetch .. => fun r => ∀ item, r = .ok (some item) →
        ∀ old ∈ s.item, item.specDecodes = old.specDecodes
    | .fetchOwned => fun r => ∀ jobs, r = .ok jobs → ∀ job ∈ jobs, ∀ doc ∈ job.status, doc.Open
    | _ => fun _ => True
  next s
    | .exec st => fun r => s.afterStmt st r
    | .fetch .polling _ => fun r => s.afterFetch r
    | .fetch .recovery _ => fun r => s.afterFetch r
    | _ => fun _ => s

end Actor

theorem Actor.allows_claim {g : Actor} {s : Held} {p : Processor} {task : BatchJobPriority}
    {st : Stmt} (hg : g.claim = some (p, task)) :
    g.Allows s st ↔ s.Permits p.processorID task st := by
  cases g <;> simp only [claim, Option.some.injEq, Prod.mk.injEq, reduceCtorEq] at hg <;>
    obtain ⟨rfl, rfl⟩ := hg <;> rfl

def IsConflict {α : Type} (r : Except Err α) : Prop := ∃ e, r = .error e ∧ e.isConflict = true

/-- What a status write leaves of the knowledge about the job: a conflict proves that nothing was
written. -/
structure Held.Wrote {α : Type} (ends : Bool) (s s' : Held) (r : Except Err α) : Prop where
  item : s'.item = s.item
  sure : s'.sure = s.sure
  live : ends = false ∨ IsConflict r → s'.live = s.live

section Walk

variable {α : Type} {P : Stmt → Prop} {lib : Stdlib} {g : Actor} {s : Held} {st : Stmt}

theorem Held.afterStmt_of_not_ends (h : st.Ends = false) (r : Except Err Bool) :
    s.afterStmt st r = s := by
  unfold afterStmt
  split
  · rfl
  · simp [h]

variable {m : Task α}

theorem Issues.obeys (hm : Issues P m) (h : ∀ st, P st → g.Allows s st ∧ st.Ends = false) :
    m.Obeys g.conduct (fun _ s' => s' = s) s := by
  refine Calls.obeys hm (fun c hc => ?_) fun c r hc => ?_
  · cases c <;> first | exact trivial | exact (h _ hc).1 | exact hc | cases hc
  · cases c with
    | exec st => exact Held.afterStmt_of_not_ends (h st hc).2 r
    | fetch site id => cases site <;> first | rfl | cases hc
    | _ => rfl

/-- A program without statements leaves the monitor as it is. -/
theorem Issues.obeys_none (hm : Issues (fun _ => False) m) :
    m.Obeys g.conduct (fun _ s' => s' = s) s :=
  hm.obeys fun _ h => h.elim

/-- A program that publishes artifacts leaves the monitor as it is, too. -/
theorem Assembles.obeys (hm : Assembles m) (hg : g.polls = true) :
    m.Obeys g.conduct (fun _ s' => s' = s) s := by
  refine Calls.obeys hm (fun c hc => ?_) fun c r hc => ?_
  · cases c <;>
      simp only [Call.IsPlain, Call.IsArtifact, Bool.false_eq_true, or_self, or_false] at hc <;>
      first | exact trivial | exact hc | exact hg
  · cases c with
    | fetch site id => cases site <;> first | rfl | simp [Call.IsPlain, Call.IsArtifact] at hc
    | exec st => simp [Call.IsPlain, Call.IsArtifact] at hc
    | _ => rfl

/-! One rule per kind of call. -/

variable {Q : α → Held → Prop}

theorem obeys_exec {f : Except Err Bool → Task α} (h : g.Allows s st)
    (hf : ∀ r, (∀ e, r = .error e → e.isConflict = false) →
      (f r).Obeys g.conduct Q (s.afterStmt st r)) :
    (call (.exec st) >>= f).Obeys g.conduct Q s := ⟨h, hf⟩

theorem obeys_plain {c : Call} {f : c.Resp → Task α} (h : c.IsPlain = true)
    (hf : ∀ r, (f r).Obeys g.conduct Q s) : (call c >>= f).Obeys g.conduct Q s := by
  refine ⟨?_, fun r _ => ?_⟩
  · cases c <;> first | exact trivial | exact h | cases h
  · cases c with
    | fetch site id => cases site <;> first | exact hf r | cases h
    | exec st => cases h
    | _ => exact hf r

theorem obeys_go {b : Background} {f : Unit → Task α} (h : g.Announces s b)
    (hf : (f ()).Obeys g.conduct Q s) : (call (.go b) >>= f).Obeys g.conduct Q s :=
  ⟨h, fun _ _ => hf⟩

/-- A claim re-read that found the job. -/
theorem obeys_reread {site : FetchSite} {id : String} {f : Except Err (Option BatchItem) → Task α}
    (hsite : site = .polling ∨ site = .recovery)
    (hf : ∀ r, (∀ item, r = .ok (some item) → ∀ old ∈ s.item, item.specDecodes = old.specDecodes) →
      (f r).Obeys g.conduct Q (s.afterFetch r)) :
    (call (.fetch site id) >>= f).Obeys g.conduct Q s := by
  rcases hsite with rfl | rfl <;> exact ⟨trivial, hf⟩

/-! ### Status writes -/

theorem afterStmt_wrote {r : Except Err Bool} {r' : Except Err α}
    (h : IsConflict r' → r = .ok false) : Held.Wrote st.Ends s (s.afterStmt st r) r' := by
  refine ⟨?_, ?_, ?_⟩
  · unfold Held.afterStmt
    split
    · rfl
    · split <;> rfl
  · unfold Held.afterStmt
    split
    · rfl
    · split <;> rfl
  · rintro (he | hc)
    · unfold Held.afterStmt
      split
      · rfl
      · simp [he]
    · rw [h hc, Held.afterStmt]

theorem dbUpdate_obeys {x : BatchItem} {expected : Option BatchStatusInfo}
    (h : g.Allows s (.dbUpdate x expected)) :
    (dbUpdate x expected).Obeys g.conduct
      (fun r s' => Held.Wrote (Stmt.Ends (.dbUpdate x expected)) s s' r) s := by
  unfold dbUpdate
  split
  · exact .ret ⟨rfl, rfl, fun _ => rfl⟩
  split
  · exact .ret ⟨rfl, rfl, fun _ => rfl⟩
  refine obeys_exec h fun r hr => ?_
  split
  next e =>
    refine .ret (afterStmt_wrote ?_)
    rintro ⟨_, he, hc⟩
    cases he
    rw [hr e rfl] at hc
    cases hc
  next => exact .ret (afterStmt_wrote fun ⟨_, he, _⟩ => nomatch he)
  next => split <;> exact .ret (afterStmt_wrote fun _ => rfl)

variable {job : BatchItem} {counts : Option BatchRequestCounts} {out err : String}

theorem updatePersistentStatusFrom_obeys {expected : Option BatchStatusInfo} {new : BatchStatus}
    {slo : Option Time} (h : ∀ old doc, job.status = some old → doc.status = new →
      g.Allows s (.dbUpdate (job.statusUpdate doc) expected)) :
    (updatePersistentStatusFrom expected job new counts slo out err).Obeys g.conduct
      (fun r s' => Held.Wrote new.isTerminal s s' r ∧
        ∀ job', r = .ok job' → job'.epoch = job.epoch) s := by
  refine obeys_plain rfl fun env => ?_
  split
  · exact .ret ⟨⟨rfl, rfl, fun _ => rfl⟩, fun _ h => by cases h⟩
  next doc hdoc =>
    have hnew := buildStatus_status hdoc
    obtain ⟨old, hold⟩ : ∃ old, job.status = some old := by
      unfold buildStatus at hdoc
      split at hdoc
      · cases hdoc
      next old hold => exact ⟨old, hold⟩
    refine (dbUpdate_obeys (h old doc hold hnew)).bind fun r s' hw => ?_
    have hends : Stmt.Ends (.dbUpdate (job.statusUpdate doc) expected) = new.isTerminal := by
      simp [Stmt.Ends, BatchItem.statusUpdate, hnew]
    rw [hends] at hw
    split
    next e =>
      refine .ret ⟨⟨hw.item, hw.sure, fun hl => hw.live (hl.imp_right ?_)⟩, fun _ h => by cases h⟩
      rintro ⟨_, he, hc⟩
      cases he
      exact ⟨e, rfl, hc⟩
    next =>
      refine .ret ⟨⟨hw.item, hw.sure, fun hl => hw.live (hl.imp_right ?_)⟩, ?_⟩
      · rintro ⟨_, he, _⟩
        cases he
      · rintro _ h
        cases h
        rfl

/-! ### The owner of a job -/

/-- The thread vouches for the document of the item, if there is one. -/
def Held.Trusts (s : Held) (item : BatchItem) : Prop :=
  ∀ doc, item.status = some doc → s.Vouches doc

variable {p : Processor} {task : BatchJobPriority} {item it : BatchItem}

section

variable (hg : g.claim = some (p, task)) (hi : s.item = some item)
include hg hi

theorem updateFailedStatus_obeys (hv : s.Trusts item) :
    (updateFailedStatus item counts out err).Obeys g.conduct
      (fun r s' => Held.Wrote true s s' r) s := by
  refine (updatePersistentStatusFrom_obeys fun old doc hold hdoc => ?_).mono fun _ _ h => h.1
  rw [Actor.allows_claim hg, hold]
  exact ⟨rfl, item, hi, rfl, hold, hv old hold, doc, rfl, hdoc⟩

/-- The status writes that compare no document. -/
theorem updateEnd_obeys {new : BatchStatus} {slo : Option Time} (hl : s.live = true)
    (hnew : new = .expired ∨ new = .cancelled) :
    (updatePersistentStatusFrom none item new counts slo out err).Obeys g.conduct
      (fun r s' => Held.Wrote true s s' r) s := by
  refine (updatePersistentStatusFrom_obeys fun old doc _ hdoc => ?_).mono fun _ _ h => ?_
  · rw [Actor.allows_claim hg]
    refine ⟨hl, rfl, item, hi, rfl, doc, rfl, ?_⟩
    rcases hnew with rfl | rfl
    · exact .inl hdoc
    · exact .inr (.inl hdoc)
  · rcases hnew with rfl | rfl <;> exact h.1

theorem handleFailed_obeys (hv : s.Trusts item) :
    (handleFailed item counts).Obeys g.conduct (fun _ _ => True) s :=
  (updateFailedStatus_obeys hg hi hv).bind fun _ _ _ => trivial

theorem handleExpired_obeys (hl : s.live = true) :
    (handleExpired item counts).Obeys g.conduct (fun _ _ => True) s :=
  (updateEnd_obeys hg hi hl (.inl rfl)).bind fun _ _ _ => trivial

theorem handleCancelled_obeys (hl : s.live = true) (hv : s.Trusts item) :
    (handleCancelled item counts).Obeys g.conduct (fun _ _ => True) s := by
  refine (updateEnd_obeys hg hi hl (.inr rfl)).bind fun r s' hw => ?_
  split
  · exact .ret trivial
  · have hv' : s'.Trusts item := by
      intro doc hdoc
      rw [Held.Vouches, hw.sure]
      exact hv doc hdoc
    refine (updateFailedStatus_obeys hg (hw.item.trans hi) hv').bind fun r _ _ => ?_
    split <;> exact .ret trivial

end

/-- The source status of a terminal transition is open, or it was read while the job was. -/
def Held.Expects (s : Held) (it : BatchItem) (expected : BatchStatus) : Prop :=
  expected.isTerminal = false ∨
    ∃ doc, it.status = some doc ∧ doc.status = expected ∧ s.Vouches doc

variable {expected : BatchStatus}

theorem finalizeResumableStatus_obeys {terminal : BatchStatus} {counts : BatchRequestCounts}
    (hg : g.claim = some (p, task)) (hi : s.item = some it) (he : item.epoch = it.epoch)
    (ht : terminal.isTerminal = true) (hc : terminal = .completed → expected = .finalizing)
    (hx : s.Expects it expected) :
    (finalizeResumableStatus p.processorID item expected terminal counts out err).Obeys g.conduct
      (fun _ _ => True) s := by
  refine obeys_plain rfl fun env => ?_
  split
  · exact .ret trivial
  next doc hdoc =>
    have hstatus := buildStatus_status hdoc
    refine Obeys.bind (P := fun _ _ => True) ?_ fun r s' _ => ?_
    · unfold finalizeResumableBatch
      dsimp only
      split
      · exact .ret trivial
      · refine obeys_exec ?_ fun r _ => ?_
        · rw [Actor.allows_claim hg]
          exact ⟨it, hi, rfl, he, hstatus ▸ ht, fun h => congrArg some (hc (hstatus ▸ h)),
            expected, rfl, hx⟩
        · split
          · exact .ret trivial
          · exact .ret trivial
          · refine obeys_plain rfl fun r => ?_
            split
            · exact .ret trivial
            · split <;> exact .ret trivial
    · split
      · exact .ret trivial
      · exact obeys_plain (isResultKey_append _) fun _ => .ret trivial

section

variable (hi : s.item = some it) (he : item.epoch = it.epoch)
include hi he

theorem finalizeResumableAs_obeys {status : BatchStatus} {code : BatchErrorCode}
    (ht : status.isTerminal = true) (hc : status ≠ .completed) (hx : s.Expects it expected) :
    (finalizeResumableAs lib p.processorID item status code expected).Obeys
      (Actor.poll p task).conduct (fun _ _ => True) s := by
  refine ((assembleResumableArtifacts_assembles ..).obeys rfl).bind fun r s' hs => ?_
  subst hs
  split
  · exact .ret trivial
  · refine (finalizeResumableStatus_obeys rfl hi he ht (fun h => absurd h hc) hx).bind fun r _ _ => ?_
    split <;> exact .ret trivial

theorem finalizeResumableJob_obeys (hl : s.live = true) :
    (finalizeResumableJob lib p.processorID item).Obeys (Actor.poll p task).conduct
      (fun _ _ => True) s := by
  refine (updatePersistentStatusFrom_obeys fun old doc _ hdoc => ?_).bind fun r s' h => ?_
  · rw [Actor.allows_claim rfl]
    exact ⟨hl, rfl, it, hi, he, doc, rfl, .inr (.inr ⟨hdoc, rfl⟩)⟩
  · obtain ⟨hw, hjob⟩ := h
    split
    · exact .ret trivial
    next job =>
      have he' : job.epoch = it.epoch := (hjob job rfl).trans he
      refine ((assembleResumableArtifacts_assembles ..).obeys rfl).bind fun r s'' hs => ?_
      subst hs
      split
      · exact .ret trivial
      · refine obeys_plain rfl fun env => ?_
        split
        · refine Obeys.bind (finalizeResumableStatus_obeys rfl (hw.item.trans hi) he' (by rfl)
            (by decide) (.inl (by rfl))) fun r _ _ => ?_
          split <;> exact .ret trivial
        · refine Obeys.bind (finalizeResumableStatus_obeys rfl (hw.item.trans hi) he' (by rfl)
            (by decide) (.inl (by rfl))) fun r _ _ => ?_
          split <;> exact .ret trivial

theorem handleJobError_obeys {durable : Bool} {err : Err} (hl : s.live = true)
    (hfresh : durable = false → item = it) (hv : s.Trusts it) :
    (handleJobError lib p item durable counts err).Obeys (Actor.poll p task).conduct
      (fun _ _ => True) s := by
  unfold handleJobError
  split
  · split
    · exact finalizeResumableAs_obeys hi he (by rfl) (by decide) (.inl (by rfl))
    · exact finalizeResumableAs_obeys hi he (by rfl) (by decide) (.inl (by rfl))
    · exact .ret trivial
    · exact finalizeResumableAs_obeys hi he (by rfl) (by decide) (.inl (by rfl))
  next hd =>
    obtain rfl := hfresh (by simpa using hd)
    split
    · exact handleCancelled_obeys rfl hi hl hv
    · exact handleExpired_obeys rfl hi hl
    · exact .ret trivial
    · exact handleFailed_obeys rfl hi hv

end

theorem runActivated_obeys (hi : s.item = some item) (hl : s.live = true) (hv : s.Trusts item) :
    (runActivated lib p item).Obeys (Actor.poll p task).conduct (fun _ _ => True) s := by
  refine Obeys.lift_bind trivial fun fresh _ => ?_
  have he := refreshStatus_epoch item fresh
  refine obeys_go ⟨item, hi, by rw [Background.grant, he]⟩ ?_
  refine obeys_go ⟨item, hi, by rw [Background.grant, he]⟩ ?_
  refine obeys_plain rfl fun env => ?_
  split
  · exact .ret trivial
  split
  · split
    · exact .ret trivial
    · exact handleJobError_obeys hi he hl (fun h => by cases h) hv
  · refine (finalizeResumableJob_obeys hi he hl).bind fun r _ _ => ?_
    split
    · split <;> exact .ret trivial
    · exact .ret trivial

/-- An item read while the job was live, or one whose document is open, can be expected later. -/
theorem expects_getJobStatus (h : getJobStatus item = some expected) (hv : s.Trusts item) :
    s.Expects item expected := by
  obtain ⟨doc, hdoc, rfl⟩ := Option.map_eq_some_iff.1 h
  exact .inr ⟨doc, hdoc, rfl, hv doc hdoc⟩

theorem runManifest_obeys {manifest : RequestManifest} (hm : manifest.WellFormed)
    (hi : s.item = some item) (hl : s.live = true) (hv : s.Trusts item) :
    (runManifest lib p item task manifest).Obeys (Actor.poll p task).conduct (fun _ _ => True) s := by
  refine Obeys.bind (P := fun _ s' => s' = s) ?_ fun r s' hs => ?_
  · unfold activateOrRecover
    dsimp only
    split
    · exact (recoverResumable_issues item manifest).obeys_none
    · refine (activateResumable_issues _ _ _ hm).obeys ?_
      rintro _ ⟨rfl, hne⟩
      exact ⟨⟨⟨item, hi, rfl, rfl⟩, hne, manifest.activation_issued, hm.activation⟩, rfl⟩
  · subst hs
    split
    · exact runActivated_obeys hi hl hv
    · split
      · exact .ret trivial
      split
      · split
        next expected hx =>
          exact finalizeResumableAs_obeys hi rfl (by rfl) (by decide) (expects_getJobStatus hx hv)
        · exact .ret trivial
      · exact handleFailed_obeys rfl hi hv

theorem runIngestion_obeys (hi : s.item = some item) (hl : s.live = true) (hv : s.Trusts item) :
    (runIngestion lib p item task).Obeys (Actor.poll p task).conduct (fun _ _ => True) s := by
  refine obeys_plain rfl fun env => ?_
  split
  · exact handleJobError_obeys hi rfl hl (fun _ => rfl) hv
  · split
    · exact handleJobError_obeys hi rfl hl (fun _ => rfl) hv
    next hm => exact runManifest_obeys (Stdlib.ingest_wellFormed hm) hi hl hv

theorem pqEnqueue_task_obeys (hg : g.claim = some (p, task)) :
    (pqEnqueue task).Obeys g.conduct (fun _ s' => s' = s) s := by
  refine (pqEnqueue_issues task).obeys ?_
  rintro _ rfl
  exact ⟨(Actor.allows_claim hg).2 (.inl rfl), rfl⟩

theorem returnToQueue_obeys (hi : s.item = some item) (hv : s.Trusts item) :
    (returnToQueue item task).Obeys (Actor.poll p task).conduct (fun _ _ => True) s := by
  refine (pqEnqueue_task_obeys rfl).bind fun r s' hs => ?_
  subst hs
  split
  · exact handleFailed_obeys rfl hi hv
  · exact .ret trivial

theorem requeue_obeys {id q : String} {e : Int} {expired bump : Bool}
    (hg : g.claim = some (p, task))
    (h : (q = p.processorID ∧ e = task.epoch) ∨ ∃ it ∈ s.item, q = it.processorID ∧ e = it.epoch) :
    (requeueResumableOrphan id q e expired bump).Obeys g.conduct (fun _ _ => True) s := by
  refine ((requeueResumableOrphan_issues ..).obeys ?_).mono fun _ _ _ => trivial
  rintro _ (rfl | rfl)
  · exact ⟨(Actor.allows_claim hg).2 h, rfl⟩
  · exact ⟨(Actor.allows_claim hg).2 trivial, rfl⟩

theorem runFromEvents_obeys (hi : s.item = some item) (hl : s.live = true) (hv : s.Trusts item) :
    (runFromEvents lib p item task).Obeys (Actor.poll p task).conduct (fun _ _ => True) s := by
  refine Obeys.lift_bind trivial fun r _ => ?_
  split
  · split
    · exact requeue_obeys rfl (.inr ⟨item, hi, rfl, rfl⟩)
    · exact returnToQueue_obeys hi hv
  · exact runIngestion_obeys hi hl hv

theorem routeResumedPickup_obeys (hi : s.item = some item) (hv : s.Trusts item) :
    (routeResumedPickup lib p item task).Obeys (Actor.poll p task).conduct
      (fun r s' => r = none → s' = s) s := by
  refine obeys_plain rfl fun env => ?_
  split
  next expected status code hx hroute =>
    have hstatus : status.isTerminal = true ∧ status ≠ .completed := by
      unfold resumedPickupRoute at hroute
      split_ifs at hroute <;> cases hroute <;> decide
    refine (finalizeResumableAs_obeys hi rfl hstatus.1 hstatus.2
      (expects_getJobStatus hx hv)).bind fun r s' _ => ?_
    exact .ret nofun
  · exact .ret fun _ => rfl

theorem runJob_obeys (hi : s.item = some item) (hl : s.live = true) (hv : s.Trusts item) :
    (runJob lib p item task).Obeys (Actor.poll p task).conduct (fun _ _ => True) s := by
  unfold runJob
  split
  · refine obeys_go ⟨item, hi, rfl⟩ ?_
    refine (routeResumedPickup_obeys hi hv).bind fun r s' hs => ?_
    split
    · exact .ret trivial
    · obtain rfl := hs rfl
      exact runFromEvents_obeys hi hl hv
  · exact runFromEvents_obeys hi hl hv

theorem pollJob_obeys :
    (pollJob lib p task).Obeys (Actor.poll p task).conduct (fun _ _ => True) {} := by
  refine obeys_reread (.inl rfl) fun r hspec => ?_
  clear hspec
  split
  · exact (pqEnqueue_task_obeys rfl).mono fun _ _ _ => trivial
  · exact .ret trivial
  next item =>
    have hi : (Held.afterFetch {} (.ok (some item))).item = some item := rfl
    have hl : (Held.afterFetch {} (.ok (some item))).live = true := rfl
    have hv : (Held.afterFetch {} (.ok (some item))).Trusts item := fun _ _ => .inl rfl
    generalize Held.afterFetch {} (.ok (some item)) = s at hi hl hv
    split
    · exact handleFailed_obeys rfl hi hv
    · refine obeys_plain rfl fun env => ?_
      dsimp only
      split
      · exact Obeys.bind (updateEnd_obeys rfl hi hl (.inl rfl)) fun _ _ _ => .ret trivial
      split
      · split
        · exact Obeys.bind (updateEnd_obeys rfl hi hl (.inr rfl)) fun _ _ _ => .ret trivial
        · exact .ret trivial
      split
      · split
        · exact requeue_obeys rfl (.inl ⟨rfl, rfl⟩)
        · exact returnToQueue_obeys hi hv
      · exact runJob_obeys hi hl hv

/-! ### Startup recovery -/

theorem recoverWithFailed_obeys (hg : g.claim = some (p, task)) (hi : s.item = some item)
    (hv : s.Trusts item) :
    (recoverWithFailed item counts).Obeys g.conduct (fun r s' => Held.Wrote true s s' r) s := by
  refine (updateFailedStatus_obeys hg hi hv).bind fun r s' hw => ?_
  split
  next e =>
    refine .ret ⟨hw.item, hw.sure, fun hl => hw.live (hl.imp_right ?_)⟩
    rintro ⟨_, he, hc⟩
    cases he
    exact ⟨e, rfl, hc⟩
  next =>
    refine .ret ⟨hw.item, hw.sure, fun hl => hw.live (hl.imp_right ?_)⟩
    rintro ⟨_, he, _⟩
    cases he

theorem recoverReEnqueue_obeys {batch : Option BatchStatusInfo} (hg : g.claim = some (p, task))
    (hi : s.item = some item) (hl : s.live = true) :
    (recoverReEnqueue item batch false).Obeys g.conduct
      (fun _ s' => s'.item = s.item ∧ s'.sure = s.sure) s := by
  unfold recoverReEnqueue
  split
  · exact .ret ⟨rfl, rfl⟩
  refine obeys_plain rfl fun env => ?_
  split
  · refine Obeys.bind (updateEnd_obeys hg hi hl (.inl rfl)) fun r s' hw => ?_
    split <;> exact .ret ⟨hw.item, hw.sure⟩
  · -- the status is not reset, so the item is the one that was read
    rw [show resetStatus item _ false = .ret (.ok item) from rfl, Prog.ret_bind]
    dsimp only
    split
    · exact .ret ⟨rfl, rfl⟩
    next jp hjp =>
      have hjp : jp.epoch = item.epoch ∧ jp.processorID = item.processorID ∧
          jp.expectedStatus = some .validating := by
        unfold buildRecoveryTask at hjp
        split at hjp <;> cases hjp
        exact ⟨rfl, rfl, rfl⟩
      refine Obeys.bind ((pqEnqueue_issues jp).obeys (s := s) ?_) fun r s' hs => ?_
      · rintro _ rfl
        exact ⟨(Actor.allows_claim hg).2 (.inr ⟨item, hi, hjp⟩), rfl⟩
      · subst hs
        split <;> exact .ret ⟨rfl, rfl⟩

/-- The job is live, or it is not malformed. -/
def Held.Sound (s : Held) : Prop := s.live = true ∨ ∃ it ∈ s.item, it.specDecodes = true

/-- Only a conflict leads to a second attempt; then the first one ended nothing, or its job at least
decodes and an ended one will be recognised. -/
theorem recoverJobOnce_obeys {jobID : String} (hg : g.claim = some (p, task)) (hs : s.Sound) :
    (recoverJobOnce jobID).Obeys g.conduct (fun r s' => IsConflict r → s'.Sound) s := by
  refine obeys_reread (.inr rfl) fun r hspec => ?_
  split
  · exact .ret fun _ => hs
  · exact .ret fun _ => hs
  next item =>
    have hi : (s.afterFetch (.ok (some item))).item = some item := rfl
    have hsure : (s.afterFetch (.ok (some item))).sure = s.live := rfl
    have hlive : (s.afterFetch (.ok (some item))).live =
      (s.live || item.status.all fun doc => doc.status.isTerminal = false) := rfl
    have hspec := hspec item rfl
    generalize s.afterFetch (.ok (some item)) = s₁ at hi hsure hlive
    unfold dbItemToBatch
    by_cases hdec : item.specDecodes
    · -- from here on the job is known to decode
      have hsound : ∀ s' : Held, s'.item = s₁.item → s'.Sound := fun s' h =>
        .inr ⟨item, h.trans hi, hdec⟩
      rw [if_pos hdec]
      dsimp only
      cases hst : item.status with
      | none =>
        refine (recoverWithFailed_obeys hg hi fun doc hdoc => ?_).mono fun r s' hw _ =>
          hsound s' hw.item
        rw [hst] at hdoc
        cases hdoc
      | some doc =>
        have hv : doc.Open → ∀ d, item.status = some d → s₁.Vouches d := by
          intro ho d hd
          rw [hst] at hd
          cases hd
          exact .inr ho
        simp only [Option.map_some]
        cases hstatus : doc.status with
        | validating =>
          have hopen : doc.Open := by simp [BatchStatusInfo.Open, hstatus, BatchStatus.isTerminal,
            BatchStatus.terminalStatuses]
          have hl : s₁.live = true :=
            by simp [hlive, hst, show doc.status.isTerminal = false from hopen]
          refine Obeys.bind (recoverReEnqueue_obeys hg hi hl) fun r s' hs' => ?_
          split
          · refine (recoverWithFailed_obeys hg (hs'.1.trans hi) fun d hd => ?_).mono
              fun r s'' hw _ => hsound s'' (hw.item.trans hs'.1)
            exact (hv hopen d hd).imp_left (hs'.2.trans ·)
          · exact .ret fun _ => hsound s' hs'.1
        | inProgress | finalizing | cancelling =>
          refine (recoverWithFailed_obeys hg hi (hv ?_)).mono fun r s' hw _ => hsound s' hw.item
          simp [BatchStatusInfo.Open, hstatus, BatchStatus.isTerminal, BatchStatus.terminalStatuses]
        | completed | failed | expired | cancelled => exact .ret fun _ => hsound s₁ rfl
    · have hl : s.live = true := by
        rcases hs with hs | ⟨it, hit, hdec'⟩
        · exact hs
        · exact absurd ((hspec it hit).trans hdec') hdec
      rw [if_neg hdec]
      refine (recoverWithFailed_obeys hg hi fun _ _ => .inl (hsure.trans hl)).mono
        fun r s' hw hc => .inl ?_
      rw [hw.live (.inr hc), hlive, hl, Bool.true_or]

theorem recoverOwnedJob_obeys :
    (recoverOwnedJob task).Obeys (Actor.recovery p task).conduct (fun _ _ => True) {} := by
  unfold recoverOwnedJob
  split
  · refine obeys_reread (.inr rfl) fun r hspec => ?_
    clear hspec
    split
    · exact .ret trivial
    · exact .ret trivial
    next item =>
      refine Obeys.bind (requeue_obeys rfl (.inr ⟨item, rfl, rfl, rfl⟩)) fun r _ _ => ?_
      split <;> exact .ret trivial
  split
  · refine obeys_reread (.inr rfl) fun r hspec => ?_
    clear hspec
    split
    · exact .ret trivial
    · exact .ret trivial
    · exact (recoverWithFailed_obeys rfl rfl fun _ _ => .inl rfl).mono fun _ _ _ => trivial
  · refine Obeys.bind (recoverJobOnce_obeys rfl (.inl rfl)) fun r s hs => ?_
    split
    next e =>
      split
      next hc => exact (recoverJobOnce_obeys rfl (hs ⟨e, rfl, hc⟩)).mono fun _ _ _ => trivial
      next => exact .ret trivial
    next => exact .ret trivial

/-! ### The API server and the reconciler -/

theorem markCancelling_obeys {id : String} {fromStatus : BatchStatus} {attempts : Nat}
    {batch : BatchStatusInfo} (hb : item.status = some batch) (hf : batch.status = fromStatus)
    (ho : fromStatus.isTerminal = false) :
    (markCancelling fromStatus attempts item batch).Obeys (Actor.cancel id).conduct
      (fun _ _ => True) s := by
  induction attempts generalizing item batch s with
  | zero => exact .ret trivial
  | succ attempts ih =>
    refine obeys_plain rfl fun env => ?_
    refine Obeys.bind (dbUpdate_obeys ?_) fun r s' _ => ?_
    · rw [hb]
      exact .inr ⟨_, batch, rfl, (congrArg _ hf).trans ho, rfl, _, rfl, rfl⟩
    split
    · exact .ret trivial
    split
    · exact .ret trivial
    refine obeys_plain rfl fun r => ?_
    split
    · exact .ret trivial
    · exact .ret trivial
    split
    · exact .ret trivial
    next fresh _ =>
      unfold dbItemToBatch
      split
      · exact .ret trivial
      · exact .ret trivial
      next freshBatch hfresh =>
        split_ifs at hfresh
        split
        · exact .ret trivial
        next hs => exact ih (Except.ok.inj hfresh) (not_not.1 hs)

theorem sendCancelEvent_obeys (hg : g.heralds = true) :
    sendCancelEvent.Obeys g.conduct (fun _ _ => True) s := by
  refine Obeys.lift_bind hg fun r _ => ?_
  split <;> exact .ret trivial

theorem cancelBatch_obeys {id : String} :
    (cancelBatch id).Obeys (Actor.cancel id).conduct (fun _ _ => True) s := by
  refine obeys_plain rfl fun r => ?_
  split
  · exact .ret trivial
  · exact .ret trivial
  next item =>
    unfold dbItemToBatch
    split
    · exact .ret trivial
    · exact .ret trivial
    next batch hbatch =>
      split_ifs at hbatch
      split
      · exact .ret trivial
      split
      · exact .ret trivial
      next hcan =>
        split
        · exact sendCancelEvent_obeys rfl
        refine Obeys.bind ((pqDelete_issues id).obeys fun st hst => ?_) fun r s' hs => ?_
        · subst hst
          exact ⟨.inl rfl, rfl⟩
        split
        · exact .ret trivial
        · refine obeys_plain rfl fun r => ?_
          split
          · exact .ret trivial
          · exact .ret trivial
          · exact .ret trivial
        · refine Obeys.bind (markCancelling_obeys (Except.ok.inj hbatch) rfl ?_) fun r _ _ => ?_
          · revert hcan
            cases batch.status <;> decide
          · split
            · exact .ret trivial
            · exact sendCancelEvent_obeys rfl

variable {r : Reconciler}

theorem transitionOrphan_obeys {info : BatchStatusInfo} {target : BatchStatus}
    (hj : job.status = some info) (ho : info.Open) (ht : target = .cancelled ∨ target = .failed) :
    (r.transitionOrphan job info target).Obeys (Actor.reconcile r).conduct (fun _ _ => True) s := by
  refine obeys_plain rfl fun env => ?_
  split
  · exact .ret trivial
  next doc hdoc =>
    have hstatus := buildUpdatedStatusInfo_status hdoc
    split
    · exact .ret trivial
    · refine (dbUpdate_obeys ?_).mono fun _ _ _ => trivial
      rw [hj]
      exact .inr (.inr (.inr ⟨_, info, rfl, ho, rfl, doc, rfl, hstatus ▸ ht⟩))

theorem triageJob_obeys {live : List String} (ho : ∀ doc ∈ job.status, doc.Open) :
    (r.triageJob live job).Obeys (Actor.reconcile r).conduct (fun _ _ => True) s := by
  unfold Reconciler.triageJob
  split
  · refine obeys_plain rfl fun env => ?_
    dsimp only
    split
    · exact .ret trivial
    split
    · exact .ret trivial
    · refine ((requeueResumableOrphan_issues ..).obeys ?_).mono fun _ _ _ => trivial
      rintro _ (rfl | rfl)
      · exact ⟨.inl ⟨_, _, _, _, _, rfl⟩, rfl⟩
      · exact ⟨.inr (.inl ⟨_, _, _, rfl⟩), rfl⟩
  split
  · exact .ret trivial
  unfold Reconciler.triageOrphan
  split
  · exact .ret trivial
  next info hj =>
    split
    · exact transitionOrphan_obeys hj (ho info hj) (.inl rfl)
    next hc =>
      refine obeys_plain rfl fun env => ?_
      split
      · exact transitionOrphan_obeys hj (ho info hj) (.inr rfl)
      · unfold Reconciler.reEnqueueOrphan
        split
        · exact .ret trivial
        split
        · exact .ret trivial
        · refine ((pqEnqueue_issues _).obeys ?_).mono fun _ _ _ => trivial
          rintro _ rfl
          exact ⟨.inr (.inr (.inl ⟨_, _, rfl, rfl, hc⟩)), rfl⟩

theorem triageJobs_obeys {live : List String} {jobs : List BatchItem}
    (ho : ∀ job ∈ jobs, ∀ doc ∈ job.status, doc.Open) :
    (r.triageJobs live jobs).Obeys (Actor.reconcile r).conduct (fun _ _ => True) s := by
  induction jobs generalizing s with
  | nil => exact .ret trivial
  | cons job jobs ih =>
    obtain ⟨hj, hjobs⟩ := List.forall_mem_cons.1 ho
    exact Obeys.bind (triageJob_obeys hj) fun _ _ _ => ih hjobs

theorem reconcile_obeys :
    r.run.Obeys (Actor.reconcile r).conduct (fun _ _ => True) s := by
  refine obeys_plain rfl fun env => ⟨trivial, fun jobs hjobs => ?_⟩
  cases jobs with
  | error => exact .ret trivial
  | ok jobs => exact triageJobs_obeys (hjobs jobs rfl)

theorem handleWork_obeys {work : Work} :
    (handleWork lib p.processorID item work).Obeys (Actor.request p item work).conduct
      (fun _ _ => True) s := by
  cases work with
  | mark requestID =>
    refine Obeys.bind ((markEntryInFlight_issues ..).obeys ?_) fun _ _ _ => .ret trivial
    rintro _ rfl
    exact ⟨.inl ⟨_, rfl⟩, rfl⟩
  | checkpoint msg =>
    refine Obeys.bind ((checkpointResult_issues ..).obeys ?_) fun _ _ _ => .ret trivial
    rintro _ ⟨result, rfl, ht⟩
    exact ⟨.inr (.inl ⟨_, _, rfl, ht⟩), rfl⟩
  | progress counts =>
    refine ((dbUpdateProgress_issues ..).obeys ?_).mono fun _ _ _ => trivial
    rintro _ rfl
    exact ⟨.inr (.inr ⟨_, rfl⟩), rfl⟩

/-- Every actor keeps to its discipline. -/
theorem code_obeys (lib : Stdlib) (g : Actor) :
    (g.code lib).Obeys g.conduct (fun _ _ => True) {} := by
  cases g with
  | poll p task => exact pollJob_obeys
  | recovery p task => exact recoverOwnedJob_obeys
  | renewal p item =>
    refine ((renewBatchLease_issues ..).obeys ?_).mono fun _ _ _ => trivial
    rintro _ rfl
    exact ⟨⟨_, rfl⟩, rfl⟩
  | request p item work => exact handleWork_obeys
  | cancel id => exact cancelBatch_obeys
  | reconcile r => exact reconcile_obeys

end Walk

/-! ### Answers -/

/-- The item on record decodes exactly when the row does. -/
def Held.Copies (s : Held) (w : World) : Prop :=
  ∀ it ∈ s.item, it.specDecodes = w.batch.row.specDecodes

variable {g : Actor} {s : Held} {w w' : World} {env : Env}

theorem spec_perform {c : Call} {r : c.Resp} (h : w.perform env c = some (w', r)) :
    w'.batch.row.specDecodes = w.batch.row.specDecodes := by
  rcases World.batch_perform h with hb | ⟨st, b, -, -, hb, rfl⟩
  · rw [hb]
  · exact Stmt.specDecodes_exec hb

theorem Held.afterStmt_item (st : Stmt) (r : Except Err Bool) :
    (s.afterStmt st r).item = s.item := by
  unfold afterStmt
  split
  · rfl
  · split <;> rfl

theorem Held.Copies.afterFetch {id : String} (h : s.Copies w) :
    (s.afterFetch (World.read env
      (if w.batch.row.id = id then some w.batch.row.toItem else none))).Copies w := by
  unfold World.read
  split
  · split
    · rintro it ⟨⟩
      rfl
    · exact h
  · exact h

/-- The world answers as the disciplines expect. -/
theorem answer_of_perform {c : Call} {r : c.Resp} (h : s.Copies w)
    (hp : w.perform env c = some (w', r)) : g.conduct.answer s c r := by
  cases c with
  | exec st =>
    rintro e rfl
    exact World.execStmt_error (Option.some.inj hp)
  | fetch site id =>
    cases hp
    rintro item hitem old hold
    unfold World.read at hitem
    split at hitem
    · split at hitem <;> cases hitem
      exact (h old hold).symm
    · cases hitem
  | fetchOwned =>
    cases hp
    rintro jobs hjobs job hjob doc hdoc
    unfold World.read at hjobs
    split at hjobs
    · split at hjobs
      next ho =>
        cases hjobs
        cases List.mem_singleton.1 hjob
        cases hdoc
        exact ho.1
      next =>
        cases hjobs
        cases hjob
    · cases hjobs
  | _ => trivial

theorem copies_of_perform {c : Call} {r : c.Resp} (h : s.Copies w)
    (hp : w.perform env c = some (w', r)) : (g.conduct.next s c r).Copies w' := by
  have hspec := spec_perform hp
  have hs : s.Copies w' := fun it hit => (h it hit).trans hspec.symm
  cases c with
  | exec st =>
    intro it hit
    rw [show (g.conduct.next s (.exec st) r).item = s.item from s.afterStmt_item st r] at hit
    exact hs it hit
  | fetch site id =>
    cases hp
    cases site with
    | polling => exact h.afterFetch
    | recovery => exact h.afterFetch
    | refresh => exact hs
    | apiserver => exact hs
  | _ => exact hs

end BatchGateway
