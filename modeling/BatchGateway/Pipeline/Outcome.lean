import BatchGateway.Pipeline.Flow
import Mathlib.Algebra.BigOperators.Group.List.Basic

/-! How an execution ends: what its last goroutine leaves behind, and that a failure is never
forgotten. -/
namespace BatchGateway

open Interleaving

namespace Run

variable {S : Setup} {cfg : RunConfig} {env : Surroundings} {r r' : Run}

/-! ### The end -/

/-- Nothing is on its way once every goroutine returned. -/
theorem bag_of_groupDone (hc : r.Control cfg) (hd : r.groupDone = true) :
    r.bag = 0 ∧ r.pending = [] := by
  obtain ⟨hsource, hpre, hdrain⟩ := groupDone_iff.1 hd
  obtain ⟨hinner, hforward⟩ := hc.preDone hpre
  obtain ⟨hch, -⟩ := hc.drainEnded (by rw [hdrain]; rfl)
  rcases innerDone_iff.1 hinner with ⟨hmode, hasync⟩ | ⟨hmode, haimd⟩
  · obtain ⟨haimd, hrelease, hdirect, hsubmits⟩ := hc.asynchronous hmode
    refine ⟨?_, hc.collected (by rw [hasync]; rfl)⟩
    simp [bag, hsource, hpre, hdrain, hforward, hch, hasync, haimd, hrelease, hdirect, hsubmits,
      SourcePC.bag, PrePC.bag, ForwardPC.bag, AsyncPC.bag, AimdPC.bag, ReleasePC.bag, DirectPC.bag,
      DrainPC.bag]
  · obtain ⟨hdirect, hrelease⟩ := hc.aimdDone haimd
    obtain ⟨hasync, hpending⟩ := hc.sync hmode
    have hsum : (r.submits.map SubmitPC.bag).sum = 0 := by
      refine List.sum_eq_zero fun b hb => ?_
      obtain ⟨pc, hpc, rfl⟩ := List.mem_map.1 hb
      rw [submitsDone_iff.1 (hc.directDone hdirect) pc hpc]
      rfl
    refine ⟨?_, hpending⟩
    simp [bag, hsource, hpre, hdrain, hforward, hch, hasync, haimd, hrelease, hdirect, hsum,
      SourcePC.bag, PrePC.bag, ForwardPC.bag, AsyncPC.bag, AimdPC.bag, ReleasePC.bag, DirectPC.bag,
      DrainPC.bag]

/-- A failure surfaces as an error or as a cancelled job. -/
theorem Broken.surfaces (h : r.Broken) (hc : r.Control cfg) (hd : r.groupDone = true) :
    r.jobCause.isSome ∨ r.failure.isSome := by
  obtain ⟨hsource, hpre, hdrain⟩ := groupDone_iff.1 hd
  rcases h with h | h | h | h | ⟨e, h⟩
  · rcases hc.drainFailed h with h | h
    · exact hc.failure h
    · simp [hdrain, DrainPC.failed] at h
  · simp [hsource, SourcePC.failed] at h
  · simp [hpre] at h
  · simp [hdrain, DrainPC.failed] at h
  · simp [hdrain] at h

/-! ### What the main goroutines leave alone -/

variable {task : Task (Except Err (Option ResumableResumeState))}

/-- The steps of the job. -/
inductive JobStep (cfg : RunConfig) (task : Task (Except Err (Option ResumableResumeState)))
    (r : Run) : Run → Prop
  | start (hpc : r.job = .idle) : JobStep cfg task r { r with job := .prepare task }
  | unprepared (e : Err) (hpc : r.job = .prepare (.ret (.error e))) :
    JobStep cfg task r { r with job := .done }
  | prepared (seed : Option ResumableResumeState) (hpc : r.job = .prepare (.ret (.ok seed))) :
    JobStep cfg task r { r with seed := seed, job := .build }
  | unbuilt (e : Err) (hpc : r.job = .build) : JobStep cfg task r { r with job := .check (some e) }
  | launch (pending : PendingRequests) (hpc : r.job = .build)
    (hp : r.preStored cfg = .ok pending) : JobStep cfg task r (r.launch cfg pending)
  | collect (hpc : r.job = .wait) (hd : r.groupDone = true) :
    JobStep cfg task r { r with job := .classify r.failure }
  | classify (err : Option Err) (hpc : r.job = .classify err) :
    JobStep cfg task r { r with job := .check (classifyOutcome r.jobCause r.counts err) }
  | stop (err : Option Err) (hpc : r.job = .check err) : JobStep cfg task r { r with job := .done }
  | proceed (hpc : r.job = .check none) (hlost : r.ownershipLost none = false) :
    JobStep cfg task r { r with job := .proceed }

theorem stepJob_cases (hs : r.stepJob S cfg env task = some r') : r.JobStep cfg task r' := by
  unfold stepJob at hs
  split at hs
  next hpc =>
    cases hs
    exact .start hpc
  next e hpc =>
    cases hs
    exact .unprepared e hpc
  next seed hpc =>
    cases hs
    exact .prepared seed hpc
  next => cases hs
  next hpc =>
    cases hs
    obtain ⟨e, he⟩ | ⟨pending, hp, he⟩ := build_cases S cfg env r <;> rw [he]
    · exact .unbuilt e hpc
    · exact .launch pending hpc hp
  next hpc =>
    split at hs <;> cases hs
    next hd => exact .collect hpc hd
  next err hpc =>
    cases hs
    exact .classify err hpc
  next err hpc =>
    split at hs <;> cases hs
    · exact .stop err hpc
    next hd =>
      simp only [not_or, Bool.not_eq_true, Option.isSome_eq_false_iff, Option.isNone_iff_eq_none]
        at hd
      obtain ⟨hd, rfl⟩ := hd
      exact .proceed hpc hd
  next => cases hs
  next => cases hs

theorem stepSource_frame (hs : r.stepSource cfg = some r') :
    r'.job = r.job ∧ r'.seed = r.seed ∧ r'.counts = r.counts ∧ r'.jobCause = r.jobCause ∧
      r'.drain = r.drain := by
  unfold stepSource at hs
  split at hs
  case h_2 =>
    split at hs
    · cases hs
      simp
    split at hs
    · cases hs
      simp
    · unfold sendRequest at hs
      split at hs <;> cases hs <;> simp
  case h_4 =>
    unfold sendRequest at hs
    split at hs <;> cases hs <;> simp
  case h_7 err _ =>
    cases hs
    cases err <;> simp [leave, cancel]
  all_goals
    cases hs <;> simp

theorem stepPre_frame (hs : r.stepPre cfg = some r') :
    r'.job = r.job ∧ r'.seed = r.seed ∧ r'.counts = r.counts ∧ r'.failure = r.failure ∧
      r'.source = r.source ∧ r'.drain = r.drain := by
  unfold stepPre at hs
  split at hs
  case h_4 => split at hs <;> cases hs <;> simp
  case h_9 =>
    unfold sendPreRequest at hs
    split at hs <;> cases hs <;> simp
  case h_10 =>
    have := frame_sendResult hs
    exact ⟨this.job, this.seed, this.counts, this.failure, this.source, this.drain⟩
  case h_1 | h_2 | h_3 | h_7 | h_12 => split at hs <;> cases hs <;> simp
  all_goals
    cases hs <;> simp [cancel]

variable {sink : BatchResultStore}

theorem stepDrain_frame (hs : r.stepDrain S sink = some r') :
    r'.job = r.job ∧ r'.seed = r.seed ∧ r'.jobCause = r.jobCause ∧ r'.source = r.source ∧
      r'.pre = r.pre := by
  unfold stepDrain at hs
  split at hs
  case h_1 =>
    split at hs
    · cases hs
      simp
    · split at hs <;> cases hs
      simp
  case h_2 => split at hs <;> cases hs <;> simp
  case h_10 err _ =>
    cases hs
    cases err <;> simp [leave, cancel]
  all_goals
    cases hs <;> simp [cancel]

variable {j : Fin S.jobs} {s s' : Shared (Fin S.jobs)} {g : Goroutine}

/-- Only the job itself moves on. -/
theorem job_stepRun (hs : S.stepRun env j s r g = some (s', r')) :
    (g = .job ∧
      r.stepJob S (S.config j) env ((S.config j).prepare S.lib (S.sink j)) = some r') ∨
    r'.job = r.job := by
  cases g with
  | job =>
    obtain ⟨hu, rfl⟩ := Run.of_unshared hs
    exact .inl ⟨rfl, hu⟩
  | async => exact .inr (frame_stepAsync hs).job
  | aimd => exact .inr (frame_stepAimd hs).job
  | release => exact .inr (frame_stepRelease hs).job
  | source | pre | forward | direct | submit | drain =>
    obtain ⟨hu, rfl⟩ := Run.of_unshared hs
    first
    | exact .inr (stepSource_frame hu).1
    | exact .inr (stepPre_frame hu).1
    | exact .inr (stepDrain_frame hu).1
    | exact .inr (frame_stepForward hu).job
    | exact .inr (frame_stepDirect hu).job
    | exact .inr (frame_stepSubmit hu).job

/-! ### The first cause stays -/

/-- Contexts that are cancelled stay cancelled, for the same cause. -/
def Keeps (r r' : Run) : Prop := ∀ ctx c, r.cause ctx = some c → r'.cause ctx = some c

theorem Keeps.refl (r : Run) : r.Keeps r := fun _ _ h => h

theorem Keeps.of_eq (hj : r'.jobCause = r.jobCause) (hg : r'.groupCause = r.groupCause)
    (hd : r'.dispatchCause = r.dispatchCause) : r.Keeps r' := by
  intro ctx c h
  cases ctx
  · exact hj.trans h
  · exact hg.trans h
  · exact hd.trans h

theorem Frame.keeps (hf : r.Frame r') : r.Keeps r' :=
  .of_eq hf.jobCause hf.groupCause hf.dispatchCause

theorem keeps_cancel (r : Run) (c : Cause) (ctx : Ctx) : r.Keeps (r.cancel c ctx) := by
  intro ctx' c' h
  cases ctx <;> cases ctx' <;> simp_all [Run.cancel, Run.cause]

theorem keeps_leave (r : Run) (err : Option Err) : r.Keeps (r.leave err) := by
  cases err with
  | none => exact .refl r
  | some e => exact keeps_cancel r .neutral .group

theorem keeps_stepSource (hs : r.stepSource cfg = some r') : r.Keeps r' := by
  have hsend : ∀ pc msg, { r with source := pc }.sendRequest msg = some r' → r.Keeps r' := by
    intro pc msg hs
    unfold sendRequest at hs
    split at hs <;> cases hs <;> exact .of_eq rfl rfl rfl
  unfold stepSource at hs
  split at hs
  case h_2 =>
    split at hs
    · cases hs
      exact .of_eq rfl rfl rfl
    split at hs
    · cases hs
      exact .of_eq rfl rfl rfl
    · exact hsend _ _ hs
  case h_4 => exact hsend _ _ hs
  case h_7 err _ =>
    cases hs
    exact keeps_leave { r with source := .done } err
  all_goals
    cases hs <;> exact .of_eq rfl rfl rfl

theorem keeps_stepPre (hs : r.stepPre cfg = some r') : r.Keeps r' := by
  unfold stepPre at hs
  split at hs
  case h_4 => split at hs <;> cases hs <;> exact .of_eq rfl rfl rfl
  case h_9 =>
    unfold sendPreRequest at hs
    split at hs <;> cases hs <;> exact .of_eq rfl rfl rfl
  case h_10 => exact fun ctx c h => (frame_sendResult hs).keeps ctx c h
  case h_11 =>
    cases hs
    exact keeps_cancel { r with pre := .discard } .neutral .job
  case h_1 | h_2 | h_3 | h_7 | h_12 => split at hs <;> cases hs <;> exact .of_eq rfl rfl rfl
  all_goals
    cases hs <;> exact .of_eq rfl rfl rfl

theorem keeps_stepDrain (hs : r.stepDrain S sink = some r') :
    r.Keeps r' := by
  unfold stepDrain at hs
  split at hs
  case h_1 =>
    split at hs
    · cases hs
      exact .of_eq rfl rfl rfl
    · split at hs <;> cases hs
      exact .of_eq rfl rfl rfl
  case h_2 => split at hs <;> cases hs <;> exact .of_eq rfl rfl rfl
  case h_9 e _ =>
    cases hs
    exact keeps_cancel { r with drain := .range (some e) } .neutral .dispatch
  case h_10 err _ =>
    cases hs
    exact keeps_leave { r with drain := .done } err
  all_goals
    cases hs <;> exact .of_eq rfl rfl rfl

theorem keeps_stepJob (hs : r.stepJob S cfg env task = some r') : r.Keeps r' := by
  cases stepJob_cases hs <;> exact .of_eq rfl rfl rfl

theorem keeps_stepRun (hs : S.stepRun env j s r g = some (s', r')) : r.Keeps r' := by
  rcases main_or_frame hs with hs | hs | hs | hs | hf
  · exact keeps_stepJob hs
  · exact keeps_stepSource hs
  · exact keeps_stepPre hs
  · exact keeps_stepDrain hs
  · exact hf.keeps

theorem keeps_awaits {slot : Slot} {c : Call} {k : c.Resp → Run}
    (hk : r.awaits slot = some ⟨c, k⟩) (a : c.Resp) : r.Keeps (k a) := by
  obtain ⟨t, hpc⟩ | ⟨msg, t, hpc⟩ | ⟨d, t, hpc⟩ := awaits_cases hk <;>
  exact .of_eq rfl rfl rfl

/-! ### Failures stay -/

theorem Broken.of_frame (h : r.Broken) (hf : r.Frame r') : r'.Broken := by
  unfold Broken
  rw [hf.dispatchCause, hf.source, hf.pre, hf.drain]
  exact h

theorem isSome_or {α : Type} {a b : Option α} (h : a.isSome = true) : (a.or b).isSome = true := by
  rw [Option.isSome_or, h, Bool.true_or]

theorem Broken.cancel (h : r.Broken) (cause : Cause) (ctx : Ctx) : (r.cancel cause ctx).Broken := by
  rcases h with h | h
  · left
    cases ctx <;> exact isSome_or h
  · right
    cases ctx <;> exact h

/-- Whoever cancels, the dispatch stops. -/
theorem broken_cancel (r : Run) (cause : Cause) (ctx : Ctx) : (r.cancel cause ctx).Broken := by
  left
  cases ctx <;> simp [Run.cancel]

theorem Broken.sendRequest {msg : RequestItem} (h : r.Broken)
    (hs : r.sendRequest msg = some r') : r'.Broken := by
  unfold Run.sendRequest at hs
  split at hs <;> cases hs
  next hpc => simpa [Broken, hpc] using h
  next hpc => simpa [Broken, hpc] using h
  next => exact h

theorem Broken.stepSource (h : r.Broken) (hs : r.stepSource cfg = some r') : r'.Broken := by
  -- The source's own failure stays with it until it returns the error.
  have hset : ∀ pc, (r.source.failed = true → SourcePC.failed pc = true) →
      { r with source := pc }.Broken := by
    intro pc hpc
    rcases h with h | h | h
    · exact .inl h
    · exact .inr (.inl (hpc h))
    · exact .inr (.inr h)
  unfold Run.stepSource at hs
  split at hs
  case h_2 hpc =>
    split at hs
    · cases hs
      exact hset _ (by simp [hpc, SourcePC.failed])
    split at hs
    · cases hs
      exact hset _ (by simp [hpc, SourcePC.failed])
    · exact (hset _ (by simp [hpc, SourcePC.failed])).sendRequest hs
  case h_4 hpc => exact (hset _ (by simp [hpc, SourcePC.failed])).sendRequest hs
  case h_7 err hpc =>
    cases hs
    cases err with
    | none => exact hset _ (by simp [hpc, SourcePC.failed])
    | some e => exact broken_cancel _ .neutral .group
  case h_1 hpc | h_3 hpc | h_5 hpc | h_6 hpc =>
    cases hs
    exact hset _ (by simp [hpc, SourcePC.failed])
  all_goals cases hs

theorem Broken.stepPre (h : r.Broken) (hs : r.stepPre cfg = some r') : r'.Broken := by
  have hset : ∀ pc, r.pre ≠ .lost → { r with pre := pc }.Broken := by
    intro pc hpc
    rcases h with h | h | h | h
    · exact .inl h
    · exact .inr (.inl h)
    · exact absurd h hpc
    · exact .inr (.inr (.inr h))
  unfold Run.stepPre at hs
  split at hs
  case h_4 hpc => split at hs <;> cases hs <;> exact hset _ (by simp [hpc])
  case h_9 hpc =>
    have := hset .range (by simp [hpc])
    unfold Run.sendPreRequest at hs
    split at hs <;> cases hs <;> exact this
  case h_10 hpc => exact (hset _ (by simp [hpc])).of_frame (frame_sendResult hs)
  case h_11 =>
    cases hs
    exact broken_cancel _ _ _
  case h_1 hpc | h_2 hpc | h_3 hpc | h_7 hpc | h_12 hpc =>
    split at hs <;> cases hs <;> exact hset _ (by simp [hpc])
  case h_5 hpc | h_6 hpc =>
    cases hs
    exact hset _ (by simp [hpc])
  all_goals cases hs

theorem Broken.stepDrain (h : r.Broken) (hs : r.stepDrain S sink = some r') : r'.Broken := by
  have hset : ∀ (r₂ : Run), r₂.dispatchCause = r.dispatchCause → r₂.source = r.source →
      r₂.pre = r.pre → (r.drain.failed = true → r₂.drain.failed = true) →
      (∀ e, r.drain ≠ .fail e) → r₂.Broken := by
    intro r₂ hc hs hp hf hne
    unfold Broken
    rw [hc, hs, hp]
    rcases h with h | h | h | h | ⟨e, h⟩
    · exact .inl h
    · exact .inr (.inl h)
    · exact .inr (.inr (.inl h))
    · exact .inr (.inr (.inr (.inl (hf h))))
    · exact absurd h (hne e)
  unfold Run.stepDrain at hs
  split at hs
  case h_1 err hpc =>
    split at hs
    · cases hs
      exact hset _ rfl rfl rfl (by simp [hpc, DrainPC.failed]) (by simp [hpc])
    · split at hs <;> cases hs
      exact hset _ rfl rfl rfl (by simp [hpc, DrainPC.failed]) (by simp [hpc])
  case h_2 hpc =>
    split at hs <;> cases hs <;>
    exact hset _ rfl rfl rfl (by simp [hpc, DrainPC.failed]) (by simp [hpc])
  case h_9 =>
    cases hs
    exact broken_cancel _ _ _
  case h_10 err hpc =>
    cases hs
    cases err with
    | none => exact hset _ rfl rfl rfl (by simp [hpc, DrainPC.failed]) (by simp [hpc])
    | some e => exact broken_cancel _ .neutral .group
  case h_3 hpc | h_4 hpc | h_6 hpc | h_7 hpc | h_8 hpc =>
    cases hs
    exact hset _ rfl rfl rfl (by simp [hpc, DrainPC.failed]) (by simp [hpc])
  all_goals cases hs

/-- The main thread of the job does not touch the failure; an execution starts without one. -/
theorem Broken.stepJob (hc : r.Control cfg) (h : r.Broken)
    (hs : r.stepJob S cfg env task = some r') : r'.Broken := by
  cases stepJob_cases hs with
  | launch pending hpc =>
    have hd := hc.dormant (by rw [hpc]; rfl)
    rcases h with h | h | h | h | ⟨e, h⟩
    · exact .inl h
    · simp [hd.source, SourcePC.failed] at h
    · simp [hd.pre] at h
    · simp [hd.drain, DrainPC.failed] at h
    · simp [hd.drain] at h
  | _ => exact h

theorem Broken.stepRun (h : r.Broken) (hc : r.Control (S.config j))
    (hs : S.stepRun env j s r g = some (s', r')) :
    r'.Broken := by
  rcases main_or_frame hs with hs | hs | hs | hs | hf
  · exact h.stepJob hc hs
  · exact h.stepSource hs
  · exact h.stepPre hs
  · exact h.stepDrain hs
  · exact h.of_frame hf

theorem Broken.awaits {slot : Slot} {c : Call} {k : c.Resp → Run} (h : r.Broken)
    (hk : r.awaits slot = some ⟨c, k⟩) (a : c.Resp) : (k a).Broken := by
  obtain ⟨t, hpc⟩ | ⟨msg, t, hpc⟩ | ⟨d, t, hpc⟩ := awaits_cases hk
  · exact h
  · simpa [Broken, hpc] using h
  · simpa [Broken, hpc, DrainPC.failed] using h

end Run

variable {S : Setup} {h h' : Hub S} {e : Event S}

/-- A broken execution stays broken. -/
theorem Setup.broken_step (hs : S.step h e = some h') (hc : ∀ j, (h.runs j).Control (S.config j))
    {j : Fin S.jobs} (hb : (h.runs j).Broken) : (h'.runs j).Broken := by
  have hstep := S.step_runs (P := fun i r => (h.runs i).Broken → r.Broken) hs
    (fun i g s r _ hr hp hi => (hp hi).stepRun (hc i) hr)
    (fun i slot c k a _ hk hp hi => (hp hi).awaits hk a)
    (fun i cause hp hi => (hp hi).cancel cause .job)
    (fun i d r hr hp hi => (hp hi).of_frame (Run.frame_sendPreResult hr))
    (fun i hi => hi)
  exact hstep j hb

theorem Setup.keeps_step (hs : S.step h e = some h') (j : Fin S.jobs) :
    (h.runs j).Keeps (h'.runs j) :=
  S.step_runs (P := fun i r => (h.runs i).Keeps r) hs (fun _ _ _ _ _ hr _ => Run.keeps_stepRun hr)
    (fun _ _ _ _ a _ hk _ => Run.keeps_awaits hk a) (fun _ _ _ => Run.keeps_cancel _ _ _)
    (fun _ _ _ hr _ => (Run.frame_sendPreResult hr).keeps) (fun _ => .refl _) j

theorem Setup.dispatchCause_step (hs : S.step h e = some h') {j : Fin S.jobs}
    (hc : (h.runs j).dispatchCause.isSome) : (h'.runs j).dispatchCause.isSome := by
  obtain ⟨c, hc⟩ := Option.isSome_iff_exists.1 hc
  exact Option.isSome_iff_exists.2 ⟨c, S.keeps_step hs j .dispatch c hc⟩

/-- The job of an execution moves on by its own step only, apart from its calls. -/
theorem Setup.job_step (hs : S.step h e = some h') (j : Fin S.jobs) :
    (e.who = .run j .job ∧ (h.runs j).stepJob S (S.config j) e.env
      ((S.config j).prepare S.lib (S.sink j)) = some (h'.runs j)) ∨
    (∃ t t', (h.runs j).job = .prepare t ∧ (h'.runs j).job = .prepare t') ∨
    (h'.runs j).job = (h.runs j).job := by
  refine S.step_runs (P := fun i r =>
    (e.who = .run i .job ∧ (h.runs i).stepJob S (S.config i) e.env
      ((S.config i).prepare S.lib (S.sink i)) = some r) ∨
    (∃ t t', (h.runs i).job = .prepare t ∧ r.job = .prepare t') ∨ r.job = (h.runs i).job) hs
    (fun i g s r hw hr _ => ?_) (fun i slot c k a _ hk _ => ?_) (fun i cause _ => ?_)
    (fun i d r hr _ => ?_) (fun i => .inr (.inr rfl)) j
  · rcases Run.job_stepRun hr with ⟨rfl, hjob⟩ | hjob
    · exact .inl ⟨hw, hjob⟩
    · exact .inr (.inr hjob)
  · obtain ⟨t, hpc⟩ | ⟨msg, t, hpc⟩ | ⟨d, t, hpc⟩ := Run.awaits_cases hk
    · exact .inr (.inl ⟨_, _, hpc, rfl⟩)
    · exact .inr (.inr rfl)
    · exact .inr (.inr rfl)
  · exact .inr (.inr rfl)
  · exact .inr (.inr (Run.frame_sendPreResult hr).job)

/-- An entry is finished by a checkpoint that commits. -/
theorem World.commit_perform {w w' : World} {env : Env} {c : Call} {a : c.Resp}
    {row row₀ : EntryRow} (hp : w.perform env c = some (w', a))
    (hr : row ∈ w'.batch.entries.rows) (ht : row.status.isTerminal = true)
    (hr₀ : row₀ ∈ w.batch.entries.rows) (hid : row₀.requestID = row.requestID)
    (ho : row₀.status.isTerminal = false) :
    env.fault ≠ .before ∧ ∃ id p n result, c = .exec (.checkpoint id row.requestID p n result) ∧
      row = row₀.commit env.now result := by
  have hne : row ∉ w.batch.entries.rows := by
    intro hold
    rw [EntryTable.eq_of_requestID hold hr₀ hid.symm, ho] at ht
    cases ht
  rcases batch_perform hp with hb | ⟨s, b, rfl, hc, hs, rfl⟩
  · rw [hb] at hr
    exact absurd hr hne
  · have hf : env.fault ≠ .before := by
      intro hf
      simp [World.commits, hf] at hc
    rcases Stmt.rows_exec hs with ⟨_, -, hnil, -⟩ | ⟨f, hrows, hev⟩
    · rw [hnil] at hr₀
      cases hr₀
    · dsimp only at hr
      rw [hrows, List.mem_map] at hr
      obtain ⟨r, hr, rfl⟩ := hr
      have hstep := hev r
      have : r = row₀ := EntryTable.eq_of_requestID hr hr₀
        (hstep.evolves.requestID.symm.trans hid.symm)
      subst this
      generalize f r = row at *
      cases hstep with
      | same => exact absurd hr hne
      | mark => cases ht
      | commit hq => exact ⟨hf, _, _, _, _, by rw [← hid, hq], rfl⟩
      | submitter =>
        rw [ho] at ht
        cases ht

/-- Who may make the call on the store of a batch at the step. -/
inductive Hub.Calls (h : Hub S) (e : Event S) (i : Fin S.batches) (env : Env) (c : Call) : Prop
  | other (hc : c.IsOther = true)
  | prepare {j : Fin S.jobs} (hw : e.who = .call j .job) (hj : S.batch j = i)
      (hc : (Duty.prepare (S.config j)).Allows S.lib c)
  | mark {j : Fin S.jobs} {msg : RequestItem} {t : Task (Except Err Bool)}
      (hw : e.who = .call j .pre) (hj : S.batch j = i) (hpc : (h.runs j).pre = .mark msg t)
      (hc : (Duty.mark (S.config j) msg.requestID).Allows S.lib c)
  /-- A statement under a cancelled context fails. -/
  | checkpoint {j : Fin S.jobs} {d : Delivery} {t : Task (Except Err Bool)}
      (hw : e.who = .call j .drain) (hj : S.batch j = i)
      (hpc : (h.runs j).drain = .checkpoint d t)
      (hc : (Duty.checkpoint (S.sink j) d.item).Allows S.lib c)
      (hg : ∀ s, c = .exec s → env.fault ≠ .before → (h.runs j).groupCause = none)

/-- At a step the store of a batch is left alone or answers one call. -/
theorem Setup.world_step (hs : S.step h e = some h') (hh : h.Sound) (i : Fin S.batches) :
    h'.worlds i = h.worlds i ∨ ∃ env c a, (h.worlds i).perform env c = some (h'.worlds i, a) ∧
      env.now = e.env.now ∧ h.Calls e i env c := by
  obtain ⟨j, g, s, r, -, -⟩ | ⟨j, slot, c, k, w, a, hw, hk, hp⟩ | ⟨j, cause, -⟩ |
    ⟨b, -, hb⟩ | ⟨i', c, w, a, -, hc, hp⟩ := S.step_cases hs
  · exact .inl rfl
  · dsimp only
    by_cases hi : i = S.batch j
    · subst hi
      rw [Function.update_self]
      refine .inr ⟨_, c, a, hp, by unfold Run.under; split <;> [(split <;> rfl); rfl], ?_⟩
      obtain ⟨-, -, hallows⟩ := (hh.run j).awaits (hh.counted _) hk hp
      rcases hallows with ⟨rfl, hc⟩ | ⟨msg, t, rfl, hpc, hc⟩ | ⟨d, t, rfl, hpc, hc⟩
      · exact .prepare hw rfl hc
      · exact .mark hw rfl hpc hc
      · refine .checkpoint hw rfl hpc hc ?_
        rintro s rfl hf
        cases hg : (h.runs j).groupCause with
        | none => rfl
        | some c => simp [Run.under, Run.Slot.ctx, Run.cause, hg] at hf
    · rw [Function.update_of_ne hi]
      exact .inl rfl
  · exact .inl rfl
  · obtain ⟨pc, rfl | ⟨d, j, js, r, -, -, -, rfl⟩⟩ := Hub.stepBroadcaster_cases hb <;> exact .inl rfl
  · dsimp only
    by_cases hi : i = i'
    · subst hi
      rw [Function.update_self]
      exact .inr ⟨_, c, a, hp, rfl, .other hc⟩
    · rw [Function.update_of_ne hi]
      exact .inl rfl

/-- A row comes from a row, or from a line of the manifest that is activated. -/
theorem Setup.row_step (hs : S.step h e = some h') (hh : h.Sound) {i : Fin S.batches}
    {row' : EntryRow} (hr : row' ∈ (h'.worlds i).batch.entries.rows) :
    (∃ row ∈ (h.worlds i).batch.entries.rows, row.Evolves row') ∨
    ∃ j m, S.batch j = i ∧ m ∈ (S.config j).manifest.entries ∧
      row' = activationRow e.env.now m.activationEntry := by
  rcases S.world_step hs hh i with hw | ⟨env, c, a, hp, hnow, hcalls⟩
  · rw [hw] at hr
    exact .inl ⟨row', hr, .refl _⟩
  · rcases World.batch_perform hp with hb | ⟨s, b, rfl, -, hexec, hw⟩
    · rw [hb] at hr
      exact .inl ⟨row', hr, .refl _⟩
    · rw [hw] at hr
      dsimp only at hr
      rcases Stmt.rows_exec hexec with ⟨act, rfl, -, hrows⟩ | ⟨f, hrows, hev⟩
      · rw [hrows] at hr
        obtain ⟨x, hx, rfl⟩ := List.mem_map.1 hr
        cases hcalls with
        | other hc => cases hc
        | @prepare j _ hj hc =>
          obtain ⟨act', hact, hentries, -⟩ := hc
          cases hact
          rw [hentries] at hx
          obtain ⟨m, hm, rfl⟩ := List.mem_map.1 hx
          exact .inr ⟨j, m, hj, hm, by rw [hnow]⟩
        | mark _ _ _ hc => cases hc
        | checkpoint _ _ _ hc =>
          obtain ⟨_, -, hchk⟩ := hc
          cases hchk
      · rw [hrows] at hr
        obtain ⟨row, hold, rfl⟩ := List.mem_map.1 hr
        exact .inl ⟨row, hold, (hev row).evolves⟩

/-- While the checkpointer works on a result the dispatch is stopped with the whole group only. -/
theorem Run.Control.dispatching {r : Run} {cfg : RunConfig} (hc : r.Control cfg) {d : Delivery}
    {t : Task (Except Err Bool)} (hpc : r.drain = .checkpoint d t) (hg : r.groupCause = none) :
    r.dispatchCause = none := by
  by_contra hne
  have := hc.drainFailed (Option.isSome_iff_ne_none.2 hne)
  simp [hg, hpc, DrainPC.failed] at this

/-- Entries are finished by the checkpointer of an execution whose context was not cancelled. -/
theorem Setup.commit_step (hs : S.step h e = some h') (hh : h.Sound) {i : Fin S.batches}
    {row row₀ : EntryRow} (hr : row ∈ (h'.worlds i).batch.entries.rows)
    (ht : row.status.isTerminal = true) (hr₀ : row₀ ∈ (h.worlds i).batch.entries.rows)
    (hid : row₀.requestID = row.requestID) (ho : row₀.status.isTerminal = false) :
    ∃ j d t key, e.who = .call j .drain ∧ S.batch j = i ∧ (h.runs j).drain = .checkpoint d t ∧
      (h.runs j).groupCause = none ∧ (S.sink j).IsKey d.item.requestID key ∧
      d.item.requestID = row.requestID ∧ row = row₀.commit e.env.now (S.lib.committed d.item key) := by
  rcases S.world_step hs hh i with hw | ⟨env, c, a, hp, hnow, hcalls⟩
  · rw [hw] at hr
    rw [EntryTable.eq_of_requestID hr hr₀ hid.symm, ho] at ht
    cases ht
  · obtain ⟨hf, id, p, n, result, rfl, hrow⟩ := World.commit_perform hp hr ht hr₀ hid ho
    cases hcalls with
    | other hc => cases hc
    | prepare _ _ hc =>
      obtain ⟨_, hact, -⟩ := hc
      cases hact
    | mark _ _ _ hc => cases hc
    | checkpoint hw hj hpc hc hg =>
      obtain ⟨key, hkey, hchk⟩ := hc
      simp only [Stmt.checkpoint.injEq] at hchk
      obtain ⟨-, hq, -, -, rfl⟩ := hchk
      exact ⟨_, _, _, key, hw, hj, hpc, hg _ rfl hf, hkey, hq.symm, by rw [hrow, hnow]⟩

end BatchGateway
