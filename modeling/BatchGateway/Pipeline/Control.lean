import BatchGateway.Pipeline.System

/-! How the goroutines of one execution depend on one another: which of them can still run, and
which contexts must have been cancelled. -/
namespace BatchGateway

open Interleaving

/-- Requests are answered with the cancellation, or dropped. -/
def PrePC.stopping : PrePC → Bool
  | .drain | .discard | .emit _ true => true
  | _ => false

def AimdPC.stopping : AimdPC → Bool
  | .unwind _ | .emit _ | .drain => true
  | _ => false

/-- The dispatcher collected its pending requests. -/
def AsyncPC.collected : AsyncPC → Bool
  | .rest _ | .close | .done => true
  | _ => false

/-- The checkpointer keeps an error. -/
def DrainPC.failed : DrainPC → Bool
  | .range err | .enrich _ err | .leave err => err.isSome
  | _ => false

/-- The checkpointer has seen the end of its channel. -/
def DrainPC.ended : DrainPC → Bool
  | .leave _ | .done => true
  | _ => false

/-- No goroutine was started yet. -/
def JobPC.dormant : JobPC → Bool
  | .idle | .prepare _ | .build => true
  | _ => false

namespace Run

variable {S : Setup} {cfg : RunConfig} {env : Surroundings} {r r' : Run}

/-- A step that leaves what is shared alone. -/
theorem of_unshared {J : Type} {o : Option Run} {s s' : Shared J}
    (h : o.map (s, ·) = some (s', r')) : o = some r' ∧ s = s' := by
  obtain ⟨u, hu, heq⟩ := Option.map_eq_some_iff.1 h
  cases heq
  exact ⟨hu, rfl⟩

/-! ### Channels and goroutines that ended -/

@[simp, grind =] theorem directDone_iff : r.directDone = true ↔ r.direct = .done := by
  unfold Run.directDone
  cases r.direct <;> simp

@[simp, grind =] theorem releaseDone_iff : r.releaseDone = true ↔ r.release = .done := by
  unfold releaseDone
  cases r.release <;> simp

@[simp, grind =] theorem submitsDone_iff :
    r.submitsDone = true ↔ ∀ pc ∈ r.submits, pc = SubmitPC.done := by
  unfold submitsDone
  rw [List.all_eq_true]
  refine forall_congr' fun pc => imp_congr_right fun _ => ?_
  cases pc <;> simp

@[simp, grind =] theorem innerDone_iff : r.innerDone cfg = true ↔
    (cfg.async = true ∧ r.async = .done) ∨ (cfg.async = false ∧ r.aimd = .done) := by
  unfold innerDone
  cases cfg.async <;> cases r.async <;> cases r.aimd <;> simp

@[simp, grind =] theorem forwardDone_iff : r.forwardDone = true ↔ r.forward = .done := by
  unfold forwardDone
  cases r.forward <;> simp

@[simp, grind =] theorem preDone_iff : r.preDone = true ↔ r.pre = .done := by
  unfold Run.preDone
  cases r.pre <;> simp

@[simp, grind =] theorem groupDone_iff :
    r.groupDone = true ↔ r.source = .done ∧ r.pre = .done ∧ r.drain = .done := by
  unfold groupDone
  cases r.source <;> cases r.pre <;> cases r.drain <;> simp

/-! ### Invariants -/

/-- What the execution starts from. -/
structure Dormant (r : Run) : Prop where
  source : r.source = .idle
  pre : r.pre = .idle
  forward : r.forward = .idle
  async : r.async = .idle
  aimd : r.aimd = .idle
  release : r.release = .idle
  direct : r.direct = .idle
  drain : r.drain = .idle
  submits : r.submits = []
  resultCh : r.resultCh = []
  pending : r.pending = []
  globalTokens : r.globalTokens = 0

/-- The invariants of the goroutines of one execution. -/
structure Control (cfg : RunConfig) (r : Run) : Prop where
  /-- Contexts are cancelled from the outside in. -/
  group : r.jobCause.isSome → r.groupCause.isSome
  dispatch : r.groupCause.isSome → r.dispatchCause.isSome
  /-- Only the checkpointer cancels the dispatch alone, and keeps its error. -/
  drainFailed : r.dispatchCause.isSome → r.groupCause.isSome ∨ r.drain.failed
  failure : r.groupCause.isSome → r.jobCause.isSome ∨ r.failure.isSome
  pre : r.pre.stopping → r.dispatchCause.isSome
  aimd : r.aimd.stopping → r.dispatchCause.isSome
  collect : r.async = .collect → r.pending = [] ∨ r.dispatchCause.isSome
  collected : r.async.collected → r.pending = []
  sync : cfg.async = false → r.async = .idle ∧ r.pending = []
  asynchronous : cfg.async = true → r.aimd = .idle ∧ r.release = .idle ∧ r.direct = .idle ∧
    r.submits = []
  dormant : r.job.dormant → r.Dormant
  preDone : r.pre = .done → r.innerDone cfg ∧ r.forward = .done
  aimdDone : r.aimd = .done → r.direct = .done ∧ r.release = .done
  directDone : r.direct = .done → r.submitsDone
  drainEnded : r.drain.ended → r.resultCh = [] ∧ r.pre = .done

theorem Control.initial : ({} : Run).Control cfg where
  group := nofun
  dispatch := nofun
  drainFailed := nofun
  failure := nofun
  pre := nofun
  aimd := nofun
  collect := nofun
  collected := nofun
  sync _ := ⟨rfl, rfl⟩
  asynchronous _ := ⟨rfl, rfl, rfl, rfl⟩
  dormant _ := by constructor <;> rfl
  preDone := nofun
  aimdDone := nofun
  directDone := nofun
  drainEnded := nofun

namespace Control

/-! ### One goroutine moves -/

section

variable (h : r.Control cfg)
include h

theorem cancel (cause : Cause) : (r.cancel cause .job).Control cfg where
  group _ := by simp [Run.cancel]
  dispatch _ := by simp [Run.cancel]
  drainFailed _ := .inl (by simp [Run.cancel])
  failure _ := .inl (by simp [Run.cancel])
  pre _ := by simp [Run.cancel]
  aimd _ := by simp [Run.cancel]
  collect _ := .inr (by simp [Run.cancel])
  collected := h.collected
  sync := h.sync
  asynchronous := h.asynchronous
  dormant hd := { h.dormant hd with }
  preDone := h.preDone
  aimdDone := h.aimdDone
  directDone := h.directDone
  drainEnded := h.drainEnded

theorem leave (err : Option Err) : (r.leave err).Control cfg := by
  cases err with
  | none => exact h
  | some e => exact { h with
      group := fun _ => by simp [Run.leave, Run.cancel]
      dispatch := fun _ => by simp [Run.leave, Run.cancel]
      drainFailed := fun _ => .inl (by simp [Run.leave, Run.cancel])
      failure := fun _ => .inr (by simp [Run.leave])
      pre := fun _ => by simp [Run.leave, Run.cancel]
      aimd := fun _ => by simp [Run.leave, Run.cancel]
      collect := fun _ => .inr (by simp [Run.leave, Run.cancel])
      dormant := fun hd => { h.dormant hd with } }

theorem setSource {old : SourcePC} (pc : SourcePC) (hpc : r.source = old) (hne : old ≠ .idle) :
    { r with source := pc }.Control cfg :=
  { h with dormant := fun hd => absurd (h.dormant hd).source (hpc ▸ hne) }

theorem setPre {old : PrePC} (pc : PrePC) (hpc : r.pre = old) (hne : old ≠ .idle)
    (hnd : old ≠ .done) (hpc' : pc ≠ .done)
    (hstop : pc.stopping = true → r.dispatchCause.isSome) : { r with pre := pc }.Control cfg :=
  { h with
    pre := hstop
    preDone := fun hd => absurd hd hpc'
    drainEnded := fun he => absurd (h.drainEnded he).2 (hpc ▸ hnd)
    dormant := fun hd => absurd (h.dormant hd).pre (hpc ▸ hne) }

theorem setForward {old : ForwardPC} (pc : ForwardPC) (hpc : r.forward = old) (hne : old ≠ .idle)
    (hnd : old ≠ .done) : { r with forward := pc }.Control cfg :=
  { h with
    preDone := fun hd => absurd (h.preDone hd).2 (hpc ▸ hnd)
    dormant := fun hd => absurd (h.dormant hd).forward (hpc ▸ hne) }

/-- The pre-dispatcher waits for the next dispatcher. -/
theorem pre_of_async {old : AsyncPC} (hpc : r.async = old) (hne : old ≠ .idle)
    (hnd : old ≠ .done) : r.pre ≠ .done := by
  subst hpc
  intro hd
  have hsync : ¬ cfg.async = false := fun hs => hne (h.sync hs).1
  have hi := (h.preDone hd).1
  simp [hnd, hsync] at hi

theorem pre_of_aimd {old : AimdPC} (hpc : r.aimd = old) (hne : old ≠ .idle) (hnd : old ≠ .done) :
    r.pre ≠ .done := by
  subst hpc
  intro hd
  have hasync : ¬ cfg.async = true := fun ha => hne (h.asynchronous ha).1
  have hi := (h.preDone hd).1
  simp [hnd, hasync] at hi

theorem setAsync {old : AsyncPC} (pc : AsyncPC) (hpc : r.async = old) (hne : old ≠ .idle)
    (hnd : old ≠ .done) (hcol : pc.collected = true → r.pending = [])
    (hc : pc = .collect → r.pending = [] ∨ r.dispatchCause.isSome) :
    { r with async := pc }.Control cfg :=
  { h with
    collect := hc
    collected := hcol
    sync := fun hs => absurd (h.sync hs).1 (hpc ▸ hne)
    preDone := fun hd => absurd hd (h.pre_of_async hpc hne hnd)
    dormant := fun hd => absurd (h.dormant hd).async (hpc ▸ hne) }

theorem setAimd {old : AimdPC} (pc : AimdPC) (n : Nat) (hpc : r.aimd = old) (hne : old ≠ .idle)
    (hnd : old ≠ .done) (hend : pc = .done → r.direct = .done ∧ r.release = .done)
    (hstop : pc.stopping = true → r.dispatchCause.isSome) :
    { r with aimd := pc, globalTokens := n }.Control cfg :=
  { h with
    aimd := hstop
    aimdDone := hend
    asynchronous := fun ha => absurd (h.asynchronous ha).1 (hpc ▸ hne)
    preDone := fun hd => absurd hd (h.pre_of_aimd hpc hne hnd)
    dormant := fun hd => absurd (h.dormant hd).aimd (hpc ▸ hne) }

theorem setRelease {old : ReleasePC} (pc : ReleasePC) (n : Nat) (hpc : r.release = old)
    (hne : old ≠ .idle) (hnd : old ≠ .done) :
    { r with release := pc, globalTokens := n }.Control cfg :=
  { h with
    aimdDone := fun hd => absurd (h.aimdDone hd).2 (hpc ▸ hnd)
    asynchronous := fun ha => absurd (h.asynchronous ha).2.1 (hpc ▸ hne)
    dormant := fun hd => absurd (h.dormant hd).release (hpc ▸ hne) }

theorem setDirect {old : DirectPC} (pc : DirectPC) (hpc : r.direct = old) (hne : old ≠ .idle)
    (hnd : old ≠ .done) (hend : pc = .done → r.submitsDone) :
    { r with direct := pc }.Control cfg :=
  { h with
    directDone := hend
    aimdDone := fun hd => absurd (h.aimdDone hd).1 (hpc ▸ hnd)
    asynchronous := fun ha => absurd (h.asynchronous ha).2.2.1 (hpc ▸ hne)
    dormant := fun hd => absurd (h.dormant hd).direct (hpc ▸ hne) }

theorem setSubmits (pcs : List SubmitPC) (hne : r.direct ≠ .idle) (hnd : r.direct ≠ .done) :
    { r with submits := pcs }.Control cfg :=
  { h with
    directDone := fun hd => absurd hd hnd
    asynchronous := fun ha => absurd (h.asynchronous ha).2.2.1 hne
    dormant := fun hd => absurd (h.dormant hd).direct hne }

theorem setDrain {old : DrainPC} (pc : DrainPC) (hpc : r.drain = old) (hne : old ≠ .idle)
    (hf : r.drain.failed = true → pc.failed = true)
    (he : pc.ended = true → r.resultCh = [] ∧ r.pre = .done) : { r with drain := pc }.Control cfg :=
  { h with
    drainFailed := fun hd => (h.drainFailed hd).imp_right hf
    drainEnded := he
    dormant := fun hd => absurd (h.dormant hd).drain (hpc ▸ hne) }

theorem setResultCh (ds : List Delivery) (hd : ¬ r.job.dormant = true) (hnd : r.pre ≠ .done) :
    { r with resultCh := ds }.Control cfg :=
  { h with
    drainEnded := fun he => absurd (h.drainEnded he).2 hnd
    dormant := fun hd' => absurd hd' hd }

theorem setJob (pc : JobPC) (hd : pc.dormant = true → r.job.dormant = true) :
    { r with job := pc }.Control cfg :=
  { h with dormant := fun hd' => { h.dormant (hd hd') with } }

end

/-! ### Sends -/

variable {msg : RequestItem}

theorem sendRequest (h : r.Control cfg) (hs : r.sendRequest msg = some r') :
    r'.Control cfg := by
  unfold Run.sendRequest at hs
  split at hs <;> cases hs
  next hpc => exact h.setPre _ hpc nofun nofun nofun nofun
  next hpc =>
    exact h.setPre _ hpc nofun nofun nofun fun _ => h.pre (by rw [hpc]; rfl)
  next => exact h

variable {d : Delivery}

theorem sendResult (h : r.Control cfg) (hd : ¬ r.job.dormant = true) (hnd : r.pre ≠ .done)
    (hs : r.sendResult d = some r') : r'.Control cfg := by
  unfold Run.sendResult at hs
  split at hs <;> cases hs
  exact h.setResultCh _ hd hnd

theorem sendPreResult (h : r.Control cfg) (hs : r.sendPreResult d = some r') :
    r'.Control cfg := by
  unfold Run.sendPreResult at hs
  split at hs <;> cases hs
  next hpc => exact h.setForward _ hpc nofun nofun

theorem sendAimdResult (h : r.Control cfg) (hs : r.sendAimdResult d = some r') :
    r'.Control cfg := by
  unfold Run.sendAimdResult at hs
  split at hs <;> cases hs
  next hpc => exact h.setRelease _ _ hpc nofun nofun

theorem sendPreRequest (h : r.Control cfg) (hs : r.sendPreRequest cfg msg = some r') :
    r'.Control cfg := by
  unfold Run.sendPreRequest at hs
  split at hs <;> cases hs
  next hpc => exact h.setAsync _ hpc nofun nofun nofun nofun
  next hpc => exact h.setAimd _ _ hpc nofun nofun nofun nofun
  next hpc =>
    exact h.setAimd _ _ hpc nofun nofun nofun fun _ => h.aimd (by rw [hpc]; rfl)

theorem sendAimdRequest (h : r.Control cfg) (hs : r.sendAimdRequest S cfg msg = some r') :
    r'.Control cfg := by
  unfold Run.sendAimdRequest at hs
  split at hs
  next hpc =>
    split at hs <;> cases hs
    · exact h.setSubmits _ (hpc ▸ nofun) (hpc ▸ nofun)
    · exact h.setDirect _ hpc nofun nofun nofun
  next => cases hs

/-! ### Steps -/

theorem stepSource (h : r.Control cfg) (hs : r.stepSource cfg = some r') : r'.Control cfg := by
  unfold Run.stepSource at hs
  split at hs
  next hpc =>
    cases hs
    exact h.setSource _ hpc nofun
  next hpc =>
    split at hs
    · cases hs
      exact h.setSource _ hpc nofun
    split at hs
    · cases hs
      exact h.setSource _ hpc nofun
    · exact (h.setSource _ hpc nofun).sendRequest hs
  next hpc =>
    cases hs
    exact h.setSource _ hpc nofun
  next hpc => exact (h.setSource _ hpc nofun).sendRequest hs
  next hpc =>
    cases hs
    exact h.setSource _ hpc nofun
  next hpc =>
    cases hs
    exact h.setSource _ hpc nofun
  next hpc =>
    cases hs
    exact (h.setSource _ hpc nofun).leave _
  next => cases hs
  next => cases hs

theorem preClosed {old : PrePC} (h : r.Control cfg) (hpc : r.pre = old) (hne : old ≠ .idle)
    (hnd : old ≠ .done)
    (hs : (if r.requestsClosed then some { r with pre := .wait } else none) = some r') :
    r'.Control cfg := by
  split at hs <;> cases hs
  exact h.setPre _ hpc hne hnd nofun nofun

theorem stepPre (h : r.Control cfg) (hs : r.stepPre cfg = some r') : r'.Control cfg := by
  unfold Run.stepPre at hs
  split at hs
  next hpc => exact h.preClosed hpc nofun nofun hs
  next hpc => exact h.preClosed hpc nofun nofun hs
  next hpc => exact h.preClosed hpc nofun nofun hs
  next hpc =>
    split at hs <;> cases hs
    next hc => exact h.setPre _ hpc nofun nofun nofun fun _ => by simp [hc]
    · exact h.setPre _ hpc nofun nofun nofun nofun
    · exact h.setPre _ hpc nofun nofun nofun nofun
  next hpc =>
    cases hs
    exact h.setPre _ hpc nofun nofun nofun nofun
  next hpc =>
    cases hs
    exact h.setPre _ hpc nofun nofun nofun nofun
  next hpc =>
    split at hs <;> cases hs <;> exact h.setPre _ hpc nofun nofun nofun nofun
  next => cases hs
  next hpc => exact (h.setPre .range hpc nofun nofun nofun nofun).sendPreRequest hs
  next d draining hpc =>
    have hd : ¬ r.job.dormant = true := fun hd => by simp [(h.dormant hd).pre] at hpc
    cases draining with
    | false =>
      exact (h.setPre .range hpc nofun nofun nofun nofun).sendResult hd nofun hs
    | true =>
      exact (h.setPre .drain hpc nofun nofun nofun
        fun _ => h.pre (by rw [hpc]; rfl)).sendResult hd nofun hs
  next hpc =>
    cases hs
    exact { h.cancel .neutral with
      pre := fun _ => by simp [Run.cancel]
      preDone := nofun
      drainEnded := fun he => by simp [(h.drainEnded he).2] at hpc
      dormant := fun hd => by simp [(h.dormant hd).pre] at hpc }
  next hpc =>
    split at hs <;> cases hs
    next hc => exact { h with
      pre := nofun
      preDone := fun _ => ⟨hc.1, forwardDone_iff.1 hc.2⟩
      drainEnded := fun he => ⟨(h.drainEnded he).1, rfl⟩
      dormant := fun hd => by simp [(h.dormant hd).pre] at hpc }
  next => cases hs
  next => cases hs

theorem stepForward (h : r.Control cfg) (hs : r.stepForward cfg = some r') : r'.Control cfg := by
  unfold Run.stepForward at hs
  split at hs
  next hpc =>
    split at hs <;> cases hs
    exact h.setForward _ hpc nofun nofun
  next d hpc =>
    refine (h.setForward .range hpc nofun nofun).sendResult ?_ ?_ hs
    · exact fun hd => by simp [(h.dormant hd).forward] at hpc
    · exact fun hd => by simp [(h.preDone hd).2] at hpc
  next => cases hs
  next => cases hs

variable {J : Type} {s s' : Shared J}

section

variable (h : r.Control cfg)
include h

theorem stepAsync [DecidableEq J] {j : J} (hs : r.stepAsync S cfg env j s = some (s', r')) :
    r'.Control cfg := by
  unfold Run.stepAsync at hs
  split at hs
  next hpc =>
    cases hs
    exact h.setAsync _ hpc nofun nofun nofun nofun
  next hpc =>
    split at hs <;> cases hs
    exact h.setAsync _ hpc nofun nofun nofun nofun
  next msg hpc =>
    split at hs <;> cases hs
    · exact { h with
        collect := nofun
        collected := nofun
        preDone := fun hd => absurd hd (h.pre_of_async hpc nofun nofun)
        sync := fun hs => by simp [(h.sync hs).1] at hpc
        dormant := fun hd => by simp [(h.dormant hd).async] at hpc }
    · exact h.setAsync _ hpc nofun nofun nofun nofun
  next hpc =>
    cases hs
    refine h.setAsync _ hpc nofun nofun ?_ ?_ <;> split <;> nofun
  next hpc =>
    obtain ⟨hu, rfl⟩ := of_unshared hs
    exact (h.setAsync .range hpc nofun nofun nofun nofun).sendPreResult hu
  next hpc =>
    split at hs <;> cases hs
    next hw => exact h.setAsync _ hpc nofun nofun nofun fun _ => hw
  next hpc =>
    cases hs
    exact { h with
      collect := nofun
      collected := fun _ => rfl
      preDone := fun hd => absurd hd (h.pre_of_async hpc nofun nofun)
      sync := fun hs => by simp [(h.sync hs).1] at hpc
      dormant := fun hd => by simp [(h.dormant hd).async] at hpc }
  next d ds hpc =>
    obtain ⟨hu, rfl⟩ := of_unshared hs
    exact (h.setAsync (.rest ds) hpc nofun nofun
      (fun _ => h.collected (by rw [hpc]; rfl)) nofun).sendPreResult hu
  next hpc =>
    cases hs
    exact h.setAsync _ hpc nofun nofun (fun _ => h.collected (by rw [hpc]; rfl))
      nofun
  next hpc =>
    cases hs
    exact h.setAsync _ hpc nofun nofun (fun _ => h.collected (by rw [hpc]; rfl))
      nofun
  next => cases hs
  next => cases hs

theorem aimdClosed {old : AimdPC} (hpc : r.aimd = old) (hne : old ≠ .idle) (hnd : old ≠ .done)
    (hs : (if r.preRequestsClosed then some (s, { r with aimd := .wait }) else none) =
      some (s', r')) : r'.Control cfg := by
  split at hs <;> cases hs
  exact h.setAimd _ _ hpc hne hnd nofun nofun

theorem stepAimd (hs : r.stepAimd S cfg env s = some (s', r')) :
    r'.Control cfg := by
  unfold Run.stepAimd at hs
  split at hs
  next hpc => exact h.aimdClosed hpc nofun nofun hs
  next hpc => exact h.aimdClosed hpc nofun nofun hs
  next hpc =>
    split at hs
    · cases hs
      exact h.setAimd _ _ hpc nofun nofun nofun nofun
    split at hs
    · cases hs
      exact h.setAimd _ _ hpc nofun nofun nofun nofun
    split at hs <;> cases hs
    next hc => exact h.setAimd _ _ hpc nofun nofun nofun fun _ => hc
  next hpc =>
    dsimp only at hs
    split at hs
    next hc =>
      cases hs
      exact h.setAimd _ _ hpc nofun nofun nofun fun _ => hc.1
    · split at hs <;> cases hs
      exact h.setAimd _ _ hpc nofun nofun nofun nofun
  next hpc =>
    cases hs
    exact h.setAimd _ _ hpc nofun nofun nofun fun _ => h.aimd (by rw [hpc]; rfl)
  next hpc =>
    obtain ⟨hu, rfl⟩ := of_unshared hs
    exact (h.setAimd .range _ hpc nofun nofun nofun nofun).sendAimdRequest hu
  next hpc =>
    obtain ⟨hu, rfl⟩ := of_unshared hs
    exact (h.setAimd .drain _ hpc nofun nofun nofun
      fun _ => h.aimd (by rw [hpc]; rfl)).sendPreResult hu
  next hpc =>
    split at hs <;> cases hs
    next hc =>
      exact h.setAimd _ _ hpc nofun nofun
        (fun _ => ⟨directDone_iff.1 hc.1, releaseDone_iff.1 hc.2⟩) nofun
  next => cases hs
  next => cases hs

theorem stepRelease (hs : r.stepRelease cfg s = some (s', r')) :
    r'.Control cfg := by
  unfold Run.stepRelease at hs
  split at hs
  next hpc =>
    split at hs <;> cases hs
    exact h.setRelease _ _ hpc nofun nofun
  next hpc =>
    cases hs
    exact h.setRelease _ _ hpc nofun nofun
  next hpc =>
    cases hs
    exact h.setRelease _ _ hpc nofun nofun
  next hpc =>
    obtain ⟨hu, rfl⟩ := of_unshared hs
    exact (h.setRelease .range _ hpc nofun nofun).sendPreResult hu
  next => cases hs
  next => cases hs

theorem stepDirect (hs : r.stepDirect = some r') : r'.Control cfg := by
  unfold Run.stepDirect at hs
  split at hs
  next hpc =>
    split at hs <;> cases hs
    exact h.setDirect _ hpc nofun nofun nofun
  next hpc => exact (h.setDirect .range hpc nofun nofun nofun).sendAimdResult hs
  next hpc =>
    split at hs <;> cases hs
    next hc => exact h.setDirect _ hpc nofun nofun fun _ => hc
  next => cases hs
  next => cases hs

/-- The direct dispatcher waits for the submissions that are under way. -/
theorem direct_of_submit {k : Nat} {pc : SubmitPC} (hk : r.submits[k]? = some pc) (hpc : pc ≠ .done)
    : r.direct ≠ .done :=
  fun hd => hpc (submitsDone_iff.1 (h.directDone hd) pc (List.mem_of_getElem? hk))

theorem stepSubmit {k : Nat} (hs : r.stepSubmit S env k = some r') :
    r'.Control cfg := by
  have hset : ∀ pc pc', r.submits[k]? = some pc → pc ≠ .done →
      { r with submits := r.submits.set k pc' }.Control cfg := fun pc pc' hk hpc =>
    { h with
      directDone := fun hd => absurd hd (h.direct_of_submit hk hpc)
      asynchronous := fun ha => by simp [(h.asynchronous ha).2.2.2] at hk
      dormant := fun hd => by simp [(h.dormant hd).submits] at hk }
  unfold Run.stepSubmit at hs
  split at hs
  next hk =>
    cases hs
    exact hset _ _ hk nofun
  next hk =>
    cases hs
    exact hset _ _ hk nofun
  next hk => exact (hset _ _ hk nofun).sendAimdResult hs
  next => cases hs
  next => cases hs

theorem stepDrain {sink : BatchResultStore} (hs : r.stepDrain S sink = some r') :
    r'.Control cfg := by
  unfold Run.stepDrain at hs
  split at hs
  next err hpc =>
    split at hs
    next hq =>
      cases hs
      exact { h with
        drainFailed := fun hd => (h.drainFailed hd).imp_right (by rw [hpc]; exact id)
        drainEnded := nofun
        dormant := fun hd => by simp [(h.dormant hd).drain] at hpc }
    next hq =>
      split at hs <;> cases hs
      next hc =>
        exact h.setDrain _ hpc nofun (by rw [hpc]; exact id) fun _ => ⟨hq, preDone_iff.1 hc⟩
  next d err hpc =>
    split at hs <;> cases hs
    · exact h.setDrain _ hpc nofun (by simp [hpc, DrainPC.failed]) nofun
    · exact h.setDrain _ hpc nofun (by rw [hpc]; exact id) nofun
  next hpc =>
    cases hs
    exact h.setDrain _ hpc nofun (by simp [hpc, DrainPC.failed]) nofun
  next hpc =>
    cases hs
    exact h.setDrain _ hpc nofun (by simp [hpc, DrainPC.failed]) nofun
  next => cases hs
  next d committed hpc =>
    cases hs
    have hnil : ∀ {p : PendingRequests}, p = [] → p.resolve d.item.requestID = [] := by
      rintro _ rfl
      rfl
    exact { h.setDrain (if committed then .record d else .ack d) hpc nofun
        (by simp [hpc, DrainPC.failed]) (by split <;> nofun) with
      collect := fun hc => (h.collect hc).imp_left hnil
      collected := fun hc => hnil (h.collected hc)
      sync := fun hs => ⟨(h.sync hs).1, hnil (h.sync hs).2⟩
      dormant := fun hd => by simp [(h.dormant hd).drain] at hpc }
  next d hpc =>
    cases hs
    exact { h.setDrain (.ack d) hpc nofun (by simp [hpc, DrainPC.failed]) nofun with
      dormant := fun hd => by simp [(h.dormant hd).drain] at hpc }
  next hpc =>
    cases hs
    exact h.setDrain _ hpc nofun (by simp [hpc, DrainPC.failed]) nofun
  next hpc =>
    cases hs
    exact { h with
      dispatch := fun _ => by simp [Run.cancel]
      drainFailed := fun _ => .inr rfl
      pre := fun _ => by simp [Run.cancel]
      aimd := fun _ => by simp [Run.cancel]
      collect := fun _ => .inr (by simp [Run.cancel])
      drainEnded := nofun
      dormant := fun hd => by
        have := (h.dormant hd).drain
        simp [hpc] at this }
  next err hpc =>
    cases hs
    have hend := h.drainEnded (by rw [hpc]; rfl)
    cases err with
    | none => exact h.setDrain _ hpc nofun (by simp [hpc, DrainPC.failed]) fun _ => hend
    | some e => exact { h.leave (some e) with
        drainFailed := fun _ => .inl (by simp [Run.leave, Run.cancel])
        drainEnded := fun _ => hend
        dormant := fun hd => by
          have := (h.dormant hd).drain
          simp [hpc] at this }
  next => cases hs
  next => cases hs

end

theorem launch (hd : r.Dormant) {pending : PendingRequests} (h : r.Control cfg)
    (hp : cfg.async = false → pending = []) : (r.launch cfg pending).Control cfg := by
  have hg : r.dispatchCause.isSome → r.groupCause.isSome := fun hc => by
    simpa [hd.drain, DrainPC.failed] using h.drainFailed hc
  cases ha : cfg.async with
  | false => exact { h with
      drainFailed := fun hc => .inl (hg hc)
      pre := nofun
      aimd := by simp [Run.launch, ha, AimdPC.stopping]
      collect := by simp [Run.launch, ha]
      collected := by simp [Run.launch, ha, AsyncPC.collected]
      sync := fun _ => ⟨by simp [Run.launch, ha], hp ha⟩
      asynchronous := by simp [ha]
      dormant := nofun
      preDone := nofun
      aimdDone := by simp [Run.launch, ha]
      directDone := by simp [Run.launch, ha]
      drainEnded := nofun }
  | true => exact { h with
      drainFailed := fun hc => .inl (hg hc)
      pre := nofun
      aimd := by simp [Run.launch, ha, AimdPC.stopping]
      collect := by simp [Run.launch, ha]
      collected := by simp [Run.launch, ha, AsyncPC.collected]
      sync := by simp [ha]
      asynchronous := fun _ => ⟨by simp [Run.launch, ha], by simp [Run.launch, ha],
        by simp [Run.launch, ha], hd.submits⟩
      dormant := nofun
      preDone := nofun
      aimdDone := by simp [Run.launch, ha]
      directDone := by simp [Run.launch, ha]
      drainEnded := nofun }

end Control

/-- Pre-stored requests are requests that are being recovered. -/
theorem mem_preStoreRecovering {todo : List (Except Err RequestItem)} {p pending : PendingRequests}
    (h : r.preStoreRecovering cfg todo p = .ok pending) {msg : RequestItem} (hm : msg ∈ pending) :
    msg ∈ p ∨ (.ok msg ∈ todo ∧ r.recovering cfg msg.requestID = true) := by
  induction todo generalizing p with
  | nil =>
    cases h
    exact .inl hm
  | cons x todo ih =>
    cases x with
    | error e => cases h
    | ok m =>
      rw [preStoreRecovering] at h
      rcases ih h with hp | ⟨ht, hr⟩
      · split at hp
        next hrec =>
          rcases List.mem_cons.1 hp with rfl | hp
          · exact .inr ⟨List.mem_cons_self, hrec⟩
          · exact .inl (List.mem_filter.1 hp).1
        next => exact .inl hp
      · exact .inr ⟨List.mem_cons_of_mem _ ht, hr⟩

theorem mem_preStored {pending : PendingRequests} (h : r.preStored cfg = .ok pending)
    {msg : RequestItem} (hm : msg ∈ pending) :
    .ok msg ∈ cfg.requests ∧ r.recovering cfg msg.requestID = true := by
  unfold preStored at h
  split at h
  · exact (mem_preStoreRecovering h hm).resolve_left nofun
  · cases h
    cases hm

/-- How the start of the execution can end. -/
theorem build_cases (S : Setup) (cfg : RunConfig) (env : Surroundings) (r : Run) :
    (∃ e, r.build S cfg env = { r with job := .check (some e) }) ∨
    ∃ pending, r.preStored cfg = .ok pending ∧ r.build S cfg env = r.launch cfg pending := by
  unfold build
  split
  · exact .inl ⟨_, rfl⟩
  · exact .inl ⟨_, rfl⟩
  next hp =>
    split
    · exact .inl ⟨_, rfl⟩
    · exact .inr ⟨_, hp, rfl⟩

namespace Control

theorem stepJob {task : Task (Except Err (Option ResumableResumeState))} (h : r.Control cfg)
    (hs : r.stepJob S cfg env task = some r') : r'.Control cfg := by
  unfold Run.stepJob at hs
  split at hs
  next hpc =>
    cases hs
    exact h.setJob _ fun _ => by rw [hpc]; rfl
  next hpc =>
    cases hs
    exact h.setJob _ nofun
  next hpc =>
    cases hs
    exact { h with dormant := fun _ => { h.dormant (by rw [hpc]; rfl) with } }
  next => cases hs
  next hpc =>
    cases hs
    have hd := h.dormant (by rw [hpc]; rfl)
    obtain ⟨e, he⟩ | ⟨pending, hp, he⟩ := build_cases S cfg env r
    · rw [he]
      exact h.setJob _ nofun
    · rw [he]
      refine launch hd h fun ha => List.eq_nil_iff_forall_not_mem.2 fun m hm => ?_
      simpa [recovering, ha] using (mem_preStored hp hm).2
  next hpc =>
    split at hs <;> cases hs
    exact h.setJob _ nofun
  next hpc =>
    cases hs
    exact h.setJob _ nofun
  next hpc =>
    split at hs <;> cases hs <;> exact h.setJob _ nofun
  next => cases hs
  next => cases hs

theorem stepRun {j : Fin S.jobs} {s s' : Shared (Fin S.jobs)} {g : Goroutine}
    (h : r.Control (S.config j)) (hs : S.stepRun env j s r g = some (s', r')) :
    r'.Control (S.config j) := by
  cases g with
  | async => exact h.stepAsync hs
  | aimd => exact h.stepAimd hs
  | release => exact h.stepRelease hs
  | job | source | pre | forward | direct | submit | drain =>
    obtain ⟨hu, rfl⟩ := of_unshared hs
    first
    | exact h.stepJob hu
    | exact h.stepSource hu
    | exact h.stepPre hu
    | exact h.stepForward hu
    | exact h.stepDirect hu
    | exact h.stepSubmit hu
    | exact h.stepDrain hu

end Control

/-- How a goroutine waits for the store. -/
inductive Awaits (r : Run) (c : Call) : Slot → (c.Resp → Run) → Prop
  | job (t : c.Resp → Task (Except Err (Option ResumableResumeState)))
    (hpc : r.job = .prepare (.call c t)) : Awaits r c .job fun a => { r with job := .prepare (t a) }
  | pre (msg : RequestItem) (t : c.Resp → Task (Except Err Bool))
    (hpc : r.pre = .mark msg (.call c t)) : Awaits r c .pre fun a => { r with pre := .mark msg (t a) }
  | drain (d : Delivery) (t : c.Resp → Task (Except Err Bool))
    (hpc : r.drain = .checkpoint d (.call c t)) :
    Awaits r c .drain fun a => { r with drain := .checkpoint d (t a) }

theorem awaits_cases {slot : Slot} {c : Call} {k : c.Resp → Run}
    (h : r.awaits slot = some ⟨c, k⟩) : r.Awaits c slot k := by
  cases slot with
  | job =>
    simp only [awaits] at h
    split at h <;> cases h
    next hpc => exact .job _ hpc
  | pre =>
    simp only [awaits] at h
    split at h <;> cases h
    next hpc => exact .pre _ _ hpc
  | drain =>
    simp only [awaits] at h
    split at h <;> cases h
    next hpc => exact .drain _ _ hpc

theorem Control.awaits {slot : Slot} {c : Call} {k : c.Resp → Run} (h : r.Control cfg)
    (hs : r.awaits slot = some ⟨c, k⟩) (a : c.Resp) : (k a).Control cfg := by
  obtain ⟨t, hpc⟩ | ⟨msg, t, hpc⟩ | ⟨d, t, hpc⟩ := awaits_cases hs
  · exact h.setJob _ fun _ => by rw [hpc]; rfl
  · exact h.setPre _ hpc nofun nofun nofun nofun
  · exact h.setDrain _ hpc nofun (by simp [hpc, DrainPC.failed]) nofun

end Run

/-! ### Steps of the system -/

variable {S : Setup} {h h' : Hub S} {e : Event S}

/-- How the system can take a step. -/
inductive Setup.Steps (S : Setup) (h : Hub S) (e : Event S) : Hub S → Prop
  | run (j : Fin S.jobs) (g : Goroutine) (s : Shared (Fin S.jobs)) (r : Run) (hw : e.who = .run j g)
    (hr : S.stepRun e.env j h.shared (h.runs j) g = some (s, r)) :
    Steps S h e { h with shared := s, runs := Function.update h.runs j r }
  | call (j : Fin S.jobs) (slot : Run.Slot) (c : Call) (k : c.Resp → Run) (w : World) (a : c.Resp)
    (hw : e.who = .call j slot) (hk : (h.runs j).awaits slot = some ⟨c, k⟩)
    (hp : (h.worlds (S.batch j)).perform ((h.runs j).under e.env slot.ctx c) c = some (w, a)) :
    Steps S h e { h with
      worlds := Function.update h.worlds (S.batch j) w
      runs := Function.update h.runs j (k a) }
  | abort (j : Fin S.jobs) (cause : Cause) (hw : e.who = .abort j cause) :
    Steps S h e { h with runs := Function.update h.runs j ((h.runs j).cancel cause .job) }
  | broadcaster {h' : Hub S} (b : Nat) (hw : e.who = .broadcaster b)
    (hb : h.stepBroadcaster e.env b = some h') : Steps S h e h'
  | other (i : Fin S.batches) (c : Call) (w : World) (a : c.Resp) (hw : e.who = .other i c)
    (hc : c.IsOther = true) (hp : (h.worlds i).perform e.env.toEnv c = some (w, a)) :
    Steps S h e { h with worlds := Function.update h.worlds i w }

theorem Setup.step_cases (hs : S.step h e = some h') : S.Steps h e h' := by
  unfold Setup.step at hs
  split at hs
  next j g hw =>
    obtain ⟨⟨s, r⟩, hr, rfl⟩ := Option.map_eq_some_iff.1 hs
    exact .run j g s r hw hr
  next j slot hw =>
    obtain ⟨⟨c, k⟩, hk, hs⟩ := Option.bind_eq_some_iff.1 hs
    obtain ⟨⟨w, a⟩, hp, rfl⟩ := Option.map_eq_some_iff.1 hs
    exact .call j slot c k w a hw hk hp
  next j cause hw =>
    cases hs
    exact .abort j cause hw
  next b hw => exact .broadcaster b hw hs
  next i c hw =>
    split at hs
    next hc =>
      obtain ⟨⟨w, a⟩, hp, rfl⟩ := Option.map_eq_some_iff.1 hs
      exact .other i c w a hw hc hp
    next => cases hs

/-- A broadcaster changes its own state and hands deliveries to executions. -/
theorem Hub.stepBroadcaster_cases {env : Surroundings} {b : Nat}
    (hs : h.stepBroadcaster env b = some h') :
    ∃ pc, (h' = h.setBroadcaster b pc ∨
      ∃ d j js r, h.broadcasters b = .send d (j :: js) ∧ pc = .send d js ∧
        (h.runs j).sendPreResult d = some r ∧ h' = (h.setRun j r).setBroadcaster b pc) := by
  unfold Hub.stepBroadcaster at hs
  split at hs
  · split at hs <;> cases hs
    exact ⟨_, .inl rfl⟩
  · cases hs
    exact ⟨_, .inl rfl⟩
  · cases hs
    exact ⟨_, .inl rfl⟩
  · cases hs
    exact ⟨_, .inl rfl⟩
  next d j js hpc =>
    split at hs
    · cases hs
      exact ⟨_, .inl rfl⟩
    · obtain ⟨r, hr, rfl⟩ := Option.map_eq_some_iff.1 hs
      exact ⟨_, .inr ⟨d, j, js, r, hpc, rfl, hr, rfl⟩⟩
  · cases hs
    exact ⟨_, .inl rfl⟩
  · split at hs <;> cases hs <;> exact ⟨_, .inl rfl⟩
  · cases hs
    exact ⟨_, .inl rfl⟩

/-- A property of single executions that every way of changing one keeps. -/
theorem Setup.step_runs {P : Fin S.jobs → Run → Prop} (hs : S.step h e = some h')
    (hrun : ∀ j g s r, e.who = .run j g →
      S.stepRun e.env j h.shared (h.runs j) g = some (s, r) → P j (h.runs j) → P j r)
    (hcall : ∀ j slot c k a, e.who = .call j slot → (h.runs j).awaits slot = some ⟨c, k⟩ →
      P j (h.runs j) → P j (k a))
    (hcancel : ∀ j cause, P j (h.runs j) → P j ((h.runs j).cancel cause .job))
    (hsend : ∀ j d r, (h.runs j).sendPreResult d = some r → P j (h.runs j) → P j r)
    (hp : ∀ j, P j (h.runs j)) : ∀ j, P j (h'.runs j) := by
  have hupdate : ∀ j r, P j r → ∀ i, P i (Function.update h.runs j r i) := by
    intro j r hr i
    by_cases hi : i = j
    · subst hi
      rwa [Function.update_self]
    · rw [Function.update_of_ne hi]
      exact hp i
  obtain ⟨j, g, s, r, hw, hr⟩ | ⟨j, slot, c, k, w, a, hw, hk, -⟩ | ⟨j, cause, -⟩ |
    ⟨b, -, hb⟩ | ⟨i, c, w, a, -, -, -⟩ := S.step_cases hs
  · exact hupdate j r (hrun j g s r hw hr (hp j))
  · exact hupdate j (k a) (hcall j slot c k a hw hk (hp j))
  · exact hupdate j _ (hcancel j cause (hp j))
  · obtain ⟨pc, rfl | ⟨d, j, js, r, -, -, hr, rfl⟩⟩ := Hub.stepBroadcaster_cases hb
    · exact hp
    · exact hupdate j r (hsend j d r hr (hp j))
  · exact hp

/-- Every execution keeps its invariants. -/
theorem Setup.control_step (hs : S.step h e = some h')
    (hc : ∀ j, (h.runs j).Control (S.config j)) : ∀ j, (h'.runs j).Control (S.config j) :=
  S.step_runs (P := fun j r => r.Control (S.config j)) hs (fun _ _ _ _ _ hr hc => hc.stepRun hr)
    (fun _ _ _ _ a _ hk hc => hc.awaits hk a) (fun _ cause hc => hc.cancel cause)
    (fun _ _ _ hr hc => hc.sendPreResult hr) hc

end BatchGateway
