import BatchGateway.Lib.RelyGuarantee
import BatchGateway.Apiserver.Cancel
import BatchGateway.Gc.Reconciler
import BatchGateway.Worker.JobRunner

/-! The whole gateway around one batch: processors, the API server and the reconciler. -/
namespace BatchGateway

open Interleaving

/-- The processor and the epoch of a piece of background work. -/
def Background.grant : Background → String × Int
  | renewal p item | requests p item => (p, item.epoch)

/-- Who works on the batch. A processor's thread starts with the job that its dequeue or its startup
claim returned. -/
inductive Actor where
  | poll (p : Processor) (task : BatchJobPriority)
  | recovery (p : Processor) (task : BatchJobPriority)
  | renewal (p : Processor) (item : BatchItem)
  | request (p : Processor) (item : BatchItem) (work : Work)
  | cancel (batchID : String)
  | reconcile (r : Reconciler)

namespace Actor

def code (lib : Stdlib) : Actor → Task (Except Err Unit)
  | poll p task => pollJob lib p task
  | recovery _ task => recoverOwnedJob task
  | renewal p item => renewBatchLease p.processorID p.leaseDuration item
  | request p item work => handleWork lib p.processorID item work
  | cancel batchID => cancelBatch batchID
  | reconcile r => r.run

/-- A claim records the ownership grant that it hands out; background work was announced by the job
it belongs to. -/
def start (env : Env) (w : World) : Actor → Option World
  | poll p task =>
    if p.processorID = "" then none
    else match pqDequeueStmt env.now p.processorID p.leaseDuration w.batch with
      | none => none
      | some b =>
        if task = pqDequeueTask p.processorID b.row then
          some { w with batch := b, grants := (p.processorID, task.epoch) :: w.grants }
        else none
  | recovery p task =>
    if p.processorID = "" then none
    else match pqClaimOwnedStmt p.processorID w.batch with
      | none => none
      | some b =>
        if task = pqClaimOwnedTask b.row then
          some { w with batch := b, grants := (p.processorID, task.epoch) :: w.grants }
        else none
  | renewal p item => if .renewal p.processorID item ∈ w.background then some w else none
  | request p item _ => if .requests p.processorID item ∈ w.background then some w else none
  | cancel _ | reconcile _ => some w

/-- The job of a thread that holds an ownership grant. -/
def claim : Actor → Option (Processor × BatchJobPriority)
  | poll p task | recovery p task => some (p, task)
  | _ => none

/-- The processor and the epoch that a processor's thread works under. -/
def grant : Actor → Option (String × Int)
  | poll p task | recovery p task => some (p.processorID, task.epoch)
  | renewal p item | request p item _ => some (p.processorID, item.epoch)
  | cancel _ | reconcile _ => none

theorem grant_of_claim {g : Actor} {p : Processor} {task : BatchJobPriority}
    (h : g.claim = some (p, task)) : g.grant = some (p.processorID, task.epoch) := by
  cases g <;> simp only [claim, Option.some.injEq, Prod.mk.injEq, reduceCtorEq] at h <;>
    obtain ⟨rfl, rfl⟩ := h <;> rfl

/-- What a successful claim does to the row. -/
structure Claimed (p : Processor) (task : BatchJobPriority) (w w' : World) : Prop where
  grants : w'.grants = (p.processorID, task.epoch) :: w.grants
  background : w'.background = w.background
  epoch : task.epoch = w.batch.row.epoch + 1
  epoch' : w'.batch.row.epoch = task.epoch
  owner : w'.batch.row.processorID = some p.processorID
  unfinished : w.batch.row.NonTerminal
  status : w'.batch.row.status = w.batch.row.status
  spec : w'.batch.row.specDecodes = w.batch.row.specDecodes
  resumable : w'.batch.row.resumable = w.batch.row.resumable
  flag : task.resumable = w.batch.row.resumable
  expected : task.resumable = false → ∀ status, task.expectedStatus = some status →
    status = .validating
  entries : w'.batch.entries = w.batch.entries
  objects : w'.objects = w.objects ∧ w'.publication = w.publication
  id : w'.batch.row.id = w.batch.row.id ∧ task.id = w.batch.row.id

/-- A thread starts with a claim, with work that was announced, or with nothing. -/
theorem start_cases {env : Env} {w w' : World} {g : Actor} (h : g.start env w = some w') :
    (∃ p task, g.claim = some (p, task) ∧ Claimed p task w w') ∨
    (g.claim = none ∧ w' = w ∧
      ∀ gr, g.grant = some gr → ∃ b ∈ w.background, Background.grant b = gr) := by
  cases g with
  | poll p task =>
    simp only [start] at h
    split_ifs at h
    split at h
    · cases h
    next b hb =>
      split_ifs at h with htask
      cases h
      obtain ⟨⟨-, hq⟩, rfl⟩ := of_guarded hb
      subst htask
      refine .inl ⟨p, _, rfl, rfl, rfl, rfl, rfl, rfl, ?_, rfl, rfl, rfl, rfl, ?_, rfl, ⟨rfl, rfl⟩, rfl,
        rfl⟩
      · rcases hq with ⟨-, hv⟩ | ⟨-, -, hn⟩
        · rw [BatchRow.NonTerminal, hv]
          rfl
        · exact hn
      · intro hr status hs
        cases hs
        rcases hq with ⟨-, hv⟩ | ⟨hr', -⟩
        · exact hv
        · exact absurd (hr'.symm.trans hr) (by decide)
  | recovery p task =>
    simp only [start] at h
    split_ifs at h
    split at h
    · cases h
    next b hb =>
      split_ifs at h with htask
      cases h
      obtain ⟨⟨hp, hn⟩, rfl⟩ := of_guarded hb
      subst htask
      refine .inl ⟨p, _, rfl, rfl, rfl, rfl, rfl, hp, hn, rfl, rfl, rfl, rfl, ?_, rfl, ⟨rfl, rfl⟩, rfl,
        rfl⟩
      intro _ _ hs
      cases hs
  | renewal p item =>
    obtain ⟨hb, rfl⟩ := of_guarded h
    exact .inr ⟨rfl, rfl, fun gr hgr => ⟨_, hb, Option.some.inj hgr⟩⟩
  | request p item work =>
    obtain ⟨hb, rfl⟩ := of_guarded h
    exact .inr ⟨rfl, rfl, fun gr hgr => ⟨_, hb, Option.some.inj hgr⟩⟩
  | cancel id =>
    cases h
    exact .inr ⟨rfl, rfl, fun _ hgr => by cases hgr⟩
  | reconcile r =>
    cases h
    exact .inr ⟨rfl, rfl, fun _ hgr => by cases hgr⟩

/-- A thread without a claim starts without a trace. -/
theorem start_unclaimed {env : Env} {w w' : World} {g : Actor} (h : g.start env w = some w')
    (hg : g.claim = none) : w' = w := by
  rcases start_cases h with ⟨_, _, hclaim, -⟩ | ⟨-, hw, -⟩
  · cases hg.symm.trans hclaim
  · exact hw

end Actor

/-- Any number of processors, cancel requests and reconciler cycles around one batch. -/
def gateway (lib : Stdlib) : System World Env Actor Call Call.Resp (Except Err Unit) where
  perform env w c := w.perform env c
  start := Actor.start
  code g := g.code lib

abbrev GatewayPool := Pool World Actor Call Call.Resp (Except Err Unit)

/-- Nothing has happened to the batch yet. -/
def initial (w : World) (row : BatchRow) : GatewayPool :=
  ⟨{ w with batch := ⟨row, .empty⟩, grants := [], background := [] }, []⟩

/-! ### A concrete batch -/

def sampleRow : BatchRow :=
  { id := "batch_1", status := { status := .validating }, priority := 1000 }

/-- A freshly stored batch in an empty store. -/
def sampleInitial : GatewayPool := initial { batch := ⟨sampleRow, .empty⟩ } sampleRow

/-- A processor that serves one model. -/
def sampleProcessor (id : String) : Processor := ⟨id, 60000000000, fun m => m = "m"⟩

/-- What the dequeue of the batch returns to a processor. -/
def sampleTask (processorID : String) (epoch : Int) : BatchJobPriority :=
  ⟨"batch_1", 1000, epoch, processorID, some .validating, 0, false⟩

/-- What the startup claim of the batch returns. -/
def sampleClaim (epoch : Int) : BatchJobPriority := ⟨"batch_1", 1000, epoch, "", none, 1, false⟩

/-- Steps of thread `i`. -/
def steps (i n : Nat) (env : Env := {}) : List (Label Env Actor) := List.replicate n (.run i env)

/-- `p` picks the batch up and ingests its only line. -/
def ingestionRun (model : String) : List (Label Env Actor) :=
  [.spawn {} (.poll (sampleProcessor "p") (sampleTask "p" 1))] ++ steps 0 3 ++
    [.run 0 { ingested := .ok [⟨"a", model⟩] }]

/-- `p` activates the batch, whose only request is for a served model. -/
def activationRun : List (Label Env Actor) := ingestionRun "m" ++ steps 0 1

/-- `p` crashes, and its startup recovery requeues the activated batch. -/
def startupRequeue : List (Label Env Actor) :=
  [.crash 0, .spawn {} (.recovery (sampleProcessor "p") ⟨"batch_1", 1000, 2, "", none, 1, true⟩)] ++
    steps 1 3

/-- What the next dequeue of the requeued batch returns. -/
def requeuedTask (status : BatchStatus) : BatchJobPriority :=
  ⟨"batch_1", 1000, 4, "p", some status, 0, true⟩

def requeuedPickup (status : BatchStatus) : Label Env Actor :=
  .spawn {} (.poll (sampleProcessor "p") (requeuedTask status))

end BatchGateway
