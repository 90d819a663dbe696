import BatchGateway.Lib.RelyGuarantee
import BatchGateway.Worker.ResultStore

/-! Everything that any number of owners, current or stale, does to the entries of one batch. -/
namespace BatchGateway

open Interleaving

/-- A call on the entries of the batch, or a statement that leaves them to others. -/
inductive StoreOp where
  | checkpoint (s : BatchResultStore) (msg : ResultItem)
  | mark (batchID requestID processorID : String) (epoch : Int)
  | activate (s : BatchResultStore) (jobProcessorID : String) (leaseTTL : Duration)
      (registered : String → Bool) (lines : List RequestMeta)
  | stmt (s : Stmt)

/-- The statements that no other operation issues. -/
def Stmt.IsOther : Stmt → Bool
  | mark .. | checkpoint .. | activate .. => false
  | _ => true

namespace StoreOp

/-- The result store that an operation uses. -/
def sink : StoreOp → Option BatchResultStore
  | checkpoint s _ | activate s .. => some s
  | mark .. | stmt _ => none

def code (lib : Stdlib) : StoreOp → Task (Except Err Bool)
  | checkpoint s msg => s.checkpointResult lib msg
  | mark batchID requestID processorID epoch =>
    markEntryInFlight batchID requestID processorID epoch
  | activate s jobProcessorID leaseTTL registered lines =>
    match lib.ingest s.batchID registered lines with
    | .error e => return .error e
    | .ok manifest => do
      match ← s.activateResumable lib jobProcessorID leaseTTL manifest with
      | .error e => return .error e
      | .ok () => return .ok false
  | stmt s => do
    match ← call (.exec s) with
    | .error e => return .error e
    | .ok _ => return .ok false

/-- Every user of the batch's result store gets a mark of its own. -/
def start (w : World) (op : StoreOp) : Option World :=
  match op with
  | stmt s => if s.IsOther then some w else none
  | mark .. => some w
  | checkpoint s _ | activate s .. =>
    if s.batchID = w.batch.row.id ∧ s.caller = w.callers then
      some { w with callers := w.callers + 1 } else none

end StoreOp

/-- Any number of operations of any owners on one batch. -/
def storeSystem (lib : Stdlib) :
    System World Env StoreOp Call Call.Resp (Except Err Bool) where
  perform env w c := w.perform env c
  start _ w op := op.start w
  code op := op.code lib

abbrev StorePool := Pool World StoreOp Call Call.Resp (Except Err Bool)

/-- What the start of an operation does and checks. -/
structure StoreOp.Started (op : StoreOp) (w w' : World) : Prop where
  batch : w'.batch = w.batch
  objects : w'.objects = w.objects
  owner : w'.owner = w.owner
  callers : w.callers ≤ w'.callers
  sink : ∀ s, op.sink = some s →
    s.caller = w.callers ∧ s.caller < w'.callers ∧ s.batchID = w.batch.row.id
  other : ∀ st, op = .stmt st → st.IsOther = true

theorem StoreOp.started {w w' : World} {op : StoreOp} (h : op.start w = some w') :
    op.Started w w' := by
  cases op with
  | mark =>
    cases h
    refine ⟨rfl, rfl, rfl, Nat.le_refl _, fun _ hs => ?_, fun _ hs => ?_⟩ <;> cases hs
  | stmt st =>
    obtain ⟨hst, rfl⟩ := of_guarded h
    refine ⟨rfl, rfl, rfl, Nat.le_refl _, fun _ hs => ?_, fun _ hs => ?_⟩ <;> cases hs
    exact hst
  | _ =>
    obtain ⟨⟨hid, hcaller⟩, rfl⟩ := of_guarded h
    refine ⟨rfl, rfl, rfl, Nat.le_succ _, fun s hs => ?_, fun _ hs => ?_⟩ <;> cases hs
    exact ⟨hcaller, by simp [hcaller], hid⟩

/-! ### A concrete run -/

def sampleResult (succeeded : Bool) : ResultItem :=
  if succeeded then ⟨Stdlib.sampleRequest, "a", some ⟨200, "", "\x7b\x7d"⟩, none⟩
  else ⟨Stdlib.sampleRequest, "a", none, some ⟨"server_error", "boom"⟩⟩

def sampleWorld : World :=
  { batch := ⟨{ id := "batch_1", status := { status := .validating }, priority := 1000 }, .empty⟩ }

/-- A processor dequeues the batch, activates its one line, marks it and starts to checkpoint the
result. -/
def sampleStart : List (Label Env StoreOp) :=
  [.spawn {} (.stmt (.pqDequeue "p" 0)), .run 0 {},
   .spawn {} (.activate ⟨"batch_1", "p", 1, 0⟩ "p" 60000000000 (fun _ => true) [⟨"a", "m"⟩]),
   .run 1 {},
   .spawn {} (.mark "batch_1" Stdlib.sampleRequest "p" 1), .run 2 {},
   .spawn {} (.checkpoint ⟨"batch_1", "p", 1, 1⟩ (sampleResult true)), .run 3 {}, .run 3 {}]

/-- The checkpoint commits the entry. -/
def sampleCommit : List (Label Env StoreOp) := sampleStart ++ [.run 3 {}]

end BatchGateway
