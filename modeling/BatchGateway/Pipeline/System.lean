import BatchGateway.Pipeline.State
import BatchGateway.Checkpoint.System

/-! The steps of the goroutines that execute jobs, of the result broadcasters, and of everything
else that touches the batches. -/
namespace BatchGateway

open Interleaving

namespace Run

variable (S : Setup) (cfg : RunConfig) (env : Surroundings) (r : Run)

/-! ### Sends -/

/-- The source hands a request to the pre-dispatcher. -/
def sendRequest (msg : RequestItem) : Option Run :=
  match r.pre with
  | .range => some { r with pre := .check msg }
  | .drain => some { r with pre := .emit (msg.cancelled r.dispatchCause) true }
  | .discard => some r
  | _ => none

/-- The pre-dispatcher hands a request to the next dispatcher. -/
def sendPreRequest (msg : RequestItem) : Option Run :=
  match cfg.async, r.async, r.aimd with
  | true, .range, _ => some { r with async := .receive msg }
  | false, _, .range => some { r with aimd := .endpoint msg }
  | false, _, .drain => some { r with aimd := .emit (msg.cancelled r.dispatchCause) }
  | _, _, _ => none

/-- The direct dispatcher takes a request and spawns its submission. -/
def sendAimdRequest (msg : RequestItem) : Option Run :=
  match r.direct with
  | .range =>
    if cfg.hasClient msg.modelID then some { r with submits := r.submits ++ [.generate msg] }
    else some { r with direct := .emit (msg.modelNotFound S.lib) }
  | _ => none

def sendAimdResult (d : Delivery) : Option Run :=
  match r.release with
  | .range => some { r with release := .endpoint d }
  | _ => none

def sendPreResult (d : Delivery) : Option Run :=
  match r.forward with
  | .range => some { r with forward := .send d }
  | _ => none

/-- `defaultResultBuffer` -/
def resultBuffer : Nat := 64

def sendResult (d : Delivery) : Option Run :=
  if r.resultCh.length < resultBuffer then some { r with resultCh := r.resultCh ++ [d] } else none

/-! ### Source -/

/-- Requests that are being recovered are held back to the end. The recovery window may end at any
time. -/
def stepSource : Option Run :=
  match r.source with
  | .produce (.error e :: _) _ => some { r with source := .close (some e) }
  | .produce (.ok msg :: todo) held =>
    if r.skip msg.requestID then some { r with source := .produce todo held }
    else if r.recovering cfg msg.requestID then
      some { r with source := .produce todo (held ++ [msg]) }
    else { r with source := .produce todo held }.sendRequest msg
  | .produce [] held => some { r with source := .resubmit held }
  | .resubmit (msg :: held) => { r with source := .resubmit held }.sendRequest msg
  | .resubmit [] => some { r with source := .close none }
  | .close err => some { r with source := .leave err }
  | .leave err => some ({ r with source := .done }.leave err)
  | .idle | .done => none

/-! ### Pre-dispatcher -/

def stepPre : Option Run :=
  match r.pre with
  | .range | .drain | .discard => if r.requestsClosed then some { r with pre := .wait } else none
  | .check msg =>
    match r.dispatchCause, msg.parseError with
    | some cause, _ => some { r with pre := .emit (msg.cancelled (some cause)) true }
    | none, some e => some { r with pre := .emit (msg.error e) false }
    | none, none => some { r with
        pre := .mark msg (markEntryInFlight cfg.batchID msg.requestID cfg.processorID cfg.epoch) }
  | .mark msg (.ret (.ok true)) => some { r with pre := .forward msg }
  | .mark _ (.ret (.ok false)) => some { r with pre := .range }
  | .mark msg (.ret (.error e)) =>
    if e.isConflict then some { r with pre := .lost }
    else some { r with pre := .emit (msg.error ⟨"server_error", e.text⟩) false }
  | .mark _ (.call ..) => none
  | .forward msg => { r with pre := .range }.sendPreRequest cfg msg
  | .emit d draining => { r with pre := if draining then .drain else .range }.sendResult d
  | .lost => some ({ r with pre := .discard }.cancel .neutral .job)
  | .wait => if r.innerDone cfg ∧ r.forwardDone then some { r with pre := .done } else none
  | .idle | .done => none

def stepForward : Option Run :=
  match r.forward with
  | .range => if r.innerDone cfg then some { r with forward := .done } else none
  | .send d => { r with forward := .range }.sendResult d
  | .idle | .done => none

/-! ### Asynchronous dispatch -/

/-- A submission that failed may still have reached the queue. -/
def stepAsync {J : Type} [DecidableEq J] (j : J) (s : Shared J) : Option (Shared J × Run) :=
  match r.async with
  | .subscribe => some ({ s with subscribed := j :: s.subscribed }, { r with async := .range })
  | .range => if r.preRequestsClosed then some (s, { r with async := .wait }) else none
  | .receive msg =>
    if cfg.hasClient msg.modelID then
      some (s, { r with pending := r.pending.store msg, async := .submit msg })
    else some (s, { r with async := .emit (msg.modelNotFound S.lib) })
  | .submit msg => some ({ s with submitted := msg.requestID :: s.submitted },
      { r with async := match env.submitErr with
          | some e => .emit (msg.error e)
          | none => .range })
  | .emit d => ({ r with async := .range }.sendPreResult d).map (s, ·)
  | .wait =>
    if r.pending = [] ∨ r.dispatchCause.isSome then some (s, { r with async := .collect }) else none
  | .collect => some (s, { r with
      pending := [], async := .rest (r.pending.map (·.cancelled r.dispatchCause)) })
  | .rest (d :: ds) => ({ r with async := .rest ds }.sendPreResult d).map (s, ·)
  | .rest [] => some ({ s with subscribed := s.subscribed.filter (· ≠ j) },
      { r with async := .close })
  | .close => some (s, { r with async := .done })
  | .idle | .done => none

/-! ### Synchronous dispatch -/

/-- The token of an endpoint comes before the global one. -/
def stepAimd {J : Type} (s : Shared J) : Option (Shared J × Run) :=
  match r.aimd with
  | .range | .drain => if r.preRequestsClosed then some (s, { r with aimd := .wait }) else none
  | .endpoint msg =>
    match cfg.endpoint msg.modelID with
    | none => some (s, { r with aimd := .global msg })
    | some e =>
      if s.endpoints e < env.limit then
        some ({ s with endpoints := Function.update s.endpoints e (s.endpoints e + 1) },
          { r with aimd := .global msg })
      else if r.dispatchCause.isSome then
        some (s, { r with aimd := .emit (msg.cancelled r.dispatchCause) })
      else none
  | .global msg =>
    let full := S.concurrency cfg.processorID ≤ r.globalTokens
    if r.dispatchCause.isSome ∧ (full ∨ env.cancelFirst) then some (s, { r with aimd := .unwind msg })
    else if full then none
    else some (s, { r with globalTokens := r.globalTokens + 1, aimd := .forward msg })
  | .unwind msg =>
    let s := match cfg.endpoint msg.modelID with
      | none => s
      | some e => { s with endpoints := Function.update s.endpoints e (s.endpoints e - 1) }
    some (s, { r with aimd := .emit (msg.cancelled r.dispatchCause) })
  | .forward msg => ({ r with aimd := .range }.sendAimdRequest S cfg msg).map (s, ·)
  | .emit d => ({ r with aimd := .drain }.sendPreResult d).map (s, ·)
  | .wait => if r.directDone ∧ r.releaseDone then some (s, { r with aimd := .done }) else none
  | .idle | .done => none

def stepRelease {J : Type} (s : Shared J) : Option (Shared J × Run) :=
  match r.release with
  | .range => if r.directDone then some (s, { r with release := .done }) else none
  | .endpoint d =>
    let s := match cfg.endpoint d.modelID with
      | none => s
      | some e => { s with endpoints := Function.update s.endpoints e (s.endpoints e - 1) }
    some (s, { r with release := .global d })
  | .global d => some (s, { r with globalTokens := r.globalTokens - 1, release := .send d })
  | .send d => ({ r with release := .range }.sendPreResult d).map (s, ·)
  | .idle | .done => none

def stepDirect : Option Run :=
  match r.direct with
  | .range => if r.aimdRequestsClosed then some { r with direct := .wait } else none
  | .emit d => { r with direct := .range }.sendAimdResult d
  | .wait => if r.submitsDone then some { r with direct := .done } else none
  | .idle | .done => none

/-- A failure of the call itself under a cancelled context is told as the cancellation. -/
def overruled (d : Delivery) : Delivery :=
  if r.dispatchCause.isSome ∧ d.item.error.isSome ∧ d.item.response.isNone then
    { d with item := { d.item with error := some (cancelCode r.dispatchCause) }, synthetic := true }
  else d

def stepSubmit (k : Nat) : Option Run :=
  match r.submits[k]? with
  | some (.generate msg) => some { r with
      submits := r.submits.set k (.built (S.bodies.buildResult msg env.response env.clientErr)) }
  | some (.built d) => some { r with submits := r.submits.set k (.send (r.overruled d)) }
  | some (.send d) => { r with submits := r.submits.set k .done }.sendAimdResult d
  | some .done | none => none

/-! ### Checkpointer -/

def recorded (d : Delivery) : BatchRequestCounts :=
  if d.item.succeeded then { r.counts with completed := r.counts.completed + 1 }
  else { r.counts with failed := r.counts.failed + 1 }

def stepDrain (sink : BatchResultStore) : Option Run :=
  match r.drain with
  | .range err =>
    match r.resultCh with
    | d :: rest => some { r with resultCh := rest, drain := .enrich d err }
    | [] => if r.preDone then some { r with drain := .leave err } else none
  | .enrich d err =>
    match r.pending.enrich d, err with
    | some d, none => some { r with drain := .checkpoint d (sink.checkpointResult S.lib d.item) }
    | _, _ => some { r with drain := .range err }
  | .checkpoint d (.ret (.ok committed)) => some { r with drain := .resolve d committed }
  | .checkpoint _ (.ret (.error e)) => some { r with drain := .fail e }
  | .checkpoint _ (.call ..) => none
  | .resolve d committed => some { r with
      pending := r.pending.resolve d.item.requestID
      drain := if committed then .record d else .ack d }
  | .record d => some { r with counts := r.recorded d, drain := .ack d }
  | .ack _ => some { r with drain := .range none }
  | .fail e => some ({ r with drain := .range (some e) }.cancel .neutral .dispatch)
  | .leave err => some ({ r with drain := .done }.leave err)
  | .idle | .done => none

/-! ### Job -/

/-- The loop of `PreStoreRecovering` over all requests. -/
def preStoreRecovering : List (Except Err RequestItem) → PendingRequests →
    Except Err PendingRequests
  | [], pending => .ok pending
  | .error e :: _, _ => .error (e.wrap "pre-store recovering entries")
  | .ok msg :: todo, pending =>
    preStoreRecovering todo (if r.recovering cfg msg.requestID then pending.store msg else pending)

/-- The counts that the progress tracker starts from. -/
def seedCounts : BatchRequestCounts :=
  match r.seed with
  | some seed => { total := cfg.lineCount, completed := seed.completed, failed := seed.failed }
  | none => { total := cfg.lineCount, failed := cfg.rejectedCount }

/-- Start every goroutine of the execution. -/
def launch (pending : PendingRequests) : Run :=
  { r with
    pending := pending, counts := r.seedCounts cfg, job := .wait
    source := .produce cfg.requests [], drain := .range none
    pre := .range, forward := .range
    async := if cfg.async then .subscribe else .idle
    aimd := if cfg.async then .idle else .range
    release := if cfg.async then .idle else .range
    direct := if cfg.async then .idle else .range }

/-- Nothing is pre-stored unless some entry is being recovered. -/
def preStored : Except Err PendingRequests :=
  if r.seed.any (·.inFlightSubmittedBy.any fun p => r.recovering cfg p.1) then
    r.preStoreRecovering cfg cfg.requests []
  else .ok []

/-- Local files may be unreadable, and the dispatcher needs a positive limit. -/
def build : Run :=
  match env.cause, r.preStored cfg with
  | some e, _ => { r with job := .check (some e) }
  | none, .error e => { r with job := .check (some e) }
  | none, .ok pending =>
    if cfg.async = false ∧ S.concurrency cfg.processorID = 0 then
      { r with job := .check (some ⟨"build dispatcher: global concurrency semaphore: " ++
          "semaphore capacity must be positive", .plain⟩) }
    else r.launch cfg pending

/-- The error of a cause that routes the job. -/
def causeErr : Option Cause → Option Err
  | some .expired => some ⟨"batch SLO expired", .expired⟩
  | some .cancelled => some errCancelled
  | some .shutdown => some ⟨"processor shutting down", .shutdown⟩
  | some .neutral | none => none

def allSucceeded (counts : BatchRequestCounts) : Bool :=
  counts.failed = 0 ∧ counts.completed = counts.total

/-- The error that the execution ends with; `none` lets the job be finalized. -/
def classifyOutcome (cause : Option Cause) (counts : BatchRequestCounts) (err : Option Err) :
    Option Err :=
  match cause with
  | some .expired | some .cancelled => causeErr cause
  | some .shutdown => if allSucceeded counts then none else causeErr cause
  | some .neutral | none => err

/-- The ownership of the batch was lost: the job stops without a terminal write. -/
def ownershipLost (err : Option Err) : Bool :=
  r.jobCause = some .neutral || err.any Err.isConflict

def stepJob (prepare : Task (Except Err (Option ResumableResumeState))) : Option Run :=
  match r.job with
  | .idle => some { r with job := .prepare prepare }
  | .prepare (.ret (.error _)) => some { r with job := .done }
  | .prepare (.ret (.ok seed)) => some { r with seed := seed, job := .build }
  | .prepare (.call ..) => none
  | .build => some (r.build S cfg env)
  | .wait => if r.groupDone then some { r with job := .classify r.failure } else none
  | .classify err => some { r with job := .check (classifyOutcome r.jobCause r.counts err) }
  | .check err =>
    if r.ownershipLost err ∨ err.isSome then some { r with job := .done }
    else some { r with job := .proceed }
  | .proceed | .done => none

/-! ### Calls to the store -/

/-- The goroutines that wait for the store. -/
inductive Slot where
  | job | pre | drain
  deriving DecidableEq, Repr

/-- The context of a call. -/
def Slot.ctx : Slot → Ctx
  | job | pre => .job
  | drain => .group

/-- The call that a goroutine is about to make, and the execution after its answer. -/
def awaits : Slot → Option ((c : Call) × (c.Resp → Run))
  | .job => match r.job with
    | .prepare (.call c k) => some ⟨c, fun a => { r with job := .prepare (k a) }⟩
    | _ => none
  | .pre => match r.pre with
    | .mark msg (.call c k) => some ⟨c, fun a => { r with pre := .mark msg (k a) }⟩
    | _ => none
  | .drain => match r.drain with
    | .checkpoint d (.call c k) => some ⟨c, fun a => { r with drain := .checkpoint d (k a) }⟩
    | _ => none

/-- A statement under a cancelled context does not commit. -/
def under (ctx : Ctx) (c : Call) : Env :=
  match c with
  | .exec _ => if (r.cause ctx).isSome then { env.toEnv with fault := .before } else env.toEnv
  | _ => env.toEnv

end Run

/-- Take over the entries of a requeued batch, or activate a new one. -/
def RunConfig.prepare (cfg : RunConfig) (lib : Stdlib) (sink : BatchResultStore) :
    Task (Except Err (Option ResumableResumeState)) :=
  if cfg.resumed then do
    match ← resumeState cfg.batchID cfg.manifest cfg.pages with
    | .error e => return .error e
    | .ok seed => return .ok (some seed)
  else do
    match ← sink.activateResumable lib cfg.jobProcessorID cfg.leaseTTL cfg.manifest with
    | .error e => return .error e
    | .ok () => return .ok none

/-! ### The whole system -/

inductive Goroutine where
  | job | source | pre | forward | async | aimd | release | direct | submit (k : Nat) | drain
  deriving DecidableEq, Repr

/-- Calls that are not the entry writes of an execution. -/
def Call.IsOther : Call → Bool
  | .exec s => s.IsOther
  | .delete _ | .deleteDir _ => true
  | _ => false

/-- Who takes the next step. -/
inductive Participant (S : Setup) where
  | run (j : Fin S.jobs) (g : Goroutine)
  | call (j : Fin S.jobs) (slot : Run.Slot)
  /-- The context of a job is cancelled. -/
  | abort (j : Fin S.jobs) (cause : Cause)
  | broadcaster (b : Nat)
  | other (i : Fin S.batches) (c : Call)

structure Event (S : Setup) where
  who : Participant S
  env : Surroundings := {}

namespace Hub

variable {S : Setup} (h : Hub S) (env : Surroundings)

def setRun (j : Fin S.jobs) (r : Run) : Hub S := { h with runs := Function.update h.runs j r }

def setWorld (i : Fin S.batches) (w : World) : Hub S :=
  { h with worlds := Function.update h.worlds i w }

def setBroadcaster (b : Nat) (pc : BroadcasterPC (Fin S.jobs)) : Hub S :=
  { h with broadcasters := Function.update h.broadcasters b pc }

/-- `HasOpenEntryByRequest`: some batch still awaits the result of the request. -/
def hasOpenEntryByRequest (requestID : String) : Bool :=
  decide (∃ i, ∃ row ∈ (h.worlds i).batch.entries.rows, row.requestID = requestID ∧ row.IsOpen)

/-- A broadcaster routes what it receives to the jobs that await it. A queue delivers results of
submitted requests only, any number of times. -/
def stepBroadcaster (b : Nat) : Option (Hub S) :=
  match h.broadcasters b with
  | .receive =>
    if env.received.requestID ∈ h.shared.submitted then
      let d : Delivery := { item := S.bodies.asyncResult env.received
                            ack := if env.leased then some env.received.requestID else none }
      let subscribers := h.shared.subscribed.filter fun j => b ∈ (S.config j).broadcasters
      some (h.setBroadcaster b (.route d subscribers []))
    else none
  | .route d (j :: js) targets =>
    let targets := if (h.runs j).pending.has d.item.requestID then targets ++ [j] else targets
    some (h.setBroadcaster b (.route d js targets))
  | .route d [] [] => some (h.setBroadcaster b (if d.ack.isSome then .residue d else .receive))
  | .route d [] (j :: js) => some (h.setBroadcaster b (.send d (j :: js)))
  | .send d (j :: js) =>
    -- A send on a closed channel panics and is recovered.
    if (h.runs j).innerDone (S.config j) then some (h.setBroadcaster b (.send d js))
    else ((h.runs j).sendPreResult d).map fun r => (h.setRun j r).setBroadcaster b (.send d js)
  | .send _ [] => some (h.setBroadcaster b .receive)
  | .residue d =>
    if env.fault = .none ∧ h.hasOpenEntryByRequest d.item.requestID = false then
      some (h.setBroadcaster b (.ack d))
    else some (h.setBroadcaster b .receive)
  | .ack _ => some (h.setBroadcaster b .receive)

end Hub

namespace Setup

variable (S : Setup)

/-- The result store of an execution. -/
def sink (j : Fin S.jobs) : BatchResultStore :=
  ⟨(S.config j).batchID, (S.config j).processorID, (S.config j).epoch, j⟩

def stepRun (env : Surroundings) (j : Fin S.jobs) (s : Shared (Fin S.jobs)) (r : Run) :
    Goroutine → Option (Shared (Fin S.jobs) × Run)
  | .job => (r.stepJob S (S.config j) env ((S.config j).prepare S.lib (S.sink j))).map (s, ·)
  | .source => (r.stepSource (S.config j)).map (s, ·)
  | .pre => (r.stepPre (S.config j)).map (s, ·)
  | .forward => (r.stepForward (S.config j)).map (s, ·)
  | .async => r.stepAsync S (S.config j) env j s
  | .aimd => r.stepAimd S (S.config j) env s
  | .release => r.stepRelease (S.config j) s
  | .direct => r.stepDirect.map (s, ·)
  | .submit k => (r.stepSubmit S env k).map (s, ·)
  | .drain => (r.stepDrain S (S.sink j)).map (s, ·)

def step (h : Hub S) (e : Event S) : Option (Hub S) :=
  match e.who with
  | .run j g => (S.stepRun e.env j h.shared (h.runs j) g).map fun (s, r) =>
      { h with shared := s }.setRun j r
  | .call j slot =>
    ((h.runs j).awaits slot).bind fun ⟨c, k⟩ =>
      ((h.worlds (S.batch j)).perform ((h.runs j).under e.env slot.ctx c) c).map fun (w, a) =>
        (h.setWorld (S.batch j) w).setRun j (k a)
  | .abort j cause => some (h.setRun j ((h.runs j).cancel cause .job))
  | .broadcaster b => h.stepBroadcaster e.env b
  | .other i c =>
    if c.IsOther then ((h.worlds i).perform e.env.toEnv c).map fun (w, _) => h.setWorld i w else none

end Setup

/-! ### A concrete execution -/

/-- An execution with one line for the model `m`. -/
def RunConfig.sample (batchID requestID : String) : RunConfig where
  batchID := batchID
  processorID := "p"
  jobProcessorID := "p"
  epoch := 1
  leaseTTL := 60000000000
  manifest := ⟨[{ requestID := requestID, ordinal := 0, customID := "a" }]⟩
  lineCount := 1
  rejectedCount := 0
  requests := [.ok { requestID := requestID, customID := "a", modelID := "m" }]

/-- The execution with a queue instead of a client. -/
def RunConfig.overQueue (cfg : RunConfig) : RunConfig :=
  { cfg with async := true, broadcasters := [0] }

/-- Every execution has a batch of its own. -/
def Setup.sample (configs : List RunConfig) : Setup where
  lib := .sample
  bodies := ⟨fun _ => .ok "\x7b\x7d", fun _ _ => "\x7b\x7d"⟩
  batches := configs.length
  jobs := configs.length
  config := configs.get
  batch j := j
  concurrency _ := 1

namespace Event

variable {S : Setup}

def run (j : Fin S.jobs) (g : Goroutine) (env : Surroundings := {}) : Event S := ⟨.run j g, env⟩

def call (j : Fin S.jobs) (slot : Run.Slot) (env : Surroundings := {}) : Event S :=
  ⟨.call j slot, env⟩

/-- A processor dequeues the batch of a job, stores its rejected lines, activates it and starts the
execution. -/
def start (j : Fin S.jobs) (rejected : Nat := 0) : List (Event S) :=
  [⟨.other (S.batch j) (.exec (.pqDequeue "p" 0)), {}⟩, run j .job] ++
    List.replicate rejected (call j .job) ++ [call j .job, run j .job, run j .job]

/-- The first request of the execution passes the fence. -/
def fence (j : Fin S.jobs) (env : Surroundings := {}) : List (Event S) :=
  [run j .source, run j .pre, call j .pre env, run j .pre, run j .pre]

/-- A request gets both tokens and reaches the client. -/
def generate (j : Fin S.jobs) (rejected : Nat := 0) : List (Event S) :=
  start j rejected ++ fence j ++ [run j .aimd, run j .aimd, run j .aimd]

/-- The client answers and the result is committed. -/
def answer (j : Fin S.jobs) : List (Event S) :=
  [run j (.submit 0) { response := some ⟨"x", [1], 200, "", ""⟩ }, run j (.submit 0),
    run j (.submit 0), run j .release, run j .release, run j .release, run j .forward,
    run j .drain, run j .drain, call j .drain, call j .drain, call j .drain]

/-- The result of the last request is counted, and every goroutine before the checkpointer ends. -/
def finish (j : Fin S.jobs) : List (Event S) :=
  [run j .drain, run j .drain, run j .drain, run j .drain, run j .source, run j .source,
    run j .source, run j .source, run j .pre, run j .aimd, run j .direct, run j .direct,
    run j .release, run j .aimd, run j .forward, run j .pre, run j .drain]

/-- A request is handed to the queue. -/
def enqueue (j : Fin S.jobs) : List (Event S) :=
  start j ++ [run j .async] ++ fence j ++ [run j .async, run j .async]

/-- A broadcaster receives a response and deals with it. -/
def deliver (resp : GenerateResponse) : List (Event S) :=
  List.replicate 5 ⟨.broadcaster 0, { received := resp }⟩

/-- The result is committed and acknowledged. -/
def settle (j : Fin S.jobs) : List (Event S) :=
  [run j .forward, run j .drain, run j .drain, call j .drain, call j .drain, call j .drain,
    run j .drain, run j .drain, run j .drain, run j .drain]

end Event

/-- New batches. -/
def Hub.sample (configs : List RunConfig) : Hub (.sample configs) where
  worlds i := { batch := ⟨{ id := (configs.get i).batchID, status := { status := .validating }
                            priority := 1000 }, .empty⟩ }

end BatchGateway
