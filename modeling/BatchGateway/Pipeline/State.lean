import BatchGateway.Pipeline.Items
import BatchGateway.Worker.Recovery
import Mathlib.Data.Fintype.Basic

/-! The state of the executions of any number of jobs. An unbuffered channel has no state of its own:
a send is one step with the receive, and the channel is closed once its sender is past the close. -/
namespace BatchGateway

/-- One execution of a job. The input file decides the manifest, the counts and the requests; a
request that cannot be read back is an error. -/
structure RunConfig where
  batchID : String
  processorID : String
  jobProcessorID : String
  epoch : Int
  leaseTTL : Duration
  manifest : RequestManifest
  lineCount : Int
  rejectedCount : Int
  requests : List (Except Err RequestItem)
  /-- The task was requeued: its entries exist already. -/
  resumed : Bool := false
  /-- The pages that a listing of the entries can have before the context ends it. -/
  pages : Nat := 1
  /-- Requests go to asynchronous queues. -/
  async : Bool := false
  /-- The transport can recover results that another processor submitted. -/
  recovers : Bool := false
  /-- The result broadcasters that the job subscribes to. -/
  broadcasters : List Nat := []
  /-- A client is configured for the route. -/
  hasClient : String → Bool := fun _ => true
  /-- The endpoint whose semaphore guards the route. -/
  endpoint : String → Option Nat := fun _ => none

/-- The batches, the executions of their jobs, and the processors. -/
structure Setup where
  lib : Stdlib
  bodies : BodyCodec
  batches : Nat
  jobs : Nat
  config : Fin jobs → RunConfig
  batch : Fin jobs → Fin batches
  /-- `concurrency.global` of a processor. -/
  concurrency : String → Nat

/-! ### Goroutines -/

/-- `PlanFileSource.Produce` -/
inductive SourcePC where
  | idle
  | produce (todo : List (Except Err RequestItem)) (held : List RequestItem)
  | resubmit (held : List RequestItem)
  | close (err : Option Err)
  | leave (err : Option Err)
  | done

/-- `PreDispatcher.Run` -/
inductive PrePC where
  | idle
  | range
  | check (msg : RequestItem)
  /-- `beforeSubmit` is running. -/
  | mark (msg : RequestItem) (task : Task (Except Err Bool))
  | forward (msg : RequestItem)
  | emit (d : Delivery) (draining : Bool)
  /-- The fence reported a conflict. -/
  | lost
  /-- Drops the remaining requests. -/
  | discard
  /-- Answers the remaining requests with the code of the cancellation. -/
  | drain
  | wait
  | done

/-- The goroutine of `PreDispatcher.Run` that forwards results. -/
inductive ForwardPC where
  | idle
  | range
  | send (d : Delivery)
  | done

/-- `AsyncDispatcher.Run` -/
inductive AsyncPC where
  | idle
  | subscribe
  | range
  | receive (msg : RequestItem)
  | submit (msg : RequestItem)
  | emit (d : Delivery)
  | wait
  | collect
  | rest (ds : List Delivery)
  | close
  | done

/-- `AIMDDispatcher.Run` -/
inductive AimdPC where
  | idle
  | range
  | endpoint (msg : RequestItem)
  | global (msg : RequestItem)
  /-- Gives the endpoint's token back. -/
  | unwind (msg : RequestItem)
  | forward (msg : RequestItem)
  | emit (d : Delivery)
  | drain
  | wait
  | done

/-- The goroutine of `AIMDDispatcher.Run` that gives tokens back and forwards results. -/
inductive ReleasePC where
  | idle
  | range
  | endpoint (d : Delivery)
  | global (d : Delivery)
  | send (d : Delivery)
  | done

/-- `DirectDispatcher.Run` -/
inductive DirectPC where
  | idle
  | range
  | emit (d : Delivery)
  | wait
  | done

/-- `DirectDispatcher.submitRequest`, one for each request. -/
inductive SubmitPC where
  /-- The request is inside `InferenceClient.Generate`. -/
  | generate (msg : RequestItem)
  | built (d : Delivery)
  | send (d : Delivery)
  | done

/-- `ResultCheckpointer.Drain`, with its first error. -/
inductive DrainPC where
  | idle
  | range (err : Option Err)
  | enrich (d : Delivery) (err : Option Err)
  | checkpoint (d : Delivery) (task : Task (Except Err Bool))
  | resolve (d : Delivery) (committed : Bool)
  | record (d : Delivery)
  | ack (d : Delivery)
  | fail (err : Err)
  | leave (err : Option Err)
  | done

/-- `runJob` from the activation or resumption of the batch to its finalization. -/
inductive JobPC where
  | idle
  | prepare (task : Task (Except Err (Option ResumableResumeState)))
  | build
  /-- `JobExecutor.Execute` waits for its goroutines. -/
  | wait
  | classify (err : Option Err)
  | check (err : Option Err)
  /-- The next step is `finalizeResumableJob`. -/
  | proceed
  | done

/-- `ResultBroadcaster.Run` -/
inductive BroadcasterPC (J : Type) where
  | receive
  | route (d : Delivery) (subscribers targets : List J)
  | send (d : Delivery) (targets : List J)
  /-- The delivery belongs to no live job: `residueSafe` is asked. -/
  | residue (d : Delivery)
  | ack (d : Delivery)

/-! ### State -/

/-- The contexts of an execution, each derived from the one before. -/
inductive Ctx where
  | job | group | dispatch
  deriving DecidableEq, Repr

structure Run where
  jobCause : Option Cause := none
  groupCause : Option Cause := none
  dispatchCause : Option Cause := none
  /-- The first error that a goroutine of the error group returned. -/
  failure : Option Err := none
  seed : Option ResumableResumeState := none
  /-- The buffer of the checkpointer's channel. -/
  resultCh : List Delivery := []
  pending : PendingRequests := []
  /-- What the progress tracker counts. -/
  counts : BatchRequestCounts := {}
  /-- The tokens that were taken from the dispatcher's global semaphore. -/
  globalTokens : Nat := 0
  job : JobPC := .idle
  source : SourcePC := .idle
  pre : PrePC := .idle
  forward : ForwardPC := .idle
  async : AsyncPC := .idle
  aimd : AimdPC := .idle
  release : ReleasePC := .idle
  direct : DirectPC := .idle
  submits : List SubmitPC := []
  drain : DrainPC := .idle

namespace Run

variable (r : Run) (cfg : RunConfig)

def cause : Ctx → Option Cause
  | .job => r.jobCause
  | .group => r.groupCause
  | .dispatch => r.dispatchCause

/-- Cancel a context and those derived from it. The first cause stays. -/
def cancel (cause : Cause) : Ctx → Run
  | .job => { r with
      jobCause := r.jobCause.or (some cause)
      groupCause := r.groupCause.or (some cause)
      dispatchCause := r.dispatchCause.or (some cause) }
  | .group => { r with
      groupCause := r.groupCause.or (some cause)
      dispatchCause := r.dispatchCause.or (some cause) }
  | .dispatch => { r with dispatchCause := r.dispatchCause.or (some cause) }

/-- A goroutine of the error group returns. -/
def leave : Option Err → Run
  | none => r
  | some e => { r.cancel .neutral .group with failure := r.failure.or (some e) }

/-- The request is not dispatched again: its result is in the store. -/
def skip (requestID : String) : Bool := r.seed.any (requestID ∈ ·.terminalRequestIDs)

/-- The result of the request may still arrive from an earlier submission. -/
def recovering (requestID : String) : Bool :=
  cfg.async && cfg.recovers &&
    r.seed.any (·.inFlightSubmittedBy.any fun p => p.1 = requestID ∧ p.2 ≠ "")

/-! ### Closed channels -/

/-- The source closed the channel of requests. -/
def requestsClosed : Bool := match r.source with
  | .leave _ | .done => true
  | _ => false

/-- The pre-dispatcher closed the channel to the next dispatcher. -/
def preRequestsClosed : Bool := match r.pre with
  | .wait | .done => true
  | _ => false

def aimdRequestsClosed : Bool := match r.aimd with
  | .wait | .done => true
  | _ => false

def directDone : Bool := match r.direct with
  | .done => true
  | _ => false

def releaseDone : Bool := match r.release with
  | .done => true
  | _ => false

def submitsDone : Bool := r.submits.all fun
  | .done => true
  | _ => false

/-- The next dispatcher returned, with its result channel closed. -/
def innerDone : Bool := match cfg.async, r.async, r.aimd with
  | true, .done, _ | false, _, .done => true
  | _, _, _ => false

def forwardDone : Bool := match r.forward with
  | .done => true
  | _ => false

def preDone : Bool := match r.pre with
  | .done => true
  | _ => false

/-- Every goroutine of the error group returned. -/
def groupDone : Bool := match r.source, r.pre, r.drain with
  | .done, .done, .done => true
  | _, _, _ => false

end Run

/-- What executions share outside of the store. -/
structure Shared (J : Type) where
  /-- The tokens that were taken from the semaphore of each endpoint. -/
  endpoints : Nat → Nat := fun _ => 0
  /-- The jobs that are subscribed to their broadcasters. -/
  subscribed : List J := []
  /-- The requests that were handed to a queue. -/
  submitted : List String := []

structure Hub (S : Setup) where
  /-- The database and the file store, by batch. -/
  worlds : Fin S.batches → World
  runs : Fin S.jobs → Run := fun _ => {}
  shared : Shared (Fin S.jobs) := {}
  broadcasters : Nat → BroadcasterPC (Fin S.jobs) := fun _ => .receive

/-- Everything that the surroundings choose at one step of an execution. -/
structure Surroundings extends Env where
  response : Option GenerateResponse := none
  clientErr : Option ClientError := none
  submitErr : Option OutputError := none
  /-- What a broadcaster receives, and whether the delivery is leased. -/
  received : GenerateResponse := { requestID := "" }
  leased : Bool := true
  /-- The adaptive limit of the endpoint. -/
  limit : Nat := 1
  /-- A `select` with two ready cases takes the cancellation. -/
  cancelFirst : Bool := false

end BatchGateway
