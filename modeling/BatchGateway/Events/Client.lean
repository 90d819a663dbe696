import BatchGateway.Lib.Pool
import BatchGateway.Lib.Run

/-! The event client of a processor. Rows of the event table are delivered to the subscriber of their
job through a bounded channel. A delivery selects rows, puts them on the channel and acknowledges
them, which are separate sections under the lock of the client and the lock of the subscriber. -/
namespace BatchGateway

open Interleaving

def eventChanBufSize : Nat := 100

inductive BatchEventType where
  | cancel | pause | resume
  deriving DecidableEq, Repr

structure BatchEvent where
  jobID : String
  eventType : BatchEventType
  deriving DecidableEq, Repr

/-- A row of `batch_events`. -/
structure EventRow where
  id : Nat
  jobID : String
  eventType : BatchEventType
  expiresAt : Int
  deriving DecidableEq, Repr

structure PendingBatchEvent where
  id : Nat
  eventType : BatchEventType
  deriving DecidableEq, Repr

def EventRow.pending (r : EventRow) : PendingBatchEvent := ⟨r.id, r.eventType⟩

structure EventSub where
  jobID : String
  /-- The call of `deliverJobEvents` with which the subscription starts. -/
  opening : Nat
  ch : List BatchEvent := []
  closed : Bool := false
  /-- The call that holds the delivery lock. -/
  deliveryMu : Option Nat := none
  deriving DecidableEq, Repr

/-- Where a call of `deliverJobEvents` is. -/
inductive DeliveryPhase where
  | looking
  | locking (sub : Nat)
  | checking (sub : Nat)
  | draining (sub capacity : Nat)
  | entering (sub : Nat) (events : List PendingBatchEvent)
  /-- In the delivery loop, with the lock of the client. -/
  | delivering (sub : Nat) (events : List PendingBatchEvent) (accepted : List Nat)
  | acking (sub : Nat) (accepted : List Nat)
  | unlocking (sub : Nat)
  | returned
  deriving DecidableEq, Repr

structure DeliveryCall where
  jobID : String
  phase : DeliveryPhase := .looking
  deriving DecidableEq, Repr

inductive ClosePhase where
  | removing | closing | returned
  deriving DecidableEq, Repr

/-- A call of `CloseFn`. -/
structure CloseCall where
  sub : Nat
  phase : ClosePhase := .removing
  deriving DecidableEq, Repr

/-- The jobs that the dispatcher has yet to deliver to, and the call it waits for. -/
structure EventDispatcher where
  todo : List String := []
  running : Option Nat := none
  deriving DecidableEq, Repr

/-- A put on a channel, with the subscriber of the job at that moment. -/
structure EventPut where
  jobID : String
  event : PendingBatchEvent
  sub : Nat
  current : Option Nat
  deriving DecidableEq, Repr

structure EventClient where
  now : Int := 0
  /-- The event table, in the order of the ids. -/
  rows : List EventRow := []
  eventSubs : List (String × Nat) := []
  subs : List EventSub := []
  calls : List DeliveryCall := []
  closes : List CloseCall := []
  dispatcher : EventDispatcher := {}
  /-- The call that holds the lock of the client in its delivery loop. -/
  eventsMu : Option Nat := none
  /-- All rows that were ever inserted, and those that an acknowledgement deleted. -/
  inserted : List EventRow := []
  acked : List EventRow := []
  puts : List EventPut := []
  /-- A send on a closed channel. -/
  panicked : Bool := false
  deriving DecidableEq, Repr

inductive ClientEvent where
  /-- A producer inserts a row. -/
  | send (row : EventRow)
  | tick (seconds : Nat)
  | purgeExpired
  | subscribe (jobID : String)
  /-- A consumer takes an event from its channel. -/
  | receive (sub : Nat)
  | callClose (sub : Nat)
  | close (q : Nat)
  /-- The dispatcher wakes up for one job. -/
  | wake (jobID : String)
  /-- The dispatcher wakes up for all the subscribed jobs, which it takes in some order. -/
  | rescan (jobIDs : List String)
  | dispatch
  /-- A step of a delivery; `fails` tells whether its statement fails, and `applied` whether a
  failing statement has its effect nevertheless. -/
  | deliver (i : Nat) (fails applied : Bool)
  deriving DecidableEq, Repr

namespace EventClient

variable (s : EventClient)

/-- The subscriber of a job. -/
def current (jobID : String) : Option Nat := (s.eventSubs.find? (·.1 = jobID)).map Prod.snd

def setCurrent (jobID : String) (sub : Nat) : List (String × Nat) :=
  (jobID, sub) :: s.eventSubs.filter (·.1 ≠ jobID)

def setPhase (i : Nat) (call : DeliveryCall) (phase : DeliveryPhase) : EventClient :=
  { s with calls := s.calls.set i { call with phase } }

def setSub (k : Nat) (sub : EventSub) : EventClient := { s with subs := s.subs.set k sub }

/-- The first rows of a job that did not expire. -/
def drainJobEvents (jobID : String) (limit : Nat) : List PendingBatchEvent :=
  ((s.rows.filter fun r => r.jobID = jobID ∧ s.now < r.expiresAt).map EventRow.pending).take limit

/-- Delete the rows of a job with the ids. -/
def ackEvents (jobID : String) (ids : List Nat) : EventClient :=
  { s with
    rows := s.rows.filter fun r => ¬ (r.jobID = jobID ∧ r.id ∈ ids)
    acked := s.acked ++ s.rows.filter fun r => r.jobID = jobID ∧ r.id ∈ ids }

/-- Put an event on the channel of a subscriber. -/
def send (jobID : String) (k : Nat) (sub : EventSub) (e : PendingBatchEvent) : EventClient :=
  { s.setSub k { sub with ch := sub.ch ++ [⟨jobID, e.eventType⟩] } with
    puts := s.puts ++ [⟨jobID, e, k, s.current jobID⟩] }

/-- After the delivery loop: acknowledge what was accepted. -/
def leaveLoop (i : Nat) (call : DeliveryCall) (k : Nat) (accepted : List Nat) : EventClient :=
  { s.setPhase i call (if accepted = [] then .unlocking k else .acking k accepted) with
    eventsMu := none }

def stepDelivery (i : Nat) (fails applied : Bool) (call : DeliveryCall) : Option EventClient :=
  match call.phase with
  | .looking =>
    if s.eventsMu ≠ none then none
    else match s.current call.jobID with
      | none => some (s.setPhase i call .returned)
      | some k => some (s.setPhase i call (.locking k))
  | .locking k => s.subs[k]?.bind fun sub =>
    if sub.deliveryMu ≠ none then none
    else some ((s.setSub k { sub with deliveryMu := some i }).setPhase i call (.checking k))
  | .checking k => s.subs[k]?.bind fun sub =>
    if s.eventsMu ≠ none then none
    else if s.current call.jobID ≠ some k then some (s.setPhase i call (.unlocking k))
    else if eventChanBufSize - sub.ch.length = 0 then some (s.setPhase i call (.unlocking k))
    else some (s.setPhase i call (.draining k (eventChanBufSize - sub.ch.length)))
  | .draining k capacity =>
    if fails then some (s.setPhase i call (.unlocking k))
    else match s.drainJobEvents call.jobID capacity with
      | [] => some (s.setPhase i call (.unlocking k))
      | e :: events => some (s.setPhase i call (.entering k (e :: events)))
  | .entering k events =>
    if s.eventsMu ≠ none then none
    else if s.current call.jobID ≠ some k then some (s.setPhase i call (.unlocking k))
    else some { s.setPhase i call (.delivering k events []) with eventsMu := some i }
  | .delivering k [] accepted => some (s.leaveLoop i call k accepted)
  | .delivering k (e :: events) accepted => s.subs[k]?.bind fun sub =>
    if sub.closed then some { s with panicked := true }
    else if sub.ch.length < eventChanBufSize then
      some ((s.send call.jobID k sub e).setPhase i call (.delivering k events (accepted ++ [e.id])))
    else some (s.leaveLoop i call k accepted)
  | .acking k accepted =>
    if fails ∧ applied = false then some (s.setPhase i call (.unlocking k))
    else some ((s.ackEvents call.jobID accepted).setPhase i call (.unlocking k))
  | .unlocking k => s.subs[k]?.bind fun sub =>
    some ((s.setSub k { sub with deliveryMu := none }).setPhase i call .returned)
  | .returned => none

def stepClose (q : Nat) (call : CloseCall) : Option EventClient :=
  match call.phase with
  | .removing => s.subs[call.sub]?.bind fun sub =>
    if s.eventsMu ≠ none then none
    else some { s with
      eventSubs := if s.current sub.jobID = some call.sub
        then s.eventSubs.filter (·.1 ≠ sub.jobID) else s.eventSubs
      closes := s.closes.set q { call with phase := .closing } }
  | .closing => s.subs[call.sub]?.bind fun sub =>
    some { s.setSub call.sub { sub with closed := true } with
      closes := s.closes.set q { call with phase := .returned } }
  | .returned => none

/-- A new call of `deliverJobEvents`. -/
def spawn (jobID : String) : EventClient := { s with calls := s.calls ++ [{ jobID := jobID }] }

def callReturned (i : Nat) : Bool := (s.calls[i]?.map (·.phase)) = some .returned

def step : ClientEvent → Option EventClient
  | .send row =>
    if s.inserted.all (·.id < row.id) then
      some { s with rows := s.rows ++ [row], inserted := s.inserted ++ [row] }
    else none
  | .tick seconds => some { s with now := s.now + seconds }
  | .purgeExpired => some { s with rows := s.rows.filter fun r => ¬ r.expiresAt < s.now }
  | .subscribe jobID =>
    if s.eventsMu ≠ none ∨ jobID = "" then none
    else some { s.spawn jobID with
      subs := s.subs ++ [{ jobID, opening := s.calls.length }]
      eventSubs := s.setCurrent jobID s.subs.length }
  | .receive k => s.subs[k]?.bind fun sub =>
    if sub.ch = [] then none else some (s.setSub k { sub with ch := sub.ch.tail })
  | .callClose k => s.subs[k]?.bind fun sub =>
    if s.callReturned sub.opening then some { s with closes := s.closes ++ [{ sub := k }] } else none
  | .close q => s.closes[q]?.bind (s.stepClose q)
  | .wake jobID =>
    if s.dispatcher = {} ∧ jobID ≠ "" then some { s with dispatcher := { todo := [jobID] } }
    else none
  | .rescan jobIDs =>
    if s.dispatcher = {} ∧ s.eventsMu = none ∧ jobIDs.isPerm (s.eventSubs.map Prod.fst) then
      some { s with dispatcher := { todo := jobIDs } }
    else none
  | .dispatch =>
    match s.dispatcher.running, s.dispatcher.todo with
    | some i, todo =>
      if s.callReturned i then some { s with dispatcher := { todo := todo } }
      else none
    | none, jobID :: todo =>
      some { s.spawn jobID with dispatcher := { todo, running := some s.calls.length } }
    | none, [] => none
  | .deliver i fails applied => s.calls[i]?.bind (s.stepDelivery i fails applied)

end EventClient
end BatchGateway
