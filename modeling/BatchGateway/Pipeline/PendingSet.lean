import BatchGateway.Lib.Run
import BatchGateway.Pipeline.Items
import Mathlib.Data.List.Induction

/-! The pending set of a job, used by any number of calls at once, and its one waiter. A step of a
call takes the mutex, does the work under it, sends the wakeup, or releases the mutex. -/
namespace BatchGateway

open Interleaving

namespace PendingRequests

variable {p : PendingRequests} {m : RequestItem} {id : String}

theorem has_iff : p.has id = true ↔ ∃ m ∈ p, m.requestID = id := by
  simp [has, find]

theorem has_store : (p.store m).has id = true ↔ m.requestID = id ∨ p.has id = true := by
  by_cases h : m.requestID = id
  · simp [has_iff, store, h]
  · simp only [has_iff, store, List.mem_cons, List.mem_filter, exists_eq_or_imp, h, false_or,
      decide_eq_true_iff]
    refine exists_congr fun x => ⟨fun hx => ⟨hx.1.1, hx.2⟩, fun hx => ⟨⟨hx.1, ?_⟩, hx.2⟩⟩
    exact fun he => h (he.symm.trans hx.2)

theorem has_resolve {other : String} :
    (p.resolve other).has id = true ↔ p.has id = true ∧ id ≠ other := by
  simp only [has_iff, resolve, List.mem_filter, decide_eq_true_iff]
  constructor
  · rintro ⟨x, ⟨hx, hne⟩, rfl⟩
    exact ⟨⟨x, hx, rfl⟩, hne⟩
  · rintro ⟨⟨x, hx, rfl⟩, hne⟩
    exact ⟨x, ⟨hx, hne⟩, rfl⟩

end PendingRequests

/-! ### Calls -/

/-- The calls on the pending set. -/
inductive PendingOp where
  | store (m : RequestItem)
  | has (requestID : String)
  | ids
  | enrich (d : Delivery)
  | resolve (d : Delivery)
  | drainUnresolved

/-- What a call returns; the verdict on a result is the enriched result or a refusal, and a drain
hands its entries on. -/
inductive PendingOut where
  | none
  | found (ok : Bool)
  | ids (requestIDs : List String)
  | verdict (d : Option Delivery)
  | remaining (ms : List RequestItem)

/-- What `Resolve` does under the mutex: the verdict, the map, and whether the wakeup is due. -/
def PendingRequests.settle (p : PendingRequests) (d : Delivery) :
    Option Delivery × PendingRequests × Bool :=
  if d.item.error.isSome then
    if p.has d.item.requestID then
      (some d, p.resolve d.item.requestID, (p.resolve d.item.requestID).isEmpty)
    else (if d.item.customID ≠ "" then some d else none, p, false)
  else if d.item.customID ≠ "" then
    (some d, p.resolve d.item.requestID, (p.resolve d.item.requestID).isEmpty)
  else match p.find d.item.requestID with
    | some m => (some { d with item := { d.item with customID := m.customID }, modelID := m.modelID },
        p.resolve d.item.requestID, (p.resolve d.item.requestID).isEmpty)
    | none => (none, p, false)

/-- The work of a call under the mutex. -/
def PendingOp.body (p : PendingRequests) : PendingOp → PendingOut × PendingRequests × Bool
  | store m => (.none, p.store m, false)
  | has requestID => (.found (p.has requestID), p, false)
  | ids => (.ids (p.map (·.requestID)), p, false)
  | enrich d => (.verdict (p.enrich d), p, false)
  | resolve d =>
    let (verdict, map, signals) := p.settle d
    (.verdict verdict, map, signals)
  | drainUnresolved => (.remaining p, [], false)

/-- Where a call is. -/
inductive PendingPhase where
  /-- About to take the mutex. -/
  | entering (op : PendingOp)
  /-- About to work on the map. -/
  | locked (op : PendingOp)
  /-- About to send the wakeup under the mutex. -/
  | signalling (out : PendingOut)
  /-- About to release the mutex. -/
  | leaving (out : PendingOut)
  /-- A drain about to send the wakeup, without the mutex. -/
  | notifying (ms : List RequestItem)
  /-- A drain that hands on its entries. -/
  | emitting (ms : List RequestItem)
  | returned (out : PendingOut)

/-- Where the waiter is. -/
inductive WaiterPhase where
  | idle
  | entering
  | locked
  | leaving (empty : Bool)
  /-- Blocked until the context is cancelled or a wakeup arrives. -/
  | selecting
  | returned
  deriving DecidableEq

inductive MutexHolder where
  | call (i : Nat)
  | waiter
  deriving DecidableEq

structure PendingSet where
  map : PendingRequests := []
  /-- The one slot of the `done` channel. -/
  done : Bool := false
  mu : Option MutexHolder := none
  calls : List PendingPhase := []
  waiter : WaiterPhase := .idle
  /-- The waiter's context. -/
  cancelled : Bool := false
  /-- For each request, the calls that added or removed its entry, the last one first. -/
  history : String → List (Nat × PendingOp) := fun _ => []

inductive PendingEvent where
  | invoke (op : PendingOp)
  | call (i : Nat)
  | wait
  | waiter
  /-- The waiter takes the wakeup. -/
  | receive
  /-- The waiter sees that its context is cancelled. -/
  | giveUp
  | cancel

namespace PendingSet

variable {s t : PendingSet} {i : Nat} {op : PendingOp}

def setCall (s : PendingSet) (i : Nat) (c : PendingPhase) : PendingSet :=
  { s with calls := s.calls.set i c }

/-- Record the requests whose entry appeared or disappeared. -/
def record (s : PendingSet) (i : Nat) (op : PendingOp) (map : PendingRequests) :
    String → List (Nat × PendingOp) :=
  fun id => if s.map.has id = map.has id then s.history id else (i, op) :: s.history id

/-- A call after its work on the map. -/
def afterWork (out : PendingOut) (signals : Bool) : PendingPhase :=
  if signals then .signalling out else .leaving out

def work (s : PendingSet) (i : Nat) (op : PendingOp) : PendingSet :=
  let result := op.body s.map
  { s with
    map := result.2.1
    history := s.record i op result.2.1
    calls := s.calls.set i (afterWork result.1 result.2.2) }

/-- A call after it released the mutex. Only a drain goes on. -/
def afterUnlock : PendingOut → PendingPhase
  | .remaining (m :: ms) => .notifying (m :: ms)
  | out => .returned out

def stepCall (s : PendingSet) (i : Nat) : PendingPhase → Option PendingSet
  | .entering op => if s.mu = none then
      some { s.setCall i (.locked op) with mu := some (.call i) } else none
  | .locked op => some (s.work i op)
  | .signalling out => some { s.setCall i (.leaving out) with done := true }
  | .leaving out => some { s.setCall i (afterUnlock out) with mu := none }
  | .notifying ms => some { s.setCall i (.emitting ms) with done := true }
  | .emitting (_ :: ms) => some (s.setCall i (.emitting ms))
  | .emitting [] => some (s.setCall i (.returned .none))
  | .returned _ => none

def stepWaiter (s : PendingSet) : WaiterPhase → Option PendingSet
  | .entering => if s.mu = none then some { s with waiter := .locked, mu := some .waiter } else none
  | .locked => some { s with waiter := .leaving s.map.isEmpty }
  | .leaving empty =>
    some { s with mu := none, waiter := if empty then .returned else .selecting }
  | .idle | .selecting | .returned => none

def step (s : PendingSet) : PendingEvent → Option PendingSet
  | .invoke op => some { s with calls := s.calls ++ [.entering op] }
  | .call i => s.calls[i]?.bind (s.stepCall i)
  | .wait => if s.waiter = .idle ∨ s.waiter = .returned then
    some { s with waiter := .entering } else none
  | .waiter => s.stepWaiter s.waiter
  | .receive => if s.waiter = .selecting ∧ s.done then
      some { s with waiter := .entering, done := false } else none
  | .giveUp => if s.waiter = .selecting ∧ s.cancelled then
    some { s with waiter := .returned } else none
  | .cancel => some { s with cancelled := true }

end PendingSet

/-! ### Entries -/

namespace PendingOp

variable {p : PendingRequests} {op : PendingOp} {id : String}

/-- The call may add the entry of the request. -/
def Adds (id : String) : PendingOp → Prop
  | store m => m.requestID = id
  | _ => False

/-- The call may remove the entry of the request. -/
def Removes (id : String) : PendingOp → Prop
  | resolve d => d.item.requestID = id
  | drainUnresolved => True
  | _ => False

theorem settle_cases (p : PendingRequests) (d : Delivery) :
    (p.settle d).2.1 = p ∨ (p.settle d).2.1 = p.resolve d.item.requestID ∧
      (p.settle d).2.2 = (p.resolve d.item.requestID).isEmpty := by
  unfold PendingRequests.settle
  split
  · split
    · exact .inr ⟨rfl, rfl⟩
    · exact .inl rfl
  · split
    · exact .inr ⟨rfl, rfl⟩
    · split
      · exact .inr ⟨rfl, rfl⟩
      · exact .inl rfl

/-- An entry that is there only after the work was added by the call. -/
theorem adds_of_body (h : p.has id = false) (h' : (op.body p).2.1.has id = true) : op.Adds id := by
  have hne : p.has id ≠ true := by rw [h]; exact Bool.false_ne_true
  cases op with
  | store m => exact (PendingRequests.has_store.1 h').resolve_right hne
  | has | ids | enrich d => exact absurd h' hne
  | resolve d =>
    change (p.settle d).2.1.has id = true at h'
    rcases settle_cases p d with heq | ⟨heq, -⟩
    · rw [heq] at h'
      exact absurd h' hne
    · rw [heq] at h'
      exact absurd (PendingRequests.has_resolve.1 h').1 hne
  | drainUnresolved => cases h'

/-- An entry that is there only before the work was removed by the call. -/
theorem removes_of_body (h : p.has id = true) (h' : (op.body p).2.1.has id = false) :
    op.Removes id := by
  have hne : (op.body p).2.1.has id ≠ true := by rw [h']; exact Bool.false_ne_true
  cases op with
  | store m => exact absurd (PendingRequests.has_store.2 (.inr h)) hne
  | has | ids | enrich d => exact absurd h hne
  | resolve d =>
    change (p.settle d).2.1.has id ≠ true at hne
    rcases settle_cases p d with heq | ⟨heq, -⟩
    · rw [heq] at hne
      exact absurd h hne
    · rw [heq] at hne
      by_contra hid
      exact hne (PendingRequests.has_resolve.2 ⟨h, fun he => hid he.symm⟩)
  | drainUnresolved => trivial

/-- Work that empties the map makes a wakeup due, at once or after a drain. -/
theorem signals_of_body (h : p ≠ []) (h' : (op.body p).2.1 = []) :
    (op.body p).2.2 = true ∨ ∃ m ms, (op.body p).1 = .remaining (m :: ms) := by
  cases op with
  | store m => cases h'
  | has | ids | enrich d => exact absurd h' h
  | resolve d =>
    change (p.settle d).2.1 = [] at h'
    change (p.settle d).2.2 = true ∨ _
    rcases settle_cases p d with heq | ⟨heq, hsignals⟩
    · exact absurd (heq.symm.trans h') h
    · rw [hsignals, ← heq, h']
      exact .inl rfl
  | drainUnresolved =>
    cases p with
    | nil => exact absurd rfl h
    | cons m ms => exact .inr ⟨m, ms, rfl⟩

end PendingOp

/-- The calls that added and removed an entry alternate, the last one first: each that added it is
followed by exactly one that removed it before the next. -/
def Alternates (id : String) : Bool → List (Nat × PendingOp) → Prop
  | present, [] => present = false
  | true, (_, op) :: h => op.Adds id ∧ Alternates id false h
  | false, (_, op) :: h => op.Removes id ∧ Alternates id true h

namespace PendingPhase

/-- The call has emptied the map and has yet to send its wakeup. -/
def Signals : PendingPhase → Prop
  | .signalling _ | .leaving (.remaining (_ :: _)) | .notifying _ => True
  | _ => False

/-- The call has done its work on the map. -/
def Worked : PendingPhase → Prop
  | .entering _ | .locked _ => False
  | _ => True

end PendingPhase

/-! ### Invariants -/

namespace PendingSet

variable {s t : PendingSet} {i : Nat} {c c' : PendingPhase} {op : PendingOp}

/-- A wakeup is on its way. -/
def Woken (s : PendingSet) : Prop :=
  s.done = true ∨ ∃ (j : Nat) (c : PendingPhase), s.calls[j]? = some c ∧ c.Signals

/-- The waiter saw entries and does not look again without a wakeup. -/
def Committed (s : PendingSet) : Prop := s.waiter = .leaving false ∨ s.waiter = .selecting

structure Sound (s : PendingSet) : Prop where
  wakes : s.Committed → s.map = [] → s.Woken
  alternates : ∀ id, Alternates id (s.map.has id) (s.history id)
  distinct : ∀ id, ((s.history id).map Prod.fst).Nodup
  worked : ∀ id, ∀ x ∈ s.history id, ∃ c, s.calls[x.1]? = some c ∧ c.Worked

theorem sound_initial : Sound {} where
  wakes h := by rcases h with h | h <;> cases h
  alternates _ := rfl
  distinct _ := List.nodup_nil
  worked _ _ hx := by cases hx

/-- The calls other than the stepping one stay where they are. -/
theorem getElem?_setCall (c' : PendingPhase) (hi : s.calls[i]? = some c) {j : Nat}
    {x : PendingPhase} (hj : s.calls[j]? = some x) :
    (j = i ∧ x = c ∧ (s.calls.set i c')[j]? = some c') ∨
      (j ≠ i ∧ (s.calls.set i c')[j]? = some x) := by
  by_cases hji : j = i
  · subst hji
    have hlt : j < s.calls.length := (List.getElem?_eq_some_iff.1 hi).1
    cases hi.symm.trans hj
    exact .inl ⟨rfl, rfl, List.getElem?_set_self hlt⟩
  · exact .inr ⟨hji, by rw [List.getElem?_set_ne (Ne.symm hji)]; exact hj⟩

theorem woken_setCall (c' : PendingPhase) (hi : s.calls[i]? = some c)
    (hs : c.Signals → t.done = true ∨ c'.Signals)
    (hcalls : t.calls = s.calls.set i c') (hdone : s.done = true → t.done = true)
    (h : s.Woken) : t.Woken := by
  rcases h with h | ⟨j, x, hj, hx⟩
  · exact .inl (hdone h)
  · rcases getElem?_setCall c' hi hj with ⟨-, rfl, hset⟩ | ⟨-, hset⟩
    · rcases hs hx with hd | hc
      · exact .inl hd
      · exact .inr ⟨j, c', hcalls ▸ hset, hc⟩
    · exact .inr ⟨j, x, hcalls ▸ hset, hx⟩

theorem worked_setCall (hi : s.calls[i]? = some c) (hw : c.Worked → c'.Worked) {j : Nat}
    (h : ∃ x, s.calls[j]? = some x ∧ x.Worked) :
    ∃ x, (s.calls.set i c')[j]? = some x ∧ x.Worked := by
  obtain ⟨x, hj, hx⟩ := h
  rcases getElem?_setCall c' hi hj with ⟨-, rfl, hset⟩ | ⟨-, hset⟩
  · exact ⟨c', hset, hw hx⟩
  · exact ⟨x, hset, hx⟩

/-- A step of a call outside the map. -/
theorem Sound.setCall (h : Sound s) (c' : PendingPhase) (hi : s.calls[i]? = some c)
    (hs : c.Signals → t.done = true ∨ c'.Signals) (hw : c.Worked → c'.Worked)
    (hcalls : t.calls = s.calls.set i c') (hdone : s.done = true → t.done = true)
    (hmap : t.map = s.map) (hwaiter : t.waiter = s.waiter) (hhistory : t.history = s.history) :
    Sound t where
  wakes hc hm := by
    rw [Committed, hwaiter] at hc
    exact woken_setCall _ hi hs hcalls hdone (h.wakes hc (hmap ▸ hm))
  alternates id := by
    rw [hmap, hhistory]
    exact h.alternates id
  distinct id := by
    rw [hhistory]
    exact h.distinct id
  worked id x hx := by
    rw [hhistory] at hx
    rw [hcalls]
    exact worked_setCall hi hw (h.worked id x hx)

theorem signals_afterWork {out : PendingOut} {signals : Bool}
    (h : signals = true ∨ ∃ m ms, out = .remaining (m :: ms)) : (afterWork out signals).Signals := by
  cases signals with
  | true => trivial
  | false =>
    obtain ⟨m, ms, rfl⟩ := h.resolve_left Bool.false_ne_true
    trivial

theorem worked_afterWork (out : PendingOut) (signals : Bool) : (afterWork out signals).Worked := by
  cases signals <;> trivial

/-- The work of a call on the map. -/
theorem Sound.work (h : Sound s) (hi : s.calls[i]? = some (.locked op)) : Sound (s.work i op) where
  wakes hc hm := by
    by_cases hmap : s.map = []
    · exact woken_setCall _ hi nofun rfl id (h.wakes hc hmap)
    · have hlt : i < s.calls.length := (List.getElem?_eq_some_iff.1 hi).1
      refine .inr ⟨i, _, List.getElem?_set_self hlt, ?_⟩
      rcases PendingOp.signals_of_body hmap hm with hsignals | ⟨m, ms, hout⟩
      · exact signals_afterWork (.inl hsignals)
      · exact signals_afterWork (.inr ⟨m, ms, hout⟩)
  alternates id := by
    change Alternates id ((op.body s.map).2.1.has id) (s.record i op (op.body s.map).2.1 id)
    have hold := h.alternates id
    unfold record
    cases hbefore : s.map.has id <;> cases hafter : (op.body s.map).2.1.has id
    · rwa [hbefore] at hold
    · rw [hbefore] at hold
      exact ⟨PendingOp.adds_of_body hbefore hafter, hold⟩
    · rw [hbefore] at hold
      exact ⟨PendingOp.removes_of_body hbefore hafter, hold⟩
    · rwa [hbefore] at hold
  distinct id := by
    change ((s.record i op (op.body s.map).2.1 id).map Prod.fst).Nodup
    unfold record
    split
    · exact h.distinct id
    · rw [List.map_cons, List.nodup_cons]
      refine ⟨fun hmem => ?_, h.distinct id⟩
      obtain ⟨x, hx, rfl⟩ := List.mem_map.1 hmem
      obtain ⟨c, hc, hworked⟩ := h.worked id x hx
      cases hi.symm.trans hc
      exact hworked
  worked id x hx := by
    have hlt : i < s.calls.length := (List.getElem?_eq_some_iff.1 hi).1
    change x ∈ s.record i op (op.body s.map).2.1 id at hx
    unfold record at hx
    have hself : ∃ c, (s.work i op).calls[i]? = some c ∧ c.Worked :=
      ⟨_, List.getElem?_set_self hlt, worked_afterWork _ _⟩
    split at hx
    · exact worked_setCall hi nofun (h.worked id x hx)
    · rcases List.mem_cons.1 hx with rfl | hx
      · exact hself
      · exact worked_setCall hi nofun (h.worked id x hx)

/-- A step of the waiter, or of its context. -/
theorem Sound.setWaiter (h : Sound s) (hcalls : t.calls = s.calls) (hmap : t.map = s.map)
    (hhistory : t.history = s.history) (hwakes : t.Committed → t.map = [] → t.Woken) :
    Sound t where
  wakes := hwakes
  alternates id := by
    rw [hmap, hhistory]
    exact h.alternates id
  distinct id := by
    rw [hhistory]
    exact h.distinct id
  worked id x hx := by
    rw [hhistory] at hx
    rw [hcalls]
    exact h.worked id x hx

theorem Sound.invoke (h : Sound s) (op : PendingOp) :
    Sound { s with calls := s.calls ++ [.entering op] } where
  wakes hc hm := by
    rcases h.wakes hc hm with hdone | ⟨j, c, hj, hsignals⟩
    · exact .inl hdone
    · refine .inr ⟨j, c, ?_, hsignals⟩
      rw [List.getElem?_append_left (List.getElem?_eq_some_iff.1 hj).1]
      exact hj
  alternates := h.alternates
  distinct := h.distinct
  worked id x hx := by
    obtain ⟨c, hc, hworked⟩ := h.worked id x hx
    refine ⟨c, ?_, hworked⟩
    rw [List.getElem?_append_left (List.getElem?_eq_some_iff.1 hc).1]
    exact hc

theorem Sound.stepCall (h : Sound s) (hi : s.calls[i]? = some c) (hs : s.stepCall i c = some t) :
    Sound t := by
  cases c with
  | entering op =>
    obtain ⟨-, rfl⟩ := of_guarded hs
    exact h.setCall (.locked op) hi nofun nofun rfl id rfl rfl rfl
  | locked op =>
    cases hs
    exact h.work hi
  | signalling out =>
    cases hs
    exact h.setCall (.leaving out) hi (fun _ => .inl rfl) (fun _ => trivial)
      rfl (fun _ => rfl) rfl rfl rfl
  | leaving out =>
    cases hs
    refine h.setCall (afterUnlock out) hi (fun hsignals => .inr ?_) (fun _ => ?_) rfl id rfl rfl rfl
    · -- of the calls that leave, only a drain that took entries has yet to signal
      unfold PendingPhase.Signals at hsignals
      split at hsignals
      next heq => cases heq
      next heq =>
        cases heq
        trivial
      next heq => cases heq
      next => cases hsignals
    · unfold afterUnlock
      split <;> trivial
  | notifying ms =>
    cases hs
    exact h.setCall (.emitting ms) hi (fun _ => .inl rfl) (fun _ => trivial)
      rfl (fun _ => rfl) rfl rfl rfl
  | emitting ms =>
    cases ms with
    | nil =>
      cases hs
      exact h.setCall (.returned .none) hi nofun (fun _ => trivial) rfl id rfl rfl rfl
    | cons m ms =>
      cases hs
      exact h.setCall (.emitting ms) hi nofun (fun _ => trivial) rfl id rfl rfl rfl
  | returned out => cases hs

theorem Sound.stepWaiter (h : Sound s) (hs : s.stepWaiter s.waiter = some t) : Sound t := by
  cases hw : s.waiter with
  | entering =>
    simp only [hw, PendingSet.stepWaiter, Option.ite_none_right_eq_some, Option.some.injEq] at hs
    obtain ⟨-, rfl⟩ := hs
    exact h.setWaiter rfl rfl rfl fun hc => by rcases hc with hc | hc <;> cases hc
  | locked =>
    rw [hw] at hs
    cases hs
    refine h.setWaiter rfl rfl rfl fun hc hm => ?_
    -- the waiter goes on to block only if it saw an entry
    rcases hc with hc | hc
    · have hempty : s.map.isEmpty = false := WaiterPhase.leaving.inj hc
      have hnil : s.map = [] := hm
      rw [hnil] at hempty
      cases hempty
    · cases hc
  | leaving empty =>
    rw [hw] at hs
    cases hs
    refine h.setWaiter rfl rfl rfl fun hc hm => ?_
    cases empty with
    | true => rcases hc with hc | hc <;> cases hc
    | false => exact h.wakes (.inl hw) hm
  | idle | selecting | returned =>
    rw [hw] at hs
    cases hs

variable {e : PendingEvent}

theorem Sound.step (h : Sound s) (hs : s.step e = some t) : Sound t := by
  have hnot : ∀ {u : PendingSet}, u.waiter = .entering ∨ u.waiter = .returned → ¬ u.Committed := by
    intro u hu hc
    rcases hu with hu | hu <;> rcases hc with hc | hc <;> cases hu.symm.trans hc
  cases e with
  | invoke op =>
    cases hs
    exact h.invoke op
  | call i =>
    obtain ⟨c, hi, hs⟩ := Option.bind_eq_some_iff.1 hs
    exact h.stepCall hi hs
  | wait =>
    obtain ⟨-, rfl⟩ := of_guarded hs
    exact h.setWaiter rfl rfl rfl fun hc => absurd hc (hnot (.inl rfl))
  | waiter => exact h.stepWaiter hs
  | receive =>
    obtain ⟨-, rfl⟩ := of_guarded hs
    exact h.setWaiter rfl rfl rfl fun hc => absurd hc (hnot (.inl rfl))
  | giveUp =>
    obtain ⟨-, rfl⟩ := of_guarded hs
    exact h.setWaiter rfl rfl rfl fun hc => absurd hc (hnot (.inr rfl))
  | cancel =>
    cases hs
    exact h.setWaiter rfl rfl rfl h.wakes

/-! ### The waiter's return -/

/-- Since the last call of `Wait` began, the waiter saw the map empty while it held the mutex. -/
def SawEmpty (es : List PendingEvent) : Prop :=
  ∃ pre post u, es = pre ++ .waiter :: post ∧ exec step {} pre = some u ∧ u.waiter = .locked ∧
    u.map = [] ∧ ∀ e ∈ post, e ≠ .wait

/-- Since the last call of `Wait` began, the waiter saw that its context was cancelled. -/
def SawCancelled (es : List PendingEvent) : Prop :=
  ∃ pre post u, es = pre ++ .giveUp :: post ∧ exec step {} pre = some u ∧ u.cancelled = true ∧
    ∀ e ∈ post, e ≠ .wait

theorem forall_ne_wait_snoc {post : List PendingEvent} (h : ∀ e ∈ post, e ≠ .wait)
    (he : e ≠ .wait) : ∀ e' ∈ post ++ [e], e' ≠ .wait := by
  intro e' he'
  rcases List.mem_append.1 he' with he' | he'
  · exact h e' he'
  · rw [List.mem_singleton.1 he']
    exact he

variable {es : List PendingEvent}

theorem SawEmpty.snoc (h : SawEmpty es) (he : e ≠ .wait) : SawEmpty (es ++ [e]) := by
  obtain ⟨pre, post, u, rfl, hu, hw, hm, hpost⟩ := h
  refine ⟨pre, post ++ [e], u, ?_, hu, hw, hm, forall_ne_wait_snoc hpost he⟩
  rw [List.append_assoc, List.cons_append]

theorem SawCancelled.snoc (h : SawCancelled es) (he : e ≠ .wait) : SawCancelled (es ++ [e]) := by
  obtain ⟨pre, post, u, rfl, hu, hc, hpost⟩ := h
  refine ⟨pre, post ++ [e], u, ?_, hu, hc, forall_ne_wait_snoc hpost he⟩
  rw [List.append_assoc, List.cons_append]

theorem waiter_stepCall (h : s.stepCall i c = some t) : t.waiter = s.waiter := by
  cases c with
  | entering op =>
    obtain ⟨-, rfl⟩ := of_guarded h
    rfl
  | emitting ms =>
    cases ms <;>
      (cases h
       rfl)
  | returned out => cases h
  | locked | signalling | leaving | notifying =>
    cases h
    rfl

/-- How the waiter comes to return. -/
theorem returned_step (h : s.step e = some t) (hw : t.waiter = .returned) :
    e ≠ .wait ∧ (s.waiter = .returned ∨ s.waiter = .leaving true) ∨
      e = .giveUp ∧ s.cancelled = true := by
  cases e with
  | invoke op =>
    cases h
    exact .inl ⟨nofun, .inl hw⟩
  | call i =>
    obtain ⟨c, -, h⟩ := Option.bind_eq_some_iff.1 h
    exact .inl ⟨nofun, .inl ((waiter_stepCall h).symm.trans hw)⟩
  | wait =>
    obtain ⟨-, rfl⟩ := of_guarded h
    cases hw
  | waiter =>
    refine .inl ⟨nofun, ?_⟩
    simp only [step] at h
    cases hs : s.waiter with
    | entering =>
      simp only [hs, stepWaiter, Option.ite_none_right_eq_some, Option.some.injEq] at h
      obtain ⟨-, rfl⟩ := h
      cases hw
    | locked =>
      rw [hs] at h
      cases h
      cases hw
    | leaving empty =>
      rw [hs] at h
      cases h
      cases empty with
      | true => exact .inr rfl
      | false => cases hw
    | idle | selecting | returned =>
      rw [hs] at h
      cases h
  | receive =>
    obtain ⟨-, rfl⟩ := of_guarded h
    cases hw
  | giveUp =>
    exact .inr ⟨rfl, (of_guarded h).1.2⟩
  | cancel =>
    cases h
    exact .inl ⟨nofun, .inl hw⟩

/-- How the waiter comes to leave with the map empty. -/
theorem leaving_step (h : s.step e = some t) (hw : t.waiter = .leaving true) :
    e ≠ .wait ∧ s.waiter = .leaving true ∨ e = .waiter ∧ s.waiter = .locked ∧ s.map = [] := by
  cases e with
  | invoke op =>
    cases h
    exact .inl ⟨nofun, hw⟩
  | call i =>
    obtain ⟨c, -, h⟩ := Option.bind_eq_some_iff.1 h
    exact .inl ⟨nofun, (waiter_stepCall h).symm.trans hw⟩
  | wait | receive | giveUp =>
    obtain ⟨-, rfl⟩ := of_guarded h
    cases hw
  | waiter =>
    simp only [step] at h
    cases hs : s.waiter with
    | entering =>
      simp only [hs, stepWaiter, Option.ite_none_right_eq_some, Option.some.injEq] at h
      obtain ⟨-, rfl⟩ := h
      cases hw
    | locked =>
      rw [hs] at h
      cases h
      exact .inr ⟨rfl, rfl, List.isEmpty_iff.1 (WaiterPhase.leaving.inj hw)⟩
    | leaving empty =>
      rw [hs] at h
      cases h
      cases empty <;> cases hw
    | idle | selecting | returned =>
      rw [hs] at h
      cases h
  | cancel =>
    cases h
    exact .inl ⟨nofun, hw⟩

theorem sawEmpty_of_leaving (h : exec step {} es = some s) (hw : s.waiter = .leaving true) :
    SawEmpty es := by
  induction es using List.reverseRecOn generalizing s with
  | nil =>
    cases h
    cases hw
  | append_singleton es e ih =>
    obtain ⟨u, hu, he⟩ := exec_append.1 h
    obtain ⟨v, hv, hnil⟩ := exec_cons.1 he
    cases hnil
    rcases leaving_step hv hw with ⟨hne, hleaving⟩ | ⟨rfl, hlocked, hmap⟩
    · exact (ih hu hleaving).snoc hne
    · exact ⟨es, [], u, rfl, hu, hlocked, hmap, List.forall_mem_nil _⟩

theorem saw_of_returned (h : exec step {} es = some s) (hw : s.waiter = .returned) :
    SawEmpty es ∨ SawCancelled es := by
  induction es using List.reverseRecOn generalizing s with
  | nil =>
    cases h
    cases hw
  | append_singleton es e ih =>
    obtain ⟨u, hu, he⟩ := exec_append.1 h
    obtain ⟨v, hv, hnil⟩ := exec_cons.1 he
    cases hnil
    rcases returned_step hv hw with ⟨hne, hreturned | hleaving⟩ | ⟨rfl, hcancelled⟩
    · exact (ih hu hreturned).imp (·.snoc hne) (·.snoc hne)
    · exact .inl ((sawEmpty_of_leaving hu hleaving).snoc hne)
    · exact .inr ⟨es, [], u, rfl, hu, hcancelled, List.forall_mem_nil _⟩

/-- In every run of any calls and the waiter, the entry of a request is added and removed in turn,
each time by another call; the waiter returns only after it saw the map empty or its context
cancelled; and it never blocks on an empty map without a wakeup on its way. -/
theorem pendingSet_sound {es : List PendingEvent} (h : exec step {} es = some s) :
    (∀ id, Alternates id (s.map.has id) (s.history id) ∧ ((s.history id).map Prod.fst).Nodup) ∧
    (s.waiter = .returned → SawEmpty es ∨ SawCancelled es) ∧
    ¬ (s.waiter = .selecting ∧ s.map = [] ∧ s.done = false ∧
      ∀ c ∈ s.calls, ¬ c.Signals) := by
  have hsound : Sound s := exec_invariant (fun _ _ _ hu => hu.step) h sound_initial
  refine ⟨fun id => ⟨hsound.alternates id, hsound.distinct id⟩, saw_of_returned h, ?_⟩
  rintro ⟨hw, hmap, hdone, hcalls⟩
  rcases hsound.wakes (.inr hw) hmap with hd | ⟨j, c, hj, hc⟩
  · rw [hdone] at hd
    cases hd
  · exact hcalls c (List.mem_of_getElem? hj) hc

/-- A request is stored, the waiter blocks, and the result of the request wakes it. -/
def sampleRun : List PendingEvent :=
  let msg : RequestItem := { requestID := "r", customID := "c", modelID := "m" }
  let result : Delivery := { item := { requestID := "r", customID := "" } }
  [.invoke (.store msg), .call 0, .call 0, .call 0, .wait, .waiter, .waiter, .waiter,
    .invoke (.resolve result), .call 1, .call 1, .call 1, .receive, .call 1, .waiter, .waiter,
    .waiter]

theorem sampleRun_sound : ∃ s, exec step {} sampleRun = some s ∧ s.waiter = .returned ∧
    (s.history "r").length = 2 ∧ Alternates "r" (s.map.has "r") (s.history "r") ∧
    (SawEmpty sampleRun ∨ SawCancelled sampleRun) := by
  have hrun : (exec step {} sampleRun).map (fun s => (s.waiter, (s.history "r").length)) =
      some (.returned, 2) := by
    decide +kernel
  obtain ⟨s, hs, heq⟩ := Option.map_eq_some_iff.1 hrun
  obtain ⟨hw, hlength⟩ := Prod.mk.inj heq
  obtain ⟨hentries, hreturn, -⟩ := pendingSet_sound hs
  exact ⟨s, hs, hw, hlength, (hentries "r").1, hreturn hw⟩

end PendingSet
end BatchGateway
