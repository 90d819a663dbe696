import BatchGateway.Lib.Pool

/-! The semaphore with an adjustable limit. A step is one action of a call or of a watcher on the
mutex, the counters, the list of waiting calls, or a context. The list holds the calls that were
added and not yet notified; a signal takes its first one and a broadcast all of them. -/
namespace BatchGateway

open Interleaving

inductive SemOp where
  | acquire (ctx : Nat)
  | release
  | tryAcquire
  | setLimit (newLimit : Int)
  deriving DecidableEq, Repr

/-- Where a call is. From `locked` to `listed` and from `signalling` to `leaving` it holds the
mutex. -/
inductive SemPhase where
  | entering
  | locked
  /-- In the loop of `Acquire`, before the counters are compared. -/
  | testing
  /-- Before the context is looked at. -/
  | checking
  /-- In `cond.Wait`, before the call is added to the list. -/
  | adding
  /-- In `cond.Wait`, added, before the mutex is released. -/
  | listed
  | parked
  /-- Notified, before the mutex is taken again. -/
  | relocking
  | signalling
  | broadcasting
  /-- An `Acquire` that started a watcher, before it tells it that it is over. -/
  | closing (ok : Bool)
  | leaving (ok : Bool)
  /-- A release without a token, before it fires the callback. -/
  | reporting
  | returned (ok : Bool)
  deriving DecidableEq, Repr

/-- The goroutine that `Acquire` starts before it waits. -/
inductive WatcherPhase where
  | absent
  | selecting
  /-- The context is cancelled; the broadcast comes next. -/
  | triggered
  | broadcasted
  /-- `Acquire` was over first. -/
  | stopped
  deriving DecidableEq, Repr

structure SemCall where
  op : SemOp
  phase : SemPhase := .entering
  watcher : WatcherPhase := .absent
  deriving DecidableEq, Repr

structure AdaptiveSemaphore where
  limit : Int
  count : Int := 0
  mu : Option Nat := none
  waiting : List Nat := []
  calls : List SemCall := []
  /-- The cancelled contexts. -/
  cancelled : List Nat := []
  /-- There is a callback for a release without a token. -/
  onDoubleRelease : Bool := false
  /-- The callback has run. -/
  doubleOnce : Bool := false
  deriving DecidableEq, Repr

inductive SemEvent where
  | invoke (op : SemOp)
  | call (i : Nat)
  /-- The watcher sees that the context is cancelled. -/
  | trigger (i : Nat)
  /-- The watcher sees that `Acquire` is over. -/
  | stop (i : Nat)
  | broadcast (i : Nat)
  | cancel (ctx : Nat)
  deriving DecidableEq, Repr

namespace AdaptiveSemaphore

/-- A semaphore needs a positive capacity. -/
def newAdaptive (capacity : Int) (onDoubleRelease : Bool) : Option AdaptiveSemaphore :=
  if capacity ≤ 0 then none else some { limit := capacity, onDoubleRelease }

variable (s : AdaptiveSemaphore) (i : Nat) (c : SemCall)

def setCall (c : SemCall) : AdaptiveSemaphore := { s with calls := s.calls.set i c }

def setPhase (phase : SemPhase) : AdaptiveSemaphore := s.setCall i { c with phase }

/-- The first action under the mutex. -/
def enter : AdaptiveSemaphore :=
  match c.op with
  | .acquire _ =>
    if s.count < s.limit then { s.setPhase i c (.leaving true) with count := s.count + 1 }
    else s.setCall i { c with phase := .testing, watcher := .selecting }
  | .release =>
    if 0 < s.count then { s.setPhase i c .signalling with count := s.count - 1 }
    else s.setPhase i c (.leaving false)
  | .tryAcquire =>
    if s.count < s.limit then { s.setPhase i c (.leaving true) with count := s.count + 1 }
    else s.setPhase i c (.leaving false)
  | .setLimit newLimit =>
    { s.setPhase i c .broadcasting with limit := if newLimit < 1 then 1 else newLimit }

/-- What follows the release of the mutex. -/
def afterUnlock (ok : Bool) : SemPhase :=
  if c.op = .release ∧ ok = false ∧ s.onDoubleRelease then .reporting else .returned ok

/-- The call has told its watcher that it is over. -/
def isOver : SemPhase → Bool
  | .leaving _ | .returned _ => true
  | _ => false

def isCancelled : SemOp → Bool
  | .acquire ctx => s.cancelled.contains ctx
  | _ => false

def stepCall : Option AdaptiveSemaphore :=
  match c.phase with
  | .entering =>
    if s.mu = none then some { s.setPhase i c .locked with mu := some i } else none
  | .locked => some (s.enter i c)
  | .testing =>
    if s.limit ≤ s.count then some (s.setPhase i c .checking)
    else some { s.setPhase i c (.closing true) with count := s.count + 1 }
  | .checking =>
    if s.isCancelled c.op then some (s.setPhase i c (.closing false))
    else some (s.setPhase i c .adding)
  | .adding => some { s.setPhase i c .listed with waiting := s.waiting ++ [i] }
  | .listed => some { s.setPhase i c .parked with mu := none }
  | .parked => if i ∈ s.waiting then none else some (s.setPhase i c .relocking)
  | .relocking =>
    if s.mu = none then some { s.setPhase i c .testing with mu := some i } else none
  | .signalling => some { s.setPhase i c (.leaving true) with waiting := s.waiting.tail }
  | .broadcasting => some { s.setPhase i c (.leaving true) with waiting := [] }
  | .closing ok => some (s.setPhase i c (.leaving ok))
  | .leaving ok => some { s.setPhase i c (s.afterUnlock c ok) with mu := none }
  | .reporting => some { s.setPhase i c (.returned false) with doubleOnce := true }
  | .returned _ => none

def step : SemEvent → Option AdaptiveSemaphore
  | .invoke op => some { s with calls := s.calls ++ [{ op }] }
  | .call i => s.calls[i]?.bind (s.stepCall i)
  | .trigger i => s.calls[i]?.bind fun c =>
    if c.watcher = .selecting ∧ s.isCancelled c.op then
      some (s.setCall i { c with watcher := .triggered })
    else none
  | .stop i => s.calls[i]?.bind fun c =>
    if c.watcher = .selecting ∧ isOver c.phase then
      some (s.setCall i { c with watcher := .stopped })
    else none
  | .broadcast i => s.calls[i]?.bind fun c =>
    if c.watcher = .triggered then
      some { s.setCall i { c with watcher := .broadcasted } with waiting := [] }
    else none
  | .cancel ctx => some { s with cancelled := ctx :: s.cancelled }

variable {s i c} {t : AdaptiveSemaphore} {c' : SemCall}

/-- What keeps the call at position `i` from missing the broadcast of its watcher. -/
structure Guarded (s : AdaptiveSemaphore) (i : Nat) (c : SemCall) : Prop where
  cancelled : c.watcher = .triggered ∨ c.watcher = .broadcasted → s.isCancelled c.op = true
  notAdding : c.watcher = .broadcasted → c.phase ≠ .adding
  notified : c.watcher = .broadcasted → c.phase = .listed ∨ c.phase = .parked → i ∉ s.waiting

def Safe (s : AdaptiveSemaphore) : Prop := ∀ i c, s.calls[i]? = some c → Guarded s i c

theorem isCancelled_mono (h : s.cancelled ⊆ t.cancelled) {op : SemOp}
    (hop : s.isCancelled op = true) : t.isCancelled op = true := by
  cases op with
  | acquire ctx => exact List.contains_iff_mem.2 (h (List.contains_iff_mem.1 hop))
  | release | tryAcquire | setLimit => cases hop

/-- The other calls stay guarded while only the stepping call joins the list. -/
theorem Safe.setCall (h : Safe s) (hcalls : t.calls = s.calls.set i c')
    (hcancel : t.cancelled = s.cancelled) (hwaiting : ∀ j ∈ t.waiting, j ≠ i → j ∈ s.waiting)
    (hself : Guarded t i c') : Safe t := by
  intro j x hj
  rw [hcalls, List.getElem?_set] at hj
  split at hj
  next hij =>
    subst hij
    split at hj
    · cases hj
      exact hself
    · cases hj
  next hij =>
    have hold := h j x hj
    refine ⟨fun hw => ?_, hold.notAdding, fun hw hp hmem => ?_⟩
    · exact isCancelled_mono (fun _ hc => hcancel ▸ hc) (hold.cancelled hw)
    · exact hold.notified hw hp (hwaiting j hmem (Ne.symm hij))

/-- A step to a phase outside `cond.Wait`. -/
theorem Guarded.move (h : Guarded s i c) (hwatcher : c'.watcher = c.watcher ∨
      c'.watcher = .selecting) (hop : c'.op = c.op) (hcancel : t.cancelled = s.cancelled)
    (hphase : c'.phase ≠ .adding ∧ c'.phase ≠ .listed ∧ c'.phase ≠ .parked) :
    Guarded t i c' where
  cancelled hw := by
    rcases hwatcher with heq | heq
    · rw [heq] at hw
      rw [hop]
      exact isCancelled_mono (fun _ hc => hcancel ▸ hc) (h.cancelled hw)
    · rw [heq] at hw
      rcases hw with hw | hw <;> cases hw
  notAdding _ := hphase.1
  notified _ hp := by
    rcases hp with hp | hp
    · exact absurd hp hphase.2.1
    · exact absurd hp hphase.2.2

/-- A step of a call to a phase outside `cond.Wait`. -/
theorem Safe.leave (h : Safe s) (hi : s.calls[i]? = some c) {phase : SemPhase}
    (hcalls : t.calls = s.calls.set i { c with phase }) (hcancel : t.cancelled = s.cancelled)
    (hwaiting : ∀ j ∈ t.waiting, j ∈ s.waiting)
    (hphase : phase ≠ .adding ∧ phase ≠ .listed ∧ phase ≠ .parked) : Safe t :=
  h.setCall hcalls hcancel (fun j hj _ => hwaiting j hj)
    ((h i c hi).move (.inl rfl) rfl hcancel hphase)

theorem Safe.enter (h : Safe s) (hi : s.calls[i]? = some c) : Safe (s.enter i c) := by
  unfold AdaptiveSemaphore.enter
  split
  · split
    · exact h.leave hi rfl rfl (fun _ => id) ⟨nofun, nofun, nofun⟩
    · exact h.setCall rfl rfl (fun _ hj _ => hj)
        ((h i c hi).move (.inr rfl) rfl rfl ⟨nofun, nofun, nofun⟩)
  · split <;> exact h.leave hi rfl rfl (fun _ => id) ⟨nofun, nofun, nofun⟩
  · split <;> exact h.leave hi rfl rfl (fun _ => id) ⟨nofun, nofun, nofun⟩
  · exact h.leave hi rfl rfl (fun _ => id) ⟨nofun, nofun, nofun⟩

/-- A call waits only if its context was not cancelled when it looked, and its watcher does not
broadcast between that look and the list. -/
theorem Safe.stepCall (h : Safe s) (hi : s.calls[i]? = some c) (hs : s.stepCall i c = some t) :
    Safe t := by
  have hself := h i c hi
  unfold AdaptiveSemaphore.stepCall at hs
  split at hs
  next =>
    obtain ⟨-, rfl⟩ := of_guarded hs
    exact h.leave hi rfl rfl (fun _ => id) ⟨nofun, nofun, nofun⟩
  next =>
    cases hs
    exact h.enter hi
  next =>
    split at hs <;>
      (cases hs
       exact h.leave hi rfl rfl (fun _ => id) ⟨nofun, nofun, nofun⟩)
  next =>
    split at hs
    next =>
      cases hs
      exact h.leave hi rfl rfl (fun _ => id) ⟨nofun, nofun, nofun⟩
    next hnot =>
      cases hs
      have hearly : c.watcher ≠ .broadcasted := fun hw => hnot (hself.cancelled (.inr hw))
      exact h.setCall rfl rfl (fun _ hj _ => hj)
        ⟨hself.cancelled, fun hw => absurd hw hearly, fun hw => absurd hw hearly⟩
  next hphase =>
    cases hs
    have hearly : c.watcher ≠ .broadcasted := fun hw => hself.notAdding hw hphase
    refine h.setCall rfl rfl (fun j hj hne => ?_)
      ⟨hself.cancelled, fun hw => absurd hw hearly, fun hw => absurd hw hearly⟩
    exact (List.mem_append.1 hj).resolve_right fun hm => hne (List.mem_singleton.1 hm)
  next hphase =>
    cases hs
    exact h.setCall rfl rfl (fun _ hj _ => hj)
      ⟨hself.cancelled, nofun, fun hw _ => hself.notified hw (.inl hphase)⟩
  next =>
    obtain ⟨-, rfl⟩ := of_unless hs
    exact h.leave hi rfl rfl (fun _ => id) ⟨nofun, nofun, nofun⟩
  next =>
    obtain ⟨-, rfl⟩ := of_guarded hs
    exact h.leave hi rfl rfl (fun _ => id) ⟨nofun, nofun, nofun⟩
  next =>
    cases hs
    exact h.leave hi rfl rfl (fun _ => List.mem_of_mem_tail) ⟨nofun, nofun, nofun⟩
  next =>
    cases hs
    exact h.leave hi rfl rfl (fun _ => nofun) ⟨nofun, nofun, nofun⟩
  next =>
    cases hs
    exact h.leave hi rfl rfl (fun _ => id) ⟨nofun, nofun, nofun⟩
  next =>
    cases hs
    refine h.leave hi rfl rfl (fun _ => id) ?_
    unfold afterUnlock
    split <;> exact ⟨nofun, nofun, nofun⟩
  next =>
    cases hs
    exact h.leave hi rfl rfl (fun _ => id) ⟨nofun, nofun, nofun⟩
  next => cases hs

/-- No watcher broadcasts between its call's look at the context and the call's entry in the
list. -/
def Timely (s : AdaptiveSemaphore) : SemEvent → Prop
  | .broadcast i => ∀ c, s.calls[i]? = some c → c.phase ≠ .adding
  | _ => True

instance (s : AdaptiveSemaphore) : (e : SemEvent) → Decidable (s.Timely e)
  | .broadcast i =>
    match h : s.calls[i]? with
    | none => isTrue fun _ hc => by cases h.symm.trans hc
    | some c => decidable_of_iff (c.phase ≠ .adding)
        ⟨fun hp _ hc => by cases h.symm.trans hc; exact hp, fun hall => hall c h⟩
  | .invoke _ | .call _ | .trigger _ | .stop _ | .cancel _ => isTrue trivial

theorem Safe.step {e : SemEvent} (h : Safe s) (he : s.Timely e) (hs : s.step e = some t) :
    Safe t := by
  cases e with
  | invoke op =>
    cases hs
    intro j x hj
    rcases getElem?_snoc_cases hj with ⟨-, rfl⟩ | ⟨-, hj⟩
    · exact ⟨nofun, nofun, nofun⟩
    · exact ⟨(h j x hj).cancelled, (h j x hj).notAdding, (h j x hj).notified⟩
  | call i =>
    obtain ⟨c, hi, hs⟩ := Option.bind_eq_some_iff.1 hs
    exact h.stepCall hi hs
  | trigger i =>
    obtain ⟨c, hi, hs⟩ := Option.bind_eq_some_iff.1 hs
    obtain ⟨⟨-, hcancelled⟩, rfl⟩ := of_guarded hs
    exact h.setCall rfl rfl (fun _ hj _ => hj) ⟨fun _ => hcancelled, nofun, nofun⟩
  | stop i =>
    obtain ⟨c, hi, hs⟩ := Option.bind_eq_some_iff.1 hs
    obtain ⟨-, rfl⟩ := of_guarded hs
    exact h.setCall rfl rfl (fun _ hj _ => hj) ⟨nofun, nofun, nofun⟩
  | broadcast i =>
    obtain ⟨c, hi, hs⟩ := Option.bind_eq_some_iff.1 hs
    obtain ⟨hwatcher, rfl⟩ := of_guarded hs
    exact h.setCall rfl rfl (fun _ hj _ => nomatch hj)
      ⟨fun _ => (h i c hi).cancelled (.inl hwatcher), fun _ => he c hi, fun _ _ => nofun⟩
  | cancel ctx =>
    cases hs
    intro j x hj
    have hold := h j x hj
    refine ⟨fun hw => isCancelled_mono ?_ (hold.cancelled hw), hold.notAdding, hold.notified⟩
    exact List.subset_cons_self _ _

/-- The call at position `i` sleeps although its context is cancelled: its watcher has broadcast
and the call was not notified. -/
def Missed (s : AdaptiveSemaphore) (i : Nat) : Prop :=
  ∃ c, s.calls[i]? = some c ∧ c.phase = .parked ∧ s.isCancelled c.op = true ∧
    c.watcher = .broadcasted ∧ i ∈ s.waiting

/-- While the broadcasts are timely, every cancelled call is woken. -/
theorem cancelled_woken {capacity : Int} {callback : Bool} {init : AdaptiveSemaphore}
    {es : List SemEvent} (hinit : newAdaptive capacity callback = some init)
    (hes : Along AdaptiveSemaphore.step Timely init es)
    (h : exec AdaptiveSemaphore.step init es = some s) (i : Nat) : ¬ s.Missed i := by
  have hsafe : Safe s := by
    refine along_invariant (I := Safe) (fun _ _ _ hs hP => hs.step hP) hes h ?_
    obtain ⟨-, rfl⟩ := of_unless hinit
    intro j x hj
    cases hj
  rintro ⟨c, hi, hphase, -, hwatcher, hmem⟩
  exact (hsafe i c hi).notified hwatcher (.inr hphase) hmem

/-- One call holds the only token, and a second one has found its context not cancelled. -/
def contended : List SemEvent :=
  [.invoke (.acquire 0), .call 0, .call 0, .call 0, .invoke (.acquire 1), .call 1, .call 1, .call 1,
    .call 1]

/-- The context is cancelled after the second call waits. -/
def cancelledWaiting : List SemEvent :=
  contended ++ [.call 1, .call 1, .cancel 1, .trigger 1, .broadcast 1]

theorem cancelledWaiting_woken : ∃ init s, newAdaptive 1 false = some init ∧
    exec AdaptiveSemaphore.step init cancelledWaiting = some s ∧ ¬ s.Missed 1 := by
  have hrun : (exec AdaptiveSemaphore.step { limit := 1 } cancelledWaiting).isSome = true := by
    decide +kernel
  obtain ⟨s, hs⟩ := Option.isSome_iff_exists.1 hrun
  have htimely : Along AdaptiveSemaphore.step Timely { limit := 1 } cancelledWaiting := by
    decide +kernel
  have hinit : newAdaptive 1 false = some { limit := 1 } := rfl
  exact ⟨_, s, hinit, hs, cancelled_woken hinit htimely hs 1⟩

/-- The watcher broadcasts just before the second call is added to the list. The call then sleeps,
and nothing is under way that could wake it. -/
theorem earlyBroadcast_missed : ∃ init s, newAdaptive 1 false = some init ∧
    exec AdaptiveSemaphore.step init
      (contended ++ [.cancel 1, .trigger 1, .broadcast 1, .call 1, .call 1]) = some s ∧
    s.Missed 1 ∧ s.mu = none ∧
    ∀ j c, s.calls[j]? = some c → j ≠ 1 → c.phase = .returned true ∧ c.watcher = .absent := by
  refine ⟨_, { limit := 1, count := 1, waiting := [1], cancelled := [1], calls := [
    { op := .acquire 0, phase := .returned true },
    { op := .acquire 1, phase := .parked, watcher := .broadcasted }] }, rfl, ?_, ?_, rfl, ?_⟩
  · decide +kernel
  · exact ⟨_, rfl, rfl, rfl, rfl, List.mem_singleton_self 1⟩
  · intro j c hj hne
    match j with
    | 0 =>
      cases hj
      exact ⟨rfl, rfl⟩
    | 1 => exact absurd rfl hne
    | j + 2 => cases hj

end AdaptiveSemaphore
end BatchGateway
