import BatchGateway.Events.Client

/-! The locks of the event client. A delivery that holds the lock of its subscriber has room for what
it selected, and in its loop the subscriber is the current one, whose channel is open. -/
namespace BatchGateway

open Interleaving

namespace DeliveryPhase

/-- The subscriber of a delivery. -/
def target : DeliveryPhase → Option Nat
  | locking k | checking k | draining k _ | entering k _ | delivering k _ _ | acking k _
  | unlocking k => some k
  | looking | returned => none

/-- The delivery holds the lock of its subscriber. -/
def holding : DeliveryPhase → Bool
  | checking _ | draining _ _ | entering _ _ | delivering _ _ _ | acking _ _ | unlocking _ => true
  | looking | locking _ | returned => false

/-- How many events the delivery is going to put at most. -/
def load : DeliveryPhase → Nat
  | draining _ capacity => capacity
  | entering _ events | delivering _ events _ => events.length
  | looking | locking _ | checking _ | acking _ _ | unlocking _ | returned => 0

end DeliveryPhase

namespace EventClient

variable {s t : EventClient} {i k : Nat} {c : DeliveryCall} {sub : EventSub}

/-- What holds of the subscriber of a delivery. -/
structure TargetOk (i : Nat) (c : DeliveryCall) (sub : EventSub) : Prop where
  job : sub.jobID = c.jobID
  locked : c.phase.holding = true → sub.deliveryMu = some i
  room : c.phase.holding = true → c.phase.load ≤ eventChanBufSize - sub.ch.length

structure CallOk (s : EventClient) (i : Nat) (c : DeliveryCall) : Prop where
  target : ∀ k, c.phase.target = some k → ∃ sub, s.subs[k]? = some sub ∧ TargetOk i c sub
  /-- The first selection for a subscriber has the whole channel for it. -/
  whole : ∀ k capacity, c.phase = .draining k capacity → (∀ p ∈ s.puts, p.sub ≠ k) →
    capacity = eventChanBufSize
  loop : ∀ k events accepted, c.phase = .delivering k events accepted →
    s.eventsMu = some i ∧ s.current c.jobID = some k

structure Control (s : EventClient) : Prop where
  calls : ∀ (i : Nat) (c : DeliveryCall), s.calls[i]? = some c → CallOk s i c
  current : ∀ jobID k, s.current jobID = some k →
    ∃ sub, s.subs[k]? = some sub ∧ sub.jobID = jobID ∧ sub.closed = false
  closing : ∀ (q : Nat) (call : CloseCall), s.closes[q]? = some call →
    call.sub < s.subs.length ∧ (call.phase ≠ .removing → ∀ jobID, s.current jobID ≠ some call.sub)
  puts : ∀ p ∈ s.puts, ∃ sub, s.subs[p.sub]? = some sub ∧ sub.jobID = p.jobID
  unused : ∀ (k : Nat) (sub : EventSub), s.subs[k]? = some sub → (∀ p ∈ s.puts, p.sub ≠ k) →
    sub.ch = []
  panicked : s.panicked = false

theorem TargetOk.mono {sub' : EventSub} (h : TargetOk i c sub) (hjob : sub'.jobID = sub.jobID)
    (hheld : sub.deliveryMu = some i →
      sub'.deliveryMu = some i ∧ sub'.ch.length ≤ sub.ch.length) : TargetOk i c sub' := by
  refine ⟨hjob.trans h.job, fun hh => (hheld (h.locked hh)).1, fun hh => ?_⟩
  have hroom := h.room hh
  have hlen := (hheld (h.locked hh)).2
  omega

/-- What a step of the delivery `i` leaves to the others. -/
structure Frame (s t : EventClient) (i : Nat) : Prop where
  length : t.subs.length = s.subs.length
  subs : ∀ (k : Nat) (sub' : EventSub), t.subs[k]? = some sub' → ∃ sub, s.subs[k]? = some sub ∧
    sub'.jobID = sub.jobID ∧ sub'.closed = sub.closed ∧
    ((∀ p ∈ t.puts, p.sub ≠ k) → sub.ch = [] → sub'.ch = []) ∧
    ∀ j, j ≠ i → sub.deliveryMu = some j →
      sub'.deliveryMu = some j ∧ sub'.ch.length ≤ sub.ch.length
  eventSubs : t.eventSubs = s.eventSubs
  closes : t.closes = s.closes
  puts : ∀ p ∈ s.puts, p ∈ t.puts
  mutex : ∀ j, j ≠ i → s.eventsMu = some j → t.eventsMu = some j

theorem current_congr (h : t.eventSubs = s.eventSubs) (jobID : String) :
    t.current jobID = s.current jobID := by
  unfold current
  rw [h]

/-- The subscribers before a step are there after it. -/
theorem Frame.kept (h : Frame s t i) (hk : s.subs[k]? = some sub) :
    ∃ sub', t.subs[k]? = some sub' ∧ sub'.jobID = sub.jobID ∧ sub'.closed = sub.closed ∧
      ∀ j, j ≠ i → sub.deliveryMu = some j →
        sub'.deliveryMu = some j ∧ sub'.ch.length ≤ sub.ch.length := by
  have hlt : k < t.subs.length := by
    rw [h.length]
    exact (List.getElem?_eq_some_iff.1 hk).1
  obtain ⟨sub₀, hk₀, hjob, hclosed, -, hheld⟩ := h.subs k _ (List.getElem?_eq_getElem hlt)
  cases hk.symm.trans hk₀
  exact ⟨_, List.getElem?_eq_getElem hlt, hjob, hclosed, hheld⟩

theorem Frame.put (h : Frame s t i) {p : EventPut}
    (hp : ∃ sub, s.subs[p.sub]? = some sub ∧ sub.jobID = p.jobID) :
    ∃ sub, t.subs[p.sub]? = some sub ∧ sub.jobID = p.jobID := by
  obtain ⟨sub, hsub, hjob⟩ := hp
  obtain ⟨sub', hsub', hjob', -⟩ := h.kept hsub
  exact ⟨sub', hsub', hjob'.trans hjob⟩

theorem CallOk.frame {j : Nat} (h : CallOk s j c) (hframe : Frame s t i) (hj : j ≠ i) :
    CallOk t j c where
  target k hk := by
    obtain ⟨sub, hsub, hok⟩ := h.target k hk
    obtain ⟨sub', hsub', hjob, -, hheld⟩ := hframe.kept hsub
    exact ⟨sub', hsub', hok.mono hjob (hheld j hj)⟩
  whole k capacity hk hputs := h.whole k capacity hk fun p hp => hputs p (hframe.puts p hp)
  loop k events accepted hk := by
    obtain ⟨hmu, hcurrent⟩ := h.loop k events accepted hk
    exact ⟨hframe.mutex j hj hmu, (current_congr hframe.eventSubs _).trans hcurrent⟩

/-- What carries over from one state to the next, once the calls are checked. -/
theorem Control.of_frame (h : Control s) (hframe : Frame s t i)
    (hcalls : ∀ (j : Nat) (x : DeliveryCall), t.calls[j]? = some x → CallOk t j x)
    (hputs : ∀ p ∈ t.puts, ∃ sub, s.subs[p.sub]? = some sub ∧ sub.jobID = p.jobID)
    (hpanicked : t.panicked = s.panicked) : Control t where
  calls := hcalls
  current jobID k hk := by
    rw [current_congr hframe.eventSubs] at hk
    obtain ⟨sub, hsub, hjob, hopen⟩ := h.current jobID k hk
    obtain ⟨sub', hsub', hjob', hclosed, -⟩ := hframe.kept hsub
    exact ⟨sub', hsub', hjob'.trans hjob, hclosed.trans hopen⟩
  closing q call hq := by
    rw [hframe.closes] at hq
    obtain ⟨hlt, hclosing⟩ := h.closing q call hq
    refine ⟨hframe.length ▸ hlt, fun hphase jobID => ?_⟩
    rw [current_congr hframe.eventSubs]
    exact hclosing hphase jobID
  puts p hp := hframe.put (hputs p hp)
  unused k sub' hk hunused := by
    obtain ⟨sub, hsub, -, -, hch, -⟩ := hframe.subs k sub' hk
    exact hch hunused (h.unused k sub hsub fun p hp => hunused p (hframe.puts p hp))
  panicked := hpanicked.trans h.panicked

/-- A step of one delivery. -/
theorem Control.advance (h : Control s) (hframe : Frame s t i) {c' : DeliveryCall}
    (hcalls : t.calls = s.calls.set i c') (hself : CallOk t i c')
    (hputs : ∀ p ∈ t.puts, ∃ sub, s.subs[p.sub]? = some sub ∧ sub.jobID = p.jobID)
    (hpanicked : t.panicked = s.panicked) : Control t := by
  refine h.of_frame hframe (fun j x hj => ?_) hputs hpanicked
  rw [hcalls] at hj
  rcases getElem?_set_cases hj with ⟨rfl, rfl⟩ | ⟨hne, hj⟩
  · exact hself
  · exact (h.calls j x hj).frame hframe hne

/-- A step that changes no subscriber and puts nothing. -/
theorem Frame.of_subs (hsubs : t.subs = s.subs) (heventSubs : t.eventSubs = s.eventSubs)
    (hcloses : t.closes = s.closes) (hputs : t.puts = s.puts)
    (hmutex : ∀ j, j ≠ i → s.eventsMu = some j → t.eventsMu = some j) : Frame s t i where
  length := by rw [hsubs]
  subs k sub' hk := by
    rw [hsubs] at hk
    exact ⟨sub', hk, rfl, rfl, fun _ hch => hch, fun _ _ hj => ⟨hj, Nat.le_refl _⟩⟩
  eventSubs := heventSubs
  closes := hcloses
  puts p hp := hputs ▸ hp
  mutex := hmutex

theorem Control.setPhase (h : Control s) {phase : DeliveryPhase}
    (hcalls : t.calls = s.calls.set i { c with phase })
    (hsubs : t.subs = s.subs) (heventSubs : t.eventSubs = s.eventSubs)
    (hcloses : t.closes = s.closes) (hputs : t.puts = s.puts) (hpanicked : t.panicked = s.panicked)
    (hmutex : ∀ j, j ≠ i → s.eventsMu = some j → t.eventsMu = some j)
    (hself : CallOk t i { c with phase }) : Control t :=
  h.advance (.of_subs hsubs heventSubs hcloses hputs hmutex) hcalls hself (hputs ▸ h.puts) hpanicked

/-- A delivery goes on with the lock of its subscriber and with less to put. -/
theorem CallOk.hold {phase : DeliveryPhase} (h : CallOk s i c) (htarget : c.phase.target = some k)
    (hholding : c.phase.holding = true) (hsubs : t.subs = s.subs) (hphase : phase.target = some k)
    (hload : phase.load ≤ c.phase.load)
    (hdraining : ∀ capacity, phase ≠ .draining k capacity)
    (hloop : ∀ events accepted, phase = .delivering k events accepted →
      t.eventsMu = some i ∧ t.current c.jobID = some k) : CallOk t i { c with phase } where
  target k' hk' := by
    cases hphase.symm.trans hk'
    obtain ⟨sub, hsub, hok⟩ := h.target k htarget
    refine ⟨sub, hsubs ▸ hsub, hok.job, fun _ => hok.locked hholding, fun _ => ?_⟩
    exact hload.trans (hok.room hholding)
  whole k' capacity hk' := by
    have hphase' : phase = .draining k' capacity := hk'
    rw [hphase'] at hphase
    cases hphase
    exact absurd hphase' (hdraining capacity)
  loop k' events accepted hk' := by
    have hphase' : phase = .delivering k' events accepted := hk'
    rw [hphase'] at hphase
    cases hphase
    exact hloop events accepted hphase'

/-- A delivery changes the subscriber that it locks or has locked. -/
theorem Frame.setSub {sub' : EventSub} (hk : s.subs[k]? = some sub)
    (hsubs : t.subs = s.subs.set k sub') (hjob : sub'.jobID = sub.jobID)
    (hclosed : sub'.closed = sub.closed) (hch : (∀ p ∈ t.puts, p.sub ≠ k) → sub'.ch = sub.ch)
    (hfree : ∀ j, j ≠ i → sub.deliveryMu ≠ some j) (heventSubs : t.eventSubs = s.eventSubs)
    (hcloses : t.closes = s.closes) (hputs : ∀ p ∈ s.puts, p ∈ t.puts)
    (hmutex : t.eventsMu = s.eventsMu) : Frame s t i where
  length := by rw [hsubs, List.length_set]
  subs k' x hk' := by
    rw [hsubs] at hk'
    rcases getElem?_set_cases hk' with ⟨rfl, rfl⟩ | ⟨-, hx⟩
    · exact ⟨sub, hk, hjob, hclosed, fun hunused hnil => (hch hunused).trans hnil,
        fun j hj hmu => absurd hmu (hfree j hj)⟩
    · exact ⟨x, hx, rfl, rfl, fun _ hnil => hnil, fun _ _ hmu => ⟨hmu, Nat.le_refl _⟩⟩
  eventSubs := heventSubs
  closes := hcloses
  puts := hputs
  mutex _ _ hj := hmutex.trans hj

theorem drainJobEvents_length (jobID : String) (limit : Nat) :
    (s.drainJobEvents jobID limit).length ≤ limit := by
  unfold drainJobEvents
  exact List.length_take_le ..

/-- After its loop a delivery still has the lock of its subscriber. -/
theorem Control.leaveLoop (h : Control s) (hi : s.calls[i]? = some c)
    {events : List PendingBatchEvent} {accepted : List Nat}
    (hphase : c.phase = .delivering k events accepted) :
    Control (s.leaveLoop i c k accepted) := by
  have hok := h.calls i c hi
  have hmu := (hok.loop k events accepted hphase).1
  have htarget : c.phase.target = some k := by rw [hphase]; rfl
  have hholding : c.phase.holding = true := by rw [hphase]; rfl
  refine h.setPhase rfl rfl rfl rfl rfl rfl (fun j hj hmu' => ?_) ?_
  · rw [hmu] at hmu'
    exact absurd (Option.some.inj hmu').symm hj
  · split
    · exact hok.hold htarget hholding rfl rfl (Nat.zero_le _) nofun nofun
    · exact hok.hold htarget hholding rfl rfl (Nat.zero_le _) nofun nofun

/-- The delivery gives up what it selected, with the lock of its subscriber. -/
theorem Control.giveUp (h : Control s) (hi : s.calls[i]? = some c)
    (htarget : c.phase.target = some k) (hholding : c.phase.holding = true) :
    Control (s.setPhase i c (.unlocking k)) :=
  h.setPhase rfl rfl rfl rfl rfl rfl (fun _ _ hj => hj)
    ((h.calls i c hi).hold htarget hholding rfl rfl (Nat.zero_le _) nofun nofun)

/-- The steps of a delivery. -/
inductive Delivers (s : EventClient) (i : Nat) (c : DeliveryCall) : EventClient → Prop where
  | absent (hphase : c.phase = .looking) : Delivers s i c (s.setPhase i c .returned)
  | look {k : Nat} (hphase : c.phase = .looking) (hk : s.current c.jobID = some k) :
      Delivers s i c (s.setPhase i c (.locking k))
  | lock {k : Nat} {sub : EventSub} (hphase : c.phase = .locking k)
      (hsub : s.subs[k]? = some sub) (hfree : sub.deliveryMu = none) :
      Delivers s i c ((s.setSub k { sub with deliveryMu := some i }).setPhase i c (.checking k))
  | skip {k : Nat} (hphase : c.phase = .checking k) :
      Delivers s i c (s.setPhase i c (.unlocking k))
  | measure {k : Nat} {sub : EventSub} (hphase : c.phase = .checking k)
      (hsub : s.subs[k]? = some sub) :
      Delivers s i c (s.setPhase i c (.draining k (eventChanBufSize - sub.ch.length)))
  | empty {k capacity : Nat} (hphase : c.phase = .draining k capacity) :
      Delivers s i c (s.setPhase i c (.unlocking k))
  | select {k capacity : Nat} (hphase : c.phase = .draining k capacity) :
      Delivers s i c (s.setPhase i c (.entering k (s.drainJobEvents c.jobID capacity)))
  | lose {k : Nat} {events : List PendingBatchEvent} (hphase : c.phase = .entering k events)
      (hcurrent : s.current c.jobID ≠ some k) : Delivers s i c (s.setPhase i c (.unlocking k))
  | enter {k : Nat} {events : List PendingBatchEvent} (hphase : c.phase = .entering k events)
      (hfree : s.eventsMu = none) (hcurrent : s.current c.jobID = some k) :
      Delivers s i c { s.setPhase i c (.delivering k events []) with eventsMu := some i }
  | leave {k : Nat} {accepted : List Nat} (hphase : c.phase = .delivering k [] accepted) :
      Delivers s i c (s.leaveLoop i c k accepted)
  | put {k : Nat} {e : PendingBatchEvent} {events : List PendingBatchEvent}
      {accepted : List Nat} {sub : EventSub}
      (hphase : c.phase = .delivering k (e :: events) accepted) (hsub : s.subs[k]? = some sub) :
      Delivers s i c
        ((s.send c.jobID k sub e).setPhase i c (.delivering k events (accepted ++ [e.id])))
  | unacked {k : Nat} {accepted : List Nat} (hphase : c.phase = .acking k accepted) :
      Delivers s i c (s.setPhase i c (.unlocking k))
  | ack {k : Nat} {accepted : List Nat} (hphase : c.phase = .acking k accepted) :
      Delivers s i c ((s.ackEvents c.jobID accepted).setPhase i c (.unlocking k))
  | unlock {k : Nat} {sub : EventSub} (hphase : c.phase = .unlocking k)
      (hsub : s.subs[k]? = some sub) :
      Delivers s i c ((s.setSub k { sub with deliveryMu := none }).setPhase i c .returned)

/-- There is room for everything that was selected, on a channel that is open. -/
theorem Control.room (h : Control s) (hi : s.calls[i]? = some c) (hsub : s.subs[k]? = some sub)
    {e : PendingBatchEvent} {events : List PendingBatchEvent} {accepted : List Nat}
    (hphase : c.phase = .delivering k (e :: events) accepted) :
    sub.closed = false ∧ sub.ch.length < eventChanBufSize := by
  have hok := h.calls i c hi
  obtain ⟨sub₀, hsub₀, -, hopen⟩ := h.current c.jobID k (hok.loop k _ _ hphase).2
  cases hsub.symm.trans hsub₀
  obtain ⟨sub₁, hsub₁, htarget⟩ := hok.target k (by rw [hphase]; rfl)
  cases hsub.symm.trans hsub₁
  have hroom := htarget.room (by rw [hphase]; rfl)
  rw [hphase] at hroom
  simp only [DeliveryPhase.load, List.length_cons] at hroom
  exact ⟨hopen, by omega⟩

theorem Control.delivers {fails applied : Bool} (h : Control s) (hi : s.calls[i]? = some c)
    (hs : s.stepDelivery i fails applied c = some t) : Delivers s i c t := by
  unfold EventClient.stepDelivery at hs
  split at hs
  next hphase =>
    split at hs
    · cases hs
    · split at hs <;> cases hs
      · exact .absent hphase
      next hk => exact .look hphase hk
  next hphase =>
    obtain ⟨sub, hsub, hs⟩ := Option.bind_eq_some_iff.1 hs
    split at hs <;> cases hs
    next hfree => exact .lock hphase hsub (not_not.1 hfree)
  next hphase =>
    obtain ⟨sub, hsub, hs⟩ := Option.bind_eq_some_iff.1 hs
    split at hs
    · cases hs
    · split at hs
      · cases hs
        exact .skip hphase
      · split at hs <;> cases hs
        · exact .skip hphase
        · exact .measure hphase hsub
  next hphase =>
    split at hs
    · cases hs
      exact .empty hphase
    · split at hs <;> cases hs
      · exact .empty hphase
      next hevents =>
        rw [← hevents]
        exact .select hphase
  next hphase =>
    split at hs
    · cases hs
    next hfree =>
      split at hs <;> cases hs
      next hcurrent => exact .lose hphase hcurrent
      next hcurrent => exact .enter hphase (not_not.1 hfree) (not_not.1 hcurrent)
  next hphase =>
    cases hs
    exact .leave hphase
  next hphase =>
    obtain ⟨sub, hsub, hs⟩ := Option.bind_eq_some_iff.1 hs
    obtain ⟨hopen, hroom⟩ := h.room hi hsub hphase
    rw [hopen, if_neg nofun, if_pos hroom] at hs
    cases hs
    exact .put hphase hsub
  next hphase =>
    split at hs <;> cases hs
    · exact .unacked hphase
    · exact .ack hphase
  next hphase =>
    obtain ⟨sub, hsub, hs⟩ := Option.bind_eq_some_iff.1 hs
    cases hs
    exact .unlock hphase hsub
  next => cases hs

theorem Control.step_delivers (h : Control s) (hi : s.calls[i]? = some c)
    (hs : Delivers s i c t) : Control t := by
  have hok := h.calls i c hi
  cases hs with
  | absent =>
    exact h.setPhase rfl rfl rfl rfl rfl rfl (fun _ _ hj => hj) ⟨nofun, nofun, nofun⟩
  | @look k _ hk =>
    obtain ⟨sub, hsub, hjob, -⟩ := h.current c.jobID k hk
    refine h.setPhase rfl rfl rfl rfl rfl rfl (fun _ _ hj => hj) ⟨fun k' hk' => ?_, nofun, nofun⟩
    cases hk'
    exact ⟨sub, hsub, hjob, nofun, nofun⟩
  | @lock k sub hphase hsub hfree =>
    obtain ⟨sub₀, hsub₀, htarget⟩ := hok.target k (by rw [hphase]; rfl)
    cases hsub.symm.trans hsub₀
    have hlt : k < s.subs.length := (List.getElem?_eq_some_iff.1 hsub).1
    refine h.advance (.setSub hsub rfl rfl rfl (fun _ => rfl) (fun j _ => ?_) rfl rfl
      (fun _ hp => hp) rfl) rfl ⟨fun k' hk' => ?_, nofun, nofun⟩ h.puts rfl
    · rw [hfree]
      nofun
    · cases hk'
      exact ⟨_, List.getElem?_set_self hlt, htarget.job, fun _ => rfl, fun _ => Nat.zero_le _⟩
  | skip hphase | empty hphase | lose hphase | unacked hphase =>
    exact h.giveUp hi (by rw [hphase]; rfl) (by rw [hphase]; rfl)
  | @measure k sub hphase hsub =>
    refine h.setPhase rfl rfl rfl rfl rfl rfl (fun _ _ hj => hj)
      ⟨fun k' hk' => ?_, fun k' capacity hk' hunused => ?_, nofun⟩
    · cases hk'
      obtain ⟨sub₀, hsub₀, hold⟩ := hok.target k (by rw [hphase]; rfl)
      cases hsub.symm.trans hsub₀
      exact ⟨sub, hsub, hold.job, fun _ => hold.locked (by rw [hphase]; rfl),
        fun _ => Nat.le_refl _⟩
    · cases hk'
      rw [h.unused k sub hsub hunused]
      rfl
  | select hphase =>
    refine h.setPhase rfl rfl rfl rfl rfl rfl (fun _ _ hj => hj)
      (hok.hold (by rw [hphase]; rfl) (by rw [hphase]; rfl) rfl rfl ?_ nofun nofun)
    rw [hphase]
    exact s.drainJobEvents_length c.jobID _
  | enter hphase hfree hcurrent =>
    refine h.setPhase rfl rfl rfl rfl rfl rfl (fun j _ hj => ?_) (hok.hold (by rw [hphase]; rfl)
      (by rw [hphase]; rfl) rfl rfl ?_ nofun fun _ _ _ => ⟨rfl, hcurrent⟩)
    · rw [hfree] at hj
      cases hj
    · rw [hphase]
      exact Nat.le_refl _
  | leave hphase => exact h.leaveLoop hi hphase
  | @put k e events accepted sub hphase hsub =>
    obtain ⟨sub₁, hsub₁, htarget⟩ := hok.target k (by rw [hphase]; rfl)
    cases hsub.symm.trans hsub₁
    have hlocked := htarget.locked (by rw [hphase]; rfl)
    have hroom := htarget.room (by rw [hphase]; rfl)
    have hlt : k < s.subs.length := (List.getElem?_eq_some_iff.1 hsub).1
    refine h.advance (.setSub hsub rfl rfl rfl (fun hunused => ?_) (fun j hj => ?_) rfl rfl
      (fun _ hp => List.mem_append_left _ hp) rfl) rfl
      ⟨fun k' hk' => ?_, nofun, fun k' ev acc hk' => ?_⟩ (fun p hp => ?_) rfl
    · exact absurd rfl (hunused _ (List.mem_append_right _ (List.mem_singleton.2 rfl)))
    · rw [hlocked]
      exact fun heq => hj (Option.some.inj heq).symm
    · cases hk'
      refine ⟨_, List.getElem?_set_self hlt, htarget.job, fun _ => hlocked, fun _ => ?_⟩
      rw [hphase] at hroom
      simp only [DeliveryPhase.load, List.length_append, List.length_cons, List.length_nil]
        at hroom ⊢
      omega
    · cases hk'
      exact hok.loop k _ _ hphase
    · rcases List.mem_append.1 hp with hp | hp
      · exact h.puts p hp
      · cases List.mem_singleton.1 hp
        exact ⟨sub, hsub, htarget.job⟩
  | ack hphase =>
    exact h.setPhase rfl rfl rfl rfl rfl rfl (fun _ _ hj => hj)
      (hok.hold (by rw [hphase]; rfl) (by rw [hphase]; rfl) rfl rfl (Nat.zero_le _) nofun nofun)
  | @unlock k sub hphase hsub =>
    obtain ⟨sub₀, hsub₀, htarget⟩ := hok.target k (by rw [hphase]; rfl)
    cases hsub.symm.trans hsub₀
    refine h.advance (.setSub hsub rfl rfl rfl (fun _ => rfl) (fun j hj => ?_) rfl rfl
      (fun _ hp => hp) rfl) rfl ⟨nofun, nofun, nofun⟩ h.puts rfl
    rw [htarget.locked (by rw [hphase]; rfl)]
    exact fun heq => hj (Option.some.inj heq).symm

/-! ### The other steps -/

/-- A step that is not one of a delivery. A call may be spawned. -/
theorem Control.quiet (h : Control s) (hframe : Frame s t s.calls.length)
    (hcalls : ∀ (j : Nat) (x : DeliveryCall), t.calls[j]? = some x →
      s.calls[j]? = some x ∨ x.phase = .looking)
    (hputs : t.puts = s.puts) (hpanicked : t.panicked = s.panicked) : Control t := by
  refine h.of_frame hframe (fun j x hj => ?_) (hputs ▸ h.puts) hpanicked
  rcases hcalls j x hj with hx | hphase
  · have hlt : j < s.calls.length := (List.getElem?_eq_some_iff.1 hx).1
    exact (h.calls j x hx).frame hframe (Nat.ne_of_lt hlt)
  · refine ⟨?_, ?_, ?_⟩ <;> rw [hphase] <;> nofun

theorem current_setCurrent {jobID : String} (j : String)
    (h : t.eventSubs = s.setCurrent jobID k) :
    t.current j = if j = jobID then some k else s.current j := by
  unfold current
  rw [h]
  unfold setCurrent
  by_cases hj : j = jobID
  · rw [if_pos hj, List.find?_cons_of_pos (by simp [hj])]
    rfl
  · rw [if_neg hj, List.find?_cons_of_neg (by simp [Ne.symm hj]), List.find?_filter]
    congr 2
    funext x
    by_cases hx : x.1 = j
    · simp [hx, hj]
    · simp [hx]

theorem current_remove {jobID : String} (j : String)
    (h : t.eventSubs = s.eventSubs.filter (·.1 ≠ jobID)) :
    t.current j = if j = jobID then none else s.current j := by
  unfold current
  rw [h, List.find?_filter]
  by_cases hj : j = jobID
  · rw [if_pos hj, Option.map_eq_none_iff, List.find?_eq_none]
    simp [hj]
  · rw [if_neg hj]
    congr 2
    funext x
    by_cases hx : x.1 = j
    · simp [hx, hj]
    · simp [hx]

/-- A subscriber is added, and is the current one of its job. -/
theorem Control.subscribe {jobID : String} (h : Control s) (hmu : s.eventsMu = none)
    (hcalls : t.calls = s.calls ++ [{ jobID := jobID }])
    (hsubs : t.subs = s.subs ++ [{ jobID, opening := s.calls.length }])
    (hcurrent : ∀ j, t.current j = if j = jobID then some s.subs.length else s.current j)
    (hcloses : t.closes = s.closes) (hputs : t.puts = s.puts)
    (hpanicked : t.panicked = s.panicked) : Control t := by
  have hold : ∀ {k : Nat} {sub : EventSub}, s.subs[k]? = some sub → t.subs[k]? = some sub := by
    intro k sub hk
    rw [hsubs, List.getElem?_append_left (List.getElem?_eq_some_iff.1 hk).1]
    exact hk
  have hnew : t.subs[s.subs.length]? = some { jobID, opening := s.calls.length } := by
    rw [hsubs, List.getElem?_append_right (Nat.le_refl _), Nat.sub_self]
    rfl
  have hlength : t.subs.length = s.subs.length + 1 := by
    rw [hsubs, List.length_append]
    rfl
  have hkept : ∀ j k, k < s.subs.length → t.current j = some k → s.current j = some k := by
    intro j k hk hj
    rw [hcurrent j] at hj
    split at hj
    · have := Option.some.inj hj
      omega
    · exact hj
  refine ⟨fun j x hj => ?_, fun j k hk => ?_, fun q call hq => ?_, fun p hp => ?_,
    fun k sub hk hp => ?_,
    hpanicked.trans h.panicked⟩
  · rw [hcalls] at hj
    rcases getElem?_snoc_cases hj with ⟨-, rfl⟩ | ⟨-, hx⟩
    · exact ⟨nofun, nofun, nofun⟩
    · have hok := h.calls j x hx
      refine ⟨fun k hk => ?_, fun k capacity hk hunused => ?_, fun k events accepted hk => ?_⟩
      · obtain ⟨sub, hsub, htarget⟩ := hok.target k hk
        exact ⟨sub, hold hsub, htarget⟩
      · exact hok.whole k capacity hk (hputs ▸ hunused)
      · rw [(hok.loop k events accepted hk).1] at hmu
        cases hmu
  · rw [hcurrent j] at hk
    split at hk
    next hj =>
      cases hk
      exact ⟨_, hnew, hj.symm, rfl⟩
    next =>
      obtain ⟨sub, hsub, hok⟩ := h.current j k hk
      exact ⟨sub, hold hsub, hok⟩
  · rw [hcloses] at hq
    obtain ⟨hlt, hclosing⟩ := h.closing q call hq
    exact ⟨hlength ▸ Nat.lt_succ_of_lt hlt,
      fun hphase j hj => hclosing hphase j (hkept j call.sub hlt hj)⟩
  · obtain ⟨sub, hsub, hjob⟩ := h.puts p (hputs ▸ hp)
    exact ⟨sub, hold hsub, hjob⟩
  · rw [hsubs] at hk
    rcases getElem?_snoc_cases hk with ⟨-, rfl⟩ | ⟨-, hk⟩
    · rfl
    · exact h.unused k sub hk (hputs ▸ hp)

theorem Control.stepClose {q : Nat} {call : CloseCall} (h : Control s)
    (hq : s.closes[q]? = some call) (hs : s.stepClose q call = some t) : Control t := by
  obtain ⟨hlt, hclosing⟩ := h.closing q call hq
  unfold EventClient.stepClose at hs
  split at hs
  next hphase =>
    obtain ⟨sub, hsub, hs⟩ := Option.bind_eq_some_iff.1 hs
    split at hs
    · cases hs
    next hfree =>
      have hmu : s.eventsMu = none := not_not.1 hfree
      obtain ⟨eventSubs, heventSubs⟩ : ∃ x, x = if s.current sub.jobID = some call.sub
        then s.eventSubs.filter (·.1 ≠ sub.jobID) else s.eventSubs := ⟨_, rfl⟩
      rw [← heventSubs] at hs
      cases hs
      -- Only the job of the subscriber may lose its entry.
      have hcurrent : ∀ j k, EventClient.current { s with
          eventSubs, closes := s.closes.set q { call with phase := .closing } } j = some k →
          s.current j = some k ∧ k ≠ call.sub := by
        intro j k hk
        by_cases hcur : s.current sub.jobID = some call.sub
        · rw [if_pos hcur] at heventSubs
          rw [current_remove (s := s) j heventSubs] at hk
          split at hk
          · cases hk
          next hj =>
            refine ⟨hk, ?_⟩
            rintro rfl
            obtain ⟨sub', hsub', hjob, -⟩ := h.current j _ hk
            cases hsub.symm.trans hsub'
            exact hj hjob.symm
        · rw [if_neg hcur] at heventSubs
          rw [current_congr (s := s) heventSubs] at hk
          refine ⟨hk, ?_⟩
          rintro rfl
          obtain ⟨sub', hsub', hjob, -⟩ := h.current j _ hk
          cases hsub.symm.trans hsub'
          exact hcur (hjob ▸ hk)
      refine ⟨fun j x hj => ?_, fun j k hk => h.current j k (hcurrent j k hk).1,
        fun q' call' hq' => ?_,
        h.puts, h.unused, h.panicked⟩
      · have hok := h.calls j x hj
        refine ⟨hok.target, hok.whole, fun k events accepted hk => ?_⟩
        rw [(hok.loop k events accepted hk).1] at hmu
        cases hmu
      · rcases getElem?_set_cases hq' with ⟨rfl, rfl⟩ | ⟨-, hq'⟩
        · exact ⟨hlt, fun _ j hj => (hcurrent j _ hj).2 rfl⟩
        · obtain ⟨hlt', hclosing'⟩ := h.closing q' call' hq'
          exact ⟨hlt', fun hphase' j hj => hclosing' hphase' j (hcurrent j _ hj).1⟩
  next hphase =>
    obtain ⟨sub, hsub, hs⟩ := Option.bind_eq_some_iff.1 hs
    cases hs
    have hgone : ∀ j, s.current j ≠ some call.sub := hclosing (by rw [hphase]; nofun)
    refine ⟨fun j x hj => ?_, fun j k hk => ?_, fun q' call' hq' => ?_, fun p hp => ?_,
      fun k sub' hk hunused => ?_, h.panicked⟩
    · have hok := h.calls j x hj
      refine ⟨fun k hk => ?_, hok.whole, hok.loop⟩
      obtain ⟨sub', hsub', htarget⟩ := hok.target k hk
      by_cases hks : k = call.sub
      · subst hks
        cases hsub.symm.trans hsub'
        exact ⟨_, List.getElem?_set_self hlt, htarget.mono rfl fun hmu => ⟨hmu, Nat.le_refl _⟩⟩
      · exact ⟨sub', (List.getElem?_set_ne (Ne.symm hks)).trans hsub', htarget⟩
    · obtain ⟨sub', hsub', hok⟩ := h.current j k hk
      have hks : call.sub ≠ k := fun heq => hgone j (heq ▸ hk)
      exact ⟨sub', (List.getElem?_set_ne hks).trans hsub', hok⟩
    · change call'.sub < (s.subs.set call.sub _).length ∧ _
      rw [List.length_set]
      rcases getElem?_set_cases hq' with ⟨rfl, rfl⟩ | ⟨-, hq'⟩
      · exact ⟨hlt, fun _ => hgone⟩
      · exact h.closing q' call' hq'
    · obtain ⟨sub', hsub', hjob⟩ := h.puts p hp
      by_cases hks : p.sub = call.sub
      · rw [hks] at hsub' ⊢
        cases hsub.symm.trans hsub'
        exact ⟨_, List.getElem?_set_self hlt, hjob⟩
      · exact ⟨sub', (List.getElem?_set_ne (Ne.symm hks)).trans hsub', hjob⟩
    · rcases getElem?_set_cases hk with ⟨rfl, rfl⟩ | ⟨-, hk⟩
      · exact h.unused call.sub sub hsub hunused
      · exact h.unused k sub' hk hunused
  next => cases hs

theorem control_initial (now : Int) : Control { now } where
  calls _ _ hi := nomatch hi
  current _ _ hk := nomatch hk
  closing _ _ hq := nomatch hq
  puts _ hp := nomatch hp
  unused _ _ hk := nomatch hk
  panicked := rfl

theorem Control.spawn (h : Control s) {jobID : String}
    (hcalls : t.calls = s.calls ++ [{ jobID := jobID }]) (hsubs : t.subs = s.subs)
    (heventSubs : t.eventSubs = s.eventSubs) (hcloses : t.closes = s.closes)
    (hputs : t.puts = s.puts) (hmutex : t.eventsMu = s.eventsMu)
    (hpanicked : t.panicked = s.panicked) : Control t := by
  refine h.quiet (.of_subs hsubs heventSubs hcloses hputs fun _ _ hj => hmutex.trans hj)
    (fun j x hj => ?_) hputs hpanicked
  rw [hcalls] at hj
  rcases getElem?_snoc_cases hj with ⟨-, rfl⟩ | ⟨-, hx⟩
  · exact .inr rfl
  · exact .inl hx

theorem Control.same (h : Control s) (hcalls : t.calls = s.calls) (hsubs : t.subs = s.subs)
    (heventSubs : t.eventSubs = s.eventSubs) (hcloses : t.closes = s.closes)
    (hputs : t.puts = s.puts) (hmutex : t.eventsMu = s.eventsMu)
    (hpanicked : t.panicked = s.panicked) : Control t :=
  h.quiet (.of_subs hsubs heventSubs hcloses hputs fun _ _ hj => hmutex.trans hj)
    (fun _ _ hj => .inl (hcalls ▸ hj)) hputs hpanicked

theorem Control.step {e : ClientEvent} (h : Control s) (hs : s.step e = some t) : Control t := by
  cases e with
  | send row =>
    obtain ⟨-, rfl⟩ := of_guarded hs
    exact h.same rfl rfl rfl rfl rfl rfl rfl
  | tick | purgeExpired =>
    cases hs
    exact h.same rfl rfl rfl rfl rfl rfl rfl
  | subscribe jobID =>
    simp only [EventClient.step, Option.ite_none_left_eq_some, Option.some.injEq, not_or,
      ne_eq, not_not] at hs
    obtain ⟨⟨hmu, -⟩, rfl⟩ := hs
    exact h.subscribe hmu rfl rfl (fun j => current_setCurrent j rfl) rfl rfl rfl
  | receive k =>
    obtain ⟨sub, hsub, hs⟩ := Option.bind_eq_some_iff.1 hs
    obtain ⟨-, rfl⟩ := of_unless hs
    refine h.quiet ⟨List.length_set .., fun k' x hx => ?_, rfl, rfl, fun _ hp => hp, fun _ _ hj => hj⟩
      (fun _ _ hj => .inl hj) rfl rfl
    rcases getElem?_set_cases hx with ⟨rfl, rfl⟩ | ⟨-, hx⟩
    · refine ⟨sub, hsub, rfl, rfl, fun _ hnil => ?_, fun _ _ hmu => ⟨hmu, ?_⟩⟩
      · change sub.ch.tail = []
        rw [hnil]
        rfl
      · change sub.ch.tail.length ≤ sub.ch.length
        rw [List.length_tail]
        exact Nat.sub_le _ _
    · exact ⟨x, hx, rfl, rfl, fun _ hnil => hnil, fun _ _ hmu => ⟨hmu, Nat.le_refl _⟩⟩
  | callClose k =>
    obtain ⟨sub, hsub, hs⟩ := Option.bind_eq_some_iff.1 hs
    obtain ⟨-, rfl⟩ := of_guarded hs
    refine ⟨fun j x hj => ?_, h.current, fun q call hq => ?_, h.puts, h.unused, h.panicked⟩
    · have hok := h.calls j x hj
      exact ⟨hok.target, hok.whole, hok.loop⟩
    · rcases getElem?_snoc_cases hq with ⟨-, rfl⟩ | ⟨-, hq⟩
      · exact ⟨(List.getElem?_eq_some_iff.1 hsub).1, fun hphase => absurd rfl hphase⟩
      · exact h.closing q call hq
  | close q =>
    obtain ⟨call, hq, hs⟩ := Option.bind_eq_some_iff.1 hs
    exact h.stepClose hq hs
  | wake | rescan =>
    obtain ⟨-, rfl⟩ := of_guarded hs
    exact h.same rfl rfl rfl rfl rfl rfl rfl
  | dispatch =>
    simp only [EventClient.step] at hs
    split at hs
    · obtain ⟨-, rfl⟩ := of_guarded hs
      exact h.same rfl rfl rfl rfl rfl rfl rfl
    · cases hs
      exact h.spawn rfl rfl rfl rfl rfl rfl rfl
    · cases hs
  | deliver i fails applied =>
    obtain ⟨c, hi, hs⟩ := Option.bind_eq_some_iff.1 hs
    exact h.step_delivers hi (h.delivers hi hs)

end EventClient
end BatchGateway
