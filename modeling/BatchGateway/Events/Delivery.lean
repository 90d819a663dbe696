import BatchGateway.Events.Control
import BatchGateway.Lib.Relay
import Mathlib.Data.List.Nodup

/-! The deliveries of one job are a relay of its rows: no row is acknowledged that was not put on the
channel of the subscriber of that moment, and a subscriber gets the rows in order and without gaps. -/
namespace BatchGateway

open Interleaving

namespace DeliveryPhase

/-- What a delivery has selected and put. -/
def batch : DeliveryPhase → Option Relay.Batch
  | entering k events => some ⟨k, [], events.map (·.id)⟩
  | delivering k events accepted => some ⟨k, accepted, events.map (·.id)⟩
  | acking k accepted => some ⟨k, accepted, []⟩
  | looking | locking _ | checking _ | draining _ _ | unlocking _ | returned => none

def events : DeliveryPhase → List PendingBatchEvent
  | entering _ events | delivering _ events _ => events
  | looking | locking _ | checking _ | draining _ _ | acking _ _ | unlocking _ | returned => []

def accepted : DeliveryPhase → List Nat
  | delivering _ _ accepted | acking _ accepted => accepted
  | looking | locking _ | checking _ | draining _ _ | entering _ _ | unlocking _ | returned => []

end DeliveryPhase

namespace EventClient

variable {s t : EventClient} {i k : Nat} {c : DeliveryCall} {sub : EventSub} {j : String}

/-- The relay of the rows of one job. -/
def view (s : EventClient) (j : String) : Relay.State where
  log := (s.inserted.filter (·.jobID = j)).map (·.id)
  visible := { n | ∃ r ∈ s.rows, r.jobID = j ∧ s.now < r.expiresAt ∧ r.id = n }
  removed := { n | ∃ r ∈ s.acked, r.jobID = j ∧ r.id = n }
  expired := { n | ∃ r ∈ s.inserted, r.jobID = j ∧ r.expiresAt ≤ s.now ∧ r.id = n }
  current := s.current j
  sent k := (s.puts.filter fun p => p.sub = k ∧ p.jobID = j).map (·.event.id)
  batch i := s.calls[i]?.bind fun c => if c.jobID = j then c.phase.batch else none

/-- What holds of the rows and of the puts. -/
structure Records (s : EventClient) : Prop where
  increasing : s.inserted.Pairwise (·.id < ·.id)
  rows : s.rows.Sublist s.inserted
  events : ∀ (i : Nat) (c : DeliveryCall), s.calls[i]? = some c → ∀ e ∈ c.phase.events,
    ∃ r ∈ s.inserted, r.jobID = c.jobID ∧ r.pending = e
  accepted : ∀ (i : Nat) (c : DeliveryCall), s.calls[i]? = some c → ∀ n ∈ c.phase.accepted,
    ∃ p ∈ s.puts, p.jobID = c.jobID ∧ p.event.id = n
  puts : ∀ p ∈ s.puts, p.current = some p.sub ∧
    ∃ r ∈ s.inserted, r.jobID = p.jobID ∧ r.pending = p.event
  acked : ∀ r ∈ s.acked, r ∈ s.inserted ∧ ∃ p ∈ s.puts, p.jobID = r.jobID ∧ p.event = r.pending

/-- The rows and the puts are as before. -/
structure Unmoved (s t : EventClient) : Prop where
  inserted : t.inserted = s.inserted
  rows : t.rows = s.rows
  puts : t.puts = s.puts
  acked : t.acked = s.acked

/-! ### The relay of a job under the steps of a delivery -/

theorem view_congr (j : String) (hu : Unmoved s t) (hnow : t.now = s.now)
    (heventSubs : t.eventSubs = s.eventSubs) :
    view t j = { view s j with batch := (view t j).batch } := by
  unfold view current
  rw [hu.rows, hu.inserted, hu.acked, hnow, heventSubs, hu.puts]

variable {phase : DeliveryPhase}

theorem batch_set (j : String) (hi : s.calls[i]? = some c)
    (hcalls : t.calls = s.calls.set i { c with phase }) : (view t j).batch =
      Function.update (view s j).batch i (if c.jobID = j then phase.batch else none) := by
  funext l
  have hlt : i < s.calls.length := (List.getElem?_eq_some_iff.1 hi).1
  unfold view
  dsimp only
  rw [hcalls]
  by_cases hl : l = i
  · rw [hl, Function.update_self, List.getElem?_set_self hlt]
    rfl
  · rw [Function.update_of_ne hl, List.getElem?_set_ne (Ne.symm hl)]

theorem batch_eq (j : String) (hi : s.calls[i]? = some c) :
    (view s j).batch i = if c.jobID = j then c.phase.batch else none := by
  unfold view
  dsimp only
  rw [hi]
  rfl

/-- A step that does not change what the delivery has selected and put. -/
theorem view_setPhase (j : String) (hi : s.calls[i]? = some c)
    (hcalls : t.calls = s.calls.set i { c with phase }) (hbatch : phase.batch = c.phase.batch)
    (hu : Unmoved s t) (hnow : t.now = s.now) (heventSubs : t.eventSubs = s.eventSubs) :
    view t j = view s j := by
  rw [view_congr j hu hnow heventSubs, batch_set j hi hcalls, hbatch, ← batch_eq j hi,
    Function.update_eq_self]

/-- The relay of a job stays as it is or makes a step. -/
def Moves (s t : EventClient) (j : String) : Prop :=
  view t j = view s j ∨ Relay.Step eventChanBufSize (view s j) (view t j)

/-- A delivery ends without an effect. -/
theorem moves_drop {b : Relay.Batch} (j : String) (hi : s.calls[i]? = some c)
    (hcalls : t.calls = s.calls.set i { c with phase }) (hphase : phase.batch = none)
    (hbatch : c.phase.batch = some b) (hrest : b.rest = [] ∨ s.current c.jobID ≠ some b.sub)
    (hu : Unmoved s t) (hnow : t.now = s.now) (heventSubs : t.eventSubs = s.eventSubs) :
    Moves s t j := by
  have hview := view_congr j hu hnow heventSubs
  rw [batch_set j hi hcalls] at hview
  by_cases hj : c.jobID = j
  · rw [if_pos hj, hphase] at hview
    unfold Moves
    rw [hview]
    have hb : (view s j).batch i = some b := by
      rw [batch_eq j hi, if_pos hj, hbatch]
    refine .inr (.drop hb (hrest.imp_right fun hne => ?_))
    exact hj ▸ hne
  · have hnone : (view s j).batch i = none := by
      rw [batch_eq j hi, if_neg hj]
    rw [if_neg hj, ← hnone, Function.update_eq_self] at hview
    exact .inl hview

/-- The visible rows of a job, in the order of their ids. -/
theorem visible_increasing (h : Records s) (j : String) :
    ((s.rows.filter fun r => r.jobID = j ∧ s.now < r.expiresAt).map (·.id)).Pairwise (· < ·) := by
  rw [List.pairwise_map]
  exact h.increasing.sublist (List.filter_sublist.trans h.rows)

theorem visible_eq (s : EventClient) (j : String) : (view s j).visible =
    { n | n ∈ (s.rows.filter fun r => r.jobID = j ∧ s.now < r.expiresAt).map (·.id) } := by
  ext n
  simp only [view, Set.mem_ofPred_eq, List.mem_map, List.mem_filter, decide_eq_true_eq]
  constructor
  · rintro ⟨r, hr, hj, hnow, hn⟩
    exact ⟨r, ⟨hr, hj, hnow⟩, hn⟩
  · rintro ⟨r, ⟨hr, hj, hnow⟩, hn⟩
    exact ⟨r, hr, hj, hnow, hn⟩

theorem drainJobEvents_ids (s : EventClient) (j : String) (limit : Nat) :
    (s.drainJobEvents j limit).map (·.id) =
      ((s.rows.filter fun r => r.jobID = j ∧ s.now < r.expiresAt).map (·.id)).take limit := by
  unfold drainJobEvents
  rw [List.map_take, List.map_map]
  rfl

/-- No other delivery has a batch for a subscriber that is locked. -/
theorem Control.unlocked (h : Control s) (hi : s.calls[i]? = some c)
    (htarget : c.phase.target = some k) (hholding : c.phase.holding = true)
    (hbatch : c.phase.batch = none) (j : String) (l : Nat) (b : Relay.Batch)
    (hl : (view s j).batch l = some b) : b.sub ≠ k := by
  rintro rfl
  obtain ⟨x, hx, hb⟩ := Option.bind_eq_some_iff.1 hl
  have hb' : x.phase.batch = some b := by
    split at hb
    · exact hb
    · cases hb
  have hheld : x.phase.target = some b.sub ∧ x.phase.holding = true := by
    revert hb'
    cases x.phase <;> intro hb' <;> cases hb' <;> exact ⟨rfl, rfl⟩
  obtain ⟨sub, hsub, hok⟩ := (h.calls i c hi).target _ htarget
  obtain ⟨sub', hsub', hok'⟩ := (h.calls l x hx).target _ hheld.1
  cases hsub.symm.trans hsub'
  have heq : i = l := Option.some.inj ((hok.locked hholding).symm.trans (hok'.locked hheld.2))
  subst heq
  cases hi.symm.trans hx
  rw [hbatch] at hb'
  cases hb'

theorem Control.moves_select (h : Control s) (hrec : Records s) (hi : s.calls[i]? = some c)
    {capacity : Nat} (hphase : c.phase = .draining k capacity) (j : String) :
    Moves s (s.setPhase i c (.entering k (s.drainJobEvents c.jobID capacity))) j := by
  have hview := view_congr (t := s.setPhase i c (.entering k (s.drainJobEvents c.jobID capacity))) j
    ⟨rfl, rfl, rfl, rfl⟩ rfl rfl
  rw [batch_set j hi rfl] at hview
  have hnone : (view s j).batch i = none := by
    rw [batch_eq j hi, hphase]
    exact ite_self _
  by_cases hj : c.jobID = j
  · rw [if_pos hj] at hview
    unfold Moves
    rw [hview]
    have htarget : c.phase.target = some k := by rw [hphase]; rfl
    have hholding : c.phase.holding = true := by rw [hphase]; rfl
    have hok := h.calls i c hi
    obtain ⟨sub, -, hsub⟩ := hok.target k htarget
    have hcapacity : capacity ≤ eventChanBufSize := by
      have hroom := hsub.room hholding
      rw [hphase] at hroom
      exact hroom.trans (Nat.sub_le _ _)
    have hincreasing := visible_increasing hrec c.jobID
    refine .inr (.select hnone (h.unlocked hi htarget hholding (by rw [hphase]; rfl) j) ?_ ?_)
    · rw [← hj, drainJobEvents_ids, visible_eq]
      exact Relay.Selection.take hincreasing hcapacity
    · intro hsent n hn
      have hwhole : capacity = eventChanBufSize := by
        refine hok.whole k capacity hphase fun p hp hpk => ?_
        obtain ⟨x, hx, hjob⟩ := h.puts p hp
        obtain ⟨y, hy, hyjob⟩ := hok.target k htarget
        rw [hpk] at hx
        cases hx.symm.trans hy
        have hmem : p.event.id ∈ (view s j).sent k := by
          refine List.mem_map.2 ⟨p, List.mem_filter.2 ⟨hp, ?_⟩, rfl⟩
          rw [decide_eq_true_eq, hpk, ← hjob, hyjob.job]
          exact ⟨rfl, hj⟩
        rw [hsent] at hmem
        cases hmem
      rw [← hj, visible_eq] at hn
      rw [drainJobEvents_ids, ← hwhole]
      exact Relay.mem_take_or_length hn
  · rw [if_neg hj, ← hnone, Function.update_eq_self] at hview
    exact .inl hview

variable {accepted : List Nat}

theorem moves_put {events : List PendingBatchEvent} {e : PendingBatchEvent}
    (hi : s.calls[i]? = some c) (hphase : c.phase = .delivering k (e :: events) accepted)
    (hcurrent : s.current c.jobID = some k) (j : String) : Moves s
      ((s.send c.jobID k sub e).setPhase i c (.delivering k events (accepted ++ [e.id]))) j := by
  obtain ⟨u, hu⟩ : ∃ u, u =
    (s.send c.jobID k sub e).setPhase i c (.delivering k events (accepted ++ [e.id])) := ⟨_, rfl⟩
  have hputs : u.puts = s.puts ++ [⟨c.jobID, e, k, s.current c.jobID⟩] := by rw [hu]; rfl
  have hbatch := batch_set (t := u) j hi (by rw [hu]; rfl)
  have hview : view u j = { view s j with
      sent := (view u j).sent
      batch := (view u j).batch } := by
    rw [hu]
    rfl
  rw [← hu]
  by_cases hj : c.jobID = j
  · have hsent : (view u j).sent =
        Function.update (view s j).sent k ((view s j).sent k ++ [e.id]) := by
      funext k'
      change (u.puts.filter fun p => p.sub = k' ∧ p.jobID = j).map (·.event.id) = _
      rw [hputs, List.filter_append, List.map_append]
      by_cases hk : k' = k
      · subst hk
        rw [Function.update_self]
        simp [view, hj]
      · rw [Function.update_of_ne hk]
        simp [view, Ne.symm hk]
    have hb : (view s j).batch i = some ⟨k, accepted, e.id :: events.map (·.id)⟩ := by
      rw [batch_eq j hi, if_pos hj, hphase]
      rfl
    rw [hsent, hbatch, if_pos hj] at hview
    unfold Moves
    rw [hview]
    exact .inr (.put hb (hj ▸ hcurrent))
  · have hsent : (view u j).sent = (view s j).sent := by
      funext k'
      change (u.puts.filter fun p => p.sub = k' ∧ p.jobID = j).map (·.event.id) = _
      rw [hputs, List.filter_append]
      simp [view, hj]
    have hnone : (view s j).batch i = none := by
      rw [batch_eq j hi, if_neg hj]
    rw [hsent, hbatch, if_neg hj, ← hnone, Function.update_eq_self] at hview
    exact .inl hview

theorem moves_ack (hi : s.calls[i]? = some c) (hphase : c.phase = .acking k accepted) (j : String) :
    Moves s ((s.ackEvents c.jobID accepted).setPhase i c (.unlocking k)) j := by
  obtain ⟨u, hu⟩ : ∃ u, u = (s.ackEvents c.jobID accepted).setPhase i c (.unlocking k) := ⟨_, rfl⟩
  have hbatch := batch_set (t := u) j hi (by rw [hu]; rfl)
  have hrows : ∀ r, r ∈ u.rows ↔ r ∈ s.rows ∧ ¬ (r.jobID = c.jobID ∧ r.id ∈ accepted) := by
    intro r
    rw [hu]
    simp only [ackEvents, setPhase, List.mem_filter, decide_eq_true_eq]
  have hacked : ∀ r, r ∈ u.acked ↔
      r ∈ s.acked ∨ r ∈ s.rows ∧ r.jobID = c.jobID ∧ r.id ∈ accepted := by
    intro r
    rw [hu]
    simp [ackEvents, setPhase, List.mem_filter]
  have hnow : u.now = s.now := by rw [hu]; rfl
  have hview : view u j = { view s j with
      visible := (view u j).visible
      removed := (view u j).removed
      batch := (view u j).batch } := by
    rw [hu]
    rfl
  rw [← hu]
  by_cases hj : c.jobID = j
  · have hb : (view s j).batch i = some ⟨k, accepted, []⟩ := by
      rw [batch_eq j hi, if_pos hj, hphase]
      rfl
    rw [hbatch, if_pos hj] at hview
    unfold Moves
    rw [hview]
    refine .inr (.ack hb (fun n => ?_) ?_ ?_ ?_)
    · constructor
      · rintro ⟨r, hr, hrj, hexp, rfl⟩
        obtain ⟨hr, hnot⟩ := (hrows r).1 hr
        exact ⟨⟨r, hr, hrj, hnow ▸ hexp, rfl⟩, fun hin => hnot ⟨hrj.trans hj.symm, hin⟩⟩
      · rintro ⟨⟨r, hr, hrj, hexp, rfl⟩, hnot⟩
        exact ⟨r, (hrows r).2 ⟨hr, fun hin => hnot hin.2⟩, hrj, hnow.symm ▸ hexp, rfl⟩
    · rintro n ⟨r, hr, hrj, hn⟩
      exact ⟨r, (hacked r).2 (.inl hr), hrj, hn⟩
    · rintro n ⟨r, hr, hrj, rfl⟩
      rcases (hacked r).1 hr with hr | ⟨-, -, hin⟩
      · exact .inl ⟨r, hr, hrj, rfl⟩
      · exact .inr hin
    · rintro n hin ⟨r, hr, hrj, -, rfl⟩
      exact ⟨r, (hacked r).2 (.inr ⟨hr, hrj.trans hj.symm, hin⟩), hrj, rfl⟩
  · have hvisible : (view u j).visible = (view s j).visible := by
      ext n
      constructor
      · rintro ⟨r, hr, hrj, hexp, hn⟩
        exact ⟨r, ((hrows r).1 hr).1, hrj, hnow ▸ hexp, hn⟩
      · rintro ⟨r, hr, hrj, hexp, hn⟩
        exact ⟨r, (hrows r).2 ⟨hr, fun hin => hj (hin.1.symm.trans hrj)⟩, hrj, hnow.symm ▸ hexp, hn⟩
    have hremoved : (view u j).removed = (view s j).removed := by
      ext n
      constructor
      · rintro ⟨r, hr, hrj, hn⟩
        rcases (hacked r).1 hr with hr | ⟨-, hrc, -⟩
        · exact ⟨r, hr, hrj, hn⟩
        · exact absurd (hrc.symm.trans hrj) hj
      · rintro ⟨r, hr, hrj, hn⟩
        exact ⟨r, (hacked r).2 (.inl hr), hrj, hn⟩
    have hnone : (view s j).batch i = none := by
      rw [batch_eq j hi, if_neg hj]
    rw [hvisible, hremoved, hbatch, if_neg hj, ← hnone, Function.update_eq_self] at hview
    exact .inl hview

/-- The loop was left with nothing to put. -/
theorem moves_leaveLoop (hi : s.calls[i]? = some c) (hphase : c.phase = .delivering k [] accepted)
    (j : String) :
    Moves s (s.leaveLoop i c k accepted) j := by
  by_cases hnil : accepted = []
  · have hcalls : (s.leaveLoop i c k accepted).calls =
        s.calls.set i { c with phase := .unlocking k } := by
      unfold leaveLoop
      rw [if_pos hnil]
      rfl
    have hbatch : c.phase.batch = some ⟨k, accepted, []⟩ := by rw [hphase]; rfl
    exact moves_drop j hi hcalls rfl hbatch (.inl rfl) ⟨rfl, rfl, rfl, rfl⟩ rfl rfl
  · have hcalls : (s.leaveLoop i c k accepted).calls =
        s.calls.set i { c with phase := .acking k accepted } := by
      unfold leaveLoop
      rw [if_neg hnil]
      rfl
    exact .inl (view_setPhase j hi hcalls (by rw [hphase]; rfl) ⟨rfl, rfl, rfl, rfl⟩ rfl rfl)

theorem Control.moves_delivers (h : Control s) (hrec : Records s) (hi : s.calls[i]? = some c)
    (hs : Delivers s i c t) (j : String) : Moves s t j := by
  cases hs with
  | absent hphase | look hphase | lock hphase | skip hphase | measure hphase | empty hphase
  | enter hphase | unlock hphase =>
    exact .inl (view_setPhase j hi rfl (by rw [hphase]; rfl) ⟨rfl, rfl, rfl, rfl⟩ rfl rfl)
  | select hphase => exact h.moves_select hrec hi hphase j
  | lose hphase hcurrent =>
    exact moves_drop j hi rfl rfl (by rw [hphase]; rfl) (.inr hcurrent) ⟨rfl, rfl, rfl, rfl⟩ rfl rfl
  | leave hphase => exact moves_leaveLoop hi hphase j
  | put hphase => exact moves_put hi hphase ((h.calls i c hi).loop _ _ _ hphase).2 j
  | unacked hphase =>
    exact moves_drop j hi rfl rfl (by rw [hphase]; rfl) (.inl rfl) ⟨rfl, rfl, rfl, rfl⟩ rfl rfl
  | ack hphase => exact moves_ack hi hphase j

/-! ### The relay of a job under the other steps -/

/-- Rows are inserted, expire or are purged. -/
theorem Records.moves_environment (h : Records s) (t : EventClient) (added : List EventRow)
    (hinserted : t.inserted = s.inserted ++ added)
    (hincreasing : (s.inserted ++ added).Pairwise (·.id < ·.id)) (hnow : s.now ≤ t.now)
    (hrows : ∀ r ∈ t.rows, r ∈ s.rows ∨ r ∈ added)
    (hkept : ∀ r, r ∈ s.rows ∨ r ∈ added → t.now < r.expiresAt → r ∈ t.rows)
    (hcalls : t.calls = s.calls) (hacked : t.acked = s.acked)
    (heventSubs : t.eventSubs = s.eventSubs) (hputs : t.puts = s.puts) (j : String) :
    Moves s t j := by
  obtain ⟨-, hadded, hbeyond⟩ := List.pairwise_append.1 hincreasing
  have hview : view t j = { view s j with
      log := (view s j).log ++ (added.filter (·.jobID = j)).map (·.id)
      visible := (view t j).visible
      expired := (view t j).expired } := by
    unfold view current
    rw [hinserted, List.filter_append, List.map_append, hcalls, hacked, heventSubs, hputs]
  have hmem : ∀ {r : EventRow}, r ∈ added → r.jobID = j →
      r.id ∈ (added.filter (·.jobID = j)).map (·.id) := by
    intro r hr hj
    exact List.mem_map.2 ⟨r, List.mem_filter.2 ⟨hr, decide_eq_true hj⟩, rfl⟩
  unfold Moves
  rw [hview]
  refine .inr (.extend ?_ ?_ ?_ ?_ ?_)
  · rw [List.pairwise_map]
    exact hadded.sublist List.filter_sublist
  · intro m hm n hn
    obtain ⟨r, hr, rfl⟩ := List.mem_map.1 hm
    obtain ⟨r', hr', rfl⟩ := List.mem_map.1 hn
    exact hbeyond r (List.mem_filter.1 hr).1 r' (List.mem_filter.1 hr').1
  · rintro n ⟨r, hr, hj, hexp, rfl⟩
    rcases hrows r hr with hr | hr
    · exact .inl ⟨r, hr, hj, lt_of_le_of_lt hnow hexp, rfl⟩
    · exact .inr (hmem hr hj)
  · rintro n ⟨r, hr, hj, hexp, hn⟩
    refine ⟨r, ?_, hj, hexp.trans hnow, hn⟩
    rw [hinserted]
    exact List.mem_append_left _ hr
  · intro n hn
    obtain ⟨r, hr, hin, hj, rfl⟩ : ∃ r : EventRow, (r ∈ s.rows ∨ r ∈ added) ∧
        r ∈ s.inserted ++ added ∧ r.jobID = j ∧ r.id = n := by
      rcases hn with ⟨r, hr, hj, -, hn⟩ | hn
      · exact ⟨r, .inl hr, List.mem_append_left _ (h.rows.subset hr), hj, hn⟩
      · obtain ⟨r, hr, hn⟩ := List.mem_map.1 hn
        obtain ⟨hr, hj⟩ := List.mem_filter.1 hr
        exact ⟨r, .inr hr, List.mem_append_right _ hr, of_decide_eq_true hj, hn⟩
    by_cases hexp : t.now < r.expiresAt
    · exact .inl ⟨r, hkept r hr hexp, hj, hexp, rfl⟩
    · exact .inr ⟨r, hinserted ▸ hin, hj, not_lt.1 hexp, rfl⟩

variable {jobID : String}

/-- A call that was just spawned has selected nothing. -/
theorem batch_spawn (j : String) (hcalls : t.calls = s.calls ++ [{ jobID := jobID }]) :
    (view t j).batch = (view s j).batch := by
  funext l
  unfold view
  dsimp only
  rw [hcalls]
  by_cases hl : l < s.calls.length
  · rw [List.getElem?_append_left hl]
  · rw [List.getElem?_append_right (not_lt.1 hl), List.getElem?_eq_none (not_lt.1 hl)]
    cases hsub : l - s.calls.length with
    | zero => exact ite_self _
    | succ => rfl

theorem view_spawn (t : EventClient) (hcalls : t.calls = s.calls ++ [{ jobID := jobID }])
    (hu : Unmoved s t) (hnow : t.now = s.now) (heventSubs : t.eventSubs = s.eventSubs)
    (j : String) : view t j = view s j := by
  rw [view_congr j hu hnow heventSubs, batch_spawn j hcalls]

theorem Control.moves_subscribe (h : Control s) (t : EventClient)
    (hcalls : t.calls = s.calls ++ [{ jobID := jobID }])
    (hcurrent : ∀ j, t.current j = if j = jobID then some s.subs.length else s.current j)
    (hu : Unmoved s t) (hnow : t.now = s.now) (j : String) : Moves s t j := by
  have hview : view t j = { view s j with current := t.current j } := by
    have hbatch := batch_spawn j hcalls
    unfold view at hbatch ⊢
    rw [hu.rows, hu.inserted, hu.acked, hnow, hu.puts]
    exact congrArg _ hbatch
  unfold Moves
  rw [hview, hcurrent j]
  split
  next hj =>
    refine .inr (.subscribe ?_ fun l b hl hb => ?_)
    · refine List.eq_nil_iff_forall_not_mem.2 fun n hn => ?_
      obtain ⟨p, hp, -⟩ := List.mem_map.1 hn
      obtain ⟨hp, hpk⟩ := List.mem_filter.1 hp
      obtain ⟨sub, hsub, -⟩ := h.puts p hp
      rw [(of_decide_eq_true hpk).1, List.getElem?_eq_none (Nat.le_refl _)] at hsub
      cases hsub
    · obtain ⟨x, hx, hxb⟩ := Option.bind_eq_some_iff.1 hl
      have htarget : x.phase.target = some b.sub := by
        split at hxb
        · revert hxb
          cases x.phase <;> intro hxb <;> cases hxb <;> rfl
        · cases hxb
      obtain ⟨sub, hsub, -⟩ := (h.calls l x hx).target _ htarget
      rw [hb, List.getElem?_eq_none (Nat.le_refl _)] at hsub
      cases hsub
  next => exact .inl rfl

theorem moves_stepClose {q : Nat} {call : CloseCall} (hs : s.stepClose q call = some t)
    (j : String) : Moves s t j := by
  unfold EventClient.stepClose at hs
  split at hs
  · obtain ⟨sub, -, hs⟩ := Option.bind_eq_some_iff.1 hs
    split at hs
    · cases hs
    · cases hs
      split
      · obtain ⟨u, hu⟩ : ∃ u : EventClient, u = { s with
            eventSubs := s.eventSubs.filter (·.1 ≠ sub.jobID)
            closes := s.closes.set q { call with phase := .closing } } := ⟨_, rfl⟩
        have hview : view u j = { view s j with current := u.current j } := by
          rw [hu]
          rfl
        rw [← hu]
        unfold Moves
        rw [hview, current_remove (s := s) j (by rw [hu])]
        split
        · exact .inr .unsubscribe
        · exact .inl rfl
      · exact .inl rfl
  · obtain ⟨sub, -, hs⟩ := Option.bind_eq_some_iff.1 hs
    cases hs
    exact .inl rfl
  · cases hs

variable {e : ClientEvent}

theorem Control.moves (h : Control s) (hrec : Records s) (hs : s.step e = some t) (j : String) :
    Moves s t j := by
  cases e with
  | send row =>
    simp only [EventClient.step, Option.ite_none_right_eq_some, Option.some.injEq,
      List.all_eq_true, decide_eq_true_eq] at hs
    obtain ⟨hlast, rfl⟩ := hs
    refine hrec.moves_environment
      { s with rows := s.rows ++ [row], inserted := s.inserted ++ [row] } [row] rfl ?_ le_rfl
      (fun r hr => List.mem_append.1 hr) (fun r hr _ => List.mem_append.2 hr) rfl rfl rfl rfl j
    refine List.pairwise_append.2 ⟨hrec.increasing, List.pairwise_singleton _ _, fun r hr r' hr' => ?_⟩
    cases List.mem_singleton.1 hr'
    exact hlast r hr
  | tick seconds =>
    cases hs
    refine hrec.moves_environment { s with now := s.now + seconds } [] (List.append_nil _).symm
      ?_ ?_ (fun r hr => .inl hr)
      (fun r hr _ => hr.resolve_right List.not_mem_nil) rfl rfl rfl rfl j
    · rw [List.append_nil]
      exact hrec.increasing
    · change s.now ≤ s.now + seconds
      omega
  | purgeExpired =>
    cases hs
    refine hrec.moves_environment { s with rows := s.rows.filter fun r => ¬ r.expiresAt < s.now } []
      (List.append_nil _).symm ?_ le_rfl
      (fun r hr => .inl (List.mem_filter.1 hr).1) (fun r hr hexp => ?_) rfl rfl rfl rfl j
    · rw [List.append_nil]
      exact hrec.increasing
    · have hlate : ¬ r.expiresAt < s.now := not_lt.2 (le_of_lt hexp)
      exact List.mem_filter.2 ⟨hr.resolve_right List.not_mem_nil, decide_eq_true hlate⟩
  | subscribe jobID =>
    obtain ⟨-, rfl⟩ := of_unless hs
    exact h.moves_subscribe
      { s.spawn jobID with
        subs := s.subs ++ [{ jobID, opening := s.calls.length }]
        eventSubs := s.setCurrent jobID s.subs.length }
      rfl (fun j => current_setCurrent j rfl) ⟨rfl, rfl, rfl, rfl⟩ rfl j
  | receive k =>
    obtain ⟨sub, -, hs⟩ := Option.bind_eq_some_iff.1 hs
    obtain ⟨-, rfl⟩ := of_unless hs
    exact .inl rfl
  | callClose k =>
    obtain ⟨sub, -, hs⟩ := Option.bind_eq_some_iff.1 hs
    obtain ⟨-, rfl⟩ := of_guarded hs
    exact .inl rfl
  | close q =>
    obtain ⟨call, -, hs⟩ := Option.bind_eq_some_iff.1 hs
    exact moves_stepClose hs j
  | wake | rescan =>
    obtain ⟨-, rfl⟩ := of_guarded hs
    exact .inl rfl
  | dispatch =>
    simp only [EventClient.step] at hs
    split at hs
    · obtain ⟨-, rfl⟩ := of_guarded hs
      exact .inl rfl
    next jobID todo _ _ =>
      cases hs
      exact .inl (view_spawn { s.spawn jobID with
        dispatcher := { todo, running := some s.calls.length } } rfl ⟨rfl, rfl, rfl, rfl⟩ rfl rfl j)
    · cases hs
  | deliver i fails applied =>
    obtain ⟨c, hi, hs⟩ := Option.bind_eq_some_iff.1 hs
    exact h.moves_delivers hrec hi (h.delivers hi hs) j

/-! ### Rows and puts -/

variable {r : EventRow}

section

variable (h : Records s)
include h

theorem Records.eq_of_id {r' : EventRow} (hr : r ∈ s.inserted) (hr' : r' ∈ s.inserted)
    (hid : r.id = r'.id) : r = r' := by
  have hnodup : (s.inserted.map (·.id)).Nodup :=
    List.pairwise_map.2 (h.increasing.imp fun hlt => Nat.ne_of_lt hlt)
  exact List.inj_on_of_nodup_map hnodup hr hr' hid

theorem Records.advance (hi : s.calls[i]? = some c)
    (hcalls : t.calls = s.calls.set i { c with phase }) (hinserted : t.inserted = s.inserted)
    (hrows : t.rows.Sublist s.rows) (hkept : ∀ p ∈ s.puts, p ∈ t.puts)
    (hputs : ∀ p ∈ t.puts, p ∈ s.puts ∨ p.current = some p.sub ∧ p.jobID = c.jobID ∧
      p.event ∈ c.phase.events)
    (hacked : ∀ r ∈ t.acked, r ∈ s.acked ∨ r ∈ s.rows ∧ r.jobID = c.jobID ∧
      r.id ∈ c.phase.accepted) (hevents : ∀ e ∈ phase.events, e ∈ c.phase.events ∨
      ∃ r ∈ s.inserted, r.jobID = c.jobID ∧ r.pending = e)
    (haccepted : ∀ n ∈ phase.accepted, n ∈ c.phase.accepted ∨
      ∃ p ∈ t.puts, p.jobID = c.jobID ∧ p.event.id = n) : Records t := by
  have hfound : ∀ {P : EventPut → Prop}, (∃ p ∈ s.puts, P p) → ∃ p ∈ t.puts, P p :=
    fun ⟨p, hp, hP⟩ => ⟨p, hkept p hp, hP⟩
  refine ⟨hinserted ▸ h.increasing, hinserted ▸ hrows.trans h.rows, fun l x hl e he => ?_,
    fun l x hl n hn => ?_, fun p hp => ?_, fun r hr => ?_⟩
  · rw [hcalls] at hl
    rw [hinserted]
    rcases getElem?_set_cases hl with ⟨rfl, rfl⟩ | ⟨-, hl⟩
    · rcases hevents e he with he | hr
      · exact h.events l c hi e he
      · exact hr
    · exact h.events l x hl e he
  · rw [hcalls] at hl
    rcases getElem?_set_cases hl with ⟨rfl, rfl⟩ | ⟨-, hl⟩
    · rcases haccepted n hn with hn | hp
      · exact hfound (h.accepted l c hi n hn)
      · exact hp
    · exact hfound (h.accepted l x hl n hn)
  · rw [hinserted]
    rcases hputs p hp with hp | ⟨hcurrent, hjob, he⟩
    · exact h.puts p hp
    · obtain ⟨r, hr, hrj, hre⟩ := h.events i c hi p.event he
      exact ⟨hcurrent, r, hr, hrj.trans hjob.symm, hre⟩
  · rw [hinserted]
    rcases hacked r hr with hr | ⟨hr, hrj, hn⟩
    · exact (h.acked r hr).imp_right hfound
    · -- The row that was put has the same id, so that it is this one.
      obtain ⟨p, hp, hpj, hpn⟩ := h.accepted i c hi r.id hn
      obtain ⟨-, r', hr', -, hre⟩ := h.puts p hp
      have hid : r'.id = r.id := by
        rw [← hpn, ← hre]
        rfl
      have heq : r' = r := h.eq_of_id hr' (h.rows.subset hr) hid
      exact ⟨h.rows.subset hr, p, hkept p hp, hpj.trans hrj.symm, by rw [← hre, heq]⟩

/-- A step that changes neither the rows nor the puts. -/
theorem Records.setPhase (hi : s.calls[i]? = some c)
    (hcalls : t.calls = s.calls.set i { c with phase }) (hu : Unmoved s t)
    (hevents : ∀ e ∈ phase.events, e ∈ c.phase.events)
    (haccepted : ∀ n ∈ phase.accepted, n ∈ c.phase.accepted) : Records t :=
  h.advance hi hcalls hu.inserted (hu.rows ▸ .refl _) (fun _ hp => hu.puts ▸ hp)
    (fun _ hp => .inl (hu.puts ▸ hp)) (fun _ hr => .inl (hu.acked ▸ hr))
    (fun e he => .inl (hevents e he))
    fun n hn => .inl (haccepted n hn)

theorem Records.leaveLoop {events : List PendingBatchEvent} (hi : s.calls[i]? = some c)
    (hphase : c.phase = .delivering k events accepted) :
    Records (s.leaveLoop i c k accepted) := by
  refine h.setPhase hi rfl ⟨rfl, rfl, rfl, rfl⟩ ?_ ?_
  · split <;> nofun
  · rw [hphase]
    split
    · nofun
    · exact fun _ hn => hn

theorem Records.delivers (hcontrol : Control s) (hi : s.calls[i]? = some c) (hs : Delivers s i c t)
    : Records t := by
  cases hs with
  | absent | look | lock | skip | measure | empty | lose | unacked | unlock =>
    exact h.setPhase hi rfl ⟨rfl, rfl, rfl, rfl⟩ nofun nofun
  | select =>
    refine h.advance hi rfl rfl (.refl _) (fun _ hp => hp) (fun _ hp => .inl hp)
      (fun _ hr => .inl hr) (fun x hx => .inr ?_) nofun
    obtain ⟨r, hr, hrx⟩ := List.mem_map.1 (List.mem_of_mem_take hx)
    obtain ⟨hr, hmatch⟩ := List.mem_filter.1 hr
    exact ⟨r, h.rows.subset hr, (of_decide_eq_true hmatch).1, hrx⟩
  | enter hphase =>
    refine h.setPhase hi rfl ⟨rfl, rfl, rfl, rfl⟩ (fun x hx => ?_) nofun
    rw [hphase]
    exact hx
  | leave hphase => exact h.leaveLoop hi hphase
  | put hphase =>
    refine h.advance hi rfl rfl (.refl _) (fun _ hp => List.mem_append_left _ hp)
      (fun p hp => ?_) (fun _ hr => .inl hr) (fun x hx => .inl ?_) fun n hn => ?_
    · rcases List.mem_append.1 hp with hp | hp
      · exact .inl hp
      · cases List.mem_singleton.1 hp
        rw [hphase]
        exact .inr ⟨((hcontrol.calls i c hi).loop _ _ _ hphase).2, rfl, List.mem_cons_self⟩
    · rw [hphase]
      exact List.mem_cons_of_mem _ hx
    · rcases List.mem_append.1 hn with hn | hn
      · rw [hphase]
        exact .inl hn
      · cases List.mem_singleton.1 hn
        exact .inr ⟨_, List.mem_append_right _ (List.mem_singleton.2 rfl), rfl, rfl⟩
  | ack hphase =>
    refine h.advance hi rfl rfl List.filter_sublist (fun _ hp => hp) (fun _ hp => .inl hp)
      (fun r hr => ?_) nofun nofun
    rcases List.mem_append.1 hr with hr | hr
    · exact .inl hr
    · obtain ⟨hr, hmatch⟩ := List.mem_filter.1 hr
      rw [hphase]
      exact .inr ⟨hr, of_decide_eq_true hmatch⟩

/-- A step that is not one of a delivery. -/
theorem Records.quiet (hcalls : ∀ (l : Nat) (x : DeliveryCall),
      t.calls[l]? = some x → s.calls[l]? = some x ∨ x.phase = .looking)
    (hincreasing : t.inserted.Pairwise (·.id < ·.id)) (hkept : ∀ r ∈ s.inserted, r ∈ t.inserted)
    (hrows : t.rows.Sublist t.inserted) (hputs : t.puts = s.puts) (hacked : t.acked = s.acked) :
    Records t := by
  have hfound : ∀ {P : EventRow → Prop}, (∃ r ∈ s.inserted, P r) → ∃ r ∈ t.inserted, P r :=
    fun ⟨r, hr, hP⟩ => ⟨r, hkept r hr, hP⟩
  refine ⟨hincreasing, hrows, fun l x hl e he => ?_, fun l x hl n hn => ?_, fun p hp => ?_,
    fun r hr => ?_⟩
  · rcases hcalls l x hl with hl | hphase
    · exact hfound (h.events l x hl e he)
    · rw [hphase] at he
      cases he
  · rw [hputs]
    rcases hcalls l x hl with hl | hphase
    · exact h.accepted l x hl n hn
    · rw [hphase] at hn
      cases hn
  · obtain ⟨hcurrent, hr⟩ := h.puts p (hputs ▸ hp)
    exact ⟨hcurrent, hfound hr⟩
  · rw [hputs]
    exact (h.acked r (hacked ▸ hr)).imp_left (hkept r)

theorem Records.same (hcalls : t.calls = s.calls) (hu : Unmoved s t) : Records t := by
  refine h.quiet (fun _ _ hl => .inl (hcalls ▸ hl)) (hu.inserted ▸ h.increasing)
    (fun r hr => hu.inserted ▸ hr) ?_ hu.puts hu.acked
  rw [hu.inserted, hu.rows]
  exact h.rows

theorem Records.spawn (hcalls : t.calls = s.calls ++ [{ jobID := jobID }]) (hu : Unmoved s t) :
    Records t := by
  refine h.quiet (fun l x hl => ?_) (hu.inserted ▸ h.increasing) (fun r hr => hu.inserted ▸ hr) ?_
    hu.puts hu.acked
  · rw [hcalls] at hl
    rcases getElem?_snoc_cases hl with ⟨-, rfl⟩ | ⟨-, hl⟩
    · exact .inr rfl
    · exact .inl hl
  · rw [hu.inserted, hu.rows]
    exact h.rows

theorem Records.step (hcontrol : Control s) (hs : s.step e = some t) :
    Records t := by
  cases e with
  | send row =>
    simp only [EventClient.step, Option.ite_none_right_eq_some, Option.some.injEq,
      List.all_eq_true, decide_eq_true_eq] at hs
    obtain ⟨hlast, rfl⟩ := hs
    refine h.quiet (fun _ _ hl => .inl hl) ?_ (fun r hr => List.mem_append_left _ hr)
      (h.rows.append (.refl _)) rfl rfl
    refine List.pairwise_append.2 ⟨h.increasing, List.pairwise_singleton _ _, fun r hr r' hr' => ?_⟩
    cases List.mem_singleton.1 hr'
    exact hlast r hr
  | tick =>
    cases hs
    exact h.same rfl ⟨rfl, rfl, rfl, rfl⟩
  | purgeExpired =>
    cases hs
    exact h.quiet (fun _ _ hl => .inl hl) h.increasing (fun _ hr => hr)
      (List.filter_sublist.trans h.rows) rfl rfl
  | subscribe jobID =>
    obtain ⟨-, rfl⟩ := of_unless hs
    exact h.spawn rfl ⟨rfl, rfl, rfl, rfl⟩
  | receive k =>
    obtain ⟨sub, -, hs⟩ := Option.bind_eq_some_iff.1 hs
    obtain ⟨-, rfl⟩ := of_unless hs
    exact h.same rfl ⟨rfl, rfl, rfl, rfl⟩
  | callClose k =>
    obtain ⟨sub, -, hs⟩ := Option.bind_eq_some_iff.1 hs
    obtain ⟨-, rfl⟩ := of_guarded hs
    exact h.same rfl ⟨rfl, rfl, rfl, rfl⟩
  | close q =>
    obtain ⟨call, -, hs⟩ := Option.bind_eq_some_iff.1 hs
    unfold EventClient.stepClose at hs
    split at hs
    · obtain ⟨sub, -, hs⟩ := Option.bind_eq_some_iff.1 hs
      split at hs
      · cases hs
      · cases hs
        exact h.same rfl ⟨rfl, rfl, rfl, rfl⟩
    · obtain ⟨sub, -, hs⟩ := Option.bind_eq_some_iff.1 hs
      cases hs
      exact h.same rfl ⟨rfl, rfl, rfl, rfl⟩
    · cases hs
  | wake | rescan =>
    obtain ⟨-, rfl⟩ := of_guarded hs
    exact h.same rfl ⟨rfl, rfl, rfl, rfl⟩
  | dispatch =>
    simp only [EventClient.step] at hs
    split at hs
    · obtain ⟨-, rfl⟩ := of_guarded hs
      exact h.same rfl ⟨rfl, rfl, rfl, rfl⟩
    · cases hs
      exact h.spawn rfl ⟨rfl, rfl, rfl, rfl⟩
    · cases hs
  | deliver i fails applied =>
    obtain ⟨c, hi, hs⟩ := Option.bind_eq_some_iff.1 hs
    exact h.delivers hcontrol hi (hcontrol.delivers hi hs)

end

/-! ### Delivery -/

structure Sound (s : EventClient) : Prop where
  control : Control s
  records : Records s
  relay : ∀ j, (view s j).Sound eventChanBufSize

theorem sound_initial (now : Int) : Sound { now } where
  control := control_initial now
  records := by
    refine ⟨.nil, .refl _, ?_, ?_, ?_, ?_⟩ <;> nofun
  relay j := by
    refine Relay.State.sound_empty rfl ?_ ?_ (fun _ => rfl) (fun _ => rfl) rfl
    · rintro n ⟨r, hr, -⟩
      cases hr
    · rintro n ⟨r, hr, -⟩
      cases hr

theorem Sound.step (h : Sound s) (hs : s.step e = some t) : Sound t where
  control := h.control.step hs
  records := h.records.step h.control hs
  relay j := by
    rcases h.control.moves h.records hs j with heq | hstep
    · rw [heq]
      exact h.relay j
    · exact (h.relay j).step hstep

/-- The ids of the rows that a subscriber got, in the order in which they were put. -/
def sentTo (s : EventClient) (k : Nat) : List Nat := (s.puts.filter (·.sub = k)).map (·.event.id)

/-- A subscriber gets the rows of its job only. -/
theorem Control.sentTo_eq (h : Control s) (hk : s.subs[k]? = some sub) :
    s.sentTo k = (view s sub.jobID).sent k := by
  unfold sentTo view
  dsimp only
  congr 1
  refine List.filter_congr fun p hp => ?_
  by_cases hpk : p.sub = k
  · obtain ⟨sub', hsub', hjob⟩ := h.puts p hp
    rw [hpk] at hsub'
    cases hk.symm.trans hsub'
    simp [hpk, hjob]
  · simp [hpk]

theorem mem_log (hr : r ∈ s.inserted) (hj : r.jobID = j) : r.id ∈ (view s j).log :=
  List.mem_map.2 ⟨r, List.mem_filter.2 ⟨hr, decide_eq_true hj⟩, rfl⟩

theorem Records.expired_of (h : Records s) (hr : r ∈ s.inserted)
    (hexpired : r.id ∈ (view s j).expired) : r.expiresAt ≤ s.now := by
  obtain ⟨r', hr', -, hexp, hid⟩ := hexpired
  rw [← h.eq_of_id hr' hr hid]
  exact hexp

/-- A row that a subscriber did not get before a later one was acknowledged or expired. -/
theorem Sound.settled (h : Sound s) (hk : s.subs[k]? = some sub) {n : Nat} (hn : n ∈ s.sentTo k)
    (hr : r ∈ s.inserted) (hj : r.jobID = sub.jobID) (hlt : r.id < n) :
    r.id ∈ s.sentTo k ∨ r ∈ s.acked ∨ r.expiresAt ≤ s.now := by
  have hrelay := h.relay sub.jobID
  rw [h.control.sentTo_eq hk] at hn ⊢
  rcases hrelay.settled r.id (mem_log hr hj) with hv | ⟨r', hr', -, hid⟩ | he
  · exact .inl ((hrelay.subs k).reach n hn r.id hv hlt)
  · rw [← h.records.eq_of_id (h.records.acked r' hr').1 hr hid]
    exact .inr (.inl hr')
  · exact .inr (.inr (h.records.expired_of hr he))

/-- Whatever happens, a row is acknowledged only after its event was put on the channel of the
subscriber that was the current one then. A subscriber gets first occurrences in the order of the
ids; from the first one on it misses no row that did not expire, and what it missed before was
acknowledged or expired. Nothing is sent on a closed channel. -/
theorem events_relayed {now : Int} {es : List ClientEvent} {s : EventClient}
    (hrun : exec EventClient.step { now } es = some s) :
    (∀ r ∈ s.acked, ∃ p ∈ s.puts,
      p.jobID = r.jobID ∧ p.event = r.pending ∧ p.current = some p.sub) ∧
    (∀ (k : Nat) (sub : EventSub), s.subs[k]? = some sub →
      (∀ p n q, s.sentTo k = p ++ n :: q → n ∉ p → ∀ m ∈ p, m < n) ∧
      ∀ n ∈ s.sentTo k, ∀ r ∈ s.inserted, r.jobID = sub.jobID → r.id < n →
        r.id ∈ s.sentTo k ∨ r.expiresAt ≤ s.now ∨ r ∈ s.acked ∧ ∀ f ∈ s.sentTo k, r.id < f) ∧
    s.panicked = false := by
  have h : Sound s :=
    exec_invariant (fun _ _ _ hsound hs => Sound.step hsound hs) hrun (sound_initial now)
  refine ⟨fun r hr => ?_, fun k sub hk => ⟨?_, fun n hn r hr hj hlt => ?_⟩, h.control.panicked⟩
  · obtain ⟨-, p, hp, hpj, hpe⟩ := h.records.acked r hr
    exact ⟨p, hp, hpj, hpe, (h.records.puts p hp).1⟩
  · rw [h.control.sentTo_eq hk]
    exact ((h.relay sub.jobID).subs k).ordered
  · rcases h.settled hk hn hr hj hlt with hsent | hacked | hexpired
    · exact .inl hsent
    · by_cases hbefore : ∀ f ∈ s.sentTo k, r.id < f
      · exact .inr (.inr ⟨hacked, hbefore⟩)
      · obtain ⟨f, hf, hfr⟩ := not_forall₂.1 hbefore
        rw [h.control.sentTo_eq hk] at hf hn ⊢
        rcases ((h.relay sub.jobID).subs k).solid f hf n hn r.id (mem_log hr hj) (not_lt.1 hfr)
          hlt.le with hsent | he
        · exact .inl hsent
        · exact .inr (.inl (h.records.expired_of hr he))
    · exact .inr (.inl hexpired)

/-- Two rows are put, their acknowledgement fails, and a second subscriber gets both again. -/
def replacedSubscriber : List ClientEvent :=
  [.send ⟨1, "job", .cancel, 50⟩, .send ⟨2, "job", .resume, 60⟩, .subscribe "job"] ++
    List.replicate 8 (.deliver 0 false false) ++ [.deliver 0 true false, .subscribe "job"] ++
    List.replicate 9 (.deliver 1 false false)

theorem replacedSubscriber_relayed : ∃ s, exec EventClient.step { now := 10 } replacedSubscriber =
    some s ∧ s.sentTo 0 = [1, 2] ∧ s.sentTo 1 = [1, 2] ∧ s.acked.length = 2 ∧
    (∀ r ∈ s.acked, ∃ p ∈ s.puts,
      p.jobID = r.jobID ∧ p.event = r.pending ∧ p.current = some p.sub) ∧ s.panicked = false := by
  have hend : (exec EventClient.step { now := 10 } replacedSubscriber).map
      (fun s => (s.sentTo 0, s.sentTo 1, s.acked.length)) = some ([1, 2], [1, 2], 2) := by
    decide +kernel
  obtain ⟨s, hs, heq⟩ := Option.map_eq_some_iff.1 hend
  obtain ⟨hfirst, heq⟩ := Prod.mk.inj heq
  obtain ⟨hsecond, hacked⟩ := Prod.mk.inj heq
  obtain ⟨hput, -, hopen⟩ := events_relayed hs
  exact ⟨s, hs, hfirst, hsecond, hacked, hput, hopen⟩

end EventClient
end BatchGateway
