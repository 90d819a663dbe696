import BatchGateway.Lib.Pool
import BatchGateway.Lib.Refcount
import Mathlib.Algebra.Order.Group.Multiset
import Mathlib.Data.List.Induction

/-! The recovery broadcasters of a processor. Jobs that recover requests of a previous submitter
share a broadcaster for each route; it is registered under the model and the submitter. -/
namespace BatchGateway

open Interleaving

/-- A foreign result route. -/
structure RecoveryRouteKey where
  model : String
  consumer : String
  deriving DecidableEq, Repr

/-- The context in which the registry runs, once it was started. -/
inductive BaseContext where
  | unset | live | cancelled
  deriving DecidableEq, Repr

inductive RecoveryPhase where
  /-- In `forModels`, with the routes still to be acquired. -/
  | acquiring (todo : List RecoveryRouteKey)
  /-- The job has its group; `started` tells whether `Start` was called. -/
  | holding (started : Bool)
  /-- In `Start`, with the broadcasters still to be started. -/
  | starting (todo : List Nat)
  | releasing
  | released
  deriving DecidableEq, Repr

/-- A job with the references it took and has not released, each with its broadcaster. -/
structure RecoveryJob where
  phase : RecoveryPhase
  held : List (RecoveryRouteKey × Nat) := []
  deriving DecidableEq, Repr

/-- A job in `Start` holds the broadcasters that it has yet to start. -/
def RecoveryJob.Covered (job : RecoveryJob) : Prop :=
  ∀ todo, job.phase = .starting todo → ∀ b ∈ todo, b ∈ job.held.map Prod.snd

structure BroadcasterRegistry where
  recovery : Refcount.Registry RecoveryRouteKey := {}
  baseCtx : BaseContext := .unset
  jobs : List RecoveryJob := []
  /-- The broadcasters whose receive loop was launched. -/
  launched : List Nat := []
  /-- The broadcasters whose context a release cancelled. -/
  stopped : List Nat := []
  deriving DecidableEq, Repr

/-- The routes that a job asks for, submitter by submitter. -/
def recoveryRoutes (passes : List (String × List String)) : List RecoveryRouteKey :=
  (passes.filter (·.1 ≠ "")).flatMap fun pass => pass.2.map fun model => ⟨model, pass.1⟩

inductive RegistryEvent where
  | run
  | shutdown
  /-- Every submitter comes with the order in which the models are ranged over for it. -/
  | spawn (models : List String) (passes : List (String × List String))
  /-- Acquire the next route of a job; `available` tells whether a client can be built for it. -/
  | acquire (j : Nat) (available : Bool)
  | start (j : Nat)
  | launch (j : Nat)
  | release (j : Nat)
  /-- Release the next reference of a job. -/
  | drop (j : Nat)
  deriving DecidableEq, Repr

namespace BroadcasterRegistry

variable (s : BroadcasterRegistry)

/-- The broadcaster of a route, which is created on first use, or none if it cannot be built. -/
def acquireRecovery (key : RecoveryRouteKey) (available : Bool) :
    BroadcasterRegistry × Option Nat :=
  match s.recovery.find key with
  | some rb => ({ s with recovery := s.recovery.setRefs key (rb.refs + 1) }, some rb.id)
  | none =>
    if s.baseCtx ≠ .live ∨ available = false then (s, none)
    else ({ s with recovery := s.recovery.insert key }, some s.recovery.next)

/-- Drop one reference; the last one stops the broadcaster. -/
def releaseRecovery (key : RecoveryRouteKey) : BroadcasterRegistry :=
  match s.recovery.find key with
  | none => s
  | some rb =>
    if rb.refs ≤ 0 then s
    else if 0 < rb.refs - 1 then { s with recovery := s.recovery.setRefs key (rb.refs - 1) }
    else { s with recovery := s.recovery.erase key, stopped := rb.id :: s.stopped }

/-- Launch the receive loop, once. -/
def startBroadcaster (b : Nat) : BroadcasterRegistry :=
  if b ∈ s.launched then s else { s with launched := b :: s.launched }

def setJob (j : Nat) (job : RecoveryJob) : BroadcasterRegistry := { s with jobs := s.jobs.set j job }

def stepAcquire (j : Nat) (available : Bool) (job : RecoveryJob) : Option BroadcasterRegistry :=
  match job.phase with
  | .acquiring [] => some (s.setJob j { job with phase := .holding false })
  | .acquiring (key :: todo) =>
    match s.acquireRecovery key available with
    | (t, some b) =>
      some (t.setJob j { phase := .acquiring todo, held := job.held ++ [(key, b)] })
    | (t, none) => some (t.setJob j { job with phase := .acquiring todo })
  | _ => none

/-- A group is started once; later calls do nothing. -/
def stepStart (j : Nat) (job : RecoveryJob) : Option BroadcasterRegistry :=
  match job.phase with
  | .holding false => some (s.setJob j { job with phase := .starting (job.held.map Prod.snd) })
  | .holding true => some s
  | _ => none

def stepLaunch (j : Nat) (job : RecoveryJob) : Option BroadcasterRegistry :=
  match job.phase with
  | .starting [] => some (s.setJob j { job with phase := .holding true })
  | .starting (b :: todo) =>
    some ((s.startBroadcaster b).setJob j { job with phase := .starting todo })
  | _ => none

/-- The references are released once; later calls do nothing. A job releases only after its
execution, which comes after its `Start` returned. -/
def stepRelease (j : Nat) (job : RecoveryJob) : Option BroadcasterRegistry :=
  match job.phase with
  | .holding _ => some (s.setJob j { job with phase := .releasing })
  | .releasing | .released => some s
  | _ => none

def stepDrop (j : Nat) (job : RecoveryJob) : Option BroadcasterRegistry :=
  match job.phase, job.held with
  | .releasing, [] => some (s.setJob j { job with phase := .released })
  | .releasing, (key, _) :: held => some ((s.releaseRecovery key).setJob j { job with held })
  | _, _ => none

def step : RegistryEvent → Option BroadcasterRegistry
  | .run => if s.baseCtx = .unset then some { s with baseCtx := .live } else none
  | .shutdown => if s.baseCtx = .live then some { s with baseCtx := .cancelled } else none
  | .spawn models passes =>
    if ∀ pass ∈ passes, pass.2.Perm models then
      some { s with jobs := s.jobs ++ [⟨.acquiring (recoveryRoutes passes), []⟩] }
    else none
  | .acquire j available => s.jobs[j]?.bind (s.stepAcquire j available)
  | .start j => s.jobs[j]?.bind (s.stepStart j)
  | .launch j => s.jobs[j]?.bind (s.stepLaunch j)
  | .release j => s.jobs[j]?.bind (s.stepRelease j)
  | .drop j => s.jobs[j]?.bind (s.stepDrop j)

/-- The unreleased references of all jobs. -/
def held : Multiset (RecoveryRouteKey × Nat) :=
  (s.jobs.map fun job => (job.held : Multiset (RecoveryRouteKey × Nat))).sum

/-! ### Invariants -/

variable {s} {t : BroadcasterRegistry} {j : Nat} {job job' : RecoveryJob}

section

variable (hj : s.jobs[j]? = some job) (hjobs : t.jobs = s.jobs.set j job')
include hj hjobs

theorem held_setJob :
    t.held + (job.held : Multiset _) = s.held + (job'.held : Multiset _) := by
  rw [held, held, hjobs]
  exact sum_map_set _ hj job'

theorem held_eq (hheld : job'.held = job.held) : t.held = s.held := by
  have hsum := held_setJob hj hjobs
  rw [hheld] at hsum
  exact add_right_cancel hsum

theorem held_acquire {x : RecoveryRouteKey × Nat} (hheld : job'.held = job.held ++ [x]) :
    t.held = x ::ₘ s.held := by
  have hsum := held_setJob hj hjobs
  have hcons : (job'.held : Multiset (RecoveryRouteKey × Nat)) = x ::ₘ (job.held : Multiset _) := by
    rw [hheld, Multiset.cons_coe, Multiset.coe_eq_coe]
    exact List.perm_append_singleton x job.held
  rw [hcons, Multiset.add_cons, ← Multiset.cons_add] at hsum
  exact add_right_cancel hsum

theorem held_drop {x : RecoveryRouteKey × Nat} (hheld : job.held = x :: job'.held) :
    s.held = x ::ₘ t.held := by
  have hsum := held_setJob hj hjobs
  rw [hheld, ← Multiset.cons_coe, Multiset.add_cons, ← Multiset.cons_add] at hsum
  exact (add_right_cancel hsum).symm

end

theorem mem_held (hj : s.jobs[j]? = some job) {x : RecoveryRouteKey × Nat} (hx : x ∈ job.held) :
    x ∈ s.held := by
  have hsum := held_setJob (t := s.setJob j { job with held := [] }) hj rfl
  rw [Multiset.coe_nil, add_zero] at hsum
  rw [← hsum]
  exact Multiset.mem_add.2 (.inr (Multiset.mem_coe.2 hx))

structure Sound (s : BroadcasterRegistry) : Prop where
  counted : Refcount.Counted s.recovery s.held
  launched : s.launched.Nodup
  stopped : ∀ b ∈ s.stopped, b < s.recovery.next ∧ ∀ x ∈ s.recovery.entries, x.2.id ≠ b
  covered : ∀ (j : Nat) (job : RecoveryJob), s.jobs[j]? = some job → job.Covered

theorem sound_initial : Sound {} where
  counted := Refcount.Counted.empty
  launched := List.nodup_nil
  stopped _ hb := nomatch hb
  covered _ _ hj := nomatch hj

section

variable (h : Sound s)
include h

theorem covered_set (hjobs : t.jobs = s.jobs.set j job') (hjob : job'.Covered) :
    ∀ (i : Nat) (x : RecoveryJob), t.jobs[i]? = some x → x.Covered := by
  intro i x hi
  rw [hjobs] at hi
  rcases getElem?_set_cases hi with ⟨-, rfl⟩ | ⟨-, hi⟩
  · exact hjob
  · exact h.covered i x hi

/-- A step of a job that leaves the references alone. -/
theorem Sound.setJob (hj : s.jobs[j]? = some job) (hheld : job'.held = job.held)
    (hjob : job'.Covered) :
    Sound (s.setJob j job') where
  counted := by
    rw [held_eq hj rfl hheld]
    exact h.counted
  launched := h.launched
  stopped := h.stopped
  covered := covered_set h rfl hjob

theorem Sound.stepAcquire {available : Bool} (hj : s.jobs[j]? = some job)
    (hs : s.stepAcquire j available job = some t) : Sound t := by
  unfold BroadcasterRegistry.stepAcquire at hs
  split at hs
  next =>
    cases hs
    exact h.setJob hj rfl nofun
  next key todo _ =>
    unfold acquireRecovery at hs
    cases hf : s.recovery.find key with
    | some rb =>
      rw [hf] at hs
      cases hs
      refine ⟨?_, h.launched, fun b hb => ?_, covered_set h rfl nofun⟩
      · rw [held_acquire hj rfl rfl]
        exact h.counted.retain hf
      · refine ⟨(h.stopped b hb).1, fun x hx => ?_⟩
        obtain ⟨y, hy, rfl⟩ := Refcount.Registry.mem_setRefs.1 hx
        have hne := (h.stopped b hb).2 y hy
        split <;> exact hne
    | none =>
      rw [hf] at hs
      dsimp only at hs
      split at hs
      next heq =>
        split at heq
        · cases heq
        · cases heq
          cases hs
          refine ⟨?_, h.launched, fun b hb => ?_, covered_set h rfl nofun⟩
          · rw [held_acquire hj rfl rfl]
            exact h.counted.insert hf
          · obtain ⟨hlt, hne⟩ := h.stopped b hb
            refine ⟨Nat.lt_succ_of_lt hlt, fun x hx => ?_⟩
            rcases List.mem_cons.1 hx with rfl | hx
            · exact (Nat.ne_of_lt hlt).symm
            · exact hne x hx
      next heq =>
        split at heq
        · cases heq
          cases hs
          exact h.setJob hj rfl nofun
        · cases heq
  next => cases hs

theorem Sound.stepStart (hj : s.jobs[j]? = some job) (hs : s.stepStart j job = some t) :
    Sound t := by
  unfold BroadcasterRegistry.stepStart at hs
  split at hs
  next =>
    cases hs
    refine h.setJob hj rfl fun todo htodo b hb => ?_
    cases htodo
    exact hb
  next =>
    cases hs
    exact h
  next => cases hs

theorem Sound.stepLaunch (hj : s.jobs[j]? = some job) (hs : s.stepLaunch j job = some t) :
    Sound t := by
  unfold BroadcasterRegistry.stepLaunch at hs
  split at hs
  next =>
    cases hs
    exact h.setJob hj rfl nofun
  next b todo hphase =>
    cases hs
    have hlaunched : Sound (s.startBroadcaster b) := by
      unfold startBroadcaster
      split
      · exact h
      next hb => exact ⟨h.counted, List.nodup_cons.2 ⟨hb, h.launched⟩, h.stopped, h.covered⟩
    have hjob : (s.startBroadcaster b).jobs[j]? = some job := by
      unfold startBroadcaster
      split <;> exact hj
    refine hlaunched.setJob hjob rfl fun todo' htodo b' hb' => ?_
    cases htodo
    exact h.covered j job hj _ hphase b' (List.mem_cons_of_mem _ hb')
  next => cases hs

theorem Sound.stepRelease (hj : s.jobs[j]? = some job) (hs : s.stepRelease j job = some t) :
    Sound t := by
  unfold BroadcasterRegistry.stepRelease at hs
  split at hs
  next =>
    cases hs
    exact h.setJob hj rfl nofun
  next =>
    cases hs
    exact h
  next =>
    cases hs
    exact h
  next => cases hs

theorem Sound.stepDrop (hj : s.jobs[j]? = some job) (hs : s.stepDrop j job = some t) : Sound t := by
  unfold BroadcasterRegistry.stepDrop at hs
  split at hs
  next =>
    cases hs
    exact h.setJob hj rfl nofun
  next key b held hphase hheld =>
    cases hs
    have hcovered : RecoveryJob.Covered { job with held } := by
      intro todo htodo
      cases hphase.symm.trans htodo
    have hdrop : s.held = (key, b) ::ₘ (s.setJob j { job with held }).held :=
      held_drop hj rfl hheld
    have hcounted : Refcount.Counted s.recovery
        ((key, b) ::ₘ (s.setJob j { job with held }).held) := hdrop ▸ h.counted
    obtain ⟨rb, hf, hid, hrefs⟩ := hcounted.find_of_held
    have hpos : ¬ rb.refs ≤ 0 := by omega
    unfold releaseRecovery
    rw [hf]
    dsimp only
    rw [if_neg hpos]
    split
    next =>
      refine ⟨hcounted.release hf, h.launched, fun b' hb' => ?_, covered_set h rfl hcovered⟩
      refine ⟨(h.stopped b' hb').1, fun x hx => ?_⟩
      obtain ⟨y, hy, rfl⟩ := Refcount.Registry.mem_setRefs.1 hx
      have hne := (h.stopped b' hb').2 y hy
      split <;> exact hne
    next hlast =>
      obtain ⟨herased, -⟩ := hcounted.erase hf (by omega)
      refine ⟨herased, h.launched, fun b' hb' => ?_, covered_set h rfl hcovered⟩
      have hmem := Refcount.Registry.mem_of_find hf
      rcases List.mem_cons.1 hb' with rfl | hb'
      · refine ⟨h.counted.old _ hmem, fun x hx hxid => ?_⟩
        obtain ⟨hx, hne⟩ := Refcount.Registry.mem_erase.1 hx
        exact hne (congrArg Prod.fst (h.counted.eq_of_id hx hmem hxid))
      · exact ⟨(h.stopped b' hb').1, fun x hx =>
          (h.stopped b' hb').2 x (Refcount.Registry.mem_erase.1 hx).1⟩
  next => cases hs

theorem Sound.step {e : RegistryEvent} (hs : s.step e = some t) : Sound t := by
  cases e with
  | run | shutdown =>
    obtain ⟨-, rfl⟩ := of_guarded hs
    exact ⟨h.counted, h.launched, h.stopped, h.covered⟩
  | spawn models passes =>
    obtain ⟨-, rfl⟩ := of_guarded hs
    refine ⟨?_, h.launched, h.stopped, fun i x hi => ?_⟩
    · have hheld : held { s with
          jobs := s.jobs ++ [⟨.acquiring (recoveryRoutes passes), []⟩] } = s.held := by
        rw [held, List.map_append, List.sum_append]
        exact add_zero _
      rw [hheld]
      exact h.counted
    · rcases getElem?_snoc_cases hi with ⟨-, rfl⟩ | ⟨-, hi⟩
      · exact nofun
      · exact h.covered i x hi
  | acquire j available =>
    obtain ⟨job, hj, hs⟩ := Option.bind_eq_some_iff.1 hs
    exact h.stepAcquire hj hs
  | start j =>
    obtain ⟨job, hj, hs⟩ := Option.bind_eq_some_iff.1 hs
    exact h.stepStart hj hs
  | launch j =>
    obtain ⟨job, hj, hs⟩ := Option.bind_eq_some_iff.1 hs
    exact h.stepLaunch hj hs
  | release j =>
    obtain ⟨job, hj, hs⟩ := Option.bind_eq_some_iff.1 hs
    exact h.stepRelease hj hs
  | drop j =>
    obtain ⟨job, hj, hs⟩ := Option.bind_eq_some_iff.1 hs
    exact h.stepDrop hj hs

end

/-! ### Launches -/

theorem launched_acquireRecovery (key : RecoveryRouteKey) (available : Bool) :
    (s.acquireRecovery key available).1.launched = s.launched := by
  unfold acquireRecovery
  split
  · rfl
  · split <;> rfl

theorem launched_releaseRecovery (key : RecoveryRouteKey) :
    (s.releaseRecovery key).launched = s.launched := by
  unfold releaseRecovery
  split
  · rfl
  · split
    · rfl
    · split <;> rfl

/-- Only the `Start` of a job launches a broadcaster. -/
theorem launched_step {e : RegistryEvent} {b : Nat} (hs : s.step e = some t)
    (hb : b ∈ t.launched) : b ∈ s.launched ∨ ∃ (j : Nat) (job : RecoveryJob) (todo : List Nat),
      e = .launch j ∧ s.jobs[j]? = some job ∧ job.phase = .starting (b :: todo) := by
  cases e with
  | run | shutdown | spawn =>
    obtain ⟨-, rfl⟩ := of_guarded hs
    exact .inl hb
  | acquire j available =>
    obtain ⟨job, hj, hs⟩ := Option.bind_eq_some_iff.1 hs
    refine .inl ?_
    unfold stepAcquire at hs
    split at hs
    next =>
      cases hs
      exact hb
    next key todo _ =>
      have hsame := launched_acquireRecovery (s := s) key available
      split at hs
      next heq =>
        cases hs
        rw [heq] at hsame
        exact hsame ▸ hb
      next heq =>
        cases hs
        rw [heq] at hsame
        exact hsame ▸ hb
    next => cases hs
  | start j =>
    obtain ⟨job, hj, hs⟩ := Option.bind_eq_some_iff.1 hs
    refine .inl ?_
    unfold stepStart at hs
    split at hs <;>
      (cases hs
       try exact hb)
  | launch j =>
    obtain ⟨job, hj, hs⟩ := Option.bind_eq_some_iff.1 hs
    unfold stepLaunch at hs
    split at hs
    next =>
      cases hs
      exact .inl hb
    next b' todo hphase =>
      cases hs
      change b ∈ (s.startBroadcaster b').launched at hb
      unfold startBroadcaster at hb
      split at hb
      · exact .inl hb
      · rcases List.mem_cons.1 hb with rfl | hb
        · exact .inr ⟨j, job, todo, rfl, hj, hphase⟩
        · exact .inl hb
    next => cases hs
  | release j =>
    obtain ⟨job, hj, hs⟩ := Option.bind_eq_some_iff.1 hs
    refine .inl ?_
    unfold stepRelease at hs
    split at hs <;>
      (cases hs
       try exact hb)
  | drop j =>
    obtain ⟨job, hj, hs⟩ := Option.bind_eq_some_iff.1 hs
    refine .inl ?_
    unfold stepDrop at hs
    split at hs
    next =>
      cases hs
      exact hb
    next key b' held _ _ =>
      cases hs
      exact launched_releaseRecovery (s := s) key ▸ hb
    next => cases hs

/-- The broadcaster was launched by the `Start` of a job that held it. -/
def StartedByHolder (es : List RegistryEvent) (b : Nat) : Prop :=
  ∃ (pre post : List RegistryEvent) (u : BroadcasterRegistry) (j : Nat) (job : RecoveryJob)
    (todo : List Nat), es = pre ++ .launch j :: post ∧
    exec BroadcasterRegistry.step {} pre = some u ∧ u.jobs[j]? = some job ∧
    job.phase = .starting (b :: todo) ∧ b ∈ job.held.map Prod.snd

theorem startedByHolder_of_launched {es : List RegistryEvent} {b : Nat}
    (h : exec BroadcasterRegistry.step {} es = some s) (hb : b ∈ s.launched) :
    StartedByHolder es b := by
  induction es using List.reverseRecOn generalizing s with
  | nil =>
    cases h
    cases hb
  | append_singleton es e ih =>
    obtain ⟨u, hu, he⟩ := exec_append.1 h
    obtain ⟨v, hv, hnil⟩ := exec_cons.1 he
    cases hnil
    rcases launched_step hv hb with hold | ⟨j, job, todo, rfl, hj, hphase⟩
    · obtain ⟨pre, post, w, j, job, todo, rfl, hw, hjob⟩ := ih hu hold
      refine ⟨pre, post ++ [e], w, j, job, todo, ?_, hw, hjob⟩
      rw [List.append_assoc, List.cons_append]
    · have hsound : Sound u := exec_invariant (fun _ _ _ hs => hs.step) hu sound_initial
      exact ⟨es, [], u, j, job, todo, rfl, hu, hj, hphase,
        hsound.covered j job hj _ hphase b List.mem_cons_self⟩

/-- In every run, a route has at most one registered broadcaster; it counts the unreleased
references to it, and every reference is to a registered broadcaster. A broadcaster is launched at
most once, by a job that holds it, and no job holds a broadcaster that a release stopped. -/
theorem recovery_counted {es : List RegistryEvent}
    (h : exec BroadcasterRegistry.step {} es = some s) :
    (∀ x ∈ s.recovery.entries, x.2.refs = s.held.count (x.1, x.2.id)) ∧
    (∀ job ∈ s.jobs, ∀ x ∈ job.held, ∃ rb, (x.1, rb) ∈ s.recovery.entries ∧ rb.id = x.2) ∧
    (s.recovery.entries.map Prod.fst).Nodup ∧
    s.launched.Nodup ∧ (∀ b ∈ s.launched, StartedByHolder es b) ∧
    ∀ b ∈ s.stopped, ∀ job ∈ s.jobs, ∀ x ∈ job.held, x.2 ≠ b := by
  have hsound : Sound s := exec_invariant (fun _ _ _ hs => hs.step) h sound_initial
  have hregistered : ∀ job ∈ s.jobs, ∀ x ∈ job.held,
      ∃ rb, (x.1, rb) ∈ s.recovery.entries ∧ rb.id = x.2 := by
    intro job hjob x hx
    obtain ⟨j, hj⟩ := List.mem_iff_getElem?.1 hjob
    exact hsound.counted.registered x (mem_held hj hx)
  refine ⟨hsound.counted.refs, hregistered, hsound.counted.keys, hsound.launched,
    fun b hb => startedByHolder_of_launched h hb, fun b hb job hjob x hx hxb => ?_⟩
  obtain ⟨rb, hrb, hid⟩ := hregistered job hjob x hx
  exact (hsound.stopped b hb).2 _ hrb (hid.trans hxb)

/-- Two jobs share a route; the first releases twice, then the second, and a third gets a new
broadcaster of the route. -/
def sharedRoute : List RegistryEvent :=
  [.run, .spawn ["m"] [("p", ["m"])], .acquire 0 true, .acquire 0 true,
    .spawn ["m"] [("", ["m"]), ("p", ["m"])], .acquire 1 true, .acquire 1 true, .start 0,
    .launch 0, .launch 0, .release 0, .drop 0, .release 0, .drop 0, .start 1, .launch 1,
    .launch 1, .release 1, .drop 1, .spawn ["m"] [("p", ["m"])],
    .acquire 2 true, .acquire 2 true]

theorem sharedRoute_counted : ∃ s, exec BroadcasterRegistry.step {} sharedRoute = some s ∧
    s.recovery.entries = [(⟨"m", "p"⟩, ⟨1, 1⟩)] ∧ s.launched = [0] ∧ s.stopped = [0] ∧
    s.held.count (⟨"m", "p"⟩, 1) = 1 ∧ StartedByHolder sharedRoute 0 := by
  have hrun : (exec BroadcasterRegistry.step {} sharedRoute).map
      (fun s => (s.recovery.entries, s.launched, s.stopped)) =
      some ([(⟨"m", "p"⟩, ⟨1, 1⟩)], [0], [0]) := by
    decide +kernel
  obtain ⟨s, hs, heq⟩ := Option.map_eq_some_iff.1 hrun
  obtain ⟨hentries, hrest⟩ := Prod.mk.inj heq
  obtain ⟨hlaunched, hstopped⟩ := Prod.mk.inj hrest
  obtain ⟨hrefs, -, -, -, hstarted, -⟩ := recovery_counted hs
  have hmem : ((⟨"m", "p"⟩, ⟨1, 1⟩) : RecoveryRouteKey × Refcount.Entry) ∈ s.recovery.entries := by
    rw [hentries]
    exact List.mem_singleton_self _
  refine ⟨s, hs, hentries, hlaunched, hstopped, (hrefs _ hmem).symm, hstarted 0 ?_⟩
  rw [hlaunched]
  exact List.mem_singleton_self _

end BroadcasterRegistry
end BatchGateway
