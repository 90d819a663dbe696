import BatchGateway.Pipeline.Permits

/-! The tokens of the endpoints' semaphores, which executions share, and of the global ones: every
token that was taken and not yet given back belongs to one request. -/
namespace BatchGateway

open Interleaving

/-! ### The requests that hold a token -/

/-- The routes of the requests that hold the token of their endpoint. -/
def AimdPC.routes : AimdPC → Multiset String
  | .global msg | .unwind msg | .forward msg => {msg.modelID}
  | _ => 0

def DirectPC.routes : DirectPC → Multiset String
  | .emit d => {d.modelID}
  | _ => 0

def SubmitPC.routes : SubmitPC → Multiset String
  | .generate msg => {msg.modelID}
  | .built d | .send d => {d.modelID}
  | .done => 0

def ReleasePC.routes : ReleasePC → Multiset String
  | .endpoint d => {d.modelID}
  | _ => 0

def Run.routes (r : Run) : Multiset String :=
  r.aimd.routes + r.direct.routes + (r.submits.map SubmitPC.routes).sum + r.release.routes

/-- The number of requests that took a token of the endpoint's semaphore and still hold it. -/
def Run.endpointHolders (cfg : RunConfig) (r : Run) (e : Nat) : Nat :=
  r.routes.countP fun route => cfg.endpoint route = some e

/-- The result of a request that took a token of the endpoint was not forwarded yet, whether or not
the token was given back. -/
def Run.unforwarded (cfg : RunConfig) (r : Run) (e : Nat) : Nat :=
  r.endpointHolders cfg e + match r.release with
    | .global d | .send d => if cfg.endpoint d.modelID = some e then 1 else 0
    | _ => 0

/-! ### One goroutine moves -/

/-- The step changes the endpoints' counts as it changes the holders. -/
def Balanced {J : Type} (cfg : RunConfig) (s : Shared J) (r : Run) (s' : Shared J) (r' : Run) :
    Prop :=
  ∀ e, s'.endpoints e + r.endpointHolders cfg e = s.endpoints e + r'.endpointHolders cfg e

section Moves

variable {S : Setup} {cfg : RunConfig} {env : Surroundings} {r r' : Run} {J : Type}
  {s s' : Shared J}

theorem balanced_of_routes (hs : s'.endpoints = s.endpoints) (hr : r'.routes = r.routes) :
    Balanced cfg s r s' r' := by
  intro e
  rw [hs, Run.endpointHolders, Run.endpointHolders, hr]

theorem BodyCodec.buildResult_modelID (bodies : BodyCodec) (msg : RequestItem)
    (resp : Option GenerateResponse) (err : Option ClientError) :
    (bodies.buildResult msg resp err).modelID = msg.modelID := by
  unfold BodyCodec.buildResult
  dsimp only
  split
  · split
    · rfl
    · split <;> rfl
  · rfl
  · split
    · rfl
    · split <;> rfl

@[simp] theorem routes_leave (err : Option Err) : (r.leave err).routes = r.routes := by
  cases err <;> rfl

@[simp] theorem routes_cancel (cause : Cause) (ctx : Ctx) :
    (r.cancel cause ctx).routes = r.routes := by
  cases ctx <;> rfl

variable {msg : RequestItem}

theorem routes_sendRequest (hs : r.sendRequest msg = some r') :
    r'.routes = r.routes := by
  unfold Run.sendRequest at hs
  split at hs <;> cases hs <;> rfl

variable {d : Delivery}

theorem routes_sendResult (hs : r.sendResult d = some r') :
    r'.routes = r.routes := by
  unfold Run.sendResult at hs
  split at hs <;> cases hs
  rfl

theorem routes_sendPreResult (hs : r.sendPreResult d = some r') :
    r'.routes = r.routes := by
  unfold Run.sendPreResult at hs
  split at hs <;> cases hs
  rfl

/-- A request that reaches the dispatcher has no token yet. -/
theorem routes_sendPreRequest (hs : r.sendPreRequest cfg msg = some r') :
    r'.routes = r.routes := by
  unfold Run.sendPreRequest at hs
  split at hs <;> cases hs
  · rfl
  next ha => simp [Run.routes, ha, AimdPC.routes]
  next ha => simp [Run.routes, ha, AimdPC.routes]

/-- The token goes with the request. -/
theorem routes_sendAimdRequest (hs : r.sendAimdRequest S cfg msg = some r') :
    r'.routes = r.routes + {msg.modelID} := by
  unfold Run.sendAimdRequest at hs
  split at hs
  next hd =>
    split at hs <;> cases hs
    · simp only [Run.routes, List.map_append, List.sum_append, List.map_cons, List.map_nil,
        List.sum_cons, List.sum_nil, SubmitPC.routes]
      abel
    · simp only [Run.routes, hd, DirectPC.routes, RequestItem.modelNotFound, RequestItem.error]
      abel
  next => cases hs

/-- The token goes with the result. -/
theorem routes_sendAimdResult (hs : r.sendAimdResult d = some r') :
    r'.routes = r.routes + {d.modelID} := by
  unfold Run.sendAimdResult at hs
  split at hs <;> cases hs
  next hr =>
    simp only [Run.routes, hr, ReleasePC.routes]
    abel

theorem routes_stepSource (hs : r.stepSource cfg = some r') : r'.routes = r.routes := by
  unfold Run.stepSource at hs
  split at hs
  case h_2 =>
    split at hs
    · cases hs
      rfl
    split at hs
    · cases hs
      rfl
    · have hr := routes_sendRequest hs
      exact hr
  case h_4 =>
    have hr := routes_sendRequest hs
    exact hr
  case h_7 err _ =>
    cases hs
    exact routes_leave err
  all_goals
    cases hs <;> rfl

theorem routes_stepPre (hs : r.stepPre cfg = some r') : r'.routes = r.routes := by
  unfold Run.stepPre at hs
  split at hs
  case h_1 | h_2 | h_3 | h_12 =>
    split at hs <;> cases hs
    rfl
  case h_4 => split at hs <;> cases hs <;> rfl
  case h_7 => split at hs <;> cases hs <;> rfl
  case h_9 =>
    have hr := routes_sendPreRequest hs
    exact hr
  case h_10 =>
    have hr := routes_sendResult hs
    exact hr
  case h_11 =>
    cases hs
    exact routes_cancel _ _
  all_goals
    cases hs <;> rfl

theorem routes_stepForward (hs : r.stepForward cfg = some r') : r'.routes = r.routes := by
  unfold Run.stepForward at hs
  split at hs
  · split at hs <;> cases hs
    rfl
  · have hr := routes_sendResult hs
    exact hr
  · cases hs
  · cases hs

theorem routes_stepDrain {sink : BatchResultStore} (hs : r.stepDrain S sink = some r') :
    r'.routes = r.routes := by
  unfold Run.stepDrain at hs
  split at hs
  case h_1 =>
    split at hs
    · cases hs
      rfl
    · split at hs <;> cases hs
      rfl
  case h_2 => split at hs <;> cases hs <;> rfl
  case h_9 =>
    cases hs
    exact routes_cancel _ _
  case h_10 err _ =>
    cases hs
    exact routes_leave err
  all_goals
    cases hs <;> rfl

theorem routes_stepJob {task : Task (Except Err (Option ResumableResumeState))}
    (hc : r.Control cfg) (hs : r.stepJob S cfg env task = some r') : r'.routes = r.routes := by
  cases Run.stepJob_cases hs with
  | launch pending hpc =>
    have hd := hc.dormant (by rw [hpc]; rfl)
    simp only [Run.routes, Run.launch, hd.aimd, hd.direct, hd.release, AimdPC.routes,
      DirectPC.routes, ReleasePC.routes]
    cases cfg.async <;> rfl
  | _ => rfl

theorem routes_awaits {slot : Run.Slot} {c : Call} {k : c.Resp → Run}
    (hk : r.awaits slot = some ⟨c, k⟩) (a : c.Resp) : (k a).routes = r.routes := by
  unfold Run.awaits at hk
  split at hk <;> split at hk <;> cases hk <;> rfl

/-- A submission keeps its token until it hands over the result. -/
theorem routes_stepSubmit {k : Nat} (hs : r.stepSubmit S env k = some r') :
    r'.routes = r.routes := by
  unfold Run.stepSubmit at hs
  split at hs
  case h_1 msg hpc =>
    cases hs
    have hset := sum_map_set SubmitPC.routes hpc
      (.built (S.bodies.buildResult msg env.response env.clientErr))
    simp only [SubmitPC.routes, S.bodies.buildResult_modelID, add_left_inj] at hset
    simp only [Run.routes, hset]
  case h_2 d hpc =>
    cases hs
    have hset := sum_map_set SubmitPC.routes hpc (.send (r.overruled d))
    have hmodel : (r.overruled d).modelID = d.modelID := by
      unfold Run.overruled
      split <;> rfl
    simp only [SubmitPC.routes, hmodel, add_left_inj] at hset
    simp only [Run.routes, hset]
  case h_3 d hpc =>
    have hset := sum_map_set SubmitPC.routes hpc .done
    simp only [SubmitPC.routes, add_zero] at hset
    have hr := routes_sendAimdResult hs
    rw [hr]
    simp only [Run.routes, ← hset]
    abel
  all_goals cases hs

theorem routes_stepDirect (hs : r.stepDirect = some r') : r'.routes = r.routes := by
  unfold Run.stepDirect at hs
  split at hs
  case h_1 hpc =>
    split at hs <;> cases hs
    simp [Run.routes, hpc, DirectPC.routes]
  case h_2 d hpc =>
    have hr := routes_sendAimdResult hs
    rw [hr]
    simp only [Run.routes, hpc, DirectPC.routes]
    abel
  case h_3 hpc =>
    split at hs <;> cases hs
    simp [Run.routes, hpc, DirectPC.routes]
  all_goals cases hs

theorem routes_stepAsync [DecidableEq J] {j : J} (hs : r.stepAsync S cfg env j s = some (s', r')) :
    s'.endpoints = s.endpoints ∧ r'.routes = r.routes := by
  unfold Run.stepAsync at hs
  split at hs
  case h_5 | h_8 =>
    obtain ⟨hu, rfl⟩ := Run.of_unshared hs
    have hr := routes_sendPreResult hu
    exact ⟨rfl, hr⟩
  case h_2 | h_3 | h_6 => split at hs <;> cases hs <;> exact ⟨rfl, rfl⟩
  all_goals
    cases hs <;> exact ⟨rfl, rfl⟩

/-! ### Taking tokens and giving them back -/

variable {route : String}

/-- One more request holds a token. -/
theorem balanced_take {e : Nat} (he : cfg.endpoint route = some e)
    (hr : r'.routes = r.routes + {route}) :
    Balanced cfg s r { s with endpoints := Function.update s.endpoints e (s.endpoints e + 1) }
      r' := by
  intro e'
  simp only [Run.endpointHolders, hr, Multiset.countP_add]
  by_cases h : e' = e
  · subst h
    simp [he, ← Multiset.cons_zero]
    omega
  · have hne : ¬ e = e' := fun he' => h he'.symm
    simp [he, h, hne, ← Multiset.cons_zero]

/-- A request gives its token back. -/
theorem balanced_give {e : Nat} (he : cfg.endpoint route = some e)
    (hr : r.routes = r'.routes + {route}) (hle : r.endpointHolders cfg e ≤ s.endpoints e) :
    Balanced cfg s r { s with endpoints := Function.update s.endpoints e (s.endpoints e - 1) }
      r' := by
  intro e'
  simp only [Run.endpointHolders, hr, Multiset.countP_add] at hle ⊢
  by_cases h : e' = e
  · subst h
    simp [he, ← Multiset.cons_zero] at hle ⊢
    omega
  · have hne : ¬ e = e' := fun he' => h he'.symm
    simp [he, h, hne, ← Multiset.cons_zero]

/-- A route without a semaphore needs no token. -/
theorem balanced_free (he : cfg.endpoint route = none)
    (hr : r'.routes = r.routes + {route} ∨ r.routes = r'.routes + {route}) :
    Balanced cfg s r s r' := by
  intro e
  have hone : ({route} : Multiset String).countP (fun x => cfg.endpoint x = some e) = 0 := by
    simp [he, ← Multiset.cons_zero]
  simp only [Run.endpointHolders]
  rcases hr with hr | hr <;> rw [hr, Multiset.countP_add, hone, Nat.add_zero]

/-- The endpoints' semaphores do not run out under their holders. -/
def Covered (cfg : RunConfig) (s : Shared J) (r : Run) : Prop :=
  ∀ e, r.endpointHolders cfg e ≤ s.endpoints e

theorem balanced_stepAimd (hc : Covered cfg s r) (hs : r.stepAimd S cfg env s = some (s', r')) :
    Balanced cfg s r s' r' := by
  unfold Run.stepAimd at hs
  split at hs
  case h_1 hpc | h_2 hpc =>
    split at hs <;> cases hs
    exact balanced_of_routes rfl (by simp [Run.routes, hpc, AimdPC.routes])
  case h_3 msg hpc =>
    have hroutes : ({ r with aimd := .global msg } : Run).routes = r.routes + {msg.modelID} := by
      simp only [Run.routes, hpc, AimdPC.routes]
      abel
    split at hs
    next he =>
      cases hs
      exact balanced_free he (.inl hroutes)
    next e he =>
      split at hs
      · cases hs
        exact balanced_take he hroutes
      · split at hs <;> cases hs
        exact balanced_of_routes rfl (by simp [Run.routes, hpc, AimdPC.routes])
  case h_4 msg hpc =>
    dsimp only at hs
    split at hs
    · cases hs
      exact balanced_of_routes rfl (by simp [Run.routes, hpc, AimdPC.routes])
    · split at hs <;> cases hs
      exact balanced_of_routes rfl (by simp [Run.routes, hpc, AimdPC.routes])
  case h_5 msg hpc =>
    cases hs
    have hroutes : r.routes =
        ({ r with aimd := .emit (msg.cancelled r.dispatchCause) } : Run).routes +
          {msg.modelID} := by
      simp only [Run.routes, hpc, AimdPC.routes]
      abel
    split
    next he => exact balanced_free he (.inr hroutes)
    next e he => exact balanced_give he hroutes (hc e)
  case h_6 msg hpc =>
    obtain ⟨hu, rfl⟩ := Run.of_unshared hs
    refine balanced_of_routes rfl ?_
    have hr := routes_sendAimdRequest hu
    rw [hr]
    simp only [Run.routes, hpc, AimdPC.routes]
    abel
  case h_7 d hpc =>
    obtain ⟨hu, rfl⟩ := Run.of_unshared hs
    refine balanced_of_routes rfl ?_
    have hr := routes_sendPreResult hu
    rw [hr]
    simp [Run.routes, hpc, AimdPC.routes]
  case h_8 hpc =>
    split at hs <;> cases hs
    exact balanced_of_routes rfl (by simp [Run.routes, hpc, AimdPC.routes])
  all_goals cases hs

theorem balanced_stepRelease (hc : Covered cfg s r) (hs : r.stepRelease cfg s = some (s', r')) :
    Balanced cfg s r s' r' := by
  unfold Run.stepRelease at hs
  split at hs
  case h_1 hpc =>
    split at hs <;> cases hs
    exact balanced_of_routes rfl (by simp [Run.routes, hpc, ReleasePC.routes])
  case h_2 d hpc =>
    cases hs
    have hroutes : r.routes = ({ r with release := .global d } : Run).routes + {d.modelID} := by
      simp only [Run.routes, hpc, ReleasePC.routes]
      abel
    split
    next he => exact balanced_free he (.inr hroutes)
    next e he => exact balanced_give he hroutes (hc e)
  case h_3 d hpc =>
    cases hs
    exact balanced_of_routes rfl (by simp [Run.routes, hpc, ReleasePC.routes])
  case h_4 d hpc =>
    obtain ⟨hu, rfl⟩ := Run.of_unshared hs
    refine balanced_of_routes rfl ?_
    have hr := routes_sendPreResult hu
    rw [hr]
    simp [Run.routes, hpc, ReleasePC.routes]
  all_goals cases hs

end Moves

theorem balanced_stepRun {S : Setup} {env : Surroundings} {r r' : Run} {j : Fin S.jobs}
    {s s' : Shared (Fin S.jobs)} {g : Goroutine} (hc : r.Control (S.config j))
    (hv : Covered (S.config j) s r) (hs : S.stepRun env j s r g = some (s', r')) :
    Balanced (S.config j) s r s' r' := by
  cases g with
  | async =>
    obtain ⟨he, hr⟩ := routes_stepAsync hs
    exact balanced_of_routes he hr
  | aimd => exact balanced_stepAimd hv hs
  | release => exact balanced_stepRelease hv hs
  | job | source | pre | forward | direct | submit | drain =>
    obtain ⟨hu, rfl⟩ := Run.of_unshared hs
    refine balanced_of_routes rfl ?_
    first
    | exact routes_stepJob hc hu
    | exact routes_stepSource hu
    | exact routes_stepPre hu
    | exact routes_stepForward hu
    | exact routes_stepDirect hu
    | exact routes_stepSubmit hu
    | exact routes_stepDrain hu

/-! ### The whole system -/

variable {S : Setup} {h h' : Hub S} {e : Event S}

/-- The requests of all executions that hold a token of the endpoint. -/
def Hub.endpointHolders (h : Hub S) (e : Nat) : Nat :=
  ∑ j, (h.runs j).endpointHolders (S.config j) e

/-- Changing one execution changes its own part of a sum. -/
theorem sum_runs_update (f : Fin S.jobs → Run → Nat) (runs : Fin S.jobs → Run) (j : Fin S.jobs)
    (r : Run) :
    ∑ i, f i (Function.update runs j r i) + f j (runs j) = ∑ i, f i (runs i) + f j r := by
  rw [← Finset.add_sum_erase _ _ (Finset.mem_univ j),
    ← Finset.add_sum_erase Finset.univ (fun i => f i (runs i)) (Finset.mem_univ j),
    Function.update_self]
  have hrest : ∑ i ∈ Finset.univ.erase j, f i (Function.update runs j r i) =
      ∑ i ∈ Finset.univ.erase j, f i (runs i) := by
    refine Finset.sum_congr rfl fun i hi => ?_
    rw [Function.update_of_ne (Finset.ne_of_mem_erase hi)]
  rw [hrest]
  omega

/-- Every token that was taken is held by a request. -/
structure Hub.Backed (h : Hub S) : Prop extends h.Permitted where
  endpoints : ∀ e, h.shared.endpoints e = h.endpointHolders e

theorem Hub.Backed.covered (hb : h.Backed) (j : Fin S.jobs) :
    Covered (S.config j) h.shared (h.runs j) := by
  intro e
  rw [hb.endpoints, Hub.endpointHolders, ← Finset.add_sum_erase _ _ (Finset.mem_univ j)]
  exact Nat.le_add_right _ _

theorem endpoints_update {j : Fin S.jobs} {r : Run} {s : Shared (Fin S.jobs)} (hb : h.Backed)
    (hr : Balanced (S.config j) h.shared (h.runs j) s r) (e : Nat) :
    s.endpoints e = ∑ i, (Function.update h.runs j r i).endpointHolders (S.config i) e := by
  have hsum := sum_runs_update (fun i r => r.endpointHolders (S.config i) e) h.runs j r
  have hbal := hr e
  have hold := hb.endpoints e
  unfold Hub.endpointHolders at hold
  omega

theorem Setup.endpoints_step (hs : S.step h e = some h') (hb : h.Backed) (ep : Nat) :
    h'.shared.endpoints ep = h'.endpointHolders ep := by
  obtain ⟨j, g, s, r, -, hr⟩ | ⟨j, slot, c, k, w, a, -, hk, -⟩ | ⟨j, cause, -⟩ |
    ⟨b, -, hbr⟩ | ⟨i, c, w, a, -, -, -⟩ := S.step_cases hs
  · exact endpoints_update hb (balanced_stepRun (hb.sound.control j) (hb.covered j) hr) ep
  · exact endpoints_update hb (balanced_of_routes rfl (routes_awaits hk a)) ep
  · exact endpoints_update hb (balanced_of_routes rfl (routes_cancel cause .job)) ep
  · obtain ⟨pc, rfl | ⟨d, j, js, r, -, -, hr, rfl⟩⟩ := Hub.stepBroadcaster_cases hbr
    · exact hb.endpoints ep
    · exact endpoints_update hb (balanced_of_routes rfl (routes_sendPreResult hr)) ep
  · exact hb.endpoints ep

theorem Setup.backed_step (hs : S.step h e = some h') (hb : h.Backed) : h'.Backed where
  toPermitted := S.permitted_step hs hb.toPermitted
  endpoints := S.endpoints_step hs hb

theorem Hub.Initial.backed (hi : h.Initial) : h.Backed where
  toPermitted := hi.permitted
  endpoints ep := by
    rw [hi.shared, Hub.endpointHolders, hi.runs]
    exact (Finset.sum_eq_zero fun j _ => rfl).symm

/-- `AIMDDispatcher.Run` is not running: the execution was not started or is over, it dispatches to
queues, or the call returned. -/
def Run.Returned (cfg : RunConfig) (r : Run) : Prop :=
  r.job ≠ .wait ∨ cfg.async = true ∨ r.aimd = .done

namespace Run

variable {cfg : RunConfig} {r : Run}

/-- Results that passed the dispatcher hold nothing. -/
theorem routes_of_results (h : ∀ t ∈ r.bag, t.IsResult) : r.routes = 0 ∧ holders r.bag = 0 := by
  have haimd : r.aimd.routes = 0 := by
    cases hpc : r.aimd with
    | «global» msg | unwind msg =>
      exact (h (.marked msg) (mem_bag_of_aimd (by simp [hpc, AimdPC.bag]))).elim
    | forward msg => exact (h (.admitted msg) (mem_bag_of_aimd (by simp [hpc, AimdPC.bag]))).elim
    | _ => rfl
  have hdirect : r.direct.routes = 0 := by
    cases hpc : r.direct with
    | emit d => exact (h (.answered d) (by simp [bag, hpc, DirectPC.bag])).elim
    | _ => rfl
  have hrelease : r.release.routes = 0 := by
    cases hpc : r.release with
    | endpoint d => exact (h (.answered d) (mem_bag_of_release (by simp [hpc, ReleasePC.bag]))).elim
    | _ => rfl
  have hsubmits : (r.submits.map SubmitPC.routes).sum = 0 := by
    refine List.sum_eq_zero fun m hm => ?_
    obtain ⟨pc, hpc, rfl⟩ := List.mem_map.1 hm
    obtain ⟨k, hk⟩ := List.mem_iff_getElem?.1 hpc
    cases pc with
    | generate msg =>
      exact (h (.admitted msg) (mem_bag_of_submits hk (by simp [SubmitPC.bag]))).elim
    | built d | send d =>
      exact (h (.answered d) (mem_bag_of_submits hk (by simp [SubmitPC.bag]))).elim
    | done => rfl
  refine ⟨by rw [routes, haimd, hdirect, hrelease, hsubmits]; rfl, holders_eq_zero fun t ht => ?_⟩
  have := h t ht
  cases t <;> first | rfl | exact this.elim

/-- Once the dispatchers are at rest, nothing holds a token. -/
theorem routes_of_rest (ha : r.aimd = .idle ∨ r.aimd = .done)
    (hd : r.direct = .idle ∨ r.direct = .done) (hr : r.release = .idle ∨ r.release = .done)
    (hk : r.submitsDone = true) : r.routes = 0 ∧ holders r.bag = 0 := by
  have hdone : ∀ pc ∈ r.submits, pc = .done := submitsDone_iff.1 hk
  have hroutes : (r.submits.map SubmitPC.routes).sum = 0 := by
    refine List.sum_eq_zero fun m hm => ?_
    obtain ⟨pc, hpc, rfl⟩ := List.mem_map.1 hm
    rw [hdone pc hpc]
    rfl
  have hbag : (r.submits.map SubmitPC.bag).sum = 0 := by
    refine List.sum_eq_zero fun m hm => ?_
    obtain ⟨pc, hpc, rfl⟩ := List.mem_map.1 hm
    rw [hdone pc hpc]
    rfl
  have hsource : holders r.source.bag = 0 := holders_eq_zero r.source.holds_bag
  have hpre : holders r.pre.bag = 0 := by cases r.pre <;> simp [PrePC.bag, Token.holds]
  have hforward : holders r.forward.bag = 0 := by
    cases r.forward <;> simp [ForwardPC.bag, Token.holds]
  have hasync : holders r.async.bag = 0 := by
    cases r.async with
    | rest ds => exact holders_bagOf (fun _ => rfl) ds
    | _ => simp [AsyncPC.bag, Token.holds]
  have hch : holders (bagOf .result r.resultCh) = 0 := holders_bagOf (fun _ => rfl) _
  have hdrain : holders r.drain.bag = 0 := by cases r.drain <;> simp [DrainPC.bag, Token.holds]
  rcases ha with ha | ha <;> rcases hd with hd | hd <;> rcases hr with hr | hr <;>
    simp [routes, bag, ha, hd, hr, hroutes, hbag, hsource, hpre, hforward, hasync, hch, hdrain,
      AimdPC.routes, DirectPC.routes, ReleasePC.routes, AimdPC.bag, DirectPC.bag, ReleasePC.bag]

theorem Returned.rest (h : r.Returned cfg) (hc : r.Control cfg)
    (hrest : r.job ≠ .wait → ∀ t ∈ r.bag, t.IsResult) : r.routes = 0 ∧ holders r.bag = 0 := by
  rcases h with hj | hmode | hdone
  · exact routes_of_results (hrest hj)
  · obtain ⟨ha, hr, hd, hk⟩ := hc.asynchronous hmode
    exact routes_of_rest (.inl ha) (.inl hd) (.inl hr) (by simp [submitsDone, hk])
  · obtain ⟨hd, hr⟩ := hc.aimdDone hdone
    exact routes_of_rest (.inr hdone) (.inr hd) (.inr hr) (hc.directDone hd)

/-- A request that holds the token of its endpoint counts. -/
theorem endpointHolders_pos {route : String} {e : Nat} (hr : route ∈ r.routes)
    (he : cfg.endpoint route = some e) : 0 < r.endpointHolders cfg e :=
  Multiset.countP_pos.2 ⟨route, hr, he⟩

end Run

/-- Permit conservation. -/
structure Hub.Conserves (h : Hub S) : Prop where
  /-- An endpoint's semaphore counts the requests of all executions that took a token of it and did
  not give it back. -/
  endpoints : ∀ e, h.shared.endpoints e = h.endpointHolders e
  globals : ∀ j, (h.runs j).globalTokens = holders (h.runs j).bag
  /-- No release finds an empty semaphore. -/
  unwind : ∀ j msg e, (h.runs j).aimd = .unwind msg → (S.config j).endpoint msg.modelID = some e →
    0 < h.shared.endpoints e
  releaseEndpoint : ∀ j d e, (h.runs j).release = .endpoint d →
    (S.config j).endpoint d.modelID = some e → 0 < h.shared.endpoints e
  releaseGlobal : ∀ j d, (h.runs j).release = .global d → 0 < (h.runs j).globalTokens
  returned : (∀ j, (h.runs j).Returned (S.config j)) →
    (∀ e, h.shared.endpoints e = 0) ∧ ∀ j, (h.runs j).globalTokens = 0

theorem Hub.Backed.conserves (hb : h.Backed) : h.Conserves where
  endpoints := hb.endpoints
  globals j := (hb.permitted j).held.symm
  unwind j msg e hpc he :=
    Nat.lt_of_lt_of_le (Run.endpointHolders_pos (by simp [Run.routes, hpc, AimdPC.routes]) he)
      (hb.covered j e)
  releaseEndpoint j d e hpc he :=
    Nat.lt_of_lt_of_le (Run.endpointHolders_pos (by simp [Run.routes, hpc, ReleasePC.routes]) he)
      (hb.covered j e)
  releaseGlobal j d hpc := by
    rw [← (hb.permitted j).held]
    refine Multiset.countP_pos.2 ⟨.answered d, Run.mem_bag_of_release ?_, rfl⟩
    simp [hpc, ReleasePC.bag]
  returned hret := by
    have hrest := fun j => (hret j).rest (hb.sound.control j) hb.resting
    refine ⟨fun e => ?_, fun j => (hb.permitted j).held.symm.trans (hrest j).2⟩
    rw [hb.endpoints, Hub.endpointHolders]
    refine Finset.sum_eq_zero fun j _ => ?_
    rw [Run.endpointHolders, (hrest j).1]
    rfl

/-- Whatever number of dispatchers shares the endpoints' semaphores, permits are conserved. -/
theorem permits_conserved {h₀ : Hub S} (hi : h₀.Initial) {es : List (Event S)}
    (hr : exec S.step h₀ es = some h) : h.Conserves := by
  have hb : h.Backed := along_invariant (P := fun _ _ => True) (I := Hub.Backed)
    (fun _ _ _ hb _ hs => S.backed_step hs hb) (along_true _ _) hr hi.backed
  exact hb.conserves

/-! ### Jobs with a guarded endpoint -/

/-- The routes of both requests are guarded by the semaphore of endpoint 0. -/
def guardedJobs : List RunConfig :=
  [{ RunConfig.sample "batch_1" "a" with endpoint := fun _ => some 0 },
    { RunConfig.sample "batch_2" "b" with endpoint := fun _ => some 0 }]

/-- The limit of the endpoint rises, and clients work on the requests of both jobs. -/
def guardedRun : List (Event (.sample guardedJobs)) :=
  let second : Fin (Setup.sample guardedJobs).jobs := ⟨1, Nat.one_lt_two⟩
  Event.generate (S := .sample guardedJobs) ⟨0, Nat.two_pos⟩ ++ Event.start second ++
    Event.fence second ++
    [.run second .aimd { limit := 2 }, .run second .aimd, .run second .aimd]

/-- The semaphore counts both requests. -/
theorem guardedRun_conserves :
    ∃ h, exec (Setup.sample guardedJobs).step (.sample guardedJobs) guardedRun = some h ∧
      h.shared.endpoints 0 = 2 ∧ h.Conserves := by
  have hrun : ((exec (Setup.sample guardedJobs).step (.sample guardedJobs) guardedRun).map fun h =>
      h.shared.endpoints 0) = some 2 := by decide +kernel
  obtain ⟨h, hr, htwo⟩ := Option.map_eq_some_iff.1 hrun
  exact ⟨h, hr, htwo, permits_conserved (Hub.sample_initial _) hr⟩

/-- The client of the first job answers, and both tokens are given back before the result is
forwarded. -/
def releasedRun : List (Event (.sample guardedJobs)) :=
  let first : Fin (Setup.sample guardedJobs).jobs := ⟨0, Nat.two_pos⟩
  Event.generate first ++ (Event.answer first).take 5

/-- The semaphore is empty, although the result of the request that took its token was not forwarded
yet. -/
theorem releasedRun_unforwarded : (Hub.sample guardedJobs).Initial ∧
    ((exec (Setup.sample guardedJobs).step (.sample guardedJobs) releasedRun).map fun h =>
      (h.shared.endpoints 0, ∑ j, (h.runs j).unforwarded ((Setup.sample guardedJobs).config j) 0)) =
      some (0, 1) :=
  ⟨Hub.sample_initial _, by decide +kernel⟩

end BatchGateway
