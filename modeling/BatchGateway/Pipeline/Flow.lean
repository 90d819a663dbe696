import BatchGateway.Pipeline.Soundness
import Mathlib.Algebra.Order.Group.Multiset
import Mathlib.Tactic.Abel

/-! The flow of requests and results through an execution, as a bag of tokens. Which goroutine holds
a token and which channel it passes does not matter any more; every step of the goroutines is one
of a few turns of tokens. -/
namespace BatchGateway

open Interleaving

/-- A request or a result, and how far it came. -/
inductive Token where
  /-- A line that cannot be read back. -/
  | unreadable
  | fresh (msg : RequestItem)
  /-- The fence let the request pass. -/
  | marked (msg : RequestItem)
  /-- The request is pending, about to be submitted. -/
  | stored (msg : RequestItem)
  /-- The request holds a global token. -/
  | admitted (msg : RequestItem)
  /-- The result still holds a global token. -/
  | answered (d : Delivery)
  | result (d : Delivery)
  /-- The result is being checkpointed. -/
  | accepted (d : Delivery)
  /-- The result was checkpointed. -/
  | settled (d : Delivery)

/-- The token of a planned line. -/
def Token.ofLine : Except Err RequestItem → Token
  | .ok msg => .fresh msg
  | .error _ => .unreadable

/-- The request holds a token of the dispatcher's global semaphore. -/
def Token.holds : Token → Bool
  | .admitted _ | .answered _ => true
  | _ => false

/-- The tokens of a list. -/
def bagOf {α : Type} (f : α → Token) (l : List α) : Multiset Token := (l.map f : List Token)

variable {α : Type}

@[simp] theorem bagOf_nil (f : α → Token) : bagOf f [] = 0 := rfl

@[simp] theorem bagOf_cons (f : α → Token) (a : α) (l : List α) :
    bagOf f (a :: l) = {f a} + bagOf f l := rfl

@[simp] theorem bagOf_append (f : α → Token) (l l' : List α) :
    bagOf f (l ++ l') = bagOf f l + bagOf f l' := by
  simp [bagOf, ← Multiset.coe_add]

@[simp] theorem mem_bagOf {f : α → Token} {l : List α} {t : Token} :
    t ∈ bagOf f l ↔ ∃ a ∈ l, f a = t := by
  simp [bagOf]

/-! ### Where the tokens are -/

def SourcePC.bag : SourcePC → Multiset Token
  | .produce todo held => bagOf .ofLine todo + bagOf .fresh held
  | .resubmit held => bagOf .fresh held
  | _ => 0

def PrePC.bag : PrePC → Multiset Token
  | .check msg | .mark msg _ => {.fresh msg}
  | .forward msg => {.marked msg}
  | .emit d _ => {.result d}
  | _ => 0

def ForwardPC.bag : ForwardPC → Multiset Token
  | .send d => {.result d}
  | _ => 0

def AsyncPC.bag : AsyncPC → Multiset Token
  | .receive msg => {.marked msg}
  | .submit msg => {.stored msg}
  | .emit d => {.result d}
  | .rest ds => bagOf .result ds
  | _ => 0

def AimdPC.bag : AimdPC → Multiset Token
  | .endpoint msg | .global msg | .unwind msg => {.marked msg}
  | .forward msg => {.admitted msg}
  | .emit d => {.result d}
  | _ => 0

def ReleasePC.bag : ReleasePC → Multiset Token
  | .endpoint d | .global d => {.answered d}
  | .send d => {.result d}
  | _ => 0

def DirectPC.bag : DirectPC → Multiset Token
  | .emit d => {.answered d}
  | _ => 0

def SubmitPC.bag : SubmitPC → Multiset Token
  | .generate msg => {.admitted msg}
  | .built d | .send d => {.answered d}
  | .done => 0

def DrainPC.bag : DrainPC → Multiset Token
  | .enrich d _ => {.result d}
  | .checkpoint d _ => {.accepted d}
  | .resolve d _ | .record d | .ack d => {.settled d}
  | _ => 0

def Run.bag (r : Run) : Multiset Token :=
  r.source.bag + r.pre.bag + r.forward.bag + r.async.bag + r.aimd.bag + r.release.bag +
    r.direct.bag + (r.submits.map SubmitPC.bag).sum + bagOf .result r.resultCh + r.drain.bag

theorem SourcePC.holds_bag (pc : SourcePC) : ∀ t ∈ pc.bag, t.holds = false := by
  intro t ht
  cases pc with
  | produce todo held =>
    simp only [bag, Multiset.mem_add, mem_bagOf] at ht
    obtain ⟨x, -, rfl⟩ | ⟨msg, -, rfl⟩ := ht
    · cases x <;> rfl
    · rfl
  | resubmit held =>
    obtain ⟨msg, -, rfl⟩ := mem_bagOf.1 ht
    rfl
  | _ => simp [bag] at ht

/-- The execution will not end well. -/
def Run.Broken (r : Run) : Prop :=
  r.dispatchCause.isSome ∨ r.source.failed ∨ r.pre = .lost ∨ r.drain.failed ∨ ∃ e, r.drain = .fail e

/-! ### Turns -/

/-- What a turn depends on. -/
structure Scene where
  cfg : RunConfig
  world : World
  /-- Why the dispatch was stopped, if it was. -/
  cause : Option Cause
  /-- The execution will not end well. -/
  broken : Prop
  /-- The goroutines start. -/
  starts : Prop
  /-- The deliveries that broadcasters hold. -/
  arrives : Delivery → Prop
  /-- The requests whose fence fails with an error. -/
  unfenced : RequestItem → Prop

/-- The turns: which tokens become which, and what happens to the pending requests and to the
global tokens. -/
inductive Turn (S : Setup) (sc : Scene) :
    Multiset Token → PendingRequests → Nat → Multiset Token → PendingRequests → Nat → Prop where
  | stay {p n} : Turn S sc 0 p n 0 p n
  | launch {p n pending} (hs : sc.starts) (hp : ∀ msg ∈ pending, .ok msg ∈ sc.cfg.requests ∧
      Attempted msg.requestID sc.world) :
      Turn S sc 0 p n (bagOf .ofLine sc.cfg.requests) pending n
  | lose {x p n} (hb : sc.broken) (hx : ∀ t ∈ x, t.holds = false) : Turn S sc x p n 0 p n
  | drop {msg p n} (ht : HasTerminal msg.requestID sc.world) : Turn S sc {.fresh msg} p n 0 p n
  | cancelFresh {msg p n} (hc : sc.cause.isSome) :
      Turn S sc {.fresh msg} p n {.result (msg.cancelled sc.cause)} p n
  | reject {msg e p n} (he : msg.parseError = some e) :
      Turn S sc {.fresh msg} p n {.result (msg.error e)} p n
  | unfenced {msg text p n} (hu : sc.unfenced msg) :
      Turn S sc {.fresh msg} p n {.result (msg.error ⟨"server_error", text⟩)} p n
  | mark {msg p n} (hm : Attempted msg.requestID sc.world) :
      Turn S sc {.fresh msg} p n {.marked msg} p n
  | cancelMarked {msg p n} (hc : sc.cause.isSome) :
      Turn S sc {.marked msg} p n {.result (msg.cancelled sc.cause)} p n
  | unknown {msg p n} : Turn S sc {.marked msg} p n {.result (msg.modelNotFound S.lib)} p n
  | store {msg p n} : Turn S sc {.marked msg} p n {.stored msg} (p.store msg) n
  | submit {msg p n} : Turn S sc {.stored msg} p n 0 p n
  | unsubmitted {msg e p n} : Turn S sc {.stored msg} p n {.result (msg.error e)} p n
  | collect {p n} (hc : p = [] ∨ sc.cause.isSome) :
      Turn S sc 0 p n (bagOf (fun msg => .result (msg.cancelled sc.cause)) p) [] n
  | acquire {msg p n} (hn : n < S.concurrency sc.cfg.processorID) :
      Turn S sc {.marked msg} p n {.admitted msg} p (n + 1)
  | answer {msg resp err p n} :
      Turn S sc {.admitted msg} p n {.answered (S.bodies.buildResult msg resp err)} p n
  | unanswered {msg p n} :
      Turn S sc {.admitted msg} p n {.answered (msg.modelNotFound S.lib)} p n
  | overrule {d p n} (hc : sc.cause.isSome) : Turn S sc {.answered d} p n {.answered { d with
      item := { d.item with error := some (cancelCode sc.cause) }, synthetic := true }} p n
  | release {d p n} : Turn S sc {.answered d} p n {.result d} p (n - 1)
  | receive {d p n} (hd : sc.arrives d) : Turn S sc 0 p n {.result d} p n
  | accept {d d' p n} (hd : p.enrich d = some d') : Turn S sc {.result d} p n {.accepted d'} p n
  | ignore {d p n} (hd : p.enrich d = none) : Turn S sc {.result d} p n 0 p n
  | settle {d p n} (ht : HasTerminal d.item.requestID sc.world) :
      Turn S sc {.accepted d} p n {.settled d} p n
  | resolve {d p n} :
      Turn S sc {.settled d} p n {.settled d} (p.resolve d.item.requestID) n
  | ack {d p n} : Turn S sc {.settled d} p n 0 p n

/-- One turn leads from one execution to the other. -/
def Moves (S : Setup) (sc : Scene) (r r' : Run) : Prop :=
  ∃ x y, x ≤ r.bag ∧ r'.bag + x = r.bag + y ∧
    Turn S sc x r.pending r.globalTokens y r'.pending r'.globalTokens

/-- A token after the turn was there before, or the turn made it. -/
theorem Moves.turn {S : Setup} {sc : Scene} {r r' : Run} (h : Moves S sc r r') :
    ∃ x y, Turn S sc x r.pending r.globalTokens y r'.pending r'.globalTokens ∧
      (∀ t ∈ x, t ∈ r.bag) ∧ ∀ t ∈ r'.bag, t ∈ r.bag ∨ t ∈ y := by
  obtain ⟨x, y, hx, hbag, ht⟩ := h
  refine ⟨x, y, ht, fun t hm => Multiset.mem_of_le hx hm, fun t hm => ?_⟩
  rw [← Multiset.mem_add, ← hbag]
  exact Multiset.mem_add.2 (.inl hm)

namespace Run

variable {S : Setup} {sc : Scene} {env : Surroundings} {r r' : Run}

theorem moves_of_eq (hb : r'.bag = r.bag) (hp : r'.pending = r.pending)
    (hn : r'.globalTokens = r.globalTokens) : Moves S sc r r' := by
  refine ⟨0, 0, Multiset.zero_le _, by rw [hb], ?_⟩
  rw [hp, hn]
  exact .stay

variable {t : Token}

theorem moves_one {y : Multiset Token} (hx : t ∈ r.bag) (hb : r'.bag + {t} = r.bag + y)
    (ht : Turn S sc {t} r.pending r.globalTokens y r'.pending r'.globalTokens) : Moves S sc r r' :=
  ⟨{t}, y, Multiset.singleton_le.2 hx, hb, ht⟩

theorem mem_bag_of_source (h : t ∈ r.source.bag) : t ∈ r.bag := by
  simp [bag, h]

theorem mem_bag_of_pre (h : t ∈ r.pre.bag) : t ∈ r.bag := by
  simp [bag, h]

theorem mem_bag_of_async (h : t ∈ r.async.bag) : t ∈ r.bag := by
  simp [bag, h]

theorem mem_bag_of_aimd (h : t ∈ r.aimd.bag) : t ∈ r.bag := by
  simp [bag, h]

theorem mem_bag_of_release (h : t ∈ r.release.bag) : t ∈ r.bag := by
  simp [bag, h]

theorem mem_bag_of_drain (h : t ∈ r.drain.bag) : t ∈ r.bag := by
  simp [bag, h]

theorem mem_bag_of_submits {k : Nat} {pc : SubmitPC} (hk : r.submits[k]? = some pc)
    (h : t ∈ pc.bag) : t ∈ r.bag := by
  have hle : pc.bag ≤ (r.submits.map SubmitPC.bag).sum := by
    calc pc.bag ≤ ((r.submits.set k .done).map SubmitPC.bag).sum + pc.bag :=
          Multiset.le_add_left _ _
      _ = _ := (sum_map_set SubmitPC.bag hk .done).trans (add_zero _)
  simp [bag, Multiset.mem_of_le hle h]

@[simp] theorem bag_cancel (cause : Cause) (ctx : Ctx) : (r.cancel cause ctx).bag = r.bag := by
  cases ctx <;> rfl

@[simp] theorem bag_leave (err : Option Err) : (r.leave err).bag = r.bag := by
  cases err <;> rfl

theorem bag_setSubmit {k : Nat} {pc : SubmitPC} (hk : r.submits[k]? = some pc) (pc' : SubmitPC) :
    { r with submits := r.submits.set k pc' }.bag + pc.bag = r.bag + pc'.bag := by
  have hsum := sum_map_set SubmitPC.bag hk pc'
  calc _ = r.source.bag + r.pre.bag + r.forward.bag + r.async.bag + r.aimd.bag + r.release.bag +
        r.direct.bag + (((r.submits.set k pc').map SubmitPC.bag).sum + pc.bag) +
        bagOf .result r.resultCh + r.drain.bag := by
        simp only [bag]
        abel
    _ = _ := by
        rw [hsum]
        simp only [bag]
        abel

/-! ### Sends -/

variable {d : Delivery}

theorem bag_sendResult (hs : r.sendResult d = some r') :
    r'.bag = r.bag + {.result d} ∧ r'.pending = r.pending ∧ r'.globalTokens = r.globalTokens := by
  unfold sendResult at hs
  split at hs <;> cases hs
  refine ⟨?_, rfl, rfl⟩
  simp only [bag, bagOf_append, bagOf_cons, bagOf_nil]
  abel

theorem bag_sendPreResult (hs : r.sendPreResult d = some r') :
    r'.bag = r.bag + {.result d} ∧ r'.pending = r.pending ∧ r'.globalTokens = r.globalTokens := by
  unfold sendPreResult at hs
  split at hs <;> cases hs
  next hp =>
    refine ⟨?_, rfl, rfl⟩
    simp only [bag, hp, ForwardPC.bag]
    abel

theorem bag_sendAimdResult (hs : r.sendAimdResult d = some r') :
    r'.bag = r.bag + {.answered d} ∧ r'.pending = r.pending ∧
      r'.globalTokens = r.globalTokens := by
  unfold sendAimdResult at hs
  split at hs <;> cases hs
  next hp =>
    refine ⟨?_, rfl, rfl⟩
    simp only [bag, hp, ReleasePC.bag]
    abel

end Run

/-- The scene of a step from one execution to the next. -/
structure Scene.Fits (sc : Scene) (r r' : Run) : Prop where
  control : r.Control sc.cfg
  cause : sc.cause = r'.dispatchCause
  broken : sc.broken ↔ r'.Broken
  starts : sc.starts ↔ r.job ≠ .wait ∧ r'.job = .wait

namespace Run

variable {S : Setup} {sc : Scene} {env : Surroundings} {r r' : Run}

theorem moves_sendRequest {msg : RequestItem} {pc : SourcePC} (h : sc.Fits r r')
    (hpc : r.source.bag = {.fresh msg} + pc.bag)
    (hs : { r with source := pc }.sendRequest msg = some r') : Moves S sc r r' := by
  have hmem : Token.fresh msg ∈ r.bag := mem_bag_of_source (by simp [hpc])
  obtain ⟨hc, hcause, hbroken, -⟩ := h
  unfold sendRequest at hs
  split at hs
  next hp =>
    cases hs
    refine moves_of_eq ?_ rfl rfl
    simp only [bag, hpc, show r.pre = .range from hp, PrePC.bag]
    abel
  next hp =>
    cases hs
    have hp : r.pre = .drain := hp
    refine moves_one hmem ?_ (.cancelFresh ?_)
    · simp only [bag, hpc, hp, hcause, PrePC.bag]
      abel
    · rw [hcause]
      exact hc.pre (by rw [hp]; rfl)
  next hp =>
    cases hs
    have hp : r.pre = .discard := hp
    refine moves_one hmem ?_ (.lose (hbroken.2 (.inl ?_)) (by simp [Token.holds]))
    · simp only [bag, hpc]
      abel
    · exact hc.pre (by rw [hp]; rfl)
  next => cases hs

theorem moves_sendPreRequest {msg : RequestItem} {pc : PrePC} (h : sc.Fits r r')
    (hpc : r.pre.bag = {.marked msg} + pc.bag)
    (hs : { r with pre := pc }.sendPreRequest sc.cfg msg = some r') : Moves S sc r r' := by
  have hmem : Token.marked msg ∈ r.bag := mem_bag_of_pre (by simp [hpc])
  obtain ⟨hc, hcause, -, -⟩ := h
  unfold sendPreRequest at hs
  split at hs
  next hp =>
    cases hs
    refine moves_of_eq ?_ rfl rfl
    simp only [bag, hpc, show r.async = .range from hp, AsyncPC.bag]
    abel
  next hp =>
    cases hs
    refine moves_of_eq ?_ rfl rfl
    simp only [bag, hpc, show r.aimd = .range from hp, AimdPC.bag]
    abel
  next hp =>
    cases hs
    have hp : r.aimd = .drain := hp
    refine moves_one hmem ?_ (.cancelMarked ?_)
    · simp only [bag, hpc, hp, hcause, AimdPC.bag]
      abel
    · rw [hcause]
      exact hc.aimd (by rw [hp]; rfl)
  next => cases hs

/-! ### Steps -/

theorem moves_stepSource (h : sc.Fits r r')
    (hp : r.source ≠ .idle → Prepared sc.cfg r.seed sc.world)
    (hs : r.stepSource sc.cfg = some r') : Moves S sc r r' := by
  unfold stepSource at hs
  split at hs
  next hpc =>
    cases hs
    refine ⟨r.source.bag, 0, ?_, ?_, .lose (h.broken.2 (.inr (.inl rfl))) r.source.holds_bag⟩
    · simp only [bag, add_assoc]
      exact Multiset.le_add_right _ _
    · simp only [bag, SourcePC.bag]
      abel
  next msg todo held hpc =>
    split at hs
    next hskip =>
      cases hs
      obtain ⟨seed, hseed, hq⟩ := (Option.any_eq_true _ _).1 hskip
      have ht := ((hp (by simp [hpc])).seed seed hseed).terminal _ (of_decide_eq_true hq)
      refine moves_one (t := .fresh msg) (mem_bag_of_source
        (by simp [hpc, SourcePC.bag, Token.ofLine]))
        ?_ (.drop ht)
      simp only [bag, hpc, SourcePC.bag, bagOf_cons, Token.ofLine]
      abel
    split at hs
    · cases hs
      refine moves_of_eq ?_ rfl rfl
      simp only [bag, hpc, SourcePC.bag, bagOf_cons, bagOf_append, bagOf_nil, Token.ofLine]
      abel
    · refine moves_sendRequest h ?_ hs
      simp only [hpc, SourcePC.bag, bagOf_cons, Token.ofLine]
      abel
  next held hpc =>
    cases hs
    refine moves_of_eq ?_ rfl rfl
    simp only [bag, hpc, SourcePC.bag, bagOf_nil]
    abel
  next msg held hpc =>
    refine moves_sendRequest h ?_ hs
    simp only [hpc, SourcePC.bag, bagOf_cons]
  next hpc =>
    cases hs
    refine moves_of_eq ?_ rfl rfl
    simp only [bag, hpc, SourcePC.bag, bagOf_nil]
  next hpc =>
    cases hs
    refine moves_of_eq ?_ rfl rfl
    simp only [bag, hpc, SourcePC.bag]
  next err hpc =>
    cases hs
    refine moves_of_eq ?_ ?_ ?_
    · rw [bag_leave]
      simp only [bag, hpc, SourcePC.bag]
    · cases err <;> rfl
    · cases err <;> rfl
  next => cases hs
  next => cases hs

variable {sink : BatchResultStore}

/-- The pre-dispatcher asks the fence; `unfenced` is what is known of a request whose fence fails. -/
theorem moves_stepPre (h : sc.Fits r r') (hw : sc.world.Counted)
    (hsound : r.Sound S.lib sc.cfg sink sc.world)
    (hu : ∀ msg e, r.pre = .mark msg (.ret (.error e)) → e.isConflict = false → sc.unfenced msg)
    (hs : r.stepPre sc.cfg = some r') : Moves S sc r r' := by
  have hquiet : ∀ {pc₀ pc}, r.pre = pc₀ → PrePC.bag pc₀ = 0 → PrePC.bag pc = 0 →
      Moves S sc r { r with pre := pc } := by
    intro pc₀ pc hpc h0 h1
    refine moves_of_eq ?_ rfl rfl
    simp only [bag, hpc, h0, h1]
  have hfresh : ∀ {pc₀ pc msg y}, r.pre = pc₀ → pc₀.bag = {.fresh msg} → PrePC.bag pc = y →
      Turn S sc {.fresh msg} r.pending r.globalTokens y r.pending r.globalTokens →
      Moves S sc r { r with pre := pc } := by
    intro pc₀ pc msg y hpc h0 h1 ht
    refine moves_one (mem_bag_of_pre (by simp [hpc, h0])) ?_ ht
    simp only [bag, hpc, h0, h1]
    abel
  have htold : ∀ msg a, r.pre = .mark msg (.ret a) → Duty.Told msg.requestID true a sc.world :=
    fun msg a hpc => hsound.mark _ _ hpc sc.world hw trivial (.refl _)
  unfold stepPre at hs
  split at hs
  case h_1 hpc | h_2 hpc | h_3 hpc =>
    split at hs <;> cases hs
    exact hquiet hpc rfl rfl
  case h_4 msg hpc =>
    split at hs <;> cases hs
    next _ cause hc =>
      have hcause : sc.cause = some cause := by rw [h.cause, ← hc]
      refine hfresh hpc rfl rfl ?_
      rw [← hcause]
      exact .cancelFresh (by rw [hcause]; rfl)
    next he => exact hfresh hpc rfl rfl (.reject he)
    next => exact moves_of_eq (by simp only [bag, hpc, PrePC.bag]) rfl rfl
  case h_5 msg hpc =>
    cases hs
    exact hfresh hpc rfl rfl (.mark (htold msg _ hpc))
  case h_6 msg hpc =>
    cases hs
    exact hfresh hpc rfl rfl (.drop (htold msg _ hpc))
  case h_7 msg e hpc =>
    split at hs <;> cases hs
    · exact hfresh hpc rfl rfl (.lose (h.broken.2 (.inr (.inr (.inl rfl)))) (by simp [Token.holds]))
    next he =>
      exact hfresh hpc rfl rfl (.unfenced (hu msg e hpc (by simpa using he)))
  case h_9 msg hpc => exact moves_sendPreRequest h (by rw [hpc]; rfl) hs
  case h_10 d draining hpc =>
    obtain ⟨hb, hp, hn⟩ := bag_sendResult hs
    have hd : r.pre.bag = {.result d} := by rw [hpc]; rfl
    have h0 : PrePC.bag (if draining then .drain else .range) = 0 := by cases draining <;> rfl
    refine moves_of_eq ?_ hp hn
    rw [hb]
    simp only [bag, hd, h0]
    abel
  case h_11 hpc =>
    cases hs
    refine moves_of_eq ?_ rfl rfl
    rw [bag_cancel]
    simp only [bag, hpc, PrePC.bag]
  case h_12 hpc =>
    split at hs <;> cases hs
    exact hquiet hpc rfl rfl
  case h_8 | h_13 | h_14 => cases hs

theorem moves_stepForward (hs : r.stepForward sc.cfg = some r') : Moves S sc r r' := by
  unfold stepForward at hs
  split at hs
  next hpc =>
    split at hs <;> cases hs
    exact moves_of_eq (by simp only [bag, hpc, ForwardPC.bag]) rfl rfl
  next d hpc =>
    obtain ⟨hb, hp, hn⟩ := bag_sendResult hs
    refine moves_of_eq ?_ hp hn
    rw [hb]
    simp only [bag, hpc, ForwardPC.bag]
    abel
  next => cases hs
  next => cases hs

theorem moves_stepAsync {J : Type} [DecidableEq J] {j : J} {s s' : Shared J} (h : sc.Fits r r')
    (hs : r.stepAsync S sc.cfg env j s = some (s', r')) : Moves S sc r r' := by
  have hone : ∀ {pc₀ pc t y p}, r.async = pc₀ → pc₀.bag = {t} → AsyncPC.bag pc = y →
      Turn S sc {t} r.pending r.globalTokens y p r.globalTokens →
      Moves S sc r { r with async := pc, pending := p } := by
    intro pc₀ pc t y p hpc h0 h1 ht
    refine moves_one (mem_bag_of_async (by simp [hpc, h0])) ?_ ht
    simp only [bag, hpc, h0, h1]
    abel
  unfold stepAsync at hs
  split at hs
  case h_1 hpc | h_10 hpc | h_9 hpc =>
    cases hs
    exact moves_of_eq (by simp only [bag, hpc, AsyncPC.bag, bagOf_nil]) rfl rfl
  case h_2 hpc | h_6 hpc =>
    split at hs <;> cases hs
    exact moves_of_eq (by simp only [bag, hpc, AsyncPC.bag]) rfl rfl
  case h_3 msg hpc =>
    split at hs <;> cases hs
    · exact hone hpc rfl rfl .store
    · exact hone hpc rfl rfl .unknown
  case h_4 msg hpc =>
    cases hs
    split
    · exact hone hpc rfl rfl .unsubmitted
    · exact hone hpc rfl rfl .submit
  case h_5 hpc | h_8 hpc =>
    obtain ⟨hu, rfl⟩ := Run.of_unshared hs
    obtain ⟨hb, hp, hn⟩ := bag_sendPreResult hu
    refine moves_of_eq ?_ hp hn
    rw [hb]
    simp only [bag, hpc, AsyncPC.bag, bagOf_cons]
    abel
  case h_7 hpc =>
    cases hs
    refine ⟨0, _, Multiset.zero_le _, ?_, .collect ?_⟩
    · simp only [bag, hpc, AsyncPC.bag, h.cause, bagOf, List.map_map, Function.comp_def]
      abel
    · rw [h.cause]
      exact h.control.collect hpc
  case h_11 | h_12 => cases hs

theorem moves_stepAimd {J : Type} {s s' : Shared J} (h : sc.Fits r r')
    (hs : r.stepAimd S sc.cfg env s = some (s', r')) : Moves S sc r r' := by
  have hone : ∀ {pc₀ pc t y n}, r.aimd = pc₀ → pc₀.bag = {t} → AimdPC.bag pc = y →
      Turn S sc {t} r.pending r.globalTokens y r.pending n →
      Moves S sc r { r with aimd := pc, globalTokens := n } := by
    intro pc₀ pc t y n hpc h0 h1 ht
    refine moves_one (mem_bag_of_aimd (by simp [hpc, h0])) ?_ ht
    simp only [bag, hpc, h0, h1]
    abel
  have hcancel : ∀ {pc₀ msg}, r.aimd = pc₀ → pc₀.bag = {.marked msg} → r.dispatchCause.isSome →
      sc.cause = r.dispatchCause →
      Moves S sc r { r with aimd := .emit (msg.cancelled r.dispatchCause) } := by
    intro pc₀ msg hpc h0 hc hcause
    refine hone hpc h0 rfl ?_
    rw [← hcause] at hc ⊢
    exact .cancelMarked hc
  unfold stepAimd at hs
  split at hs
  case h_1 hpc | h_2 hpc | h_8 hpc =>
    split at hs <;> cases hs
    exact moves_of_eq (by simp only [bag, hpc, AimdPC.bag]) rfl rfl
  case h_3 msg hpc =>
    split at hs
    · cases hs
      exact moves_of_eq (by simp only [bag, hpc, AimdPC.bag]) rfl rfl
    · split at hs
      · cases hs
        exact moves_of_eq (by simp only [bag, hpc, AimdPC.bag]) rfl rfl
      · split at hs <;> cases hs
        next hc => exact hcancel hpc rfl hc h.cause
  case h_4 msg hpc =>
    dsimp only at hs
    split at hs
    · cases hs
      exact moves_of_eq (by simp only [bag, hpc, AimdPC.bag]) rfl rfl
    · split at hs <;> cases hs
      next hfull => exact hone hpc rfl rfl (.acquire (Nat.lt_of_not_le hfull))
  case h_5 msg hpc =>
    cases hs
    exact hcancel hpc rfl (h.control.aimd (by rw [hpc]; rfl)) h.cause
  case h_6 msg hpc =>
    obtain ⟨hu, rfl⟩ := Run.of_unshared hs
    unfold sendAimdRequest at hu
    split at hu
    next hd =>
      have hd : r.direct = .range := hd
      split at hu <;> cases hu
      · refine moves_of_eq ?_ rfl rfl
        simp only [bag, hpc, AimdPC.bag, List.map_append, List.sum_append, List.map_cons,
          List.map_nil, List.sum_cons, List.sum_nil, SubmitPC.bag]
        abel
      · refine moves_one (t := .admitted msg) (mem_bag_of_aimd (by simp [hpc, AimdPC.bag])) ?_
          .unanswered
        simp only [bag, hpc, hd, AimdPC.bag, DirectPC.bag]
        abel
    next => cases hu
  case h_7 d hpc =>
    obtain ⟨hu, rfl⟩ := Run.of_unshared hs
    obtain ⟨hb, hp, hn⟩ := bag_sendPreResult hu
    refine moves_of_eq ?_ hp hn
    rw [hb]
    simp only [bag, hpc, AimdPC.bag]
    abel
  case h_9 | h_10 => cases hs

theorem moves_stepRelease {J : Type} {s s' : Shared J}
    (hs : r.stepRelease sc.cfg s = some (s', r')) : Moves S sc r r' := by
  unfold stepRelease at hs
  split at hs
  next hpc =>
    split at hs <;> cases hs
    exact moves_of_eq (by simp only [bag, hpc, ReleasePC.bag]) rfl rfl
  next hpc =>
    cases hs
    exact moves_of_eq (by simp only [bag, hpc, ReleasePC.bag]) rfl rfl
  next d hpc =>
    cases hs
    refine moves_one (t := .answered d) (mem_bag_of_release (by simp [hpc, ReleasePC.bag])) ?_
      .release
    simp only [bag, hpc, ReleasePC.bag]
    abel
  next d hpc =>
    obtain ⟨hu, rfl⟩ := Run.of_unshared hs
    obtain ⟨hb, hp, hn⟩ := bag_sendPreResult hu
    refine moves_of_eq ?_ hp hn
    rw [hb]
    simp only [bag, hpc, ReleasePC.bag]
    abel
  next => cases hs
  next => cases hs

theorem moves_stepDirect (hs : r.stepDirect = some r') : Moves S sc r r' := by
  unfold stepDirect at hs
  split at hs
  case h_1 hpc | h_3 hpc =>
    split at hs <;> cases hs
    exact moves_of_eq (by simp only [bag, hpc, DirectPC.bag]) rfl rfl
  case h_2 d hpc =>
    obtain ⟨hb, hp, hn⟩ := bag_sendAimdResult hs
    refine moves_of_eq ?_ hp hn
    rw [hb]
    simp only [bag, hpc, DirectPC.bag]
    abel
  case h_4 | h_5 => cases hs

theorem moves_stepSubmit {k : Nat} (h : sc.Fits r r') (hs : r.stepSubmit S env k = some r') :
    Moves S sc r r' := by
  unfold stepSubmit at hs
  split at hs
  next msg hk =>
    cases hs
    exact moves_one (mem_bag_of_submits hk (by simp [SubmitPC.bag])) (bag_setSubmit hk _) .answer
  next d hk =>
    cases hs
    have hcause : sc.cause = r.dispatchCause := h.cause
    have hbag := bag_setSubmit hk (.send (r.overruled d))
    have hmem := mem_bag_of_submits (t := .answered d) hk (by simp [SubmitPC.bag])
    unfold overruled at hbag ⊢
    split at hbag
    next hc =>
      rw [if_pos hc]
      refine moves_one hmem hbag ?_
      rw [← hcause] at hc ⊢
      exact .overrule hc.1
    next hc =>
      rw [if_neg hc]
      exact moves_of_eq (add_right_cancel hbag) rfl rfl
  next d hk =>
    obtain ⟨hb, hp, hn⟩ := bag_sendAimdResult hs
    exact moves_of_eq (hb.trans ((bag_setSubmit hk .done).trans (add_zero _))) hp hn
  next => cases hs
  next => cases hs

theorem moves_stepDrain (h : sc.Fits r r') (hw : sc.world.Counted)
    (hsound : r.Sound S.lib sc.cfg sink sc.world) (hs : r.stepDrain S sink = some r') :
    Moves S sc r r' := by
  have hone : ∀ {pc₀ pc t y p}, r.drain = pc₀ → pc₀.bag = {t} → DrainPC.bag pc = y →
      Turn S sc {t} r.pending r.globalTokens y p r.globalTokens →
      Moves S sc r { r with drain := pc, pending := p } := by
    intro pc₀ pc t y p hpc h0 h1 ht
    refine moves_one (mem_bag_of_drain (by simp [hpc, h0])) ?_ ht
    simp only [bag, hpc, h0, h1]
    abel
  unfold stepDrain at hs
  split at hs
  case h_1 hpc =>
    split at hs
    next hch =>
      cases hs
      refine moves_of_eq ?_ rfl rfl
      simp only [bag, hpc, hch, DrainPC.bag, bagOf_cons]
      abel
    next =>
      split at hs <;> cases hs
      exact moves_of_eq (by simp only [bag, hpc, DrainPC.bag]) rfl rfl
  case h_2 d err hpc =>
    cases hp : r.pending.enrich d with
    | none =>
      simp only [hp] at hs
      cases hs
      exact hone hpc rfl rfl (.ignore hp)
    | some d' =>
      cases err with
      | none =>
        simp only [hp] at hs
        cases hs
        exact hone hpc rfl rfl (.accept hp)
      | some e =>
        simp only [hp] at hs
        cases hs
        exact hone hpc rfl rfl
          (.lose (h.broken.2 (.inr (.inr (.inr (.inl rfl))))) (by simp [Token.holds]))
  case h_3 d committed hpc =>
    cases hs
    have ht : HasTerminal d.item.requestID sc.world := by
      have := hsound.checkpoint _ _ hpc sc.world hw trivial (.refl _)
      cases committed <;> exact this
    exact hone hpc rfl rfl (.settle ht)
  case h_4 d e hpc =>
    cases hs
    exact hone hpc rfl rfl
      (.lose (h.broken.2 (.inr (.inr (.inr (.inr ⟨e, rfl⟩))))) (by simp [Token.holds]))
  case h_6 d committed hpc =>
    cases hs
    exact hone hpc rfl (by cases committed <;> rfl) .resolve
  case h_7 hpc =>
    cases hs
    exact moves_of_eq (by simp only [bag, hpc, DrainPC.bag]) rfl rfl
  case h_8 hpc =>
    cases hs
    exact hone hpc rfl rfl .ack
  case h_9 hpc =>
    cases hs
    refine moves_of_eq ?_ rfl rfl
    rw [bag_cancel]
    simp only [bag, hpc, DrainPC.bag]
  case h_10 err hpc =>
    cases hs
    refine moves_of_eq ?_ (by cases err <;> rfl) (by cases err <;> rfl)
    rw [bag_leave]
    simp only [bag, hpc, DrainPC.bag]
  case h_5 | h_11 | h_12 => cases hs

/-- Before the goroutines start there is nothing on its way. -/
theorem Dormant.bag (h : r.Dormant) : r.bag = 0 := by
  obtain ⟨hsource, hpre, hforward, hasync, haimd, hrelease, hdirect, hdrain, hsubmits, hch, -, -⟩ := h
  simp only [Run.bag, hsource, hpre, hforward, hasync, haimd, hrelease, hdirect, hdrain, hsubmits,
    hch, SourcePC.bag, PrePC.bag, ForwardPC.bag, AsyncPC.bag, AimdPC.bag, ReleasePC.bag,
    DirectPC.bag, DrainPC.bag, List.map_nil, List.sum_nil, bagOf_nil, add_zero]

theorem bag_launch {cfg : RunConfig} (h : r.Dormant) (pending : PendingRequests) :
    (r.launch cfg pending).bag = bagOf .ofLine cfg.requests := by
  cases hasync : cfg.async <;>
  simp only [bag, launch, hasync, h.submits, h.resultCh, SourcePC.bag, PrePC.bag, ForwardPC.bag,
    AsyncPC.bag, AimdPC.bag, ReleasePC.bag, DirectPC.bag, DrainPC.bag, List.map_nil, List.sum_nil,
    bagOf_nil, add_zero, if_true, Bool.false_eq_true, if_false]

theorem moves_stepJob (h : sc.Fits r r') (hsound : r.Sound S.lib sc.cfg sink sc.world)
    (hs : r.stepJob S sc.cfg env (sc.cfg.prepare S.lib sink) = some r') : Moves S sc r r' := by
  unfold stepJob at hs
  split at hs
  case h_5 hpc =>
    cases hs
    obtain ⟨e, he⟩ | ⟨pending, hp, he⟩ := build_cases S sc.cfg env r
    · rw [he]
      exact moves_of_eq rfl rfl rfl
    · rw [he]
      have hd := h.control.dormant (by rw [hpc]; rfl)
      refine ⟨0, _, Multiset.zero_le _, ?_, .launch (h.starts.2 ⟨by simp [hpc], by rw [he]; rfl⟩) ?_⟩
      · rw [bag_launch hd, hd.bag, add_zero, zero_add]
      · intro msg hmsg
        obtain ⟨hin, hrec⟩ := mem_preStored hp hmsg
        simp only [recovering, Bool.and_eq_true, Option.any_eq_true, List.any_eq_true,
          decide_eq_true_eq] at hrec
        obtain ⟨-, seed, hseed, p, hp, hq, -⟩ := hrec
        refine ⟨hin, ?_⟩
        rw [← hq]
        exact ((hsound.prepared (.inl hpc)).seed seed hseed).inFlight p hp
  case h_6 | h_8 => split at hs <;> cases hs <;> exact moves_of_eq rfl rfl rfl
  all_goals
    cases hs <;> exact moves_of_eq rfl rfl rfl

theorem moves_cancel (cause : Cause) (ctx : Ctx) : Moves S sc r (r.cancel cause ctx) :=
  moves_of_eq (bag_cancel ..) (by cases ctx <;> rfl) (by cases ctx <;> rfl)

/-- A call changes the program of its goroutine only. -/
theorem moves_awaits {slot : Slot} {c : Call} {k : c.Resp → Run}
    (hk : r.awaits slot = some ⟨c, k⟩) (a : c.Resp) : Moves S sc r (k a) := by
  obtain ⟨t, hpc⟩ | ⟨msg, t, hpc⟩ | ⟨d, t, hpc⟩ := awaits_cases hk
  · exact moves_of_eq rfl rfl rfl
  · exact moves_of_eq (by simp only [bag, hpc, PrePC.bag]) rfl rfl
  · exact moves_of_eq (by simp only [bag, hpc, DrainPC.bag]) rfl rfl

/-- A broadcaster hands over a delivery. -/
theorem moves_sendPreResult {d : Delivery} (hd : sc.arrives d) (hs : r.sendPreResult d = some r') :
    Moves S sc r r' := by
  obtain ⟨hb, hp, hn⟩ := bag_sendPreResult hs
  refine ⟨0, {.result d}, Multiset.zero_le _, by rw [hb, add_zero], ?_⟩
  rw [hp, hn]
  exact .receive hd

end Run

/-! ### The whole system -/

variable {S : Setup} {h h' : Hub S} {e : Event S}

/-- The scene of a step of the system, for one execution. -/
def Hub.scene (h : Hub S) (e : Event S) (h' : Hub S) (j : Fin S.jobs) : Scene where
  cfg := S.config j
  world := h.worlds (S.batch j)
  cause := (h'.runs j).dispatchCause
  broken := (h'.runs j).Broken
  starts := (h.runs j).job ≠ .wait ∧ (h'.runs j).job = .wait
  arrives d := ∃ b js, h.broadcasters b = .send d js
  unfenced msg := e.who = .run j .pre ∧
    ∃ err, (h.runs j).pre = .mark msg (.ret (.error err)) ∧ err.isConflict = false

theorem Hub.moves_stepRun {j : Fin S.jobs} {s s' : Shared (Fin S.jobs)} {g : Goroutine} {r' : Run}
    (hh : h.Sound) (hf : (h.scene e h' j).Fits (h.runs j) r') (hw : e.who = .run j g)
    (hs : S.stepRun e.env j s (h.runs j) g = some (s', r')) :
    Moves S (h.scene e h' j) (h.runs j) r' := by
  have hsound := hh.run j
  cases g with
  | async => exact Run.moves_stepAsync hf hs
  | aimd => exact Run.moves_stepAimd hf hs
  | release => exact Run.moves_stepRelease hs
  | job | source | pre | forward | direct | submit | drain =>
    obtain ⟨hu, rfl⟩ := Run.of_unshared hs
    first
    | exact Run.moves_stepJob hf hsound hu
    | exact Run.moves_stepSource hf (fun hne => hsound.prepared (.inr hne)) hu
    | exact Run.moves_stepPre hf (hh.counted _) hsound (fun _ err hpc he => ⟨hw, err, hpc, he⟩) hu
    | exact Run.moves_stepForward hu
    | exact Run.moves_stepDirect hu
    | exact Run.moves_stepSubmit hf hu
    | exact Run.moves_stepDrain hf (hh.counted _) hsound hu

/-- Every step of the system is one turn in every execution. -/
theorem Setup.moves_step (hs : S.step h e = some h') (hh : h.Sound) (j : Fin S.jobs) :
    Moves S (h.scene e h' j) (h.runs j) (h'.runs j) := by
  have hfits : (h.scene e h' j).Fits (h.runs j) (h'.runs j) :=
    ⟨hh.control j, rfl, .rfl, .rfl⟩
  generalize hsc : h.scene e h' j = sc at hfits ⊢
  have hstay : ∀ {j' r}, (j = j' → Moves S sc (h.runs j') r) →
      Moves S sc (h.runs j) (Function.update h.runs j' r j) := by
    intro j' r hr
    by_cases hj : j = j'
    · subst hj
      rw [Function.update_self]
      exact hr rfl
    · rw [Function.update_of_ne hj]
      exact Run.moves_of_eq rfl rfl rfl
  obtain ⟨j', g, s, r, hw, hr⟩ | ⟨j', slot, c, k, w, a, -, hk, hp⟩ | ⟨j', cause, -⟩ |
    ⟨b, -, hb⟩ | ⟨i, c, w, a, -, hc, hp⟩ := S.step_cases hs
  · refine hstay fun hj => ?_
    subst hj hsc
    dsimp only at hfits
    rw [Function.update_self] at hfits
    exact Hub.moves_stepRun hh hfits hw hr
  · exact hstay fun _ => Run.moves_awaits hk a
  · exact hstay fun _ => Run.moves_cancel cause _
  · obtain ⟨pc, rfl | ⟨d, j', js, r, hpc, -, hr, rfl⟩⟩ := Hub.stepBroadcaster_cases hb
    · exact Run.moves_of_eq rfl rfl rfl
    · subst hsc
      exact hstay fun _ => Run.moves_sendPreResult ⟨b, _, hpc⟩ hr
  · exact Run.moves_of_eq rfl rfl rfl

end BatchGateway
