import BatchGateway.Pipeline.Outcome
import Mathlib.Algebra.BigOperators.Fin
import Mathlib.Algebra.Order.BigOperators.Group.Finset

/-! The global concurrency limit of a processor: each execution counts its own requests, so the
limit holds for the processor when the executions it runs side by side have few of them. -/
namespace BatchGateway

open Interleaving

/-- The request was answered. -/
def Token.IsResult : Token → Prop
  | .result _ | .accepted _ | .settled _ => True
  | _ => False

instance : DecidablePred Token.IsResult
  | .result _ | .accepted _ | .settled _ => .isTrue trivial
  | .unreadable | .fresh _ | .marked _ | .stored _ | .admitted _ | .answered _ => .isFalse id

/-- The number of requests without a result. -/
def outstanding (b : Multiset Token) : Nat := b.countP fun t => ¬ t.IsResult

@[simp] theorem outstanding_add (b b' : Multiset Token) :
    outstanding (b + b') = outstanding b + outstanding b' :=
  Multiset.countP_add _ _ _

@[simp] theorem outstanding_zero : outstanding 0 = 0 := rfl

@[simp] theorem outstanding_singleton (t : Token) :
    outstanding {t} = if t.IsResult then 0 else 1 := by
  simp [outstanding, ← Multiset.cons_zero, Multiset.countP_cons]

/-- The number of requests that hold a global token. -/
def holders (b : Multiset Token) : Nat := b.countP fun t => t.holds = true

@[simp] theorem holders_add (b b' : Multiset Token) : holders (b + b') = holders b + holders b' :=
  Multiset.countP_add _ _ _

@[simp] theorem holders_zero : holders 0 = 0 := rfl

@[simp] theorem holders_singleton (t : Token) : holders {t} = if t.holds then 1 else 0 := by
  simp [holders, ← Multiset.cons_zero, Multiset.countP_cons]

theorem holders_eq_zero {b : Multiset Token} (h : ∀ t ∈ b, t.holds = false) : holders b = 0 :=
  Multiset.countP_eq_zero.2 fun t ht => by simp [h t ht]

theorem holders_bagOf {α : Type} {f : α → Token} (hf : ∀ a, (f a).holds = false) (l : List α) :
    holders (bagOf f l) = 0 := by
  refine holders_eq_zero fun t ht => ?_
  obtain ⟨a, -, rfl⟩ := mem_bagOf.1 ht
  exact hf a

theorem holders_le_outstanding (b : Multiset Token) : holders b ≤ outstanding b := by
  rw [holders, outstanding, Multiset.countP_eq_card_filter, Multiset.countP_eq_card_filter]
  refine Multiset.card_le_card (Multiset.monotone_filter_right b fun t ht hr => ?_)
  cases t <;> first | exact hr | cases ht

/-- Tokens are taken and given back with the requests that hold them. -/
theorem Turn.permits {S : Setup} {sc : Scene} {x y : Multiset Token} {p p' : PendingRequests}
    {n n' : Nat} (h : Turn S sc x p n y p' n') (hn : holders x ≤ n) :
    holders y + n = holders x + n' ∧ (n' ≤ n ∨ n' ≤ S.concurrency sc.cfg.processorID) := by
  cases h with
  | launch =>
    rw [holders_bagOf (fun a => by cases a <;> rfl)]
    exact ⟨rfl, .inl (Nat.le_refl _)⟩
  | lose hb hx =>
    rw [holders_eq_zero hx]
    exact ⟨rfl, .inl (Nat.le_refl _)⟩
  | collect =>
    rw [holders_bagOf fun _ => rfl]
    exact ⟨rfl, .inl (Nat.le_refl _)⟩
  | acquire hn => exact ⟨by simp [Token.holds]; omega, .inr hn⟩
  | release =>
    simp [Token.holds] at hn ⊢
    omega
  | _ => exact ⟨by simp [Token.holds], .inl (Nat.le_refl _)⟩

namespace Run

variable {S : Setup} {sc : Scene} {cfg : RunConfig} {r r' : Run}

/-- The number of requests inside `InferenceClient.Generate`. -/
def generating (r : Run) : Nat :=
  r.submits.countP fun
    | .generate _ => true
    | _ => false

/-- The taken global tokens are those of the requests that hold one, within the limit. -/
structure Permitted (S : Setup) (cfg : RunConfig) (r : Run) : Prop where
  held : holders r.bag = r.globalTokens
  limit : r.globalTokens ≤ S.concurrency cfg.processorID

theorem generating_le : r.generating ≤ holders r.bag := by
  have hsum : ∀ l : List SubmitPC, (l.countP fun | .generate _ => true | _ => false) ≤
      holders (l.map SubmitPC.bag).sum := by
    intro l
    induction l with
    | nil => exact Nat.zero_le _
    | cons pc l ih =>
      rw [List.map_cons, List.sum_cons, holders_add, List.countP_cons]
      cases pc <;> simp [SubmitPC.bag, Token.holds] <;> omega
  refine (hsum r.submits).trans ?_
  simp only [bag, holders_add]
  omega

theorem Permitted.moves (h : r.Permitted S sc.cfg) (hm : Moves S sc r r') :
    r'.Permitted S sc.cfg := by
  obtain ⟨x, y, hx, hbag, ht⟩ := hm
  have hle : holders x ≤ holders r.bag := Multiset.countP_le_of_le _ hx
  have hsum : holders r'.bag + holders x = holders r.bag + holders y := by
    rw [← holders_add, hbag, holders_add]
  obtain ⟨heq, hlim⟩ := ht.permits (h.held ▸ hle)
  have hheld := h.held
  have hlimit := h.limit
  refine ⟨by omega, ?_⟩
  rcases hlim with hlim | hlim
  · exact hlim.trans hlimit
  · exact hlim

end Run

/-- Requests enter an execution when its goroutines start. -/
theorem Turn.outstanding_le {S : Setup} {sc : Scene} {x y : Multiset Token}
    {p p' : PendingRequests} {n n' : Nat} (h : Turn S sc x p n y p' n') :
    outstanding y ≤ outstanding x ∨ (sc.starts ∧ outstanding y ≤ sc.cfg.requests.length) := by
  cases h with
  | launch hs => exact .inr ⟨hs, (Multiset.countP_le_card _ _).trans (by simp [bagOf])⟩
  | lose => exact .inl (Nat.zero_le _)
  | collect =>
    refine .inl (Nat.le_of_eq (Multiset.countP_eq_zero.2 fun t ht => ?_))
    obtain ⟨msg, -, rfl⟩ := mem_bagOf.1 ht
    exact not_not.2 trivial
  | _ => exact .inl (by simp [Token.IsResult])

/-! ### The whole system -/

variable {S : Setup} {h h' : Hub S} {e : Event S}

/-- The requests of a processor inside `InferenceClient.Generate`. -/
def Hub.generating (h : Hub S) (p : String) : Nat :=
  ∑ j with (S.config j).processorID = p, (h.runs j).generating

instance (pc : JobPC) : Decidable (pc = .wait) := by
  cases pc <;> first | exact isTrue rfl | exact isFalse fun h => by cases h

instance (pc : JobPC) : Decidable (pc = .build) := by
  cases pc <;> first | exact isTrue rfl | exact isFalse fun h => by cases h

instance (who : Participant S) (j : Fin S.jobs) : Decidable (who = .run j .job) :=
  match who with
  | .run j' g => decidable_of_iff (j' = j ∧ g = .job) (by simp)
  | .call .. | .abort .. | .broadcaster _ | .other .. => isFalse fun h => by cases h

/-- The synchronous executions of a processor whose goroutines are running. -/
def Hub.active (h : Hub S) (p : String) : Finset (Fin S.jobs) :=
  {j | (S.config j).processorID = p ∧ (S.config j).async = false ∧ (h.runs j).job = .wait}

/-- The requests that executions can have in flight together: each one its own, up to the limit. -/
def Setup.demand (S : Setup) (js : Finset (Fin S.jobs)) : Nat :=
  ∑ j ∈ js, min (S.concurrency (S.config j).processorID) (S.config j).requests.length

/-- A synchronous execution of the processor starts while there is room for its requests beside
those of the running ones. -/
def Hub.HasRoom (p : String) (h : Hub S) (e : Event S) : Prop :=
  ∀ j, e.who = .run j .job → (h.runs j).job = .build → (S.config j).processorID = p →
    (S.config j).async = false → S.demand (insert j (h.active p)) ≤ S.concurrency p

instance {p : String} : Decidable (h.HasRoom p e) := by
  unfold Hub.HasRoom
  infer_instance

/-- How an execution gets to run. -/
theorem Setup.job_wait (hs : S.step h e = some h') {j : Fin S.jobs}
    (hj : (h'.runs j).job = .wait) :
    (h.runs j).job = .wait ∨ (e.who = .run j .job ∧ (h.runs j).job = .build) := by
  rcases S.job_step hs j with ⟨hw, hr⟩ | ⟨t, t', -, ht⟩ | hr
  · generalize h'.runs j = r' at hr hj
    cases Run.stepJob_cases hr with
    | launch pending hpc => exact .inr ⟨hw, hpc⟩
    | _ => cases hj
  · rw [ht] at hj
    cases hj
  · exact .inl (hr.symm.trans hj)

theorem Setup.demand_step (hs : S.step h e = some h') {p : String} (hr : h.HasRoom p e)
    (hd : S.demand (h.active p) ≤ S.concurrency p) : S.demand (h'.active p) ≤ S.concurrency p := by
  by_cases hstart : ∃ j, e.who = .run j .job ∧ (h.runs j).job = .build ∧
      (S.config j).processorID = p ∧ (S.config j).async = false
  · obtain ⟨j, he, hb, hp, ha⟩ := hstart
    refine le_trans (Finset.sum_le_sum_of_subset fun i hi => ?_) (hr j he hb hp ha)
    simp only [Hub.active, Finset.mem_insert, Finset.mem_filter_univ] at hi ⊢
    rcases S.job_wait hs hi.2.2 with hw | ⟨he', -⟩
    · exact .inr ⟨hi.1, hi.2.1, hw⟩
    · rw [he] at he'
      cases he'
      exact .inl rfl
  · refine le_trans (Finset.sum_le_sum_of_subset fun i hi => ?_) hd
    simp only [Hub.active, Finset.mem_filter_univ] at hi ⊢
    rcases S.job_wait hs hi.2.2 with hw | ⟨he, hb⟩
    · exact ⟨hi.1, hi.2.1, hw⟩
    · exact absurd ⟨i, he, hb, hi.1, hi.2.1⟩ hstart

/-- Every execution keeps within its limit and its requests, and is at work between its start and
the return of its goroutines only. -/
structure Hub.Permitted (h : Hub S) : Prop where
  sound : h.Sound
  permitted : ∀ j, (h.runs j).Permitted S (S.config j)
  outstanding : ∀ j, outstanding (h.runs j).bag ≤
    if (h.runs j).job = .wait then (S.config j).requests.length else 0

theorem Hub.Initial.permitted (hi : h.Initial) : h.Permitted where
  sound := hi.sound
  permitted j := by
    rw [hi.runs]
    exact ⟨rfl, Nat.zero_le _⟩
  outstanding j := by
    rw [hi.runs]
    exact Nat.zero_le _

theorem Hub.Permitted.resting (hh : h.Permitted) {j : Fin S.jobs} (hj : (h.runs j).job ≠ .wait) :
    ∀ t ∈ (h.runs j).bag, t.IsResult := by
  have hzero := hh.outstanding j
  rw [if_neg hj, Nat.le_zero] at hzero
  exact fun t ht => not_not.1 (Multiset.countP_eq_zero.1 hzero t ht)

/-- The job leaves the wait when every goroutine returned. -/
theorem Setup.bag_of_left (hs : S.step h e = some h') (hh : h.Sound) {j : Fin S.jobs}
    (hw : (h.runs j).job = .wait) (hj : (h'.runs j).job ≠ .wait) : (h'.runs j).bag = 0 := by
  rcases S.job_step hs j with ⟨-, hjob⟩ | ⟨t, t', ht, -⟩ | hjob
  · generalize h'.runs j = r' at hjob hj
    have hbag : r'.bag = (h.runs j).bag ∧ (h.runs j).groupDone = true := by
      cases Run.stepJob_cases hjob with
      | collect _ hd => exact ⟨rfl, hd⟩
      | _ => simp_all
    rw [hbag.1, (Run.bag_of_groupDone (hh.control j) hbag.2).1]
  · rw [hw] at ht
    cases ht
  · exact absurd (hjob.trans hw) hj

theorem Setup.outstanding_step (hs : S.step h e = some h') (hh : h.Permitted) (j : Fin S.jobs) :
    outstanding (h'.runs j).bag ≤
      if (h'.runs j).job = .wait then (S.config j).requests.length else 0 := by
  have hold := hh.outstanding j
  obtain ⟨x, y, -, hbag, ht⟩ := S.moves_step hs hh.sound j
  have hsum : outstanding (h'.runs j).bag + outstanding x =
      outstanding (h.runs j).bag + outstanding y := by
    rw [← outstanding_add, hbag, outstanding_add]
  by_cases hw : (h.runs j).job = .wait
  · by_cases hj : (h'.runs j).job = .wait
    · rw [if_pos hw] at hold
      rw [if_pos hj]
      rcases ht.outstanding_le with hle | ⟨hstart, -⟩
      · omega
      · exact absurd hw hstart.1
    · rw [S.bag_of_left hs hh.sound hw hj]
      exact Nat.zero_le _
  · rw [if_neg hw] at hold
    rcases ht.outstanding_le with hle | ⟨hstart, hle⟩
    · omega
    · have hle : outstanding y ≤ (S.config j).requests.length := hle
      rw [if_pos hstart.2]
      omega

theorem Setup.permitted_step (hs : S.step h e = some h') (hh : h.Permitted) : h'.Permitted where
  sound := S.sound_step hs hh.sound
  permitted j := (hh.permitted j).moves (S.moves_step hs hh.sound j)
  outstanding := S.outstanding_step hs hh

theorem Hub.Permitted.generating_le (hh : h.Permitted) (j : Fin S.jobs) :
    (h.runs j).generating ≤
      min (S.concurrency (S.config j).processorID) (S.config j).requests.length := by
  have hheld := Run.generating_le (r := h.runs j)
  refine Nat.le_min.2 ⟨hheld.trans ((hh.permitted j).held ▸ (hh.permitted j).limit), ?_⟩
  refine (hheld.trans (holders_le_outstanding _)).trans ((hh.outstanding j).trans ?_)
  split <;> omega

/-- An execution is at work if its dispatch is synchronous and its goroutines are running. -/
theorem Hub.Permitted.generating_eq_zero (hh : h.Permitted) {j : Fin S.jobs}
    (hj : (S.config j).async = true ∨ (h.runs j).job ≠ .wait) : (h.runs j).generating = 0 := by
  rcases hj with hj | hj
  · simp [Run.generating, ((hh.sound.control j).asynchronous hj).2.2.2]
  · refine Nat.le_zero.1 ((Run.generating_le.trans (holders_le_outstanding _)).trans ?_)
    exact (hh.outstanding j).trans (Nat.le_of_eq (if_neg hj))

theorem Hub.Permitted.generating_le_demand (hh : h.Permitted) (p : String) :
    h.generating p ≤ S.demand (h.active p) := by
  have hsub : h.active p ⊆ ({j | (S.config j).processorID = p} : Finset _) := fun j hj => by
    simp only [Hub.active, Finset.mem_filter_univ] at hj ⊢
    exact hj.1
  unfold Hub.generating
  rw [← Finset.sum_subset hsub]
  · exact Finset.sum_le_sum fun j _ => hh.generating_le j
  · intro j hp hj
    refine hh.generating_eq_zero ?_
    by_contra hcon
    simp only [not_or, Bool.not_eq_true, not_not] at hcon
    exact hj (by simpa [Hub.active, hcon] using hp)

/-- When synchronous executions of a processor start while there is room for their requests, its
requests in flight stay within `concurrency.global`, whatever the models, the endpoints and the
interleaving. -/
theorem generating_le_concurrency {h₀ : Hub S} (hi : h₀.Initial) {p : String} {es : List (Event S)}
    (ha : Along S.step (Hub.HasRoom p) h₀ es) (hr : exec S.step h₀ es = some h) :
    h.generating p ≤ S.concurrency p := by
  have hh : h.Permitted ∧ S.demand (h.active p) ≤ S.concurrency p :=
    along_invariant (I := fun h => h.Permitted ∧ S.demand (h.active p) ≤ S.concurrency p)
      (fun _ _ _ hh ha hs => ⟨S.permitted_step hs hh.1, S.demand_step hs ha hh.2⟩) ha hr
      ⟨hi.permitted, by simp [Setup.demand, Hub.active, hi.runs]⟩
  exact (hh.1.generating_le_demand p).trans hh.2

/-- Two jobs of one processor. -/
def twoJobs : List RunConfig := [.sample "batch_1" "a", .sample "batch_2" "b"]

/-- The second job starts after the goroutines of the first one have returned. -/
def jobsInTurn : List (Event (.sample twoJobs)) :=
  let first : Fin (Setup.sample twoJobs).jobs := ⟨0, Nat.two_pos⟩
  Event.generate first ++ Event.answer first ++ Event.finish first ++
    [.run first .drain, .run first .job] ++
    Event.generate (S := .sample twoJobs) ⟨1, Nat.one_lt_two⟩

theorem jobsInTurn_generating :
    ∃ h, exec (Setup.sample twoJobs).step (.sample twoJobs) jobsInTurn = some h ∧
      h.generating "p" = 1 ∧ h.generating "p" ≤ (Setup.sample twoJobs).concurrency "p" := by
  have hrun : ((exec (Setup.sample twoJobs).step (.sample twoJobs) jobsInTurn).map fun h =>
      h.generating "p") = some 1 := by decide +kernel
  obtain ⟨h, hr, hg⟩ := Option.map_eq_some_iff.1 hrun
  exact ⟨h, hr, hg,
    generating_le_concurrency (Hub.sample_initial _) (by decide +kernel) hr⟩

/-- Two jobs of a processor whose `concurrency.global` is one have a request in flight each. -/
theorem twoJobs_generating :
    (Hub.sample twoJobs).Initial ∧ (Setup.sample twoJobs).concurrency "p" = 1 ∧
    ((exec (Setup.sample twoJobs).step (.sample twoJobs)
      (Event.generate (S := .sample twoJobs) ⟨0, by decide⟩ ++
        Event.generate (S := .sample twoJobs) ⟨1, by decide⟩)).map fun h => h.generating "p") =
      some 2 :=
  ⟨Hub.sample_initial _, rfl, by decide +kernel⟩

end BatchGateway
