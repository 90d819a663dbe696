import BatchGateway.Gateway.Thrift

/-! How often a batch is recovered. -/
namespace BatchGateway

open Interleaving Prog

/-! ### The counter -/

section Counter

variable {g : Actor} {s : Held} {st : Stmt} {now : Time} {b b' : BatchState} {w w' : World}
  {env : Env} {p : Processor} {task : BatchJobPriority}

/-- A requeued batch that nobody has picked up yet. -/
def BatchRow.Waiting (row : BatchRow) : Prop := row.resumable = true ∧ row.processorID = none

instance (row : BatchRow) : Decidable row.Waiting := inferInstanceAs (Decidable (_ ∧ _))

theorem Actor.allows_ne_dequeue (h : g.Allows s st) (q : String) (lease : Duration) :
    st ≠ .pqDequeue q lease := by
  rintro rfl
  cases g <;> simp [Allows, Held.Permits] at h

/-- Statements other than the dequeue never take an attempt back, and only a requeue leaves a
resumable batch without an owner. -/
theorem attempts_exec (h : st.exec now b = .ok (some b'))
    (hst : ∀ q lease, st ≠ .pqDequeue q lease) :
    b.row.recoveryAttempts ≤ b'.row.recoveryAttempts ∧
    (b'.row.Waiting → b.row.Waiting ∨ ∃ id q e lapsed bump, st = .requeue id q e lapsed bump ∧
      ¬ b.row.Waiting ∧
      b'.row.recoveryAttempts = b.row.recoveryAttempts + if bump then 1 else 0) := by
  cases st with
  | pqDequeue q lease => exact absurd rfl (hst q lease)
  | activate a =>
    obtain ⟨⟨-, howner, -⟩, hrow, -⟩ := activateStmt_some h
    simp [hrow, activatedRow, BatchRow.Waiting, howner]
  | requeue id q e lapsed bump =>
    obtain ⟨⟨-, howner, -⟩, rfl⟩ := Stmt.of_matched h
    refine ⟨?_, fun _ => .inr ⟨id, q, e, lapsed, bump, rfl, ?_, ?_⟩⟩
    · dsimp only
      split <;> omega
    · simp [BatchRow.Waiting, howner]
    · cases bump <;> simp
  | pqClaimOwned q =>
    obtain ⟨-, rfl⟩ := Stmt.of_matched h
    exact ⟨by dsimp only; omega, .inl⟩
  | _ =>
    obtain ⟨hguard, rfl⟩ := Stmt.of_matched h
    simp_all [BatchRow.Waiting]

/-- A dequeue of a requeued batch keeps the attempts, any other one sets them back. -/
theorem poll_attempts (h : (Actor.poll p task).start env w = some w') :
    w.batch.row.processorID = none ∧ w'.batch.row.processorID ≠ none ∧
    ((task.resumable = true ∧ w.batch.row.resumable = true ∧
        w'.batch.row.recoveryAttempts = w.batch.row.recoveryAttempts) ∨
      (task.resumable = false ∧ ¬ w.batch.row.Settled ∧ w'.batch.row.recoveryAttempts = 0)) := by
  simp only [Actor.start] at h
  split_ifs at h
  split at h
  · cases h
  next b hb =>
    split_ifs at h with htask
    cases h
    obtain ⟨⟨howner, hq⟩, rfl⟩ := of_guarded hb
    subst htask
    refine ⟨howner, by simp, ?_⟩
    rcases hq with ⟨hr, hv⟩ | ⟨hr, -, -⟩
    · exact .inr ⟨hr, BatchRow.not_settled.2 ⟨hr, nonTerminal_of_validating hv⟩, by simp [hr]⟩
    · exact .inl ⟨hr, hr, by simp [hr]⟩

theorem recovery_attempts (h : (Actor.recovery p task).start env w = some w') :
    task.recoveryAttempts = w'.batch.row.recoveryAttempts ∧
    w'.batch.row.recoveryAttempts = w.batch.row.recoveryAttempts + 1 ∧
    task.resumable = w.batch.row.resumable ∧ w.batch.row.processorID ≠ none ∧
    w'.batch.row.processorID ≠ none := by
  simp only [Actor.start] at h
  split_ifs at h
  split at h
  · cases h
  next b hb =>
    split_ifs at h with htask
    cases h
    obtain ⟨⟨howner, -⟩, rfl⟩ := of_guarded hb
    subst htask
    exact ⟨rfl, rfl, rfl, by simp [howner], by simp [howner]⟩

end Counter

/-! ### The budget -/

/-- The place of a thread among the pickups of requeued batches. -/
def rank (gs : List Actor) (i : Nat) : Nat := (gs.take (i + 1)).countP Actor.resumed

theorem rank_le (gs : List Actor) (i : Nat) : rank gs i ≤ gs.countP Actor.resumed :=
  (List.take_sublist _ _).countP_le

theorem rank_append {gs hs : List Actor} {i : Nat} (h : i < gs.length) :
    rank (gs ++ hs) i = rank gs i := by
  rw [rank, List.take_append_of_le_length h, rank]

/-- Later pickups have higher places. -/
theorem rank_lt {gs : List Actor} {i j : Nat} {g : Actor} (hij : i < j) (hj : gs[j]? = some g)
    (hg : g.resumed = true) : rank gs i < rank gs j := by
  have htake : gs.take (j + 1) = gs.take j ++ [g] := by
    rw [List.take_add_one, hj]
    rfl
  have hsub : (gs.take (i + 1)).Sublist (gs.take j) := List.take_sublist_take_left (by omega)
  have hle := hsub.countP_le (p := Actor.resumed)
  rw [rank, rank, htake, List.countP_append, List.countP_singleton, if_pos hg]
  omega

/-- The thread may still requeue the batch for free. -/
def Owes (t : Thread Actor Call Call.Resp (Except Err Unit)) : Prop :=
  ∃ m, t.code = some m ∧ ∀ s : Thrift, s.free = false → ¬ m.Obeys t.who.thrift (fun _ _ => True) s

/-- Every pickup of the requeued batch, every free requeue to come and the requeue that nobody has
picked up yet were paid for with an attempt of their own. -/
structure Budget (pool : GatewayPool) : Prop where
  conducted : Conducted pool
  settled : ∀ g ∈ pool.threads.map Thread.who, g.resumed = true ∨ g.owes = true →
    pool.world.batch.row.Settled
  thrifty : ∀ (i : Nat) g m, pool.threads[i]? = some ⟨g, some m⟩ →
    ∃ s, m.Obeys g.thrift (fun _ _ => True) s ∧ (s.free = true → g.owes = true) ∧
      (g.resumed = true → ∀ a ∈ s.read, (rank (pool.threads.map Thread.who) i : Int) ≤ a)
  paid : ((pool.threads.map Thread.who).countP Actor.resumed : Int) + tally Owes pool.threads +
    (if pool.world.batch.row.Waiting then 1 else 0) ≤ pool.world.batch.row.recoveryAttempts

section Budget

variable {lib : Stdlib} {pool pool' : GatewayPool} {l : Label Env Actor} {g : Actor} {i : Nat}

theorem Budget.owes (h : Budget pool) {t : Thread Actor Call Call.Resp (Except Err Unit)}
    (ht : t ∈ pool.threads) (ho : Owes t) : t.who.owes = true := by
  obtain ⟨m, hm, hno⟩ := ho
  obtain ⟨i, hi⟩ := List.mem_iff_getElem?.1 ht
  obtain ⟨s, hs, hfree, -⟩ := h.thrifty i t.who m (by rw [hi, ← hm])
  by_contra hne
  exact hno s (by simpa using fun hf => hne (hfree hf)) hs

variable {w' : World} {env : Env} {c : Call} {r : c.Resp}

/-- What a thread reads shows at least the attempts that were paid for its pickup. -/
theorem thrift_answer {w : World} (s : Thrift) (hp : w.perform env c = some (w', r)) :
    g.thrift.answer s c r ∧
      ∀ a ∈ (g.thrift.next s c r).read, a ∈ s.read ∨ a = w.batch.row.recoveryAttempts := by
  cases c with
  | fetch site id =>
    have hitem (item : BatchItem) (hr : r = .ok (some item)) := World.item_of_fetch hp hr
    cases site with
    | polling =>
      refine ⟨fun item hr => ?_, ?_⟩
      · rw [(hitem item hr).1]
        exact nofun
      · change ∀ a ∈ (s.afterFetch r).read, a ∈ s.read ∨ a = w.batch.row.recoveryAttempts
        rcases s.afterFetch_cases r with ⟨item, hr, heq⟩ | heq
        · rw [heq, (hitem item hr).1]
          rintro _ ⟨⟩
          exact .inr rfl
        · rw [heq]
          exact fun a ha => .inl ha
    | _ => exact ⟨trivial, fun a ha => .inl ha⟩
  | exec st =>
    refine ⟨trivial, fun a ha => .inl ?_⟩
    cases st with
    | requeue _ _ _ _ bump => cases bump <;> exact ha
    | _ => exact ha
  | _ => exact ⟨trivial, fun a ha => .inl ha⟩

theorem thrift_next_free {s : Thrift} (h : (g.thrift.next s c r).free = true) : s.free = true := by
  cases c with
  | fetch site id =>
    cases site with
    | polling =>
      change (s.afterFetch r).free = true at h
      rcases s.afterFetch_cases r with ⟨item, -, heq⟩ | heq
      · rwa [heq] at h
      · rwa [heq] at h
    | _ => exact h
  | exec st =>
    cases st with
    | requeue _ _ _ _ bump =>
      cases bump
      · cases h
      · exact h
    | _ => exact h
  | _ => exact h

theorem not_owes_code (h : g.owes = false) : ¬ Owes ⟨g, some (g.code lib)⟩ := by
  rintro ⟨m, hm, hno⟩
  cases hm
  exact hno _ h (code_thrifty lib g)

/-- Before the batch was activated nothing had to be paid for. -/
theorem Budget.unsettled (h : Budget pool) (hrow : ¬ pool.world.batch.row.Settled) :
    (pool.threads.map Thread.who).countP Actor.resumed = 0 ∧ tally Owes pool.threads = 0 := by
  refine ⟨List.countP_eq_zero.2 fun g hg hres => hrow (h.settled g hg (.inl hres)),
    tally_eq_zero fun t ht ho => hrow (h.settled t.who (List.mem_map_of_mem ht) (.inr ?_))⟩
  exact h.owes ht ho

theorem budget_paid_start (h : Budget pool) (hstart : g.start env pool.world = some w') :
    ((pool.threads.map Thread.who ++ [g]).countP Actor.resumed : Int) +
      tally Owes (pool.threads ++ [⟨g, some (g.code lib)⟩]) +
      (if w'.batch.row.Waiting then 1 else 0) ≤ w'.batch.row.recoveryAttempts := by
  have hpaid := h.paid
  have hwaiting : (if pool.world.batch.row.Waiting then (1 : Int) else 0) ≥ 0 := by
    split <;> omega
  rw [List.countP_append, List.countP_singleton]
  cases g with
  | poll p task =>
    have hno : ¬ Owes ⟨.poll p task, some ((Actor.poll p task).code lib)⟩ := not_owes_code rfl
    obtain ⟨hnone, howned, hcases⟩ := poll_attempts hstart
    have hnot : ¬ w'.batch.row.Waiting := fun hw => howned hw.2
    rw [tally_snoc_of_not hno, if_neg hnot]
    rcases hcases with ⟨htask, hres, hattempts⟩ | ⟨htask, hrow, hattempts⟩
    · rw [if_pos ⟨hres, hnone⟩] at hpaid
      rw [hattempts, if_pos (show (Actor.poll p task).resumed = true from htask)]
      push_cast
      omega
    · obtain ⟨hcount, htally⟩ := h.unsettled hrow
      simp [hcount, htally, hattempts, Actor.resumed, htask]
  | recovery p task =>
    obtain ⟨-, hattempts, -, -, howned⟩ := recovery_attempts hstart
    have hnot : ¬ w'.batch.row.Waiting := fun hw => howned hw.2
    have hle := tally_snoc_le Owes pool.threads
      ⟨.recovery p task, some (Actor.code lib (.recovery p task))⟩
    rw [if_neg hnot, hattempts, if_neg (by simp [Actor.resumed])]
    push_cast
    omega
  | _ =>
    rw [tally_snoc_of_not (not_owes_code rfl), Actor.start_unclaimed hstart rfl,
      if_neg (by simp [Actor.resumed])]
    simpa using hpaid

theorem budget_start (h : Budget pool) (hstart : g.start env pool.world = some w')
    (hs : (gateway lib).step pool (.spawn env g) =
      some ⟨w', pool.threads ++ [⟨g, some (g.code lib)⟩]⟩) :
    Budget ⟨w', pool.threads ++ [⟨g, some (g.code lib)⟩]⟩ := by
  refine ⟨conducted_step hs h.conducted, fun g' hg' hpay => ?_, fun j g' m hj => ?_, ?_⟩
  · rw [List.map_append, List.mem_append] at hg'
    rcases hg' with hg' | hg'
    · exact settled_step hs h.conducted (h.settled g' hg' hpay)
    · obtain rfl : g' = g := by simpa using hg'
      refine .inl ?_
      rcases Actor.start_cases hstart with ⟨p, task, hclaim, hcl⟩ | ⟨hclaim, -, -⟩
      · dsimp only
        rw [hcl.resumable, ← hcl.flag]
        cases g' <;>
          simp only [Actor.claim, Option.some.injEq, Prod.mk.injEq, reduceCtorEq] at hclaim <;>
          simpa [Actor.resumed, Actor.owes, hclaim.2] using hpay
      · cases g' <;> simp [Actor.claim, Actor.resumed, Actor.owes] at hclaim hpay
  · rw [List.map_append]
    rcases getElem?_snoc_cases hj with ⟨-, heq⟩ | ⟨hlt, hj⟩
    · cases heq
      refine ⟨{ free := g.owes }, code_thrifty lib g, id, fun _ a ha => ?_⟩
      cases ha
    · obtain ⟨s, hs, hfree, hread⟩ := h.thrifty j g' m hj
      rw [rank_append (by simpa using hlt)]
      exact ⟨s, hs, hfree, hread⟩
  · rw [List.map_append]
    exact budget_paid_start h hstart

variable {k : c.Resp → Task (Except Err Unit)}

/-- A thread never comes to owe more than before, and a free requeue settles what it owes. -/
theorem owes_next (hr : ∀ s, g.thrift.answer s c r) (ho : Owes ⟨g, some (k r)⟩) :
    Owes ⟨g, some (.call c k)⟩ := by
  obtain ⟨m, hm, hno⟩ := ho
  cases hm
  refine ⟨_, rfl, fun s hs hobeys => hno (g.thrift.next s c r) ?_ (hobeys.2 r (hr s))⟩
  by_contra hfree
  rw [thrift_next_free (by simpa using hfree)] at hs
  cases hs

theorem owes_requeue {id q : String} {e : Int} {lapsed : Bool} {k : Except Err Bool → Task _}
    {r : Except Err Bool} {s : Thrift}
    (hs : (Prog.call (.exec (.requeue id q e lapsed false)) k).Obeys g.thrift (fun _ _ => True) s) :
    Owes ⟨g, some (.call (.exec (.requeue id q e lapsed false)) k)⟩ ∧ ¬ Owes ⟨g, some (k r)⟩ := by
  constructor
  · refine ⟨_, rfl, fun s hfree hobeys => ?_⟩
    rcases hobeys.1 with hbump | hfree'
    · cases hbump
    · rw [hfree] at hfree'
      cases hfree'
  · rintro ⟨m, hm, hno⟩
    cases hm
    exact hno { s with free := false } rfl (hs.2 r trivial)

theorem budget_paid_run (h : Budget pool) (hi : pool.threads[i]? = some ⟨g, some (.call c k)⟩)
    (hp : pool.world.perform env c = some (w', r)) :
    ((pool.threads.map Thread.who).countP Actor.resumed : Int) +
      tally Owes (pool.threads.set i ⟨g, some (k r)⟩) +
      (if w'.batch.row.Waiting then 1 else 0) ≤ w'.batch.row.recoveryAttempts := by
  have hpaid := h.paid
  have hle : tally Owes (pool.threads.set i ⟨g, some (k r)⟩) ≤ tally Owes pool.threads :=
    tally_set_le hi (owes_next fun s => (thrift_answer s hp).1)
  rcases World.batch_perform hp with hb | ⟨st, b, rfl, -, hb, rfl⟩
  · rw [hb]
    omega
  · obtain ⟨s, -, ha⟩ := h.conducted.allow hi
    obtain ⟨hmono, hwaiting⟩ := attempts_exec hb (Actor.allows_ne_dequeue ha)
    dsimp only
    by_cases hw : b.row.Waiting
    · rcases hwaiting hw with hw' | ⟨id, q, e, lapsed, bump, rfl, hw', hattempts⟩
      · rw [if_pos hw'] at hpaid
        rw [if_pos hw]
        omega
      · rw [if_neg hw'] at hpaid
        rw [if_pos hw, hattempts]
        cases bump with
        | true =>
          simp only [if_true]
          omega
        | false =>
          obtain ⟨s, hs, -⟩ := h.thrifty i g _ hi
          obtain ⟨ho, hno⟩ := owes_requeue (r := r) hs
          have hlt := tally_set_lt hi ho hno
          simp only [Bool.false_eq_true, if_false]
          omega
    · rw [if_neg hw]
      split at hpaid <;> omega

theorem budget_step (hs : (gateway lib).step pool l = some pool') (h : Budget pool) :
    Budget pool' := by
  rcases (gateway lib).step_cases hs with ⟨env, g, w', hstart⟩ | ⟨i, env, g, c, k, w', r, hi, hp⟩ |
    ⟨i, g, m, hi⟩
  · exact budget_start h hstart hs
  · refine ⟨conducted_step hs h.conducted, fun g' hg' hpay => ?_, fun j g' m hj => ?_, ?_⟩
    · rw [map_who_set hi] at hg'
      exact settled_step hs h.conducted (h.settled g' hg' hpay)
    · rw [map_who_set hi]
      rcases getElem?_set_cases hj with ⟨rfl, heq⟩ | ⟨-, hj⟩
      · cases heq
        obtain ⟨s, hobeys, hfree, hread⟩ := h.thrifty j g _ hi
        obtain ⟨hr, hattempts⟩ := thrift_answer (g := g) s hp
        refine ⟨_, hobeys.2 r hr, fun hf => hfree (thrift_next_free hf), fun hres a ha => ?_⟩
        rcases hattempts a ha with ha | rfl
        · exact hread hres a ha
        · have hrank := rank_le (pool.threads.map Thread.who) j
          have hpaid := h.paid
          split at hpaid <;> omega
      · exact h.thrifty j g' m hj
    · rw [map_who_set hi]
      exact budget_paid_run h hi hp
  · refine ⟨conducted_step hs h.conducted, fun g' hg' hpay => ?_, fun j g' m' hj => ?_, ?_⟩
    · rw [map_who_set hi] at hg'
      exact h.settled g' hg' hpay
    · rw [map_who_set hi]
      rcases getElem?_set_cases hj with ⟨-, heq⟩ | ⟨-, hj⟩
      · cases heq
      · exact h.thrifty j g' m' hj
    · have hle : tally Owes (pool.threads.set i ⟨g, none⟩) ≤ tally Owes pool.threads :=
        tally_set_le hi fun ⟨_, hm, _⟩ => by cases hm
      have hpaid := h.paid
      rw [map_who_set hi]
      dsimp only
      omega

theorem budget_initial {row : BatchRow} {w : World} (hrow : row.Fresh) :
    Budget (initial w row) := by
  refine ⟨watched_empty _, by simp [initial], by simp [initial], ?_⟩
  have hres : ¬ row.Waiting := fun hw => Bool.false_ne_true (hrow.2.2.2.2.2.1.symm.trans hw.1)
  simp [initial, tally, hres, hrow.2.2.2.2.1]

end Budget

/-! ### Pickups that go on -/

/-- The pickup of a requeued batch that this step lets go on into its execution: the next call of
its thread opens the event channel. -/
def letOn (pool : GatewayPool) : Label Env Actor → Option Nat
  | .run i _ =>
    match pool.threads[i]? with
    | some ⟨g, some (.call .eventChannel _)⟩ => if g.resumed then some i else none
    | _ => none
  | _ => none

/-- The pickups of the requeued batch that a run lets go on into the execution. -/
def resumedPickups (lib : Stdlib) : GatewayPool → List (Label Env Actor) → List Nat
  | _, [] => []
  | pool, l :: ls =>
    match (gateway lib).step pool l with
    | none => []
    | some pool' => (letOn pool' l).toList ++ resumedPickups lib pool' ls

section Pickups

variable {lib : Stdlib} {pool pool' : GatewayPool} {l : Label Env Actor} {g : Actor} {i : Nat}

theorem letOn_some (h : letOn pool l = some i) : ∃ env g k, l = .run i env ∧
    pool.threads[i]? = some ⟨g, some (.call .eventChannel k)⟩ ∧ g.resumed = true := by
  cases l with
  | run j env =>
    simp only [letOn] at h
    split at h
    next g k hj =>
      split at h
      next hres =>
        cases h
        exact ⟨env, g, k, rfl, hj, hres⟩
      next => cases h
    next => cases h
  | _ => cases h

/-- The thread has been let on, or it cannot be any more. -/
def Spent (pool : GatewayPool) (i : Nat) : Prop :=
  ∃ g code, pool.threads[i]? = some ⟨g, code⟩ ∧ ∀ m, code = some m →
    (∃ k, m = .call .eventChannel k) ∨
      ∃ s : Thrift, s.fresh = false ∧ m.Obeys g.thrift (fun _ _ => True) s

theorem thrift_next_fresh {c : Call} {r : c.Resp} {s : Thrift} (h : s.fresh = false) :
    (g.thrift.next s c r).fresh = false := by
  cases c with
  | fetch site id =>
    cases site with
    | polling =>
      change (s.afterFetch r).fresh = false
      rcases s.afterFetch_cases r with ⟨item, -, heq⟩ | heq <;> rw [heq] <;> exact h
    | _ => exact h
  | exec st =>
    cases st with
    | requeue _ _ _ _ bump => cases bump <;> exact h
    | _ => exact h
  | eventChannel => rfl
  | _ => exact h

/-- A thread that is spent after a step of its own makes no second start. -/
theorem spent_next {env : Env} {c : Call} {k : c.Resp → Task (Except Err Unit)} {w' : World}
    {r : c.Resp} (h : Budget pool) (hi : pool.threads[i]? = some ⟨g, some (.call c k)⟩)
    (hp : pool.world.perform env c = some (w', r)) (hsp : Spent pool i) :
    ∃ s : Thrift, s.fresh = false ∧ (k r).Obeys g.thrift (fun _ _ => True) s := by
  obtain ⟨g', code, hi', hcode⟩ := hsp
  cases hi.symm.trans hi'
  rcases hcode _ rfl with ⟨k', hk'⟩ | ⟨s, hs, hobeys⟩
  · cases hk'
    obtain ⟨s, hobeys, -⟩ := h.thrifty i g _ hi
    exact ⟨_, rfl, hobeys.2 r trivial⟩
  · exact ⟨_, thrift_next_fresh hs, hobeys.2 r (thrift_answer s hp).1⟩

theorem spent_step (hs : (gateway lib).step pool l = some pool') (h : Budget pool)
    (hsp : Spent pool i) : Spent pool' i := by
  rcases (gateway lib).step_cases hs with ⟨env, g, w', hstart⟩ | ⟨j, env, g, c, k, w', r, hj, hp⟩ |
    ⟨j, g, m, hj⟩
  · obtain ⟨g', code, hi, hcode⟩ := hsp
    obtain ⟨hlt, -⟩ := List.getElem?_eq_some_iff.1 hi
    exact ⟨g', code, by rw [List.getElem?_append_left hlt]; exact hi, hcode⟩
  · by_cases hij : i = j
    · subst hij
      obtain ⟨hlt, -⟩ := List.getElem?_eq_some_iff.1 hj
      have hnext := spent_next h hj hp hsp
      refine ⟨g, some (k r), by simp [hlt], ?_⟩
      rintro m ⟨⟩
      exact .inr hnext
    · obtain ⟨g', code, hi, hcode⟩ := hsp
      exact ⟨g', code, by rw [List.getElem?_set_ne (Ne.symm hij)]; exact hi, hcode⟩
  · by_cases hij : i = j
    · subst hij
      obtain ⟨hlt, -⟩ := List.getElem?_eq_some_iff.1 hj
      exact ⟨g, none, by simp [hlt], nofun⟩
    · obtain ⟨g', code, hi, hcode⟩ := hsp
      exact ⟨g', code, by rw [List.getElem?_set_ne (Ne.symm hij)]; exact hi, hcode⟩

/-- The pickup is one of the first that were paid for. -/
def Afforded (pool : GatewayPool) (i : Nat) : Prop :=
  (∃ g, (pool.threads.map Thread.who)[i]? = some g ∧ g.resumed = true) ∧
    (rank (pool.threads.map Thread.who) i : Int) ≤ maxRecoveryAttempts

theorem afforded_step (hs : (gateway lib).step pool l = some pool') (h : Afforded pool i) :
    Afforded pool' i := by
  obtain ⟨⟨g, hg, hres⟩, hrank⟩ := h
  obtain ⟨hlt, -⟩ := List.getElem?_eq_some_iff.1 hg
  rcases map_who_step hs with heq | ⟨g', heq⟩
  · rw [Afforded, heq]
    exact ⟨⟨g, hg, hres⟩, hrank⟩
  · rw [Afforded, heq, rank_append hlt, List.getElem?_append_left hlt]
    exact ⟨⟨g, hg, hres⟩, hrank⟩

/-- A pickup that a step lets on was not let on before, and it is among the first. -/
theorem letOn_step (hs : (gateway lib).step pool l = some pool') (h : Budget pool)
    (hl : letOn pool' l = some i) : ¬ Spent pool i ∧ Spent pool' i ∧ Afforded pool' i := by
  have h' := budget_step hs h
  obtain ⟨env, g, k', rfl, hi', hres⟩ := letOn_some hl
  obtain ⟨s', hobeys', -, hread⟩ := h'.thrifty i g _ hi'
  obtain ⟨-, a, ha, hle⟩ := hobeys'.1 hres
  refine ⟨fun hsp => ?_, ⟨g, _, hi', ?_⟩, ⟨g, by simp [hi'], hres⟩, (hread hres a ha).trans hle⟩
  · obtain _ | ⟨j, _, g₀, c, k, w', r, hj, hp⟩ := (gateway lib).step_cases hs
    obtain ⟨s, hfresh, hobeys⟩ := spent_next h hj hp hsp
    rcases getElem?_set_cases hi' with ⟨-, heq⟩ | ⟨hne, -⟩
    · simp only [Thread.mk.injEq, Option.some.injEq] at heq
      obtain ⟨rfl, hk⟩ := heq
      rw [← hk] at hobeys
      have hfresh' := (hobeys.1 hres).1
      rw [hfresh] at hfresh'
      cases hfresh'
    · exact hne rfl
  · rintro m ⟨⟩
    exact .inl ⟨k', rfl⟩

/-- Each pickup goes on at most once, and only the first ones do. -/
theorem resumedPickups_afforded {ls : List (Label Env Actor)} (h : Budget pool)
    (he : exec (gateway lib).step pool ls = some pool') :
    (resumedPickups lib pool ls).Nodup ∧
      ∀ i ∈ resumedPickups lib pool ls, ¬ Spent pool i ∧ Afforded pool' i := by
  induction ls generalizing pool with
  | nil => exact ⟨List.nodup_nil, by simp [resumedPickups]⟩
  | cons l ls ih =>
    obtain ⟨mid, hmid, he⟩ := exec_cons.1 he
    obtain ⟨hnodup, hrest⟩ := ih (budget_step hmid h) he
    have hlast : ∀ i, Afforded mid i → Afforded pool' i := fun i hi =>
      along_invariant (I := fun q => Afforded q i) (fun _ _ _ hq _ hs => afforded_step hs hq)
        (along_true _ _) he hi
    have hold : ∀ i ∈ resumedPickups lib mid ls, ¬ Spent pool i ∧ Afforded pool' i := fun i hi =>
      ⟨fun hsp => (hrest i hi).1 (spent_step hmid h hsp), (hrest i hi).2⟩
    simp only [resumedPickups, hmid]
    cases hl : letOn mid l with
    | none => exact ⟨hnodup, hold⟩
    | some i =>
      obtain ⟨hnew, hspent, hafforded⟩ := letOn_step hmid h hl
      refine ⟨List.nodup_cons.2 ⟨fun hi => (hrest i hi).1 hspent, hnodup⟩, fun j hj => ?_⟩
      rcases List.mem_cons.1 hj with rfl | hj
      · exact ⟨hnew, hlast _ hafforded⟩
      · exact hold j hj

/-- Only so many different pickups can be among the first. -/
theorem length_afforded {is : List Nat} (hnodup : is.Nodup) (h : ∀ i ∈ is, Afforded pool i) :
    (is.length : Int) ≤ maxRecoveryAttempts := by
  let gs := pool.threads.map Thread.who
  have hinj : ∀ i ∈ is, ∀ j ∈ is, rank gs i = rank gs j → i = j := by
    intro i hi j hj heq
    obtain ⟨⟨gi, hgi, hri⟩, -⟩ := h i hi
    obtain ⟨⟨gj, hgj, hrj⟩, -⟩ := h j hj
    rcases Nat.lt_trichotomy i j with hlt | hij | hlt
    · exact absurd heq (rank_lt hlt hgj hrj).ne
    · exact hij
    · exact absurd heq (rank_lt hlt hgi hri).ne'
  have hranks : (is.map (rank gs)).Nodup := hnodup.map_on hinj
  have hsub : is.map (rank gs) ⊆ [1, 2, 3] := by
    intro n hn
    obtain ⟨i, hi, rfl⟩ := List.mem_map.1 hn
    obtain ⟨⟨g, hg, hres⟩, hle⟩ := h i hi
    have hpos : 0 < rank gs i := by
      refine List.countP_pos_iff.2 ⟨g, ?_, hres⟩
      exact List.mem_of_getElem? (by rw [List.getElem?_take_of_lt (Nat.lt_succ_self i)]; exact hg)
    simp only [maxRecoveryAttempts] at hle
    change (rank gs i : Int) ≤ 3 at hle
    simp only [List.mem_cons, List.not_mem_nil, or_false]
    omega
  have hlen := (List.subperm_of_subset hranks hsub).length_le
  rw [List.length_map] at hlen
  simp only [maxRecoveryAttempts]
  simpa using Int.ofNat_le.2 hlen

/-- Once a batch is activated, no step takes an attempt back. -/
theorem attempts_step (hs : (gateway lib).step pool l = some pool') (hc : Conducted pool)
    (hset : pool.world.batch.row.Settled) :
    pool.world.batch.row.recoveryAttempts ≤ pool'.world.batch.row.recoveryAttempts := by
  rcases (gateway lib).step_cases hs with ⟨env, g, w', hstart⟩ | ⟨i, env, g, c, k, w', r, hi, hp⟩ |
    ⟨i, g, m, hi⟩
  · change g.start env pool.world = some w' at hstart
    cases g with
    | poll p task =>
      obtain ⟨-, -, ⟨-, -, heq⟩ | ⟨-, hrow, -⟩⟩ := poll_attempts hstart
      · exact heq.ge
      · exact absurd hset hrow
    | recovery p task =>
      obtain ⟨-, heq, -⟩ := recovery_attempts hstart
      dsimp only
      omega
    | _ =>
      rw [Actor.start_unclaimed hstart rfl]
  · rcases World.batch_perform hp with hb | ⟨st, b, rfl, -, hb, rfl⟩
    · rw [hb]
    · obtain ⟨s, -, ha⟩ := hc.allow hi
      exact (attempts_exec hb (Actor.allows_ne_dequeue ha)).1
  · exact le_rfl

theorem conducted_exec {ls : List (Label Env Actor)} (hc : Conducted pool)
    (he : exec (gateway lib).step pool ls = some pool') : Conducted pool' :=
  along_invariant (I := Conducted) (fun _ _ _ h _ hs => conducted_step hs h) (along_true _ _) he hc

/-- The attempts of an activated batch never decrease, and at most `maxRecoveryAttempts` of its
pickups go on into the execution. -/
theorem recovery_budget (lib : Stdlib) (w : World) {row : BatchRow} (hrow : row.Fresh)
    {ls ls' : List (Label Env Actor)} {pool pool' : GatewayPool}
    (hp : exec (gateway lib).step (initial w row) ls = some pool)
    (hactive : pool.world.batch.row.resumable = true)
    (hp' : exec (gateway lib).step pool ls' = some pool') :
    pool.world.batch.row.recoveryAttempts ≤ pool'.world.batch.row.recoveryAttempts ∧
    ((resumedPickups lib (initial w row) (ls ++ ls')).length : Int) ≤ maxRecoveryAttempts := by
  have hconducted : Conducted pool := conducted_exec (watched_empty _) hp
  constructor
  · exact along_relation (I := fun q : GatewayPool => Conducted q ∧ q.world.batch.row.Settled)
      (Q := fun q q' : GatewayPool =>
        q.world.batch.row.recoveryAttempts ≤ q'.world.batch.row.recoveryAttempts)
      (fun _ => le_rfl) (fun _ _ _ h h' => h.trans h')
      (fun q l q' hq _ hs => ⟨⟨conducted_step hs hq.1, settled_step hs hq.1 hq.2⟩,
        attempts_step hs hq.1 hq.2⟩) (along_true _ _) hp' ⟨hconducted, .inl hactive⟩
  · have hrun := exec_append.2 ⟨pool, hp, hp'⟩
    obtain ⟨hnodup, hafforded⟩ := resumedPickups_afforded (budget_initial hrow) hrun
    exact length_afforded hnodup fun i hi => (hafforded i hi).2

end Pickups

/-- After the requeue `p` picks the batch up again. -/
def restartRun : List (Label Env Actor) :=
  startupRequeue ++ [requeuedPickup .inProgress] ++ steps 2 4

theorem restartRun_budget :
    (resumedPickups .sample sampleInitial (activationRun ++ restartRun)).length = 1 ∧
    ∃ pool ∈ exec (gateway .sample).step sampleInitial activationRun,
      ∃ pool' ∈ exec (gateway .sample).step pool restartRun,
        pool.world.batch.row.recoveryAttempts ≤ pool'.world.batch.row.recoveryAttempts ∧
        ((resumedPickups .sample sampleInitial (activationRun ++ restartRun)).length : Int) ≤
          maxRecoveryAttempts := by
  refine ⟨by decide +kernel, ?_⟩
  obtain ⟨pool, hp, hactive, pool', hp'⟩ :
      ∃ pool ∈ exec (gateway .sample).step sampleInitial activationRun,
        pool.world.batch.row.resumable = true ∧
        ∃ pool' ∈ exec (gateway .sample).step pool restartRun, True := by
    decide +kernel
  exact ⟨pool, hp, pool', hp'.1, recovery_budget .sample _ (by decide) hp hactive hp'.1⟩

/-! ### The budget of one ownership -/

/-- The label is a dequeue of the batch. -/
def dequeues : Label Env Actor → Bool
  | .spawn _ (.poll ..) => true
  | _ => false

/-- The label is a startup claim whose job is recovered, and not failed as exhausted. -/
def recovers : Label Env Actor → Bool
  | .spawn _ (.recovery _ task) => task.recoveryAttempts ≤ maxRecoveryAttempts
  | _ => false

/-- The step puts the batch back into the queue for a startup recovery. -/
def reEnqueues (pool : GatewayPool) : Label Env Actor → Bool
  | .run i env =>
    match pool.threads[i]? with
    | some ⟨.recovery .., some (.call (.exec (.pqEnqueue jp)) _)⟩ =>
      pool.world.commits env (.pqEnqueue jp)
    | _ => false
  | _ => false

/-- How often startup recoveries put the batch back into the queue. -/
def reEnqueueCount (lib : Stdlib) : GatewayPool → List (Label Env Actor) → Nat
  | _, [] => 0
  | pool, l :: ls =>
    match (gateway lib).step pool l with
    | none => 0
    | some pool' => (if reEnqueues pool l then 1 else 0) + reEnqueueCount lib pool' ls

section Ownership

variable {lib : Stdlib} {pool pool' : GatewayPool} {l : Label Env Actor}
  {ls : List (Label Env Actor)}

theorem recovers_attempts (hs : (gateway lib).step pool l = some pool') (h : recovers l = true) :
    pool'.world.batch.row.recoveryAttempts ≤ maxRecoveryAttempts := by
  rcases (gateway lib).step_cases hs with ⟨env, g, w', hstart⟩ | ⟨i, env, g, c, k, w', r, -, -⟩ |
    ⟨i, g, m, -⟩
  · change g.start env pool.world = some w' at hstart
    cases g with
    | recovery p task =>
      rw [← (recovery_attempts hstart).1]
      simpa [recovers] using h
    | _ => cases h
  · cases h
  · cases h

/-- Statements other than the dequeue give the batch no owner. -/
theorem unowned_exec {st : Stmt} {now : Time} {b b' : BatchState}
    (h : st.exec now b = .ok (some b')) (hst : ∀ q lease, st ≠ .pqDequeue q lease)
    (howner : b.row.processorID = none) : b'.row.processorID = none := by
  cases st with
  | pqDequeue q lease => exact absurd rfl (hst q lease)
  | activate a =>
    obtain ⟨⟨-, howner', -⟩, -⟩ := activateStmt_some h
    exact absurd (howner.symm.trans howner') nofun
  | _ =>
    obtain ⟨-, rfl⟩ := Stmt.of_matched h
    first | exact howner | rfl

/-- Without a dequeue an unowned batch stays unowned, and no attempt is taken back. -/
theorem undequeued_step (hs : (gateway lib).step pool l = some pool') (hc : Conducted pool)
    (hl : dequeues l = false) :
    (pool.world.batch.row.processorID = none → pool'.world.batch.row.processorID = none) ∧
    pool.world.batch.row.recoveryAttempts + (if recovers l then 1 else 0) ≤
      pool'.world.batch.row.recoveryAttempts := by
  rcases (gateway lib).step_cases hs with ⟨env, g, w', hstart⟩ | ⟨i, env, g, c, k, w', r, hi, hp⟩ |
    ⟨i, g, m, hi⟩
  · change g.start env pool.world = some w' at hstart
    cases g with
    | poll p task => cases hl
    | recovery p task =>
      obtain ⟨-, heq, -, howner, -⟩ := recovery_attempts hstart
      refine ⟨fun hnone => absurd hnone howner, ?_⟩
      dsimp only
      split <;> omega
    | _ =>
      rw [Actor.start_unclaimed hstart rfl]
      exact ⟨id, by simp [recovers]⟩
  · rcases World.batch_perform hp with hb | ⟨st, b, rfl, -, hb, rfl⟩
    · rw [hb]
      exact ⟨id, by simp [recovers]⟩
    · obtain ⟨s, -, ha⟩ := hc.allow hi
      have hst := Actor.allows_ne_dequeue ha
      exact ⟨unowned_exec hb hst, by simpa [recovers] using (attempts_exec hb hst).1⟩
  · exact ⟨id, by simp [recovers]⟩

/-- A re-enqueue takes the batch from its owner. -/
theorem reEnqueues_row (hs : (gateway lib).step pool l = some pool')
    (h : reEnqueues pool l = true) : dequeues l = false ∧
    pool.world.batch.row.processorID ≠ none ∧ pool'.world.batch.row.processorID = none := by
  unfold reEnqueues at h
  split at h
  next i env =>
    split at h
    next p task jp k hi =>
      refine ⟨rfl, ?_⟩
      obtain ⟨b, hb, hw⟩ := World.execStmt_of_commits h
      obtain _ | ⟨_, _, _, c, k', w', r, hi', hp⟩ := (gateway lib).step_cases hs
      cases hi.symm.trans hi'
      obtain rfl := congrArg Prod.fst (Option.some.inj hp)
      dsimp only
      rw [hw]
      obtain ⟨⟨-, -, howner, -⟩, rfl⟩ := Stmt.of_matched hb
      exact ⟨by simp [howner], rfl⟩
    next => cases h
  next => cases h

section

variable (hc : Conducted pool) (he : exec (gateway lib).step pool ls = some pool')
  (hls : ∀ l ∈ ls, dequeues l = false)
include hc he hls

/-- Only an owned batch is re-enqueued, and without a dequeue it is owned at most once. -/
theorem reEnqueueCount_le :
    reEnqueueCount lib pool ls ≤ if pool.world.batch.row.processorID = none then 0 else 1 := by
  induction ls generalizing pool with
  | nil => exact Nat.zero_le _
  | cons l ls ih =>
    obtain ⟨mid, hmid, he⟩ := exec_cons.1 he
    have hrest := ih (conducted_step hmid hc) he fun l hl => hls l (List.mem_cons_of_mem _ hl)
    have hkept := (undequeued_step hmid hc (hls l List.mem_cons_self)).1
    simp only [reEnqueueCount, hmid]
    by_cases hl : reEnqueues pool l = true
    · obtain ⟨-, howner, howner'⟩ := reEnqueues_row hmid hl
      rw [if_pos howner'] at hrest
      rw [if_pos hl, if_neg howner]
      omega
    · rw [if_neg hl]
      by_cases howner : pool.world.batch.row.processorID = none
      · rw [if_pos (hkept howner)] at hrest
        rw [if_pos howner]
        omega
      · rw [if_neg howner]
        split at hrest <;> omega

/-- Every recovered claim costs an attempt. -/
theorem countP_recovers_le :
    (ls.countP recovers : Int) ≤
      max 0 (maxRecoveryAttempts - pool.world.batch.row.recoveryAttempts) := by
  induction ls generalizing pool with
  | nil => simp
  | cons l ls ih =>
    obtain ⟨mid, hmid, he⟩ := exec_cons.1 he
    have hrest := ih (conducted_step hmid hc) he fun l hl => hls l (List.mem_cons_of_mem _ hl)
    have hcost := (undequeued_step hmid hc (hls l List.mem_cons_self)).2
    rw [List.countP_cons]
    by_cases hl : recovers l = true
    · have hle := recovers_attempts hmid hl
      simp only [hl, if_true] at hcost ⊢
      push_cast
      omega
    · simp only [hl] at hcost ⊢
      push_cast
      omega

end

end Ownership

/-- `p` dequeues the batch for the `n`th time, crashes before it activates it and puts it back into
the queue at startup. -/
def crashCycle (n : Nat) : List (Label Env Actor) :=
  [.spawn {} (.poll (sampleProcessor "p") (sampleTask "p" (3 * n + 1))), .crash (2 * n),
   .spawn {} (.recovery (sampleProcessor "p") (sampleClaim (3 * n + 2))),
   .run (2 * n + 1) {}, .run (2 * n + 1) {}, .run (2 * n + 1) {}]

end BatchGateway
