import BatchGateway.Checkpoint.System

/-! Every entry is committed at most once over its whole life, by whichever owner. -/
namespace BatchGateway

open Interleaving

variable {lib : Stdlib} {p p' q : StorePool} {w w' : World} {env : Env} {r : String}
  {ls : List (Label Env StoreOp)}

/-- The call answered that it committed a result to entry `r`. -/
def Commits (r : String) : (c : Call) → c.Resp → Prop
  | .exec (.checkpoint _ q _ _ result), a => a = .ok true ∧ q = r ∧ result.status.isTerminal = true
  | _, _ => False

/-- The call answered that it marked entry `r` as in flight. -/
def Marks (r : String) : (c : Call) → c.Resp → Prop
  | .exec (.mark _ q _ _), a => a = .ok true ∧ q = r
  | _, _ => False

/-- The entry an operation works on. -/
def StoreOp.request : StoreOp → Option String
  | .checkpoint _ msg => some msg.requestID
  | .mark _ requestID _ _ => some requestID
  | .activate .. | .stmt _ => none

/-- The answer without which an operation on an entry cannot report success. -/
def StoreOp.event : StoreOp → (c : Call) → c.Resp → Prop
  | .checkpoint _ msg => Commits msg.requestID
  | .mark _ requestID _ _ => Marks requestID
  | .activate .. | .stmt _ => fun _ _ => False

theorem quiet_entryNotUpdatable {ev : (c : Call) → c.Resp → Prop} (op id q p : String) (e : Int) :
    Prog.Quiet ev (· ≠ .ok true) (entryNotUpdatable op id q p e) := by
  refine Prog.Quiet.lift_bind fun a _ => ?_
  rcases a with _ | _ | status
  · nofun
  · nofun
  · dsimp only
    split <;> nofun

theorem quiet_checkpointEntryResult (id q p : String) (e : Int) (result : ResumableResult) :
    Prog.Quiet (Commits q) (· ≠ .ok true) (checkpointEntryResult id q p e result) := by
  unfold checkpointEntryResult
  split
  · nofun
  next ht =>
    refine Prog.Quiet.lift_bind fun a ha => ?_
    rcases a with _ | _ | _
    · nofun
    · exact quiet_entryNotUpdatable _ _ _ _ _
    · exact absurd ⟨rfl, rfl, by simpa using ht⟩ ha

theorem quiet_mark (id q p : String) (e : Int) :
    Prog.Quiet (Marks q) (· ≠ .ok true) (markEntryInFlight id q p e) := by
  refine Prog.Quiet.lift_bind fun a ha => ?_
  rcases a with _ | _ | _
  · nofun
  · exact quiet_entryNotUpdatable _ _ _ _ _
  · exact absurd ⟨rfl, rfl⟩ ha

theorem quiet_commitObject (s : BatchResultStore) (msg : ResultItem) (digest : String) (size : Int)
    (key : String) : Prog.Quiet (Commits msg.requestID) (· ≠ .ok true)
      (s.commitObject msg digest size key) := by
  refine (quiet_checkpointEntryResult _ _ _ _ _).bind fun a ha => ?_
  rcases a with _ | _ | _
  · nofun
  · dsimp only
    split
    · exact Prog.Quiet.lift_bind fun _ _ => nofun
    · nofun
  · exact absurd rfl ha

/-- Only an entry write that matched lets a call on an entry report success. -/
theorem quiet_code (lib : Stdlib) (op : StoreOp) (h : op.request = some r) :
    Prog.Quiet op.event (· ≠ .ok true) (op.code lib) := by
  cases op with
  | checkpoint s msg =>
    refine Prog.Quiet.lift_bind fun a _ => ?_
    rcases a with _ | entry
    · nofun
    · dsimp only
      split
      · nofun
      · refine (Prog.Quiet.true _ (s.storeObject lib _ _ _ _)).bind fun a _ => ?_
        rcases a with _ | key
        · nofun
        · exact quiet_commitObject _ _ _ _ _
  | mark id q p e => exact quiet_mark _ _ _ _
  | activate => cases h
  | stmt => cases h

/-- Entry `r` has its final result. -/
def HasTerminal (r : String) (w : World) : Prop :=
  ∃ row ∈ w.batch.entries.rows, row.requestID = r ∧ row.status.isTerminal = true

variable {row : EntryRow}

theorem terminal_row_perform {c : Call} {a : c.Resp} (h : w.perform env c = some (w', a))
    (hr : row ∈ w.batch.entries.rows) (ht : row.status.isTerminal = true) :
    row ∈ w'.batch.entries.rows := by
  rcases World.batch_perform h with hb | ⟨s, b, -, -, hs, rfl⟩
  · rw [hb]
    exact hr
  · exact Stmt.terminal_row_exec hs hr ht

variable {l : Label Env StoreOp}

/-- No step of any operation touches an entry that has its final result. -/
theorem terminal_row_step (h : (storeSystem lib).step p l = some q)
    (hr : row ∈ p.world.batch.entries.rows) (ht : row.status.isTerminal = true) :
    row ∈ q.world.batch.entries.rows := by
  rcases (storeSystem lib).step_cases h with ⟨e, op, w, hw⟩ | ⟨i, e, op, c, k, w, a, -, hp⟩ |
    ⟨i, op, m, -⟩
  · rw [show w.batch = p.world.batch from (StoreOp.started hw).batch]
    exact hr
  · exact terminal_row_perform hp hr ht
  · exact hr

theorem terminal_row_exec (h : exec (storeSystem lib).step p ls = some q)
    (hr : row ∈ p.world.batch.entries.rows) (ht : row.status.isTerminal = true) :
    row ∈ q.world.batch.entries.rows := by
  induction ls generalizing p with
  | nil =>
    cases h
    exact hr
  | cons l ls ih =>
    obtain ⟨u, hu, hq⟩ := exec_cons.1 h
    exact ih hq (terminal_row_step hu hr ht)

/-- An entry write that matched found its entry open. -/
theorem open_of_event {op : StoreOp} {c : Call} {a : c.Resp} (hop : op.request = some r)
    (h : w.perform env c = some (w', a)) (hev : op.event c a) :
    ∃ row ∈ w.batch.entries.rows, row.requestID = r ∧ row.IsOpen := by
  cases op with
  | checkpoint s msg =>
    cases hop
    simp only [StoreOp.event] at hev
    unfold Commits at hev
    split at hev
    next id q p e result a =>
      obtain ⟨rfl, rfl, -⟩ := hev
      rcases World.execStmt_cases (Option.some.inj h) with ⟨-, hne⟩ | ⟨b, hb, -, -⟩
      · exact absurd rfl hne
      · obtain ⟨row, hr, hq, ho, -⟩ := Stmt.open_of_checkpoint hb
        exact ⟨row, hr, hq, ho⟩
    next => cases hev
  | mark id q p e =>
    cases hop
    simp only [StoreOp.event] at hev
    unfold Marks at hev
    split at hev
    next id q p e a =>
      obtain ⟨rfl, rfl⟩ := hev
      rcases World.execStmt_cases (Option.some.inj h) with ⟨-, hne⟩ | ⟨b, hb, -, -⟩
      · exact absurd rfl hne
      · exact Stmt.open_of_mark hb
    next => cases hev
  | activate => cases hop
  | stmt => cases hop

theorem terminal_of_commits {c : Call} {a : c.Resp} (h : w.perform env c = some (w', a))
    (hev : Commits r c a) : HasTerminal r w' := by
  unfold Commits at hev
  split at hev
  next id q p e result a =>
    obtain ⟨rfl, rfl, ht⟩ := hev
    rcases World.execStmt_cases (Option.some.inj h) with ⟨-, hne⟩ | ⟨b, hb, rfl, -⟩
    · exact absurd rfl hne
    · obtain ⟨row, hr, hq, -, hc⟩ := Stmt.open_of_checkpoint hb
      exact ⟨_, hc, hq, ht⟩
  next => cases hev

theorem not_terminal_of_open (hr : row ∈ w.batch.entries.rows) (hq : row.requestID = r)
    (ho : row.IsOpen) : ¬ HasTerminal r w := by
  rintro ⟨row', hr', hq', ht⟩
  rw [EntryTable.eq_of_requestID hr' hr (hq'.trans hq.symm), ho] at ht
  cases ht

/-- The checkpoints of entry `r`. -/
def IsCheckpointOf (r : String) (op : StoreOp) : Prop :=
  ∃ s msg, op = .checkpoint s msg ∧ msg.requestID = r

/-- The checkpoints and the marks of entry `r`. -/
def WorksOn (r : String) (op : StoreOp) : Prop := op.request = some r

theorem IsCheckpointOf.worksOn {op : StoreOp} (h : IsCheckpointOf r op) : WorksOn r op := by
  obtain ⟨s, msg, rfl, rfl⟩ := h
  rfl

/-- Thread `i` can report success although no entry write of it is to come. -/
abbrev Reporting (sel : StoreOp → Prop) (p : StorePool) (i : Nat) : Prop :=
  Loud sel StoreOp.event (· ≠ .ok true) p i

/-- A commit that was reported is the only one, and its entry has its final result. -/
structure Accounted (r : String) (p : StorePool) : Prop where
  terminal : ∀ i, Reporting (IsCheckpointOf r) p i → HasTerminal r p.world
  unique : ∀ i j, Reporting (IsCheckpointOf r) p i → Reporting (IsCheckpointOf r) p j → i = j

theorem accounted_init (r : String) (w : World) : Accounted r ⟨w, []⟩ := by
  constructor
  · rintro i ⟨g, m, hi, -⟩
    simp at hi
  · rintro i j ⟨g, m, hi, -⟩
    simp at hi

theorem hasTerminal_step (h : (storeSystem lib).step p l = some q) (ht : HasTerminal r p.world) :
    HasTerminal r q.world := by
  obtain ⟨row, hr, hq, ht⟩ := ht
  exact ⟨row, terminal_row_step h hr ht, hq, ht⟩

variable {sel : StoreOp → Prop}

/-- A thread starts reporting only while its entry is open. -/
theorem reporting_step {j : Nat} (hsel : ∀ op, sel op → WorksOn r op)
    (h : (storeSystem lib).step p l = some q) (hj : Reporting sel q j) : Reporting sel p j ∨
      ((∃ row ∈ p.world.batch.entries.rows, row.requestID = r ∧ row.IsOpen) ∧
        (∃ e op c k a, l = .run j e ∧ p.threads[j]? = some ⟨op, some (.call c k)⟩ ∧ sel op ∧
          p.world.perform e c = some (q.world, a) ∧ op.event c a)) := by
  rcases loud_step (fun op hop => quiet_code lib op (hsel op hop)) h hj with
    hj | ⟨e, op, c, k, a, hl, hi, hop, hp, hev⟩
  · exact .inl hj
  · exact .inr ⟨open_of_event (hsel op hop) hp hev, e, op, c, k, a, hl, hi, hop, hp, hev⟩

theorem accounted_step (h : (storeSystem lib).step p l = some q) (ha : Accounted r p) :
    Accounted r q := by
  have hstep := fun j => reporting_step (j := j) (fun op => IsCheckpointOf.worksOn (r := r)) h
  -- A new commit finds the entry open, so nobody reported one before it.
  have hnone : (∃ row ∈ p.world.batch.entries.rows, row.requestID = r ∧ row.IsOpen) →
      ∀ i, ¬ Reporting (IsCheckpointOf r) p i := by
    rintro ⟨row, hr, hq, ho⟩ i hi
    exact not_terminal_of_open hr hq ho (ha.terminal i hi)
  constructor
  · intro i hi
    rcases hstep i hi with hi | ⟨-, e, op, c, k, a, -, -, hop, hp, hev⟩
    · exact hasTerminal_step h (ha.terminal i hi)
    · obtain ⟨s, msg, rfl, rfl⟩ := hop
      exact terminal_of_commits hp hev
  · intro i j hi hj
    rcases hstep i hi with hi | ⟨hopen, e, op, c, k, a, hl, -⟩
    · rcases hstep j hj with hj | ⟨hopen, -⟩
      · exact ha.unique i j hi hj
      · exact absurd hi (hnone hopen i)
    · rcases hstep j hj with hj | ⟨-, e', op', c', k', a', hl', -⟩
      · exact absurd hj (hnone hopen j)
      · rw [hl] at hl'
        cases hl'
        rfl

theorem accounted_exec (h : exec (storeSystem lib).step p ls = some q) (ha : Accounted r p) :
    Accounted r q :=
  along_invariant (fun _ _ _ ha _ h => accounted_step h ha) (along_true p ls) h ha

/-- Once the entry has its final result, nobody starts reporting. -/
theorem reporting_exec {j : Nat} (hsel : ∀ op, sel op → WorksOn r op)
    (h : exec (storeSystem lib).step p ls = some q) (ht : HasTerminal r p.world)
    (hj : Reporting sel q j) : Reporting sel p j := by
  induction ls generalizing p with
  | nil =>
    cases h
    exact hj
  | cons l ls ih =>
    obtain ⟨u, hu, hq⟩ := exec_cons.1 h
    rcases reporting_step hsel hu (ih hq (hasTerminal_step hu ht)) with hj | ⟨⟨row, hr, he, ho⟩, -⟩
    · exact hj
    · exact absurd ht (not_terminal_of_open hr he ho)

/-- Entries are never removed. -/
theorem empty_of_step (h : (storeSystem lib).step p l = some q)
    (hq : q.world.batch.entries.rows = []) : p.world.batch.entries.rows = [] := by
  rcases (storeSystem lib).step_cases h with ⟨e, op, w, hw⟩ | ⟨i, e, op, c, k, w, a, -, hp⟩ |
    ⟨i, op, m, -⟩
  · rw [← (StoreOp.started hw).batch]
    exact hq
  · rcases World.batch_perform hp with hb | ⟨s, b, -, -, hs, rfl⟩
    · rw [← hb]
      exact hq
    · rcases Stmt.rows_exec hs with ⟨_, -, he, -⟩ | ⟨f, hf, -⟩
      · exact he
      · rw [hf] at hq
        exact List.map_eq_nil_iff.1 hq
  · exact hq

/-- As long as there are no entries, no operation on an entry reports success. -/
theorem not_reporting_of_empty (hsel : ∀ op, sel op → WorksOn r op)
    (h : exec (storeSystem lib).step ⟨w, []⟩ ls = some p) (hp : p.world.batch.entries.rows = [])
    (i : Nat) : ¬ Reporting sel p i := by
  refine along_invariant (I := fun p => p.world.batch.entries.rows = [] → ∀ i, ¬ Reporting sel p i)
    (fun p l q hinv _ hs hq i hi => ?_) (along_true _ ls) h (fun _ i => ?_) hp i
  · have he := empty_of_step hs hq
    rcases reporting_step hsel hs hi with hi | ⟨⟨row, hr, -⟩, -⟩
    · exact hinv he i hi
    · rw [he] at hr
      cases hr
  · rintro ⟨g, m, hi, -⟩
    simp at hi

/-- Thread `i` is a checkpoint of entry `r` that reported a commit. -/
def ReportsCommit (r : String) (p : StorePool) (i : Nat) : Prop :=
  ∃ s msg, msg.requestID = r ∧ p.threads[i]? = some ⟨.checkpoint s msg, some (.ret (.ok true))⟩

/-- Thread `i` marked entry `r` and was told to submit it. -/
def ReportsMark (r : String) (p : StorePool) (i : Nat) : Prop :=
  ∃ id proc e, p.threads[i]? = some ⟨.mark id r proc e, some (.ret (.ok true))⟩

theorem ReportsCommit.reporting {i : Nat} (h : ReportsCommit r p i) :
    Reporting (IsCheckpointOf r) p i := by
  obtain ⟨s, msg, hq, hi⟩ := h
  exact ⟨_, _, hi, ⟨s, msg, rfl, hq⟩, fun hne => hne rfl⟩

theorem ReportsMark.reporting {i : Nat} (h : ReportsMark r p i) :
    Reporting (WorksOn r) p i := by
  obtain ⟨id, proc, e, hi⟩ := h
  exact ⟨_, _, hi, rfl, fun hne => hne rfl⟩

/-- Exactly-once accounting over every run of checkpoints, marks, activations and other statements
of any owners: two reported commits of an entry are the same call; from then on its row stays what
it is; and an entry that activation inserts as failed is neither dispatched nor committed again. -/
theorem exactly_once_accounting (lib : Stdlib) (w : World) (row : BatchRow)
    {pre post : List (Label Env StoreOp)} {p q : StorePool}
    (hp : exec (storeSystem lib).step ⟨{ w with batch := ⟨row, .empty⟩ }, []⟩ pre = some p)
    (hq : exec (storeSystem lib).step p post = some q) (r : String) :
    (∀ i j, ReportsCommit r p i → ReportsCommit r q j → i = j) ∧
    (∀ i, ReportsCommit r p i → ∃ e ∈ p.world.batch.entries.rows,
      e.requestID = r ∧ e.status.isTerminal = true ∧ e ∈ q.world.batch.entries.rows) ∧
    (∀ l p' later q', (storeSystem lib).step p l = some p' →
      exec (storeSystem lib).step p' later = some q' → p.world.batch.entries.rows = [] →
      ∀ e ∈ p'.world.batch.entries.rows, e.requestID = r → e.status = .failed →
        e ∈ q'.world.batch.entries.rows ∧ ∀ i, ¬ ReportsCommit r q' i ∧ ¬ ReportsMark r q' i) := by
  have hacc : Accounted r p := accounted_exec hp (accounted_init r _)
  refine ⟨fun i j hi hj => ?_, fun i hi => ?_, fun l p' later q' hl hlater he e hmem hr hf => ?_⟩
  · have hj := reporting_exec (fun op => IsCheckpointOf.worksOn) hq (hacc.terminal i hi.reporting)
      hj.reporting
    exact hacc.unique i j hi.reporting hj
  · obtain ⟨e, he, hr, ht⟩ := hacc.terminal i hi.reporting
    exact ⟨e, he, hr, ht, terminal_row_exec hq he ht⟩
  · have ht : e.status.isTerminal = true := by rw [hf]; rfl
    have hterm : HasTerminal r p'.world := ⟨e, hmem, hr, ht⟩
    -- Before the activation there was no entry to report about.
    have hnone : ∀ {sel : StoreOp → Prop}, (∀ op, sel op → WorksOn r op) →
        ∀ i, ¬ Reporting sel q' i := by
      intro sel hsel i hi
      rcases reporting_step hsel hl (reporting_exec hsel hlater hterm hi) with hi | ⟨⟨x, hx, -⟩, -⟩
      · exact not_reporting_of_empty hsel hp he i hi
      · rw [he] at hx
        cases hx
    exact ⟨terminal_row_exec hlater hmem ht, fun i =>
      ⟨fun hi => hnone (fun op => IsCheckpointOf.worksOn) i hi.reporting,
        fun hi => hnone (fun op hop => hop) i hi.reporting⟩⟩

/-- The result is delivered once more. -/
def sampleRedelivery : List (Label Env StoreOp) :=
  [.spawn {} (.checkpoint ⟨"batch_1", "p", 1, 2⟩ (sampleResult true)), .run 4 {}]

theorem exactly_once_redelivery :
    ∃ p q, exec (storeSystem .sample).step ⟨sampleWorld, []⟩ sampleCommit = some p ∧
      exec (storeSystem .sample).step p sampleRedelivery = some q ∧
      ReportsCommit Stdlib.sampleRequest p 3 ∧
      ∀ j, ReportsCommit Stdlib.sampleRequest q j → 3 = j := by
  obtain ⟨q, hpq⟩ : ∃ q, exec (storeSystem .sample).step ⟨sampleWorld, []⟩
      (sampleCommit ++ sampleRedelivery) = some q := Option.isSome_iff_exists.1 (by decide)
  obtain ⟨p, hp, hq⟩ := exec_append.1 hpq
  have hthread : (exec (storeSystem .sample).step ⟨sampleWorld, []⟩ sampleCommit).bind
      (·.threads[3]?) = some ⟨.checkpoint _ (sampleResult true), some (.ret (.ok true))⟩ := rfl
  rw [hp] at hthread
  have hcommit : ReportsCommit Stdlib.sampleRequest p 3 := ⟨_, _, rfl, hthread⟩
  exact ⟨p, q, hp, hq, hcommit, fun j =>
    (exactly_once_accounting .sample sampleWorld _ hp hq _).1 3 j hcommit⟩

end BatchGateway
