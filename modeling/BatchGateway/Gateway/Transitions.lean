import BatchGateway.Gateway.Conduct

/-! The transitions of a batch row: what the statements that actors issue can do to its status, its
owner and its resumable flag. -/
namespace BatchGateway

open Interleaving

variable {g : Actor} {s : Held} {st : Stmt} {now : Time} {b b' : BatchState} {row row' : BatchRow}

/-- The owner and the epoch stay. -/
structure SameOwner (row row' : BatchRow) : Prop where
  owner : row'.processorID = row.processorID
  epoch : row'.epoch = row.epoch

/-- One committed statement of an actor. -/
inductive Transition (g : Actor) (row row' : BatchRow) : Stmt → Prop where
  | kept {st : Stmt} (status : row'.status.status = row.status.status)
      (resumable : row'.resumable = row.resumable) (same : SameOwner row row') :
      Transition g row row' st
  | requeued {id p : String} {e : Int} {lapsed bump : Bool}
      (status : row'.status.status = row.status.status) (resumable : row.resumable = true)
      (resumable' : row'.resumable = true) (epoch : row'.epoch = row.epoch + 1) :
      Transition g row row' (.requeue id p e lapsed bump)
  | enqueued {jp : BatchJobPriority} (resumable : row.resumable = false)
      (unfinished : row.NonTerminal) (epoch : row.epoch = jp.epoch)
      (expected : jp.expectedStatus = some row.status.status)
      (status' : row'.status.status = .validating) (resumable' : row'.resumable = false)
      (epoch' : row'.epoch = row.epoch + 1)
      (source : row.status.status ≠ .cancelling ∨ ∃ p, g.claim = some (p, jp)) :
      Transition g row row' (.pqEnqueue jp)
  | deleted {id : String} (owner : row.processorID = none) (owner' : row'.processorID = none)
      (resumable : row.resumable = false) (status : row.status.status = .validating)
      (status' : row'.status.status = .cancelled) (epoch : row'.epoch = row.epoch + 1) :
      Transition g row row' (.pqDelete id)
  | activated {a : ResumableActivation} (status : row.status.status = .validating)
      (resumable : row.resumable = false) (status' : row'.status.status = .inProgress)
      (resumable' : row'.resumable = true) (same : SameOwner row row') :
      Transition g row row' (.activate a)
  | finalized {fin : ResumableFinalization} (resumable : row.resumable = true)
      (finished : ¬ row'.NonTerminal)
      (completed : row'.status.status = .completed → row.status.status = .finalizing)
      (same : SameOwner row row') :
      Transition g row row' (.finalize fin)
  | ended {x : BatchItem} {expected : Option BatchStatusInfo} (finished : ¬ row'.NonTerminal)
      (uncompleted : row'.status.status ≠ .completed) (resumable : row'.resumable = row.resumable)
      (owner : row'.processorID = row.processorID)
      (epoch : row'.epoch = if x.bumpEpoch then row.epoch + 1 else row.epoch) :
      Transition g row row' (.dbUpdate x expected)
  | finalizing {x : BatchItem} {doc : BatchStatusInfo} (hdoc : x.status = some doc)
      (status : doc.status = .finalizing) (resumable : row.resumable = true)
      (resumable' : row'.resumable = true) (same : SameOwner row row')
      (status' : row'.status.status = .finalizing) :
      Transition g row row' (.dbUpdate x none)
  | cancelling {x : BatchItem} {old : BatchStatusInfo} (unfinished : row.NonTerminal)
      (status' : row'.status.status = .cancelling) (resumable : row'.resumable = row.resumable)
      (same : SameOwner row row') :
      Transition g row row' (.dbUpdate x (some old))

/-- What a row update does. -/
theorem dbUpdate_row {x : BatchItem} {expected : Option BatchStatusInfo} {doc : BatchStatusInfo}
    (h : (Stmt.dbUpdate x expected).exec now b = .ok (some b')) (hd : x.status = some doc) :
    (∀ old ∈ expected, b.row.status = old) ∧
    (∀ flag ∈ x.expectedResumable, b.row.resumable = flag) ∧ b'.row.status = doc ∧
    b'.row.resumable = b.row.resumable ∧ b'.row.processorID = b.row.processorID ∧
    b'.row.epoch = if x.bumpEpoch then b.row.epoch + 1 else b.row.epoch := by
  obtain ⟨⟨-, hold, -, hflag⟩, rfl⟩ := Stmt.of_matched h
  exact ⟨hold, hflag, by simp [hd], rfl, rfl, rfl⟩

theorem transition_ended {x : BatchItem} {expected : Option BatchStatusInfo}
    {doc : BatchStatusInfo} (h : (Stmt.dbUpdate x expected).exec now b = .ok (some b'))
    (hd : x.status = some doc)
    (hs : doc.status = .expired ∨ doc.status = .cancelled ∨ doc.status = .failed) :
    Transition g b.row b'.row (.dbUpdate x expected) := by
  obtain ⟨-, -, hdoc, hres, howner, hepoch⟩ := dbUpdate_row h hd
  refine .ended ?_ ?_ hres howner hepoch <;>
    simp only [BatchRow.NonTerminal, hdoc] <;> rcases hs with hs | hs | hs <;> rw [hs] <;> decide

theorem transition_enqueued {jp : BatchJobPriority}
    (h : (Stmt.pqEnqueue jp).exec now b = .ok (some b'))
    (hjp : (∃ status, jp.expectedStatus = some status ∧ status ≠ .cancelling) ∨
      ∃ p, g.claim = some (p, jp)) :
    Transition g b.row b'.row (.pqEnqueue jp) := by
  obtain ⟨⟨-, he, -, hs, hr, hn⟩, rfl⟩ := Stmt.of_matched h
  refine .enqueued hr hn he hs.symm rfl hr rfl (hjp.imp_left ?_)
  rintro ⟨status, hstatus, hne⟩
  rw [hstatus] at hs
  cases hs
  exact hne

theorem transition_requeued {id p : String} {e : Int} {lapsed bump : Bool}
    (h : (Stmt.requeue id p e lapsed bump).exec now b = .ok (some b')) :
    Transition g b.row b'.row (.requeue id p e lapsed bump) := by
  obtain ⟨⟨-, -, -, hr, -⟩, rfl⟩ := Stmt.of_matched h
  exact .requeued rfl hr hr rfl

/-- An entry write, a renewal or a progress write. -/
theorem transition_kept (h : st.exec now b = .ok (some b'))
    (hst : (∃ id r p e, st = .mark id r p e) ∨ (∃ id r p e x, st = .checkpoint id r p e x) ∨
      (∃ id p e, st = .recordSubmitter id p e) ∨ (∃ id p e ttl, st = .renew id p e ttl) ∨
      ∃ id e counts, st = .updateProgress id e counts) :
    Transition g b.row b'.row st := by
  rcases hst with ⟨_, _, _, _, rfl⟩ | ⟨_, _, _, _, _, rfl⟩ | ⟨_, _, _, rfl⟩ | ⟨_, _, _, _, rfl⟩ |
    ⟨_, _, _, rfl⟩ <;>
  · obtain ⟨-, rfl⟩ := Stmt.of_matched h
    exact .kept rfl rfl ⟨rfl, rfl⟩

/-- What an owner's statement does to the row. -/
theorem transition_of_permits {p : Processor} {task : BatchJobPriority}
    (hg : g.claim = some (p, task)) (hp : s.Permits p.processorID task st)
    (h : st.exec now b = .ok (some b')) : Transition g b.row b'.row st := by
  cases st with
  | pqEnqueue jp =>
    refine transition_enqueued h ?_
    rcases hp with rfl | ⟨_, -, -, -, hs⟩
    · exact .inr ⟨p, hg⟩
    · exact .inl ⟨_, hs, by decide⟩
  | requeue => exact transition_requeued h
  | recordSubmitter => exact transition_kept h (by simp)
  | activate a =>
    obtain ⟨⟨-, -, -, hs, hr, -⟩, hrow, -⟩ := activateStmt_some h
    rw [hrow]
    exact .activated hs hr rfl rfl ⟨rfl, rfl⟩
  | finalize fin =>
    obtain ⟨_, -, -, -, hterm, hcompl, -⟩ := hp
    obtain ⟨⟨-, -, -, hr, -, hs⟩, rfl⟩ := Stmt.of_matched h
    refine .finalized hr (by simp [BatchRow.NonTerminal, hterm]) (fun hc => ?_) ⟨rfl, rfl⟩
    rw [hcompl hc] at hs
    exact Option.some.inj hs
  | dbUpdate x expected =>
    cases expected with
    | none =>
      obtain ⟨-, hbump, _, -, -, doc, hd, hs⟩ := hp
      rcases hs with hs | hs | ⟨hs, hflag⟩
      · exact transition_ended h hd (.inl hs)
      · exact transition_ended h hd (.inr (.inl hs))
      · obtain ⟨-, hres, hdoc, hres', howner, hepoch⟩ := dbUpdate_row h hd
        have hr := hres true hflag
        rw [hbump] at hepoch
        exact .finalizing hd hs hr (hres'.trans hr) ⟨howner, hepoch⟩ (by rw [hdoc, hs])
    | some old =>
      obtain ⟨-, _, -, -, -, -, doc, hd, hs⟩ := hp
      exact transition_ended h hd (.inr (.inr hs))
  | _ => exact hp.elim

/-- What the statement of any actor does to the row. -/
theorem transition_of_allows (ha : g.Allows s st) (h : st.exec now b = .ok (some b')) :
    Transition g b.row b'.row st := by
  cases g with
  | poll p task => exact transition_of_permits rfl ha h
  | recovery p task => exact transition_of_permits rfl ha h
  | renewal p item =>
    obtain ⟨ttl, rfl⟩ := ha
    exact transition_kept h (by simp)
  | request p item work =>
    rcases ha with ⟨_, rfl⟩ | ⟨_, _, rfl, -⟩ | ⟨_, rfl⟩ <;> exact transition_kept h (by simp)
  | cancel id =>
    rcases ha with rfl | ⟨x, old, rfl, ho, hbump, doc, hd, hs⟩
    · obtain ⟨⟨-, howner, hr, hs⟩, rfl⟩ := Stmt.of_matched h
      exact .deleted howner howner hr hs rfl rfl
    · obtain ⟨hold, -, hdoc, hres, howner, hepoch⟩ := dbUpdate_row h hd
      rw [hbump] at hepoch
      refine .cancelling ?_ (by rw [hdoc, hs]) hres ⟨howner, hepoch⟩
      rw [BatchRow.NonTerminal, hold old rfl]
      exact ho
  | reconcile r =>
    rcases ha with ⟨_, _, _, _, _, rfl⟩ | ⟨_, _, _, rfl⟩ | ⟨jp, status, rfl, hs, hne⟩ |
      ⟨x, old, rfl, -, -, doc, hd, hs⟩
    · exact transition_requeued h
    · exact transition_kept h (by simp)
    · exact transition_enqueued h (.inl ⟨status, hs, hne⟩)
    · exact transition_ended h hd (.inr hs)

/-- Everybody keeps to the discipline of an actor. -/
def Conducted (pool : GatewayPool) : Prop := Watched Actor.conduct (fun _ s w => s.Copies w) pool

theorem spec_start {env : Env} {w w' : World} (h : g.start env w = some w') :
    w'.batch.row.specDecodes = w.batch.row.specDecodes := by
  rcases Actor.start_cases h with ⟨_, _, -, hcl⟩ | ⟨-, rfl, -⟩
  · exact hcl.spec
  · rfl

theorem conducted_step {lib : Stdlib} {pool pool' : GatewayPool} {l : Label Env Actor}
    (hs : (gateway lib).step pool l = some pool') (h : Conducted pool) : Conducted pool' := by
  refine watched_step (fun env g w w' hstart => ?_) (fun env g s w c w' r hT _ hp => ?_) hs h
  · have hspec := spec_start hstart
    exact ⟨⟨{}, by simp [Held.Copies], code_obeys lib g⟩,
      fun _ s hT it hit => (hT it hit).trans hspec.symm⟩
  · have hspec := spec_perform hp
    exact ⟨⟨answer_of_perform hT hp, copies_of_perform hT hp⟩,
      fun _ s hT it hit => (hT it hit).trans hspec.symm⟩

/-- A statement that a thread is about to commit makes one of the transitions. -/
theorem Conducted.transition {pool : GatewayPool} {i : Nat} {k : Except Err Bool → Task _}
    (h : Conducted pool) (hi : pool.threads[i]? = some ⟨g, some (.call (.exec st) k)⟩)
    (hb : st.exec now pool.world.batch = .ok (some b)) :
    Transition g pool.world.batch.row b.row st := by
  obtain ⟨s, -, ha⟩ := h.allow hi
  exact transition_of_allows ha hb

/-- Resumable or finished. -/
def BatchRow.Settled (row : BatchRow) : Prop := row.resumable = true ∨ ¬ row.NonTerminal

theorem BatchRow.not_settled : ¬ row.Settled ↔ row.resumable = false ∧ row.NonTerminal := by
  simp [Settled]

theorem nonTerminal_of_validating (h : row.status.status = .validating) : row.NonTerminal := by
  rw [BatchRow.NonTerminal, h]
  rfl

theorem Transition.epoch_le (h : Transition g row row' st) : row.epoch ≤ row'.epoch := by
  cases h with
  | kept _ _ hsame | activated _ _ _ _ hsame | finalized _ _ _ hsame | finalizing _ _ _ _ hsame
  | cancelling _ _ _ hsame => exact hsame.epoch.ge
  | requeued _ _ _ he | enqueued _ _ _ _ _ _ he | deleted _ _ _ _ _ he => omega
  | ended _ _ _ _ he =>
    rw [he]
    split <;> omega

/-- No transition takes a settled row back to the queue or to a fresh start. -/
theorem Transition.settled (h : Transition g row row' st) (hs : row.Settled) : row'.Settled := by
  have hno : row.resumable = false → ¬ row.NonTerminal := fun hr hn =>
    BatchRow.not_settled.2 ⟨hr, hn⟩ hs
  cases h with
  | kept hst hr => rwa [BatchRow.Settled, BatchRow.NonTerminal, hst, hr]
  | requeued _ _ hr => exact .inl hr
  | enqueued hr hn => exact absurd hn (hno hr)
  | deleted _ _ hr hv => exact absurd (nonTerminal_of_validating hv) (hno hr)
  | activated _ _ _ hr => exact .inl hr
  | finalized _ hf => exact .inr hf
  | ended hf => exact .inr hf
  | finalizing _ _ _ hr => exact .inl hr
  | cancelling hn _ hr =>
    rcases hs with hs | hs
    · exact .inl (hr.trans hs)
    · exact absurd hn hs

/-- A claim and a step of any thread leave a settled row settled. -/
theorem settled_step {lib : Stdlib} {pool pool' : GatewayPool} {l : Label Env Actor}
    (hs : (gateway lib).step pool l = some pool') (hc : Conducted pool)
    (h : pool.world.batch.row.Settled) : pool'.world.batch.row.Settled := by
  rcases (gateway lib).step_cases hs with ⟨env, g, w', hstart⟩ | ⟨i, env, g, c, k, w', r, hi, hp⟩ |
    ⟨i, g, m, hi⟩
  · rcases Actor.start_cases hstart with ⟨_, _, -, hcl⟩ | ⟨-, rfl, -⟩
    · rwa [BatchRow.Settled, BatchRow.NonTerminal, hcl.status, hcl.resumable]
    · exact h
  · rcases World.batch_perform hp with hb | ⟨st, b, rfl, -, hb, rfl⟩
    · rw [hb]
      exact h
    · exact (hc.transition hi hb).settled h
  · exact h

end BatchGateway
