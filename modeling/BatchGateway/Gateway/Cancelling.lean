import BatchGateway.Gateway.Transitions

/-! A committed cancellation is not undone, as long as no job is moved to finalizing over it. -/
namespace BatchGateway

open Interleaving

variable {lib : Stdlib} {w w' : World} {env : Env} {g g' : Actor} {s : Held} {st : Stmt}
  {row row' : BatchRow}

/-- Cancelling, or finished in any way but completed. -/
def BatchRow.CancelKept (row : BatchRow) : Prop :=
  row.status.status = .cancelling ∨ (¬ row.NonTerminal ∧ row.status.status ≠ .completed)

/-- The transition to finalizing commits only on an unfinished job that is not being cancelled. -/
def FinalizesUncancelled (w : World) (env : Env) (_ : Actor) : Call → Prop
  | .exec (.dbUpdate x none) => ∀ doc ∈ x.status, doc.status = .finalizing →
      w.commits env (.dbUpdate x none) = true →
        w.batch.row.NonTerminal ∧ w.batch.row.status.status ≠ .cancelling
  | _ => True

instance (c : Call) : Decidable (FinalizesUncancelled w env g c) := by
  unfold FinalizesUncancelled
  split <;> infer_instance

/-- What a claim remembers of the row: a fresh job was waiting in the queue, and a resumable one
stays settled at its epoch. -/
structure Remembers (g : Actor) (w : World) : Prop where
  epoch : ∀ p task, g.claim = some (p, task) → task.epoch ≤ w.batch.row.epoch
  fresh : ∀ p task, g.claim = some (p, task) → task.resumable = false →
    ∀ status, task.expectedStatus = some status → status = .validating
  settled : ∀ p task, g.claim = some (p, task) → task.resumable = true →
    w.batch.row.epoch = task.epoch → w.batch.row.Settled

theorem Transition.cancelKept (h : Transition g row row' st) (hk : row.CancelKept)
    (henq : ∀ p jp, st = .pqEnqueue jp → g.claim = some (p, jp) → row.resumable = false →
      row.NonTerminal → row.epoch = jp.epoch → jp.expectedStatus = some row.status.status →
        row.status.status ≠ .cancelling)
    (hfin : ∀ x doc, st = .dbUpdate x none → x.status = some doc → doc.status = .finalizing →
      row.NonTerminal ∧ row.status.status ≠ .cancelling) : row'.CancelKept := by
  have hopen : row.NonTerminal → row.status.status = .cancelling := fun hn =>
    hk.resolve_right fun ht => ht.1 hn
  cases h with
  | kept hst => rwa [BatchRow.CancelKept, BatchRow.NonTerminal, hst]
  | requeued hst => rwa [BatchRow.CancelKept, BatchRow.NonTerminal, hst]
  | enqueued hr hn he hx _ _ _ hsource =>
    rcases hsource with hne | ⟨p, hg⟩
    · exact absurd (hopen hn) hne
    · exact absurd (hopen hn) (henq p _ rfl hg hr hn he hx)
  | deleted _ _ _ hv =>
    have hc := hopen (nonTerminal_of_validating hv)
    rw [hv] at hc
    cases hc
  | activated hv =>
    have hc := hopen (nonTerminal_of_validating hv)
    rw [hv] at hc
    cases hc
  | finalized _ hf hcompl =>
    refine .inr ⟨hf, fun hc => ?_⟩
    rcases hk with hk | ⟨hk, -⟩
    · rw [hcompl hc] at hk
      cases hk
    · exact hk (by rw [BatchRow.NonTerminal, hcompl hc]; rfl)
  | ended hf hu => exact .inr ⟨hf, hu⟩
  | finalizing hd hs =>
    obtain ⟨hn, hne⟩ := hfin _ _ rfl hd hs
    exact absurd (hopen hn) hne
  | cancelling _ hs => exact .inl hs

/-- What every step does to the row. -/
structure Advances (w w' : World) : Prop where
  spec : w'.batch.row.specDecodes = w.batch.row.specDecodes
  epoch : w.batch.row.epoch ≤ w'.batch.row.epoch
  settled : w'.batch.row.epoch = w.batch.row.epoch → w.batch.row.Settled → w'.batch.row.Settled
  cancelKept : w.batch.row.CancelKept → w'.batch.row.CancelKept

theorem Advances.refl (w : World) : Advances w w := ⟨rfl, Int.le_refl _, fun _ h => h, id⟩

theorem Advances.trans {w₁ w₂ w₃ : World} (h : Advances w₁ w₂) (h' : Advances w₂ w₃) :
    Advances w₁ w₃ where
  spec := h'.spec.trans h.spec
  epoch := h.epoch.trans h'.epoch
  settled he hs := by
    have := h.epoch
    have := h'.epoch
    exact h'.settled (by omega) (h.settled (by omega) hs)
  cancelKept hk := h'.cancelKept (h.cancelKept hk)

theorem Remembers.advance (h : Remembers g w) (ha : Advances w w') : Remembers g w' where
  epoch p task hg := (h.epoch p task hg).trans ha.epoch
  fresh := h.fresh
  settled p task hg hr he := by
    have := h.epoch p task hg
    have := ha.epoch
    exact ha.settled (by omega) (h.settled p task hg hr (by omega))

/-- Nobody gives a job back that is being cancelled. -/
theorem Remembers.ne_cancelling (h : Remembers g w) {jp : BatchJobPriority} (p : Processor)
    (hg : g.claim = some (p, jp)) (hr : w.batch.row.resumable = false)
    (hn : w.batch.row.NonTerminal) (he : w.batch.row.epoch = jp.epoch)
    (hx : jp.expectedStatus = some w.batch.row.status.status) :
    w.batch.row.status.status ≠ .cancelling := by
  cases hres : jp.resumable with
  | false =>
    rw [h.fresh p jp hg hres _ hx]
    decide
  | true => exact absurd (h.settled p jp hg hres he) (BatchRow.not_settled.2 ⟨hr, hn⟩)

/-- A claim remembers the row that it found. -/
theorem Remembers.of_start (h : g.start env w = some w') : Remembers g w' := by
  rcases Actor.start_cases h with ⟨p, task, hg, hcl⟩ | ⟨hg, -, -⟩
  · refine ⟨?_, ?_, ?_⟩ <;> intro p' task' hg' <;> cases hg.symm.trans hg'
    · exact hcl.epoch'.ge
    · exact hcl.expected
    · exact fun hr _ => .inl (hcl.resumable.trans (hcl.flag.symm.trans hr))
  · refine ⟨?_, ?_, ?_⟩ <;> intro p' task' hg' <;> cases hg.symm.trans hg'

/-- The protocol of cancellation: everybody keeps it. -/
def cancellation (lib : Stdlib) : Protocol (gateway lib) where
  inv _ := True
  holds := Remembers
  rely _ := Advances
  guar _ _ _ := Advances
  peer _ _ := True
  cond := FinalizesUncancelled
  rely_refl _ := Advances.refl
  rely_trans _ _ _ _ h h' := h.trans h'
  guar_holds _ _ _ _ _ _ hh h := hh.advance h
  guar_rely _ _ _ _ _ _ _ _ _ hh h := ⟨h, hh.advance h⟩

theorem advances_of_transition {b : BatchState} (hh : Remembers g w)
    (hc : FinalizesUncancelled w env g (.exec st)) (hcommit : w.commits env st = true)
    (hspec : b.row.specDecodes = w.batch.row.specDecodes)
    (ht : Transition g w.batch.row b.row st) : Advances w { w with batch := b } := by
  refine ⟨hspec, ht.epoch_le, fun _ => ht.settled,
    fun hk => ht.cancelKept hk (fun p _ _ => hh.ne_cancelling p) ?_⟩
  rintro x doc rfl hd hs
  exact hc doc hd hs hcommit

theorem advances_step {c : Call} {r : c.Resp} (hh : Remembers g w)
    (ha : g.conduct.allow s c) (hc : FinalizesUncancelled w env g c)
    (hp : w.perform env c = some (w', r)) : Advances w w' := by
  rcases World.batch_perform hp with hb | ⟨st, b, rfl, hcommit, hb, rfl⟩
  · refine ⟨?_, ?_, ?_, ?_⟩ <;> rw [hb]
    · exact fun _ h => h
    · exact id
  · exact advances_of_transition hh hc hcommit (Stmt.specDecodes_exec hb)
      (transition_of_allows ha hb)

theorem cancellation_starts (lib : Stdlib) : (cancellation lib).Starts fun _ _ _ => True := by
  intro env g w w' _ hstart
  have hadv : Advances w w' := by
    rcases Actor.start_cases hstart with ⟨p, task, -, hcl⟩ | ⟨-, rfl, -⟩
    · have := hcl.epoch'.trans hcl.epoch
      refine ⟨hcl.spec, by omega, fun he => by omega, fun hk => ?_⟩
      rwa [BatchRow.CancelKept, BatchRow.NonTerminal, hcl.status]
    · exact .refl w'
  have hh : Remembers g w' := .of_start hstart
  have hsafe : (cancellation lib).Triple g (Held.Copies {}) (g.code lib) fun _ _ => True := by
    refine (Protocol.triple_of_obeys (T := Held.Copies) ?_ ?_ (code_obeys lib g)).post
      fun _ _ _ _ _ => trivial
    · exact fun s w w' _ _ hr hs it hit => (hs it hit).trans hr.spec.symm
    · exact fun s w e c w₂ r _ hh hs ha hc hp => ⟨trivial, advances_step hh ha hc hp,
        answer_of_perform hs hp, copies_of_perform hs hp⟩
  exact ⟨trivial, hh, hsafe w' trivial hh (by simp [Held.Copies]), fun g' hh' =>
    ⟨trivial, trivial, hadv, hh'.advance hadv⟩⟩

theorem cancelKept_step {pool pool' : GatewayPool} {l : Label Env Actor}
    (hok : (cancellation lib).Ok (fun _ _ _ => True) pool)
    (hl : StepCond FinalizesUncancelled pool l) (hs : (gateway lib).step pool l = some pool')
    (hk : pool.world.batch.row.CancelKept) : pool'.world.batch.row.CancelKept := by
  rcases (gateway lib).step_cases hs with ⟨env, g, w', hstart⟩ | ⟨i, env, g, c, k, w', r, hi, hp⟩ |
    ⟨i, g, m, hi⟩
  · rcases Actor.start_cases hstart with ⟨p, task, -, hcl⟩ | ⟨-, rfl, -⟩
    · rwa [BatchRow.CancelKept, BatchRow.NonTerminal, hcl.status]
    · exact hk
  · exact (hok.call hi (hl g c k hi) hp).2.1.cancelKept hk
  · exact hk

/-- As long as no job is moved to finalizing over a cancellation, a committed cancellation is not
undone. -/
theorem cancel_not_undone (lib : Stdlib) (w : World) (row : BatchRow)
    {ls ls' : List (Label Env Actor)} {pool pool' : GatewayPool}
    (hc : Along (gateway lib).step (StepCond FinalizesUncancelled) (initial w row) (ls ++ ls'))
    (hp : exec (gateway lib).step (initial w row) ls = some pool)
    (hcancel : pool.world.batch.row.status.status = .cancelling)
    (hp' : exec (gateway lib).step pool ls' = some pool') :
    pool'.world.batch.row.status.status = .cancelling ∨
      (¬ pool'.world.batch.row.NonTerminal ∧ pool'.world.batch.row.status.status ≠ .completed) := by
  obtain ⟨hls, hls'⟩ := along_append hc hp
  have hok : (cancellation lib).Ok (fun _ _ _ => True) pool :=
    Protocol.ok_exec (cancellation_starts lib) (Protocol.ok_empty trivial) hls hp
  refine (along_invariant (I := fun q : GatewayPool =>
    (cancellation lib).Ok (fun _ _ _ => True) q ∧ q.world.batch.row.CancelKept)
    (fun q l q' h hl hs => ?_) hls' hp' ⟨hok, .inl hcancel⟩).2
  exact ⟨Protocol.ok_step (cancellation_starts lib) h.1 hl hs, cancelKept_step h.1 hl hs h.2⟩

/-- The only line of the batch is rejected, so its execution ends at once; before the job moves to
finalizing, the batch is cancelled. -/
def lateCancel : List (Label Env Actor) :=
  ingestionRun "x" ++ steps 0 7 ++ [.spawn {} (.cancel "batch_1")] ++ steps 1 4

/-- The job is finalized as if nothing had happened. -/
def finalization : List (Label Env Actor) :=
  [.run 0 {}, .run 0 { count := 1 }] ++ steps 0 10

theorem lateCancel_completed :
    ∃ pool ∈ exec (gateway .sample).step sampleInitial lateCancel,
      pool.world.batch.row.status.status = .cancelling ∧
      ∃ pool' ∈ exec (gateway .sample).step pool finalization,
        pool'.world.batch.row.status.status = .completed := by
  decide +kernel

/-- The batch is cancelled while its request is executed, and the job is told. -/
def timelyCancel : List (Label Env Actor) :=
  ingestionRun "m" ++ steps 0 4 ++ [.spawn {} (.cancel "batch_1")] ++ steps 1 4

def cancellationRun : List (Label Env Actor) :=
  [.run 1 {}, .run 0 { outcome := .error errCancelled }, .run 0 { count := 1 }] ++ steps 0 8

theorem timelyCancel_cancelled :
    ∃ pool ∈ exec (gateway .sample).step sampleInitial timelyCancel,
      pool.world.batch.row.status.status = .cancelling ∧
      ∃ pool' ∈ exec (gateway .sample).step pool cancellationRun,
        pool'.world.batch.row.status.status = .cancelling ∨
          (¬ pool'.world.batch.row.NonTerminal ∧
            pool'.world.batch.row.status.status ≠ .completed) := by
  obtain ⟨pool, hp, hcancel, pool', hp'⟩ :
      ∃ pool ∈ exec (gateway .sample).step sampleInitial timelyCancel,
        pool.world.batch.row.status.status = .cancelling ∧
        ∃ pool' ∈ exec (gateway .sample).step pool cancellationRun, True := by
    decide +kernel
  exact ⟨pool, hp, hcancel, pool', hp'.1,
    cancel_not_undone .sample _ sampleRow (by decide +kernel) hp hcancel hp'.1⟩

end BatchGateway
