import BatchGateway.Gateway.Ownership
import BatchGateway.Gateway.Pickup
import BatchGateway.Gateway.Transitions

/-! Cancel requests against the pickup of a fresh batch: when everybody has returned, the batch is
not stranded, as long as no cancellation was committed under the pickup's feet. -/
namespace BatchGateway

open Interleaving Prog

variable {lib : Stdlib} {w w' : World} {env : Env} {g g' : Actor} {s : Held} {st : Stmt}
  {p : Processor} {task : BatchJobPriority} {row row' : BatchRow}

/-- The actors of the race. -/
def Actor.inRace : Actor → Bool
  | poll .. | renewal .. | request .. | cancel _ => true
  | recovery .. | reconcile _ => false

/-- Cancel requests and pickups, with the work that a pickup starts. -/
def cancelRace (lib : Stdlib) : System World Env Actor Call Call.Resp (Except Err Unit) where
  perform env w c := w.perform env c
  start env w g := if g.inRace then g.start env w else none
  code g := g.code lib

/-- Database and event-channel calls succeed, and the processor stays alive. -/
def Calm (env : Env) : Call → Prop
  | .exec _ | .fetch .. | .fetchOwned | .committedStatus _ | .entryStatus .. | .findEntry ..
  | .listEntries .. | .ensureFileRecord _ | .eventChannel | .sendCancelEvent => env.fault = .none
  | .ask => env.Alive
  | .store .. | .retrieve _ | .delete _ | .deleteDir _ | .openStream _ | .writeStream _
  | .commitStream .. | .retrieveArtifact .. | .go _ => True

instance : (c : Call) → Decidable (Calm env c)
  | .exec _ | .fetch .. | .fetchOwned | .committedStatus _ | .entryStatus .. | .findEntry ..
  | .listEntries .. | .ensureFileRecord _ | .eventChannel | .sendCancelEvent =>
    inferInstanceAs (Decidable (env.fault = .none))
  | .ask => inferInstanceAs (Decidable env.Alive)
  | .store .. | .retrieve _ | .delete _ | .deleteDir _ | .openStream _ | .writeStream _
  | .commitStream .. | .retrieveArtifact .. | .go _ => isTrue trivial

/-- No cancellation was committed between a pickup's re-read and its activation or its failed
write. -/
def Uncaught (w : World) : Call → Prop
  | .exec (.activate _) => w.batch.row.status.status ≠ .cancelling
  | .exec (.dbUpdate x (some old)) => (∀ doc ∈ x.status, doc.status = .failed) →
      w.batch.row.status.status = .cancelling → w.batch.row.status = old
  | _ => True

instance (c : Call) : Decidable (Uncaught w c) := by
  unfold Uncaught
  split <;> infer_instance

/-! ### The protocol -/

/-- A batch that is neither resumable nor finished is waiting in the queue or owned, and it has no
entries. Background work starts only afterwards. -/
structure Queued (w : World) : Prop where
  id : w.batch.row.id ≠ ""
  status : ¬ w.batch.row.Settled → w.batch.row.status.status = .validating ∨
    (w.batch.row.status.status = .cancelling ∧ w.batch.row.processorID ≠ none)
  entries : ¬ w.batch.row.Settled → w.batch.entries.rows = []
  background : w.background ≠ [] → w.batch.row.Settled

/-- A pickup owns its batch until it is settled; what runs beside it finds it settled. -/
structure Partakes (g : Actor) (w : World) : Prop where
  inRace : g.inRace = true
  epoch : ∀ p task, g.claim = some (p, task) → task.epoch ≤ w.batch.row.epoch
  owner : ∀ p task, g.claim = some (p, task) → ¬ w.batch.row.Settled →
    w.batch.row.processorID = some p.processorID ∧ w.batch.row.epoch = task.epoch
  beside : g.claim = none → g.grant ≠ none → w.batch.row.Settled

/-- What any step does to the row. -/
structure Orderly (w w' : World) : Prop where
  id : w'.batch.row.id = w.batch.row.id
  spec : w'.batch.row.specDecodes = w.batch.row.specDecodes
  epoch : w.batch.row.epoch ≤ w'.batch.row.epoch
  settled : w.batch.row.Settled → w'.batch.row.Settled
  owned : ¬ w'.batch.row.Settled → w.batch.row.processorID ≠ none →
    SameOwner w.batch.row w'.batch.row

/-- What others do to an owned batch that is not settled: at most they cancel it. -/
def Untouched (w w' : World) : Prop :=
  ¬ w.batch.row.Settled → w.batch.row.processorID ≠ none → ¬ w'.batch.row.Settled ∧
    (w'.batch.row.status = w.batch.row.status ∨ w'.batch.row.status.status = .cancelling)

theorem Orderly.refl (w : World) : Orderly w w :=
  ⟨rfl, rfl, Int.le_refl _, fun h => h, fun _ _ => ⟨rfl, rfl⟩⟩

theorem Orderly.trans {w₁ w₂ w₃ : World} (h : Orderly w₁ w₂) (h' : Orderly w₂ w₃) :
    Orderly w₁ w₃ where
  id := h'.id.trans h.id
  spec := h'.spec.trans h.spec
  epoch := h.epoch.trans h'.epoch
  settled hs := h'.settled (h.settled hs)
  owned hns ho := by
    have hsame := h.owned (fun hs => hns (h'.settled hs)) ho
    have hsame' := h'.owned hns (by rw [hsame.owner]; exact ho)
    exact ⟨hsame'.owner.trans hsame.owner, hsame'.epoch.trans hsame.epoch⟩

theorem Untouched.refl (w : World) : Untouched w w := fun hns _ => ⟨hns, .inl rfl⟩

theorem Untouched.trans {w₁ w₂ w₃ : World} (ho : Orderly w₁ w₂) (h : Untouched w₁ w₂)
    (h' : Untouched w₂ w₃) : Untouched w₁ w₃ := by
  intro hns howned
  obtain ⟨hns₂, hstatus⟩ := h hns howned
  obtain ⟨hns₃, hstatus'⟩ := h' hns₂ (by rw [(ho.owned hns₂ howned).owner]; exact howned)
  refine ⟨hns₃, ?_⟩
  rcases hstatus' with hsame | hc
  · rw [hsame]
    exact hstatus
  · exact .inr hc

theorem Partakes.step (h : Partakes g w) (ho : Orderly w w') : Partakes g w' where
  inRace := h.inRace
  epoch p task hg := (h.epoch p task hg).trans ho.epoch
  owner p task hg hns := by
    obtain ⟨howner, hepoch⟩ := h.owner p task hg fun hs => hns (ho.settled hs)
    have hsame := ho.owned hns (by simp [howner])
    exact ⟨hsame.owner.trans howner, hsame.epoch.trans hepoch⟩
  beside hg hgr := ho.settled (h.beside hg hgr)

/-- What a call of a thread guarantees. -/
structure Polite (g : Actor) (w w' : World) : Prop where
  orderly : Orderly w w'
  untouched : g.claim = none → Untouched w w'
  owner : ¬ w'.batch.row.Settled → w'.batch.row.processorID = w.batch.row.processorID

theorem Polite.refl : Polite g w w := ⟨.refl w, fun _ => .refl w, fun _ => rfl⟩

theorem untouched_of_rival (hr : Rival g g') (hh : Partakes g w) (hh' : Partakes g' w)
    (hg : g.claim ≠ none) (hg' : g'.claim ≠ none) : Untouched w w' := by
  obtain ⟨⟨p, task⟩, hg⟩ := Option.ne_none_iff_exists'.1 hg
  obtain ⟨⟨p', task'⟩, hg'⟩ := Option.ne_none_iff_exists'.1 hg'
  intro hns _
  have he := (hh.owner p task hg hns).2
  have he' := (hh'.owner p' task' hg' hns).2
  exact absurd (he.symm.trans he') (hr p task p' task' hg hg')

def race (lib : Stdlib) : Protocol (cancelRace lib) where
  inv := Queued
  holds := Partakes
  rely g w w' := Orderly w w' ∧ (g.claim ≠ none → Untouched w w')
  guar g _ _ := Polite g
  peer := Rival
  cond w env _ c := Calm env c ∧ Uncaught w c
  rely_refl _ w := ⟨.refl w, fun _ => .refl w⟩
  rely_trans _ _ _ _ h h' := ⟨h.1.trans h'.1, fun hg => (h.2 hg).trans h.1 (h'.2 hg)⟩
  guar_holds _ _ _ _ _ _ hh h := hh.step h.orderly
  guar_rely g g' _ _ _ _ _ hr hh hh' h := by
    refine ⟨⟨h.orderly, fun hg' => ?_⟩, hh'.step h.orderly⟩
    by_cases hg : g.claim = none
    · exact h.untouched hg
    · exact untouched_of_rival hr hh hh' hg hg'

/-! ### Steps -/

section

variable (h : Transition g row row' st) (henq : ∀ jp, st = .pqEnqueue jp → row.Settled)
  (hns : ¬ row'.Settled)
include h henq hns

theorem Transition.sameOwner :
    SameOwner row row' := by
  cases h with
  | kept _ _ hsame => exact hsame
  | cancelling _ _ _ hsame => exact hsame
  | enqueued hr hn => exact absurd (henq _ rfl) (BatchRow.not_settled.2 ⟨hr, hn⟩)
  | deleted _ _ _ _ hs =>
    refine absurd (.inr ?_) hns
    rw [BatchRow.NonTerminal, hs]
    decide
  | requeued _ _ hr => exact absurd (.inl hr) hns
  | activated _ _ _ hr => exact absurd (.inl hr) hns
  | finalizing _ _ _ hr => exact absurd (.inl hr) hns
  | finalized _ hf => exact absurd (.inr hf) hns
  | ended hf => exact absurd (.inr hf) hns

/-- A batch that a transition leaves unsettled keeps its status or is cancelled. -/
theorem Transition.unsettled :
    row'.status.status = row.status.status ∨
      (row'.status.status = .cancelling ∧ ∃ x old, st = .dbUpdate x (some old)) := by
  cases h with
  | kept hs => exact .inl hs
  | cancelling _ hs => exact .inr ⟨hs, _, _, rfl⟩
  | enqueued hr hn => exact absurd (henq _ rfl) (BatchRow.not_settled.2 ⟨hr, hn⟩)
  | deleted _ _ _ _ hs =>
    refine absurd (.inr ?_) hns
    rw [BatchRow.NonTerminal, hs]
    decide
  | requeued hs => exact .inl hs
  | activated _ _ _ hr => exact absurd (.inl hr) hns
  | finalizing _ _ _ hr => exact absurd (.inl hr) hns
  | finalized _ hf => exact absurd (.inr hf) hns
  | ended hf => exact absurd (.inr hf) hns

end

variable {b : BatchState}

/-- A cancel request touches an owned batch only by cancelling it. -/
theorem untouched_of_cancel {id : String} (ha : (Actor.cancel id).Allows s st)
    (hb : st.exec env.now w.batch = .ok (some b)) : Untouched w { w with batch := b } := by
  intro hns howned
  rcases ha with rfl | ⟨x, old, rfl, -, -, doc, hd, hs⟩
  · exact absurd (Stmt.of_matched hb).1.2.1 howned
  · obtain ⟨-, -, hdoc, hres, -, -⟩ := dbUpdate_row hb hd
    obtain ⟨hr, -⟩ := BatchRow.not_settled.1 hns
    have hstatus : b.row.status.status = .cancelling := by rw [hdoc, hs]
    refine ⟨BatchRow.not_settled.2 ⟨hres.trans hr, ?_⟩, .inr hstatus⟩
    dsimp only
    rw [BatchRow.NonTerminal, hstatus]
    rfl

theorem entries_of_exec (hb : st.exec env.now w.batch = .ok (some b))
    (he : w.batch.entries.rows = []) (hns : ¬ b.row.Settled) : b.entries.rows = [] := by
  rcases Stmt.rows_exec hb with ⟨a, rfl, -, -⟩ | ⟨f, hf, -⟩
  · obtain ⟨-, hrow, -⟩ := activateStmt_some hb
    rw [hrow] at hns
    exact absurd (.inl rfl) hns
  · rw [hf, he, List.map_nil]

/-- One committed statement of the race. -/
theorem race_exec (hw : Queued w) (hh : Partakes g w) (ha : g.Allows s st)
    (hb : st.exec env.now w.batch = .ok (some b))
    (henq : ∀ jp, st = .pqEnqueue jp → w.batch.row.Settled)
    (hown : ∀ x old, st = .dbUpdate x (some old) → ¬ w.batch.row.Settled →
      w.batch.row.processorID ≠ none) :
    Queued { w with batch := b } ∧ Polite g w { w with batch := b } := by
  have ht := transition_of_allows ha hb
  have hold : ¬ b.row.Settled → ¬ w.batch.row.Settled := fun hns hs => hns (ht.settled hs)
  refine ⟨⟨?_, fun hns => ?_, fun hns => ?_, fun hne => ?_⟩, ⟨⟨?_, ?_, ?_, ht.settled, ?_⟩, ?_, ?_⟩⟩
  · rw [Stmt.id_exec hb]
    exact hw.id
  · have howner := (ht.sameOwner henq hns).owner
    dsimp only
    rcases ht.unsettled henq hns with hs | ⟨hs, x, old, hst⟩
    · rw [hs, howner]
      exact hw.status (hold hns)
    · exact .inr ⟨hs, by rw [howner]; exact hown x old hst (hold hns)⟩
  · exact entries_of_exec hb (hw.entries (hold hns)) hns
  · exact ht.settled (hw.background hne)
  · exact Stmt.id_exec hb
  · exact Stmt.specDecodes_exec hb
  · exact ht.epoch_le
  · exact fun hns _ => ht.sameOwner henq hns
  · intro hg
    by_cases hgr : g.grant = none
    · cases g with
      | cancel id => exact untouched_of_cancel ha hb
      | reconcile r => cases hh.inRace
      | _ => cases hgr
    · exact fun hns => absurd (hh.beside hg hgr) hns
  · exact fun hns => (ht.sameOwner henq hns).owner

variable {c : Call} {r : c.Resp}

/-- A call that leaves the batch alone. -/
theorem race_frame (hw : Queued w) (hb : w'.batch = w.batch)
    (hgo : ∀ b, c = .go b → w.batch.row.Settled) (hp : w.perform env c = some (w', r)) :
    Queued w' ∧ Polite g w w' := by
  refine ⟨⟨?_, ?_, ?_, fun hne => ?_⟩, ⟨⟨?_, ?_, ?_, ?_, ?_⟩, fun _ => ?_, ?_⟩⟩ <;>
    try simp only [Untouched, hb]
  · exact hw.id
  · exact hw.status
  · exact hw.entries
  · rcases (World.frame_perform hp).2 with hback | ⟨b, hc, -, -⟩
    · exact hw.background (by rw [← hback]; exact hne)
    · exact hgo b hc
  · exact Int.le_refl _
  · exact fun h => h
  · exact fun _ _ => ⟨rfl, rfl⟩
  · exact fun hns _ => ⟨hns, .inl trivial⟩
  · exact fun _ => trivial

/-- A thread of a settled batch may do whatever its discipline allows. -/
theorem race_settled (hw : Queued w) (hh : Partakes g w) (hs : w.batch.row.Settled)
    (ha : g.conduct.allow s c) (hp : w.perform env c = some (w', r)) :
    Queued w' ∧ Polite g w w' := by
  rcases World.batch_perform hp with hb | ⟨st, b, rfl, -, hb, rfl⟩
  · exact race_frame hw hb (fun _ _ => hs) hp
  · exact race_exec hw hh ha hb (fun _ _ => hs) fun _ _ _ hns => absurd hs hns

/-! ### The pickup -/

/-- The monitor of a pickup is right about the batch. -/
structure OnTrack (p : Processor) (task : BatchJobPriority) (s : Progress) (w : World) : Prop where
  id : w.batch.row.id = task.id
  settled : s.settled = true → w.batch.row.Settled
  unsettled : s.settled = false → ¬ w.batch.row.Settled ∧ w.batch.row.processorID ≠ none
  item : s.settled = false → ∀ it ∈ s.item, PickedUp p task it ∧
    (it.status = some w.batch.row.status ∨ w.batch.row.status.status = .cancelling)

theorem stable_onTrack {s : Progress} :
    (race lib).Stable (.poll p task) (OnTrack p task s) := by
  intro w w' _ _ hr h
  obtain ⟨ho, hu⟩ := hr
  refine ⟨ho.id.trans h.id, fun hs => ho.settled (h.settled hs), fun hs => ?_, fun hs it hit => ?_⟩
  · obtain ⟨hns, howned⟩ := h.unsettled hs
    obtain ⟨hns', -⟩ := hu (by simp [Actor.claim]) hns howned
    exact ⟨hns', by rw [(ho.owned hns' howned).owner]; exact howned⟩
  · obtain ⟨hns, howned⟩ := h.unsettled hs
    obtain ⟨-, hstatus⟩ := hu (by simp [Actor.claim]) hns howned
    obtain ⟨hpicked, hit⟩ := h.item hs it hit
    refine ⟨hpicked, ?_⟩
    rcases hstatus with hsame | hc
    · rw [hsame]
      exact hit
    · exact .inr hc

theorem OnTrack.of_batch {s : Progress} (h : OnTrack p task s w) (hb : w'.batch = w.batch) :
    OnTrack p task s w' := by
  obtain ⟨h₁, h₂, h₃, h₄⟩ := h
  constructor <;> rw [hb] <;> assumption

/-- An end of the job matches the row that the pickup read. -/
theorem statusUpdate_matches {s : Progress} {x : BatchItem} {expected : Option BatchStatusInfo}
    (ht : OnTrack p task s w) (hs : s.settled = false) (hh : Partakes (.poll p task) w)
    (ha : s.Permits (.dbUpdate x expected)) (hc : Uncaught w (.exec (.dbUpdate x expected))) :
    ∃ b, (Stmt.dbUpdate x expected).exec env.now w.batch = .ok (some b) ∧ b.row.Settled := by
  obtain ⟨it, hit, doc, rfl, hterm, hexp⟩ := ha
  obtain ⟨hpicked, hread⟩ := ht.item hs it hit
  obtain ⟨-, hepoch⟩ := hh.owner p task rfl (ht.unsettled hs).1
  have hdoc : ∀ old ∈ expected, w.batch.row.status = old := by
    rintro old hold
    rcases hexp with rfl | ⟨rfl, hfailed⟩
    · cases hold
    · rcases hread with hread | hcancel
      · exact Option.some.inj (hread.symm.trans hold)
      · rw [hold] at hc
        refine hc (fun d hd => ?_) hcancel
        cases hd
        exact hfailed
  have hguard : w.batch.row.id = (it.statusUpdate doc).id ∧
      (∀ old ∈ expected, w.batch.row.status = old) ∧
      ((0 < (it.statusUpdate doc).epoch ∨ (it.statusUpdate doc).bumpEpoch = true) →
        w.batch.row.epoch = (it.statusUpdate doc).epoch) ∧
      (∀ flag ∈ (it.statusUpdate doc).expectedResumable, w.batch.row.resumable = flag) := by
    refine ⟨ht.id.trans hpicked.id.symm, hdoc, fun _ => hepoch.trans hpicked.epoch.symm, ?_⟩
    intro flag hflag
    rw [BatchItem.statusUpdate, hpicked.flag] at hflag
    cases hflag
  refine ⟨_, by rw [Stmt.exec, dbUpdateStmt, if_pos hguard], .inr ?_⟩
  simp [BatchRow.NonTerminal, BatchItem.statusUpdate, hterm]

/-- The activation of a fresh batch matches, unless its entries collide. -/
theorem activate_matches (now : Time) {s : Progress} {a : ResumableActivation} (hw : Queued w)
    (ht : OnTrack p task s w) (hs : s.settled = false) (hh : Partakes (.poll p task) w)
    (ha : s.Permits (.activate a)) (hc : Uncaught w (.exec (.activate a))) :
    (∃ b, (Stmt.activate a).exec now w.batch = .ok (some b) ∧ b.row.Settled) ∨
      ∃ e, (Stmt.activate a).exec now w.batch = .error e := by
  obtain ⟨it, hit, hid, howner, hepoch⟩ := ha
  obtain ⟨hpicked, -⟩ := ht.item hs it hit
  obtain ⟨hns, -⟩ := ht.unsettled hs
  obtain ⟨howner', hepoch'⟩ := hh.owner p task rfl hns
  have hguard : w.batch.row.id = a.batchID ∧ w.batch.row.processorID = some a.processorID ∧
      w.batch.row.epoch = a.epoch ∧ w.batch.row.status.status = .validating ∧
      w.batch.row.resumable = false ∧ w.batch.entries.rows = [] := by
    refine ⟨?_, ?_, ?_, ?_, (BatchRow.not_settled.1 hns).1, hw.entries hns⟩
    · rw [hid, hpicked.id, ht.id]
    · rw [howner, hpicked.owner, howner']
    · rw [hepoch, hpicked.epoch, hepoch']
    · exact (hw.status hns).resolve_right fun h => hc h.1
  rw [Stmt.exec, activateStmt, if_pos hguard]
  split
  · split
    · exact .inl ⟨_, rfl, .inl rfl⟩
    · exact .inr ⟨_, rfl⟩
  · exact .inr ⟨_, rfl⟩

variable {hl : Held}

/-- One statement of a pickup before its job is settled. -/
theorem pickup_exec {s : Progress} {r : Except Err Bool} (hw : Queued w)
    (hh : Partakes (.poll p task) w) (ht : OnTrack p task s w) (hs : s.settled = false)
    (ha : (Actor.poll p task).Allows hl st) (ha' : s.Permits st)
    (hc : Calm env (.exec st) ∧ Uncaught w (.exec st)) (hp : w.execStmt env st = (w', r)) :
    Queued w' ∧ Polite (.poll p task) w w' ∧ Progress.Answers p task (.exec st) r ∧
      OnTrack p task (s.next (.exec st) r) w' := by
  have hcommit : ∀ b, st.exec env.now w.batch = .ok (some b) → b.row.Settled →
      (w' = { w with batch := b } ∧ r = .ok true) ∧ Queued w' ∧ Polite (.poll p task) w w' ∧
        OnTrack p task (s.next (.exec st) r) w' := by
    intro b hb hset
    cases (World.execStmt_calm hc.1 hb).symm.trans hp
    obtain ⟨hw', hpol⟩ := race_exec hw hh ha hb (fun jp hst => by subst hst; exact ha'.elim)
      fun _ _ _ _ => (ht.unsettled hs).2
    exact ⟨⟨rfl, rfl⟩, hw', hpol, ⟨hpol.orderly.id.trans ht.id, fun _ => hset,
      fun h => (by cases h), fun h => (by cases h)⟩⟩
  cases st with
  | dbUpdate x expected =>
    obtain ⟨b, hb, hset⟩ := statusUpdate_matches ht hs hh ha' hc.2
    obtain ⟨⟨-, hr⟩, hw', hpol, ht'⟩ := hcommit b hb hset
    exact ⟨hw', hpol, hr, ht'⟩
  | activate a =>
    rcases activate_matches env.now hw ht hs hh ha' hc.2 with ⟨b, hb, hset⟩ | ⟨e, he⟩
    · obtain ⟨⟨-, hr⟩, hw', hpol, ht'⟩ := hcommit b hb hset
      exact ⟨hw', hpol, .inl hr, ht'⟩
    · have hf : env.fault ≠ .before := by
        rw [show env.fault = .none from hc.1]
        nofun
      simp only [World.execStmt, if_neg hf, he] at hp
      cases hp
      exact ⟨hw, .refl, .inr ⟨e, rfl, by simp [Err.isConflict, Stmt.kind_of_exec_error he]⟩, ht⟩
  | _ => exact ha'.elim

/-- The row as the pickup's re-read returns it. -/
theorem pickedUp_toItem {s : Progress} (hw : Queued w) (hh : Partakes (.poll p task) w)
    (ht : OnTrack p task s w) (hs : s.settled = false) : PickedUp p task w.batch.row.toItem := by
  obtain ⟨hns, -⟩ := ht.unsettled hs
  obtain ⟨howner, hepoch⟩ := hh.owner p task rfl hns
  refine ⟨ht.id, hepoch, by simp [BatchRow.toItem, howner], rfl, _, rfl, ?_⟩
  exact (hw.status hns).imp_right And.left

/-- One call of a pickup. -/
theorem pickup_step {s : Progress} (hw : Queued w) (hh : Partakes (.poll p task) w)
    (ht : OnTrack p task s w) (ha : (Actor.poll p task).conduct.allow hl c)
    (ha' : (pickup p task).allow s c) (hc : Calm env c ∧ Uncaught w c)
    (hp : w.perform env c = some (w', r)) :
    Queued w' ∧ Polite (.poll p task) w w' ∧ (pickup p task).answer s c r ∧
      OnTrack p task (s.next c r) w' := by
  cases hs : s.settled with
  | true =>
    obtain ⟨hw', hpol⟩ := race_settled hw hh (ht.settled hs) ha hp
    have hset := Progress.next_settled (r := r) hs
    refine ⟨hw', hpol, fun h => ?_, hpol.orderly.id.trans ht.id,
      fun _ => hpol.orderly.settled (ht.settled hs), fun h => ?_, fun h => ?_⟩
    · rw [hs] at h
      cases h
    · rw [hset] at h
      cases h
    · rw [hset] at h
      cases h
  | false =>
    have ha' : s.Allows c := ha'.resolve_left (by simp [hs])
    cases c with
    | exec st =>
      obtain ⟨hw', hpol, hans, ht'⟩ := pickup_exec hw hh ht hs ha ha' hc (Option.some.inj hp)
      exact ⟨hw', hpol, fun _ => hans, ht'⟩
    | fetch site id =>
      cases site with
      | polling =>
        obtain ⟨hw', hpol⟩ := race_frame (g := .poll p task) hw
          (by rw [World.read_perform rfl hp]) (by simp) hp
        cases hp
        have hf : env.fault = .none := hc.1
        have hpicked := pickedUp_toItem hw hh ht hs
        refine ⟨hw', hpol, fun _ hid => ?_, ?_⟩
        · refine ⟨w.batch.row.toItem, ?_, hpicked⟩
          change World.read env (if w.batch.row.id = id then _ else none) = _
          simp [World.read, hf, hid, ht.id]
        · simp only [World.read, hf, if_true]
          split
          · refine ⟨ht.id, ht.settled, ht.unsettled, fun _ it hit => ?_⟩
            cases hit
            exact ⟨hpicked, .inl rfl⟩
          · exact ht
      | _ => exact ha'.elim
    | ask =>
      obtain ⟨hw', hpol⟩ := race_frame (g := .poll p task) hw
        (by rw [World.read_perform rfl hp]) (by simp) hp
      have hw := World.read_perform rfl hp
      subst hw
      simp only [World.perform, Option.ite_none_right_eq_some, Option.some.injEq] at hp
      cases hp.2
      exact ⟨hw', hpol, fun _ => hc.1, ht⟩
    | eventChannel =>
      obtain ⟨hw', hpol⟩ := race_frame (g := .poll p task) hw
        (by rw [World.read_perform rfl hp]) (by simp) hp
      cases hp
      have hf : env.fault = .none := hc.1
      refine ⟨hw', hpol, fun _ => ?_, ht⟩
      change World.read env () = .ok ()
      simp [World.read, hf]
    | retrieve key =>
      have hb : w'.batch = w.batch := by rw [World.read_perform rfl hp]
      obtain ⟨hw', hpol⟩ := race_frame (g := .poll p task) hw hb (by simp) hp
      exact ⟨hw', hpol, fun _ => trivial, ht.of_batch hb⟩
    | store key data t =>
      have hb : w'.batch = w.batch := by
        rcases World.batch_perform hp with hb | ⟨_, _, hst, -⟩
        · exact hb
        · cases hst
      obtain ⟨hw', hpol⟩ := race_frame (g := .poll p task) hw hb (by simp) hp
      refine ⟨hw', hpol, fun _ e he => ?_, ht.of_batch hb⟩
      subst he
      exact World.storeObject_error (Option.some.inj hp)
    | _ => exact ha'.elim

/-! ### The cancel request -/

/-- What a cancel request has found out: that the batch exists, and that it left the queue. -/
structure Withdrawal where
  found : Bool := false
  claimed : Bool := false

def Withdrawal.next (id : String) (s : Withdrawal) : (c : Call) → c.Resp → Withdrawal
  | .fetch _ id' => fun r => match r with
    | .ok (some _) => { s with found := s.found || id' = id }
    | _ => s
  | .exec (.pqDelete _) => fun r => match r with
    | .ok false => { s with claimed := s.claimed || s.found }
    | _ => s
  | _ => fun _ => s

/-- The status is written only after the batch left the queue. -/
def withdrawal (id : String) : Monitor Withdrawal Call Call.Resp where
  allow s
    | .exec (.dbUpdate ..) => s.claimed = true
    | _ => True
  answer _ _ _ := True
  next := Withdrawal.next id

theorem obeys_claimed {α : Type} {id : String} {s : Withdrawal} {m : Task α}
    (h : s.claimed = true) : m.Obeys (withdrawal id) (fun _ _ => True) s := by
  induction m generalizing s with
  | ret a => trivial
  | call c k ih =>
    refine ⟨?_, fun r _ => ih r ?_⟩
    · cases c with
      | exec st => cases st <;> first | exact h | trivial
      | _ => trivial
    · cases c with
      | exec st =>
        cases st with
        | pqDelete id' =>
          simp only [withdrawal, Withdrawal.next]
          split
          · simp [h]
          · exact h
        | _ => exact h
      | fetch site id' =>
        simp only [withdrawal, Withdrawal.next]
        split <;> exact h
      | _ => exact h

theorem cancelBatch_withdraws (id : String) :
    (cancelBatch id).Obeys (withdrawal id) (fun _ _ => True) {} := by
  refine ⟨trivial, ?_⟩
  rintro (_ | _ | item) -
  · exact .ret trivial
  · exact .ret trivial
  · dsimp only [Prog.bind]
    split
    · exact .ret trivial
    · exact .ret trivial
    · split
      · exact .ret trivial
      · split
        · exact .ret trivial
        · split
          · exact ⟨trivial, fun r _ => by cases r <;> exact .ret trivial⟩
          · refine ⟨trivial, fun r _ => ?_⟩
            cases r with
            | error e => exact .ret trivial
            | ok n =>
              cases n with
              | true =>
                refine ⟨trivial, ?_⟩
                rintro (_ | _ | _) - <;> exact .ret trivial
              | false => exact obeys_claimed (by simp [withdrawal, Withdrawal.next])

/-- The monitor of a cancel request is right about the batch. -/
structure Informed (id : String) (s : Withdrawal) (w : World) : Prop where
  found : s.found = true → w.batch.row.id = id
  claimed : s.claimed = true → w.batch.row.Settled ∨ w.batch.row.processorID ≠ none

theorem Informed.step {id : String} {s : Withdrawal} (h : Informed id s w) (ho : Orderly w w') :
    Informed id s w' := by
  refine ⟨fun hf => ho.id.trans (h.found hf), fun hc => ?_⟩
  by_cases hs : w'.batch.row.Settled
  · exact .inl hs
  · have howned := (h.claimed hc).resolve_left fun hs' => hs (ho.settled hs')
    exact .inr (by rw [(ho.owned hs howned).owner]; exact howned)

/-- A batch that the queue no longer holds is settled or owned. -/
theorem claimed_of_unmatched {id : String} (hw : Queued w) (hid : w.batch.row.id = id)
    (h : (Stmt.pqDelete id).exec env.now w.batch = .ok none) :
    w.batch.row.Settled ∨ w.batch.row.processorID ≠ none := by
  by_contra hno
  obtain ⟨hns, howner⟩ := not_or.1 hno
  have howner : w.batch.row.processorID = none := not_not.1 howner
  have hv := (hw.status hns).resolve_right fun hc => hc.2 howner
  simp only [Stmt.exec, Except.ok.injEq, pqDeleteStmt, ite_eq_right_iff, reduceCtorEq,
    imp_false] at h
  exact h ⟨hid, howner, (BatchRow.not_settled.1 hns).1, hv⟩

theorem informed_next {id : String} {s : Withdrawal} (hw : Queued w) (ht : Informed id s w)
    (ha : (Actor.cancel id).conduct.allow hl c) (hp : w.perform env c = some (w', r))
    (ho : Orderly w w') : Informed id (s.next id c r) w' := by
  have ht' := ht.step ho
  cases c with
  | fetch site id' =>
    obtain rfl : w' = w := World.read_perform rfl hp
    have hr : World.read env (if w'.batch.row.id = id' then some w'.batch.row.toItem else none) = r :=
      (Prod.mk.inj (Option.some.inj hp)).2
    rcases r with e | _ | item
    · exact ht
    · exact ht
    · refine ⟨fun hf => ?_, ht.claimed⟩
      simp only [Withdrawal.next, Bool.or_eq_true, decide_eq_true_eq] at hf
      rcases hf with hf | rfl
      · exact ht.found hf
      · by_contra hne
        simp only [World.read, if_neg hne] at hr
        split at hr <;> cases hr
  | exec st =>
    cases st with
    | pqDelete id' =>
      simp only [Withdrawal.next]
      split
      · obtain ⟨rfl, hnone⟩ := World.execStmt_unmatched (Option.some.inj hp)
        refine ⟨ht.found, fun hc => ?_⟩
        simp only [Bool.or_eq_true] at hc
        rcases hc with hc | hf
        · exact ht.claimed hc
        · rcases ha with heq | ⟨_, _, heq, -⟩ <;> cases heq
          exact claimed_of_unmatched hw (ht.found hf) hnone
      · exact ht'
    | _ => exact ht'
  | _ => exact ht'

/-- One call of a cancel request. -/
theorem cancel_step {id : String} {s : Withdrawal} (hw : Queued w) (hh : Partakes (.cancel id) w)
    (ht : Informed id s w) (ha : (Actor.cancel id).conduct.allow hl c)
    (ha' : (withdrawal id).allow s c) (hp : w.perform env c = some (w', r)) :
    Queued w' ∧ Polite (.cancel id) w w' ∧ Informed id (s.next id c r) w' := by
  have hstep : Queued w' ∧ Polite (.cancel id) w w' := by
    rcases World.batch_perform hp with hb | ⟨st, b, rfl, -, hb, rfl⟩
    · refine race_frame hw hb ?_ hp
      rintro b rfl
      exact ha.elim
    · refine race_exec (s := hl) hw hh ha hb ?_ ?_
      · rintro jp rfl
        rcases ha with heq | ⟨_, _, heq, -⟩ <;> cases heq
      · rintro x old rfl hns
        exact (ht.claimed ha').resolve_left hns
  exact ⟨hstep.1, hstep.2, informed_next hw ht ha hp hstep.2.orderly⟩

/-! ### Runs -/

/-- A pickup that has returned left a settled batch. -/
def Left (g : Actor) (_ : Except Err Unit) (w : World) : Prop :=
  g.claim ≠ none → w.batch.row.Settled

theorem copies_start : Held.Copies {} w := by
  rintro it ⟨⟩

theorem stable_copies : (race lib).Stable g hl.Copies :=
  fun _ _ _ _ hr h it hit => (h it hit).trans hr.1.spec.symm

theorem safe_settled (hw : Queued w) (hh : Partakes g w) (hs : w.batch.row.Settled) :
    (race lib).Safe g (Left g) (g.code lib) w := by
  have htriple : (race lib).Triple g (fun w => Held.Copies {} w ∧ w.batch.row.Settled) (g.code lib)
      fun _ w => ∃ hl : Held, (hl.Copies w ∧ w.batch.row.Settled) ∧ True := by
    refine Protocol.triple_of_obeys (T := fun (hl : Held) w => hl.Copies w ∧ w.batch.row.Settled)
      ?_ ?_ (code_obeys lib g)
    · exact fun hl w w' hi hh hr h => ⟨stable_copies w w' hi hh hr h.1, hr.1.settled h.2⟩
    · intro hl w e c w₂ r hi hh ht ha _ hp
      obtain ⟨hi', hpol⟩ := race_settled hi hh ht.2 ha hp
      exact ⟨hi', hpol, answer_of_perform ht.1 hp, copies_of_perform ht.1 hp,
        hpol.orderly.settled ht.2⟩
  refine (htriple.post fun _ _ _ _ h _ => ?_) w hw hh ⟨copies_start, hs⟩
  obtain ⟨_, h, -⟩ := h
  exact h.2

theorem safe_pickup (hw : Queued w) (hh : Partakes (.poll p task) w)
    (ht : OnTrack p task {} w) (hres : task.resumable = false) :
    (race lib).Safe (.poll p task) (Left (.poll p task)) (pollJob lib p task) w := by
  have hid : task.id ≠ "" := by
    rw [← ht.id]
    exact hw.id
  have hobeys := (code_obeys lib (.poll p task)).prod (pollJob_settles lib p hres hid)
  have htriple : (race lib).Triple (.poll p task)
      (fun w => Held.Copies {} w ∧ OnTrack p task {} w) (pollJob lib p task) fun _ w =>
        ∃ t : Held × Progress, (t.1.Copies w ∧ OnTrack p task t.2 w) ∧ True ∧ t.2.settled = true := by
    refine Protocol.triple_of_obeys
      (T := fun (t : Held × Progress) w => t.1.Copies w ∧ OnTrack p task t.2 w) ?_ ?_ hobeys
    · exact fun t w w' hi hh hr h =>
        ⟨stable_copies w w' hi hh hr h.1, stable_onTrack w w' hi hh hr h.2⟩
    · intro t w e c w₂ r hi hh ht ha hc hp
      obtain ⟨hi', hpol, hans, ht'⟩ := pickup_step hi hh ht.2 ha.1 ha.2 hc hp
      exact ⟨hi', hpol, ⟨answer_of_perform ht.1 hp, hans⟩,
        copies_of_perform (g := .poll p task) ht.1 hp, ht'⟩
  refine (htriple.post fun _ _ _ _ h _ => ?_) w hw hh ⟨copies_start, ht⟩
  obtain ⟨_, ⟨-, ht⟩, -, hs⟩ := h
  exact ht.settled hs

theorem safe_cancel {id : String} (hw : Queued w) (hh : Partakes (.cancel id) w) :
    (race lib).Safe (.cancel id) (Left (.cancel id)) (cancelBatch id) w := by
  have hobeys := (code_obeys lib (.cancel id)).prod (cancelBatch_withdraws id)
  have htriple : (race lib).Triple (.cancel id)
      (fun w => Held.Copies {} w ∧ Informed id {} w) (cancelBatch id) fun _ w =>
        ∃ t : Held × Withdrawal, (t.1.Copies w ∧ Informed id t.2 w) ∧ True ∧ True := by
    refine Protocol.triple_of_obeys
      (T := fun (t : Held × Withdrawal) w => t.1.Copies w ∧ Informed id t.2 w) ?_ ?_ hobeys
    · exact fun t w w' hi hh hr h => ⟨stable_copies w w' hi hh hr h.1, h.2.step hr.1⟩
    · intro t w e c w₂ r hi hh ht ha _ hp
      obtain ⟨hi', hpol, ht'⟩ := cancel_step hi hh ht.2 ha.1 ha.2 hp
      exact ⟨hi', hpol, ⟨answer_of_perform ht.1 hp, trivial⟩,
        copies_of_perform (g := .cancel id) ht.1 hp, ht'⟩
  exact (htriple.post fun _ _ _ _ _ hg => absurd rfl hg) w hw hh
    ⟨copies_start, by simp, by simp⟩

theorem unowned_of_poll (h : (Actor.poll p task).start env w = some w') :
    w.batch.row.processorID = none := by
  simp only [Actor.start] at h
  split_ifs at h
  split at h
  · cases h
  next hb => exact (of_guarded hb).1.1

theorem Actor.Claimed.settled_iff (h : Actor.Claimed p task w w') :
    w'.batch.row.Settled ↔ w.batch.row.Settled := by
  simp only [BatchRow.Settled, BatchRow.NonTerminal, h.status, h.resumable]

/-- What the claim of an unowned batch looks like to the others. -/
theorem orderly_of_claimed (hcl : Actor.Claimed p task w w')
    (howner : w.batch.row.processorID = none) : Orderly w w' where
  id := hcl.id.1
  spec := hcl.spec
  epoch := by
    have := hcl.epoch'.trans hcl.epoch
    omega
  settled := hcl.settled_iff.2
  owned _ h := absurd howner h

theorem queued_of_claimed (hw : Queued w) (hcl : Actor.Claimed p task w w') : Queued w' where
  id := by
    rw [hcl.id.1]
    exact hw.id
  status hns := by
    rw [hcl.status, hcl.owner]
    exact (hw.status (mt hcl.settled_iff.2 hns)).imp_right fun h => ⟨h.1, nofun⟩
  entries hns := by
    rw [hcl.entries]
    exact hw.entries (mt hcl.settled_iff.2 hns)
  background hne := by
    rw [hcl.background] at hne
    exact hcl.settled_iff.2 (hw.background hne)

theorem race_starts_poll (hw : Queued w) (hstart : (Actor.poll p task).start env w = some w')
    (hcl : Actor.Claimed p task w w') :
    Queued w' ∧ Partakes (.poll p task) w' ∧
      (race lib).Safe (.poll p task) (Left (.poll p task)) (pollJob lib p task) w' ∧
      ∀ g', Partakes g' w → Rival (.poll p task) g' ∧ Rival g' (.poll p task) ∧
        (race lib).rely g' w w' ∧ Partakes g' w' := by
  have howner := unowned_of_poll hstart
  have hw' := queued_of_claimed hw hcl
  have ho := orderly_of_claimed hcl howner
  have hh : Partakes (.poll p task) w' := by
    refine ⟨rfl, ?_, ?_, fun h => by cases h⟩ <;> rintro _ _ ⟨⟩
    · exact hcl.epoch'.ge
    · exact fun _ => ⟨hcl.owner, hcl.epoch'⟩
  have hearlier : ∀ g', Partakes g' w → ∀ p' task', g'.claim = some (p', task') →
      task'.epoch ≠ task.epoch := fun g' hh' p' task' hg' => by
    have := hh'.epoch p' task' hg'
    have := hcl.epoch
    omega
  refine ⟨hw', hh, ?_, fun g' hh' => ⟨?_, ?_, ⟨ho, fun _ _ h => absurd howner h⟩, hh'.step ho⟩⟩
  · by_cases hs : w'.batch.row.Settled
    · exact safe_settled hw' hh hs
    · have hres : task.resumable = false := by
        rw [hcl.flag, ← hcl.resumable]
        exact (BatchRow.not_settled.1 hs).1
      exact safe_pickup hw' hh ⟨hcl.id.1.trans hcl.id.2.symm, fun h => (by cases h),
        fun _ => ⟨hs, by simp [hcl.owner]⟩, fun _ it hit => by cases hit⟩ hres
  · rintro _ _ p' task' ⟨⟩ hg'
    exact (hearlier g' hh' p' task' hg').symm
  · rintro p' task' _ _ hg' ⟨⟩
    exact hearlier g' hh' p' task' hg'

theorem race_starts (lib : Stdlib) : (race lib).Starts Left := by
  intro env g w w' hw hstart
  simp only [cancelRace, Option.ite_none_right_eq_some] at hstart
  obtain ⟨hrace, hstart⟩ := hstart
  rcases Actor.start_cases hstart with ⟨p, task, hg, hcl⟩ | ⟨hg, rfl, hback⟩
  · cases g with
    | poll =>
      cases hg
      exact race_starts_poll hw hstart hcl
    | recovery => cases hrace
    | _ => cases hg
  · have hsettled : g.grant ≠ none → w'.batch.row.Settled := by
      intro hgr
      obtain ⟨gr, hgr⟩ := Option.ne_none_iff_exists'.1 hgr
      obtain ⟨b, hb, -⟩ := hback gr hgr
      exact hw.background (List.ne_nil_of_mem hb)
    have hnone : ∀ p task, g.claim ≠ some (p, task) := by simp [hg]
    have hh : Partakes g w' := ⟨hrace, fun p task h => absurd h (hnone p task),
      fun p task h => absurd h (hnone p task), fun _ => hsettled⟩
    refine ⟨hw, hh, ?_, fun g' hh' => ⟨fun p task _ _ h => absurd h (hnone p task),
      fun _ _ p task _ h => absurd h (hnone p task), (race lib).rely_refl g' w', hh'⟩⟩
    cases g with
    | cancel id => exact safe_cancel hw hh
    | reconcile => cases hrace
    | poll | recovery => cases hg
    | renewal => exact safe_settled hw hh (hsettled nofun)
    | request => exact safe_settled hw hh (hsettled nofun)

/-- An owned batch that is not settled has its pickup. -/
def Attended (pool : GatewayPool) : Prop :=
  ¬ pool.world.batch.row.Settled → pool.world.batch.row.processorID ≠ none →
    ∃ t ∈ pool.threads, t.who.claim ≠ none

theorem attended_step {pool pool' : GatewayPool} {l : Label Env Actor}
    (hok : (race lib).Ok Left pool) (hl : StepCond (race lib).cond pool l)
    (hs : (cancelRace lib).step pool l = some pool') (ha : Attended pool) : Attended pool' := by
  have hwho : (∃ t ∈ pool.threads, t.who.claim ≠ none) →
      ∃ t ∈ pool'.threads, t.who.claim ≠ none := by
    rintro ⟨t, ht, hg⟩
    obtain ⟨t', ht', hwho⟩ := who_step hs ht
    exact ⟨t', ht', by rwa [hwho]⟩
  intro hns howned
  rcases (cancelRace lib).step_cases hs with ⟨env, g, w', hstart⟩ |
    ⟨i, env, g, c, k, w', r, hi, hp⟩ | ⟨i, g, m, hi⟩
  · simp only [cancelRace, Option.ite_none_right_eq_some] at hstart
    rcases Actor.start_cases hstart.2 with ⟨p, task, hg, -⟩ | ⟨-, rfl, -⟩
    · exact ⟨_, List.mem_append_right _ List.mem_cons_self, by simp [hg]⟩
    · exact hwho (ha hns howned)
  · have hpol := (hok.call hi (hl g c k hi) hp).2.1
    refine hwho (ha (mt hpol.orderly.settled hns) ?_)
    rw [← hpol.owner hns]
    exact howned
  · exact hwho (ha hns howned)

/-- When all calls have returned and no cancellation was committed under a pickup's feet, the batch
is finished, waiting in the queue or resumable. -/
theorem no_stranded_batch (lib : Stdlib) (w : World) {row : BatchRow} (hrow : row.Fresh)
    {ls : List (Label Env Actor)} {pool : GatewayPool}
    (hc : Along (cancelRace lib).step (StepCond fun w env _ c => Calm env c ∧ Uncaught w c)
      (initial w row) ls)
    (hp : exec (cancelRace lib).step (initial w row) ls = some pool)
    (hdone : ∀ t ∈ pool.threads, t.returned = true) :
    ¬ pool.world.batch.row.NonTerminal ∨
    (pool.world.batch.row.processorID = none ∧
      ∀ now processorID lease, (pqDequeueStmt now processorID lease pool.world.batch).isSome) ∨
    pool.world.batch.row.resumable = true := by
  obtain ⟨hid, hv, howner, -, -, hres, -⟩ := hrow
  have hinit : (race lib).Ok Left (initial w row) :=
    Protocol.ok_empty ⟨hid, fun _ => .inl hv, fun _ => rfl, fun h => absurd rfl h⟩
  obtain ⟨hok, hattended⟩ := along_invariant
    (I := fun q : GatewayPool => (race lib).Ok Left q ∧ Attended q)
    (fun q l q' h hl hs =>
      ⟨Protocol.ok_step (race_starts lib) h.1 hl hs, attended_step h.1 hl hs h.2⟩)
    hc hp ⟨hinit, fun _ h => absurd howner h⟩
  by_cases hs : pool.world.batch.row.Settled
  · rcases hs with hs | hs
    · exact .inr (.inr hs)
    · exact .inl hs
  by_cases howned : pool.world.batch.row.processorID = none
  · obtain ⟨hr, -⟩ := BatchRow.not_settled.1 hs
    have hv := (hok.inv.status hs).resolve_right fun h => h.2 howned
    exact .inr (.inl ⟨howned, fun _ _ _ => by simp [pqDequeueStmt, howned, hr, hv]⟩)
  · obtain ⟨t, ht, hg⟩ := hattended hs howned
    obtain ⟨i, hi⟩ := List.mem_iff_getElem?.1 ht
    obtain ⟨r, hr⟩ := Thread.exists_of_returned (hdone t ht)
    exact absurd (hok.safe i t _ hi hr _ hok.inv (hok.holds i t hi) ((race lib).rely_refl _ _) hg) hs

/-- The batch is cancelled between the pickup's re-read and its activation. -/
def caughtPickup : List (Label Env Actor) :=
  ingestionRun "m" ++ [.spawn {} (.cancel "batch_1")] ++ steps 1 4 ++ [.run 0 {}, .run 1 {}]

theorem caughtPickup_stranded :
    Along (cancelRace .sample).step (StepCond fun _ env _ c => Calm env c) sampleInitial
      caughtPickup ∧
    ∃ pool ∈ exec (cancelRace .sample).step sampleInitial caughtPickup,
      (∀ t ∈ pool.threads, t.returned = true) ∧ pool.world.batch.row.NonTerminal ∧
      pool.world.batch.row.processorID = some "p" ∧ pool.world.batch.row.resumable = false := by
  decide +kernel

/-- The batch is cancelled before the pickup re-reads it. -/
def forestalledPickup : List (Label Env Actor) :=
  [.spawn {} (.cancel "batch_1"), .run 0 {},
   .spawn {} (.poll (sampleProcessor "p") (sampleTask "p" 1))] ++ steps 0 4 ++ steps 1 4

theorem forestalledPickup_not_stranded :
    ∃ pool ∈ exec (cancelRace .sample).step sampleInitial forestalledPickup,
      pool.world.batch.row.processorID = some "p" ∧
      (¬ pool.world.batch.row.NonTerminal ∨
      (pool.world.batch.row.processorID = none ∧
        ∀ now processorID lease, (pqDequeueStmt now processorID lease pool.world.batch).isSome) ∨
      pool.world.batch.row.resumable = true) := by
  obtain ⟨pool, hp, hdone, howner⟩ :
      ∃ pool ∈ exec (cancelRace .sample).step sampleInitial forestalledPickup,
        (∀ t ∈ pool.threads, t.returned = true) ∧ pool.world.batch.row.processorID = some "p" := by
    decide +kernel
  exact ⟨pool, hp, howner, no_stranded_batch .sample _ (by decide) (by decide +kernel) hp hdone⟩

end BatchGateway
