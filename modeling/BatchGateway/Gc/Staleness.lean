import BatchGateway.Gateway.Issues
import BatchGateway.Database.Fencing

/-! The writes of a reconciler cycle that acts on old observations. -/
namespace BatchGateway

open Interleaving Prog

/-- A job as it was listed, and the live set against which it is triaged. -/
structure Sighting where
  live : List String
  job : BatchItem

namespace Reconciler

variable (r : Reconciler)

/-- The loop of a cycle. The live set may be replaced between two jobs. -/
def triageSightings : List Sighting → Task (Except Err Unit)
  | [] => return .ok ()
  | x :: xs => do
    let _ ← r.triageJob x.live x.job
    triageSightings xs

end Reconciler

/-! ### The statements of a cycle -/

/-- The statements that the triage of one job can issue. -/
def Sighting.Triages (x : Sighting) : Stmt → Prop
  | .requeue id p e expired _ => x.job.resumable = true ∧ id = x.job.id ∧ p = x.job.processorID ∧
      e = x.job.epoch ∧ (expired = false → x.job.processorID ∉ x.live)
  | .recordSubmitter .. => True
  | .dbUpdate item _ => x.job.resumable = false ∧ x.job.processorID ∉ x.live ∧ item.id = x.job.id ∧
      item.epoch = x.job.epoch ∧ item.bumpEpoch = true ∧ item.expectedResumable = some false
  | .pqEnqueue jp => x.job.resumable = false ∧ x.job.processorID ∉ x.live ∧ jp.id = x.job.id ∧
      jp.epoch = x.job.epoch
  | _ => False

section Triage

variable {r : Reconciler} {x : Sighting}

theorem dbUpdate_issues (item : BatchItem) (expected : Option BatchStatusInfo) :
    Issues (· = .dbUpdate item expected) (dbUpdate item expected) := by
  unfold dbUpdate
  split
  · exact trivial
  · split
    · exact trivial
    · refine .exec rfl fun res => ?_
      split <;> first | exact trivial | skip
      split <;> exact trivial

theorem triageResumable_issues (hr : x.job.resumable = true) :
    Issues x.Triages (r.triageResumable x.live x.job) := by
  refine .plain rfl fun env => ?_
  dsimp only
  split
  · exact trivial
  · split
    · exact trivial
    · refine (requeueResumableOrphan_issues ..).mono fun st hst => ?_
      rcases hst with rfl | rfl
      · exact ⟨hr, rfl, rfl, rfl, of_decide_eq_false⟩
      · exact trivial

theorem transitionOrphan_issues (hr : x.job.resumable = false) (hd : x.job.processorID ∉ x.live)
    (info : BatchStatusInfo) (target : BatchStatus) :
    Issues x.Triages (r.transitionOrphan x.job info target) := by
  refine .plain rfl fun env => ?_
  split <;> first | exact trivial | skip
  split_ifs <;> first | exact trivial | skip
  refine (dbUpdate_issues ..).mono fun st hst => ?_
  subst hst
  exact ⟨hr, hd, rfl, rfl, rfl, rfl⟩

theorem reEnqueueOrphan_issues (hr : x.job.resumable = false) (hd : x.job.processorID ∉ x.live)
    (expected : BatchStatus) : Issues x.Triages (r.reEnqueueOrphan x.job expected) := by
  unfold Reconciler.reEnqueueOrphan
  split_ifs <;> first | exact trivial | skip
  refine (pqEnqueue_issues _).mono fun st hst => ?_
  subst hst
  exact ⟨hr, hd, rfl, rfl⟩

theorem triageJob_issues (r : Reconciler) (x : Sighting) :
    Issues x.Triages (r.triageJob x.live x.job) := by
  unfold Reconciler.triageJob
  split
  next hr => exact triageResumable_issues hr
  next hr =>
    have hr : x.job.resumable = false := by simpa using hr
    split
    · exact trivial
    next hd =>
      unfold Reconciler.triageOrphan
      split
      · exact trivial
      · split
        · exact transitionOrphan_issues hr hd _ _
        · refine .plain rfl fun env => ?_
          split
          · exact transitionOrphan_issues hr hd _ _
          · exact reEnqueueOrphan_issues hr hd _

theorem triageSightings_issues (r : Reconciler) (xs : List Sighting) :
    Issues (fun st => ∃ x ∈ xs, x.Triages st) (r.triageSightings xs) := by
  suffices h : ∀ ys, (∀ y ∈ ys, y ∈ xs) →
      Issues (fun st => ∃ x ∈ xs, x.Triages st) (r.triageSightings ys) from h xs fun _ hy => hy
  intro ys hys
  induction ys with
  | nil => exact trivial
  | cons y ys ih =>
    obtain ⟨hy, hys⟩ := List.forall_mem_cons.1 hys
    exact ((triageJob_issues r y).mono fun st hst => ⟨y, hy, hst⟩).bind fun _ => ih hys

end Triage

/-! ### A batch with its past -/

/-- The store, and every row that the batch has had so far. -/
structure Chronicle where
  world : World
  seen : List BatchRow

/-- A cycle after its reads, or any statement of anybody. -/
inductive StaleActor where
  | cycle (r : Reconciler) (sightings : List Sighting)
  | stmt (s : Stmt)

namespace StaleActor

def code : StaleActor → Task (Except Err Unit)
  | cycle r xs => r.triageSightings xs
  | stmt s => do
    match ← call (.exec s) with
    | .error e => return .error e
    | .ok _ => return .ok ()

/-- The row was listed as an owned, unfinished one at some time, or it is another batch's. -/
def Listed (x : Sighting) (c : Chronicle) : Prop :=
  x.job.id = c.world.batch.row.id →
    ∃ row ∈ c.seen, row.NonTerminal ∧ row.processorID ≠ none ∧ x.job = row.toItem

instance (x : Sighting) (c : Chronicle) : Decidable (Listed x c) :=
  inferInstanceAs (Decidable (_ → _))

def start (c : Chronicle) : StaleActor → Option Chronicle
  | cycle _ xs => if ∀ x ∈ xs, Listed x c then some c else none
  | stmt _ => some c

end StaleActor

/-- Reconciler cycles with observations of any age, among any statements of anybody. -/
def staleSystem : System Chronicle Env StaleActor Call Call.Resp (Except Err Unit) where
  perform env c call := (c.world.perform env call).map fun x =>
    (⟨x.1, x.1.batch.row :: c.seen⟩, x.2)
  start _ := StaleActor.start
  code := StaleActor.code

abbrev StalePool := Pool Chronicle StaleActor Call Call.Resp (Except Err Unit)

/-- A store in any state, of whose past nothing was observed. -/
def World.unobserved (w : World) : StalePool := ⟨⟨w, [w.batch.row]⟩, []⟩

/-- The current row stands at the end of its past: a row at the same epoch had the same owner. -/
def Chronicle.Ordered (c : Chronicle) : Prop :=
  ∀ row ∈ c.seen, row.epoch ≤ c.world.batch.row.epoch ∧
    (row.epoch = c.world.batch.row.epoch → row.processorID = c.world.batch.row.processorID)

namespace Chronicle

variable {c c' : Chronicle} {env : Env} {d : Call} {a : d.Resp}

theorem id_perform (h : staleSystem.perform env c d = some (c', a)) :
    c'.world.batch.row.id = c.world.batch.row.id ∧ ∀ row ∈ c.seen, row ∈ c'.seen := by
  obtain ⟨⟨w', a'⟩, hp, heq⟩ := Option.map_eq_some_iff.1 h
  cases heq
  refine ⟨?_, fun row hr => List.mem_cons_of_mem _ hr⟩
  rcases World.batch_perform hp with hb | ⟨s, b, -, -, hs, rfl⟩
  · exact congrArg (fun b => b.row.id) hb
  · exact Stmt.id_exec hs

theorem Ordered.perform (h : c.Ordered) (hc : staleSystem.perform env c d = some (c', a)) :
    c'.Ordered := by
  obtain ⟨⟨w', a'⟩, hp, heq⟩ := Option.map_eq_some_iff.1 hc
  cases heq
  intro row hr
  rcases List.mem_cons.1 hr with rfl | hr
  · exact ⟨Int.le_refl _, fun _ => rfl⟩
  · obtain ⟨hle, heq⟩ := h row hr
    dsimp only
    rcases World.batch_perform hp with hb | ⟨s, b, -, -, hs, rfl⟩
    · rw [hb]
      exact ⟨hle, heq⟩
    · obtain ⟨hmono, hmoved⟩ := Stmt.epoch_exec hs
      refine ⟨Int.le_trans hle hmono, fun he => ?_⟩
      by_cases howner : b.row.processorID = c.world.batch.row.processorID
      · have : row.epoch = c.world.batch.row.epoch := by
          dsimp only at he
          omega
        exact (heq this).trans howner.symm
      · have := hmoved howner
        dsimp only at he
        omega

end Chronicle

/-! ### What a cycle may write -/

/-- What an entry holds apart from its attempts and its submitter. -/
def EntryRow.result (row : EntryRow) :
    String × EntryStatus × Option String × Option Int × Option String × Option String ×
      Option Time :=
  (row.requestID, row.status, row.resultKey, row.resultBytes, row.resultSHA256, row.errorCode,
    row.completedAt)

/-- The row is still the observed one, and its owner is gone or let a lease lapse. -/
def Sighting.Justifies (x : Sighting) (now : Time) (row : BatchRow) : Prop :=
  row.id = x.job.id ∧ row.processorID = some x.job.processorID ∧ row.epoch = x.job.epoch ∧
    row.resumable = x.job.resumable ∧
    (x.job.processorID ∉ x.live ∨ (row.resumable = true ∧ row.LeaseLapsed now))

/-- A step of a cycle changes the row only on a justified sighting, and neither the document of a
resumable row nor any result. -/
structure Reconciler.Cautious (xs : List Sighting) (now : Time) (b b' : BatchState) : Prop where
  justified : b'.row ≠ b.row → ∃ x ∈ xs, x.Justifies now b.row
  document : b.row.resumable = true → b'.row.status = b.row.status
  results : b'.entries.rows.map EntryRow.result = b.entries.rows.map EntryRow.result

theorem EntryRow.recordSubmitter_result (p : String) (row : EntryRow) :
    (row.recordSubmitter p).result = row.result := by
  unfold recordSubmitter
  split <;> rfl

/-- The owner that was listed is still the owner at the listed epoch. -/
theorem StaleActor.Listed.owner {x : Sighting} {c : Chronicle} (h : StaleActor.Listed x c)
    (ho : c.Ordered) (hid : x.job.id = c.world.batch.row.id)
    (he : c.world.batch.row.epoch = x.job.epoch) :
    c.world.batch.row.processorID = some x.job.processorID := by
  obtain ⟨row, hr, -, hp, hjob⟩ := h hid
  have hepoch : row.epoch = x.job.epoch := by rw [hjob]; rfl
  have howner := (ho row hr).2 (hepoch.trans he.symm)
  obtain ⟨p, hp⟩ := Option.ne_none_iff_exists'.1 hp
  rw [← howner, hp, hjob, BatchRow.toItem, hp]
  rfl

theorem cautious_exec {xs : List Sighting} {c : Chronicle} {now : Time} {st : Stmt} {b : BatchState}
    {x : Sighting} (ho : c.Ordered) (hx : x ∈ xs) (hl : StaleActor.Listed x c)
    (ht : x.Triages st) (hb : st.exec now c.world.batch = .ok (some b)) :
    Reconciler.Cautious xs now c.world.batch b := by
  cases st with
  | requeue id p e expired bump =>
    obtain ⟨hr, rfl, rfl, rfl, hlive⟩ := ht
    obtain ⟨⟨hid, hp, he, hres, -, hlapsed⟩, rfl⟩ := Stmt.of_matched hb
    refine ⟨fun _ => ⟨x, hx, hid, hp, he, hres.trans hr.symm, ?_⟩, fun _ => rfl, rfl⟩
    cases expired with
    | false => exact .inl (hlive rfl)
    | true => exact .inr ⟨hres, hlapsed rfl⟩
  | recordSubmitter id p e =>
    obtain ⟨-, rfl⟩ := Stmt.of_matched hb
    refine ⟨fun h => absurd rfl h, fun _ => rfl, ?_⟩
    simp only [EntryTable.mapRows, List.map_map]
    exact List.map_congr_left fun row _ => EntryRow.recordSubmitter_result p row
  | dbUpdate item expected =>
    obtain ⟨hr, hlive, hid, he, hbump, hflag⟩ := ht
    obtain ⟨⟨hrow, -, hepoch, hres⟩, rfl⟩ := Stmt.of_matched hb
    have hrow := hrow.trans hid
    have hepoch := (hepoch (.inr hbump)).trans he
    have hres : c.world.batch.row.resumable = false := hres false hflag
    exact ⟨fun _ => ⟨x, hx, hrow, hl.owner ho hrow.symm hepoch, hepoch, hres.trans hr.symm,
      .inl hlive⟩, fun h => absurd (hres.symm.trans h) Bool.false_ne_true, rfl⟩
  | pqEnqueue jp =>
    obtain ⟨hr, hlive, hid, he⟩ := ht
    obtain ⟨⟨hrow, hepoch, -, -, hres, -⟩, rfl⟩ := Stmt.of_matched hb
    have hrow := hrow.trans hid
    have hepoch := hepoch.trans he
    exact ⟨fun _ => ⟨x, hx, hrow, hl.owner ho hrow.symm hepoch, hepoch, hres.trans hr.symm,
      .inl hlive⟩, fun h => absurd (hres.symm.trans h) Bool.false_ne_true, rfl⟩
  | _ => exact ht.elim

theorem cautious_refl (xs : List Sighting) (now : Time) (b : BatchState) :
    Reconciler.Cautious xs now b b := ⟨fun h => absurd rfl h, fun _ => rfl, rfl⟩

/-! ### Whole runs -/

/-- The statements that a cycle may issue. -/
def StaleActor.watch (g : StaleActor) : Monitor Unit Call Call.Resp where
  allow _ d := match g, d with
    | cycle _ xs, .exec st => ∃ x ∈ xs, x.Triages st
    | _, _ => True
  answer _ _ _ := True
  next _ _ _ := ()

theorem StaleActor.code_watched (g : StaleActor) : g.code.Obeys g.watch (fun _ _ => True) () := by
  cases g with
  | cycle r xs =>
    refine Calls.obeys_of_allow (triageSightings_issues r xs) fun _ d hd => ?_
    cases d <;> first | exact trivial | exact hd
  | stmt s =>
    refine ⟨trivial, fun a _ => ?_⟩
    cases a <;> exact trivial

/-- What the cycle was started with was listed. -/
def StaleActor.Informed (g : StaleActor) (c : Chronicle) : Prop :=
  match g with
  | cycle _ xs => ∀ x ∈ xs, Listed x c
  | stmt _ => True

theorem StaleActor.Informed.perform {g : StaleActor} {c c' : Chronicle} {env : Env} {d : Call}
    {a : d.Resp} (h : g.Informed c) (hp : staleSystem.perform env c d = some (c', a)) :
    g.Informed c' := by
  obtain ⟨hid, hseen⟩ := Chronicle.id_perform hp
  cases g with
  | cycle r xs =>
    intro x hx hjob
    obtain ⟨row, hr, hrow⟩ := h x hx (hjob.trans hid)
    exact ⟨row, hseen row hr, hrow⟩
  | stmt s => exact trivial

/-- Every cycle is informed and issues what its sightings allow, and the past is in order. -/
structure StalePool.Sane (pool : StalePool) : Prop where
  ordered : pool.world.Ordered
  watched : Watched StaleActor.watch (fun g _ c => g.Informed c) pool

theorem sane_step {pool pool' : StalePool} {l : Label Env StaleActor} (h : StalePool.Sane pool)
    (hs : staleSystem.step pool l = some pool') : StalePool.Sane pool' := by
  have hstart : ∀ (c c' : Chronicle) (g : StaleActor), g.start c = some c' →
      c' = c ∧ g.Informed c := by
    intro c c' g hg
    cases g with
    | cycle r xs =>
      obtain ⟨hfresh, heq⟩ := of_guarded hg
      exact ⟨heq.symm, hfresh⟩
    | stmt s =>
      cases hg
      exact ⟨rfl, trivial⟩
  refine ⟨?_, watched_step (fun env g c c' hg => ?_) (fun env g _ c d c' a hT _ hp => ?_) hs
    h.watched⟩
  · rcases staleSystem.step_cases hs with ⟨env, g, c', hg⟩ | ⟨i, env, g, d, k, c', a, hi, hp⟩ |
      ⟨i, g, m, hi⟩
    · rw [(hstart _ _ g hg).1]
      exact h.ordered
    · exact h.ordered.perform hp
    · exact h.ordered
  · obtain ⟨rfl, hi⟩ := hstart _ _ g hg
    exact ⟨⟨(), hi, g.code_watched⟩, fun _ _ hT => hT⟩
  · exact ⟨⟨trivial, hT.perform hp⟩, fun _ _ hT => hT.perform hp⟩

/-- However old the observations of a reconciler cycle are and whatever happened since, each step of
the cycle is cautious. -/
theorem reconciler_cautious (w : World) (ls : List (Label Env StaleActor)) (pool : StalePool)
    (hrun : exec staleSystem.step w.unobserved ls = some pool) (i : Nat) (r : Reconciler)
    (xs : List Sighting) (d : Call) (k : d.Resp → Task (Except Err Unit))
    (hi : pool.threads[i]? = some ⟨.cycle r xs, some (.call d k)⟩) (env : Env) (w' : World)
    (a : d.Resp) (hp : pool.world.world.perform env d = some (w', a)) :
    Reconciler.Cautious xs env.now pool.world.world.batch w'.batch := by
  have hsane : StalePool.Sane pool := by
    refine along_invariant (P := fun _ _ => True) (fun _ _ _ h _ hs => sane_step h hs)
      (along_true _ _) hrun ⟨?_, watched_empty _⟩
    intro row hr
    cases List.mem_singleton.1 hr
    exact ⟨Int.le_refl _, fun _ => rfl⟩
  rcases World.batch_perform hp with hb | ⟨st, b, rfl, -, hb, rfl⟩
  · rw [hb]
    exact cautious_refl xs env.now _
  · obtain ⟨-, hinf, x, hx, ht⟩ := hsane.watched.allow hi
    exact cautious_exec hsane.ordered hx (hinf x hx) ht hb

/-! ### A lapsed lease -/

/-- `p` is alive, but it let its lease lapse at 10. -/
def lapsedRow : BatchRow :=
  { id := "batch_1", status := { status := .inProgress }, processorID := some "p", epoch := 1,
    resumable := true, ownerLeaseExpiresAt := some 10 }

/-- A cycle at 20 that saw the row and has looked at its clock. -/
def lapsedCycle : List (Label Env StaleActor) :=
  [.spawn {} (.cycle {} [⟨["p"], lapsedRow.toItem⟩]), .run 0 { now := 20 }]

/-- The cycle takes the batch away from `p`. -/
theorem lapsedCycle_cautious : ∃ pool k w' a,
    exec staleSystem.step (World.unobserved { batch := ⟨lapsedRow, .empty⟩ }) lapsedCycle =
      some pool ∧
    pool.threads[0]? = some ⟨.cycle {} [⟨["p"], lapsedRow.toItem⟩],
      some (.call (.exec (.requeue "batch_1" "p" 1 true true)) k)⟩ ∧
    pool.world.world.perform { now := 20 } (.exec (.requeue "batch_1" "p" 1 true true)) =
      some (w', a) ∧
    w'.batch.row.processorID = none ∧
    Reconciler.Cautious [⟨["p"], lapsedRow.toItem⟩] 20 pool.world.world.batch w'.batch := by
  refine ⟨_, _, _, _, rfl, rfl, rfl, rfl, ?_⟩
  exact reconciler_cautious { batch := ⟨lapsedRow, .empty⟩ } lapsedCycle _ rfl 0 {} _ _ _ rfl
    { now := 20 } _ _ rfl

end BatchGateway
