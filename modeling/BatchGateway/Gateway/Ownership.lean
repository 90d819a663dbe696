import BatchGateway.Database.Fencing
import BatchGateway.Gateway.Conduct

/-! Processors write under their own grants, and a finished job stays as it is, as long as every
re-read after a claim still finds the row under the claim's grant. -/
namespace BatchGateway

open Interleaving

variable {lib : Stdlib} {w w' : World} {env : Env} {g g' : Actor} {s : Held} {st : Stmt}
  {p : Processor} {task : BatchJobPriority}

/-- A claim re-read that returns finds the row still under the reader's grant. -/
def OwnReread (w : World) (env : Env) (g : Actor) : Call → Prop
  | .fetch .polling _ | .fetch .recovery _ => env.fault = .none → ∀ gr ∈ g.grant,
      w.batch.row.processorID = some gr.1 ∧ w.batch.row.epoch = gr.2
  | _ => True

instance (c : Call) : Decidable (OwnReread w env g c) := by
  unfold OwnReread
  split <;> infer_instance

/-- A processor's statement that writes the row finds it owned by that processor at an epoch that
one of its own claims returned. -/
def WritesOwn (w : World) (env : Env) (g : Actor) : Call → Prop
  | .exec st => ∀ gr ∈ g.grant, st.WritesRow = true → w.commits env st = true →
      w.batch.row.processorID = some gr.1 ∧ (gr.1, w.batch.row.epoch) ∈ w.grants
  | _ => True

instance (c : Call) : Decidable (WritesOwn w env g c) := by
  unfold WritesOwn
  split <;> infer_instance

/-- A step keeps the status document of a finished job. -/
def Absorbs (lib : Stdlib) (pool : GatewayPool) (l : Label Env Actor) : Prop :=
  ¬ pool.world.batch.row.NonTerminal → ∀ pool' ∈ (gateway lib).step pool l,
    pool'.world.batch.row.status = pool.world.batch.row.status

instance (pool : GatewayPool) (l : Label Env Actor) : Decidable (Absorbs lib pool l) :=
  inferInstanceAs (Decidable (_ → ∀ pool' ∈ (gateway lib).step pool l, _))

/-- Grants are positive, never ahead of the row, and name its owner while the row is at their
epoch. -/
structure Granted (w : World) : Prop where
  epoch : 0 ≤ w.batch.row.epoch
  grants : ∀ gr ∈ w.grants, 0 < gr.2 ∧ gr.2 ≤ w.batch.row.epoch ∧
    (w.batch.row.epoch = gr.2 → w.batch.row.processorID = some gr.1)
  background : ∀ b ∈ w.background, b.grant ∈ w.grants

/-- The thread's grant was issued. -/
def Holds (g : Actor) (w : World) : Prop := ∀ gr ∈ g.grant, gr ∈ w.grants

/-- What a thread can rely on: nobody else ends its job at its own epoch. -/
structure Undisputed (g : Actor) (w w' : World) : Prop where
  grants : ∀ gr ∈ w.grants, gr ∈ w'.grants
  epoch : w.batch.row.epoch ≤ w'.batch.row.epoch
  spec : w'.batch.row.specDecodes = w.batch.row.specDecodes
  unfinished : ∀ p task, g.claim = some (p, task) → task.epoch ≤ w.batch.row.epoch →
    w'.batch.row.epoch = task.epoch → w.batch.row.NonTerminal → w'.batch.row.NonTerminal

/-- What a thread guarantees with each call. -/
structure Rightful (g : Actor) (env : Env) (c : Call) (w w' : World) : Prop where
  grants : w'.grants = w.grants
  epoch : w.batch.row.epoch ≤ w'.batch.row.epoch
  spec : w'.batch.row.specDecodes = w.batch.row.specDecodes
  /-- A finished job keeps its status document. -/
  absorbs : ¬ w.batch.row.NonTerminal → w'.batch.row.status = w.batch.row.status
  /-- A job ends with a new epoch or by its owner. -/
  ends : w.batch.row.NonTerminal → ¬ w'.batch.row.NonTerminal →
    w'.batch.row.epoch = w.batch.row.epoch →
      ∃ p task, g.claim = some (p, task) ∧ task.epoch = w.batch.row.epoch
  /-- A processor writes the row under a grant of its own. -/
  own : ∀ gr st b, g.grant = some gr → c = .exec st → st.WritesRow = true →
    st.exec env.now w.batch = .ok (some b) →
      w.batch.row.processorID = some gr.1 ∧ (gr.1, w.batch.row.epoch) ∈ w.grants

/-- No two threads share a claim. -/
def Rival (g g' : Actor) : Prop :=
  ∀ p task p' task', g.claim = some (p, task) → g'.claim = some (p', task') →
    task.epoch ≠ task'.epoch

theorem Holds.epoch_le (hw : Granted w) (hh : Holds g w) (hg : g.claim = some (p, task)) :
    0 < task.epoch ∧ task.epoch ≤ w.batch.row.epoch ∧
      (w.batch.row.epoch = task.epoch → w.batch.row.processorID = some p.processorID) :=
  hw.grants _ (hh _ (Actor.grant_of_claim hg))

variable {c : Call}

theorem Rightful.undisputed (hr : Rival g g') (h : Rightful g env c w w') : Undisputed g' w w' where
  grants gr hgr := h.grants ▸ hgr
  epoch := h.epoch
  spec := h.spec
  unfinished p' task' hg' hle he ho := by
    by_contra ht
    have := h.epoch
    obtain ⟨p, task, hg, htask⟩ := h.ends ho ht (by omega)
    exact hr p task p' task' hg hg' (by omega)

theorem Undisputed.trans {w₁ w₂ w₃ : World} (h : Undisputed g w₁ w₂) (h' : Undisputed g w₂ w₃) :
    Undisputed g w₁ w₃ where
  grants gr hgr := h'.grants gr (h.grants gr hgr)
  epoch := h.epoch.trans h'.epoch
  spec := h'.spec.trans h.spec
  unfinished p task hg hle he ho := by
    have := h.epoch
    have := h'.epoch
    exact h'.unfinished p task hg (by omega) he (h.unfinished p task hg hle (by omega) ho)

/-- The protocol between everybody who works on the batch. -/
def ownership (lib : Stdlib) : Protocol (gateway lib) where
  inv := Granted
  holds := Holds
  rely := Undisputed
  guar := Rightful
  peer := Rival
  cond := OwnReread
  rely_refl _ _ := ⟨fun _ h => h, Int.le_refl _, rfl, fun _ _ _ _ _ ho => ho⟩
  rely_trans _ _ _ _ h h' := h.trans h'
  guar_holds _ _ _ _ _ _ hh h gr hgr := h.grants ▸ hh gr hgr
  guar_rely _ _ _ _ _ _ _ hr _ hh h := ⟨h.undisputed hr, fun gr hgr => h.grants ▸ hh gr hgr⟩

/-- The monitor's knowledge about the job is right. -/
structure Tracks (g : Actor) (s : Held) (w : World) : Prop where
  epoch : ∀ p task, g.claim = some (p, task) → task.epoch ≤ w.batch.row.epoch
  live : ∀ p task, g.claim = some (p, task) → s.live = true → w.batch.row.epoch = task.epoch →
    w.batch.row.NonTerminal
  item : ∀ p task, g.claim = some (p, task) → ∀ it ∈ s.item, it.epoch = task.epoch ∧
    it.processorID = p.processorID ∧ (s.sure = true → ∀ doc ∈ it.status, doc.Open)
  copies : s.Copies w

theorem stable_tracks : (ownership lib).Stable g (Tracks g s) := by
  intro w w' _ _ hr ht
  refine ⟨fun p task hg => (ht.epoch p task hg).trans hr.epoch, fun p task hg hl he => ?_, ht.item,
    fun it hit => (ht.copies it hit).trans hr.spec.symm⟩
  have := ht.epoch p task hg
  have := hr.epoch
  exact hr.unfinished p task hg (ht.epoch p task hg) he (ht.live p task hg hl (by omega))

theorem tracks_start (h : ∀ p task, g.claim = some (p, task) → task.epoch ≤ w.batch.row.epoch ∧
    w.batch.row.NonTerminal) : Tracks g {} w where
  epoch p task hg := (h p task hg).1
  live p task hg _ _ := (h p task hg).2
  item _ _ _ it hit := by cases hit
  copies it hit := by cases hit

theorem Tracks.afterStmt (h : Tracks g s w) (r : Except Err Bool) :
    Tracks g (s.afterStmt st r) w := by
  unfold Held.afterStmt
  split
  · exact h
  · split
    · exact ⟨h.epoch, fun _ _ _ hl => (by cases hl), h.item, h.copies⟩
    · exact h

theorem Tracks.vouched {it : BatchItem} {doc : BatchStatusInfo} (h : Tracks g s w)
    (hg : g.claim = some (p, task)) (hi : it ∈ s.item) (hd : it.status = some doc)
    (hv : s.Vouches doc) : doc.Open := by
  rcases hv with hv | hv
  · exact (h.item p task hg it hi).2.2 hv doc hd
  · exact hv

/-! ### Statements -/

variable {b : BatchState}

section

variable (hw : Granted w) (hh : Holds g w) (ht : Tracks g s w)
include hw hh ht

/-- The owner's statements match the row at the owner's epoch only. -/
theorem permits_epoch (hg : g.claim = some (p, task)) (hp : s.Permits p.processorID task st)
    (hrow : st.WritesRow = true) (h : st.exec env.now w.batch = .ok (some b)) :
    w.batch.row.epoch = task.epoch := by
  have hpos := (hh.epoch_le hw hg).1
  have hitem := fun it hi => (ht.item p task hg it hi).1
  refine Stmt.epoch_of_exec h ?_ ?_ ?_
  · rintro x expected rfl
    cases expected with
    | none =>
      obtain ⟨-, -, it, hi, he, -⟩ := hp
      rw [he, hitem it hi]
      exact hpos
    | some old =>
      obtain ⟨-, it, hi, he, -⟩ := hp
      rw [he, hitem it hi]
      exact hpos
  · cases st with
    | pqEnqueue jp =>
      rcases hp with rfl | ⟨it, hi, he, -⟩
      · rfl
      · rw [Stmt.carries, he, hitem it hi]
    | requeue id q e expired bump =>
      rcases hp with ⟨-, rfl⟩ | ⟨it, hi, -, rfl⟩
      · rfl
      · rw [Stmt.carries, hitem it hi]
    | activate a =>
      obtain ⟨⟨it, hi, -, he⟩, -⟩ := hp
      rw [Stmt.carries, he, hitem it hi]
    | finalize fin =>
      obtain ⟨it, hi, -, he, -⟩ := hp
      rw [Stmt.carries, he, hitem it hi]
    | dbUpdate x expected =>
      cases expected with
      | none =>
        obtain ⟨-, -, it, hi, he, -⟩ := hp
        rw [Stmt.carries, he, hitem it hi]
      | some old =>
        obtain ⟨-, it, hi, he, -⟩ := hp
        rw [Stmt.carries, he, hitem it hi]
    | recordSubmitter => cases hrow
    | _ => exact hp.elim
  · rintro id q rfl
    cases hrow

/-- No statement of any actor changes the document of a finished job. -/
theorem allowed_absorbs (ha : g.Allows s st) (h : st.exec env.now w.batch = .ok (some b))
    (hterm : ¬ w.batch.row.NonTerminal) :
    b.row.status = w.batch.row.status := by
  have hopen : ∀ old : BatchStatusInfo, old.Open → w.batch.row.status ≠ old := by
    rintro _ ho rfl
    exact hterm ho
  rcases Stmt.exec_terminal h hterm with hrow | ⟨x, rfl⟩ | ⟨x, old, rfl, hold⟩ | ⟨fin, rfl, hfin⟩
  · rw [hrow]
  · cases hg : g.claim with
    | none => cases g <;> simp_all [Actor.Allows, Actor.claim]
    | some pt =>
      rw [Actor.allows_claim hg] at ha
      have he := permits_epoch hw hh ht hg ha rfl h
      exact absurd (ht.live _ _ hg ha.1 he) hterm
  · cases hg : g.claim with
    | none =>
      cases g <;> simp only [Actor.claim, reduceCtorEq] at hg <;>
        simp only [Actor.Allows, reduceCtorEq, false_or, exists_const, or_false, false_and, exists_false,
          Stmt.dbUpdate.injEq, Option.some.injEq] at ha
      all_goals
        obtain ⟨_, _, ⟨rfl, rfl⟩, ho, -⟩ := ha
        exact absurd hold (hopen _ ho)
    | some pt =>
      rw [Actor.allows_claim hg] at ha
      obtain ⟨-, it, hi, -, hd, hv, -⟩ := ha
      exact absurd hold (hopen old (ht.vouched hg hi hd hv))
  · cases hg : g.claim with
    | none =>
      cases g <;> simp only [Actor.claim, reduceCtorEq] at hg <;>
        simp [Actor.Allows] at ha
    | some pt =>
      rw [Actor.allows_claim hg] at ha
      obtain ⟨it, hi, -, -, -, -, expected, hx, hopen'⟩ := ha
      rw [hfin] at hx
      cases hx
      rcases hopen' with ho | ⟨doc, hd, hs, hv⟩
      · exact absurd ho hterm
      · have := ht.vouched hg hi hd hv
        rw [BatchStatusInfo.Open, hs] at this
        exact absurd this hterm

theorem allowed_ends (ha : g.Allows s st) (h : st.exec env.now w.batch = .ok (some b))
    (ho : w.batch.row.NonTerminal) (hterm : ¬ b.row.NonTerminal)
    (he : b.row.epoch = w.batch.row.epoch) :
    ∃ p task, g.claim = some (p, task) ∧ task.epoch = w.batch.row.epoch := by
  cases hg : g.claim with
  | some pt =>
    refine ⟨pt.1, pt.2, rfl, ?_⟩
    rw [Actor.allows_claim hg] at ha
    refine (permits_epoch hw hh ht hg ha ?_ h).symm
    rcases Stmt.exec_ends h ho hterm he with ⟨_, _, _, rfl, -⟩ | ⟨_, rfl⟩ <;> rfl
  | none =>
    rcases Stmt.exec_ends h ho hterm he with ⟨x, expected, doc, rfl, hb, hx, hd⟩ | ⟨fin, rfl⟩
    · cases g <;> simp only [Actor.claim, reduceCtorEq] at hg <;>
        simp only [Actor.Allows, reduceCtorEq, false_or, exists_const, or_false, false_and,
          exists_false, Stmt.dbUpdate.injEq] at ha
      · obtain ⟨_, _, ⟨rfl, rfl⟩, -, -, doc', hdoc', hs⟩ := ha
        rw [hx] at hdoc'
        cases hdoc'
        rw [hs] at hd
        cases hd
      · obtain ⟨_, _, ⟨rfl, rfl⟩, -, hb', -⟩ := ha
        rw [hb] at hb'
        cases hb'
    · cases g <;> simp only [Actor.claim, reduceCtorEq] at hg <;>
        simp [Actor.Allows] at ha

theorem allowed_own {gr : String × Int} (ha : g.Allows s st) (hgr : g.grant = some gr)
    (hrow : st.WritesRow = true) (h : st.exec env.now w.batch = .ok (some b)) :
    w.batch.row.processorID = some gr.1 ∧ (gr.1, w.batch.row.epoch) ∈ w.grants := by
  obtain ⟨hpos, -, howner⟩ := hw.grants gr (hh gr hgr)
  suffices hepoch : w.batch.row.epoch = gr.2 by
    refine ⟨howner hepoch, ?_⟩
    rw [hepoch]
    exact hh gr hgr
  cases hg : g.claim with
  | some pt =>
    cases (Actor.grant_of_claim hg).symm.trans hgr
    rw [Actor.allows_claim hg] at ha
    exact permits_epoch hw hh ht hg ha hrow h
  | none =>
    cases g with
    | renewal p item =>
      cases hgr
      obtain ⟨ttl, rfl⟩ := ha
      exact Stmt.epoch_of_exec h (by simp) rfl (by simp)
    | request p item work =>
      cases hgr
      rcases ha with ⟨r, rfl⟩ | ⟨r, result, rfl, -⟩ | ⟨counts, rfl⟩
      · cases hrow
      · cases hrow
      · exact Stmt.epoch_of_exec h (by simp) rfl (by simp)
    | poll | recovery => cases hg
    | cancel | reconcile => cases hgr

end

theorem Granted.exec (hw : Granted w) (h : st.exec env.now w.batch = .ok (some b)) :
    Granted { w with batch := b } := by
  obtain ⟨hle, hchange⟩ := Stmt.epoch_exec h
  refine ⟨hw.epoch.trans hle, fun gr hgr => ?_, hw.background⟩
  obtain ⟨hpos, hgle, howner⟩ := hw.grants gr hgr
  refine ⟨hpos, hgle.trans hle, fun he => ?_⟩
  dsimp only at he ⊢
  have hsame : b.row.processorID = w.batch.row.processorID := by
    by_contra hne
    have := hchange hne
    omega
  rw [hsame]
  exact howner (by omega)

theorem Tracks.exec {r : Except Err Bool} (ht : Tracks g s w)
    (h : st.exec env.now w.batch = .ok (some b)) (hr : r ≠ .ok false) :
    Tracks g (s.afterStmt st r) { w with batch := b } := by
  have hle := (Stmt.epoch_exec h).1
  have hspec := Stmt.specDecodes_exec h
  have hstep : s.afterStmt st r = if st.Ends then { s with live := false } else s := by
    unfold Held.afterStmt
    split
    · exact absurd rfl hr
    · rfl
  rw [hstep]
  have hbase : ∀ live, (∀ p task, g.claim = some (p, task) → live = true →
      b.row.epoch = task.epoch → b.row.NonTerminal) →
      Tracks g { s with live := live } { w with batch := b } := fun live hlive =>
    ⟨fun p task hg => (ht.epoch p task hg).trans hle, hlive, ht.item,
      fun it hit => (ht.copies it hit).trans hspec.symm⟩
  split
  · exact hbase false fun _ _ _ hl => by cases hl
  next hends =>
    refine hbase s.live fun p task hg hl he => ?_
    have hge := ht.epoch p task hg
    by_contra hterm
    have ho := ht.live p task hg hl (by omega)
    rcases Stmt.exec_ends h ho hterm (by omega) with ⟨x, _, doc, rfl, -, hx, hd⟩ | ⟨fin, rfl⟩
    · exact hends (by simp [Stmt.Ends, hx, hd])
    · exact hends rfl

theorem rightful_refl (hown : ∀ gr st b, g.grant = some gr → c = .exec st →
    st.WritesRow = true → st.exec env.now w.batch = .ok (some b) →
      w.batch.row.processorID = some gr.1 ∧ (gr.1, w.batch.row.epoch) ∈ w.grants)
    (hb : w'.batch = w.batch) (hgr : w'.grants = w.grants) : Rightful g env c w w' := by
  refine ⟨hgr, ?_, ?_, fun _ => ?_, fun ho ht => ?_, hown⟩ <;> rw [hb] at *
  exact absurd ho ht

/-- One statement of an actor that keeps to its discipline. -/
theorem exec_step {r : Except Err Bool} (hw : Granted w) (hh : Holds g w) (ht : Tracks g s w)
    (ha : g.Allows s st) (hp : w.execStmt env st = (w', r)) :
    Granted w' ∧ Rightful g env (.exec st) w w' ∧ Tracks g (s.afterStmt st r) w' := by
  have hown : ∀ gr st' b, g.grant = some gr → Call.exec st = .exec st' → st'.WritesRow = true →
      st'.exec env.now w.batch = .ok (some b) →
        w.batch.row.processorID = some gr.1 ∧ (gr.1, w.batch.row.epoch) ∈ w.grants := by
    rintro gr st' b hgr heq hrow h
    cases heq
    exact allowed_own hw hh ht ha hgr hrow h
  rcases World.execStmt_cases hp with ⟨rfl, -⟩ | ⟨b, hb, rfl, hr⟩
  · exact ⟨hw, rightful_refl hown rfl rfl, ht.afterStmt r⟩
  · have hne : r ≠ .ok false := by rcases hr with rfl | rfl <;> nofun
    exact ⟨hw.exec hb, ⟨rfl, (Stmt.epoch_exec hb).1, Stmt.specDecodes_exec hb,
      allowed_absorbs hw hh ht ha hb, allowed_ends hw hh ht ha hb, hown⟩, ht.exec hb hne⟩

/-- A call that leaves the batch alone. -/
theorem frame_step {r : c.Resp} (hw : Granted w) (ht : Tracks g s w) (hexec : ∀ st, c ≠ .exec st)
    (hgo : ∀ b, c = .go b → b.grant ∈ w.grants) (hp : w.perform env c = some (w', r)) :
    Granted w' ∧ Rightful g env c w w' ∧ Tracks g s w' := by
  have hb : w'.batch = w.batch := by
    rcases World.batch_perform hp with hb | ⟨st, _, rfl, -⟩
    · exact hb
    · exact absurd rfl (hexec st)
  obtain ⟨hgr, hback⟩ := World.frame_perform hp
  refine ⟨⟨?_, ?_, ?_⟩, rightful_refl (fun _ st _ _ hc => absurd hc (hexec st)) hb hgr, ?_⟩
  · rw [hb]
    exact hw.epoch
  · rw [hb, hgr]
    exact hw.grants
  · rw [hgr]
    rcases hback with hback | ⟨b, hc, -, hback⟩ <;> rw [hback]
    · exact hw.background
    · rintro b' (_ | ⟨_, hmem⟩)
      · exact hgo b hc
      · exact hw.background b' hmem
  · exact ⟨hb ▸ ht.epoch, hb ▸ ht.live, ht.item, fun it hit => hb ▸ ht.copies it hit⟩

/-- What a claim re-read returns under the reader's own grant. -/
theorem Tracks.afterFetch {id : String} {r : Except Err (Option BatchItem)} (ht : Tracks g s w)
    (hown : env.fault = .none → ∀ gr ∈ g.grant,
      w.batch.row.processorID = some gr.1 ∧ w.batch.row.epoch = gr.2)
    (hr : World.read env (if w.batch.row.id = id then some w.batch.row.toItem else none) = r) :
    Tracks g (s.afterFetch r) w := by
  unfold World.read at hr
  split at hr
  next hf =>
    split at hr <;> subst hr
    · refine ⟨ht.epoch, fun p task hg hl he => ?_, ?_, ?_⟩
      · simp only [Held.afterFetch, Bool.or_eq_true] at hl
        rcases hl with hl | hl
        · exact ht.live p task hg hl he
        · simpa [BatchRow.toItem, BatchRow.NonTerminal] using hl
      · rintro p task hg it ⟨⟩
        obtain ⟨howner, hepoch⟩ := hown hf _ (Actor.grant_of_claim hg)
        refine ⟨hepoch, by simp [BatchRow.toItem, howner], fun hsure doc hd => ?_⟩
        cases hd
        exact ht.live p task hg hsure hepoch
      · rintro it ⟨⟩
        rfl
    · exact ht
  · subst hr
    exact ht

theorem Announces.issued {b : Background} (hh : Holds g w) (ht : Tracks g s w)
    (ha : g.Announces s b) : b.grant ∈ w.grants := by
  cases g with
  | poll p task =>
    obtain ⟨it, hi, hb⟩ := ha
    rw [hb, (ht.item p task rfl it hi).1]
    exact hh _ rfl
  | _ => exact ha.elim

/-- One call of an actor that keeps to its discipline. -/
theorem call_step {r : c.Resp} (hw : Granted w) (hh : Holds g w) (ht : Tracks g s w)
    (ha : g.conduct.allow s c) (hc : OwnReread w env g c) (hp : w.perform env c = some (w', r)) :
    Granted w' ∧ Rightful g env c w w' ∧ Tracks g (g.conduct.next s c r) w' := by
  cases c with
  | exec st => exact exec_step hw hh ht ha (Option.some.inj hp)
  | fetch site id =>
    obtain ⟨hw', hr, ht'⟩ := frame_step hw ht (by simp) (by simp) hp
    cases hp
    refine ⟨hw', hr, ?_⟩
    cases site with
    | polling => exact ht.afterFetch hc rfl
    | recovery => exact ht.afterFetch hc rfl
    | refresh => exact ht'
    | apiserver => exact ht'
  | go b =>
    refine frame_step hw ht (by simp) ?_ hp
    rintro _ ⟨⟩
    exact Announces.issued hh ht ha
  | _ => exact frame_step hw ht (by simp) (by simp) hp

/-! ### Runs -/

theorem ownership_safe (hw : Granted w) (hh : Holds g w) (ht : Tracks g {} w) :
    (ownership lib).Safe g (fun _ _ => True) (g.code lib) w :=
  ((Protocol.triple_of_obeys (fun _ => stable_tracks)
    (fun _ _ _ _ _ _ hi hh ht ha hc hp =>
      have ⟨hi', hg, ht'⟩ := call_step hi hh ht ha hc hp
      ⟨hi', hg, answer_of_perform ht.copies hp, ht'⟩)
    (code_obeys lib g)).post fun _ _ _ _ _ => trivial) w hw hh ht

/-- A new thread knows what its claim found. -/
theorem tracks_of_start (h : g.start env w = some w') : Tracks g {} w' := by
  refine tracks_start fun p task hg => ?_
  rcases Actor.start_cases h with ⟨p', task', hg', hcl⟩ | ⟨hg', -⟩
  · cases hg.symm.trans hg'
    rw [BatchRow.NonTerminal, hcl.status]
    exact ⟨hcl.epoch'.ge, hcl.unfinished⟩
  · cases hg.symm.trans hg'

theorem ownership_starts (lib : Stdlib) : (ownership lib).Starts fun _ _ _ => True := by
  intro env g w w' hw hstart
  rcases Actor.start_cases hstart with ⟨p, task, hg, hcl⟩ | ⟨hg, rfl, hback⟩
  · have hold : ∀ gr ∈ w.grants, gr ∈ w'.grants := fun gr hgr => by
      rw [hcl.grants]
      exact List.mem_cons_of_mem _ hgr
    have hepoch : w'.batch.row.epoch = w.batch.row.epoch + 1 := hcl.epoch'.trans hcl.epoch
    have hw' : Granted w' := by
      have := hw.epoch
      have := hcl.epoch
      refine ⟨by omega, fun gr hgr => ?_, fun b hb => ?_⟩
      · rw [hcl.grants] at hgr
        rcases List.mem_cons.1 hgr with rfl | hgr
        · exact ⟨by dsimp only; omega, hcl.epoch'.ge, fun _ => hcl.owner⟩
        · obtain ⟨hpos, hle, -⟩ := hw.grants gr hgr
          exact ⟨hpos, by omega, fun he => by omega⟩
      · rw [hcl.background] at hb
        exact hold _ (hw.background b hb)
    have hh : Holds g w' := by
      rintro gr hgr
      cases (Actor.grant_of_claim hg).symm.trans hgr
      rw [hcl.grants]
      exact List.mem_cons_self
    refine ⟨hw', hh, ownership_safe hw' hh (tracks_of_start hstart), fun g' hh' => ?_⟩
    · have hlt : ∀ p' task', g'.claim = some (p', task') → task'.epoch < task.epoch :=
        fun p' task' hg' => by
          have := (hh'.epoch_le hw hg').2.1
          have := hcl.epoch
          omega
      refine ⟨fun p₁ task₁ p₂ task₂ hg₁ hg₂ => ?_, fun p₁ task₁ p₂ task₂ hg₁ hg₂ => ?_,
        ⟨hold, by omega, hcl.spec, fun p' task' hg' hle he _ => by omega⟩,
        fun gr hgr => hold gr (hh' gr hgr)⟩
      · cases hg.symm.trans hg₁
        exact (hlt p₂ task₂ hg₂).ne'
      · cases hg.symm.trans hg₂
        exact (hlt p₁ task₁ hg₁).ne
  · have hh : Holds g w' := by
      rintro gr hgr
      obtain ⟨b, hb, rfl⟩ := hback gr hgr
      exact hw.background b hb
    have hnone : ∀ p task, g.claim ≠ some (p, task) := by simp [hg]
    exact ⟨hw, hh, ownership_safe hw hh (tracks_of_start hstart), fun g' hh' =>
      ⟨fun p task _ _ h => absurd h (hnone p task), fun _ _ p task _ h => absurd h (hnone p task),
        (ownership lib).rely_refl g' w', hh'⟩⟩

theorem granted_initial {row : BatchRow} (hrow : row.Fresh) : Granted (initial w row).world where
  epoch := hrow.2.2.2.1.ge
  grants _ h := by cases h
  background _ h := by cases h

theorem ownership_initial {row : BatchRow} (hrow : row.Fresh) :
    (ownership lib).Ok (fun _ _ _ => True) (initial w row) :=
  Protocol.ok_empty (granted_initial hrow)

theorem ownership_step (pool : GatewayPool) (l : Label Env Actor) (pool' : GatewayPool)
    (h : (ownership lib).Ok (fun _ _ _ => True) pool) (hc : StepCond OwnReread pool l)
    (hs : (gateway lib).step pool l = some pool') : (ownership lib).Ok (fun _ _ _ => True) pool' :=
  Protocol.ok_step (ownership_starts lib) h hc hs

/-- As long as every claim re-read finds the row under the claim's own grant, processors write the
row under their own grants only. -/
theorem processor_writes_own_grant (lib : Stdlib) (w : World) {row : BatchRow} (hrow : row.Fresh)
    {ls : List (Label Env Actor)}
    (hc : Along (gateway lib).step (StepCond OwnReread) (initial w row) ls) :
    Along (gateway lib).step (StepCond WritesOwn) (initial w row) ls := by
  refine along_of_invariant ownership_step (fun pool l hok _ => ?_) hc (ownership_initial hrow)
  cases l with
  | run i env =>
    rintro g (_ | st | _) k hi <;> try exact trivial
    intro gr hgr hrow' hcommit
    obtain ⟨b, hb⟩ := World.exec_of_commits hcommit
    exact (hok.call hi trivial rfl).2.1.own gr st b hgr rfl hrow' hb
  | _ => exact trivial

/-- `p` dequeues the batch, crashes and claims it at startup; before it re-reads the row, the
reconciler re-enqueues it and `q` dequeues it. -/
def staleRecovery : List (Label Env Actor) :=
  [.spawn {} (.poll (sampleProcessor "p") (sampleTask "p" 1)), .crash 0,
   .spawn {} (.recovery (sampleProcessor "p") (sampleClaim 2)),
   .spawn {} (.reconcile {})] ++ steps 2 4 ++
  [.spawn {} (.poll (sampleProcessor "q") (sampleTask "q" 4))] ++ steps 1 3

theorem staleRecovery_writes_foreign_row :
    ¬ Along (gateway .sample).step (StepCond WritesOwn) sampleInitial staleRecovery := by
  decide +kernel

/-- The same recovery without interference puts the batch back into the queue. -/
def promptRecovery : List (Label Env Actor) :=
  [.spawn {} (.poll (sampleProcessor "p") (sampleTask "p" 1)), .crash 0,
   .spawn {} (.recovery (sampleProcessor "p") (sampleClaim 2))] ++ steps 1 3

theorem promptRecovery_writes_own_grant :
    (exec (gateway .sample).step sampleInitial promptRecovery).any
      (fun pool => pool.world.batch.row.processorID = none ∧ pool.world.batch.row.epoch = 3) ∧
    Along (gateway .sample).step (StepCond WritesOwn) sampleInitial promptRecovery :=
  ⟨by decide +kernel, processor_writes_own_grant .sample _ (by decide) (by decide +kernel)⟩

/-- As long as every claim re-read finds the row under the claim's own grant, nobody changes the
status document of a finished job. -/
theorem terminal_absorption (lib : Stdlib) (w : World) {row : BatchRow} (hrow : row.Fresh)
    {ls : List (Label Env Actor)}
    (hc : Along (gateway lib).step (StepCond OwnReread) (initial w row) ls) :
    Along (gateway lib).step (Absorbs lib) (initial w row) ls := by
  refine along_of_invariant ownership_step (fun pool l hok hl => ?_) hc (ownership_initial hrow)
  intro hterm pool' hs
  rcases (gateway lib).step_cases hs with ⟨env, g, w', hstart⟩ | ⟨i, env, g, c, k, w', r, hi, hp⟩ |
    ⟨i, g, m, hi⟩
  · rcases Actor.start_cases hstart with ⟨p, task, -, hcl⟩ | ⟨-, rfl, -⟩
    · exact hcl.status
    · rfl
  · exact (hok.call hi (hl g c k hi) hp).2.1.absorbs hterm
  · rfl

/-- `p` dequeues the batch; before it re-reads the row, the reconciler fails the expired batch. -/
def stalePickup : List (Label Env Actor) :=
  [.spawn {} (.poll (sampleProcessor "p") (sampleTask "p" 1)), .spawn {} (.reconcile {})] ++
    steps 1 2 ++ steps 1 3 { now := 2000 } ++ steps 0 4 { now := 2000 }

theorem stalePickup_overwrites_failed :
    ¬ Along (gateway .sample).step (Absorbs .sample) sampleInitial stalePickup := by
  decide +kernel

/-- A pickup that re-read its row in time: the reconciler fails the batch afterwards, and the
expiry write of `p` is refused. -/
def promptPickup : List (Label Env Actor) :=
  [.spawn {} (.poll (sampleProcessor "p") (sampleTask "p" 1)), .run 0 {},
    .spawn {} (.reconcile {})] ++
    steps 1 2 ++ steps 1 3 { now := 2000 } ++ steps 0 3 { now := 2000 }

theorem promptPickup_keeps_failed :
    (exec (gateway .sample).step sampleInitial promptPickup).any
      (fun pool => pool.world.batch.row.status.status = .failed) ∧
    Along (gateway .sample).step (Absorbs .sample) sampleInitial promptPickup :=
  ⟨by decide +kernel, terminal_absorption .sample _ (by decide) (by decide +kernel)⟩

end BatchGateway
