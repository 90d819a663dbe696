import BatchGateway.Gateway.Cancelling
import BatchGateway.Gateway.Ledger
import BatchGateway.Gateway.Ownership

/-! No lifecycle timestamp is lost, as long as every claim re-read finds the row under the claim's
own grant and nobody cancels a batch that has an owner. -/
namespace BatchGateway

open Interleaving Prog BatchStatusInfo

variable {lib : Stdlib} {w w' : World} {env : Env} {g g' : Actor} {s : Held} {k : Ledger} {st : Stmt}
  {p : Processor} {task : BatchJobPriority}

/-- Reads of the row succeed, a claim re-read finds the row under the reader's grant, and a
cancellation is committed only while the batch has no owner. -/
def Unhindered (w : World) (env : Env) (g : Actor) : Call → Prop
  | .fetch site id => env.fault = .none ∧ OwnReread w env g (.fetch site id)
  | .exec (.dbUpdate x (some old)) => g.heralds = true →
      w.commits env (.dbUpdate x (some old)) = true → w.batch.row.processorID = none
  | _ => True

instance : (c : Call) → Decidable (Unhindered w env g c)
  | .fetch _ _ => inferInstanceAs (Decidable (_ ∧ _))
  | .exec (.dbUpdate _ (some _)) => inferInstanceAs (Decidable (_ → _ → _))
  | .exec (.dbUpdate _ none) | .exec (.pqEnqueue _) | .exec (.pqDequeue ..)
  | .exec (.pqClaimOwned _) | .exec (.pqDelete _) | .exec (.activate _) | .exec (.renew ..)
  | .exec (.requeue ..) | .exec (.recordSubmitter ..) | .exec (.finalize _) | .exec (.mark ..)
  | .exec (.checkpoint ..) | .exec (.updateProgress ..) | .ask | .fetchOwned
  | .committedStatus _ | .entryStatus .. | .findEntry .. | .listEntries .. | .store ..
  | .retrieve _ | .delete _ | .deleteDir _ | .openStream _ | .writeStream _ | .commitStream ..
  | .retrieveArtifact .. | .ensureFileRecord _ | .eventChannel | .sendCancelEvent | .go _ =>
    isTrue trivial

theorem Unhindered.ownReread {c : Call} (h : Unhindered w env g c) : OwnReread w env g c := by
  cases c with
  | fetch site id => exact h.2
  | _ => trivial

/-! ### The protocol -/

/-- The thread's copy has every timestamp of the row while the row is at the thread's epoch. -/
structure Bounds (g : Actor) (k : Ledger) (w : World) : Prop where
  id : ∀ i ∈ k.id, w.batch.row.id = i
  known : ∀ p task, g.claim = some (p, task) → w.batch.row.epoch = task.epoch →
    ∀ d ∈ k.known, w.batch.row.status.Within d

/-- What every call does to the timestamps: it takes none away, and only the owner sets one in an
owned row without moving the epoch. -/
structure Stamps (g : Actor) (w w' : World) : Prop where
  id : w'.batch.row.id = w.batch.row.id
  within : w.batch.row.status.Within w'.batch.row.status
  owner : w'.batch.row.epoch = w.batch.row.epoch → w.batch.row.processorID ≠ none →
    w'.batch.row.status.Within w.batch.row.status ∨
      ∃ p task, g.claim = some (p, task) ∧ task.epoch = w.batch.row.epoch

/-- What a thread can rely on: nobody else sets a timestamp at its epoch. -/
structure Unstamped (g : Actor) (w w' : World) : Prop where
  id : w'.batch.row.id = w.batch.row.id
  within : ∀ p task, g.claim = some (p, task) → task.epoch ≤ w.batch.row.epoch →
    w'.batch.row.epoch = task.epoch → w'.batch.row.status.Within w.batch.row.status

theorem Unstamped.refl : Unstamped g w w := ⟨rfl, fun _ _ _ _ _ => .refl _⟩

theorem Unstamped.trans {w₁ w₂ w₃ : World} (hu : Undisputed g w₁ w₂) (hu' : Undisputed g w₂ w₃)
    (h : Unstamped g w₁ w₂) (h' : Unstamped g w₂ w₃) : Unstamped g w₁ w₃ where
  id := h'.id.trans h.id
  within p task hg hle he := by
    have := hu.epoch
    have := hu'.epoch
    exact (h'.within p task hg (by omega) he).trans (h.within p task hg hle (by omega))

theorem Stamps.unstamped {c : Call} (hw : Granted w) (hr : Rival g g') (hh : Holds g' w)
    (hright : Rightful g env c w w') (h : Stamps g w w') : Unstamped g' w w' where
  id := h.id
  within p' task' hg' hle he := by
    have hepoch := hright.epoch
    have howner := (hh.epoch_le hw hg').2.2 (by omega)
    rcases h.owner (by omega) (by simp [howner]) with hwithin | ⟨p, task, hg, htask⟩
    · exact hwithin
    · exact absurd (by omega) (hr p task p' task' hg hg')

/-- The protocol of ownership together with the timestamps. -/
def timestamping (lib : Stdlib) : Protocol (gateway lib) where
  inv := Granted
  holds := Holds
  rely g w w' := Undisputed g w w' ∧ Unstamped g w w'
  guar g env c w w' := Rightful g env c w w' ∧ Stamps g w w'
  peer := Rival
  cond := Unhindered
  rely_refl g w := ⟨(ownership lib).rely_refl g w, .refl⟩
  rely_trans _ _ _ _ h h' := ⟨h.1.trans h'.1, h.2.trans h.1 h'.1 h'.2⟩
  guar_holds g env c w w' hw hh h := (ownership lib).guar_holds g env c w w' hw hh h.1
  guar_rely g g' env c w w' hw hr hh hh' h :=
    have ⟨hu, hh''⟩ := (ownership lib).guar_rely g g' env c w w' hw hr hh hh' h.1
    ⟨⟨hu, h.2.unstamped hw hr hh' h.1⟩, hh''⟩

theorem stable_bounds : (timestamping lib).Stable g fun w => Tracks g s w ∧ Bounds g k w := by
  intro w w' hw hh hr ht
  have hstable : (ownership lib).Stable g (Tracks g s) := stable_tracks
  refine ⟨hstable w w' hw hh hr.1 ht.1, fun i hi => ?_, fun p task hg he d hd => ?_⟩
  · exact hr.2.id.trans (ht.2.id i hi)
  · have hle := ht.1.epoch p task hg
    have hepoch := hr.1.epoch
    exact (hr.2.within p task hg hle he).trans (ht.2.known p task hg (by omega) d hd)

/-! ### Statements -/

variable {now : Time} {b b' : BatchState}

/-- The statements that do not replace the document keep its timestamps. -/
theorem stamps_exec (h : st.exec now b = .ok (some b'))
    (hdb : ∀ x expected, st ≠ .dbUpdate x expected) (hfin : ∀ fin, st ≠ .finalize fin) :
    b.row.status.Within b'.row.status ∧
    ((∃ a, st = .activate a) ∨ b'.row.epoch ≠ b.row.epoch ∨
      b'.row.status.Within b.row.status) := by
  cases st with
  | dbUpdate x expected => exact absurd rfl (hdb x expected)
  | finalize fin => exact absurd rfl (hfin fin)
  | activate a =>
    obtain ⟨-, hrow, -⟩ := activateStmt_some h
    refine ⟨?_, .inl ⟨a, rfl⟩⟩
    rw [hrow]
    intro x hx
    cases x <;> first | exact hx | rfl
  | pqDelete id =>
    obtain ⟨-, rfl⟩ := Stmt.of_matched h
    refine ⟨fun x hx => ?_, .inr (.inl ?_)⟩
    · cases x <;> first | exact hx | rfl
    · dsimp only
      omega
  | _ =>
    obtain ⟨-, rfl⟩ := Stmt.of_matched h
    exact ⟨within_of_eq fun x => by cases x <;> rfl,
      .inr (.inr (within_of_eq fun x => by cases x <;> rfl))⟩

theorem dbUpdate_some {x : BatchItem} {expected : Option BatchStatusInfo}
    (h : (Stmt.dbUpdate x expected).exec now b = .ok (some b')) :
    (∀ old ∈ expected, b.row.status = old) ∧ b'.row.status = x.status.getD b.row.status ∧
      (x.bumpEpoch = true → b'.row.epoch ≠ b.row.epoch) := by
  obtain ⟨⟨-, hold, -⟩, rfl⟩ := Stmt.of_matched h
  refine ⟨hold, rfl, fun hbump => ?_⟩
  simp only [hbump, if_true]
  omega

theorem finalize_some {fin : ResumableFinalization}
    (h : (Stmt.finalize fin).exec now b = .ok (some b')) : b'.row.status = fin.status := by
  obtain ⟨-, rfl⟩ := Stmt.of_matched h
  rfl

/-- The owner's document has every timestamp of the one that it replaces. -/
theorem permitted_within (hw : Granted w) (hh : Holds g w) (ht : Tracks g s w) (hb : Bounds g k w)
    (ha : g.Allows s st) (hp : k.Permits st) (h : st.exec env.now w.batch = .ok (some b)) :
    w.batch.row.status.Within b.row.status := by
  have hclaim : ∀ p task, g.claim = some (p, task) → st.WritesRow = true →
      ∀ d ∈ k.known, w.batch.row.status.Within d := fun p task hg hrow => by
    rw [Actor.allows_claim hg] at ha
    exact hb.known p task hg (permits_epoch hw hh ht hg ha hrow h)
  cases st with
  | dbUpdate x expected =>
    obtain ⟨hold, hdoc, -⟩ := dbUpdate_some h
    rw [hdoc]
    cases expected with
    | some old =>
      cases hx : x.status with
      | none => exact .refl _
      | some doc =>
        rw [hold old rfl]
        exact hp doc hx
    | none =>
      obtain ⟨d, hd, doc, hx, hwithin⟩ := hp
      cases hg : g.claim with
      | some pt =>
        rw [Option.mem_def.1 hx]
        exact (hclaim _ _ hg rfl d hd).trans hwithin
      | none => cases g <;> simp_all [Actor.Allows, Actor.claim]
  | finalize fin =>
    rw [finalize_some h]
    obtain ⟨d, hd, hwithin⟩ := hp
    cases hg : g.claim with
    | some pt => exact (hclaim _ _ hg rfl d hd).trans hwithin
    | none => cases g <;> simp_all [Actor.Allows, Actor.claim]
  | _ => exact (stamps_exec h (by simp) (by simp)).1

/-- Who sets a timestamp in an owned row without moving the epoch is the owner. -/
theorem permitted_owner (hw : Granted w) (hh : Holds g w) (ht : Tracks g s w) (ha : g.Allows s st)
    (hcommit : w.commits env st = true) (hc : Unhindered w env g (.exec st))
    (h : st.exec env.now w.batch = .ok (some b)) (he : b.row.epoch = w.batch.row.epoch)
    (howned : w.batch.row.processorID ≠ none) :
    b.row.status.Within w.batch.row.status ∨
      ∃ p task, g.claim = some (p, task) ∧ task.epoch = w.batch.row.epoch := by
  cases hg : g.claim with
  | some pt =>
    rw [Actor.allows_claim hg] at ha
    by_cases hrow : st.WritesRow = true
    · exact .inr ⟨pt.1, pt.2, rfl, (permits_epoch hw hh ht hg ha hrow h).symm⟩
    · rcases stamps_exec h (by rintro _ _ rfl; exact hrow rfl) (by rintro _ rfl; exact hrow rfl) with
        ⟨-, ⟨a, rfl⟩ | hne | hwithin⟩
      · exact absurd rfl hrow
      · exact absurd he hne
      · exact .inl hwithin
  | none =>
    by_cases hdb : ∃ x expected, st = .dbUpdate x expected
    · obtain ⟨x, expected, rfl⟩ := hdb
      exfalso
      cases g with
      | cancel id =>
        rcases ha with h | ⟨x, old, heq, -⟩
        · cases h
        · cases heq
          exact howned (hc rfl hcommit)
      | reconcile r =>
        simp only [Actor.Allows, reduceCtorEq, exists_const, false_or, false_and, exists_false,
          Stmt.dbUpdate.injEq] at ha
        obtain ⟨_, _, ⟨rfl, rfl⟩, -, hbump, -⟩ := ha
        exact (dbUpdate_some h).2.2 hbump he
      | _ => simp_all [Actor.Allows, Actor.claim]
    · have hfin : ∀ fin, st ≠ .finalize fin := by
        rintro fin rfl
        cases g <;> simp_all [Actor.Allows, Actor.claim]
      have hact : ∀ a, st ≠ .activate a := by
        rintro a rfl
        cases g <;> simp_all [Actor.Allows, Actor.claim]
      rcases stamps_exec h (fun x e heq => hdb ⟨x, e, heq⟩) hfin with ⟨-, ⟨a, ha⟩ | hne | hwithin⟩
      · exact absurd ha (hact a)
      · exact absurd he hne
      · exact .inl hwithin

/-- The thread's copy after a statement that was executed. -/
theorem Bounds.exec {r : Except Err Bool} (ht : Tracks g s w) (hb : Bounds g k w)
    (h : st.exec env.now w.batch = .ok (some b)) (hr : r ≠ .ok false) :
    Bounds g (k.afterStmt st r) { w with batch := b } := by
  have hafter : ∀ written, k.afterWrite written r = { k with known := written } := fun written => by
    unfold Ledger.afterWrite
    split
    · exact absurd rfl hr
    · rfl
  have hid : (k.afterStmt st r).id = k.id := by
    cases st with
    | dbUpdate x expected => cases expected <;> simp only [Ledger.afterStmt, hafter]
    | activate | finalize => simp only [Ledger.afterStmt, hafter]
    | _ => rfl
  refine ⟨fun i hi => (Stmt.id_exec h).trans (hb.id i (hid ▸ hi)), fun p task hg he d hd => ?_⟩
  have hkeep (hk : k.afterStmt st r = k) (hdb : ∀ x expected, st ≠ .dbUpdate x expected)
      (hfin : ∀ fin, st ≠ .finalize fin) (hact : ∀ a, st ≠ .activate a) :
      b.row.status.Within d := by
    have hle := ht.epoch p task hg
    have hle' := (Stmt.epoch_exec h).1
    rcases (stamps_exec h hdb hfin).2 with ⟨a, ha⟩ | hne | hwithin
    · exact absurd ha (hact a)
    · dsimp only at he
      omega
    · dsimp only at he
      exact hwithin.trans (hb.known p task hg (by omega) d (hk ▸ hd))
  cases st with
  | dbUpdate x expected =>
    cases expected with
    | some old =>
      simp only [Ledger.afterStmt, hafter] at hd
      cases hd
    | none =>
      simp only [Ledger.afterStmt, hafter] at hd
      dsimp only
      rw [(dbUpdate_some h).2.1, Option.mem_def.1 hd]
      exact .refl _
  | activate | finalize =>
    simp only [Ledger.afterStmt, hafter] at hd
    cases hd
  | _ => exact hkeep rfl (by simp) (by simp) (by simp)

theorem Bounds.afterWrite {written : Option BatchStatusInfo} (hb : Bounds g k w)
    (hwritten : ∀ doc ∈ written, ∃ d ∈ k.known, d.Within doc) (r : Except Err Bool) :
    Bounds g (k.afterWrite written r) w := by
  unfold Ledger.afterWrite
  split
  · exact hb
  · refine ⟨hb.id, fun p task hg he doc hdoc => ?_⟩
    obtain ⟨d, hd, hwithin⟩ := hwritten doc hdoc
    exact (hb.known p task hg he d hd).trans hwithin

/-- The thread's copy after a statement that was not executed. -/
theorem Bounds.refused (hb : Bounds g k w) (hp : k.Permits st) (r : Except Err Bool) :
    Bounds g (k.afterStmt st r) w := by
  cases st with
  | dbUpdate x expected =>
    cases expected with
    | some old => exact hb.afterWrite (by simp) r
    | none =>
      refine hb.afterWrite (fun doc hdoc => ?_) r
      obtain ⟨d, hd, doc', hdoc', hwithin⟩ := hp
      cases hdoc.symm.trans hdoc'
      exact ⟨d, hd, hwithin⟩
  | activate | finalize => exact hb.afterWrite (by simp) r
  | _ => exact hb

/-! ### Calls -/

theorem stamps_refl (hb : w'.batch = w.batch) : Stamps g w w' := by
  refine ⟨?_, ?_, fun _ _ => .inl ?_⟩ <;> rw [hb]
  · exact .refl _
  · exact .refl _

theorem stamps_step {r : Except Err Bool} (hw : Granted w) (hh : Holds g w) (ht : Tracks g s w)
    (hb : Bounds g k w) (ha : g.Allows s st) (hp : k.Permits st) (hc : Unhindered w env g (.exec st))
    (he : w.execStmt env st = (w', r)) :
    Stamps g w w' ∧ Bounds g (k.afterStmt st r) w' := by
  by_cases hcommit : w.commits env st = true
  · obtain ⟨b, hexec, hw'⟩ := World.execStmt_of_commits hcommit
    obtain rfl : w' = { w with batch := b } := by rw [← hw', he]
    have hr : r ≠ .ok false := by
      rintro rfl
      cases (World.execStmt_unmatched he).2.symm.trans hexec
    exact ⟨⟨Stmt.id_exec hexec, permitted_within hw hh ht hb ha hp hexec,
      permitted_owner hw hh ht ha hcommit hc hexec⟩, hb.exec ht hexec hr⟩
  · obtain rfl : w' = w := by rw [← World.execStmt_of_not_commits hcommit, he]
    exact ⟨stamps_refl rfl, hb.refused hp r⟩

theorem Bounds.afterReread {r : Except Err (Option BatchItem)} (hb : Bounds g k w)
    (hr : ∀ item, r = .ok (some item) → item = w.batch.row.toItem) :
    Bounds g (k.afterReread r) w := by
  unfold Ledger.afterReread
  split
  next item =>
    cases hr item rfl
    exact ⟨by rintro _ ⟨⟩; rfl, by rintro _ _ - - _ ⟨⟩; exact .refl _⟩
  next => exact hb

theorem Bounds.afterRefresh {r : Except Err (Option BatchItem)} (hb : Bounds g k w)
    (hr : ∀ item, r = .ok (some item) → item = w.batch.row.toItem) :
    Bounds g (k.afterRefresh r) w := by
  unfold Ledger.afterRefresh
  split
  next item =>
    cases hr item rfl
    exact ⟨hb.id, by rintro _ _ - - _ ⟨⟩; exact .refl _⟩
  next => exact hb

/-- One call of a thread that keeps to its discipline. -/
theorem timestamping_step {c : Call} {r : c.Resp} (hw : Granted w) (hh : Holds g w)
    (ht : Tracks g s w) (hb : Bounds g k w) (ha : g.conduct.allow s c) (hl : ledger.allow k c)
    (hc : Unhindered w env g c) (hp : w.perform env c = some (w', r)) :
    Stamps g w w' ∧ ledger.answer k c r ∧ Bounds g (ledger.next k c r) w' := by
  have hframe : (∀ st, c ≠ .exec st) → Stamps g w w' ∧ Bounds g k w' := fun hexec => by
    rcases World.batch_perform hp with hbatch | ⟨st, _, rfl, -⟩
    · exact ⟨stamps_refl hbatch, hbatch ▸ hb.id, hbatch ▸ hb.known⟩
    · exact absurd rfl (hexec st)
  cases c with
  | exec st =>
    obtain ⟨hst, hb'⟩ := stamps_step hw hh ht hb ha hl hc (Option.some.inj hp)
    exact ⟨hst, trivial, hb'⟩
  | fetch site id =>
    have hitem (item : BatchItem) (hr : r = .ok (some item)) := (World.item_of_fetch hp hr).1
    cases hp
    refine ⟨stamps_refl rfl, ?_, ?_⟩
    · cases site with
      | refresh =>
        intro hid
        refine ⟨w.batch.row.toItem, ?_⟩
        change World.read env _ = Except.ok (some w.batch.row.toItem)
        rw [World.read, if_pos hc.1, if_pos (hb.id id hid.symm)]
      | _ => trivial
    · cases site with
      | polling => exact hb.afterReread hitem
      | recovery => exact hb.afterReread hitem
      | refresh => exact hb.afterRefresh hitem
      | apiserver => exact hb
  | _ => exact ⟨(hframe (by simp)).1, trivial, (hframe (by simp)).2⟩

/-! ### Runs -/

theorem timestamping_safe (hw : Granted w) (hh : Holds g w) (ht : Tracks g {} w) :
    (timestamping lib).Safe g (fun _ _ => True) (g.code lib) w := by
  refine ((Protocol.triple_of_obeys (T := fun t : Held × Ledger => fun w =>
    Tracks g t.1 w ∧ Bounds g t.2 w) (fun _ => stable_bounds) ?_
    ((code_obeys lib g).prod (code_ledgered lib g))).post fun _ _ _ _ _ => trivial) w hw hh
      ⟨ht, by simp, by simp⟩
  intro t w env c w' r hi hh htr ha hc hp
  obtain ⟨hi', hright, ht'⟩ := call_step hi hh htr.1 ha.1 hc.ownReread hp
  obtain ⟨hst, hans, hb'⟩ := timestamping_step hi hh htr.1 htr.2 ha.1 ha.2 hc hp
  exact ⟨hi', ⟨hright, hst⟩, ⟨answer_of_perform htr.1.copies hp, hans⟩, ht', hb'⟩

/-- A new thread does not touch the timestamps. -/
theorem stamps_of_start (h : g.start env w = some w') :
    w'.batch.row.id = w.batch.row.id ∧ w'.batch.row.status = w.batch.row.status := by
  rcases Actor.start_cases h with ⟨p, task, -, hcl⟩ | ⟨-, rfl, -⟩
  · exact ⟨hcl.id.1, hcl.status⟩
  · exact ⟨rfl, rfl⟩

theorem timestamping_starts (lib : Stdlib) : (timestamping lib).Starts fun _ _ _ => True := by
  intro env g w w' hw hstart
  obtain ⟨hw', hh, -, hpeers⟩ := ownership_starts lib env g w w' hw hstart
  obtain ⟨hid, hstatus⟩ := stamps_of_start hstart
  refine ⟨hw', hh, timestamping_safe hw' hh (tracks_of_start hstart), fun g' hh' => ?_⟩
  obtain ⟨hr, hr', hu, hh''⟩ := hpeers g' hh'
  refine ⟨hr, hr', ⟨hu, hid, fun _ _ _ _ _ => ?_⟩, hh''⟩
  rw [hstatus]
  exact .refl _

theorem timestamping_within {pool pool' : GatewayPool} {l : Label Env Actor}
    (h : (timestamping lib).Ok (fun _ _ _ => True) pool) (hc : StepCond Unhindered pool l)
    (hs : (gateway lib).step pool l = some pool') :
    pool.world.batch.row.status.Within pool'.world.batch.row.status := by
  rcases (gateway lib).step_cases hs with ⟨env, g, w', hstart⟩ | ⟨i, env, g, c, k, w', r, hi, hp⟩ |
    ⟨i, g, m, hi⟩
  · exact within_of_eq fun x => by rw [← (stamps_of_start hstart).2]
  · exact (h.call hi (hc g c k hi) hp).2.1.2.within
  · exact .refl _

/-- As long as every read succeeds, every claim re-read finds the row under the claim's own grant
and nobody cancels a batch that has an owner, a timestamp that is set once stays set. -/
theorem timestamps_kept (lib : Stdlib) (w : World) {row : BatchRow} (hrow : row.Fresh)
    {ls ls' : List (Label Env Actor)} {pool pool' : GatewayPool}
    (hc : Along (gateway lib).step (StepCond Unhindered) (initial w row) (ls ++ ls'))
    (hp : pool ∈ exec (gateway lib).step (initial w row) ls)
    (hp' : pool' ∈ exec (gateway lib).step pool ls') (x : Stamp)
    (hx : (pool.world.batch.row.status.stamp x).isSome) :
    (pool'.world.batch.row.status.stamp x).isSome := by
  obtain ⟨hc₁, hc₂⟩ := along_append hc hp
  have hstart : (timestamping lib).Ok (fun _ _ _ => True) (initial w row) :=
    Protocol.ok_empty (granted_initial hrow)
  have hok := Protocol.ok_exec (timestamping_starts lib) hstart hc₁ hp
  have hwithin : pool.world.batch.row.status.Within pool'.world.batch.row.status :=
    along_relation (I := (timestamping lib).Ok fun _ _ _ => True)
      (Q := fun u v => u.world.batch.row.status.Within v.world.batch.row.status)
      (fun _ => .refl _) (fun _ _ _ => .trans)
      (fun u l v hu hl hs => ⟨Protocol.ok_step (timestamping_starts lib) hu hl hs,
        timestamping_within hu hl hs⟩) hc₂ hp' hok
  exact hwithin x hx

/-- The job of a batch that was cancelled under its owner writes the terminal document from a copy
without the cancellation. -/
theorem cancellationRun_loses_timestamp :
    ∃ pool ∈ exec (gateway .sample).step sampleInitial timelyCancel,
      (pool.world.batch.row.status.stamp .cancellingAt).isSome ∧
      ∃ pool' ∈ exec (gateway .sample).step pool cancellationRun,
        pool'.world.batch.row.status.status = .cancelled ∧
          pool'.world.batch.row.status.stamp .cancellingAt = none := by
  decide +kernel

/-- The batch is cancelled while it waits in the queue, after its first owner crashed. -/
def unownedCancel : List (Label Env Actor) :=
  activationRun ++ startupRequeue ++
    [.spawn {} (.cancel "batch_1")] ++ steps 2 5

def routedCancel : List (Label Env Actor) :=
  requeuedPickup .cancelling :: steps 3 13 { count := 1 }

theorem routedCancel_keeps_timestamp :
    ∃ pool ∈ exec (gateway .sample).step sampleInitial unownedCancel,
      (pool.world.batch.row.status.stamp .cancellingAt).isSome ∧
      ∃ pool' ∈ exec (gateway .sample).step pool routedCancel,
        pool'.world.batch.row.status.status = .cancelled ∧
          (pool'.world.batch.row.status.stamp .cancellingAt).isSome := by
  obtain ⟨pool, hp, hx, pool', hp', hstatus⟩ :
      ∃ pool ∈ exec (gateway .sample).step sampleInitial unownedCancel,
        (pool.world.batch.row.status.stamp .cancellingAt).isSome ∧
        ∃ pool' ∈ exec (gateway .sample).step pool routedCancel,
          pool'.world.batch.row.status.status = .cancelled := by
    decide +kernel
  exact ⟨pool, hp, hx, pool', hp', hstatus,
    timestamps_kept .sample _ (by decide +kernel) (by decide +kernel) hp hp' .cancellingAt hx⟩

end BatchGateway
