import BatchGateway.Gateway.Cancelling

/-! Cancel events: a job is told of a cancellation only when its batch is no longer waiting or
running. -/
namespace BatchGateway

open Interleaving Prog

variable {lib : Stdlib} {w w' : World} {env : Env} {g : Actor} {st : Stmt} {row row' : BatchRow}
  {pool pool' : GatewayPool} {l : Label Env Actor}

/-! ### Rows -/

/-- Being cancelled or finalized, or finished. -/
def BatchRow.Leaving (row : BatchRow) : Prop :=
  row.status.status ≠ .validating ∧ row.status.status ≠ .inProgress

/-- Running batches are resumable, and waiting ones are not. -/
structure BatchRow.Coherent (row : BatchRow) : Prop where
  running : row.status.status = .inProgress ∨ row.status.status = .finalizing →
    row.resumable = true
  waiting : row.status.status = .validating → row.resumable = false

theorem leaving_of_finished (h : ¬ row.NonTerminal) : row.Leaving := by
  constructor <;> intro hs <;> exact h (by rw [BatchRow.NonTerminal, hs]; rfl)

theorem coherent_of_finished (h : ¬ row.NonTerminal) : row.Coherent := by
  constructor
  · rintro (hs | hs) <;> exact absurd (by rw [BatchRow.NonTerminal, hs]; rfl) h
  · exact fun hs => absurd hs (leaving_of_finished h).1

theorem Transition.coherent (h : Transition g row row' st) (hc : row.Coherent) : row'.Coherent := by
  cases h with
  | kept hs hr => exact ⟨hs ▸ hr ▸ hc.running, hs ▸ hr ▸ hc.waiting⟩
  | requeued hs hr hr' =>
    refine ⟨fun _ => hr', fun hv => ?_⟩
    rw [hs] at hv
    exact absurd (hr.symm.trans (hc.waiting hv)) (by decide)
  | enqueued _ _ _ _ hv hr => exact ⟨by simp [hv], fun _ => hr⟩
  | activated _ _ hs hr => exact ⟨fun _ => hr, by simp [hs]⟩
  | finalizing _ _ _ hr _ hs => exact ⟨fun _ => hr, by simp [hs]⟩
  | cancelling _ hs => exact ⟨by simp [hs], by simp [hs]⟩
  | deleted _ _ _ _ hs => exact ⟨by simp [hs], by simp [hs]⟩
  | finalized _ hf => exact coherent_of_finished hf
  | ended hf => exact coherent_of_finished hf

/-- A batch that is being cancelled or finalized neither runs again nor goes back to the queue. -/
theorem Transition.leaving (h : Transition g w.batch.row row' st) (hc : w.batch.row.Coherent)
    (hr : Remembers g w) (hl : w.batch.row.Leaving) : row'.Leaving := by
  cases h with
  | kept hs => rwa [BatchRow.Leaving, hs]
  | requeued hs => rwa [BatchRow.Leaving, hs]
  | enqueued hres hn he hx _ _ _ hsource =>
    have hcancelling : w.batch.row.status.status = .cancelling := by
      have hnf : w.batch.row.status.status ≠ .finalizing := fun hs =>
        absurd (hres.symm.trans (hc.running (.inr hs))) (by decide)
      revert hn hnf hl
      simp only [BatchRow.NonTerminal, BatchRow.Leaving]
      cases w.batch.row.status.status <;> simp [BatchStatus.isTerminal, BatchStatus.terminalStatuses]
    rcases hsource with hne | ⟨p, hg⟩
    · exact absurd hcancelling hne
    · exact absurd hcancelling (hr.ne_cancelling p hg hres hn he hx)
  | deleted _ _ _ hv => exact absurd hv hl.1
  | activated hv => exact absurd hv hl.1
  | finalized _ hf => exact leaving_of_finished hf
  | ended hf => exact leaving_of_finished hf
  | finalizing _ _ _ _ _ hs => exact ⟨by simp [hs], by simp [hs]⟩
  | cancelling _ hs => exact ⟨by simp [hs], by simp [hs]⟩

/-! ### The cancel request -/

/-- The item shows a batch that is being cancelled. -/
def sawCancelling : Except Err (Option BatchItem) → Bool
  | .ok (some item) => item.status.any (·.status = .cancelling)
  | _ => false

/-- The update made a batch one that is being cancelled. -/
def wroteCancelling (x : BatchItem) : Except Err Bool → Bool
  | .ok true => x.status.any (·.status = .cancelling)
  | _ => false

theorem of_sawCancelling {r : Except Err (Option BatchItem)} (h : sawCancelling r = true) :
    ∃ item doc, r = .ok (some item) ∧ item.status = some doc ∧ doc.status = .cancelling := by
  unfold sawCancelling at h
  split at h
  next item =>
    obtain ⟨doc, hdoc, hs⟩ : ∃ doc, item.status = some doc ∧ doc.status = .cancelling := by
      simpa [Option.any_eq_true] using h
    exact ⟨item, doc, rfl, hdoc, hs⟩
  next => cases h

theorem of_wroteCancelling {x : BatchItem} {r : Except Err Bool} (h : wroteCancelling x r = true) :
    r = .ok true ∧ ∃ doc, x.status = some doc ∧ doc.status = .cancelling := by
  unfold wroteCancelling at h
  split at h
  · exact ⟨rfl, by simpa [Option.any_eq_true] using h⟩
  · cases h

/-- The event is sent only after the request has seen the batch in cancellation. -/
def Actor.herald (g : Actor) : Monitor Bool Call Call.Resp where
  allow seen
    | .sendCancelEvent => g.heralds = true → seen = true
    | _ => True
  answer _ _ _ := True
  next seen
    | .fetch _ _ => fun r => seen || sawCancelling r
    | .exec (.dbUpdate x _) => fun r => seen || wroteCancelling x r
    | _ => fun _ => seen

theorem sendCancelEvent_heralds {id : String} :
    sendCancelEvent.Obeys (Actor.cancel id).herald (fun _ _ => True) true := by
  refine Obeys.lift_bind (fun _ => rfl) fun r _ => ?_
  split <;> exact .ret trivial

theorem markCancelling_heralds {id : String} {fromStatus : BatchStatus} {attempts : Nat}
    {item : BatchItem} {batch : BatchStatusInfo} {seen : Bool} :
    (markCancelling fromStatus attempts item batch).Obeys (Actor.cancel id).herald
      (fun r seen' => r = .ok () → seen' = true) seen := by
  induction attempts generalizing item batch seen with
  | zero => exact .ret nofun
  | succ attempts ih =>
    refine Obeys.lift_bind trivial fun env _ => ?_
    refine Obeys.bind (P := fun r seen' => r = .ok () → seen' = true) ?_ fun r seen' hr => ?_
    · unfold dbUpdate
      split
      · exact .ret nofun
      split
      next h => cases h.1
      refine Obeys.lift_bind trivial fun r _ => ?_
      split
      · exact .ret nofun
      · exact .ret fun _ => by simp [Actor.herald, wroteCancelling, BatchItem.cancelUpdate]
      · split <;> exact .ret nofun
    · split
      · exact .ret fun _ => hr rfl
      split
      · exact .ret nofun
      refine Obeys.lift_bind trivial fun r _ => ?_
      split
      · exact .ret nofun
      · exact .ret nofun
      split
      · exact .ret nofun
      split
      · exact .ret nofun
      · exact .ret nofun
      split
      · exact .ret nofun
      · exact ih

theorem cancelBatch_heralds {id : String} :
    (cancelBatch id).Obeys (Actor.cancel id).herald (fun _ _ => True) false := by
  refine Obeys.lift_bind trivial ?_
  rintro r -
  split
  · exact .ret trivial
  · exact .ret trivial
  next item =>
    unfold dbItemToBatch
    split
    · exact .ret trivial
    · exact .ret trivial
    next batch hbatch =>
      split_ifs at hbatch
      have hbatch : item.status = some batch := Except.ok.inj hbatch
      split
      · exact .ret trivial
      split
      · exact .ret trivial
      split
      next hc =>
        have hseen : sawCancelling (.ok (some item)) = true := by simp [sawCancelling, hbatch, hc]
        change sendCancelEvent.Obeys _ _ (false || sawCancelling (.ok (some item)))
        rw [hseen]
        exact sendCancelEvent_heralds
      · refine Obeys.bind (P := fun _ _ => True) ?_ fun r seen _ => ?_
        · refine Obeys.lift_bind trivial fun r _ => ?_
          split <;> exact .ret trivial
        split
        · exact .ret trivial
        · refine Obeys.lift_bind trivial fun r _ => ?_
          split <;> exact .ret trivial
        · refine markCancelling_heralds.bind fun r seen' hr => ?_
          split
          · exact .ret trivial
          · rw [hr rfl]
            exact sendCancelEvent_heralds

/-! ### Runs -/

/-- What a step does to the row. -/
structure Departs (row row' : BatchRow) : Prop where
  coherent : row'.Coherent
  epoch : row.epoch ≤ row'.epoch
  settled : row.Settled → row'.Settled
  leaving : row.Leaving → row'.Leaving

theorem Departs.refl (h : row.Coherent) : Departs row row := ⟨h, Int.le_refl _, id, id⟩

theorem Remembers.depart (h : Remembers g w) (hd : Departs w.batch.row w'.batch.row) :
    Remembers g w' where
  epoch p task hg := (h.epoch p task hg).trans hd.epoch
  fresh := h.fresh
  settled p task hg hr he := by
    have := h.epoch p task hg
    have := hd.epoch
    exact hd.settled (h.settled p task hg hr (by omega))

/-- A cancel request sends its event, and a job hears of it, only when the batch is leaving. -/
structure Told (pool : GatewayPool) : Prop where
  conducted : Conducted pool
  coherent : pool.world.batch.row.Coherent
  remembers : ∀ (i : Nat) t, pool.threads[i]? = some t → Remembers t.who pool.world
  informed : ∀ (i : Nat) id m, pool.threads[i]? = some ⟨.cancel id, some m⟩ →
    ∃ seen, (seen = true → pool.world.batch.row.Leaving) ∧
      m.Obeys (Actor.cancel id).herald (fun _ _ => True) seen
  sent : pool.world.cancelSent = true → pool.world.batch.row.Leaving

theorem cancelSent_perform {c : Call} {r : c.Resp} (h : w.perform env c = some (w', r))
    (hsent : w'.cancelSent = true) : w.cancelSent = true ∨ c = .sendCancelEvent := by
  cases c <;> simp only [World.perform, Option.some.injEq] at h
  case exec s =>
    rcases World.execStmt_cases (Option.some.inj h) with ⟨rfl, -⟩ | ⟨b, -, rfl, -⟩ <;>
      exact .inl hsent
  case store => unfold World.storeObject at h; grind
  case delete => unfold World.deleteObjects at h; grind
  case deleteDir => unfold World.deleteObjects at h; grind
  case commitStream => unfold World.publish at h; grind
  all_goals grind

theorem cancelSent_start (h : g.start env w = some w') : w'.cancelSent = w.cancelSent := by
  cases g with
  | poll p task | recovery p task =>
    simp only [Actor.start] at h
    split_ifs at h
    split at h
    · cases h
    · split_ifs at h
      cases h
      rfl
  | _ => rw [Actor.start_unclaimed h rfl]

theorem departs_start (hc : w.batch.row.Coherent) (h : g.start env w = some w') :
    Departs w.batch.row w'.batch.row := by
  rcases Actor.start_cases h with ⟨p, task, -, hcl⟩ | ⟨-, rfl, -⟩
  · have hepoch := hcl.epoch'.trans hcl.epoch
    refine ⟨⟨?_, ?_⟩, by omega, fun hs => ?_, fun hl => ?_⟩
    · rw [hcl.status, hcl.resumable]
      exact hc.running
    · rw [hcl.status, hcl.resumable]
      exact hc.waiting
    · rwa [BatchRow.Settled, BatchRow.NonTerminal, hcl.status, hcl.resumable]
    · rwa [BatchRow.Leaving, hcl.status]
  · exact .refl hc

theorem departs_perform {s : Held} {c : Call} {r : c.Resp} (hc : w.batch.row.Coherent)
    (hr : Remembers g w) (ha : g.conduct.allow s c) (hp : w.perform env c = some (w', r)) :
    Departs w.batch.row w'.batch.row := by
  rcases World.batch_perform hp with hb | ⟨st, b, rfl, -, hb, rfl⟩
  · rw [hb]
    exact .refl hc
  · have ht := transition_of_allows ha hb
    exact ⟨ht.coherent hc, ht.epoch_le, ht.settled, ht.leaving hc hr⟩

/-- What a cancel request learns from an answer is true. -/
theorem leaving_of_seen {seen : Bool} {c : Call} {r : c.Resp}
    (hp : w.perform env c = some (w', r)) (hd : Departs w.batch.row w'.batch.row)
    (hseen : seen = true → w.batch.row.Leaving) (h : g.herald.next seen c r = true) :
    w'.batch.row.Leaving := by
  have hleaving : ∀ row : BatchRow, row.status.status = .cancelling → row.Leaving := fun row hs =>
    ⟨by simp [hs], by simp [hs]⟩
  cases c with
  | fetch site id =>
    rcases Bool.or_eq_true_iff.1 h with hs | hs
    · exact hd.leaving (hseen hs)
    · obtain ⟨item, doc, hr, hdoc, hs⟩ := of_sawCancelling hs
      rw [(World.item_of_fetch hp hr).1] at hdoc
      exact hd.leaving (hleaving _ (by rw [Option.some.inj hdoc, hs]))
  | exec st =>
    cases st with
    | dbUpdate x expected =>
      rcases Bool.or_eq_true_iff.1 h with hs | hs
      · exact hd.leaving (hseen hs)
      · obtain ⟨hr, doc, hdoc, hstatus⟩ := of_wroteCancelling hs
        rcases World.execStmt_cases (Option.some.inj hp) with ⟨-, hne⟩ | ⟨b, hb, rfl, -⟩
        · exact absurd hr hne
        · exact hleaving _ (by rw [(dbUpdate_row hb hdoc).2.2.1, hstatus])
    | _ => exact hd.leaving (hseen h)
  | _ => exact hd.leaving (hseen h)

theorem told_step (hs : (gateway lib).step pool l = some pool') (h : Told pool) : Told pool' := by
  have hconducted := conducted_step hs h.conducted
  rcases (gateway lib).step_cases hs with ⟨env, g, w', hstart⟩ | ⟨i, env, g, c, k, w', r, hi, hp⟩ |
    ⟨i, g, m, hi⟩
  · have hd := departs_start h.coherent hstart
    refine ⟨hconducted, hd.coherent, fun j t hj => ?_, fun j id m hj => ?_, fun hsent => ?_⟩
    · rcases getElem?_snoc_cases hj with ⟨-, rfl⟩ | ⟨-, hj⟩
      · exact .of_start hstart
      · exact (h.remembers j t hj).depart hd
    · rcases getElem?_snoc_cases hj with ⟨-, heq⟩ | ⟨-, hj⟩
      · cases heq
        exact ⟨false, nofun, cancelBatch_heralds⟩
      · obtain ⟨seen, hseen, hm⟩ := h.informed j id m hj
        exact ⟨seen, fun hs => hd.leaving (hseen hs), hm⟩
    · exact hd.leaving (h.sent (cancelSent_start hstart ▸ hsent))
  · obtain ⟨s, -, ha⟩ := h.conducted.allow hi
    have hd := departs_perform h.coherent (h.remembers i _ hi) ha hp
    refine ⟨hconducted, hd.coherent, fun j t hj => ?_, fun j id m hj => ?_, fun hsent => ?_⟩
    · rcases getElem?_set_cases hj with ⟨-, rfl⟩ | ⟨-, hj⟩
      · exact (h.remembers i _ hi).depart hd
      · exact (h.remembers j t hj).depart hd
    · rcases getElem?_set_cases hj with ⟨-, heq⟩ | ⟨-, hj⟩
      · cases heq
        obtain ⟨seen, hseen, hm⟩ := h.informed i id _ hi
        exact ⟨_, leaving_of_seen hp hd hseen, hm.2 r trivial⟩
      · obtain ⟨seen, hseen, hm⟩ := h.informed j id m hj
        exact ⟨seen, fun hs => hd.leaving (hseen hs), hm⟩
    · rcases cancelSent_perform hp hsent with hsent | rfl
      · exact hd.leaving (h.sent hsent)
      · cases g with
        | cancel id =>
          obtain ⟨seen, hseen, hm⟩ := h.informed i id _ hi
          exact hd.leaving (hseen (hm.1 rfl))
        | _ => cases ha
  · refine ⟨hconducted, h.coherent, fun j t hj => ?_, fun j id m hj => ?_, h.sent⟩
    · rcases getElem?_set_cases hj with ⟨-, rfl⟩ | ⟨-, hj⟩
      · exact h.remembers i ⟨g, some m⟩ hi
      · exact h.remembers j t hj
    · rcases getElem?_set_cases hj with ⟨-, heq⟩ | ⟨-, hj⟩
      · cases heq
      · exact h.informed j id _ hj

theorem told_initial (w : World) {row : BatchRow} (hrow : row.Fresh) (hw : w.cancelSent = false) :
    Told (initial w row) := by
  obtain ⟨-, hv, -, -, -, hr, -⟩ := hrow
  refine ⟨watched_empty _, ⟨fun hs => ?_, fun _ => hr⟩, by simp [initial], by simp [initial],
    fun hsent => ?_⟩
  · rw [initial, hv] at hs
    simp at hs
  · cases hw.symm.trans hsent

theorem told_exec {ls : List (Label Env Actor)} (h : Told pool)
    (he : exec (gateway lib).step pool ls = some pool') : Told pool' :=
  along_invariant (I := Told) (fun _ _ _ h _ hs => told_step hs h) (along_true _ _) he h

end BatchGateway
