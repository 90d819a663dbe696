import BatchGateway.Gateway.System
import BatchGateway.Lib.Interference

/-! The cancel mark among other writers: it is written at one instant, onto the document that the
row has at that instant. -/
namespace BatchGateway

open Interleaving

/-- One call of a process, in whatever world it finds. -/
abbrev Step := OwnCall World Env Call Call.Resp

abbrev answering : Env → World → (c : Call) → Option (World × c.Resp) := fun env w c => w.perform env c

/-- The program can make these calls among other processes. -/
abbrev Task.Makes {α : Type} (m : Task α) (calls : List Step) (m' : Task α) : Prop :=
  Prog.Makes answering m calls m'

namespace OwnCall

/-- The call left everything as it was. -/
def Idle (s : Step) : Prop := s.after = s.before

/-- A call that returned an error was not applied. -/
def Honest (s : Step) : Prop := s.env.fault ≠ .after

instance (s : Step) : Decidable (Honest s) := inferInstanceAs (Decidable (_ ≠ _))

/-- The call changed the status and the cancelling time of the document that the row had, and it
wrote the tags again. -/
structure Marks (s : Step) (fromStatus : BatchStatus) (item : BatchItem) : Prop where
  status : s.before.batch.row.status.status = fromStatus
  resumable : s.before.batch.row.resumable = item.resumable
  written : ∃ now, s.after = { s.before with batch := { s.before.batch with row :=
    { s.before.batch.row with
      status := { s.before.batch.row.status with
        status := .cancelling, cancellingAt := some (Time.unix now) }
      tags := if item.tags = [] then s.before.batch.row.tags else item.tags } } }

end OwnCall

/-- A statement that fails without the fault of a lost answer was not applied. -/
theorem World.idle_of_error {w w' : World} {env : Env} {s : Stmt} {e : Err}
    (h : w.execStmt env s = (w', .error e)) (hf : env.fault ≠ .after) : w' = w := by
  unfold World.execStmt World.written at h
  simp only [hf, if_false] at h
  split at h
  · exact (Prod.mk.inj h).1.symm
  · split at h
    · exact (Prod.mk.inj h).1.symm
    · cases h
    · cases h

/-- The row that was read last. -/
def lastRead (item : BatchItem) : List Step → BatchItem
  | [] => item
  | ⟨_, _, .fetch .., .ok (some fresh), _⟩ :: calls => lastRead fresh calls
  | _ :: calls => lastRead item calls

/-- The calls so far changed nothing, or the last of them set the mark and the program returned. -/
def MarksOnce (fromStatus : BatchStatus) (item : BatchItem) (calls : List Step)
    (m : Task (Except Err Unit)) : Prop :=
  ((∀ s ∈ calls, OwnCall.Idle s) ∧ m ≠ .ret (.ok ())) ∨
  ∃ earlier last, calls = earlier ++ [last] ∧ (∀ s ∈ earlier, OwnCall.Idle s) ∧
    OwnCall.Marks last fromStatus (lastRead item earlier) ∧ m = .ret (.ok ())

variable {calls : List Step}

theorem idle_cons {s : Step} (hs : OwnCall.Idle s) (h : ∀ s ∈ calls, OwnCall.Idle s) :
    ∀ t ∈ s :: calls, OwnCall.Idle t :=
  List.forall_mem_cons.2 ⟨hs, h⟩

/-- A call that is not a successful read of the row. -/
def OwnCall.Blind (s : Step) : Prop :=
  ∀ item earlier, lastRead item (s :: earlier) = lastRead item earlier

variable {m : Task (Except Err Unit)}

/-- An update among other writers: it matches at one instant, or it changes nothing. -/
theorem dbUpdate_makes {x : BatchItem} {expected : Option BatchStatusInfo} (hx : x.status ≠ none)
    (h : Task.Makes (dbUpdate x expected) calls m) (hh : ∀ s ∈ calls, OwnCall.Honest s) :
    ((∀ s ∈ calls, OwnCall.Idle s ∧ OwnCall.Blind s) ∧ m ≠ .ret (.ok ())) ∨
    ∃ s b, calls = [s] ∧ dbUpdateStmt x expected s.before.batch = some b ∧
      s.after = { s.before with batch := b } ∧ m = .ret (.ok ()) := by
  have hfailed : ∀ {e : Err} {rest : List Step}, Task.Makes (.ret (.error e)) rest m →
      rest = [] ∧ m ≠ .ret (.ok ()) := by
    intro e rest hk
    obtain ⟨rfl, rfl⟩ := Prog.makes_ret hk
    exact ⟨rfl, fun he => nomatch Prog.ret.inj he⟩
  unfold dbUpdate at h
  split at h
  · obtain ⟨rfl, hne⟩ := hfailed h
    exact .inl ⟨List.forall_mem_nil _, hne⟩
  · rw [if_neg (fun hnone => hx hnone.1)] at h
    rcases Prog.makes_lift_bind h with ⟨rfl, hne⟩ | ⟨w, env, r, w', rest, hp, rfl, hk⟩
    · exact .inl ⟨List.forall_mem_nil _, hne _⟩
    · have hfault : env.fault ≠ .after := hh _ List.mem_cons_self
      have hexec : w.execStmt env (.dbUpdate x expected) = (w', r) := Option.some.inj hp
      cases r with
      | error e =>
        obtain ⟨rfl, hne⟩ := hfailed hk
        refine .inl ⟨List.forall_mem_singleton.2 ⟨?_, fun _ _ => rfl⟩, hne⟩
        exact World.idle_of_error hexec hfault
      | ok matched =>
        cases matched with
        | true =>
          obtain ⟨rfl, rfl⟩ := Prog.makes_ret hk
          rcases World.execStmt_cases hexec with ⟨-, hr⟩ | ⟨b, hb, rfl, -⟩
          · exact absurd rfl hr
          · exact .inr ⟨_, b, rfl, by simpa [Stmt.exec] using hb, rfl, rfl⟩
        | false =>
          have hreturned : rest = [] ∧ m ≠ .ret (.ok ()) := by
            dsimp only at hk
            split at hk <;> exact hfailed hk
          obtain ⟨rfl, hne⟩ := hreturned
          refine .inl ⟨List.forall_mem_singleton.2 ⟨?_, fun _ _ => rfl⟩, hne⟩
          exact (World.execStmt_unmatched hexec).1

variable {item : BatchItem} {batch : BatchStatusInfo}

/-- The update that matched is the mark. -/
theorem marks_of_update {now : Time} {s : Step} {b : BatchState} (hread : item.status = some batch)
    (hb : dbUpdateStmt (item.cancelUpdate batch now) item.status s.before.batch = some b)
    (hafter : s.after = { s.before with batch := b }) :
    OwnCall.Marks s batch.status item := by
  simp only [dbUpdateStmt, BatchItem.cancelUpdate, hread, Option.mem_def, Option.some.injEq,
    forall_eq', Option.ite_none_right_eq_some] at hb
  obtain ⟨⟨-, hdoc, -, hflag⟩, rfl⟩ := hb
  refine ⟨by rw [hdoc], hflag, now, ?_⟩
  rw [hafter, hdoc]
  rfl

variable {fromStatus : BatchStatus}

/-- A call that changed nothing comes before the others. -/
theorem MarksOnce.cons {fresh : BatchItem} {s : Step} (hs : OwnCall.Idle s)
    (hread : ∀ earlier, lastRead item (s :: earlier) = lastRead fresh earlier)
    (h : MarksOnce fromStatus fresh calls m) : MarksOnce fromStatus item (s :: calls) m := by
  rcases h with ⟨hidle, hne⟩ | ⟨earlier, last, rfl, hidle, hmarks, rfl⟩
  · exact .inl ⟨idle_cons hs hidle, hne⟩
  · refine .inr ⟨s :: earlier, last, rfl, idle_cons hs hidle, ?_, rfl⟩
    rw [hread]
    exact hmarks

theorem MarksOnce.append {first : List Step}
    (hfirst : ∀ s ∈ first, OwnCall.Idle s ∧ OwnCall.Blind s)
    (h : MarksOnce fromStatus item calls m) : MarksOnce fromStatus item (first ++ calls) m := by
  induction first with
  | nil => exact h
  | cons s first ih =>
    obtain ⟨⟨hidle, hblind⟩, hfirst⟩ := List.forall_mem_cons.1 hfirst
    exact (ih hfirst).cons hidle (hblind item)

theorem marksOnce_error {e : Err} (h : Task.Makes (.ret (.error e)) calls m) :
    MarksOnce fromStatus item calls m := by
  obtain ⟨rfl, rfl⟩ := Prog.makes_ret h
  exact .inl ⟨List.forall_mem_nil _, fun he => nomatch Prog.ret.inj he⟩

theorem status_of_dbItemToBatch (h : dbItemToBatch item = .ok (some batch)) :
    item.status = some batch := by
  unfold dbItemToBatch at h
  split at h
  · exact Except.ok.inj h
  · cases h

/-- The loop, from any attempt on. -/
theorem markCancelling_marksOnce {attempts : Nat} (hread : item.status = some batch)
    (h : Task.Makes (markCancelling batch.status attempts item batch) calls m)
    (hh : ∀ s ∈ calls, OwnCall.Honest s) : MarksOnce batch.status item calls m := by
  induction attempts generalizing item batch calls with
  | zero => exact marksOnce_error h
  | succ attempts ih =>
    unfold markCancelling at h
    rcases Prog.makes_lift_bind h with ⟨rfl, hne⟩ | ⟨w, env, r, w', rest, hp, rfl, hk⟩
    · exact .inl ⟨List.forall_mem_nil _, hne _⟩
    · have hask : w' = w := by
        simp only [answering, World.perform, Option.ite_none_right_eq_some, Option.some.injEq] at hp
        exact (Prod.mk.inj hp.2).1.symm
      have hrest : ∀ s ∈ rest, OwnCall.Honest s := fun s hs => hh s (List.mem_cons_of_mem _ hs)
      refine MarksOnce.cons hask (fun _ => rfl) ?_
      have hx : (item.cancelUpdate batch r.now).status ≠ none := Option.some_ne_none _
      rcases Prog.makes_bind hk with ⟨p', hupd, hne, rfl⟩ | ⟨a, first, rest, rfl, hupd, hk⟩
      · rcases dbUpdate_makes hx hupd hrest with ⟨hidle, -⟩ | ⟨s, b, -, -, -, rfl⟩
        · exact .inl ⟨fun s hs => (hidle s hs).1, Prog.bind_ne_ret hne _⟩
        · exact absurd rfl (hne _)
      · have hfirst : ∀ s ∈ first, OwnCall.Honest s := fun s hs => hrest s (List.mem_append_left _ hs)
        have hafter : ∀ s ∈ rest, OwnCall.Honest s :=
          fun s hs => hrest s (List.mem_append_right _ hs)
        rcases dbUpdate_makes hx hupd hfirst with ⟨hidle, hok⟩ | ⟨s, b, rfl, hb, hs, hok⟩
        · cases a with
          | ok u => exact absurd rfl hok
          | error e =>
            refine MarksOnce.append hidle ?_
            dsimp only at hk
            split at hk
            · exact marksOnce_error hk
            · rcases Prog.makes_lift_bind hk with ⟨rfl, hne⟩ | ⟨v, env', r', v', tail, hp', rfl, hk'⟩
              · exact .inl ⟨List.forall_mem_nil _, hne _⟩
              · have hv : v' = v := (Prod.mk.inj (Option.some.inj hp')).1.symm
                have htail : ∀ s ∈ tail, OwnCall.Honest s :=
                  fun s hs => hafter s (List.mem_cons_of_mem _ hs)
                rcases r' with e | _ | fresh
                · exact (marksOnce_error hk').cons hv fun _ => rfl
                · exact (marksOnce_error hk').cons hv fun _ => rfl
                · refine MarksOnce.cons (s := ⟨v, env', _, _, v'⟩) hv (fun _ => rfl) ?_
                  dsimp only at hk'
                  split at hk'
                  · exact marksOnce_error hk'
                  · split at hk'
                    · exact marksOnce_error hk'
                    · exact marksOnce_error hk'
                    next freshBatch hfresh =>
                      split at hk'
                      · exact marksOnce_error hk'
                      next hsame =>
                        have hsame' : freshBatch.status = batch.status := not_not.1 hsame
                        rw [← hsame'] at hk' ⊢
                        exact ih (status_of_dbItemToBatch hfresh) hk' htail
        · cases hok
          obtain ⟨rfl, rfl⟩ := Prog.makes_ret hk
          exact .inr ⟨[], s, rfl, List.forall_mem_nil _, marks_of_update hread hb hs, rfl⟩

/-- In every run of the gateway, a request that is marking a batch as cancelling has changed
nothing, unless the marking succeeded. Then its last call replaced the status and the cancelling
time of the document that the row had at that instant, and the row had the status that was read
first and the flag that was read last. -/
theorem cancelMarking_atomic (lib : Stdlib) {p q : GatewayPool} {ls : List (Label Env Actor)}
    (hs : exec (gateway lib).step p ls = some q) {i : Nat} {g : Actor} {item : BatchItem}
    {batch : BatchStatusInfo} {k : Except Err Unit → Task (Except Err Unit)}
    (hi : p.threads[i]? =
      some ⟨g, some (markCancelling batch.status maxCancelAttempts item batch >>= k)⟩)
    (hread : dbItemToBatch item = .ok (some batch))
    (hh : ∀ s ∈ (gateway lib).ownCalls i p ls, OwnCall.Honest s) :
    ∃ calls rest m, (gateway lib).ownCalls i p ls = calls ++ rest ∧
      MarksOnce batch.status item calls m ∧
      ((rest = [] ∧ ∀ a, m ≠ .ret a) ∨ ∃ a m', m = .ret a ∧ Task.Makes (k a) rest m') := by
  rcases (gateway lib).makes_ownCalls hi hs with ⟨hcode, -⟩ | ⟨_, m', hcode, hmakes⟩
  · cases hcode
  · cases hcode
    have hdoc := status_of_dbItemToBatch hread
    rcases Prog.makes_bind hmakes with ⟨p', hp, hne, -⟩ | ⟨a, first, rest, heq, hp, hk⟩
    · exact ⟨_, [], p', (List.append_nil _).symm, markCancelling_marksOnce hdoc hp hh,
        .inl ⟨rfl, hne⟩⟩
    · rw [heq] at hh ⊢
      refine ⟨first, rest, .ret a, rfl, markCancelling_marksOnce hdoc hp ?_, .inr ⟨a, m', rfl, hk⟩⟩
      exact fun s hs => hh s (List.mem_append_left _ hs)

/-- A batch in progress. -/
def markedRow : BatchRow :=
  { sampleRow with status := { status := .inProgress }, epoch := 1, processorID := some "p" }

def progressWrite : Actor :=
  .request (sampleProcessor "p") markedRow.toItem (.progress { total := 2, completed := 1 })

/-- A cancel request that has found the batch in progress, and a progress write. -/
def markingPool : GatewayPool where
  world := { batch := ⟨markedRow, .empty⟩ }
  threads := [⟨.cancel "batch_1", some (markCancelling markedRow.status.status
    maxCancelAttempts markedRow.toItem markedRow.status >>= fun r => return r)⟩,
    ⟨progressWrite, some (progressWrite.code .sample)⟩]

/-- The progress is written between the read and the first attempt, and the second one succeeds. -/
def markingRun : List (Label Env Actor) :=
  [.run 0 {}, .run 1 {}] ++ steps 0 4

theorem markingRun_atomic :
    ∃ q, exec (gateway .sample).step markingPool markingRun = some q ∧
      q.world.batch.row.status.status = .cancelling ∧
      q.world.batch.row.status.requestCounts = { total := 2, completed := 1 } ∧
      ∃ calls rest m, (gateway .sample).ownCalls 0 markingPool markingRun = calls ++ rest ∧
        MarksOnce markedRow.status.status markedRow.toItem calls m ∧
        ((rest = [] ∧ ∀ a, m ≠ .ret a) ∨
          ∃ a m', m = .ret a ∧ Task.Makes (return a : Task (Except Err Unit)) rest m') := by
  have hrun : ((exec (gateway .sample).step markingPool markingRun).map fun q =>
      (q.world.batch.row.status.status, q.world.batch.row.status.requestCounts)) =
      some (.cancelling, { total := 2, completed := 1 }) := by decide +kernel
  obtain ⟨q, hs, hq⟩ := Option.map_eq_some_iff.1 hrun
  have hi : markingPool.threads[0]? = some ⟨.cancel "batch_1", some (markCancelling
      markedRow.status.status maxCancelAttempts markedRow.toItem markedRow.status >>=
        fun r => return r)⟩ := rfl
  refine ⟨q, hs, congrArg Prod.fst hq, congrArg Prod.snd hq,
    cancelMarking_atomic .sample hs hi rfl ?_⟩
  have hall : ((gateway .sample).ownCalls 0 markingPool markingRun).all
      (fun s => decide (OwnCall.Honest s)) = true := by decide +kernel
  exact fun s hs => of_decide_eq_true (List.all_eq_true.1 hall s hs)

end BatchGateway
