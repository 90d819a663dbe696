import BatchGateway.Lib.Run
import BatchGateway.Database.Client

/-! What the verdict of an entry write says about the batch while the call was under way. -/
namespace BatchGateway

open Interleaving

/-- The two entry writes of the store. -/
inductive EntryWrite where
  | markEntryInFlight
  | checkpointEntryResult (result : ResumableResult)
  deriving DecidableEq

/-- One call of an entry write. -/
structure EntryCall where
  write : EntryWrite
  batchID : String
  requestID : String
  processorID : String
  epoch : Int
  deriving DecidableEq

namespace EntryCall

variable (c : EntryCall)

def op : String :=
  match c.write with
  | .markEntryInFlight => "MarkEntryInFlight"
  | .checkpointEntryResult _ => "CheckpointEntryResult"

def stmt : Stmt :=
  match c.write with
  | .markEntryInFlight => .mark c.batchID c.requestID c.processorID c.epoch
  | .checkpointEntryResult result =>
    .checkpoint c.batchID c.requestID c.processorID c.epoch result

def code : Task (Except Err Bool) :=
  match c.write with
  | .markEntryInFlight => markEntryInFlight c.batchID c.requestID c.processorID c.epoch
  | .checkpointEntryResult result =>
    checkpointEntryResult c.batchID c.requestID c.processorID c.epoch result

/-- How the answer to the follow-up query is read. -/
def verification : Except Err (Option EntryStatus) → Task (Except Err Bool)
  | .error _ | .ok none => .ret (.error (.conflict (c.op ++ ": " ++ c.batchID ++ "/" ++
      c.requestID ++ " is not owned by " ++ ownerText c.processorID c.epoch)))
  | .ok (some status) =>
    if status.isTerminal then .ret (.ok false)
    else .ret (.error (.conflict (c.op ++ ": " ++ c.batchID ++ "/" ++ c.requestID ++ " is " ++
      quoted status.text ++ " but not updatable by " ++ ownerText c.processorID c.epoch)))

/-- How both writes read the row count of their statement. -/
def reading : Except Err Bool → Task (Except Err Bool)
  | .error e => .ret (.error (e.wrap c.op))
  | .ok true => .ret (.ok true)
  | .ok false => .call (.entryStatus c.batchID c.requestID c.processorID c.epoch) c.verification

def body : Task (Except Err Bool) := .call (.exec c.stmt) c.reading

theorem entryNotUpdatable_eq : entryNotUpdatable c.op c.batchID c.requestID c.processorID c.epoch =
    c.reading (.ok false) := by
  refine congrArg (Prog.call _) (funext fun r => ?_)
  rcases r with _ | _ | _ <;> rfl

/-- A write issues its statement, or it refuses its arguments with an error of its own. -/
theorem code_cases : c.code = c.body ∨ ∃ e, c.code = .ret (.error e) ∧ e.isConflict = false := by
  obtain ⟨write, id, q, p, epoch⟩ := c
  cases write with
  | markEntryInFlight =>
    refine .inl (congrArg (Prog.call _) (funext fun r => ?_))
    rcases r with _ | _ | _
    · rfl
    · exact entryNotUpdatable_eq ⟨.markEntryInFlight, id, q, p, epoch⟩
    · rfl
  | checkpointEntryResult result =>
    dsimp only [code, checkpointEntryResult]
    split
    · exact .inr ⟨_, rfl, rfl⟩
    · refine .inl (congrArg (Prog.call _) (funext fun r => ?_))
      rcases r with _ | _ | _
      · rfl
      · exact entryNotUpdatable_eq ⟨.checkpointEntryResult result, id, q, p, epoch⟩
      · rfl

end EntryCall

/-! ### A call among the other users of the store -/

/-- One step that the store took while the call was under way, and the statement of the call if it
was that one. -/
structure Instant where
  now : Time
  before : World
  after : World
  own : Option Stmt := none

/-- A call under way. -/
structure Underway where
  world : World
  task : Task (Except Err Bool)
  past : List Instant := []

/-- The call makes its next step, or somebody else makes any call. -/
inductive Move where
  | own (env : Env)
  | other (env : Env) (c : Call)

def Call.stmt? : Call → Option Stmt
  | exec s => some s
  | _ => none

/-- The next call of the program is the follow-up query of an entry write. -/
def verifies : Task (Except Err Bool) → Bool
  | .call (.entryStatus ..) _ => true
  | _ => false

namespace Underway

variable (u : Underway)

def step : Move → Option Underway
  | .own env =>
    match u.task with
    | .ret _ => none
    | .call c k => (u.world.perform env c).map fun x =>
        ⟨x.1, k x.2, ⟨env.now, u.world, x.1, c.stmt?⟩ :: u.past⟩
  | .other env c => (u.world.perform env c).map fun x =>
      ⟨x.1, u.task, ⟨env.now, u.world, x.1, none⟩ :: u.past⟩

/-- What the call returned. -/
def verdict : Option (Except Err Bool) :=
  match u.task with
  | .ret v => some v
  | .call .. => none

/-- The follow-up query of the call does not fail. -/
def VerificationAnswered : Move → Prop
  | .own env => verifies u.task = true → env.fault = .none
  | .other .. => True

instance : (m : Move) → Decidable (u.VerificationAnswered m)
  | .own _ => inferInstanceAs (Decidable (_ → _))
  | .other .. => isTrue trivial

end Underway

namespace EntryCall

variable (c : EntryCall)

def start (w : World) : Underway := ⟨w, c.code, []⟩

/-- The entry is finished. -/
def Finished (w : World) : Prop :=
  w.batch.row.id = c.batchID ∧
    ∃ row ∈ w.batch.entries.rows, row.requestID = c.requestID ∧ row.status.isTerminal = true

/-- The caller holds the batch, and the entry exists. -/
def Holds (now : Time) (w : World) : Prop :=
  OwnerLock now c.batchID c.processorID c.epoch w.batch.row ∧
    ∃ row ∈ w.batch.entries.rows, row.requestID = c.requestID

/-- What the verdict promises about the time of the call: `true` that its own statement was applied,
`false` that the entry was finished, and a conflict that the caller did not hold the batch or that
there was no such entry. -/
def Sound (past : List Instant) : Except Err Bool → Prop
  | .ok true => ∃ i ∈ past, i.own = some c.stmt ∧
      c.stmt.exec i.now i.before.batch = .ok (some i.after.batch)
  | .ok false => ∃ i ∈ past, c.Finished i.before
  | .error e => e.isConflict = true → ∃ i ∈ past, ¬ c.Holds i.now i.before

/-- How far the call has come. After a statement that matched nothing, an entry that was finished
then is still finished. -/
inductive Stage (w : World) (past : List Instant) : Task (Except Err Bool) → Prop where
  | begun : Stage w past c.body
  | unmatched {i : Instant} (hi : i ∈ past) (hs : c.stmt.exec i.now i.before.batch = .ok none)
      (hf : c.Finished i.before → c.Finished w) :
      Stage w past (c.reading (.ok false))
  | returned {v : Except Err Bool} (hv : c.Sound past v) : Stage w past (.ret v)

variable {c} {w w' : World} {env : Env} {past : List Instant}

instance (w : World) : Decidable (c.Finished w) := inferInstanceAs (Decidable (_ ∧ _))

instance (now : Time) (w : World) : Decidable (c.Holds now w) := inferInstanceAs (Decidable (_ ∧ _))

theorem Finished.perform {d : Call} {r : d.Resp} (h : c.Finished w)
    (hp : w.perform env d = some (w', r)) : c.Finished w' := by
  rcases World.batch_perform hp with hb | ⟨s, b, -, -, hs, rfl⟩
  · rw [Finished, hb]
    exact h
  · obtain ⟨hid, row, hr, hq, ht⟩ := h
    exact ⟨(Stmt.id_exec hs).trans hid, row, Stmt.terminal_row_exec hs hr ht, hq, ht⟩

theorem Sound.mono {v : Except Err Bool} (h : c.Sound past v) (i : Instant) :
    c.Sound (i :: past) v := by
  have hmem : ∀ {P : Instant → Prop}, (∃ j ∈ past, P j) → ∃ j ∈ i :: past, P j :=
    fun ⟨j, hj, hP⟩ => ⟨j, List.mem_cons_of_mem _ hj, hP⟩
  rcases v with e | _ | _
  · exact fun he => hmem (h he)
  · exact hmem h
  · exact hmem h

/-- An entry write matches nothing when the caller does not hold the batch or the entry is not
open. -/
theorem finished_of_unmatched {now : Time} (h : c.stmt.exec now w.batch = .ok none)
    (hh : c.Holds now w) : c.Finished w := by
  obtain ⟨hl, row, hr, hq⟩ := hh
  have hopen : ¬ row.IsOpen := by
    intro ho
    obtain ⟨write, id, q, p, epoch⟩ := c
    have hg : OwnerLock now id p epoch w.batch.row ∧
        ∃ r ∈ w.batch.entries.rows, r.requestID = q ∧ r.IsOpen := ⟨hl, row, hr, hq, ho⟩
    cases write <;>
      simp [stmt, Stmt.exec, markStmt, checkpointStmt, entryStmt, hg] at h
  exact ⟨hl.1, row, hr, hq, by simpa [EntryRow.IsOpen] using hopen⟩

/-- The statement of the call: applied, unmatched or failed. -/
theorem stage_exec {r : Except Err Bool} (hp : w.execStmt env c.stmt = (w', r)) :
    c.Stage w' (⟨env.now, w, w', some c.stmt⟩ :: past) (c.reading r) := by
  rcases r with e | _ | _
  · refine .returned fun he => ?_
    have hno : e.isConflict = false := World.execStmt_error hp
    exact absurd (hno.symm.trans he) nofun
  · obtain ⟨rfl, hnone⟩ := World.execStmt_unmatched hp
    exact .unmatched List.mem_cons_self hnone id
  · rcases World.execStmt_cases hp with ⟨-, hne⟩ | ⟨b, hb, rfl, -⟩
    · exact absurd rfl hne
    · exact .returned ⟨_, List.mem_cons_self, rfl, hb⟩

/-- The follow-up query of a caller that still holds the batch finds the entry. -/
theorem entry_of_holds (hh : c.Holds env.now w) :
    w.batch.row.processorID = some c.processorID ∧ w.batch.row.epoch = c.epoch ∧
      ∃ row, w.entry c.batchID c.requestID = some row := by
  obtain ⟨⟨hid, hp, he, -⟩, row, hr, hq⟩ := hh
  refine ⟨hp, he, row, ?_⟩
  rw [World.entry, if_pos hid, ← hq]
  exact EntryTable.find_of_mem hr

theorem finished_of_entry {row : EntryRow} (h : w.entry c.batchID c.requestID = some row)
    (ht : row.status.isTerminal = true) : c.Finished w := by
  unfold World.entry at h
  split at h
  next hid =>
    obtain ⟨hr, hq⟩ := EntryTable.mem_find h
    exact ⟨hid, row, hr, hq, ht⟩
  next => cases h

/-- The answer to the follow-up query: a finished entry, or a reason for the conflict. -/
theorem stage_verify {i : Instant} (hi : i ∈ past)
    (hs : c.stmt.exec i.now i.before.batch = .ok none) (hf : c.Finished i.before → c.Finished w)
    (henv : env.fault = .none) :
    c.Stage w (⟨env.now, w, w, none⟩ :: past) (c.verification (World.read env
      (if w.batch.row.processorID = some c.processorID ∧ w.batch.row.epoch = c.epoch then
        (w.entry c.batchID c.requestID).map EntryRow.status else none))) := by
  rw [World.read, if_pos henv]
  unfold verification
  by_cases hh : c.Holds env.now w
  · obtain ⟨hp, he, row, hrow⟩ := entry_of_holds hh
    rw [if_pos ⟨hp, he⟩, hrow]
    dsimp only [Option.map_some]
    split
    next ht => exact .returned ⟨_, List.mem_cons_self, finished_of_entry hrow ht⟩
    next ht =>
      -- the entry is open, so it was open when the statement did not match
      refine .returned fun _ => ⟨i, List.mem_cons_of_mem _ hi, fun hheld => ?_⟩
      obtain ⟨hid, row', hr', hq', ht'⟩ := hf (finished_of_unmatched hs hheld)
      have hfind := EntryTable.find_of_mem hr'
      rw [World.entry, if_pos hid, ← hq', hfind] at hrow
      cases hrow
      exact ht ht'
  · have hconf : ∀ e, c.Stage w (⟨env.now, w, w, none⟩ :: past) (.ret (.error e)) := fun _ =>
      .returned fun _ => ⟨_, List.mem_cons_self, hh⟩
    split
    · exact hconf _
    · exact hconf _
    next status hst =>
      split
      next ht =>
        refine .returned ⟨_, List.mem_cons_self, ?_⟩
        injection hst with hst
        split at hst
        · obtain ⟨row, hrow, rfl⟩ := Option.map_eq_some_iff.1 hst
          exact finished_of_entry hrow ht
        · cases hst
      next => exact hconf _

/-- Somebody else's call leaves the stage of the call as it is. -/
theorem Stage.other {t : Task (Except Err Bool)} {d : Call} {r : d.Resp} (h : c.Stage w past t)
    (hp : w.perform env d = some (w', r)) (i : Instant) : c.Stage w' (i :: past) t := by
  cases h with
  | begun => exact .begun
  | unmatched hi hs hf =>
    exact .unmatched (List.mem_cons_of_mem _ hi) hs fun h => (hf h).perform hp
  | returned hv => exact .returned (hv.mono i)

theorem stage_step {u u' : Underway} {m : Move} (h : c.Stage u.world u.past u.task)
    (hm : u.VerificationAnswered m) (hs : u.step m = some u') :
    c.Stage u'.world u'.past u'.task := by
  obtain ⟨w, t, past⟩ := u
  cases m with
  | other env d =>
    obtain ⟨⟨w', r⟩, hp, rfl⟩ := Option.map_eq_some_iff.1 hs
    exact Stage.other h hp _
  | own env =>
    cases h with
    | begun =>
      cases hs
      exact @stage_exec c w _ env past _ rfl
    | unmatched hi hst hf =>
      cases hs
      exact stage_verify (w := w) hi hst hf (hm rfl)
    | returned => cases hs

end EntryCall

/-- Whatever the other users of the store do meanwhile, an entry write whose follow-up query does not
fail returns a verdict that was true at some instant of the call. -/
theorem entry_verdicts_sound (c : EntryCall) (w : World) (ms : List Move) (u : Underway)
    (v : Except Err Bool)
    (hverify : Along Underway.step Underway.VerificationAnswered (c.start w) ms)
    (hrun : exec Underway.step (c.start w) ms = some u) (hv : u.verdict = some v) :
    c.Sound u.past v := by
  have hstart : c.Stage (c.start w).world (c.start w).past (c.start w).task := by
    rcases c.code_cases with hbody | ⟨e, hret, he⟩
    · dsimp only [EntryCall.start]
      rw [hbody]
      exact .begun
    · dsimp only [EntryCall.start]
      rw [hret]
      exact .returned fun hc => by simp [he] at hc
  have hstage := along_invariant (I := fun u => c.Stage u.world u.past u.task)
    (fun _ _ _ hi hP hs => EntryCall.stage_step hi hP hs) hverify hrun hstart
  obtain ⟨w', t, past⟩ := u
  cases t with
  | call d k => cases hv
  | ret v' =>
    cases hv
    generalize ht : (Interleaving.Prog.ret v : Task (Except Err Bool)) = t at hstage
    cases hstage with
    | returned hv =>
      cases ht
      exact hv
    | begun => cases ht
    | unmatched => cases ht

/-! ### A duplicate delivery -/

/-- `p` holds the batch, and the result of its only request is already there. -/
def finishedWorld : World :=
  { batch := ⟨{ id := "batch_1", status := { status := .inProgress }, processorID := some "p",
                epoch := 1, resumable := true, ownerLeaseExpiresAt := some 100 },
      [{ requestID := "r", ordinal := 0, customID := "a", status := .completed, createdAt := 0,
         updatedAt := 0 }], by decide⟩ }

/-- `p` marks the finished request again. -/
def duplicateMark : EntryCall := ⟨.markEntryInFlight, "batch_1", "r", "p", 1⟩

theorem duplicateMark_sound : ∃ u, exec Underway.step (duplicateMark.start finishedWorld)
    [.own {}, .own {}] = some u ∧ u.verdict = some (.ok false) ∧
      duplicateMark.Sound u.past (.ok false) := by
  have hrun : (exec Underway.step (duplicateMark.start finishedWorld) [.own {}, .own {}]).map
      Underway.verdict = some (some (.ok false)) := by decide +kernel
  obtain ⟨u, hu, hv⟩ := Option.map_eq_some_iff.1 hrun
  exact ⟨u, hu, hv, entry_verdicts_sound _ _ _ u _ (by decide +kernel) hu hv⟩

/-- The follow-up query fails once, and `p`, which holds the batch all the time, is told that it
lost it. -/
theorem failedQuery_conflict : ∃ u, exec Underway.step (duplicateMark.start finishedWorld)
    [.own {}, .own { fault := .before }] = some u ∧
    u.verdict = some (.error (.conflict
      "MarkEntryInFlight: batch_1/r is not owned by p at epoch 1")) ∧
    ¬ duplicateMark.Sound u.past (.error (.conflict
      "MarkEntryInFlight: batch_1/r is not owned by p at epoch 1")) := by
  have hrun : (exec Underway.step (duplicateMark.start finishedWorld)
      [.own {}, .own { fault := .before }]).map (fun u =>
        (u.verdict, u.past.all fun i => duplicateMark.Holds i.now i.before)) =
      some (some (.error (.conflict "MarkEntryInFlight: batch_1/r is not owned by p at epoch 1")),
        true) := by decide +kernel
  obtain ⟨u, hu, hpast⟩ := Option.map_eq_some_iff.1 hrun
  obtain ⟨hv, hall⟩ := Prod.mk.inj hpast
  refine ⟨u, hu, hv, fun hsound => ?_⟩
  obtain ⟨i, hi, hlost⟩ := hsound rfl
  have hheld := List.all_eq_true.1 hall i hi
  exact hlost (of_decide_eq_true hheld)

end BatchGateway
