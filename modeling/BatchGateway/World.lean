import BatchGateway.Lib.Prog
import BatchGateway.Database.Stmt
import BatchGateway.Worker.Manifest
import Mathlib.Data.List.Sort

/-! The surroundings of the gateway's processes as seen from one batch: its database rows, the
files store and the answers of clocks, contexts and other services. -/
namespace BatchGateway

open Interleaving

/-- A call succeeds, fails before it had an effect, or fails although it had its effect. -/
inductive Fault where
  | none | before | after
  deriving DecidableEq, Repr

/-- An inference result on its way into the store. -/
structure ResultItem where
  requestID : String
  customID : String
  response : Option ResponseData := none
  error : Option OutputError := none
  deriving DecidableEq, Repr

/-- One thing that the pipeline of a running job does with the batch. -/
inductive Work where
  | mark (requestID : String)
  | checkpoint (msg : ResultItem)
  | progress (counts : BatchRequestCounts)
  deriving DecidableEq, Repr

/-- Everything that the surroundings choose at one step. -/
structure Env where
  /-- The clock of the database and of the processes. -/
  now : Time := 0
  fault : Fault := .none
  /-- Why the job's context was aborted, if it was. -/
  cause : Option Err := none
  flag : Bool := false
  count : Nat := 0
  /-- A random identifier. -/
  uuid : String := ""
  /-- The input file as the ingestion reads it. -/
  ingested : Except Err (List RequestMeta) := .ok []
  /-- How the execution of the job's requests ends. -/
  outcome : Except Err BatchRequestCounts := .ok {}
  /-- The processors that are known to be alive. -/
  live : List String := []

/-- Some answer says that the user cancelled the job. -/
def Env.cancels (env : Env) : Bool :=
  env.cause.any (·.kind = .cancelled) ||
  (match env.ingested with | .error e => e.kind = .cancelled | .ok _ => false) ||
  (match env.outcome with | .error e => e.kind = .cancelled | .ok _ => false)

/-- Who reads the batch row, and for what. -/
inductive FetchSite where
  | polling | recovery | refresh | apiserver
  deriving DecidableEq, Repr

/-- What a running job does next to its own thread: it renews its lease and handles requests. -/
inductive Background where
  | renewal (processorID : String) (item : BatchItem)
  | requests (processorID : String) (item : BatchItem)
  deriving DecidableEq, Repr

/-- The entries that a published artifact covered without a result, and the code it gave them. -/
structure Publication where
  code : Option BatchErrorCode
  unfinished : List String
  deriving DecidableEq, Repr

structure World where
  batch : BatchState
  objects : String → Option Bytes := fun _ => none
  /-- A cancel event was sent for the batch. -/
  cancelSent : Bool := false
  /-- The ownership grants handed out so far. -/
  grants : List (String × Int) := []
  /-- The background work started so far. -/
  background : List Background := []
  /-- The number of callers that were given a mark of their own. -/
  callers : Nat := 0
  /-- The caller that created an object. -/
  owner : String → Option Nat := fun _ => none
  publication : String → Option Publication := fun _ => none

/-- The calls a process makes to its surroundings. The store learns nothing about the publication
that goes with an artifact. -/
inductive Call where
  | ask
  | exec (s : Stmt)
  | fetch (site : FetchSite) (id : String)
  | fetchOwned
  | committedStatus (id : String)
  | entryStatus (batchID requestID processorID : String) (epoch : Int)
  | findEntry (batchID requestID : String)
  | listEntries (batchID : String) (after : Int) (limit : Nat)
  | store (key : String) (data : Bytes) (owner : Nat)
  | retrieve (key : String)
  | delete (key : String)
  | deleteDir (dir : String)
  | openStream (key : String)
  | writeStream (key : String)
  | commitStream (key : String) (data : Bytes) (publication : Publication)
  | retrieveArtifact (key : String) (publication : Publication)
  | ensureFileRecord (key : String)
  | eventChannel
  | sendCancelEvent
  | go (work : Background)

/-- The answer to a call. -/
def Call.Resp : Call → Type
  | ask => Env
  | exec _ => Except Err Bool
  | fetch .. => Except Err (Option BatchItem)
  | fetchOwned => Except Err (List BatchItem)
  | committedStatus _ => Except Err (Option BatchStatusInfo)
  | entryStatus .. => Except Err (Option EntryStatus)
  | findEntry .. => Except Err (Option EntryRow)
  | listEntries .. => Except Err (List EntryRow)
  | store .. => Except Err Unit
  | retrieve _ => Except Err Bytes
  | delete _ => Except Err Unit
  | deleteDir _ => Except Err Unit
  | openStream _ => Except Err Unit
  | writeStream _ => Except Err Unit
  | commitStream .. => Except Err Unit
  | retrieveArtifact .. => Except Err Bytes
  | ensureFileRecord _ => Except Err Unit
  | eventChannel => Except Err Unit
  | sendCancelEvent => Except Err Unit
  | go _ => Unit

/-- A program of the gateway. -/
abbrev Task (α : Type) := Prog Call Call.Resp α

/-- The error in an answer. -/
def errorOf {α : Type} : Except Err α → Option Err
  | .error e => some e
  | .ok _ => none

def Call.failure : (c : Call) → c.Resp → Option Err
  | ask | go _ => fun _ => none
  | exec _ | fetch .. | fetchOwned | committedStatus _ | entryStatus .. | findEntry ..
  | listEntries .. | store .. | retrieve _ | delete _ | deleteDir _ | openStream _ | writeStream _
  | commitStream .. | retrieveArtifact .. | ensureFileRecord _ | eventChannel
  | sendCancelEvent => fun r => errorOf r

/-- Make one call. -/
def call (c : Call) : Task c.Resp := Prog.lift c

/-- The error of a call that failed for reasons of its own. -/
def transient : Err := ⟨"connection reset", .plain⟩

def fileExists : Err := ⟨"file already exists", .fileExists⟩

namespace World

variable (w : World) (env : Env)

/-- The answer of a call without effect on the world. -/
def read {α : Type} (a : α) : Except Err α :=
  if env.fault = .none then .ok a else .error transient

/-- The answer of a call that did its work. -/
def written {α : Type} (a : α) : Except Err α :=
  if env.fault = .after then .error transient else .ok a

def execStmt (s : Stmt) : World × Except Err Bool :=
  if env.fault = .before then (w, .error transient)
  else match s.exec env.now w.batch with
    | .error e => (w, .error e)
    | .ok none => (w, written env false)
    | .ok (some b) => ({ w with batch := b }, written env true)

/-- Create an object; the store never overwrites one. -/
def storeObject (key : String) (data : Bytes) (owner : Nat) : World × Except Err Unit :=
  if env.fault = .before then (w, .error transient)
  else match w.objects key with
    | some _ => (w, if env.fault = .after then .error transient else .error fileExists)
    | none => ({ w with
        objects := fun k => if k = key then some data else w.objects k
        owner := fun k => if k = key then some owner else w.owner k }, written env ())

def deleteObjects (p : String → Bool) : World × Except Err Unit :=
  if env.fault = .before then (w, .error transient)
  else ({ w with objects := fun k => if p k then none else w.objects k }, written env ())

def publish (key : String) (data : Bytes) (publication : Publication) : World × Except Err Unit :=
  if env.fault = .before then (w, .error transient)
  else match w.objects key with
    | some _ => (w, if env.fault = .after then .error transient else .error fileExists)
    | none => ({ w with
        objects := fun k => if k = key then some data else w.objects k
        publication := fun k => if k = key then some publication else w.publication k },
        written env ())

def retrieve (key : String) : Except Err Bytes :=
  match w.objects key with
  | some data => read env data
  | none => .error ⟨"file not found", .plain⟩

/-- Begin an object; one that exists is reported. -/
def openStream (key : String) : Except Err Unit :=
  match w.objects key with
  | some _ => if env.fault = .none then .error fileExists else .error transient
  | none => read env ()

/-- Entries after an ordinal, in ordinal order. -/
def entriesAfter (batchID : String) (after : Int) : List EntryRow :=
  if w.batch.row.id = batchID then
    (w.batch.entries.rows.filter (after < ·.ordinal)).insertionSort (·.ordinal ≤ ·.ordinal)
  else []

def entry (batchID requestID : String) : Option EntryRow :=
  if w.batch.row.id = batchID then w.batch.entries.find requestID else none

/-- How the world answers a call. A job is told of a cancellation only after the cancel event was
sent. -/
def perform : (c : Call) → Option (World × c.Resp)
  | .ask =>
    if env.cancels → w.cancelSent then some (w, env) else none
  | .exec s => some (w.execStmt env s)
  | .fetch _ id => some (w, read env (if w.batch.row.id = id then some w.batch.row.toItem else none))
  | .fetchOwned => some (w, read env
      (if w.batch.row.NonTerminal ∧ w.batch.row.processorID ≠ none then [w.batch.row.toItem] else []))
  | .committedStatus id =>
    some (w, read env (if w.batch.row.id = id then some w.batch.row.status else none))
  | .entryStatus batchID requestID processorID epoch => some (w, read env
      (if w.batch.row.processorID = some processorID ∧ w.batch.row.epoch = epoch then
        (w.entry batchID requestID).map EntryRow.status else none))
  | .findEntry batchID requestID => some (w, read env (w.entry batchID requestID))
  | .listEntries batchID after limit => some (w, read env ((w.entriesAfter batchID after).take limit))
  | .store key data owner => some (w.storeObject env key data owner)
  | .retrieve key => some (w, w.retrieve env key)
  | .delete key => some (w.deleteObjects env (· = key))
  | .deleteDir dir =>
    some (w.deleteObjects env fun k => (dir ++ "/").toList.isPrefixOf k.toList)
  | .openStream key => some (w, w.openStream env key)
  | .writeStream _ => some (w, read env ())
  | .commitStream key data publication => some (w.publish env key data publication)
  | .retrieveArtifact key _ => some (w, w.retrieve env key)
  | .ensureFileRecord _ => some (w, read env ())
  | .eventChannel => some (w, read env ())
  | .sendCancelEvent =>
    if env.fault = .before then some (w, .error transient)
    else some ({ w with cancelSent := true }, written env ())
  | .go work => some ({ w with background := work :: w.background }, ())

/-- The statement is about to write the batch. -/
def commits (s : Stmt) : Bool :=
  env.fault ≠ .before && match s.exec env.now w.batch with
    | .ok (some _) => true
    | _ => false

variable {w env} {w' : World} {s : Stmt}

theorem exec_of_commits (h : w.commits env s = true) :
    ∃ b, s.exec env.now w.batch = .ok (some b) := by
  simp only [commits, Bool.and_eq_true] at h
  have h := h.2
  split at h
  next b hb => exact ⟨b, hb⟩
  next => cases h

theorem execStmt_of_commits (h : w.commits env s = true) :
    ∃ b, s.exec env.now w.batch = .ok (some b) ∧ (w.execStmt env s).1 = { w with batch := b } := by
  obtain ⟨b, hb⟩ := exec_of_commits h
  simp only [commits, Bool.and_eq_true, decide_eq_true_eq] at h
  exact ⟨b, hb, by simp [execStmt, h.1, hb]⟩

theorem execStmt_of_not_commits (h : ¬ w.commits env s = true) : (w.execStmt env s).1 = w := by
  by_cases hf : env.fault = .before
  · simp [execStmt, hf]
  · simp only [commits, hf, ne_eq, not_false_eq_true, decide_true, Bool.true_and] at h
    simp only [execStmt, hf, if_false]
    split
    · rfl
    · rfl
    next b hb => simp [hb] at h

/-- A statement reports a row only if it wrote one; it may also write one and fail. -/
theorem execStmt_cases {r : Except Err Bool} (h : w.execStmt env s = (w', r)) :
    (w' = w ∧ r ≠ .ok true) ∨
    ∃ b, s.exec env.now w.batch = .ok (some b) ∧ w' = { w with batch := b } ∧
      (r = .ok true ∨ r = .error transient) := by
  unfold execStmt at h
  split at h
  · cases h
    exact .inl ⟨rfl, nofun⟩
  · split at h
    · cases h
      exact .inl ⟨rfl, nofun⟩
    · cases h
      refine .inl ⟨rfl, ?_⟩
      unfold written
      split <;> simp
    next b hb =>
      cases h
      refine .inr ⟨b, hb, rfl, ?_⟩
      unfold written
      split <;> simp

theorem execStmt_calm {b : BatchState} (hf : env.fault = .none)
    (hb : s.exec env.now w.batch = .ok (some b)) :
    w.execStmt env s = ({ w with batch := b }, .ok true) := by
  simp [execStmt, written, hf, hb]

theorem execStmt_unmatched (h : w.execStmt env s = (w', .ok false)) :
    w' = w ∧ s.exec env.now w.batch = .ok none := by
  unfold execStmt written at h
  split at h
  · cases h
  · split at h
    · cases h
    next hnone =>
      split at h
      · cases h
      · cases h
        exact ⟨rfl, hnone⟩
    next => split at h <;> cases h

variable {e : Err}

theorem execStmt_error (h : w.execStmt env s = (w', .error e)) : e.isConflict = false := by
  unfold execStmt at h
  split at h
  · cases h
    rfl
  · split at h
    next he =>
      cases h
      simp [Err.isConflict, Stmt.kind_of_exec_error he]
    next =>
      unfold written at h
      split at h <;> cases h
      rfl
    next =>
      unfold written at h
      split at h <;> cases h
      rfl

variable {key : String} {data : Bytes} {r : Except Err Unit}

theorem storeObject_cases {t : Nat} (h : w.storeObject env key data t = (w', r)) :
    (w' = w ∧ r ≠ .ok ()) ∨
    (w.objects key = none ∧ w' = { w with
      objects := fun k => if k = key then some data else w.objects k
      owner := fun k => if k = key then some t else w.owner k }) := by
  unfold storeObject at h
  split at h
  · cases h
    exact .inl ⟨rfl, nofun⟩
  · split at h
    · cases h
      refine .inl ⟨rfl, ?_⟩
      split <;> nofun
    next hnone =>
      cases h
      exact .inr ⟨hnone, rfl⟩

theorem storeObject_error {t : Nat} (h : w.storeObject env key data t = (w', .error e)) :
    e.isConflict = false := by
  unfold storeObject written at h
  split at h
  · cases h
    rfl
  · split at h <;> split at h <;> cases h <;> rfl

theorem publish_cases {pub : Publication} (h : w.publish env key data pub = (w', r)) :
    w' = w ∨ (w.objects key = none ∧ w' = { w with
      objects := fun k => if k = key then some data else w.objects k
      publication := fun k => if k = key then some pub else w.publication k }) := by
  unfold publish at h
  split at h
  · cases h
    exact .inl rfl
  · split at h
    · cases h
      exact .inl rfl
    next hnone =>
      cases h
      exact .inr ⟨hnone, rfl⟩

theorem objects_of_retrieve (h : w.retrieve env key = .ok data) :
    w.objects key = some data := by
  unfold retrieve read at h
  split at h
  next hd =>
    split at h <;> cases h
    exact hd
  next => cases h

/-- The errors of calls are plain, or they report an object that exists. -/
def Ordinary {α : Type} (r : Except Err α) : Prop :=
  ∀ e ∈ errorOf r, e.kind = .plain ∨ e.kind = .fileExists

variable {α : Type}

theorem ordinary_read (a : α) : Ordinary (read env a) := by
  unfold read
  split
  · rintro _ ⟨⟩
  · rintro _ ⟨⟩
    exact .inl rfl

theorem ordinary_written (a : α) : Ordinary (written env a) := by
  unfold written
  split
  · rintro _ ⟨⟩
    exact .inl rfl
  · rintro _ ⟨⟩

theorem ordinary_error (h : e.kind = .plain ∨ e.kind = .fileExists) :
    Ordinary (.error e : Except Err α) := by
  rintro _ ⟨⟩
  exact h

theorem ordinary_execStmt : Ordinary (w.execStmt env s).2 := by
  unfold execStmt
  split
  · exact ordinary_error (.inl rfl)
  · split
    next herr => exact ordinary_error (.inl (Stmt.kind_of_exec_error herr))
    · exact ordinary_written _
    · exact ordinary_written _

theorem ordinary_storeObject {t : Nat} :
    Ordinary (w.storeObject env key data t).2 := by
  unfold storeObject
  split
  · exact ordinary_error (.inl rfl)
  · split
    · dsimp only
      split
      · exact ordinary_error (.inl rfl)
      · exact ordinary_error (.inr rfl)
    · exact ordinary_written _

theorem ordinary_publish {publication : Publication} :
    Ordinary (w.publish env key data publication).2 := by
  unfold publish
  split
  · exact ordinary_error (.inl rfl)
  · split
    · dsimp only
      split
      · exact ordinary_error (.inl rfl)
      · exact ordinary_error (.inr rfl)
    · exact ordinary_written _

theorem ordinary_deleteObjects {p : String → Bool} : Ordinary (w.deleteObjects env p).2 := by
  unfold deleteObjects
  split
  · exact ordinary_error (.inl rfl)
  · exact ordinary_written _

theorem ordinary_retrieve : Ordinary (w.retrieve env key) := by
  unfold retrieve
  split
  · exact ordinary_read _
  · exact ordinary_error (.inl rfl)

theorem ordinary_openStream : Ordinary (w.openStream env key) := by
  unfold openStream
  split
  · split
    · exact ordinary_error (.inr rfl)
    · exact ordinary_error (.inl rfl)
  · exact ordinary_read _

theorem ordinary_perform {c : Call} {r : c.Resp} (h : w.perform env c = some (w', r))
    (he : e ∈ c.failure r) : e.kind = .plain ∨ e.kind = .fileExists := by
  cases c
  case ask | go => cases he
  case exec =>
    obtain rfl := congrArg Prod.snd (Option.some.inj h)
    exact ordinary_execStmt e he
  case store =>
    obtain rfl := congrArg Prod.snd (Option.some.inj h)
    exact ordinary_storeObject e he
  case commitStream =>
    obtain rfl := congrArg Prod.snd (Option.some.inj h)
    exact ordinary_publish e he
  case delete | deleteDir =>
    obtain rfl := congrArg Prod.snd (Option.some.inj h)
    exact ordinary_deleteObjects e he
  case retrieve | retrieveArtifact =>
    obtain rfl := congrArg Prod.snd (Option.some.inj h)
    exact ordinary_retrieve e he
  case openStream =>
    obtain rfl := congrArg Prod.snd (Option.some.inj h)
    exact ordinary_openStream e he
  case sendCancelEvent =>
    simp only [perform] at h
    split at h <;> cases h
    · exact ordinary_error (α := Unit) (.inl rfl) e he
    · exact ordinary_written _ e he
  all_goals
    obtain rfl := congrArg Prod.snd (Option.some.inj h)
    exact ordinary_read _ e he

theorem deleteObjects_cases {p : String → Bool} (h : w.deleteObjects env p = (w', r)) :
    w' = w ∨ w' = { w with objects := fun k => if p k then none else w.objects k } := by
  unfold deleteObjects at h
  split at h
  · cases h
    exact .inl rfl
  · cases h
    exact .inr rfl

end World

/-- The calls that change nothing. -/
def Call.IsRead : Call → Bool
  | ask | fetch .. | fetchOwned | committedStatus _ | entryStatus .. | findEntry .. | listEntries ..
  | retrieve _ | openStream _ | writeStream _ | retrieveArtifact .. | ensureFileRecord _
  | eventChannel => true
  | exec _ | store .. | delete _ | deleteDir _ | commitStream .. | sendCancelEvent | go _ => false

namespace World

variable {w w' : World} {env : Env} {c : Call} {r : c.Resp}

theorem read_perform (hc : c.IsRead = true) (h : w.perform env c = some (w', r)) : w' = w := by
  cases c <;> simp only [Call.IsRead, Bool.false_eq_true] at hc <;>
    simp only [perform, Option.some.injEq, Option.ite_none_right_eq_some] at h <;> grind

/-- A read of the row returns the row as it is. -/
theorem item_of_fetch {site : FetchSite} {id : String} {r : Except Err (Option BatchItem)}
    {item : BatchItem} (h : w.perform env (.fetch site id) = some (w', r))
    (hr : r = .ok (some item)) : item = w.batch.row.toItem ∧ w.batch.row.id = id := by
  have hread := congrArg Prod.snd (Option.some.inj h)
  simp only [read, hr] at hread
  split at hread
  · split at hread
    next hid =>
      cases hread
      exact ⟨rfl, hid⟩
    next => cases hread
  · cases hread

/-- The batch changes only through a statement. -/
theorem batch_perform (h : w.perform env c = some (w', r)) :
    w'.batch = w.batch ∨
    ∃ s b, c = .exec s ∧ w.commits env s = true ∧ s.exec env.now w.batch = .ok (some b) ∧
      w' = { w with batch := b } := by
  cases c <;> simp only [perform, Option.some.injEq] at h
  case exec s =>
    by_cases hf : env.fault = .before
    · simp only [execStmt, hf, if_true] at h
      cases h
      exact .inl rfl
    · rcases execStmt_cases (Option.some.inj h) with ⟨rfl, -⟩ | ⟨b, hb, rfl, -⟩
      · exact .inl rfl
      · exact .inr ⟨s, b, rfl, by simp [commits, hf, hb], hb, rfl⟩
  case store => unfold storeObject at h; left; grind
  case delete => unfold deleteObjects at h; left; grind
  case deleteDir => unfold deleteObjects at h; left; grind
  case commitStream => unfold publish at h; left; grind
  all_goals left; grind

/-- An object was there before, or the call created it. -/
theorem objects_perform (h : w.perform env c = some (w', r)) {key : String} {data : Bytes}
    (hd : w'.objects key = some data) :
    w.objects key = some data ∨ (∃ owner, c = .store key data owner) ∨
    ∃ publication, c = .commitStream key data publication := by
  cases c <;> simp only [perform, Option.some.injEq] at h
  case exec s =>
    rcases execStmt_cases (Option.some.inj h) with ⟨rfl, -⟩ | ⟨b, hb, rfl, -⟩ <;> exact .inl hd
  case store => unfold storeObject at h; grind
  case delete => unfold deleteObjects at h; grind
  case deleteDir => unfold deleteObjects at h; grind
  case commitStream => unfold publish at h; grind
  all_goals grind

/-- Grants are handed out by nobody's call, and background work is announced by `go` alone. -/
theorem frame_perform (h : w.perform env c = some (w', r)) :
    w'.grants = w.grants ∧ (w'.background = w.background ∨
      ∃ b, c = .go b ∧ w'.batch = w.batch ∧ w'.background = b :: w.background) := by
  cases c <;> simp only [perform, Option.some.injEq] at h
  case exec s =>
    rcases execStmt_cases (Option.some.inj h) with ⟨rfl, -⟩ | ⟨b, hb, rfl, -⟩ <;> exact ⟨rfl, .inl rfl⟩
  case store => unfold storeObject at h; grind
  case delete => unfold deleteObjects at h; grind
  case deleteDir => unfold deleteObjects at h; grind
  case commitStream => unfold publish at h; grind
  all_goals grind

end World
end BatchGateway
