import BatchGateway.Apiserver.Listing

/-! What the API server works on: the tables of batches and files, the stored objects and the
cancel events, and the calls of its handlers. -/
namespace BatchGateway

namespace Table

variable {ρ : Type} [Indexed ρ] {t : Table ρ} {r r' : ρ}

/-- The primary key identifies a row. -/
theorem eq_of_id (h : r ∈ t.rows) (h' : r' ∈ t.rows) (he : Indexed.id r = Indexed.id r') : r = r' :=
  List.inj_on_of_nodup_map t.primaryKey h h' he

/-- `INSERT`, which fails on a key that is taken. -/
def insert (t : Table ρ) (r : ρ) : Option (Table ρ) :=
  if h : Indexed.id r ∈ t.rows.map Indexed.id then none
  else some ⟨r :: t.rows, List.nodup_cons.2 ⟨h, t.primaryKey⟩⟩

/-- `UPDATE`, which keeps the keys. -/
def update (t : Table ρ) (f : ρ → ρ) (hf : ∀ r, Indexed.id (f r) = Indexed.id r) : Table ρ where
  rows := t.rows.map f
  primaryKey := by
    have hkeys : t.rows.map (Indexed.id ∘ f) = t.rows.map Indexed.id :=
      List.map_congr_left fun r _ => hf r
    rw [List.map_map, hkeys]
    exact t.primaryKey

/-- `DELETE FROM .. WHERE id = ANY(..)` -/
def delete (t : Table ρ) (ids : List String) : Table ρ where
  rows := t.rows.filter fun r => !ids.contains (Indexed.id r)
  primaryKey := t.primaryKey.sublist (List.filter_sublist.map _)

end Table

namespace ApiServer

open Interleaving

/-! ### Rows -/

structure BatchSpec where
  object : String
  endpoint : String
  inputFileID : String
  completionWindow : String
  metadata : List (String × String)
  createdAt : Int
  deriving DecidableEq, Repr

/-- A row of `batch_items` with its tenant and what its spec column decodes into. -/
structure BatchRecord where
  tenantID : String
  expiry : Int := 0
  spec : BatchSpec
  state : BatchState
  deriving DecidableEq

def BatchRecord.item (r : BatchRecord) : BatchItem := r.state.row.toItem

instance : Indexed BatchRecord :=
  ⟨(·.state.row.id), (·.tenantID), (·.expiry), (·.state.row.tags)⟩

structure FileObject where
  id : String := ""
  bytes : Int := 0
  createdAt : Int := 0
  expiresAt : Option Int := none
  filename : String := ""
  object : String := ""
  purpose : String := ""
  status : String := ""
  statusDetails : String := ""
  deriving DecidableEq, Repr

/-- A row of `file_items`. The spec column holds the whole file object, its ID included; `none` is
a column that does not decode. -/
structure FileRecord where
  id : String
  tenantID : String
  expiry : Int := 0
  tags : Tags := []
  purpose : String
  file : Option FileObject
  deriving DecidableEq, Repr

instance : Indexed FileRecord := ⟨(·.id), (·.tenantID), (·.expiry), (·.tags)⟩

/-! ### Objects -/

/-- Where an object is stored. -/
abbrev Location := List String

/-- The parts of a path between its slashes. -/
def splitPath : List Char → List (List Char)
  | [] => [[]]
  | c :: cs =>
    if c = '/' then [] :: splitPath cs
    else
      match splitPath cs with
      | [] => [[c]]
      | p :: ps => (c :: p) :: ps

def pathParts (path : String) : List String := (splitPath path.toList).map String.ofList

/-- `filepath.Clean` of a relative path, by its parts; `done` is the path so far, backwards. -/
def cleanPath (done : List String) : List String → List String
  | [] => done.reverse
  | p :: ps =>
    if p = "" ∨ p = "." then cleanPath done ps
    else if p = ".." then
      match done with
      | [] => cleanPath [".."] ps
      | d :: rest => if d = ".." then cleanPath (p :: done) ps else cleanPath rest ps
    else cleanPath (p :: done) ps

inductive Backend where
  | fs | s3
  deriving DecidableEq, Repr

/-- The files system joins folder and name to a path inside its root. The object store takes them
as they are. -/
def Backend.locate : Backend → (folderName fileName : String) → Except Err Location
  | s3, folderName, fileName => .ok [folderName, fileName]
  | fs, folderName, fileName =>
    if folderName = "" then .error ⟨"folderName must not be empty", .plain⟩
    else if fileName = "" then .error ⟨"fileName must not be empty", .plain⟩
    else
      let path := cleanPath [] (pathParts folderName ++ pathParts fileName)
      if path = [] ∨ path.head? = some ".." then .error ⟨"path escapes from parent", .plain⟩
      else .ok path

/-- An error of the files store, as far as the handlers tell them apart. -/
inductive StorageErr where
  | notExist | other
  deriving DecidableEq, Repr

/-! ### The server -/

/-- The configuration of the server and the library functions that it uses. -/
structure Config where
  endpointAllowlist : List String := []
  passThroughHeaders : List String := []
  batchEventTTLSeconds : Int := 86400
  backend : Backend := .fs
  collation : Collation := .codepoint
  parseDuration : String → Option Duration
  /-- The integer at the start of a text. -/
  sscanf : String → Option Int
  atoi : String → Option Int
  /-- The digits of the SHA-256 sum. -/
  sha256 : String → List (Fin 16)
  /-- A text as the verb `%q` prints it. -/
  quote : String → String := quoted

structure BatchEvent where
  id : String
  expiresAt : Int
  deriving DecidableEq, Repr

structure State where
  batches : Table BatchRecord
  files : Table FileRecord
  objects : Location → Option Bytes
  events : List BatchEvent := []

/-- The calls of the handlers. -/
inductive Call where
  | now
  | newBatchID
  | getBatches (query : BaseQuery) (start limit : Nat)
  | getFiles (query : BaseQuery) (purpose : String) (start limit : Nat)
  | storeBatch (r : BatchRecord)
  | updateBatch (item : BatchItem) (expectedStatus : Option BatchStatusInfo)
  | pqDelete (id : String)
  | sendEvent (id : String) (ttl : Int)
  | retrieve (fileName folderName : String)
  | copy (content : Bytes)
  | deleteObject (fileName folderName : String)
  | deleteFiles (ids : List String)

namespace Call

abbrev Answer : Call → Type
  | now => Time
  | newBatchID => String
  | getBatches .. => Except Err (ItemPage BatchRecord)
  | getFiles .. => Except Err (ItemPage FileRecord)
  | storeBatch _ => Except Err Unit
  | updateBatch .. => Except Err Bool
  | pqDelete _ => Except Err Bool
  | sendEvent .. => Except Err Unit
  | retrieve .. => Except Err Bytes
  | copy _ => Bytes
  | deleteObject .. => Except StorageErr Unit
  | deleteFiles _ => Except Err Unit

/-- What a call answers that fails for reasons of the network. -/
def failure : (c : Call) → Option c.Answer
  | now | newBatchID | copy _ => none
  | getBatches .. | getFiles .. | storeBatch _ | updateBatch .. | pqDelete _ | sendEvent ..
  | retrieve .. | deleteFiles _ => some (.error ⟨"connection lost", .plain⟩)
  | deleteObject .. => some (.error .other)

end Call

abbrev Handler := Prog Call Call.Answer

def ask (c : Call) : Handler c.Answer := Prog.lift c

/-! ### What the calls do -/

/-- The record after a statement, whether or not it matched. -/
def BatchRecord.apply (now : Time) (stmt : Stmt) (r : BatchRecord) : BatchRecord :=
  { r with state := stmt.apply now r.state }

theorem BatchRecord.id_apply (now : Time) (stmt : Stmt) (r : BatchRecord) :
    Indexed.id (r.apply now stmt) = Indexed.id r := by
  change (stmt.apply now r.state).row.id = r.state.row.id
  rcases stmt.apply_cases with h | h
  · rw [h]
  · exact Stmt.id_exec h

/-- The statement matches the record. -/
def BatchRecord.matched (now : Time) (stmt : Stmt) (r : BatchRecord) : Bool :=
  (stmt.exec now r.state).toOption.join.isSome

/-- Run a statement on the batches; the row count says whether it matched. -/
def State.exec (s : State) (now : Time) (stmt : Stmt) : State × Bool :=
  ({ s with batches := s.batches.update (·.apply now stmt) (BatchRecord.id_apply now stmt) },
    s.batches.rows.any (·.matched now stmt))

def State.setObject (s : State) (loc : Location) (data : Option Bytes) : State :=
  { s with objects := Function.update s.objects loc data }

/-- The effect of a call that does not fail. -/
def effect (cfg : Config) (env : Env) (s : State) : (c : Call) → State × c.Answer
  | .now => (s, env.now)
  | .newBatchID => (s, ObjectKind.batch.idPrefix ++ env.uuid)
  | .getBatches query start limit =>
    (s, .ok (dbGet cfg.collation env.now query start limit [] [] s.batches.rows))
  | .getFiles query purpose start limit =>
    let extraFilters : List (FileRecord → Bool) :=
      if purpose = "" then [] else [fun r => r.purpose = purpose]
    (s, .ok (dbGet cfg.collation env.now query start limit extraFilters [] s.files.rows))
  | .storeBatch r =>
    match s.batches.insert r with
    | none => (s, .error ⟨"duplicate key value violates unique constraint", .plain⟩)
    | some batches => ({ s with batches }, .ok ())
  | .updateBatch item expectedStatus =>
    let p := s.exec env.now (.dbUpdate item expectedStatus)
    (p.1, .ok p.2)
  | .pqDelete id =>
    let p := s.exec env.now (.pqDelete id)
    (p.1, .ok p.2)
  | .sendEvent id ttl =>
    ({ s with events := s.events ++ [⟨id, Time.unix env.now + ttl⟩] }, .ok ())
  | .retrieve fileName folderName =>
    (s, do
      let loc ← cfg.backend.locate folderName fileName
      match s.objects loc with
      | none => .error ⟨"file does not exist", .plain⟩
      | some data => .ok data)
  | .copy content => (s, if env.fault = .none then content else content.take env.count)
  | .deleteObject fileName folderName =>
    match cfg.backend.locate folderName fileName with
    | .error _ => (s, .error .other)
    | .ok loc =>
      -- deleting an object that is not there succeeds in the object store
      (s.setObject loc none,
        if s.objects loc = none ∧ cfg.backend = .fs then .error .notExist else .ok ())
  | .deleteFiles ids => ({ s with files := s.files.delete ids }, .ok ())

/-- A call with the fault that the surroundings choose. -/
def perform (cfg : Config) (env : Env) (s : State) (c : Call) : State × c.Answer :=
  match env.fault, c.failure with
  | .before, some e => (s, e)
  | .after, some e => ((effect cfg env s c).1, e)
  | _, _ => effect cfg env s c

end ApiServer
end BatchGateway
