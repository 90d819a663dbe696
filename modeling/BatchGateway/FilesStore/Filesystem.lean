import BatchGateway.Lib.Pool
import BatchGateway.Worker.Manifest

/-! The filesystem client of the files store. Any number of writers store or stream an object under
one name. A step is one system call of one writer; a writer, or all of them, may crash between any
two steps. -/
namespace BatchGateway

open Interleaving

/-! ### Reading with limits -/

inductive FsErr where
  | fileExists | fileTooLarge | tooManyLines | failed
  deriving DecidableEq, Repr

/-- The counters of a reader that stops at a limit; a limit of zero is none. -/
structure LimitedCountingReader where
  sizeLimit : Int
  lineLimit : Int
  bytesRead : Int := 0
  lineCount : Int := 0
  hasTrailingContent : Bool := false
  deriving DecidableEq, Repr

namespace LimitedCountingReader

def linesExceeded (r : LimitedCountingReader) : Bool := 0 < r.lineLimit ∧ r.lineLimit < r.lineCount

/-- Count the lines of a chunk, up to the line that exceeds the limit. -/
def countLines : LimitedCountingReader → Bytes → LimitedCountingReader × Option FsErr
  | r, [] => (r, none)
  | r, b :: bs =>
    if b = 10 then
      let r := { r with lineCount := r.lineCount + 1, hasTrailingContent := false }
      if r.linesExceeded then (r, some .tooManyLines) else r.countLines bs
    else countLines { r with hasTrailingContent := true } bs

/-- What a read makes of a chunk, which may be the last one. -/
def read (r : LimitedCountingReader) (chunk : Bytes) (eof : Bool) :
    LimitedCountingReader × Option FsErr :=
  let r := { r with bytesRead := r.bytesRead + chunk.length }
  if 0 < r.sizeLimit ∧ r.sizeLimit < r.bytesRead then (r, some .fileTooLarge)
  else match r.countLines chunk with
    | (r, some e) => (r, some e)
    | (r, none) =>
      if eof ∧ r.hasTrailingContent then
        let r := { r with lineCount := r.lineCount + 1 }
        (r, if r.linesExceeded then some .tooManyLines else none)
      else (r, none)

end LimitedCountingReader

/-! ### Writers -/

/-- A name in the directory of the object: a temporary one, or that of the object, whose path is
never of the form `.tmp-N-M`. -/
inductive FsName where
  | object
  | temp (nanos : Int) (counter : Nat)
  deriving DecidableEq, Repr

structure FileMetadata where
  size : Nat
  linesNumber : Int := 0
  deriving DecidableEq, Repr

inductive WriterKind where
  | store (data : Bytes)
  | stream
  deriving DecidableEq, Repr

/-- The system call that a writer makes next. -/
inductive WriterPhase where
  /-- `Stat` of the object. -/
  | checking
  | making
  /-- `OpenFile` with `O_EXCL`, with the tries that are left. -/
  | creating (tries : Nat)
  | copying (rest : Bytes)
  /-- `Stat` of the open file in `Commit`. -/
  | committing
  | closing
  /-- `Stat` of the temporary name in `Store`. -/
  | measuring
  | linking
  /-- Removal of the temporary name, before the call returns. -/
  | cleaning (result : Except FsErr FileMetadata)
  /-- An open stream between two calls. -/
  | idle
  | abortClosing
  | abortRemoving
  | returned
  | crashed
  deriving DecidableEq, Repr

/-- What a writer does with its new file. -/
def WriterKind.opened : WriterKind → WriterPhase
  | store data => .copying data
  | stream => .idle

/-- An open file: its temporary name, its inode, and whether it was closed. -/
structure TempFile where
  nanos : Int
  counter : Nat
  inode : Nat
  closed : Bool := false
  deriving DecidableEq, Repr

def TempFile.name (f : TempFile) : FsName := .temp f.nanos f.counter

structure FsWriter where
  kind : WriterKind
  reader : LimitedCountingReader := ⟨0, 0, 0, 0, false⟩
  phase : WriterPhase := .checking
  file : Option TempFile := none
  /-- What the writer has written so far. -/
  written : Bytes := []
  /-- What the calls of the writer have returned, the last one first. -/
  reports : List (Except FsErr FileMetadata) := []
  deriving DecidableEq, Repr

/-- The bytes of a writer that has written everything. -/
def FsWriter.complete (w : FsWriter) : Bytes :=
  match w.kind with
  | .store data => data
  | .stream => w.written

structure FileSystem where
  names : FsName → Option Nat := fun _ => none
  /-- The contents of the files, by their inodes. -/
  inodes : List Bytes := []
  tmpCounter : Nat := 0
  writers : List FsWriter := []
  /-- The writers that linked their file as the object, the last one first. -/
  linkedBy : List Nat := []
  /-- How often the object was deleted. -/
  deletions : Nat := 0

/-- What the surroundings choose for a system call: whether it fails, the clock, the size of a
chunk, and whether the end of the input is known with it. -/
structure FsEnv where
  fails : Bool := false
  nanos : Int := 0
  size : Nat := 0
  eof : Bool := false
  deriving DecidableEq, Repr

inductive FsEvent where
  | store (data : Bytes) (fileSizeLimit lineNumLimit : Int)
  | openStream
  | step (i : Nat) (env : FsEnv)
  /-- A write on a stream, of which `accepted` bytes reach the file. -/
  | write (i : Nat) (chunk : Bytes) (accepted : Nat)
  | commit (i : Nat)
  | abort (i : Nat)
  | crash (i : Nat)
  /-- The process crashes with all its writers and starts again. -/
  | restart
  | delete
  /-- A temporary file is removed by somebody else. -/
  | sweep (nanos : Int) (counter : Nat)
  deriving DecidableEq, Repr

namespace FileSystem

variable (s : FileSystem)

/-- The object as a reader sees it. -/
def visible : Option Bytes := (s.names .object).bind (s.inodes[·]?)

def setWriter (i : Nat) (w : FsWriter) : FileSystem := { s with writers := s.writers.set i w }

def setName (name : FsName) (target : Option Nat) : FileSystem :=
  { s with names := Function.update s.names name target }

def append (inode : Nat) (chunk : Bytes) : FileSystem :=
  { s with inodes := s.inodes.modify inode (· ++ chunk) }

end FileSystem

namespace FsWriter

variable (w : FsWriter)

/-- A call of the writer returns. An opened stream can be used again. -/
def report (result : Except FsErr FileMetadata) : FsWriter :=
  { w with
    reports := result :: w.reports
    phase := if w.kind = .stream ∧ w.file.isSome then .idle else .returned }

def close (f : TempFile) (phase : WriterPhase) : FsWriter :=
  { w with file := some { f with closed := true }, phase }

def metadata : FileMetadata := ⟨w.written.length, w.reader.lineCount⟩

end FsWriter

namespace FileSystem

variable (s : FileSystem) (i : Nat) (w : FsWriter) (env : FsEnv)

/-- Create the temporary file of a writer. -/
def createTempFile (nanos : Int) : FileSystem :=
  let f : TempFile := { nanos, counter := s.tmpCounter + 1, inode := s.inodes.length }
  { s with
    tmpCounter := s.tmpCounter + 1
    inodes := s.inodes ++ [[]]
    names := Function.update s.names f.name (some f.inode)
    writers := s.writers.set i { w with file := some f, phase := w.kind.opened } }

/-- Copy one chunk of the input into the temporary file. -/
def copyChunk (f : TempFile) (rest : Bytes) : FileSystem :=
  let chunk := rest.take env.size
  let eof := rest = [] ∨ (env.eof ∧ rest.drop env.size = [])
  let read := w.reader.read chunk eof
  let w := { w with reader := read.1, written := w.written ++ chunk }
  (s.append f.inode chunk).setWriter i <| match read.2 with
    | some e => w.close f (.cleaning (.error e))
    | none => { w with phase := if eof then .closing else .copying (rest.drop env.size) }

/-- Link the temporary file as the object. -/
def link (f : TempFile) : FileSystem :=
  match s.names f.name, s.names .object with
  | none, _ => s.setWriter i { w with phase := .cleaning (.error .failed) }
  | some _, some _ => s.setWriter i { w with phase := .cleaning (.error .fileExists) }
  | some inode, none =>
    { (s.setName .object (some inode)).setWriter i
        { w with phase := .cleaning (.ok w.metadata) } with linkedBy := i :: s.linkedBy }

/-- A system call on the temporary file. -/
def stepFile (f : TempFile) : Option FileSystem :=
  match w.phase with
  | .copying rest =>
    if env.fails then some (s.setWriter i (w.close f (.cleaning (.error .failed))))
    else some (s.copyChunk i w env f rest)
  | .committing =>
    if env.fails ∨ f.closed then
      some (s.setWriter i { w with phase := .cleaning (.error .failed) })
    else some (s.setWriter i { w with phase := .closing })
  | .closing => some (s.setWriter i (w.close f (
      if env.fails then .cleaning (.error .failed)
      else if w.kind = .stream then .linking else .measuring)))
  | .measuring =>
    if env.fails ∨ s.names f.name = none then
      some (s.setWriter i { w with phase := .cleaning (.error .failed) })
    else some (s.setWriter i { w with phase := .linking })
  | .linking =>
    if env.fails then some (s.setWriter i { w with phase := .cleaning (.error .failed) })
    else some (s.link i w f)
  | .cleaning result =>
    let s := if env.fails then s else s.setName f.name none
    some (s.setWriter i (w.report result))
  | .abortClosing => some (s.setWriter i (w.close f .abortRemoving))
  | .abortRemoving =>
    let s := if env.fails then s else s.setName f.name none
    some (s.setWriter i { w with phase := .idle })
  | _ => none

def stepWriter : Option FileSystem :=
  match w.phase with
  | .checking =>
    if (s.names .object).isSome ∧ env.fails = false then
      some (s.setWriter i (w.report (.error .fileExists)))
    else some (s.setWriter i { w with phase := .making })
  | .making =>
    if env.fails then some (s.setWriter i (w.report (.error .failed)))
    else some (s.setWriter i { w with phase := .creating 3 })
  | .creating 0 => some (s.setWriter i (w.report (.error .failed)))
  | .creating (tries + 1) =>
    if env.fails then
      some { s.setWriter i (w.report (.error .failed)) with tmpCounter := s.tmpCounter + 1 }
    else if (s.names (.temp env.nanos (s.tmpCounter + 1))).isSome then
      some { s.setWriter i { w with phase := .creating tries } with tmpCounter := s.tmpCounter + 1 }
    else some (s.createTempFile i w env.nanos)
  | _ => w.file.bind (s.stepFile i w env)

/-- A write on a stream. A closed file takes nothing. -/
def streamWrite (chunk : Bytes) : Option FileSystem :=
  w.file.bind fun f =>
    if w.phase ≠ .idle then none
    else if f.closed then some s
    else some ((s.append f.inode chunk).setWriter i { w with written := w.written ++ chunk })

def step : FsEvent → Option FileSystem
  | .store data fileSizeLimit lineNumLimit =>
    let reader : LimitedCountingReader := { sizeLimit := fileSizeLimit, lineLimit := lineNumLimit }
    some { s with writers := s.writers ++ [{ kind := .store data, reader }] }
  | .openStream => some { s with writers := s.writers ++ [{ kind := .stream }] }
  | .step i env => s.writers[i]?.bind (s.stepWriter i · env)
  | .write i chunk accepted => s.writers[i]?.bind (s.streamWrite i · (chunk.take accepted))
  | .commit i => s.writers[i]?.bind fun w =>
    if w.phase = .idle then some (s.setWriter i { w with phase := .committing }) else none
  | .abort i => s.writers[i]?.bind fun w =>
    if w.phase = .idle then some (s.setWriter i { w with phase := .abortClosing }) else none
  | .crash i => s.writers[i]?.bind fun w => some (s.setWriter i { w with phase := .crashed })
  | .restart => some { s with
      tmpCounter := 0, writers := s.writers.map fun w => { w with phase := .crashed } }
  | .delete => if (s.names .object).isSome then
      some { s.setName .object none with deletions := s.deletions + 1 } else none
  | .sweep nanos counter => some (s.setName (.temp nanos counter) none)

end FileSystem
end BatchGateway
