import BatchGateway.Lib.LittleEndian
import BatchGateway.Worker.SourcePlanfile

/-! The plan files on the local disk: how ingestion writes them and how the source reads them. -/
namespace BatchGateway

open GoJson

/-! ### The format of a plan entry -/

def planEntrySize : Nat := 16

/-- The `uint64` of an `int64`. -/
def uint64 (n : Int) : Nat := (n % 2 ^ 64).toNat

/-- The `int64` of a `uint64`. -/
def int64 (n : Nat) : Int := Int.bmod n (2 ^ 64)

def PlanEntry.marshalBinary (e : PlanEntry) : Bytes :=
  LittleEndian.put 8 (uint64 e.offset) ++ LittleEndian.put 4 e.length.toNat ++
    LittleEndian.put 4 e.prefixHash.toNat

def unmarshalPlanEntry (buf : Bytes) : PlanEntry where
  offset := int64 (LittleEndian.get (buf.take 8))
  length := UInt32.ofNat (LittleEndian.get ((buf.drop 8).take 4))
  prefixHash := UInt32.ofNat (LittleEndian.get ((buf.drop 12).take 4))

/-- Decode entry after entry until the end of the file. -/
def readPlanLoop : Nat → Bytes → Except Err (List PlanEntry)
  | 0, _ => .ok []
  | fuel + 1, data =>
    if data = [] then .ok []
    else if data.length < planEntrySize then
      .error ⟨"failed to read plan entry: unexpected EOF", .plain⟩
    else (readPlanLoop fuel (data.drop planEntrySize)).map
      (unmarshalPlanEntry (data.take planEntrySize) :: ·)

/-! ### The directory of a job -/

/-- The local disk of a processor. The size of a file is an `int64`. -/
structure LocalDisk where
  maxFileSize : Nat
  fits : maxFileSize < 2 ^ 63

/-- Write a file as a whole. -/
def LocalDisk.write (disk : LocalDisk) (what : String) (data : Bytes) : Except Err Bytes :=
  if data.length ≤ disk.maxFileSize then .ok data
  else .error ⟨what ++ ": file too large", .plain⟩

structure ModelMapFile where
  modelToSafe : List (String × String)
  safeToModel : List (String × String)
  lineCount : Int
  rejectedCount : Int

/-- What preprocessing leaves in the directory of the job. -/
structure JobFiles where
  /-- The local input file. -/
  input : Bytes
  /-- The plan files by the names of their models. -/
  plans : List (String × Bytes)
  modelMap : ModelMapFile

def JobFiles.readPlanEntries (files : JobFiles) (safeModelID : String) :
    Except Err (List PlanEntry) :=
  match files.plans.lookup safeModelID with
  | none => .error ⟨"failed to open plan file " ++ safeModelID ++ ".plan", .plain⟩
  | some data =>
    if data.length % planEntrySize ≠ 0 then
      .error ⟨"plan file size " ++ toString data.length ++ " is not a multiple of " ++
        toString planEntrySize, .plain⟩
    else readPlanLoop data.length data

namespace PlanAccumulator

variable (acc : PlanAccumulator) (disk : LocalDisk)

/-- Write the plan files of the models, one after the other. -/
def finalize : List String → List (String × Bytes) → Except Err (List (String × Bytes))
  | [], files => .ok files
  | safeModelID :: rest, files =>
    if acc.entries safeModelID = [] then finalize rest files
    else match disk.write ("write plan entry for " ++ safeModelID)
        ((acc.planFile safeModelID).flatMap PlanEntry.marshalBinary) with
      | .error e => .error e
      | .ok data => finalize rest ((safeModelID, data) :: files)

def finalizePlanFiles : Except Err (List (String × Bytes)) :=
  acc.finalize disk ((acc.modelToSafe.map Prod.snd).insertionSort (· ≤ ·)) []

end PlanAccumulator

/-- Ingestion of an input file into the directory of the job. -/
def Stdlib.preProcessFiles (lib : Stdlib) (codec : Codec) (cfg : IngestConfig) (disk : LocalDisk)
    (jobID : String) (cause : Int → Option Err) (input : Bytes) :
    Except Err (RequestManifest × JobFiles) :=
  match lib.preProcessJob codec cfg jobID cause input with
  | .error e => .error e
  | .ok st =>
    match disk.write "flush input file" st.input with
    | .error e => .error e
    | .ok copied =>
      match st.plans.finalizePlanFiles disk with
      | .error e => .error (e.wrap "finalize plan files")
      | .ok plans => .ok (⟨st.entries⟩,
          { input := copied
            plans := plans
            modelMap := ⟨st.plans.modelToSafe, st.plans.safeToModel, st.lineCount,
              st.rejectedCount⟩ })

/-! ### Reading back what was written -/

theorem length_marshalBinary (e : PlanEntry) : e.marshalBinary.length = planEntrySize := by
  rw [PlanEntry.marshalBinary, List.length_append, List.length_append, LittleEndian.length_put,
    LittleEndian.length_put, LittleEndian.length_put, planEntrySize]

theorem uint64_cast {n : Int} (h₀ : 0 ≤ n) (h : n < 2 ^ 63) : (uint64 n : Int) = n := by
  unfold uint64
  omega

theorem int64_uint64 {n : Int} (h₀ : 0 ≤ n) (h : n < 2 ^ 63) : int64 (uint64 n) = n := by
  unfold int64
  rw [uint64_cast h₀ h]
  exact Int.bmod_eq_of_le (by omega) (by omega)

/-- An entry survives its format when its offset is one of a file. -/
theorem unmarshal_marshalBinary {e : PlanEntry} (h₀ : 0 ≤ e.offset) (h : e.offset < 2 ^ 63) :
    unmarshalPlanEntry e.marshalBinary = e := by
  have hword : ∀ n : UInt32, UInt32.ofNat (LittleEndian.get (LittleEndian.put 4 n.toNat)) = n := by
    intro n
    have hn : n.toNat < 256 ^ 4 := n.toNat_lt
    rw [LittleEndian.get_put hn]
    exact UInt32.ofNat_toNat
  have hoffset : LittleEndian.get (LittleEndian.put 8 (uint64 e.offset)) = uint64 e.offset := by
    have hcast := uint64_cast h₀ h
    exact LittleEndian.get_put (by omega)
  have htake : e.marshalBinary.take 8 = LittleEndian.put 8 (uint64 e.offset) := by
    rw [PlanEntry.marshalBinary, List.append_assoc]
    exact List.take_left' (LittleEndian.length_put ..)
  have hlength : (e.marshalBinary.drop 8).take 4 = LittleEndian.put 4 e.length.toNat := by
    rw [PlanEntry.marshalBinary, List.append_assoc, List.drop_left' (LittleEndian.length_put ..)]
    exact List.take_left' (LittleEndian.length_put ..)
  have hhash : (e.marshalBinary.drop 12).take 4 = LittleEndian.put 4 e.prefixHash.toNat := by
    rw [PlanEntry.marshalBinary, List.drop_left' (by simp)]
    exact List.take_of_length_le (by simp)
  rw [unmarshalPlanEntry, htake, hlength, hhash, hoffset, int64_uint64 h₀ h, hword, hword]

/-- A plan file is read back entry by entry. -/
theorem readPlanLoop_flatMap {es : List PlanEntry} {fuel : Nat}
    (hfuel : es.length ≤ fuel) (h : ∀ e ∈ es, 0 ≤ e.offset ∧ e.offset < 2 ^ 63) :
    readPlanLoop fuel (es.flatMap PlanEntry.marshalBinary) = .ok es := by
  induction es generalizing fuel with
  | nil => cases fuel <;> rfl
  | cons e es ih =>
    cases fuel with
    | zero => cases hfuel
    | succ fuel =>
      obtain ⟨h₀, hlt⟩ := h e List.mem_cons_self
      have hrest := ih (Nat.le_of_succ_le_succ hfuel) fun x hx => h x (List.mem_cons_of_mem _ hx)
      have hlen := length_marshalBinary e
      have hpos : e.marshalBinary ++ es.flatMap PlanEntry.marshalBinary ≠ [] := by
        intro hnil
        rw [(List.append_eq_nil_iff.1 hnil).1] at hlen
        cases hlen
      rw [List.flatMap_cons, readPlanLoop, if_neg hpos, if_neg, List.take_left' hlen,
        List.drop_left' hlen, hrest, unmarshal_marshalBinary h₀ hlt]
      · rfl
      · rw [List.length_append, hlen]
        omega

theorem length_flatMap_marshalBinary (es : List PlanEntry) :
    (es.flatMap PlanEntry.marshalBinary).length = planEntrySize * es.length := by
  induction es with
  | nil => rfl
  | cons e es ih =>
    rw [List.flatMap_cons, List.length_append, length_marshalBinary, ih, List.length_cons,
      Nat.mul_succ, Nat.add_comm]

/-- The plan file that was written for a model is read back. -/
theorem JobFiles.readPlanEntries_flatMap {files : JobFiles} {safe : String} {es : List PlanEntry}
    (hfile : files.plans.lookup safe = some (es.flatMap PlanEntry.marshalBinary))
    (h : ∀ e ∈ es, 0 ≤ e.offset ∧ e.offset < 2 ^ 63) : files.readPlanEntries safe = .ok es := by
  have hlen := length_flatMap_marshalBinary es
  have hsize : ¬ (es.flatMap PlanEntry.marshalBinary).length % planEntrySize ≠ 0 := by
    rw [hlen, Nat.mul_mod_right]
    exact fun h => h rfl
  have hfuel : es.length ≤ (es.flatMap PlanEntry.marshalBinary).length := by
    rw [hlen, planEntrySize]
    omega
  rw [JobFiles.readPlanEntries, hfile]
  dsimp only
  rw [if_neg hsize]
  exact readPlanLoop_flatMap hfuel h

end BatchGateway
