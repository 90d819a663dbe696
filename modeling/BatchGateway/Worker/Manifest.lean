import BatchGateway.Database.Types

/-! The manifest of a preprocessed batch: one entry per input line. -/
namespace BatchGateway

abbrev Bytes := List UInt8

def newline : Bytes := [10]

structure OutputError where
  code : String
  message : String
  deriving DecidableEq, Repr

/-- The response of an inference call; its body is kept as JSON text. -/
structure ResponseData where
  statusCode : Int
  requestID : String
  body : String
  deriving DecidableEq, Repr

structure OutputLine where
  id : String
  customID : String
  response : Option ResponseData := none
  error : Option OutputError := none
  deriving DecidableEq, Repr

/-- The library functions the processor builds on. -/
structure Stdlib where
  /-- SHA-256 in hexadecimal. -/
  sha256 : Bytes → String
  /-- `uuid.NewSHA1` in the object-identifier namespace, as text. -/
  uuidSHA1 : String → String
  /-- `json.Marshal` of an output line. -/
  marshal : OutputLine → Bytes
  /-- A Go-quoted string, the `%q` verb. -/
  quote : String → String

def newBatchRequestID (requestID : String) : String := "batch_req_" ++ requestID

/-- The file-store key of one request's result object. -/
def resumableResultKey (batchID requestID : String) : String :=
  "results/" ++ batchID ++ "/" ++ requestID ++ ".jsonl"

/-- The key used instead when the first one is taken by other content. -/
def fallbackResultKey (batchID requestID uuid : String) : String :=
  "results/" ++ batchID ++ "/" ++ requestID ++ "." ++ uuid ++ ".jsonl"

/-- The key belongs to a result object. -/
def isResultKey (key : String) : Bool := "results/".toList.isPrefixOf key.toList

theorem isResultKey_append (s : String) : isResultKey ("results/" ++ s) = true := by
  simp [isResultKey]

theorem isResultKey_resumableResultKey (batchID requestID : String) :
    isResultKey (resumableResultKey batchID requestID) = true := by
  simp [isResultKey, resumableResultKey]

theorem isResultKey_fallbackResultKey (batchID requestID uuid : String) :
    isResultKey (fallbackResultKey batchID requestID uuid) = true := by
  simp [isResultKey, fallbackResultKey]

structure ManifestEntry where
  ordinal : Int
  customID : String
  requestID : String
  rejected : Bool := false
  errorCode : String := ""
  resultKey : String := ""
  resultBytes : Int := 0
  resultSHA256 : String := ""
  errLine : Bytes := []
  deriving DecidableEq, Repr

structure RequestManifest where
  entries : List ManifestEntry
  deriving DecidableEq, Repr

/-- What identifies the lines of the manifest, in order. -/
def RequestManifest.identities (m : RequestManifest) : List (String × Int × String) :=
  m.entries.map fun e => (e.requestID, e.ordinal, e.customID)

/-- Accepted lines activate as pending, rejected ones as failed with their error object. -/
def ManifestEntry.activationEntry (e : ManifestEntry) : ResumableActivationEntry :=
  if e.rejected then
    { requestID := e.requestID
      ordinal := e.ordinal
      customID := e.customID
      status := EntryStatus.failed.text
      errorCode := e.errorCode
      resultKey := e.resultKey
      resultBytes := e.resultBytes
      resultSHA256 := e.resultSHA256 }
  else
    { requestID := e.requestID
      ordinal := e.ordinal
      customID := e.customID
      status := EntryStatus.pending.text }

def RequestManifest.activationEntries (m : RequestManifest) : List ResumableActivationEntry :=
  m.entries.map ManifestEntry.activationEntry

@[simp] theorem ManifestEntry.activationEntry_requestID (e : ManifestEntry) :
    e.activationEntry.requestID = e.requestID := by
  unfold activationEntry
  split <;> rfl

@[simp] theorem ManifestEntry.activationEntry_customID (e : ManifestEntry) :
    e.activationEntry.customID = e.customID := by
  unfold activationEntry
  split <;> rfl

@[simp] theorem ManifestEntry.activationEntry_ordinal (e : ManifestEntry) :
    e.activationEntry.ordinal = e.ordinal := by
  unfold activationEntry
  split <;> rfl

theorem ManifestEntry.activationEntry_status (e : ManifestEntry) :
    e.activationEntry.entryStatus = if e.rejected then .failed else .pending := by
  unfold activationEntry
  split <;> rfl

/-- The entries are numbered in order, and rejected ones keep their error lines as results. -/
structure RequestManifest.WellFormed (m : RequestManifest) : Prop where
  ordered : m.entries.Pairwise (·.ordinal < ·.ordinal)
  nonneg : ∀ e ∈ m.entries, 0 ≤ e.ordinal
  keys : ∀ e ∈ m.entries, e.rejected = true → isResultKey e.resultKey = true

theorem RequestManifest.WellFormed.activation {m : RequestManifest} (h : m.WellFormed) :
    m.activationEntries.Pairwise (·.ordinal < ·.ordinal) ∧
      ∀ e ∈ m.activationEntries, 0 ≤ e.ordinal := by
  refine ⟨?_, ?_⟩
  · rw [activationEntries, List.pairwise_map]
    simpa using h.ordered
  · rw [activationEntries, List.forall_mem_map]
    simpa using h.nonneg

/-- An activation inserts pending and failed entries only. -/
theorem RequestManifest.activation_issued (m : RequestManifest) :
    ∀ e ∈ m.activationEntries,
      e.status = EntryStatus.pending.text ∨ e.status = EntryStatus.failed.text := by
  rw [activationEntries, List.forall_mem_map]
  intro e _
  unfold ManifestEntry.activationEntry
  split
  · exact .inr rfl
  · exact .inl rfl

/-- What validation extracts from an input line. -/
structure RequestMeta where
  customID : String
  modelID : String
  deriving DecidableEq, Repr

namespace Stdlib

variable (lib : Stdlib)

/-- A request ID that depends on the batch and the custom ID only. -/
def stableBatchRequestID (batchID customID : String) : String :=
  newBatchRequestID (lib.uuidSHA1 (batchID ++ "\x00" ++ customID))

/-- A line rejected during ingestion. -/
def rejectedEntry (batchID : String) (ordinal : Int) (customID requestID errorCode : String)
    (errLine : Bytes) : ManifestEntry where
  ordinal := ordinal
  customID := customID
  requestID := requestID
  rejected := true
  errorCode := errorCode
  resultKey := resumableResultKey batchID requestID
  resultBytes := errLine.length
  resultSHA256 := lib.sha256 errLine
  errLine := errLine

/-- The error object of a line whose model no gateway serves. -/
def modelNotFoundLine (requestID : String) (line : RequestMeta) : Bytes :=
  let message := "model " ++ lib.quote line.modelID ++ " is not configured in any gateway"
  lib.marshal ⟨requestID, line.customID, none, some ⟨"model_not_found", message⟩⟩ ++ newline

/-- The manifest entry of one validated line. -/
def manifestEntry (jobID : String) (registered : String → Bool) (ordinal : Int)
    (line : RequestMeta) : ManifestEntry :=
  let requestID := lib.stableBatchRequestID jobID line.customID
  if registered line.modelID then
    { ordinal := ordinal, customID := line.customID, requestID := requestID }
  else
    lib.rejectedEntry jobID ordinal line.customID requestID "model_not_found"
      (lib.modelNotFoundLine requestID line)

/-- The loop over the validated lines; a repeated custom ID ends it with an error. -/
def ingestLoop (jobID : String) (registered : String → Bool) :
    Int → List String → List RequestMeta → Except Err (List ManifestEntry)
  | _, _, [] => .ok []
  | lineCount, seen, line :: lines =>
    if line.customID ∈ seen then
      .error ⟨"line " ++ toString (lineCount + 1) ++ ": duplicate custom_id " ++
        lib.quote line.customID, .plain⟩
    else
      (ingestLoop jobID registered (lineCount + 1) (line.customID :: seen) lines).map
        (lib.manifestEntry jobID registered lineCount line :: ·)

def ingest (jobID : String) (registered : String → Bool) (lines : List RequestMeta) :
    Except Err RequestManifest :=
  (lib.ingestLoop jobID registered 0 [] lines).map RequestManifest.mk

variable {lib} {jobID : String} {registered : String → Bool} {lines : List RequestMeta}

theorem ingestLoop_error {n : Int} {seen : List String} {err : Err}
    (h : lib.ingestLoop jobID registered n seen lines = .error err) : err.kind = .plain := by
  induction lines generalizing n seen with
  | nil => cases h
  | cons line lines ih =>
    rw [ingestLoop] at h
    split at h
    · cases h
      rfl
    · cases hrest : lib.ingestLoop jobID registered (n + 1) (line.customID :: seen) lines with
      | error err' =>
        simp only [hrest, Except.map, Except.error.injEq] at h
        subst h
        exact ih hrest
      | ok rest => simp [hrest, Except.map] at h

theorem ingest_error {err : Err} (h : lib.ingest jobID registered lines = .error err) :
    err.kind = .plain := by
  unfold ingest at h
  cases hloop : lib.ingestLoop jobID registered 0 [] lines with
  | error err' =>
    simp only [hloop, Except.map, Except.error.injEq] at h
    subst h
    exact ingestLoop_error hloop
  | ok es => simp [hloop, Except.map] at h

theorem manifestEntry_requestID (jobID : String) (registered : String → Bool) (ordinal : Int)
    (line : RequestMeta) : (lib.manifestEntry jobID registered ordinal line).requestID =
      lib.stableBatchRequestID jobID line.customID := by
  simp only [manifestEntry]
  split <;> rfl

theorem manifestEntry_customID (jobID : String) (registered : String → Bool) (ordinal : Int)
    (line : RequestMeta) :
    (lib.manifestEntry jobID registered ordinal line).customID = line.customID := by
  simp only [manifestEntry]
  split <;> rfl

theorem manifestEntry_resultKey {ordinal : Int} {line : RequestMeta}
    (h : (lib.manifestEntry jobID registered ordinal line).rejected = true) :
    let e := lib.manifestEntry jobID registered ordinal line
    e.resultKey = resumableResultKey jobID e.requestID ∧
      e.resultBytes = e.errLine.length ∧ e.resultSHA256 = lib.sha256 e.errLine := by
  simp only [manifestEntry] at h ⊢
  split at h
  · cases h
  next hreg =>
    simp only [hreg]
    exact ⟨rfl, rfl, rfl⟩

theorem manifestEntry_ordinal (jobID : String) (registered : String → Bool) (ordinal : Int)
    (line : RequestMeta) : (lib.manifestEntry jobID registered ordinal line).ordinal = ordinal := by
  simp only [manifestEntry]
  split <;> rfl

theorem manifestEntry_rejected (jobID : String) (registered : String → Bool) (ordinal : Int)
    (line : RequestMeta) :
    (lib.manifestEntry jobID registered ordinal line).rejected = !registered line.modelID := by
  simp only [manifestEntry]
  split
  next hreg => simp [hreg]
  next hreg =>
    simp only [hreg]
    rfl

/-- The manifest is built line by line, and no custom ID occurs twice. -/
theorem ingestLoop_ok {n : Int} {seen : List String} {es : List ManifestEntry}
    (h : lib.ingestLoop jobID registered n seen lines = .ok es) :
    es = lines.mapIdx (fun i line => lib.manifestEntry jobID registered (n + i) line) ∧
      (lines.map RequestMeta.customID).Nodup ∧ ∀ line ∈ lines, line.customID ∉ seen := by
  induction lines generalizing n seen es with
  | nil =>
    cases h
    simp
  | cons line lines ih =>
    rw [ingestLoop] at h
    split at h
    · cases h
    next hseen =>
      cases hrest : lib.ingestLoop jobID registered (n + 1) (line.customID :: seen) lines with
      | error err => simp [hrest, Except.map] at h
      | ok rest =>
        simp only [hrest, Except.map, Except.ok.injEq] at h
        obtain ⟨hes, hnodup, hnew⟩ := ih hrest
        have hindex : ∀ i : Nat, n + 1 + (i : Int) = n + ((i + 1 : Nat) : Int) := by
          intro i
          omega
        refine ⟨?_, ?_, ?_⟩
        · rw [← h, hes, List.mapIdx_cons]
          simp [hindex]
        · rw [List.map_cons, List.nodup_cons]
          refine ⟨fun hmem => ?_, hnodup⟩
          obtain ⟨other, hother, hid⟩ := List.mem_map.1 hmem
          exact hnew other hother (hid ▸ List.mem_cons_self)
        · intro other hother
          rcases List.mem_cons.1 hother with rfl | hother
          · exact hseen
          · exact fun hmem => hnew other hother (List.mem_cons_of_mem _ hmem)

variable {m : RequestManifest}

section

variable (h : lib.ingest jobID registered lines = .ok m)
include h

theorem ingestLoop_of_ingest :
    lib.ingestLoop jobID registered 0 [] lines = .ok m.entries := by
  unfold ingest at h
  cases hloop : lib.ingestLoop jobID registered 0 [] lines with
  | error err => simp [hloop, Except.map] at h
  | ok es =>
    simp only [hloop, Except.map, Except.ok.injEq] at h
    rw [← h]

/-- Every entry of a manifest is built from one line. -/
theorem ingest_entry {e : ManifestEntry} (he : e ∈ m.entries) :
    ∃ ordinal line, e = lib.manifestEntry jobID registered ordinal line := by
  rw [(ingestLoop_ok (ingestLoop_of_ingest h)).1, List.mem_mapIdx] at he
  obtain ⟨i, hi, rfl⟩ := he
  exact ⟨_, _, rfl⟩

theorem ingest_wellFormed : m.WellFormed := by
  have hkeys : ∀ e ∈ m.entries, e.rejected = true → isResultKey e.resultKey = true := by
    intro e he hr
    obtain ⟨ordinal, line, rfl⟩ := ingest_entry h he
    rw [(manifestEntry_resultKey hr).1]
    exact isResultKey_resumableResultKey ..
  refine ⟨?_, fun e he => ?_, hkeys⟩
  · rw [(ingestLoop_ok (ingestLoop_of_ingest h)).1, List.pairwise_iff_getElem]
    intro i j hi hj hij
    simp only [List.getElem_mapIdx, manifestEntry_ordinal]
    omega
  · rw [(ingestLoop_ok (ingestLoop_of_ingest h)).1, List.mem_mapIdx] at he
    obtain ⟨i, hi, rfl⟩ := he
    rw [manifestEntry_ordinal]
    omega

end

/-- The bytes of a text. -/
def textBytes (s : String) : Bytes := s.toUTF8.data.toList

/-- A string in JSON; of the characters that need an escape only quotes occur. -/
def marshalText (s : String) : String :=
  "\"" ++ String.ofList (s.toList.flatMap fun c => if c = '"' then ['\\', c] else [c]) ++ "\""

/-- JSON of an output line. -/
def marshalPlain (line : OutputLine) : String :=
  let text := marshalText
  let response := match line.response with
    | none => "null"
    | some r => "\x7b\"status_code\":" ++ toString r.statusCode ++ ",\"request_id\":" ++
        text r.requestID ++ ",\"body\":" ++ r.body ++ "\x7d"
  let error := match line.error with
    | none => "null"
    | some e => "\x7b\"code\":" ++ text e.code ++ ",\"message\":" ++ text e.message ++ "\x7d"
  "\x7b\"id\":" ++ text line.id ++ ",\"custom_id\":" ++ text line.customID ++
    ",\"response\":" ++ response ++ ",\"error\":" ++ error ++ "\x7d"

/-- The request of the concrete runs: custom ID `a` of batch `batch_1`. -/
def sampleRequest : String := "batch_req_e7ee1324-6ddc-52a8-93a7-dba1ef5c90f6"

/-- Its line when the request succeeded and when it failed. -/
def sampleLine (succeeded : Bool) : String :=
  if succeeded then
    marshalPlain ⟨sampleRequest, "a", some ⟨200, "", "\x7b\x7d"⟩, none⟩ ++ "\n"
  else
    marshalPlain ⟨sampleRequest, "a", none, some ⟨"server_error", "boom"⟩⟩ ++ "\n"

/-- The error object of a request for a model that no gateway serves. -/
def sampleRejectedLine : String :=
  marshalPlain ⟨sampleRequest, "a", none,
    some ⟨"model_not_found", "model \"x\" is not configured in any gateway"⟩⟩ ++ "\n"

/-- Its line in an error artifact when it was not executed. -/
def sampleNotExecutedLine (code : BatchErrorCode) : String :=
  marshalPlain ⟨sampleRequest, "a", none, some ⟨code.text, code.message⟩⟩ ++ "\n"

/-- The library on the inputs of the concrete runs. -/
def sample : Stdlib where
  sha256 data :=
    if data = textBytes (sampleLine true) then
      "edebdc91d2de1abca7abedf8967baff257cb990df0b4ebdae687473581a88bab"
    else if data = textBytes (sampleLine false) then
      "48d6304891841ca594876c61fb927ba882ef62a2b4cb242191e71a075468705e"
    else if data = textBytes sampleRejectedLine then
      "9bcd9e5f5732e1aaeb05f80ef3ad79ac96db3460b087841e153fd75669352f21"
    else if data = textBytes (sampleNotExecutedLine .batchExpired) then
      "1a520049dda1d8f72396a3b8ab4a913f6f7c24ca85aad88ce1a74fad645a69e2"
    else if data = textBytes (sampleNotExecutedLine .batchCancelled) then
      "51fcff9ea367f9c4e63e27dd841d3a980b8fc1fb4729b5d9c6ac2256168f75b4"
    else ""
  uuidSHA1 name :=
    if name = "batch_1\x00a" then "e7ee1324-6ddc-52a8-93a7-dba1ef5c90f6"
    else if name = "batch_1\x00b" then "df4a1c47-3bc8-5bce-9192-b8f0f95cef83"
    else if name = "batch_1\x00output" then "30bc28a0-ecce-51f7-8c45-856a095ccfec"
    else if name = "batch_1\x00error" then "95707319-26db-5cc7-928a-620e8413a5be"
    else ""
  marshal line := textBytes (marshalPlain line)
  quote s := "\"" ++ s ++ "\""

end Stdlib
end BatchGateway
