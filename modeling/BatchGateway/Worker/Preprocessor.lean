import BatchGateway.Lib.Json
import BatchGateway.Worker.Manifest
import Mathlib.Data.List.Sort

/-! Ingestion: the input file is validated line by line and becomes a local copy, a plan for each
model, and the manifest. -/
namespace BatchGateway

open GoJson

/-! ### A request line -/

structure PlanMessage where
  role : String := ""
  content : Option Json := none

structure PlanBody where
  model : String := ""
  stream : Option Bool := none
  messages : Slice PlanMessage := {}

/-- The part of a request line that ingestion looks at. -/
structure PlanRequestLine where
  customID : String := ""
  method : String := ""
  url : String := ""
  body : PlanBody := {}

structure ContentPart where
  type : String := ""
  text : String := ""

/-- A field of a record that is itself decoded by `dec`. -/
def field {σ α : Type} (name : String) (get : σ → α) (set : α → σ → σ) (dec : Decoder α) :
    GoJson.Field σ where
  name := name
  decode v s := ((set (dec v (get s)).1 s), (dec v (get s)).2)

def messageFields : List (GoJson.Field PlanMessage) :=
  [field "role" (·.role) (fun x s => { s with role := x }) decodeString,
   field "content" (·.content) (fun x s => { s with content := x }) decodeRaw]

def bodyFields (codec : Codec) : List (GoJson.Field PlanBody) :=
  [field "model" (·.model) (fun x s => { s with model := x }) decodeString,
   field "stream" (·.stream) (fun x s => { s with stream := x }) decodeBoolPtr,
   field "messages" (·.messages) (fun x s => { s with messages := x })
     (decodeSlice {} (codec.decodeStruct messageFields))]

def lineFields (codec : Codec) : List (GoJson.Field PlanRequestLine) :=
  [field "custom_id" (·.customID) (fun x s => { s with customID := x }) decodeString,
   field "method" (·.method) (fun x s => { s with method := x }) decodeString,
   field "url" (·.url) (fun x s => { s with url := x }) decodeString,
   field "body" (·.body) (fun x s => { s with body := x }) (codec.decodeStruct (bodyFields codec))]

def partFields : List (GoJson.Field ContentPart) :=
  [field "type" (·.type) (fun x s => { s with type := x }) decodeString,
   field "text" (·.text) (fun x s => { s with text := x }) decodeString]

/-- The text of a message: a string, or the text parts of an array. -/
def messageText (codec : Codec) : Option Json → Except String String
  | none | some .null => .ok ""
  | some (.str s) => .ok s
  | some (.arr items) =>
    (codec.decodeValue (decodeSlice {} (codec.decodeStruct partFields)) {} "[]struct"
      (.arr items)).map fun parts =>
        String.join ((parts.items.filter (·.type = "text")).map ContentPart.text)
  | some _ => .error "must be a string or an array of content parts"

/-- The 32-bit FNV-1a hash. -/
def fnv32a (data : Bytes) : UInt32 :=
  data.foldl (fun h b => (h ^^^ b.toUInt32) * 16777619) 2166136261

/-- Requests without a system prompt sort last. -/
def noPrefixHash : UInt32 := 4294967295

/-- The hash of the first system message that has a text. -/
def prefixHash (codec : Codec) : List PlanMessage → Except String UInt32
  | [] => .ok noPrefixHash
  | msg :: rest =>
    if msg.role ≠ "system" then prefixHash codec rest
    else match messageText codec msg.content with
      | .error text => .error ("system message content: " ++ text)
      | .ok text => if text ≠ "" then .ok (fnv32a (Stdlib.textBytes text)) else prefixHash codec rest

/-- What ingestion keeps of a validated line. -/
structure LineMeta extends RequestMeta where
  prefixHash : UInt32
  deriving DecidableEq, Repr

/-- What a processor knows about the batch and about its gateways. -/
structure IngestConfig where
  /-- The endpoint is on the allowlist. -/
  allowed : String → Bool
  batchEndpoint : String
  /-- Some gateway serves the model. -/
  registered : String → Bool

/-- A line without its trailing newline. -/
def trimNewline (line : Bytes) : Bytes :=
  if line.getLast? = some 10 then line.dropLast else line

def hasPrefix (start text : String) : Bool := start.toList.isPrefixOf text.toList

def containsText (part text : String) : Bool := text.toList.tails.any (part.toList.isPrefixOf ·)

/-- Parse and validate a request line. -/
def extractAndValidateLine (lib : Stdlib) (codec : Codec) (cfg : IngestConfig) (line : Bytes) :
    Except String LineMeta :=
  match codec.unmarshal (codec.decodeStruct (lineFields codec)) {} "planRequestLine"
      (trimNewline line) with
  | .error text => .error text
  | .ok req =>
    if req.customID = "" then .error "custom_id is required"
    else if req.method = "" then .error "method is required"
    else if req.method ≠ "POST" then .error ("invalid method: " ++ req.method)
    else if req.url = "" then .error "url is required"
    else if hasPrefix "/" req.url = false ∨ hasPrefix "//" req.url ∨ containsText "://" req.url then
      .error ("url must be a relative path: " ++ req.url)
    else if cfg.allowed req.url = false then .error ("invalid endpoint: " ++ req.url)
    else if req.url ≠ cfg.batchEndpoint then
      .error ("request endpoint " ++ lib.quote req.url ++ " does not match batch endpoint " ++
        lib.quote cfg.batchEndpoint)
    else if req.body.model = "" then .error "model id is empty"
    else if req.body.stream = some true then
      .error ("streaming is not supported in batch requests (model: " ++ req.body.model ++ ")")
    else (prefixHash codec req.body.messages.items).map fun h =>
      { customID := req.customID, modelID := req.body.model, prefixHash := h }

/-! ### Plans -/

/-- Where a request line stands in the local input file. The length has 32 bits. -/
structure PlanEntry where
  offset : Int
  length : UInt32
  prefixHash : UInt32
  deriving DecidableEq, Repr

/-- How often a name was handed out, the latest count first. -/
abbrev UsedNames := List (String × Nat)

def handedOut (used : UsedNames) (name : String) : Nat := (used.lookup name).getD 0

def isSafeChar (c : Char) : Bool := c.isAlphanum || c = '.' || c = '_' || c = '-'

/-- Every run of characters that do not belong into a file name becomes one underscore. -/
def sanitizeFrom : Bool → List Char → List Char
  | _, [] => []
  | inRun, c :: cs =>
    if isSafeChar c then c :: sanitizeFrom false cs
    else if inRun then sanitizeFrom true cs
    else '_' :: sanitizeFrom true cs

/-- Try numbered names until one is free. Every name that is taken uses up one of the names in
`used`, so that the fuel lasts. -/
def internLoop (base : String) : Nat → UsedNames → String × UsedNames
  | 0, used => (base, used)
  | fuel + 1, used =>
    let n := handedOut used base + 1
    let used := (base, n) :: used
    let candidate := base ++ "_" ++ toString n
    if handedOut used candidate = 0 then (candidate, (candidate, 1) :: used)
    else internLoop base fuel used

/-- A file name for the model that no other model has. -/
def internModelID (modelID : String) (used : UsedNames) : String × UsedNames :=
  let safe := String.ofList (sanitizeFrom false modelID.toList)
  let base := if safe = "" then "unknown" else safe
  if handedOut used base = 0 then (base, (base, 1) :: used)
  else internLoop base (used.length + 1) used

/-- The plans under construction: the entries of each plan file and the names of the files. -/
structure PlanAccumulator where
  entries : String → List PlanEntry := fun _ => []
  modelToSafe : List (String × String) := []
  used : UsedNames := []

namespace PlanAccumulator

variable (acc : PlanAccumulator)

def append (safeModelID : String) (entry : PlanEntry) : PlanAccumulator :=
  { acc with entries := fun name =>
      if name = safeModelID then acc.entries name ++ [entry] else acc.entries name }

/-- The plan file of a model; a model that is new gets a name first. -/
def safeName (modelID : String) : String × PlanAccumulator :=
  match acc.modelToSafe.lookup modelID with
  | some safe => (safe, acc)
  | none =>
    let (safe, used) := internModelID modelID acc.used
    (safe, { acc with modelToSafe := acc.modelToSafe ++ [(modelID, safe)], used := used })

def accumulatePlanEntry (modelID : String) (entry : PlanEntry) : PlanAccumulator :=
  let (safe, acc) := acc.safeName modelID
  acc.append safe entry

/-- The finished plan file: similar requests stand together. -/
def planFile (safeModelID : String) : List PlanEntry :=
  (acc.entries safeModelID).insertionSort (·.prefixHash ≤ ·.prefixHash)

/-- The names of the plan files with the models they belong to. -/
def safeToModel : List (String × String) :=
  acc.modelToSafe.foldl (fun m p => (p.2, p.1) :: m.filter (·.1 ≠ p.2)) []

end PlanAccumulator

/-! ### The input file -/

/-- The lines of the input file, each with a newline at its end. -/
def normalizedLines : Bytes → Bytes → List Bytes
  | line, [] => if line = [] then [] else [line ++ newline]
  | line, b :: rest =>
    if b = 10 then (line ++ newline) :: normalizedLines [] rest
    else normalizedLines (line ++ [b]) rest

/-- What the loop over the lines has built. -/
structure Ingestion where
  /-- The local copy of the input file. -/
  input : Bytes := []
  entries : List ManifestEntry := []
  plans : PlanAccumulator := {}
  seenCustomIDs : List String := []
  offset : Int := 0
  lineCount : Int := 0
  rejectedCount : Int := 0

namespace Stdlib

variable (lib : Stdlib) (codec : Codec) (cfg : IngestConfig) (jobID : String)

/-- A line that was validated: a rejected one is skipped in the local file, an accepted one is
planned under its model. The offset of the next line uses the stored length. -/
def ingestLine (st : Ingestion) (line : Bytes) (info : LineMeta) : Ingestion :=
  let entry := lib.manifestEntry jobID cfg.registered st.lineCount info.toRequestMeta
  let st := { st with
    input := st.input ++ line
    entries := st.entries ++ [entry]
    seenCustomIDs := info.customID :: st.seenCustomIDs
    lineCount := st.lineCount + 1 }
  if entry.rejected then
    { st with rejectedCount := st.rejectedCount + 1, offset := st.offset + line.length }
  else
    let length := UInt32.ofNat line.length
    { st with
      plans := st.plans.accumulatePlanEntry info.modelID ⟨st.offset, length, info.prefixHash⟩
      offset := st.offset + length.toNat }

/-- The loop over the lines. Before each line the abort cause is looked at. -/
def preProcessLoop (cause : Int → Option Err) : List Bytes → Ingestion → Except Err Ingestion
  | lines, st =>
    match cause st.lineCount with
    | some e => .error e
    | none =>
      match lines with
      | [] => .ok st
      | line :: rest =>
        let number := toString (st.lineCount + 1)
        match extractAndValidateLine lib codec cfg line with
        | .error text => .error ⟨"validate request at line " ++ number ++ ": " ++ text, .plain⟩
        | .ok info =>
          if info.customID ∈ st.seenCustomIDs then
            .error ⟨"line " ++ number ++ ": duplicate custom_id " ++ lib.quote info.customID, .plain⟩
          else preProcessLoop cause rest (lib.ingestLine cfg jobID st line info)

/-- Ingestion of an input file. -/
def preProcessJob (cause : Int → Option Err) (input : Bytes) : Except Err Ingestion :=
  lib.preProcessLoop codec cfg jobID cause (normalizedLines [] input) {}

end Stdlib
end BatchGateway
