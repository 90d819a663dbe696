import BatchGateway.Apiserver.Store
import BatchGateway.Apiserver.Cancel

/-! The handlers of the batch and file requests. -/
namespace BatchGateway.ApiServer

open Interleaving

/-! ### Requests and responses -/

structure OutputExpiresAfter where
  seconds : Int
  anchor : String
  deriving DecidableEq, Repr

/-- The body of a creation. The metadata stand in the order in which they are visited. -/
structure CreateBatchRequest where
  inputFileID : String
  endpoint : String
  completionWindow : String
  metadata : List (String × String) := []
  outputExpiresAfter : Option OutputExpiresAfter := none
  deriving DecidableEq, Repr

inductive Request where
  /-- The body, or why it does not decode; the headers; the trace context. -/
  | createBatch (body : Except String CreateBatchRequest) (header : String → List String)
      (carrier : List (String × String))
  | listBatches (limit after : String)
  | retrieveBatch (batchID : String)
  | cancelBatch (batchID : String)
  | listFiles (after limit order purpose : String)
  | retrieveFile (fileID : String)
  | downloadFile (fileID : String)
  | deleteFile (fileID : String)

structure APIError where
  httpStatus : Nat
  code : Option String := none
  type : String
  message : String
  param : Option String := none
  deriving DecidableEq, Repr

def errorCodeToType : Nat → String
  | 400 => "invalid_request_error"
  | 401 => "authentication_error"
  | 403 => "permission_error"
  | 404 => "not_found_error"
  | 422 => "invalid_request_error"
  | 429 => "rate_limit_error"
  | code => if 500 ≤ code then "server_error" else "api_error"

def newAPIError (httpStatus : Nat) (errorType message : String) : APIError where
  httpStatus
  type := if errorType = "" then errorCodeToType httpStatus else errorType
  message

structure Batch where
  id : String
  spec : BatchSpec
  info : BatchStatusInfo
  deriving DecidableEq, Repr

structure ListBatchResponse where
  object : String := "list"
  data : List Batch
  firstID : Option String
  lastID : Option String
  hasMore : Bool
  deriving DecidableEq, Repr

structure ListFilesResponse where
  object : String := "list"
  data : List FileObject
  firstID : String
  lastID : String
  hasMore : Bool
  deriving DecidableEq, Repr

structure FileDeleteResponse where
  id : String
  object : String := "file"
  deleted : Bool := true
  deriving DecidableEq, Repr

inductive Body where
  | error (e : APIError)
  | batch (b : Batch)
  | batches (resp : ListBatchResponse)
  | file (f : FileObject)
  | files (resp : ListFilesResponse)
  | deleted (resp : FileDeleteResponse)
  | content (data : Bytes)
  deriving DecidableEq, Repr

structure Response where
  status : Nat
  headers : List (String × String)
  body : Body
  deriving DecidableEq, Repr

def writeJSONResponse (status : Nat) (body : Body) : Response :=
  ⟨status, [("Content-Type", "application/json")], body⟩

def writeAPIError (e : APIError) : Response := writeJSONResponse e.httpStatus (.error e)

/-- A refusal with the type that belongs to its status. -/
def refuse (httpStatus : Nat) (message : String) : Response :=
  writeAPIError (newAPIError httpStatus "" message)

def writeInternalServerError : Response := refuse 500 "Internal Server Error"

/-! ### Conversions -/

def dbItemToBatch (r : BatchRecord) : Option Batch :=
  if r.state.row.specDecodes then some ⟨r.state.row.id, r.spec, r.state.row.status⟩ else none

/-- When the completion window ends. There is no answer if the window is no duration. -/
def priority (cfg : Config) (spec : BatchSpec) : Option Int :=
  if spec.completionWindow ≠ "" ∧ 0 < spec.createdAt then
    (cfg.parseDuration spec.completionWindow).map fun d => (spec.createdAt * 1000000000 + d) / 1000
  else some 0

def batchToDBItem (cfg : Config) (batch : Batch) (tenantID : String) (tags : Tags) :
    Option BatchRecord :=
  (priority cfg batch.spec).map fun priority => {
    tenantID
    expiry := batch.info.expiresAt.getD 0
    spec := batch.spec
    state := { row := { id := batch.id, tags, status := batch.info, priority } } }

/-- `filepath.Ext` -/
def fileExt (path : String) : String :=
  let back := path.toList.reverse
  let ext := back.takeWhile fun c => c ≠ '.' ∧ c ≠ '/'
  match back.drop ext.length with
  | '.' :: _ => String.ofList ('.' :: ext.reverse)
  | _ => ""

def fileStorageName (fileID origFilename : String) : String :=
  let ext := fileExt origFilename
  fileID ++ if ext = "" then ".jsonl" else ext

def hexText (digits : List (Fin 16)) : String :=
  String.ofList (digits.map fun d : Fin 16 => Nat.digitChar d.val)

/-- A storage-safe folder name for a tenant. -/
def Config.folder (cfg : Config) (tenantID : String) : String :=
  "t-" ++ hexText ((cfg.sha256 tenantID).take 61)

def getFolderNameByTenantID (cfg : Config) (tenantID : String) : Except String String :=
  if tenantID = "" then .error "tenantID cannot be empty" else .ok (cfg.folder tenantID)

/-! ### Creation -/

def defaultEndpoints : List String :=
  ["/v1/responses", "/v1/chat/completions", "/v1/embeddings", "/v1/completions", "/v1/moderations"]

def minExpirationSeconds : Int := 3600

def maxExpirationSeconds : Int := 2592000

/-- What is wrong with the first pair that is not acceptable. -/
def metadataError (metadata : List (String × String)) : Option String :=
  metadata.findSome? fun (k, v) =>
    if 64 < k.utf8ByteSize then some "metadata: key exceeds 64 characters"
    else if 512 < v.utf8ByteSize then
      some ("metadata: value for key " ++ quoted k ++ " exceeds 512 characters")
    else none

def CreateBatchRequest.validate (cfg : Config) (r : CreateBatchRequest) : Except String Unit :=
  if r.completionWindow = "" then .error "completion_window is required"
  else if cfg.parseDuration r.completionWindow = none then
    .error "completion_window must be a valid duration (e.g., 24h)"
  else if r.endpoint = "" then .error "endpoint is required"
  else if r.endpoint ∉ defaultEndpoints ∧ r.endpoint ∉ cfg.endpointAllowlist then
    .error ("invalid endpoint: " ++ r.endpoint)
  else if r.inputFileID = "" then .error "input_file_id is required"
  else if 16 < r.metadata.length then
    .error ("metadata: too many keys (max 16, got " ++ toString r.metadata.length ++ ")")
  else
    match metadataError r.metadata with
    | some e => .error e
    | none =>
      match r.outputExpiresAfter with
      | none => .ok ()
      | some o =>
        if o.anchor ≠ "created_at" then
          .error "output_expires_after.anchor must be 'created_at'"
        else if o.seconds < minExpirationSeconds ∨ maxExpirationSeconds < o.seconds then
          .error ("output_expires_after.seconds must be between " ++ toString minExpirationSeconds ++
            " (1 hour) and " ++ toString maxExpirationSeconds ++ " (30 days)")
        else .ok ()

/-- Set the value of a key. -/
def setTag (tags : Tags) (key value : String) : Tags :=
  tags.filter (·.1 ≠ key) ++ [(key, value)]

/-- The tags of a new batch: the expiration of its output, the pass-through headers and the trace
context. -/
def batchTags (cfg : Config) (r : CreateBatchRequest) (header : String → List String)
    (carrier : List (String × String)) : Tags :=
  let expiration : Tags := match r.outputExpiresAfter with
    | none => []
    | some o => [("output_expires_after_anchor", o.anchor),
        ("output_expires_after_seconds", toString o.seconds)]
  let passed := cfg.passThroughHeaders.foldl (fun tags name =>
    let v := lastHeaderValue (header name) ""
    if v ≠ "" then setTag tags ("pth:" ++ name) v else tags) expiration
  carrier.foldl (fun tags (k, v) => setTag tags ("otel:" ++ k) v) passed

def createBatch (cfg : Config) (tenant : Tenant) (body : Except String CreateBatchRequest)
    (header : String → List String) (carrier : List (String × String)) : Handler Response := do
  let now ← ask .now
  match body with
  | .error e => return refuse 400 e
  | .ok batchReq =>
    match batchReq.validate cfg with
    | .error e => return refuse 400 e
    | .ok () =>
      match ← ask (.getFiles { ids := [batchReq.inputFileID], tenantID := tenant.name } "" 0 1) with
      | .error _ => return writeInternalServerError
      | .ok page =>
        match page.items with
        | [] => return writeAPIError (newAPIError 400 "invalid_request_error"
            ("Input file with ID '" ++ batchReq.inputFileID ++ "' not found"))
        | file :: _ =>
          if file.purpose ≠ "batch" then
            return writeAPIError (newAPIError 400 "invalid_request_error"
              ("Input file '" ++ batchReq.inputFileID ++ "' has purpose '" ++ file.purpose ++
                "', but must have purpose 'batch'"))
          else do
            let batchID ← ask .newBatchID
            let batch : Batch := {
              id := batchID
              spec := {
                object := "batch"
                endpoint := batchReq.endpoint
                inputFileID := batchReq.inputFileID
                completionWindow := batchReq.completionWindow
                metadata := batchReq.metadata
                createdAt := Time.unix now }
              info := { status := .validating } }
            match batchToDBItem cfg batch tenant.name (batchTags cfg batchReq header carrier) with
            | none => return writeInternalServerError
            | some dbItem =>
              match ← ask (.storeBatch dbItem) with
              | .error _ => return writeInternalServerError
              | .ok () => return writeJSONResponse 200 (.batch batch)

/-! ### Reads -/

/-- The value of a limit parameter, if it is given. -/
def parseLimit (parse : String → Option Int) (defaultLimit maxLimit : Nat)
    (notInteger outOfRange : String) (limit : String) : Except String Nat :=
  if limit = "" then .ok defaultLimit
  else
    match parse limit with
    | none => .error notInteger
    | some n => if n < 1 ∨ (maxLimit : Int) < n then .error outOfRange else .ok n.toNat

def parseBatchLimit (cfg : Config) : String → Except String Nat :=
  parseLimit cfg.sscanf 20 100 "invalid limit parameter: must be an integer"
    "invalid limit parameter: must be between 1 and 100"

def parseFileLimit (cfg : Config) : String → Except String Nat :=
  parseLimit cfg.atoi 20 10000 "Invalid limit parameter: must be an integer"
    "Invalid limit parameter: must be between 1 and 10000"

def listBatches (cfg : Config) (tenant : Tenant) (limit after : String) : Handler Response :=
  match parseBatchLimit cfg limit with
  | .error e => return refuse 400 e
  | .ok limit =>
    match parseAfter after .batch with
    | .error e => return refuse 400 ("invalid after parameter: " ++ e)
    | .ok (start, afterID) => do
      match ← ask (.getBatches { tenantID := tenant.name, afterID } start limit) with
      | .error _ => return writeInternalServerError
      | .ok page =>
        match page.items.mapM dbItemToBatch with
        | none => return writeInternalServerError
        | some batches => return writeJSONResponse 200 (.batches {
            data := batches
            firstID := batches.head?.map Batch.id
            lastID := batches.getLast?.map Batch.id
            hasMore := page.expectMore })

/-- Read one item of the tenant by its ID. -/
def getItemFromDB {ρ : Type} [Indexed ρ] (get : BaseQuery → Nat → Nat → Call)
    (answer : ∀ q start limit, (get q start limit).Answer → Except Err (ItemPage ρ))
    (tenant : Tenant) (id required notFound : String) : Handler (Except APIError ρ) :=
  if id = "" then return .error (newAPIError 400 "" required)
  else do
    let a ← ask (get { ids := [id], tenantID := tenant.name } 0 1)
    match answer _ _ _ a with
    | .error _ => return .error (newAPIError 500 "" "Internal Server Error")
    | .ok page =>
      match page.items with
      | [] => return .error (newAPIError 404 "" notFound)
      | item :: _ =>
        if Indexed.tenantID item ≠ tenant.name then return .error (newAPIError 404 "" notFound)
        else return .ok item

def getBatchItemFromDB (tenant : Tenant) (batchID : String) :
    Handler (Except APIError BatchRecord) :=
  getItemFromDB .getBatches (fun _ _ _ a => a) tenant batchID "batch_id is required"
    ("Batch with ID " ++ batchID ++ " not found")

def getFileItemFromDB (tenant : Tenant) (fileID : String) : Handler (Except APIError FileRecord) :=
  getItemFromDB (.getFiles · "") (fun _ _ _ a => a) tenant fileID "file_id is required"
    ("File with ID " ++ fileID ++ " not found")

def retrieveBatch (tenant : Tenant) (batchID : String) : Handler Response := do
  match ← getBatchItemFromDB tenant batchID with
  | .error e => return writeAPIError e
  | .ok item =>
    match dbItemToBatch item with
    | none => return writeInternalServerError
    | some batch => return writeJSONResponse 200 (.batch batch)

/-! ### Cancellation -/

/-- An update without anything to set is not sent at all. -/
def dbUpdate (item : BatchItem) (expectedStatus : Option BatchStatusInfo) :
    Handler (Except Err Unit) :=
  if item.id = "" then return .error ⟨"ID is empty", .plain⟩
  else if item.status = none ∧ item.tags = [] then return .ok ()
  else do
    match ← ask (.updateBatch item expectedStatus) with
    | .error e => return .error e
    | .ok true => return .ok ()
    | .ok false =>
      if expectedStatus.isSome ∨ 0 < item.epoch ∨ item.bumpEpoch ∨ item.expectedResumable.isSome then
        return .error (.conflict "DBUpdate")
      else return .error ⟨"DBUpdate: item " ++ item.id ++ " not found", .plain⟩

/-- Persist the cancelling transition, conditional on the document that was read. A conflict is
retried on the fresh row while its status and epoch are unchanged. -/
def markCancelling (cfg : Config) (tenant : Tenant) (fromStatus : BatchStatus) :
    Nat → BatchRecord → Batch → Handler (Except Err Batch)
  | 0, _, _ => return .error (.conflict "markCancelling")
  | attempts + 1, item, batch => do
    let now ← ask .now
    let info := { batch.info with status := .cancelling, cancellingAt := some (Time.unix now) }
    match batchToDBItem cfg { batch with info } tenant.name item.item.tags with
    | none => return .error ⟨"markCancelling: failed to parse completion window", .plain⟩
    | some _ =>
      match ← dbUpdate (item.item.cancelUpdate batch.info now) item.item.status with
      | .ok () => return .ok { batch with info }
      | .error e =>
        if e.isConflict = false ∨ attempts = 0 then return .error e
        else
          match ← ask (.getBatches { ids := [item.item.id], tenantID := tenant.name } 0 1) with
          | .error e => return .error (e.wrap "markCancelling")
          | .ok page =>
            match page.items with
            | [fresh] =>
              if fresh.item.epoch ≠ item.item.epoch then
                return .error (.conflict "markCancelling")
              else
                match dbItemToBatch fresh with
                | none => return .error ⟨"markCancelling: failed to unmarshal batch spec", .plain⟩
                | some freshBatch =>
                  if freshBatch.info.status ≠ fromStatus then
                    return .error (.conflict "markCancelling")
                  else markCancelling cfg tenant fromStatus attempts fresh freshBatch
            | _ => return .error (.conflict "markCancelling")

def sendCancelEvent (cfg : Config) (batchID : String) : Handler (Except Err Unit) :=
  if batchID = "" then return .error ⟨"ID is empty", .plain⟩
  else if cfg.batchEventTTLSeconds ≤ 0 then
    return .error ⟨"TTL is invalid for ID " ++ batchID, .plain⟩
  else ask (.sendEvent batchID cfg.batchEventTTLSeconds)

/-- Send the cancel event, then show the batch. -/
def notifyCancelled (cfg : Config) (batch : Batch) : Handler Response := do
  match ← sendCancelEvent cfg batch.id with
  | .error _ => return writeInternalServerError
  | .ok () => return writeJSONResponse 200 (.batch batch)

def cancelBatch (cfg : Config) (tenant : Tenant) (batchID : String) : Handler Response := do
  match ← getBatchItemFromDB tenant batchID with
  | .error e => return writeAPIError e
  | .ok item =>
    match dbItemToBatch item with
    | none => return writeInternalServerError
    | some batch =>
      if batch.info.status = .cancelled then return writeJSONResponse 200 (.batch batch)
      else if batch.info.status.isCancellable = false then
        return refuse 400 ("Batch with status " ++ batch.info.status.text ++ " cannot be cancelled")
      else if batch.info.status = .cancelling then notifyCancelled cfg batch
      else
        match ← ask (.pqDelete batch.id) with
        | .error _ => return writeInternalServerError
        | .ok true => retrieveBatch tenant batchID
        | .ok false =>
          match ← markCancelling cfg tenant batch.info.status maxCancelAttempts item batch with
          | .error e =>
            if e.isConflict then return refuse 409 "batch changed state during cancel, retry"
            else return writeInternalServerError
          | .ok batch => notifyCancelled cfg batch

/-! ### Files -/

def filePurposes : List String :=
  ["assistants", "assistants_output", "batch", "batch_output", "fine-tune", "fine-tune-results",
    "vision", "user_data"]

def listFiles (cfg : Config) (tenant : Tenant) (after limit order purpose : String) :
    Handler Response :=
  match parseAfter after .file with
  | .error e => return refuse 400 ("Invalid after parameter: " ++ e)
  | .ok (start, afterID) =>
    match parseFileLimit cfg limit with
    | .error e => return refuse 400 e
    | .ok limit =>
      if order ≠ "" ∧ order ≠ "asc" ∧ order ≠ "desc" then
        return refuse 400 "Invalid order parameter: must be 'asc' or 'desc'"
      else if purpose ≠ "" ∧ purpose ∉ filePurposes then
        return refuse 400 ("Invalid purpose '" ++ purpose ++ "'.")
      else do
        let query : BaseQuery :=
          { tenantID := tenant.name, afterID, descending := order = "" ∨ order = "desc" }
        match ← ask (.getFiles query purpose start limit) with
        | .error _ => return writeInternalServerError
        | .ok page =>
          match page.items.mapM FileRecord.file with
          | none => return writeInternalServerError
          | some files => return writeJSONResponse 200 (.files {
              data := files
              firstID := (files.head?.map FileObject.id).getD ""
              lastID := (files.getLast?.map FileObject.id).getD ""
              hasMore := page.expectMore })

/-- Read a file of the tenant, and go on with its document. -/
def withFile (tenant : Tenant) (fileID : String) (next : FileRecord → FileObject → Handler Response) :
    Handler Response := do
  match ← getFileItemFromDB tenant fileID with
  | .error e => return writeAPIError e
  | .ok item =>
    match item.file with
    | none => return writeInternalServerError
    | some fileObj => next item fileObj

def retrieveFile (tenant : Tenant) (fileID : String) : Handler Response :=
  withFile tenant fileID fun _ fileObj => return writeJSONResponse 200 (.file fileObj)

def downloadFile (cfg : Config) (tenant : Tenant) (fileID : String) : Handler Response :=
  withFile tenant fileID fun item fileObj =>
    match getFolderNameByTenantID cfg item.tenantID with
    | .error _ => return writeInternalServerError
    | .ok folderName => do
      match ← ask (.retrieve (fileStorageName fileObj.id fileObj.filename) folderName) with
      | .error _ => return writeInternalServerError
      | .ok content =>
        -- a stream that breaks off leaves the client with what was written
        let written ← ask (.copy content)
        return {
          status := 200
          headers := [("Content-Type", "application/octet-stream"),
              ("Content-Disposition", "attachment; filename=" ++ cfg.quote fileObj.filename)] ++
            if content.length > 0 then [("Content-Length", toString content.length)] else []
          body := .content written }

def deleteFile (cfg : Config) (tenant : Tenant) (fileID : String) : Handler Response :=
  withFile tenant fileID fun item fileObj =>
    match getFolderNameByTenantID cfg item.tenantID with
    | .error _ => return writeInternalServerError
    | .ok folderName => do
      match ← ask (.deleteObject (fileStorageName fileObj.id fileObj.filename) folderName) with
      | .error .other => return writeInternalServerError
      -- a retry of a deletion that stopped half-way finds the object gone
      | .error .notExist | .ok () =>
        match ← ask (.deleteFiles [fileObj.id]) with
        | .error _ => return writeInternalServerError
        | .ok () => return writeJSONResponse 200 (.deleted { id := fileObj.id })

def handle (cfg : Config) (tenant : Tenant) : Request → Handler Response
  | .createBatch body header carrier => createBatch cfg tenant body header carrier
  | .listBatches limit after => listBatches cfg tenant limit after
  | .retrieveBatch batchID => retrieveBatch tenant batchID
  | .cancelBatch batchID => cancelBatch cfg tenant batchID
  | .listFiles after limit order purpose => listFiles cfg tenant after limit order purpose
  | .retrieveFile fileID => retrieveFile tenant fileID
  | .downloadFile fileID => downloadFile cfg tenant fileID
  | .deleteFile fileID => deleteFile cfg tenant fileID

end BatchGateway.ApiServer
