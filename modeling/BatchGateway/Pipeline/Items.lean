import BatchGateway.Worker.ResultStore
import BatchGateway.Worker.SourcePlanfile

/-! Requests and results on their way through the execution of a job. -/
namespace BatchGateway

/-! ### Results -/

/-- Why a context was cancelled. -/
inductive Cause where
  | expired | cancelled | shutdown | neutral
  deriving DecidableEq, Repr

/-- A result between a dispatcher and the checkpointer. -/
structure Delivery where
  item : ResultItem
  modelID : String := ""
  /-- The request whose leased delivery the result came with; results of other transports have no
  acknowledgement. -/
  ack : Option String := none
  /-- The result was made up by `cancelCode`. The code has no such field. -/
  synthetic : Bool := false
  deriving DecidableEq, Repr

/-- The result carries the identity of its request. -/
def Delivery.Own (d : Delivery) : Prop := d.item.customID ≠ ""

instance (d : Delivery) : Decidable d.Own := inferInstanceAs (Decidable (_ ≠ _))

/-- The error line of a request that a cancelled context stopped. -/
def cancelCode : Option Cause → OutputError
  | some .expired => ⟨BatchErrorCode.batchExpired.text, BatchErrorCode.batchExpired.message⟩
  | some .cancelled => ⟨BatchErrorCode.batchCancelled.text, BatchErrorCode.batchCancelled.message⟩
  | _ => ⟨BatchErrorCode.batchFailed.text, BatchErrorCode.batchFailed.message⟩

namespace RequestItem

variable (m : RequestItem)

/-- A failure of the request, under the identity of the request. -/
def error (e : OutputError) : Delivery where
  item := ⟨m.requestID, m.customID, none, some e⟩
  modelID := m.modelID

def modelNotFound (lib : Stdlib) : Delivery :=
  m.error ⟨"model_not_found", "model " ++ lib.quote m.modelID ++ " not configured"⟩

/-- The failure of a request that was stopped before it had a result. -/
def cancelled (cause : Option Cause) : Delivery :=
  { m.error (cancelCode cause) with synthetic := true }

end RequestItem

/-! ### Answers of the inference -/

structure GenerateResponse where
  requestID : String
  response : Bytes := []
  /-- Zero when an asynchronous result has no HTTP status. -/
  statusCode : Int := 0
  errorCode : String := ""
  errorMessage : String := ""
  deriving DecidableEq, Repr

def GenerateResponse.isNonHTTPFailure (r : GenerateResponse) : Bool :=
  r.statusCode = 0 ∧ (r.errorCode ≠ "" ∨ r.errorMessage ≠ "")

inductive ErrorCategory where
  | rateLimit | server | invalidReq | auth | parse | unknown
  deriving DecidableEq, Repr

namespace ErrorCategory

def text : ErrorCategory → String
  | rateLimit => "RATE_LIMIT"
  | server => "SERVER_ERROR"
  | invalidReq => "INVALID_REQ"
  | auth => "AUTH_ERROR"
  | parse => "PARSE_ERROR"
  | unknown => "UNKNOWN"

def openAIErrorType : ErrorCategory → String
  | invalidReq => "invalid_request_error"
  | auth => "authentication_error"
  | rateLimit => "rate_limit_error"
  | server => "server_error"
  | parse => "invalid_response"
  | unknown => "unknown_error"

end ErrorCategory

structure ClientError where
  category : ErrorCategory
  message : String
  /-- Zero for errors that are not HTTP responses. -/
  statusCode : Int := 0
  responseBody : Bytes := []
  droppedReason : String := ""
  deriving DecidableEq, Repr

def droppedReasonTTLExpired : String := "rejected-ttl-expired"

/-- How response bodies are read and written. -/
structure BodyCodec where
  /-- The JSON object in a body as it is written again, or the text of the error. -/
  decode : Bytes → Except String String
  /-- An object with the error message, and its type if there is one. -/
  errorBody : Bytes → Option String → String

namespace BodyCodec

variable (bodies : BodyCodec)

/-- A result that was received from an asynchronous client. It knows its request by the ID only. -/
def asyncResult (resp : GenerateResponse) : ResultItem :=
  let failed (code message : String) : ResultItem :=
    { requestID := resp.requestID, customID := "", error := some ⟨code, message⟩ }
  let answered (statusCode : Int) (body : String) : ResultItem :=
    { requestID := resp.requestID, customID := ""
      response := some ⟨statusCode, resp.requestID, body⟩ }
  if resp.isNonHTTPFailure then
    failed (if resp.errorCode = "" then "server_error" else resp.errorCode)
      (if resp.errorMessage = "" then "async request failed" else resp.errorMessage)
  else
    let statusCode := if resp.statusCode = 0 then 200 else resp.statusCode
    let success := decide (200 ≤ statusCode ∧ statusCode < 300)
    if resp.response = [] then
      if success then failed "server_error" "async response has no body"
      else answered statusCode "\x7b\x7d"
    else match bodies.decode resp.response with
      | .ok body => answered statusCode body
      | .error text =>
        if success then failed "parse_error" ("response body could not be parsed: " ++ text)
        else answered statusCode (bodies.errorBody resp.response none)

/-- The HTTP response of a request that failed. -/
def clientErrorBody (e : ClientError) : String :=
  if e.responseBody = [] then "\x7b\x7d"
  else match bodies.decode e.responseBody with
    | .ok body => body
    | .error _ => bodies.errorBody e.responseBody (some e.category.openAIErrorType)

/-- The result of a synchronous call. -/
def buildResult (m : RequestItem) (resp : Option GenerateResponse) (err : Option ClientError) :
    Delivery :=
  let answered (statusCode : Int) (requestID body : String) : Delivery :=
    { item := { requestID := m.requestID, customID := m.customID
                response := some ⟨statusCode, requestID, body⟩ }
      modelID := m.modelID }
  match err, resp with
  | some e, _ =>
    if e.statusCode ≤ 0 then m.error ⟨e.category.text, e.message⟩
    else if e.droppedReason = droppedReasonTTLExpired then
      m.error ⟨BatchErrorCode.batchExpired.text, BatchErrorCode.batchExpired.message⟩
    else answered e.statusCode m.requestID (bodies.clientErrorBody e)
  | none, none => m.error ⟨ErrorCategory.server.text, "inference returned no response"⟩
  | none, some resp =>
    if resp.response = [] then answered 200 resp.requestID "null"
    else match bodies.decode resp.response with
      | .ok body => answered 200 resp.requestID body
      | .error text =>
        m.error ⟨ErrorCategory.parse.text, "response body could not be parsed: " ++ text⟩

end BodyCodec

/-! ### Pending requests -/

/-- The requests that await an asynchronous result, at most one for each ID. -/
abbrev PendingRequests := List RequestItem

namespace PendingRequests

variable (p : PendingRequests)

/-- Storing a request again refreshes it. -/
def store (m : RequestItem) : PendingRequests := m :: p.filter (·.requestID ≠ m.requestID)

def find (requestID : String) : Option RequestItem := p.find? (·.requestID = requestID)

def has (requestID : String) : Bool := (p.find requestID).isSome

/-- Attach the metadata of the request to a result, which stays pending. `none` refuses a result
that belongs to another job. -/
def enrich (d : Delivery) : Option Delivery :=
  if d.item.error.isSome then
    if p.has d.item.requestID ∨ d.item.customID ≠ "" then some d else none
  else if d.item.customID ≠ "" then some d
  else (p.find d.item.requestID).map fun m =>
    { d with item := { d.item with customID := m.customID }, modelID := m.modelID }

/-- The entry of an accepted result is removed. -/
def resolve (requestID : String) : PendingRequests := p.filter (·.requestID ≠ requestID)

end PendingRequests
end BatchGateway
