import BatchGateway.Pipeline.Items
import BatchGateway.Worker.Ingestion

/-! The two transports: what the synchronous client and the asynchronous one make of the HTTP
response of a backend. -/
namespace BatchGateway

open GoJson

/-! ### The synchronous client -/

/-- The final response of the backend, after all retries. -/
structure HTTPResponse where
  statusCode : Int
  body : Bytes := []
  /-- The header `x-llm-d-request-dropped-reason`. -/
  droppedReason : String := ""
  deriving DecidableEq, Repr

/-- Why the context of a call ended. -/
inductive ContextError where
  | canceled | deadlineExceeded
  deriving DecidableEq, Repr

def mapStatusCodeToCategory (statusCode : Int) : ErrorCategory :=
  if statusCode = 400 then .invalidReq
  else if statusCode = 401 ∨ statusCode = 403 then .auth
  else if statusCode = 429 then .rateLimit
  else if statusCode = 500 ∨ statusCode = 502 ∨ statusCode = 503 ∨ statusCode = 504 then .server
  else if statusCode ≥ 500 then .server
  else .unknown

/-- The error object of a response. -/
structure ErrorDetail where
  code : String := ""
  type : String := ""
  message : String := ""
  param : String := ""

def errorDetailFields : List (GoJson.Field ErrorDetail) :=
  [field "code" (·.code) (fun x s => { s with code := x }) decodeString,
   field "type" (·.type) (fun x s => { s with type := x }) decodeString,
   field "message" (·.message) (fun x s => { s with message := x }) decodeString,
   field "param" (·.param) (fun x s => { s with param := x }) decodeString]

def errorFields (codec : Codec) : List (GoJson.Field ErrorDetail) :=
  [field "error" id (fun x _ => x) (codec.decodeStruct errorDetailFields)]

section Client

variable (codec : Codec) (text : Bytes → String)

def handleErrorResponse (statusCode : Int) (body : Bytes) : ClientError :=
  let message :=
    match codec.unmarshal (codec.decodeStruct (errorFields codec)) {} "errorResp" body with
    | .ok detail => if detail.message ≠ "" then detail.message else text body
    | .error _ => text body
  { category := mapStatusCodeToCategory statusCode
    message := "HTTP " ++ toString statusCode ++ ": " ++ message
    statusCode := statusCode
    responseBody := body }

def handleRequestError (ctxErr : Option ContextError) (err : String) : ClientError :=
  match ctxErr with
  | some .canceled => ⟨.unknown, "request cancelled", 0, [], ""⟩
  | some .deadlineExceeded => ⟨.server, "request timeout", 0, [], ""⟩
  | none => ⟨.server, "failed to execute request: " ++ err, 0, [], ""⟩

/-- One request to the backend. `post` is what the HTTP client returns. -/
def generate (m : RequestItem) (ctxErr : Option ContextError) (post : Except String HTTPResponse) :
    Option GenerateResponse × Option ClientError :=
  if m.endpoint = "" then (none, some ⟨.invalidReq, "endpoint cannot be empty", 0, [], ""⟩)
  else match post with
    | .error err => (none, some (handleRequestError ctxErr err))
    | .ok resp =>
      if resp.statusCode ≠ 200 then
        (none, some { handleErrorResponse codec text resp.statusCode resp.body with
          droppedReason := resp.droppedReason })
      else (some { requestID := m.requestID, response := resp.body }, none)

/-- The result of a request over the synchronous transport. -/
def syncResult (bodies : BodyCodec) (m : RequestItem) (ctxErr : Option ContextError)
    (post : Except String HTTPResponse) : ResultItem :=
  let (resp, err) := generate codec text m ctxErr post
  (bodies.buildResult m resp err).item

end Client

/-! ### Classification -/

namespace ResultItem

/-- Both results are successes or neither is, and both have an error object or neither has. -/
def Alike (a b : ResultItem) : Prop :=
  a.succeeded = b.succeeded ∧ a.error.isSome = b.error.isSome

/-- An error object has a code. -/
def Coded (r : ResultItem) : Prop := ∀ e, r.error = some e → e.code ≠ ""

/-- The line of the result goes to the error artifact. -/
def toErrorArtifact (r : ResultItem) : Prop :=
  (r.entryResult "" 0).status = .failed ∧ (r.entryResult "" 0).errorCode ≠ ""

theorem succeeded_answered (requestID customID responseID body : String) (statusCode : Int) :
    (⟨requestID, customID, some ⟨statusCode, responseID, body⟩, none⟩ : ResultItem).succeeded =
      decide (200 ≤ statusCode ∧ statusCode < 300) := by
  simp only [succeeded, Option.isNone_none, Option.any_some, Bool.true_and, decide_eq_decide]
  omega

theorem succeeded_failed (requestID customID : String) (response : Option ResponseData)
    (e : OutputError) : (⟨requestID, customID, response, some e⟩ : ResultItem).succeeded = false := by
  simp [succeeded]

theorem toErrorArtifact_iff {r : ResultItem} (h : r.Coded) :
    r.toErrorArtifact ↔ r.error.isSome = true := by
  unfold toErrorArtifact entryResult
  by_cases hs : r.succeeded = true
  · have hnone : r.error = none := by
      simp only [succeeded, Bool.and_eq_true, Option.isNone_iff_eq_none] at hs
      exact hs.1
    simp [hs, hnone]
  · cases he : r.error with
    | none => simp [hs]
    | some e => simp [hs, h e he]

/-- Both results give their entry the same status and their line to the same artifact. -/
def RoutedAlike (a b : ResultItem) : Prop :=
  (a.entryResult "" 0).status = (b.entryResult "" 0).status ∧
    (a.toErrorArtifact ↔ b.toErrorArtifact)

theorem Alike.routed {a b : ResultItem} (h : a.Alike b) (ha : a.Coded) (hb : b.Coded) :
    a.RoutedAlike b := by
  constructor
  · simp only [entryResult, h.1]
  · rw [toErrorArtifact_iff ha, toErrorArtifact_iff hb, h.2]

end ResultItem

section Verdicts

variable (bodies : BodyCodec)

/-- The body is a JSON object or null. -/
def BodyCodec.Decodes (body : Bytes) : Prop := ∃ out, bodies.decode body = .ok out

theorem BodyCodec.not_decodes {body : Bytes} {e : String} (h : bodies.decode body = .error e) :
    ¬ bodies.Decodes body := by
  rintro ⟨out, hout⟩
  rw [h] at hout
  cases hout

/-- What the code makes of the status and the body in the end. -/
structure ResultItem.Verdict (r : ResultItem) (success failure : Prop) : Prop where
  succeeded : r.succeeded = true ↔ success
  error : r.error.isSome = true ↔ failure
  coded : r.Coded

theorem ResultItem.Verdict.alike_iff {a b : ResultItem} {success failure success' failure' : Prop}
    (ha : a.Verdict success failure) (hb : b.Verdict success' failure') :
    a.Alike b ↔ (success ↔ success') ∧ (failure ↔ failure') := by
  rw [← ha.succeeded, ← hb.succeeded, ← ha.error, ← hb.error, ← Bool.eq_iff_iff,
    ← Bool.eq_iff_iff]
  rfl

theorem verdict_answered {requestID customID responseID body : String} {statusCode : Int}
    {success failure : Prop} (hs : (200 ≤ statusCode ∧ statusCode < 300) ↔ success)
    (hf : ¬ failure) :
    (⟨requestID, customID, some ⟨statusCode, responseID, body⟩, none⟩ : ResultItem).Verdict
      success failure := by
  refine ⟨?_, ?_, ?_⟩
  · rw [ResultItem.succeeded_answered, decide_eq_true_iff]
    exact hs
  · simpa using hf
  · intro e he
    cases he

theorem verdict_failed {requestID customID : String} {e : OutputError} {success failure : Prop}
    (hcode : e.code ≠ "") (hs : ¬ success) (hf : failure) :
    (⟨requestID, customID, none, some e⟩ : ResultItem).Verdict success failure := by
  refine ⟨?_, ?_, ?_⟩
  · rw [ResultItem.succeeded_failed]
    simpa using hs
  · simpa using hf
  · rintro e' he
    cases he
    exact hcode

/-- An asynchronous result with an HTTP status: a 2xx response needs a body that can be read. -/
theorem asyncResult_verdict {resp : GenerateResponse} (hpos : 0 < resp.statusCode) :
    (bodies.asyncResult resp).Verdict
      ((200 ≤ resp.statusCode ∧ resp.statusCode < 300) ∧ resp.response ≠ [] ∧
        bodies.Decodes resp.response)
      ((200 ≤ resp.statusCode ∧ resp.statusCode < 300) ∧
        (resp.response = [] ∨ ¬ bodies.Decodes resp.response)) := by
  have hhttp : resp.isNonHTTPFailure = false := by
    have hne : resp.statusCode ≠ 0 := by omega
    simp [GenerateResponse.isNonHTTPFailure, hne]
  have hstatus : (if resp.statusCode = 0 then 200 else resp.statusCode) = resp.statusCode := by
    rw [if_neg (by omega)]
  unfold BodyCodec.asyncResult
  simp only [hhttp, hstatus, Bool.false_eq_true, if_false, decide_eq_true_eq]
  by_cases hsuccess : 200 ≤ resp.statusCode ∧ resp.statusCode < 300
  · by_cases hbody : resp.response = []
    · rw [if_pos hbody, if_pos hsuccess]
      exact verdict_failed (by decide) (fun h => h.2.1 hbody) ⟨hsuccess, .inl hbody⟩
    · rw [if_neg hbody]
      cases hd : bodies.decode resp.response with
      | ok body =>
        refine verdict_answered ⟨fun h => ⟨h, hbody, body, hd⟩, fun h => h.1⟩ fun h => ?_
        exact h.2.elim hbody fun hnot => hnot ⟨body, hd⟩
      | error text =>
        have hnot := bodies.not_decodes hd
        dsimp only
        rw [if_pos hsuccess]
        exact verdict_failed (show "parse_error" ≠ "" by decide) (fun h => hnot h.2.2)
          ⟨hsuccess, .inr hnot⟩
  · by_cases hbody : resp.response = []
    · rw [if_pos hbody, if_neg hsuccess]
      exact verdict_answered ⟨fun h => absurd h hsuccess, fun h => h.1⟩ fun h => hsuccess h.1
    · rw [if_neg hbody]
      cases hd : bodies.decode resp.response with
      | ok body =>
        exact verdict_answered ⟨fun h => absurd h hsuccess, fun h => h.1⟩ fun h => hsuccess h.1
      | error text =>
        dsimp only
        rw [if_neg hsuccess]
        exact verdict_answered ⟨fun h => absurd h hsuccess, fun h => h.1⟩ fun h => hsuccess h.1

/-- A synchronous result: only a response with status 200 needs a body that can be read, and none
is fine too. -/
theorem syncResult_verdict (codec : Codec) (text : Bytes → String) {m : RequestItem}
    (ctxErr : Option ContextError) {resp : HTTPResponse} (hend : m.endpoint ≠ "")
    (hpos : 0 < resp.statusCode) (hdrop : resp.droppedReason ≠ droppedReasonTTLExpired) :
    (syncResult codec text bodies m ctxErr (.ok resp)).Verdict
      ((200 ≤ resp.statusCode ∧ resp.statusCode < 300) ∧
        (resp.statusCode = 200 → resp.body = [] ∨ bodies.Decodes resp.body))
      (resp.statusCode = 200 ∧ resp.body ≠ [] ∧ ¬ bodies.Decodes resp.body) := by
  by_cases h200 : resp.statusCode = 200
  · have hgen : generate codec text m ctxErr (.ok resp) =
        (some { requestID := m.requestID, response := resp.body }, none) := by
      simp [generate, hend, h200]
    rw [syncResult, hgen]
    dsimp only [BodyCodec.buildResult]
    by_cases hbody : resp.body = []
    · rw [if_pos hbody]
      exact verdict_answered ⟨fun _ => ⟨by omega, fun _ => .inl hbody⟩, fun _ => by omega⟩
        fun h => h.2.1 hbody
    · rw [if_neg hbody]
      cases hd : bodies.decode resp.body with
      | ok body =>
        exact verdict_answered ⟨fun _ => ⟨by omega, fun _ => .inr ⟨body, hd⟩⟩, fun _ => by omega⟩
          fun h => h.2.2 ⟨body, hd⟩
      | error e =>
        have hnot := bodies.not_decodes hd
        exact verdict_failed (show ErrorCategory.parse.text ≠ "" by decide)
          (fun h => (h.2 h200).elim hbody hnot) ⟨h200, hbody, hnot⟩
  · have hgen : generate codec text m ctxErr (.ok resp) =
        (none, some { handleErrorResponse codec text resp.statusCode resp.body with
          droppedReason := resp.droppedReason }) := by
      simp [generate, hend, h200]
    have hle : ¬ (handleErrorResponse codec text resp.statusCode resp.body).statusCode ≤ 0 := by
      have hsame : (handleErrorResponse codec text resp.statusCode resp.body).statusCode =
        resp.statusCode := rfl
      omega
    rw [syncResult, hgen]
    dsimp only [BodyCodec.buildResult]
    rw [if_neg hle, if_neg hdrop]
    exact verdict_answered ⟨fun h => ⟨h, fun he => absurd he h200⟩, fun h => h.1⟩
      fun h => absurd h.1 h200

end Verdicts

/-- The two transports classify a response alike unless its status is 2xx and it has no body, or its
status is another one than 200 and its body cannot be read. Results that are classified alike give
their entry the same status and their line to the same artifact. -/
theorem transports_alike (bodies : BodyCodec) (codec : Codec) (text : Bytes → String)
    (m : RequestItem) (ctxErr : Option ContextError) (http : HTTPResponse) (resp : GenerateResponse)
    (hend : m.endpoint ≠ "") (hpos : 0 < http.statusCode)
    (hdrop : http.droppedReason ≠ droppedReasonTTLExpired)
    (hstatus : resp.statusCode = http.statusCode) (hbody : resp.response = http.body) :
    ((syncResult codec text bodies m ctxErr (.ok http)).Alike (bodies.asyncResult resp) ↔
      ((200 ≤ http.statusCode ∧ http.statusCode < 300) →
        http.body ≠ [] ∧ (http.statusCode = 200 ∨ bodies.Decodes http.body))) ∧
    ((syncResult codec text bodies m ctxErr (.ok http)).Alike (bodies.asyncResult resp) →
      (syncResult codec text bodies m ctxErr (.ok http)).RoutedAlike (bodies.asyncResult resp)) := by
  have hsync := syncResult_verdict bodies codec text ctxErr hend hpos hdrop
  have hasync := asyncResult_verdict bodies (hstatus ▸ hpos)
  rw [hstatus, hbody] at hasync
  refine ⟨?_, fun h => h.routed hsync.coded hasync.coded⟩
  rw [hsync.alike_iff hasync]
  have hok : http.statusCode = 200 → 200 ≤ http.statusCode ∧ http.statusCode < 300 := by
    intro h
    omega
  constructor
  · rintro ⟨-, hfail⟩ hsuccess
    have hne : http.body ≠ [] := fun hnil => (hfail.2 ⟨hsuccess, .inl hnil⟩).2.1 hnil
    refine ⟨hne, ?_⟩
    by_cases hdec : bodies.Decodes http.body
    · exact .inr hdec
    · exact .inl (hfail.2 ⟨hsuccess, .inr hdec⟩).1
  · intro hcond
    refine ⟨⟨?_, fun h => ⟨h.1, fun _ => .inr h.2.2⟩⟩, fun h => ⟨hok h.1, .inr h.2.2⟩, ?_⟩
    · rintro ⟨hsuccess, hread⟩
      obtain ⟨hne, h200 | hdec⟩ := hcond hsuccess
      · exact ⟨hsuccess, hne, (hread h200).resolve_left hne⟩
      · exact ⟨hsuccess, hne, hdec⟩
    · rintro ⟨hsuccess, hbad⟩
      obtain ⟨hne, hcases⟩ := hcond hsuccess
      have hnot := hbad.resolve_left hne
      exact ⟨hcases.resolve_right hnot, hne, hnot⟩

/-- A decoder that reads the body `{}` only. -/
def emptyObject : BodyCodec where
  decode body := if body = [123, 125] then .ok "\x7b\x7d" else .error "unexpected end of JSON input"
  errorBody _ _ := "\x7b\x7d"

def sampleItem : RequestItem where
  requestID := "r"
  customID := "a"
  modelID := "m"
  endpoint := sampleEndpoint

theorem created_alike :
    let sync := syncResult oneModelCodec (fun _ => "") emptyObject sampleItem none
      (.ok ⟨201, [123, 125], ""⟩)
    let async := emptyObject.asyncResult ⟨"r", [123, 125], 201, "", ""⟩
    sync.Alike async ∧ sync.RoutedAlike async := by
  have h := transports_alike emptyObject oneModelCodec (fun _ => "") sampleItem none
    ⟨201, [123, 125], ""⟩ ⟨"r", [123, 125], 201, "", ""⟩ (by decide) (by decide) (by decide) rfl rfl
  have halike := h.1.2 fun _ => ⟨by decide, .inr ⟨_, rfl⟩⟩
  exact ⟨halike, h.2 halike⟩

/-- A response without a body: a completed entry with one transport, a failed one with the other. -/
theorem noContent_differs :
    (syncResult oneModelCodec (fun _ => "") emptyObject sampleItem none
      (.ok ⟨204, [], ""⟩)).succeeded = true ∧
    (emptyObject.asyncResult ⟨"r", [], 204, "", ""⟩).succeeded = false ∧
    (syncResult oneModelCodec (fun _ => "") emptyObject sampleItem none
      (.ok ⟨200, [], ""⟩)).succeeded = true ∧
    (emptyObject.asyncResult ⟨"r", [], 200, "", ""⟩).succeeded = false := by
  decide +kernel

end BatchGateway
