import BatchGateway.Worker.Preprocessor

/-! The source of an execution: it reads the planned lines back from the local input file. -/
namespace BatchGateway

open GoJson

/-- A line of the input file as it is forwarded. -/
structure Request where
  customID : String := ""
  method : String := ""
  url : String := ""
  body : List (String × Json) := []

def requestFields (codec : Codec) : List (GoJson.Field Request) :=
  [field "custom_id" (·.customID) (fun x s => { s with customID := x }) decodeString,
   field "method" (·.method) (fun x s => { s with method := x }) decodeString,
   field "url" (·.url) (fun x s => { s with url := x }) decodeString,
   field "body" (·.body) (fun x s => { s with body := x }) codec.decodeMap]

/-- A request on its way to the inference. One that could not be parsed only carries an error. -/
structure RequestItem where
  requestID : String
  customID : String
  modelID : String := ""
  endpoint : String := ""
  body : List (String × Json) := []
  parseError : Option OutputError := none

/-- The key under which the gateway of a model is looked up. -/
def routeKey (byTenant : Bool) (tenantID modelID : String) : String :=
  if byTenant ∧ tenantID ≠ "" then tenantID ++ "/" ++ modelID else modelID

/-- The bytes at an offset, or nothing when the file ends before. -/
def readAt (file : Bytes) (offset : Int) (length : Nat) : Option Bytes :=
  let slice := (file.drop offset.toNat).take length
  if 0 ≤ offset ∧ slice.length = length then some slice else none

structure PlanFileSource where
  batchID : String
  tenantID : String := ""
  byTenant : Bool := false
  /-- The local input file. -/
  inputFile : Bytes
  /-- The results of these requests are already in the store. -/
  skip : String → Bool := fun _ => false
  /-- The results of these requests may still arrive from a previous owner's submission. -/
  recovering : String → Bool := fun _ => false

namespace PlanFileSource

variable (s : PlanFileSource) (lib : Stdlib) (codec : Codec) (uuid : PlanEntry → String)

/-- The request of one line. A line that does not parse gets a random identity. -/
def readLine (random : String) (line : Bytes) (modelID : String) : RequestItem :=
  match codec.unmarshal (codec.decodeStruct (requestFields codec)) {} "Request"
      (trimNewline line) with
  | .error text =>
    { requestID := newBatchRequestID random
      customID := newBatchRequestID random
      parseError := some ⟨"parse_error", "failed to parse request line: " ++ text⟩ }
  | .ok req =>
    { requestID := if s.batchID ≠ "" then lib.stableBatchRequestID s.batchID req.customID
        else newBatchRequestID random
      customID := req.customID
      modelID := routeKey s.byTenant s.tenantID modelID
      endpoint := req.url
      body := req.body }

def readEntry (entry : PlanEntry) (modelID : String) : Except Err RequestItem :=
  match readAt s.inputFile entry.offset entry.length.toNat with
  | none => .error ⟨"failed to read request from input file at offset " ++ toString entry.offset ++
      ": EOF", .plain⟩
  | some line => .ok (s.readLine lib codec (uuid entry) line modelID)

/-- The planned lines, model by model. -/
def planned (plans : PlanAccumulator) : List (String × PlanEntry) :=
  plans.safeToModel.flatMap fun p => (plans.planFile p.1).map fun e => (p.2, e)

/-- The loop over the planned lines: what is sent, what is held back, and the error that ended it. -/
def produceLoop : List (String × PlanEntry) → List RequestItem × List RequestItem × Option Err
  | [] => ([], [], none)
  | (modelID, entry) :: rest =>
    match s.readEntry lib codec uuid entry modelID with
    | .error e => ([], [], some e)
    | .ok item =>
      let (sent, held, err) := produceLoop rest
      if s.skip item.requestID then (sent, held, err)
      else if s.recovering item.requestID then (sent, item :: held, err)
      else (item :: sent, held, err)

/-- Everything that is sent, in order. What was held back follows unless reading failed. -/
def produce (plans : PlanAccumulator) : List RequestItem × Option Err :=
  match s.produceLoop lib codec uuid (planned plans) with
  | (sent, held, none) => (sent ++ held, none)
  | (sent, _, some e) => (sent, some e)

end PlanFileSource
end BatchGateway
