import Mathlib
import BatchGateway.Worker.SourcePlanfile

/-! What ingestion validated and what the execution reads back from the same bytes. -/
namespace BatchGateway

open GoJson

variable {lib : Stdlib} {codec : Codec} {cfg : IngestConfig} {jobID : String}

/-! ### The members of a line -/

/-- The values of a line that are decoded as its body. -/
def bodies (codec : Codec) : Json → List Json
  | .obj members => (members.filter fun m =>
      (codec.field (lineFields codec) m.1).any (·.name = "body")).map Prod.snd
  | _ => []

/-- Every number in the body of the line fits a float. -/
def lineFloats (codec : Codec) (line : Bytes) : Bool :=
  (codec.parse (trimNewline line)).all fun v => (bodies codec v).all codec.floats

/-- The last value that stands under the very name of a field, and the last one under any name that
is the field's up to case. -/
structure NameReading where
  exact : Option Json := none
  matched : Option Json := none

namespace NameReading

/-- One member of a body. A `null` counts as a value when the field can be reset by it. -/
def member (codec : Codec) (name : String) (resets : Bool) (r : NameReading) (m : String × Json) :
    NameReading where
  exact := if m.1 = name then some m.2 else r.exact
  matched :=
    if (codec.field (bodyFields codec) m.1).any (·.name = name) then
      match m.2 with
      | .null => if resets then some .null else r.matched
      | v => some v
    else r.matched

/-- One body; a `null` body takes back what stood under exact names. -/
def body (codec : Codec) (name : String) (resets : Bool) (r : NameReading) : Json → NameReading
  | .null => { r with exact := none }
  | .obj members => members.foldl (member codec name resets) r
  | _ => r

end NameReading

def modelReading (codec : Codec) (v : Json) : NameReading :=
  (bodies codec v).foldl (NameReading.body codec "model" false) {}

def streamReading (codec : Codec) (v : Json) : NameReading :=
  (bodies codec v).foldl (NameReading.body codec "stream" true) {}

/-- No other spelling of `model` or `stream` in the body hides the exact one. -/
def NamesAgree (codec : Codec) (line : Bytes) : Prop :=
  ∀ v ∈ codec.parse (trimNewline line),
    (modelReading codec v).exact = (modelReading codec v).matched ∧
    ((streamReading codec v).exact = some (.bool true) →
      (streamReading codec v).matched = some (.bool true))

/-! ### One body, decoded twice -/

/-- The readings of the members seen so far describe the body as a record and as a map. -/
structure Reads (b : PlanBody) (m : List (String × Json)) (rm rs : NameReading) : Prop where
  model : rm.matched = some (.str b.model) ∨ (rm.matched = none ∧ b.model = "")
  stream : rs.matched = some (.bool true) ↔ b.stream = some true
  modelExact : m.lookup "model" = rm.exact
  streamExact : m.lookup "stream" = rs.exact

variable {key : String}

/-- The fields of a body and the names they answer to. -/
theorem bodyField_cases {f : GoJson.Field PlanBody}
    (h : codec.field (bodyFields codec) key = some f) :
    f = field "model" (·.model) (fun x s => { s with model := x }) decodeString ∨
      f = field "stream" (·.stream) (fun x s => { s with stream := x }) decodeBoolPtr ∨
      f.name = "messages" ∧ ∀ v b, (f.decode v b).1.model = b.model ∧
        (f.decode v b).1.stream = b.stream := by
  have hmem := mem_of_field h
  simp only [bodyFields, List.mem_cons, List.not_mem_nil, or_false] at hmem
  rcases hmem with rfl | rfl | rfl
  · exact .inl rfl
  · exact .inr (.inl rfl)
  · exact .inr (.inr ⟨rfl, fun v b => ⟨rfl, rfl⟩⟩)

variable {r : NameReading}

theorem lookup_member {codec : Codec} {name : String} {resets : Bool} {m : List (String × Json)}
    (h : m.lookup name = r.exact) (x : String × Json) :
    (x :: m).lookup name = (r.member codec name resets x).exact := by
  rw [List.lookup_cons, NameReading.member]
  by_cases hx : x.1 = name
  · simp [hx]
  · have hne : (name == x.1) = false := by simpa using Ne.symm hx
    rw [hne, h, if_neg hx]

variable {b : PlanBody}

theorem matched_model {v : Json}
    (h : r.matched = some (.str b.model) ∨ (r.matched = none ∧ b.model = ""))
    (hok : (codec.decodeMember (bodyFields codec) b key v).2 = true) :
    let b' := (codec.decodeMember (bodyFields codec) b key v).1
    let r' := r.member codec "model" false (key, v)
    r'.matched = some (.str b'.model) ∨ (r'.matched = none ∧ b'.model = "") := by
  simp only [Codec.decodeMember, NameReading.member] at hok ⊢
  cases hf : codec.field (bodyFields codec) key with
  | none => exact h
  | some f =>
    rw [hf] at hok
    rcases bodyField_cases hf with rfl | rfl | ⟨hname, hkeep⟩
    · cases v with
      | null => exact h
      | str text => exact .inl rfl
      | _ => cases hok
    · exact h
    · simpa [hname, (hkeep v b).1] using h

theorem matched_stream {v : Json} (h : r.matched = some (.bool true) ↔ b.stream = some true)
    (hok : (codec.decodeMember (bodyFields codec) b key v).2 = true) :
    let b' := (codec.decodeMember (bodyFields codec) b key v).1
    let r' := r.member codec "stream" true (key, v)
    r'.matched = some (.bool true) ↔ b'.stream = some true := by
  simp only [Codec.decodeMember, NameReading.member] at hok ⊢
  cases hf : codec.field (bodyFields codec) key with
  | none => exact h
  | some f =>
    rw [hf] at hok
    rcases bodyField_cases hf with rfl | rfl | ⟨hname, hkeep⟩
    · exact h
    · cases v with
      | null => simp [field, decodeBoolPtr]
      | bool flag => simp [field, decodeBoolPtr]
      | _ => cases hok
    · simpa [hname, (hkeep v b).2] using h

variable {members : List (String × Json)} {rm rs : NameReading}

/-- The members of one body, decoded into the record and added to the map. -/
theorem reads_members {m : List (String × Json)} (h : Reads b m rm rs)
    (hok : (codec.decodeMembers (bodyFields codec) members b).2 = true) :
    Reads (codec.decodeMembers (bodyFields codec) members b).1 (members.reverse ++ m)
      (members.foldl (NameReading.member codec "model" false) rm)
      (members.foldl (NameReading.member codec "stream" true) rs) := by
  induction members generalizing b m rm rs with
  | nil => exact h
  | cons x rest ih =>
    simp only [Codec.decodeMembers, Bool.and_eq_true] at hok
    have hstep : Reads (codec.decodeMember (bodyFields codec) b x.1 x.2).1 (x :: m)
        (rm.member codec "model" false x) (rs.member codec "stream" true x) :=
      ⟨matched_model h.model hok.1, matched_stream h.stream hok.1, lookup_member h.modelExact x,
        lookup_member h.streamExact x⟩
    simpa [Codec.decodeMembers] using ih hstep hok.2

theorem reads_body {v : Json} {m : List (String × Json)} (h : Reads b m rm rs)
    (hok : (codec.decodeStruct (bodyFields codec) v b).2 = true) :
    Reads (codec.decodeStruct (bodyFields codec) v b).1 (codec.decodeMap v m).1
      (rm.body codec "model" false v) (rs.body codec "stream" true v) := by
  cases v with
  | null => exact ⟨h.model, h.stream, rfl, rfl⟩
  | obj members => exact reads_members h hok
  | _ => cases hok

/-! ### One line, decoded twice -/

/-- The fields outside the body. -/
def SameHead (p : PlanRequestLine) (q : Request) : Prop :=
  p.customID = q.customID ∧ p.method = q.method ∧ p.url = q.url

theorem follows_string {name : String} {get : PlanRequestLine → String}
    {set : String → PlanRequestLine → PlanRequestLine} {get' : Request → String}
    {set' : String → Request → Request} {P : String → Json → Prop}
    (hget : ∀ p q, SameHead p q → get p = get' q)
    (hset : ∀ x p q, SameHead p q → SameHead (set x p) (set' x q)) :
    Follows SameHead P (field name get set decodeString) (field name get' set' decodeString) := by
  refine ⟨rfl, fun v p q _ hR hok => ?_⟩
  simp only [field] at hok ⊢
  rw [← hget p q hR]
  exact ⟨hok, hset _ p q hR⟩

theorem follows_body :
    Follows SameHead (fun name v => name = "body" → codec.floats v = true)
      (field "body" (·.body) (fun x s => { s with body := x })
        (codec.decodeStruct (bodyFields codec)))
      (field "body" (·.body) (fun x s => { s with body := x }) codec.decodeMap) := by
  refine ⟨rfl, fun v p q hP hR hok => ?_⟩
  have hfloats := hP rfl
  simp only [field] at hok ⊢
  cases v with
  | null => exact ⟨rfl, hR⟩
  | obj members => exact ⟨by simpa [Codec.decodeMap, Codec.floats] using hfloats, hR⟩
  | _ => cases hok

theorem lineFields_follow (codec : Codec) :
    List.Forall₂ (Follows SameHead fun name v => name = "body" → codec.floats v = true)
      (lineFields codec) (requestFields codec) := by
  refine .cons ?_ (.cons ?_ (.cons ?_ (.cons follows_body .nil)))
  · exact follows_string (fun _ _ h => h.1) fun _ _ _ h => ⟨rfl, h.2⟩
  · exact follows_string (fun _ _ h => h.2.1) fun _ _ _ h => ⟨h.1, rfl, h.2.2⟩
  · exact follows_string (fun _ _ h => h.2.2) fun _ _ _ h => ⟨h.1, h.2.1, rfl⟩

/-- A member of the line belongs to the body in both decodings, or it touches no body. -/
theorem lineField_cases (codec : Codec) (key : String) :
    (codec.field (lineFields codec) key = some (field "body" (·.body)
        (fun x s => { s with body := x }) (codec.decodeStruct (bodyFields codec))) ∧
      codec.field (requestFields codec) key = some (field "body" (·.body)
        (fun x s => { s with body := x }) codec.decodeMap)) ∨
    ((codec.field (lineFields codec) key).any (·.name = "body") = false ∧
      ∀ v p q, (codec.decodeMember (lineFields codec) p key v).1.body = p.body ∧
        (codec.decodeMember (requestFields codec) q key v).1.body = q.body) := by
  have hrel := field_follows codec key (lineFields_follow codec)
  unfold Codec.decodeMember
  cases hf : codec.field (lineFields codec) key with
  | none =>
    rw [hf] at hrel
    generalize codec.field (requestFields codec) key = g at hrel
    cases hrel
    exact .inr ⟨rfl, fun _ _ _ => ⟨rfl, rfl⟩⟩
  | some f =>
    rw [hf] at hrel
    cases hg : codec.field (requestFields codec) key with
    | none =>
      rw [hg] at hrel
      cases hrel
    | some g =>
      rw [hg] at hrel
      have hname : f.name = g.name := by
        cases hrel with
        | some hfg => exact hfg.1
      have hmemf := mem_of_field hf
      have hmemg := mem_of_field hg
      simp only [lineFields, requestFields, List.mem_cons, List.not_mem_nil, or_false]
        at hmemf hmemg
      rcases hmemf with rfl | rfl | rfl | rfl <;> rcases hmemg with rfl | rfl | rfl | rfl <;>
        first
        | exact .inl ⟨rfl, rfl⟩
        | exact .inr ⟨rfl, fun _ _ _ => ⟨rfl, rfl⟩⟩
        | simp [field] at hname

theorem bodies_cons (key : String) (v : Json) (rest : List (String × Json)) :
    bodies codec (.obj ((key, v) :: rest)) =
      if (codec.field (lineFields codec) key).any (·.name = "body") then
        v :: bodies codec (.obj rest) else bodies codec (.obj rest) := by
  simp only [bodies, List.filter_cons]
  split <;> rfl

variable {q : Request}

/-- The members of the line, decoded twice. -/
theorem reads_line {p : PlanRequestLine} (h : Reads p.body q.body rm rs)
    (hok : (codec.decodeMembers (lineFields codec) members p).2 = true) :
    Reads (codec.decodeMembers (lineFields codec) members p).1.body
      (codec.decodeMembers (requestFields codec) members q).1.body
      ((bodies codec (.obj members)).foldl (NameReading.body codec "model" false) rm)
      ((bodies codec (.obj members)).foldl (NameReading.body codec "stream" true) rs) := by
  induction members generalizing p q rm rs with
  | nil => exact h
  | cons x rest ih =>
    obtain ⟨key, v⟩ := x
    simp only [Codec.decodeMembers, Bool.and_eq_true] at hok ⊢
    rw [bodies_cons]
    rcases lineField_cases codec key with ⟨hf, hg⟩ | ⟨hf, hkeep⟩
    · rw [if_pos (by simp [hf, field])]
      refine ih ?_ hok.2
      have hmem := hok.1
      unfold Codec.decodeMember at hmem ⊢
      rw [hf] at hmem
      rw [hf, hg]
      exact reads_body h hmem
    · rw [if_neg (by simp [hf])]
      refine ih ?_ hok.2
      rw [(hkeep v p q).1, (hkeep v p q).2]
      exact h

/-- A line that is decoded in full has only floats in its bodies. -/
theorem floats_of_request (hok : (codec.decodeMembers (requestFields codec) members q).2 = true) :
    (bodies codec (.obj members)).all codec.floats = true := by
  induction members generalizing q with
  | nil => rfl
  | cons x rest ih =>
    obtain ⟨key, v⟩ := x
    simp only [Codec.decodeMembers, Bool.and_eq_true] at hok
    have hrest := ih hok.2
    rw [bodies_cons]
    rcases lineField_cases codec key with ⟨hf, hg⟩ | ⟨hf, -⟩
    · have hmem := hok.1
      simp only [Codec.decodeMember, hg, field] at hmem
      have hv : codec.floats v = true := by
        cases v with
        | null => rfl
        | obj members => simpa [Codec.decodeMap, Codec.floats] using hmem
        | _ => cases hmem
      rw [if_pos (by simp [hf, field]), List.all_cons, hv, hrest]
      rfl
    · rwa [if_neg (by simp [hf])]

theorem floats_of_unmarshal {data : Bytes}
    (hok : codec.unmarshal (codec.decodeStruct (requestFields codec)) {} "Request" data = .ok q) :
    ((codec.parse data).all fun v => (bodies codec v).all codec.floats) = true := by
  obtain ⟨v, hv, hdec⟩ := unmarshal_ok.1 hok
  rw [hv, Option.all_some]
  cases v with
  | null => rfl
  | obj members =>
    refine floats_of_request (q := {}) ?_
    simp only [Codec.decodeStruct] at hdec
    rw [hdec]
  | _ => cases hdec

/-- A line that ingestion can decode can be decoded in full when the numbers in its body are
floats. -/
theorem unmarshal_request {data : Bytes} {type : String} {p : PlanRequestLine}
    (hok : codec.unmarshal (codec.decodeStruct (lineFields codec)) {} type data = .ok p)
    (hfloats : ((codec.parse data).all fun v => (bodies codec v).all codec.floats) = true) :
    ∃ q v, codec.unmarshal (codec.decodeStruct (requestFields codec)) {} "Request" data = .ok q ∧
      SameHead p q ∧ codec.parse data = some v ∧
        Reads p.body q.body (modelReading codec v) (streamReading codec v) := by
  obtain ⟨v, hv, hdec⟩ := unmarshal_ok.1 hok
  have hhead : SameHead ({} : PlanRequestLine) ({} : Request) := ⟨rfl, rfl, rfl⟩
  have hstart : Reads ({} : PlanRequestLine).body ({} : Request).body {} {} :=
    ⟨.inr ⟨rfl, rfl⟩, by simp, rfl, rfl⟩
  rw [hv, Option.all_some] at hfloats
  cases v with
  | null =>
    cases hdec
    exact ⟨{}, .null, unmarshal_ok.2 ⟨_, hv, rfl⟩, hhead, hv, hstart⟩
  | obj members =>
    have hp : (codec.decodeMembers (lineFields codec) members {}).2 = true := by
      simp only [Codec.decodeStruct] at hdec
      rw [hdec]
    have hP : ∀ m ∈ members, ∀ f, codec.field (lineFields codec) m.1 = some f →
        f.name = "body" → codec.floats m.2 = true := by
      intro m hm f hf hname
      refine List.all_eq_true.1 hfloats m.2 (List.mem_map_of_mem ?_)
      rw [List.mem_filter]
      exact ⟨hm, by simp [hf, hname]⟩
    obtain ⟨hok', hrel⟩ := decodeMembers_follows (lineFields_follow codec) hP hhead hp
    have hreads := reads_line hstart hp
    rw [show codec.decodeMembers (lineFields codec) members {} = (p, true) from hdec] at hrel hreads
    exact ⟨_, .obj members, unmarshal_ok.2 ⟨_, hv, Prod.ext rfl hok'⟩, hrel, hv, hreads⟩
  | _ => cases hdec

theorem of_ite_error {ε α : Type} {c : Prop} [Decidable c] {e : ε} {x : Except ε α} {y : α}
    (h : (if c then .error e else x) = .ok y) : ¬ c ∧ x = .ok y := by
  split at h
  · cases h
  next hc => exact ⟨hc, h⟩

/-- What a line was validated for. -/
theorem extract_ok {line : Bytes} {info : LineMeta}
    (h : extractAndValidateLine lib codec cfg line = .ok info) :
    ∃ p, codec.unmarshal (codec.decodeStruct (lineFields codec)) {} "planRequestLine"
        (trimNewline line) = .ok p ∧
      p.customID = info.customID ∧ p.url = cfg.batchEndpoint ∧ p.body.model = info.modelID ∧
      info.modelID ≠ "" ∧ p.body.stream ≠ some true ∧ info.customID ≠ "" := by
  unfold extractAndValidateLine at h
  split at h
  · cases h
  next p hp =>
    refine ⟨p, hp, ?_⟩
    obtain ⟨hcustom, h⟩ := of_ite_error h
    obtain ⟨-, h⟩ := of_ite_error h
    obtain ⟨-, h⟩ := of_ite_error h
    obtain ⟨-, h⟩ := of_ite_error h
    obtain ⟨-, h⟩ := of_ite_error h
    obtain ⟨-, h⟩ := of_ite_error h
    obtain ⟨hurl, h⟩ := of_ite_error h
    obtain ⟨hmodel, h⟩ := of_ite_error h
    obtain ⟨hstream, h⟩ := of_ite_error h
    cases hh : prefixHash codec p.body.messages.items with
    | error text =>
      rw [hh] at h
      cases h
    | ok hash =>
      rw [hh] at h
      cases h
      exact ⟨rfl, not_not.1 hurl, rfl, hmodel, hstream, hcustom⟩

namespace PlanFileSource

variable (s : PlanFileSource)

/-- A validated line is read back without an error exactly when the numbers in its body are floats,
and then as the request that was validated. -/
theorem readLine_cases {line : Bytes} {info : LineMeta} (random modelID : String)
    (h : extractAndValidateLine lib codec cfg line = .ok info) :
    let item := s.readLine lib codec random line modelID
    (lineFloats codec line = false ∧ item.parseError ≠ none ∧ item.body = []) ∨
    (lineFloats codec line = true ∧ item.parseError = none ∧ item.customID = info.customID ∧
      (s.batchID ≠ "" → item.requestID = lib.stableBatchRequestID s.batchID info.customID) ∧
      item.modelID = routeKey s.byTenant s.tenantID modelID ∧
      item.endpoint = cfg.batchEndpoint ∧
      ∃ v p, codec.parse (trimNewline line) = some v ∧ p.model = info.modelID ∧
        info.modelID ≠ "" ∧ p.stream ≠ some true ∧
        Reads p item.body (modelReading codec v) (streamReading codec v)) := by
  obtain ⟨p, hp, hcustom, hurl, hmodel, hne, hstream, -⟩ := extract_ok h
  by_cases hfloats : lineFloats codec line = true
  · obtain ⟨q, v, hq, ⟨hc, -, hu⟩, hv, hreads⟩ := unmarshal_request hp hfloats
    have hcid : q.customID = info.customID := hc.symm.trans hcustom
    simp only [readLine, hq, hcid]
    exact .inr ⟨hfloats, trivial, trivial, fun hid => if_pos hid, trivial, hu.symm.trans hurl,
      v, p.body, hv, hmodel, hne, hstream, hreads⟩
  · refine .inl ⟨by simpa using hfloats, ?_⟩
    unfold readLine
    split
    · exact ⟨nofun, rfl⟩
    next hq => exact absurd (floats_of_unmarshal hq) hfloats

end PlanFileSource

/-- The request that is read back from the bytes of a validated line is for the model and the
endpoint the line was validated for and asks for no stream, exactly when the numbers in the body
are floats and no other spelling hides the model or the streaming flag. -/
theorem validated_fields_forwarded (lib : Stdlib) (codec : Codec) (cfg : IngestConfig)
    (s : PlanFileSource) (uuid : PlanEntry → String) (entry : PlanEntry) (line : Bytes)
    (info : LineMeta) (hread : readAt s.inputFile entry.offset entry.length.toNat = some line)
    (hvalid : extractAndValidateLine lib codec cfg line = .ok info) :
    (∃ item, s.readEntry lib codec uuid entry info.modelID = .ok item ∧
      item.modelID = routeKey s.byTenant s.tenantID info.modelID ∧
      item.body.lookup "model" = some (.str info.modelID) ∧
      item.body.lookup "stream" ≠ some (.bool true) ∧ item.endpoint = cfg.batchEndpoint) ↔
    lineFloats codec line = true ∧ NamesAgree codec line := by
  have hitem : s.readEntry lib codec uuid entry info.modelID =
      .ok (s.readLine lib codec (uuid entry) line info.modelID) := by
    simp [PlanFileSource.readEntry, hread]
  rw [hitem]
  rcases s.readLine_cases (uuid entry) info.modelID hvalid with ⟨hfloats, -, hbody⟩ |
    ⟨hfloats, -, -, -, hroute, hurl, v, p, hv, hmodel, hne, hstream, hreads⟩
  · constructor
    · rintro ⟨item, h, -, hm, -⟩
      cases h
      rw [hbody] at hm
      cases hm
    · rintro ⟨h, -⟩
      rw [hfloats] at h
      cases h
  · have hmatched : (modelReading codec v).matched = some (.str info.modelID) := by
      rcases hreads.model with h | ⟨-, h⟩
      · rw [h, hmodel]
      · exact absurd (hmodel.symm.trans h) hne
    constructor
    · rintro ⟨item, h, -, hm, hs, -⟩
      cases h
      refine ⟨hfloats, fun v' hv' => ?_⟩
      cases hv.symm.trans hv'
      refine ⟨by rw [← hreads.modelExact, hm, hmatched], fun htrue => ?_⟩
      rw [← hreads.streamExact] at htrue
      exact absurd htrue hs
    · rintro ⟨-, hagree⟩
      obtain ⟨hm, hs⟩ := hagree v hv
      refine ⟨_, rfl, hroute, ?_, fun htrue => ?_, hurl⟩
      · rw [hreads.modelExact, hm, hmatched]
      · rw [hreads.streamExact] at htrue
        exact hstream (hreads.stream.1 (hs htrue))

/-! ### The whole file -/

/-- A plan entry leads back to a line that was accepted, under its manifest entry. -/
structure ReadsBack (lib : Stdlib) (codec : Codec) (cfg : IngestConfig) (jobID : String)
    (input : Bytes) (e : PlanEntry) (p : Bytes × ManifestEntry) : Prop where
  bytes : readAt input e.offset e.length.toNat = some p.1
  line : ∃ info, extractAndValidateLine lib codec cfg p.1 = .ok info ∧
    p.2.customID = info.customID ∧ p.2.requestID = lib.stableBatchRequestID jobID info.customID
  accepted : p.2.rejected = false

/-- The plans and the manifest describe the same accepted lines. -/
structure Planned (lib : Stdlib) (codec : Codec) (cfg : IngestConfig) (jobID : String)
    (lines : List Bytes) (st : Ingestion) : Prop where
  offset : st.offset = st.input.length
  aligned : lines.length = st.entries.length
  entry : ∀ safe, ∀ e ∈ st.plans.entries safe, ∃ p ∈ lines.zip st.entries,
    ReadsBack lib codec cfg jobID st.input e p
  manifest : ∀ p ∈ lines.zip st.entries, p.2.rejected = false →
    ∃ safe ∈ st.plans.modelToSafe.map Prod.snd, ∃ e ∈ st.plans.entries safe,
      ReadsBack lib codec cfg jobID st.input e p

theorem readAt_append {file line : Bytes} {offset : Int} {length : Nat} (rest : Bytes)
    (h : readAt file offset length = some line) :
    readAt (file ++ rest) offset length = some line := by
  simp only [readAt, Option.ite_none_right_eq_some, Option.some.injEq] at h ⊢
  obtain ⟨⟨hpos, hlen⟩, rfl⟩ := h
  have hle : length ≤ (file.drop offset.toNat).length := by
    rw [List.length_take] at hlen
    omega
  have htake : ((file ++ rest).drop offset.toNat).take length =
      (file.drop offset.toNat).take length := by
    by_cases hoff : offset.toNat ≤ file.length
    · rw [List.drop_append_of_le_length hoff, List.take_append_of_le_length hle]
    · have hzero : length = 0 := by
        rw [List.length_drop] at hle
        omega
      simp [hzero]
  exact ⟨⟨hpos, by rw [htake, hlen]⟩, htake⟩

theorem readAt_end (file line : Bytes) :
    readAt (file ++ line) (file.length : Int) line.length = some line := by
  simp [readAt]

theorem toNat_length {line : Bytes} (h : line.length < 2 ^ 32) :
    (UInt32.ofNat line.length).toNat = line.length :=
  UInt32.toNat_ofNat_of_lt' h

theorem ReadsBack.append {input : Bytes} {e : PlanEntry} {p : Bytes × ManifestEntry}
    (h : ReadsBack lib codec cfg jobID input e p) (rest : Bytes) :
    ReadsBack lib codec cfg jobID (input ++ rest) e p :=
  ⟨readAt_append rest h.bytes, h.line, h.accepted⟩

/-- Planning a line adds one entry to one plan file, and the file is on the list. -/
theorem accumulate_cases (acc : PlanAccumulator) (modelID : String) (entry : PlanEntry) :
    ∃ safe, safe ∈ (acc.accumulatePlanEntry modelID entry).modelToSafe.map Prod.snd ∧
      (∀ name ∈ acc.modelToSafe.map Prod.snd,
        name ∈ (acc.accumulatePlanEntry modelID entry).modelToSafe.map Prod.snd) ∧
      ∀ name, (acc.accumulatePlanEntry modelID entry).entries name =
        if name = safe then acc.entries name ++ [entry] else acc.entries name := by
  unfold PlanAccumulator.accumulatePlanEntry PlanAccumulator.safeName
  cases hl : acc.modelToSafe.lookup modelID with
  | some safe =>
    have hmem : (modelID, safe) ∈ acc.modelToSafe := by
      obtain ⟨l₁, l₂, hl, -⟩ := List.lookup_eq_some_iff.1 hl
      rw [hl]
      exact List.mem_append_right _ List.mem_cons_self
    exact ⟨safe, List.mem_map_of_mem hmem, fun _ h => h, fun _ => rfl⟩
  | none =>
    refine ⟨(internModelID modelID acc.used).1, ?_, fun name h => ?_, fun _ => rfl⟩
    · simp [PlanAccumulator.append]
    · simp only [PlanAccumulator.append, List.map_append, List.mem_append]
      exact .inl h

/-- What one line does to the state of the loop. -/
theorem ingestLine_cases (lib : Stdlib) (cfg : IngestConfig) (jobID : String) (st : Ingestion)
    (line : Bytes) (info : LineMeta) :
    let m := lib.manifestEntry jobID cfg.registered st.lineCount info.toRequestMeta
    let st' := lib.ingestLine cfg jobID st line info
    st'.input = st.input ++ line ∧ st'.entries = st.entries ++ [m] ∧
      ((cfg.registered info.modelID = false ∧ st'.plans = st.plans ∧
          st'.offset = st.offset + line.length) ∨
        (cfg.registered info.modelID = true ∧ st'.plans = st.plans.accumulatePlanEntry info.modelID
            ⟨st.offset, UInt32.ofNat line.length, info.prefixHash⟩ ∧
          st'.offset = st.offset + (UInt32.ofNat line.length).toNat)) := by
  dsimp only [Stdlib.ingestLine]
  rw [Stdlib.manifestEntry_rejected]
  split
  next hrej => exact ⟨rfl, rfl, .inl ⟨by simpa using hrej, rfl, rfl⟩⟩
  next hacc => exact ⟨rfl, rfl, .inr ⟨by simpa using hacc, rfl, rfl⟩⟩

variable {lines : List Bytes} {st st' : Ingestion} {line : Bytes} {m : ManifestEntry}
  {cause : Int → Option Err}

/-- One iteration of the loop. -/
theorem preProcessLoop_cons
    (h : lib.preProcessLoop codec cfg jobID cause (line :: lines) st = .ok st') :
    ∃ info, extractAndValidateLine lib codec cfg line = .ok info ∧
      info.customID ∉ st.seenCustomIDs ∧
      lib.preProcessLoop codec cfg jobID cause lines (lib.ingestLine cfg jobID st line info) =
        .ok st' := by
  unfold Stdlib.preProcessLoop at h
  split at h
  · cases h
  · dsimp only at h
    split at h
    · cases h
    next info hinfo =>
      obtain ⟨hseen, h⟩ := of_ite_error h
      exact ⟨info, hinfo, hseen, h⟩

theorem preProcessLoop_nil
    (h : lib.preProcessLoop codec cfg jobID cause [] st = .ok st') : st' = st := by
  unfold Stdlib.preProcessLoop at h
  split at h <;> cases h
  rfl

/-- The manifest only grows. -/
theorem preProcessLoop_extends (h : lib.preProcessLoop codec cfg jobID cause lines st = .ok st') :
    ∃ rest, st'.entries = st.entries ++ rest := by
  induction lines generalizing st with
  | nil =>
    rw [preProcessLoop_nil h]
    exact ⟨[], (List.append_nil _).symm⟩
  | cons line lines ih =>
    obtain ⟨info, -, -, h⟩ := preProcessLoop_cons h
    obtain ⟨rest, hrest⟩ := ih h
    rw [(ingestLine_cases ..).2.1, List.append_assoc] at hrest
    exact ⟨_, hrest⟩

section

variable (h : Planned lib codec cfg jobID lines st)
include h

/-- The next line stands next to its manifest entry. -/
theorem Planned.zip (line : Bytes) (m : ManifestEntry) :
    (lines ++ [line]).zip (st.entries ++ [m]) = lines.zip st.entries ++ [(line, m)] :=
  List.zip_append h.aligned

/-- A rejected line leaves the plans alone. -/
theorem planned_reject (hrej : m.rejected = true) (hin : st'.input = st.input ++ line)
    (hentries : st'.entries = st.entries ++ [m]) (hplans : st'.plans = st.plans)
    (hoffset : st'.offset = st.offset + line.length) :
    Planned lib codec cfg jobID (lines ++ [line]) st' := by
  have hzip := h.zip line m
  constructor
  · rw [hoffset, hin, h.offset, List.length_append]
    omega
  · simp [hentries, h.aligned]
  · rw [hplans, hentries, hzip, hin]
    intro safe e he
    obtain ⟨p, hp, hb⟩ := h.entry safe e he
    exact ⟨p, List.mem_append_left _ hp, hb.append line⟩
  · rw [hplans, hentries, hzip, hin]
    intro p hp hacc
    rcases List.mem_append.1 hp with hp | hp
    · obtain ⟨safe, hs, e, he, hb⟩ := h.manifest p hp hacc
      exact ⟨safe, hs, e, he, hb.append line⟩
    · rw [List.mem_singleton.1 hp, hrej] at hacc
      cases hacc

/-- An accepted line gets one plan entry, which leads back to it. -/
theorem planned_accept {modelID : String} {e : PlanEntry} (hin : st'.input = st.input ++ line)
    (hentries : st'.entries = st.entries ++ [m])
    (hplans : st'.plans = st.plans.accumulatePlanEntry modelID e)
    (hoffset : st'.offset = st.offset + line.length)
    (hnew : ReadsBack lib codec cfg jobID st'.input e (line, m)) :
    Planned lib codec cfg jobID (lines ++ [line]) st' := by
  obtain ⟨safe, hsafe, hnames, hadd⟩ := accumulate_cases st.plans modelID e
  have hzip := h.zip line m
  rw [hin] at hnew
  constructor
  · rw [hoffset, hin, h.offset, List.length_append]
    omega
  · simp [hentries, h.aligned]
  · rw [hplans, hentries, hzip, hin]
    intro name e' he'
    have hcases : e' ∈ st.plans.entries name ∨ e' = e := by
      rw [hadd name] at he'
      split at he'
      · rcases List.mem_append.1 he' with he' | he'
        · exact .inl he'
        · exact .inr (List.mem_singleton.1 he')
      · exact .inl he'
    rcases hcases with he' | rfl
    · obtain ⟨p, hp, hb⟩ := h.entry name e' he'
      exact ⟨p, List.mem_append_left _ hp, hb.append line⟩
    · exact ⟨(line, m), List.mem_append_right _ (List.mem_singleton_self _), hnew⟩
  · rw [hplans, hentries, hzip, hin]
    intro p hp hacc
    rcases List.mem_append.1 hp with hp | hp
    · obtain ⟨name, hs, e', he', hb⟩ := h.manifest p hp hacc
      refine ⟨name, hnames name hs, e', ?_, hb.append line⟩
      rw [hadd name]
      split
      · exact List.mem_append_left _ he'
      · exact he'
    · obtain rfl := List.mem_singleton.1 hp
      refine ⟨safe, hsafe, e, ?_, hnew⟩
      rw [hadd safe, if_pos rfl]
      exact List.mem_append_right _ (List.mem_singleton_self e)

theorem planned_line {info : LineMeta}
    (hlen : (lib.manifestEntry jobID cfg.registered st.lineCount info.toRequestMeta).rejected =
      false → line.length < 2 ^ 32)
    (hok : extractAndValidateLine lib codec cfg line = .ok info) :
    Planned lib codec cfg jobID (lines ++ [line]) (lib.ingestLine cfg jobID st line info) := by
  have hm := lib.manifestEntry_rejected jobID cfg.registered st.lineCount info.toRequestMeta
  obtain ⟨hin, hentries, ⟨hreg, hplans, hoffset⟩ | ⟨hreg, hplans, hoffset⟩⟩ :=
    ingestLine_cases lib cfg jobID st line info <;> rw [hreg] at hm
  · exact planned_reject h hm hin hentries hplans hoffset
  · rw [toNat_length (hlen hm)] at hoffset
    refine planned_accept h hin hentries hplans hoffset ⟨?_, ⟨info, hok,
      Stdlib.manifestEntry_customID .., Stdlib.manifestEntry_requestID ..⟩, hm⟩
    rw [hin, h.offset, toNat_length (hlen hm)]
    exact readAt_end st.input line

/-- The loop keeps plans and manifest together. -/
theorem planned_loop {rest : List Bytes}
    (hlen : ∀ p ∈ (lines ++ rest).zip st'.entries, p.2.rejected = false → p.1.length < 2 ^ 32)
    (hok : lib.preProcessLoop codec cfg jobID cause rest st = .ok st') :
    Planned lib codec cfg jobID (lines ++ rest) st' := by
  induction rest generalizing st lines with
  | nil =>
    rw [preProcessLoop_nil hok, List.append_nil]
    exact h
  | cons line rest ih =>
    obtain ⟨info, hinfo, -, hok⟩ := preProcessLoop_cons hok
    obtain ⟨tail, htail⟩ := preProcessLoop_extends hok
    have hmem : (line, lib.manifestEntry jobID cfg.registered st.lineCount info.toRequestMeta) ∈
        (lines ++ line :: rest).zip st'.entries := by
      rw [htail, (ingestLine_cases ..).2.1, List.append_assoc, List.zip_append h.aligned]
      exact List.mem_append_right _ List.mem_cons_self
    have hstep := planned_line h (hlen _ hmem) hinfo
    rw [List.append_cons] at hlen ⊢
    exact ih hstep hlen hok

end

theorem planned_preProcessJob {input : Bytes}
    (hok : lib.preProcessJob codec cfg jobID cause input = .ok st)
    (hlen : ∀ p ∈ (normalizedLines [] input).zip st.entries, p.2.rejected = false →
      p.1.length < 2 ^ 32) :
    Planned lib codec cfg jobID (normalizedLines [] input) st := by
  have hstart : Planned lib codec cfg jobID [] {} := ⟨rfl, rfl, by simp, by simp⟩
  exact planned_loop hstart hlen hok

namespace PlanAccumulator

/-- Every plan file is looked up under some model. -/
theorem mem_safeToModel {acc : PlanAccumulator} {safe : String}
    (h : safe ∈ acc.modelToSafe.map Prod.snd) : ∃ modelID, (safe, modelID) ∈ acc.safeToModel := by
  have hfold : ∀ (names : List (String × String)) (m : List (String × String)),
      (safe ∈ names.map Prod.snd ∨ ∃ modelID, (safe, modelID) ∈ m) →
      ∃ modelID, (safe, modelID) ∈
        names.foldl (fun m p => (p.2, p.1) :: m.filter (·.1 ≠ p.2)) m := by
    intro names
    induction names with
    | nil => simp
    | cons p names ih =>
      intro m hm
      apply ih
      by_cases hp : safe = p.2
      · exact .inr ⟨p.1, by simp [hp]⟩
      · rcases hm with hm | ⟨modelID, hm⟩
        · simp only [List.map_cons, List.mem_cons, hp, false_or] at hm
          exact .inl hm
        · exact .inr ⟨modelID, by simp [hm, hp]⟩
  exact hfold acc.modelToSafe [] (.inl h)

theorem mem_planFile {acc : PlanAccumulator} {safe : String} {e : PlanEntry} :
    e ∈ acc.planFile safe ↔ e ∈ acc.entries safe :=
  (List.perm_insertionSort _ _).mem_iff

end PlanAccumulator

namespace PlanFileSource

variable {s : PlanFileSource} {uuid : PlanEntry → String}

theorem mem_planned {plans : PlanAccumulator} {q : String × PlanEntry} :
    q ∈ planned plans ↔ ∃ safe, (safe, q.1) ∈ plans.safeToModel ∧ q.2 ∈ plans.entries safe := by
  simp only [planned, List.mem_flatMap, List.mem_map, PlanAccumulator.mem_planFile]
  constructor
  · rintro ⟨p, hp, e, he, rfl⟩
    exact ⟨p.1, hp, he⟩
  · rintro ⟨safe, hp, he⟩
    exact ⟨(safe, q.1), hp, q.2, he, rfl⟩

/-- The request a planned line is read back as has the identity of the manifest entry, exactly when
the numbers in the line's body are floats. -/
theorem readEntry_identity {e : PlanEntry} {p : Bytes × ManifestEntry} (modelID : String)
    (h : ReadsBack lib codec cfg s.batchID s.inputFile e p) (hid : s.batchID ≠ "") :
    ∃ item, s.readEntry lib codec uuid e modelID = .ok item ∧
      (item.parseError = none ↔ lineFloats codec p.1 = true) ∧
      (lineFloats codec p.1 = true →
        item.requestID = p.2.requestID ∧ item.customID = p.2.customID) := by
  obtain ⟨info, hinfo, hcustom, hrequest⟩ := h.line
  have hitem : s.readEntry lib codec uuid e modelID =
      .ok (s.readLine lib codec (uuid e) p.1 modelID) := by
    simp [readEntry, h.bytes]
  refine ⟨_, hitem, ?_⟩
  rcases s.readLine_cases (uuid e) modelID hinfo with ⟨hfloats, hparse, -⟩ |
    ⟨hfloats, hparse, hcid, hrid, -⟩
  · simp [hfloats, hparse]
  · simp only [hparse, hfloats, forall_const]
    exact ⟨trivial, (hrid hid).trans hrequest.symm, hcid.trans hcustom.symm⟩

/-- When every planned line can be read, the loop ends without an error and sends or holds back
only requests of planned lines. -/
theorem mem_produceLoop {P : RequestItem → Prop} {qs : List (String × PlanEntry)}
    (h : ∀ q ∈ qs, ∃ item, s.readEntry lib codec uuid q.2 q.1 = .ok item ∧ P item) :
    ∃ sent held, s.produceLoop lib codec uuid qs = (sent, held, none) ∧
      ∀ item ∈ sent ++ held, P item := by
  induction qs with
  | nil => exact ⟨[], [], rfl, by simp⟩
  | cons q qs ih =>
    obtain ⟨sent, held, hrest, hP⟩ := ih fun q' hq' => h q' (List.mem_cons_of_mem _ hq')
    obtain ⟨item, hitem, hp⟩ := h q List.mem_cons_self
    simp only [produceLoop, hitem, hrest]
    split
    · exact ⟨sent, held, rfl, hP⟩
    split
    · refine ⟨sent, item :: held, rfl, fun x hx => ?_⟩
      simp only [List.mem_append, List.mem_cons] at hx hP
      rcases hx with hx | rfl | hx
      · exact hP x (.inl hx)
      · exact hp
      · exact hP x (.inr hx)
    · refine ⟨item :: sent, held, rfl, fun x hx => ?_⟩
      rcases List.mem_cons.1 hx with rfl | hx
      · exact hp
      · exact hP x hx

end PlanFileSource

/-- Ingestion and dispatch agree: when no accepted line is too long for its plan entry, each of them
is planned and read back with the identity of its manifest entry, and the source sends no request
that is not in the manifest, exactly when the numbers in the bodies of the accepted lines are
floats. -/
theorem planned_requests_in_manifest (lib : Stdlib) (codec : Codec) (cfg : IngestConfig)
    (cause : Int → Option Err) (input : Bytes) (st : Ingestion) (s : PlanFileSource)
    (uuid : PlanEntry → String) (hid : s.batchID ≠ "")
    (hok : lib.preProcessJob codec cfg s.batchID cause input = .ok st)
    (hfile : s.inputFile = st.input)
    (hlen : ∀ p ∈ (normalizedLines [] input).zip st.entries, p.2.rejected = false →
      p.1.length < 2 ^ 32) :
    (normalizedLines [] input).length = st.entries.length ∧
    (((∀ p ∈ (normalizedLines [] input).zip st.entries, p.2.rejected = false →
        ∃ q ∈ PlanFileSource.planned st.plans,
          readAt s.inputFile q.2.offset q.2.length.toNat = some p.1 ∧
          ∃ item, s.readEntry lib codec uuid q.2 q.1 = .ok item ∧ item.parseError = none ∧
            item.requestID = p.2.requestID ∧ item.customID = p.2.customID) ∧
      (s.produce lib codec uuid st.plans).2 = none ∧
      ∀ item ∈ (s.produce lib codec uuid st.plans).1, ∃ m ∈ st.entries, m.rejected = false ∧
        item.parseError = none ∧ item.requestID = m.requestID ∧ item.customID = m.customID) ↔
    ∀ p ∈ (normalizedLines [] input).zip st.entries, p.2.rejected = false →
      lineFloats codec p.1 = true) := by
  have hplanned := planned_preProcessJob hok hlen
  have hread : ∀ e p, ReadsBack lib codec cfg s.batchID st.input e p → ∀ modelID,
      ∃ item, s.readEntry lib codec uuid e modelID = .ok item ∧
        (item.parseError = none ↔ lineFloats codec p.1 = true) ∧
        (lineFloats codec p.1 = true →
          item.requestID = p.2.requestID ∧ item.customID = p.2.customID) := by
    intro e p hb modelID
    rw [← hfile] at hb
    exact PlanFileSource.readEntry_identity modelID hb hid
  refine ⟨hplanned.aligned, fun ⟨hlines, _⟩ p hp hacc => ?_, fun hfloats => ?_⟩
  · -- the planned entry of the line holds the bytes of the line, so that it is read like the line
    obtain ⟨q, -, hbytes, item, hitem, hparse, -⟩ := hlines p hp hacc
    obtain ⟨-, -, e, -, hb⟩ := hplanned.manifest p hp hacc
    rw [hfile] at hbytes
    obtain ⟨item', hitem', hiff, -⟩ := hread q.2 p ⟨hbytes, hb.line, hacc⟩ q.1
    cases hitem.symm.trans hitem'
    exact hiff.1 hparse
  have hsource : ∀ q ∈ PlanFileSource.planned st.plans, ∃ item,
      s.readEntry lib codec uuid q.2 q.1 = .ok item ∧ ∃ m ∈ st.entries, m.rejected = false ∧
        item.parseError = none ∧ item.requestID = m.requestID ∧ item.customID = m.customID := by
    intro q hq
    obtain ⟨safe, -, he⟩ := PlanFileSource.mem_planned.1 hq
    obtain ⟨p, hp, hb⟩ := hplanned.entry safe q.2 he
    have hf := hfloats p hp hb.accepted
    obtain ⟨item, hitem, hiff, hids⟩ := hread q.2 p hb q.1
    exact ⟨item, hitem, p.2, (List.of_mem_zip hp).2, hb.accepted, hiff.2 hf, hids hf⟩
  obtain ⟨sent, held, hloop, hsent⟩ := PlanFileSource.mem_produceLoop hsource
  refine ⟨fun p hp hacc => ?_, ?_, ?_⟩
  · obtain ⟨safe, hs, e, he, hb⟩ := hplanned.manifest p hp hacc
    obtain ⟨modelID, hmodel⟩ := PlanAccumulator.mem_safeToModel hs
    have hf := hfloats p hp hacc
    obtain ⟨item, hitem, hiff, hids⟩ := hread e p hb modelID
    refine ⟨(modelID, e), PlanFileSource.mem_planned.2 ⟨safe, hmodel, he⟩, ?_, item, hitem,
      hiff.2 hf, hids hf⟩
    rw [hfile]
    exact hb.bytes
  · simp [PlanFileSource.produce, hloop]
  · simpa [PlanFileSource.produce, hloop] using hsent

/-! ### Concrete lines -/

def sampleEndpoint : String := "/v1/chat/completions"

/-- A request line with the given body. -/
def sampleRequestText (body : String) : String :=
  "\x7b\"custom_id\":\"a\",\"method\":\"POST\",\"url\":\"" ++ sampleEndpoint ++ "\",\"body\":" ++
    body ++ "\x7d"

def sampleRequestLine (body : String) : Bytes :=
  Stdlib.textBytes (sampleRequestText body) ++ newline

def sampleRequestJson (body : Json) : Json :=
  .obj [("custom_id", .str "a"), ("method", .str "POST"), ("url", .str sampleEndpoint),
    ("body", body)]

/-- The decoder on one text, with the names in it compared as upper case. -/
def sampleCodec (body : String) (value : Json) : Codec where
  parse data := if data = Stdlib.textBytes (sampleRequestText body) then
    some (sampleRequestJson value) else none
  fold name := String.ofList (name.toList.map Char.toUpper)
  parsesFloat literal := literal ≠ "1e999"
  syntaxError _ := "unexpected end of JSON input"
  typeError type _ := "json: cannot unmarshal number 1e999 into Go struct field " ++ type ++
    ".body of type float64"

theorem sampleCodec_parse (body : String) (value : Json) :
    (sampleCodec body value).parse (trimNewline (sampleRequestLine body)) =
      some (sampleRequestJson value) := by
  simp [sampleCodec, trimNewline, sampleRequestLine, newline]

/-- A processor that serves the models `m` and `n`. -/
def sampleIngestConfig : IngestConfig where
  allowed url := url = sampleEndpoint
  batchEndpoint := sampleEndpoint
  registered modelID := modelID = "m" ∨ modelID = "n"

/-- The source of a batch whose only line is this one. -/
def sampleSource (line : Bytes) : PlanFileSource where
  batchID := "batch_1"
  inputFile := line

def sampleEntry (line : Bytes) : PlanEntry := ⟨0, UInt32.ofNat line.length, noPrefixHash⟩

def requestText (customID model : String) : String :=
  "\x7b\"custom_id\":\"" ++ customID ++ "\",\"method\":\"POST\",\"url\":\"" ++ sampleEndpoint ++
    "\",\"body\":\x7b\"model\":\"" ++ model ++ "\"\x7d\x7d"

def requestJson (customID model : String) : Json :=
  .obj [("custom_id", .str customID), ("method", .str "POST"), ("url", .str sampleEndpoint),
    ("body", .obj [("model", .str model)])]

def requestBytes (customID model : String) : Bytes := Stdlib.textBytes (requestText customID model)

/-- The decoder on the texts of requests, which blanks may follow. -/
def requestsCodec (requests : List (String × String)) : Codec where
  parse data := requests.findSome? fun p =>
    if data.rdropWhile (· = 32) = requestBytes p.1 p.2 then some (requestJson p.1 p.2) else none
  fold name := String.ofList (name.toList.map Char.toUpper)
  parsesFloat _ := true
  syntaxError _ := "unexpected end of JSON input"
  typeError type _ := "json: cannot unmarshal into Go value of type " ++ type

/-- A file with these requests. -/
def requestsInput (requests : List (String × String)) : Bytes :=
  requests.flatMap fun p => requestBytes p.1 p.2 ++ newline

theorem ok_of_isSome {ε α : Type} {x : Except ε α} (h : x.toOption.isSome = true) (default : α) :
    x = .ok (x.toOption.getD default) := by
  cases x with
  | error => cases h
  | ok => rfl

/-- A body that names its model twice, in two spellings. -/
def twoModels : String := "\x7b\"model\":\"m\",\"Model\":\"n\"\x7d"

def twoModelsCodec : Codec :=
  sampleCodec twoModels (.obj [("model", .str "m"), ("Model", .str "n")])

/-- The line is validated and planned for one model and forwarded with the other. -/
theorem twoModels_forwarded :
    extractAndValidateLine .sample twoModelsCodec sampleIngestConfig (sampleRequestLine twoModels) =
      .ok ⟨⟨"a", "n"⟩, noPrefixHash⟩ ∧
    ∃ item, (sampleSource (sampleRequestLine twoModels)).readEntry .sample twoModelsCodec
        (fun _ => "") (sampleEntry (sampleRequestLine twoModels)) "n" = .ok item ∧
      item.body.lookup "model" = some (.str "m") := by
  refine ⟨by decide +kernel, ?_⟩
  exact ⟨_, rfl, rfl⟩

/-- A body with one model. -/
def oneModel : String := "\x7b\"model\":\"m\",\"stream\":false\x7d"

def oneModelCodec : Codec :=
  sampleCodec oneModel (.obj [("model", .str "m"), ("stream", .bool false)])

theorem oneModel_forwarded :
    ∃ item, (sampleSource (sampleRequestLine oneModel)).readEntry .sample oneModelCodec
        (fun _ => "") (sampleEntry (sampleRequestLine oneModel)) "m" = .ok item ∧
      item.modelID = routeKey false "" "m" ∧ item.body.lookup "model" = some (.str "m") ∧
      item.body.lookup "stream" ≠ some (.bool true) ∧ item.endpoint = sampleEndpoint := by
  refine (validated_fields_forwarded .sample oneModelCodec sampleIngestConfig
    (sampleSource (sampleRequestLine oneModel)) (fun _ => "")
    (sampleEntry (sampleRequestLine oneModel)) (sampleRequestLine oneModel)
    ⟨⟨"a", "m"⟩, noPrefixHash⟩ (by decide +kernel) (by decide +kernel)).2
    ⟨by decide +kernel, fun v hv => ?_⟩
  cases (sampleCodec_parse oneModel _).symm.trans hv
  exact ⟨rfl, nofun⟩

/-- A body with a number that no float64 holds. -/
def hugeNumber : String := "\x7b\"model\":\"m\",\"temperature\":1e999\x7d"

def hugeNumberCodec : Codec :=
  sampleCodec hugeNumber (.obj [("model", .str "m"), ("temperature", .num "1e999")])

/-- The line is accepted and planned, and what is read back is an error under a random identity
that is not in the manifest. -/
theorem hugeNumber_identity :
    ∃ st, Stdlib.sample.preProcessJob hugeNumberCodec sampleIngestConfig "batch_1" (fun _ => none)
        (sampleRequestLine hugeNumber) = .ok st ∧
      st.entries.map (fun m => (m.customID, m.rejected)) = [("a", false)] ∧
      ∃ item, (sampleSource st.input).produce .sample hugeNumberCodec (fun _ => "0") st.plans =
          ([item], none) ∧
        item.parseError.isSome ∧ item.customID ≠ "a" ∧
        item.requestID ∉ st.entries.map ManifestEntry.requestID := by
  exact ⟨_, rfl, by decide +kernel, _, rfl, by decide +kernel, by decide +kernel,
    by decide +kernel⟩

theorem oneModel_identity :
    ∃ st, Stdlib.sample.preProcessJob oneModelCodec sampleIngestConfig "batch_1" (fun _ => none)
        (sampleRequestLine oneModel) = .ok st ∧
      ∀ item ∈ ((sampleSource st.input).produce .sample oneModelCodec (fun _ => "0") st.plans).1,
        ∃ m ∈ st.entries, m.rejected = false ∧ item.parseError = none ∧
          item.requestID = m.requestID ∧ item.customID = m.customID := by
  refine ⟨_, rfl, ?_⟩
  exact ((planned_requests_in_manifest .sample oneModelCodec sampleIngestConfig (fun _ => none)
    (sampleRequestLine oneModel) _ (sampleSource _) (fun _ => "0") (by decide) rfl rfl
    (by decide +kernel)).2.2 (by decide +kernel)).2.2

end BatchGateway
