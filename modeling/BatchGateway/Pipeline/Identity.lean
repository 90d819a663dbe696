import BatchGateway.Checkpoint.Durability
import BatchGateway.Pipeline.Input
import BatchGateway.Pipeline.Provenance

/-! The line stored for an entry carries the identity of the entry. Results of synchronous calls and
failures made by the execution do; a received result gets the custom ID of its request only if it is
no failure. -/
namespace BatchGateway

open Interleaving GoJson

/-! ### Keys -/

theorem fallback_inj {batchID q q' u u' : String} (hq : DotFree q) (hq' : DotFree q')
    (h : fallbackResultKey batchID q u = fallbackResultKey batchID q' u') : q = q' := by
  have h : q ++ "." ++ u ++ ".jsonl" = q' ++ "." ++ u' ++ ".jsonl" := by
    simpa [fallbackResultKey, String.append_assoc] using h
  -- The request ID ends at the first dot.
  have hfirst : ∀ {q : String} (u : String), DotFree q →
      (q ++ "." ++ u ++ ".jsonl").toList.takeWhile (· ≠ '.') = q.toList := by
    intro q u hq
    have hall : ∀ c ∈ q.toList, decide (c ≠ '.') = true := by
      intro c hc
      rw [decide_eq_true_eq]
      rintro rfl
      exact hq hc
    rw [String.append_assoc, String.append_assoc, String.toList_append,
      List.takeWhile_append_of_pos hall]
    simp
  exact String.toList_inj.1 (by rw [← hfirst u hq, h, hfirst u' hq'])

/-- A key belongs to one request only. -/
theorem BatchResultStore.IsKey.eq {s : BatchResultStore} {q q' key : String} (hq : DotFree q)
    (hq' : DotFree q') (h : s.IsKey q key) (h' : s.IsKey q' key) : q = q' := by
  rcases h with rfl | ⟨u, rfl⟩ <;> rcases h' with h' | ⟨u', h'⟩
  · simpa [resumableResultKey] using h'
  · exact absurd ⟨q', u', h'⟩ (canonical_ne_fallback hq)
  · exact absurd ⟨q, u, h'.symm⟩ (canonical_ne_fallback hq')
  · exact fallback_inj hq hq' h'

theorem BatchResultStore.IsKey.orNull {s : BatchResultStore} {q key : String} (h : s.IsKey q key) :
    orNull key = some key := by
  rcases h with rfl | ⟨u, rfl⟩
  · exact if_neg (resultKey_ne_empty _ _)
  · exact if_neg (fallbackKey_ne_empty _ _ _)

/-! ### Lines and identities -/

/-- The output line has the ID and the custom ID. -/
def Stdlib.Labels (lib : Stdlib) (q c : String) (line : Bytes) : Prop :=
  ∃ response error, line = lib.marshal ⟨q, c, response, error⟩ ++ newline

/-- The response is an HTTP response, and one that reports success has a JSON object in its body. -/
def GenerateResponse.Answers (bodies : BodyCodec) (resp : GenerateResponse) : Prop :=
  resp.isNonHTTPFailure = false ∧
    (resp.statusCode = 0 ∨ 200 ≤ resp.statusCode ∧ resp.statusCode < 300 →
      resp.response ≠ [] ∧ ∃ body, bodies.decode resp.response = .ok body)

/-- Such a response is no failure for the request. -/
theorem GenerateResponse.Answers.error_none {bodies : BodyCodec} {resp : GenerateResponse}
    (h : resp.Answers bodies) : (bodies.asyncResult resp).error = none := by
  obtain ⟨hhttp, hbody⟩ := h
  have hcode : resp.statusCode = 0 ∨ 200 ≤ resp.statusCode ∧ resp.statusCode < 300 ↔
      200 ≤ (if resp.statusCode = 0 then 200 else resp.statusCode) ∧
        (if resp.statusCode = 0 then 200 else resp.statusCode) < 300 := by
    split <;> simp_all
  rw [hcode] at hbody
  unfold BodyCodec.asyncResult
  dsimp only
  generalize (if resp.statusCode = 0 then 200 else resp.statusCode) = statusCode at hbody
  rw [hhttp, if_neg Bool.false_ne_true]
  by_cases hok : 200 ≤ statusCode ∧ statusCode < 300
  · obtain ⟨hne, body, hbody⟩ := hbody hok
    rw [if_neg hne, hbody]
  · simp only [hok, decide_false, Bool.false_eq_true, if_false]
    split
    · rfl
    · split <;> rfl

variable {S : Setup} {h h' : Hub S} {e : Event S}

/-- The batch has a line with the request ID and the custom ID. -/
def Setup.Names (S : Setup) (i : Fin S.batches) (q c : String) : Prop :=
  ∃ j, S.batch j = i ∧ ∃ m ∈ (S.config j).manifest.entries, m.requestID = q ∧ m.customID = c

/-- A custom ID that a line or a request of the batch has. -/
def Setup.Uses (S : Setup) (i : Fin S.batches) (c : String) : Prop :=
  ∃ j, S.batch j = i ∧ ((∃ m ∈ (S.config j).manifest.entries, m.customID = c) ∨
    ∃ msg, .ok msg ∈ (S.config j).requests ∧ msg.customID = c)

/-- Request IDs are UUID texts: those of a batch do not collide, and none has a dot. -/
structure Setup.ProperIDs (S : Setup) (id : Fin S.batches → String) : Prop where
  batch : ∀ i, id i ≠ ""
  inj : ∀ i c c', S.Uses i c → S.Uses i c' →
    S.lib.stableBatchRequestID (id i) c = S.lib.stableBatchRequestID (id i) c' → c = c'
  lines : ∀ j, ∀ m ∈ (S.config j).manifest.entries, DotFree m.requestID
  requests : ∀ j msg, .ok msg ∈ (S.config j).requests → DotFree msg.requestID

section Inputs

variable {codec : Codec} {icfg : Fin S.jobs → IngestConfig} {input : Fin S.batches → Bytes}
  {id : Fin S.batches → String} (hin : S.Inputs codec icfg input id) (hids : S.ProperIDs id)
include hin hids

theorem Setup.ProperIDs.lines_inj {i : Fin S.batches} {q c c' : String} (h : S.Names i q c)
    (h' : S.Names i q c') : c = c' := by
  obtain ⟨j, hj, m, hm, rfl, rfl⟩ := h
  obtain ⟨j', hj', m', hm', hq, rfl⟩ := h'
  refine hids.inj i _ _ ⟨j, hj, .inl ⟨m, hm, rfl⟩⟩ ⟨j', hj', .inl ⟨m', hm', rfl⟩⟩ ?_
  rw [(hin.ingested j).requestID_eq hm, (hin.ingested j').requestID_eq hm', hin.batchID,
    hin.batchID, hj, hj'] at hq
  exact hq.symm

theorem Setup.ProperIDs.request_inj {j : Fin S.jobs} {msg : RequestItem} {c : String}
    (hmsg : .ok msg ∈ (S.config j).requests) (h : S.Names (S.batch j) msg.requestID c) :
    msg.customID = c := by
  obtain ⟨j', hj', m', hm', hq, rfl⟩ := h
  rcases (hin.ingested j).request (by rw [hin.batchID]; exact hids.batch _) hmsg with hid | hfresh
  · refine hids.inj (S.batch j) _ _ ⟨j, rfl, .inr ⟨msg, hmsg, rfl⟩⟩
      ⟨j', hj', .inl ⟨m', hm', rfl⟩⟩ ?_
    rw [(hin.ingested j').requestID_eq hm', hid, hin.batchID, hin.batchID, hj'] at hq
    exact hq.symm
  · -- The line has the same ID in the manifest of this execution.
    have hlines := hin.ingested j'
    rw [hj'] at hlines
    have heq := (hin.ingested j).identities_eq hlines (by rw [hin.batchID, hin.batchID, hj'])
    have hmem : (m'.requestID, m'.ordinal, m'.customID) ∈ (S.config j).manifest.identities := by
      rw [← heq]
      exact List.mem_map_of_mem hm'
    obtain ⟨m, hm, hmm⟩ := List.mem_map.1 hmem
    exact absurd (hq.symm.trans (congrArg Prod.fst hmm).symm) (hfresh m hm)

end Inputs

/-! ### What the store holds -/

/-- The finished entry describes the object at one of its keys, a line with its identity. -/
structure EntryRow.Labeled (S : Setup) (i : Fin S.batches) (row : EntryRow) : Prop where
  key : ∃ j key, S.batch j = i ∧ (S.sink j).IsKey row.requestID key ∧ row.resultKey = some key
  line : ∃ line, S.lib.Labels row.requestID row.customID line ∧
    row.resultSHA256.getD "" = S.lib.sha256 line ∧ row.resultBytes.getD 0 = line.length

theorem getD_orNull (s : String) : (orNull s).getD "" = s := by
  unfold orNull
  split
  next h => exact h.symm
  next => rfl

theorem getD_positive {n : Int} (h : 0 ≤ n) : (if 0 < n then some n else none).getD 0 = n := by
  split
  · rfl
  · rw [Option.getD_none]
    omega

theorem EntryRow.labeled_commit {i : Fin S.batches} {j : Fin S.jobs} {row : EntryRow} {now : Time}
    {item : ResultItem} {key : String} (hj : S.batch j = i) (hkey : (S.sink j).IsKey row.requestID key)
    (hq : item.requestID = row.requestID) (hc : item.customID = row.customID) :
    (row.commit now (S.lib.committed item key)).Labeled S i where
  key := ⟨j, key, hj, hkey, hkey.orNull⟩
  line := by
    refine ⟨S.lib.resultLine item, ⟨item.response, item.error, ?_⟩, getD_orNull _, ?_⟩
    · rw [Stdlib.resultLine, hq, hc]
      rfl
    · exact getD_positive (Int.natCast_nonneg _)

theorem EntryRow.labeled_activation {codec : Codec} {icfg : Fin S.jobs → IngestConfig}
    {input : Fin S.batches → Bytes} {id : Fin S.batches → String} {i : Fin S.batches}
    {j : Fin S.jobs} {m : ManifestEntry} {now : Time} (hin : S.Inputs codec icfg input id)
    (hj : S.batch j = i) (hm : m ∈ (S.config j).manifest.entries) (hr : m.rejected = true) :
    (activationRow now m.activationEntry).Labeled S i := by
  obtain ⟨hkey, hbytes, hsha, error, hline⟩ := (hin.ingested j).rejected hm hr
  have hk : (S.sink j).IsKey m.requestID m.resultKey := .inl hkey
  unfold ManifestEntry.activationEntry
  rw [if_pos hr]
  refine ⟨⟨j, m.resultKey, hj, hk, hk.orNull⟩, m.errLine, ⟨none, some error, hline⟩, ?_, ?_⟩
  · exact (getD_orNull _).trans hsha
  · rw [← hbytes]
    simp only [activationRow]
    split
    next h => exact h.symm
    next => rfl

/-- The objects and the finished entries of the batch are lines with the right identity. -/
structure World.Labeled (S : Setup) (i : Fin S.batches) (w : World) : Prop where
  objects : ∀ j q c key data, S.batch j = i → S.Names i q c → (S.sink j).IsKey q key →
    w.objects key = some data → S.lib.Labels q c data
  names : ∀ row ∈ w.batch.entries.rows, S.Names i row.requestID row.customID
  finished : ∀ row ∈ w.batch.entries.rows, row.status.isTerminal = true → row.Labeled S i

theorem World.labeled_new {w : World} (hrows : w.batch.entries.rows = [])
    (hnew : ∀ key, w.objects key = none) (i : Fin S.batches) : w.Labeled S i where
  objects _ _ _ key _ _ _ _ hd := by
    rw [hnew] at hd
    cases hd
  names row hr := by
    rw [hrows] at hr
    cases hr
  finished row hr := by
    rw [hrows] at hr
    cases hr

theorem Delivery.Taken.dotFree {good : GenerateResponse → Prop} {cfg : RunConfig}
    {submitted : List String} {d : Delivery} (h : d.Taken S good cfg submitted)
    (hdot : ∀ msg, .ok msg ∈ cfg.requests → DotFree msg.requestID) : DotFree d.item.requestID := by
  cases h with
  | made h =>
    obtain ⟨msg, hmsg, hq, -⟩ := h
    exact hq ▸ hdot msg hmsg
  | failed _ _ hmsg hid => exact hid ▸ hdot _ hmsg
  | answered _ _ hmsg hid => exact hid ▸ hdot _ hmsg

section Step

variable {codec : Codec} {icfg : Fin S.jobs → IngestConfig} {input : Fin S.batches → Bytes}
  {id : Fin S.batches → String} (hin : S.Inputs codec icfg input id) (hids : S.ProperIDs id)
include hin hids

/-- A result that is accepted carries the identity of its line. -/
theorem Delivery.Taken.customID_eq {j : Fin S.jobs} {submitted : List String} {d : Delivery}
    {c : String} (h : d.Taken S (·.Answers S.bodies) (S.config j) submitted)
    (hn : S.Names (S.batch j) d.item.requestID c) : d.item.customID = c := by
  cases h with
  | made h =>
    obtain ⟨msg, hmsg, hq, hc, -⟩ := h
    rw [hq] at hn
    exact hc.trans (hids.request_inj hin hmsg hn)
  | failed h he =>
    obtain ⟨resp, hgood, -, hitem, -⟩ := h
    rw [hitem, hgood.error_none] at he
    cases he
  | answered h he hmsg hid =>
    dsimp only at hn ⊢
    rw [← hid] at hn
    exact hids.request_inj hin hmsg hn

theorem Setup.labels_step {env : Env} {c : Call} {a : c.Resp}
    {w' : World} {i : Fin S.batches} (hh : h.Traced (·.Answers S.bodies))
    (hp : (h.worlds i).perform env c = some (w', a)) (hcalls : h.Calls e i env c)
    (hl : (h.worlds i).Labeled S i) {j : Fin S.jobs} {q cid key : String} {data : Bytes}
    (hj : S.batch j = i) (hn : S.Names i q cid) (hkey : (S.sink j).IsKey q key)
    (hd : w'.objects key = some data) : S.lib.Labels q cid data := by
  have hsink : ∀ {j'}, S.batch j' = i → (S.sink j').IsKey q key := by
    intro j' hj'
    have : (S.sink j').batchID = (S.sink j).batchID := by
      rw [Setup.sink, Setup.sink, hin.batchID, hin.batchID, hj, hj']
    unfold BatchResultStore.IsKey at hkey ⊢
    rwa [this]
  have hdot : DotFree q := by
    obtain ⟨j', -, m, hm, rfl, -⟩ := hn
    exact hids.lines j' m hm
  rcases World.objects_perform hp hd with hold | ⟨owner, rfl⟩ | ⟨publication, rfl⟩
  · exact hl.objects j q cid key data hj hn hkey hold
  · cases hcalls with
    | other hc => cases hc
    | @prepare j' _ hj' hc =>
      obtain ⟨m, hm, hrej, rfl, rfl⟩ := hc
      obtain ⟨hmkey, -, -, error, hline⟩ := (hin.ingested j').rejected hm hrej
      obtain rfl := (hsink hj').eq hdot (hids.lines j' m hm) (.inl hmkey)
      obtain rfl := hids.lines_inj hin hn ⟨j', hj', m, hm, rfl, rfl⟩
      exact ⟨none, some error, hline⟩
    | mark _ _ _ hc => cases hc
    | @checkpoint j' d t _ hj' hpc hc =>
      obtain ⟨hdkey, rfl⟩ := hc
      have htaken : Delivery.Taken .. :=
        hh.tokens j' (.accepted d) (Run.mem_bag_of_drain (by simp [hpc, DrainPC.bag]))
      obtain rfl := (hsink hj').eq hdot (htaken.dotFree (hids.requests j')) hdkey
      rw [← hj'] at hn
      refine ⟨d.item.response, d.item.error, ?_⟩
      rw [Stdlib.resultLine, htaken.customID_eq hin hids hn]
  · cases hcalls with
    | other hc => cases hc
    | prepare _ _ hc | mark _ _ _ hc | checkpoint _ _ _ hc => cases hc

theorem Setup.labeled_step (hs : S.step h e = some h') (hh : h.Traced (·.Answers S.bodies))
    (hl : ∀ i, (h.worlds i).Labeled S i) (i : Fin S.batches) : (h'.worlds i).Labeled S i := by
  have hnames : ∀ row ∈ (h'.worlds i).batch.entries.rows, S.Names i row.requestID row.customID := by
    intro row hr
    rcases S.row_step hs hh.sound hr with ⟨row₀, hr₀, hev⟩ | ⟨j, m, hj, hm, rfl⟩
    · rw [hev.requestID, hev.customID]
      exact (hl i).names row₀ hr₀
    · exact ⟨j, hj, m, hm, m.activationEntry_requestID.symm, m.activationEntry_customID.symm⟩
  have hlabel : ∀ row ∈ (h'.worlds i).batch.entries.rows, row.status.isTerminal = true →
      row.Labeled S i := by
    intro row hr ht
    rcases S.row_step hs hh.sound hr with ⟨row₀, hr₀, hev⟩ | ⟨j, m, hj, hm, rfl⟩
    · by_cases ht₀ : row₀.status.isTerminal = true
      · rw [hev.terminal ht₀]
        exact (hl i).finished row₀ hr₀ ht₀
      · obtain ⟨j, d, t, key, -, hj, hpc, -, hkey, hq, hrow⟩ :=
          S.commit_step hs hh.sound hr ht hr₀ hev.requestID.symm (by simpa using ht₀)
        have htaken : Delivery.Taken .. :=
          hh.tokens j (.accepted d) (Run.mem_bag_of_drain (by simp [hpc, DrainPC.bag]))
        have hn := hnames row hr
        rw [← hj, ← hq] at hn
        have hcid := htaken.customID_eq hin hids hn
        rw [hq] at hkey
        rw [hrow] at hkey ⊢
        exact EntryRow.labeled_commit hj hkey (hq.trans hev.requestID) (hcid.trans hev.customID)
    · have hrej : m.rejected = true := by
        by_contra hacc
        rw [activationRow, m.activationEntry_status, if_neg hacc] at ht
        cases ht
      exact EntryRow.labeled_activation hin hj hm hrej
  refine ⟨fun j q c key data hj hn hkey hd => ?_, hnames, hlabel⟩
  rcases S.world_step hs hh.sound i with hw | ⟨env, c', a, hp, -, hcalls⟩
  · rw [hw] at hd
    exact (hl i).objects j q c key data hj hn hkey hd
  · exact S.labels_step hin hids hh hp hcalls (hl i) hj hn hkey hd

end Step

/-! ### All runs -/

/-- The result of the entry is a line with its identity: the object that the entry points to, the
object whose size and digest it holds, and the line of an entry that is not executed. -/
structure Hub.Identifies (h : Hub S) (i : Fin S.batches) (row : EntryRow) : Prop where
  stored : row.status.isTerminal = true → ∀ key data, row.resultKey = some key →
    (h.worlds i).objects key = some data → S.lib.Labels row.requestID row.customID data
  committed : row.status.isTerminal = true → ∃ line, S.lib.Labels row.requestID row.customID line ∧
    row.resultSHA256.getD "" = S.lib.sha256 line ∧ row.resultBytes.getD 0 = line.length
  notExecuted : ∀ code, S.lib.Labels row.requestID row.customID (S.lib.notExecutedLine row code)

/-- In every run in which the queues deliver HTTP responses only, and no empty or unreadable ones
for requests that succeeded, every line that is stored or rendered for an entry carries the identity
of the entry. -/
theorem lines_carry_identity {codec : Codec} {icfg : Fin S.jobs → IngestConfig}
    {input : Fin S.batches → Bytes} {id : Fin S.batches → String} {h₀ : Hub S}
    (hin : S.Inputs codec icfg input id) (hids : S.ProperIDs id) (hi : h₀.Initial)
    (hnew : ∀ i key, (h₀.worlds i).objects key = none) {es : List (Event S)}
    (hgood : Along S.step (Hub.Receives (·.Answers S.bodies)) h₀ es)
    (hs : exec S.step h₀ es = some h) (i : Fin S.batches) {row : EntryRow}
    (hr : row ∈ (h.worlds i).batch.entries.rows) : h.Identifies i row := by
  have hh : h.Traced (·.Answers S.bodies) ∧ ∀ i, (h.worlds i).Labeled S i := by
    refine along_invariant (I := fun h : Hub S => h.Traced (·.Answers S.bodies) ∧
      ∀ i, (h.worlds i).Labeled S i) (fun h e h' hh hg hs => ?_) hgood hs ⟨hi.traced, fun i => ?_⟩
    · exact ⟨S.traced_step hs hg hh.1, S.labeled_step hin hids hs hh.1 hh.2⟩
    · exact World.labeled_new (hi.entries i) (hnew i) i
  obtain ⟨hobjects, hnames, hfinished⟩ := hh.2 i
  refine ⟨fun ht key data hkey hd => ?_, fun ht => (hfinished row hr ht).line, fun code =>
    ⟨none, _, rfl⟩⟩
  obtain ⟨j, key', hj, hiskey, hkey'⟩ := (hfinished row hr ht).key
  cases hkey.symm.trans hkey'
  exact hobjects j _ _ key data hj (hnames row hr) hiskey hd

/-- The execution on one line, over a queue. -/
def queuedLine : List RunConfig := [RunConfig.ofLine.overQueue]

/-- The response is committed as the result of the line. -/
def answerLine (resp : GenerateResponse) : List (Event (.sample queuedLine)) :=
  Event.enqueue ⟨0, by decide⟩ ++ Event.deliver resp ++ Event.settle ⟨0, by decide⟩

def lineAnswer : GenerateResponse := ⟨Stdlib.sampleRequest, [1], 200, "", ""⟩

def lineFailure : GenerateResponse := ⟨Stdlib.sampleRequest, [], 0, "timeout", ""⟩

theorem inputs_queuedLine : (Setup.sample queuedLine).Inputs oneModelCodec
    (fun _ => sampleIngestConfig) (fun _ => sampleRequestLine oneModel) (fun _ => "batch_1") :=
  Setup.inputs_sample rfl RunConfig.ingested_ofLine.overQueue

theorem queuedLine_config (j : Fin (Setup.sample queuedLine).jobs) :
    (Setup.sample queuedLine).config j = RunConfig.ofLine.overQueue :=
  List.mem_singleton.1 (List.get_mem _ _)

theorem properIDs_queuedLine : (Setup.sample queuedLine).ProperIDs fun _ => "batch_1" := by
  have hdot : DotFree Stdlib.sampleRequest := by
    unfold DotFree
    decide +kernel
  refine ⟨by decide, fun i c c' h h' _ => ?_, fun j m hm => ?_, fun j msg hmsg => ?_⟩
  · have huses : ∀ {c}, (Setup.sample queuedLine).Uses i c → c = "a" := by
      rintro c ⟨j, -, ⟨m, hm, rfl⟩ | ⟨msg, hmsg, rfl⟩⟩
      · rw [queuedLine_config] at hm
        exact (RunConfig.ofLine_manifest m hm).2
      · rw [queuedLine_config] at hmsg
        exact (RunConfig.ofLine_requests hmsg).2
    rw [huses h, huses h']
  · rw [queuedLine_config] at hm
    exact (RunConfig.ofLine_manifest m hm).1 ▸ hdot
  · rw [queuedLine_config] at hmsg
    exact (RunConfig.ofLine_requests hmsg).1 ▸ hdot

/-- An entry and what the store holds for it. -/
structure StoredLine where
  requestID : String
  customID : String
  status : EntryStatus
  data : Option Bytes
  deriving DecidableEq

def Hub.storedLines (h : Hub (.sample queuedLine)) : List StoredLine :=
  (h.worlds ⟨0, by decide⟩).batch.entries.rows.map fun row =>
    ⟨row.requestID, row.customID, row.status, row.resultKey.bind (h.worlds ⟨0, by decide⟩).objects⟩

theorem textBytes_inj {s t : String} (h : Stdlib.textBytes s = Stdlib.textBytes t) : s = t := by
  unfold Stdlib.textBytes at h
  exact String.toByteArray_inj.1 (ByteArray.ext (Array.toList_inj.1 h))

theorem not_labels_empty (error : OutputError) : ¬ Stdlib.sample.Labels Stdlib.sampleRequest "a"
    (Stdlib.sample.resultLine ⟨Stdlib.sampleRequest, "", none, some error⟩) := by
  rintro ⟨response, error', h⟩
  have h := textBytes_inj (List.append_cancel_right h)
  simp only [Stdlib.marshalPlain, String.append_assoc, String.append_right_inj] at h
  have hlist := congrArg String.toList h
  simp [Stdlib.marshalText] at hlist

/-- A run in which the queue delivers an answer. -/
theorem lineAnswer_identity :
    ∃ h, exec (Setup.sample queuedLine).step (.sample queuedLine) (answerLine lineAnswer) = some h ∧
      h.storedLines = [⟨Stdlib.sampleRequest, "a", .completed, some (Stdlib.sample.resultLine
        ⟨Stdlib.sampleRequest, "a", some ⟨200, Stdlib.sampleRequest, "\x7b\x7d"⟩, none⟩)⟩] ∧
      ∀ row ∈ (h.worlds ⟨0, by decide⟩).batch.entries.rows, h.Identifies ⟨0, by decide⟩ row := by
  have hrun : ((exec (Setup.sample queuedLine).step (.sample queuedLine)
      (answerLine lineAnswer)).map Hub.storedLines) =
      some [⟨Stdlib.sampleRequest, "a", .completed, some
        (Stdlib.sample.resultLine ⟨Stdlib.sampleRequest, "a",
          some ⟨200, Stdlib.sampleRequest, "\x7b\x7d"⟩, none⟩)⟩] := by decide +kernel
  obtain ⟨h, hr, hrows⟩ := Option.map_eq_some_iff.1 hrun
  refine ⟨h, hr, hrows, fun row hrow => lines_carry_identity inputs_queuedLine properIDs_queuedLine
    (Hub.sample_initial _) (fun _ _ => rfl) (along_of_forall ?_ _) hr _ hrow⟩
  have hall : (answerLine lineAnswer).all (fun e => match e.who with
      | .broadcaster _ => decide (e.env.received = lineAnswer)
      | _ => true) = true := by decide +kernel
  intro h e he b hw _
  have hone := List.all_eq_true.1 hall e he
  rw [hw] at hone
  rw [of_decide_eq_true hone]
  exact ⟨rfl, fun _ => ⟨nofun, _, rfl⟩⟩

/-- The result that the queue delivers is a failure: the line that is stored has no custom ID. -/
theorem lineFailure_identity :
    (Setup.sample queuedLine).Inputs oneModelCodec (fun _ => sampleIngestConfig)
      (fun _ => sampleRequestLine oneModel) (fun _ => "batch_1") ∧
    ((Setup.sample queuedLine).ProperIDs fun _ => "batch_1") ∧ (Hub.sample queuedLine).Initial ∧
    ∃ h, exec (Setup.sample queuedLine).step (.sample queuedLine) (answerLine lineFailure) = some h ∧
      h.storedLines = [⟨Stdlib.sampleRequest, "a", .failed, some (Stdlib.sample.resultLine
        ⟨Stdlib.sampleRequest, "", none, some ⟨"timeout", "async request failed"⟩⟩)⟩] ∧
      ∃ row ∈ (h.worlds ⟨0, by decide⟩).batch.entries.rows, ¬ h.Identifies ⟨0, by decide⟩ row := by
  have hrun : ((exec (Setup.sample queuedLine).step (.sample queuedLine)
      (answerLine lineFailure)).map Hub.storedLines) = some [⟨Stdlib.sampleRequest, "a", .failed, some
        (Stdlib.sample.resultLine ⟨Stdlib.sampleRequest, "", none,
          some ⟨"timeout", "async request failed"⟩⟩)⟩] := by decide +kernel
  obtain ⟨h, hr, hrows⟩ := Option.map_eq_some_iff.1 hrun
  refine ⟨inputs_queuedLine, properIDs_queuedLine, Hub.sample_initial _, h, hr, hrows, ?_⟩
  have hmem := hrows ▸ List.mem_singleton_self _
  obtain ⟨row, hrow, hstored⟩ := List.mem_map.1 hmem
  simp only [StoredLine.mk.injEq] at hstored
  obtain ⟨hq, hc, hst, hdata⟩ := hstored
  obtain ⟨key, hkey, hdata⟩ := Option.bind_eq_some_iff.1 hdata
  refine ⟨row, hrow, fun hid => ?_⟩
  have hlabels := hid.stored (by rw [hst]; rfl) key _ hkey hdata
  rw [hq, hc] at hlabels
  exact not_labels_empty _ hlabels

end BatchGateway
