import BatchGateway.Worker.Listing
import BatchGateway.Worker.PlanFiles

/-! Which requests a resumed execution sends, which it waits for, and whose results it recovers. -/
namespace BatchGateway

open GoJson Interleaving

/-! ### The recovery plan -/

/-- The loop over the in-flight entries and their submitters. -/
def recoveryLoop (self : String) :
    List (String × String) → List String → List String → List String × List String
  | [], recovering, submitters => (recovering, submitters)
  | (requestID, submitter) :: rest, recovering, submitters =>
    if submitter = "" then recoveryLoop self rest recovering submitters
    else if submitter = self ∨ submitter ∈ submitters then
      recoveryLoop self rest (requestID :: recovering) submitters
    else recoveryLoop self rest (requestID :: recovering) (submitters ++ [submitter])

/-- The requests whose results are recovered, and the other processors that submitted them. -/
def recoveryPlan (seed : Option ResumableResumeState) (self : String) (canRecoverResults : Bool) :
    List String × List String :=
  match seed with
  | none => ([], [])
  | some seed =>
    if canRecoverResults = false ∨ seed.inFlightSubmittedBy = [] then ([], [])
    else recoveryLoop self seed.inFlightSubmittedBy [] []

theorem mem_recovering {self q : String} {inFlight : List (String × String)}
    {recovering submitters : List String} :
    q ∈ (recoveryLoop self inFlight recovering submitters).1 ↔
      q ∈ recovering ∨ ∃ p ∈ inFlight, p.1 = q ∧ p.2 ≠ "" := by
  induction inFlight generalizing recovering submitters with
  | nil => simp [recoveryLoop]
  | cons p inFlight ih =>
    obtain ⟨requestID, submitter⟩ := p
    rw [List.exists_mem_cons_iff, recoveryLoop]
    by_cases hempty : submitter = ""
    · rw [if_pos hempty, ih]
      simp [hempty]
    · have hcons : q ∈ requestID :: recovering ↔
          q ∈ recovering ∨ (requestID = q ∧ submitter ≠ "") := by
        rw [List.mem_cons, or_comm, eq_comm]
        simp [hempty]
      rw [if_neg hempty]
      split <;> rw [ih, hcons, or_assoc]

/-- The other submitters that are collected. -/
structure Submitters (processorID : String) (inFlight : List (String × String))
    (before after : List String) : Prop where
  nodup : after.Nodup
  foreign : processorID ∉ after
  mem : ∀ x, x ∈ after ↔ x ∈ before ∨ (x ≠ processorID ∧ x ≠ "" ∧ ∃ p ∈ inFlight, p.2 = x)

theorem recoveryLoop_submitters {self : String} {inFlight : List (String × String)}
    (recovering : List String) {submitters : List String} (hnodup : submitters.Nodup)
    (hself : self ∉ submitters) :
    Submitters self inFlight submitters (recoveryLoop self inFlight recovering submitters).2 := by
  induction inFlight generalizing recovering submitters with
  | nil => exact ⟨hnodup, hself, by simp [recoveryLoop]⟩
  | cons p inFlight ih =>
    obtain ⟨requestID, submitter⟩ := p
    rw [recoveryLoop]
    by_cases hempty : submitter = ""
    · rw [if_pos hempty]
      have h := ih recovering hnodup hself
      refine ⟨h.nodup, h.foreign, fun x => ?_⟩
      rw [h.mem, List.exists_mem_cons_iff]
      constructor
      · exact fun h => h.imp_right fun ⟨h₁, h₂, h₃⟩ => ⟨h₁, h₂, .inr h₃⟩
      · exact fun h => h.imp_right fun ⟨h₁, h₂, h₃⟩ =>
          ⟨h₁, h₂, h₃.resolve_left fun he => h₂ (he.symm.trans hempty)⟩
    · rw [if_neg hempty]
      by_cases hknown : submitter = self ∨ submitter ∈ submitters
      · rw [if_pos hknown]
        have h := ih (requestID :: recovering) hnodup hself
        refine ⟨h.nodup, h.foreign, fun x => ?_⟩
        rw [h.mem, List.exists_mem_cons_iff]
        constructor
        · exact fun h => h.imp_right fun ⟨h₁, h₂, h₃⟩ => ⟨h₁, h₂, .inr h₃⟩
        · rintro (h | ⟨h₁, h₂, rfl | h₃⟩)
          · exact .inl h
          · exact .inl (hknown.resolve_left h₁)
          · exact .inr ⟨h₁, h₂, h₃⟩
      · rw [if_neg hknown]
        obtain ⟨hother, hnew⟩ := not_or.1 hknown
        have hnodup' : (submitters ++ [submitter]).Nodup :=
          List.nodup_append'.2 ⟨hnodup, List.nodup_singleton _, by simpa using hnew⟩
        have hself' : self ∉ submitters ++ [submitter] := by
          simp [hself, Ne.symm hother]
        have h := ih (requestID :: recovering) hnodup' hself'
        refine ⟨h.nodup, h.foreign, fun x => ?_⟩
        rw [h.mem, List.exists_mem_cons_iff, List.mem_append, List.mem_singleton]
        constructor
        · rintro ((h | rfl) | ⟨h₁, h₂, h₃⟩)
          · exact .inl h
          · exact .inr ⟨hother, hempty, .inl rfl⟩
          · exact .inr ⟨h₁, h₂, .inr h₃⟩
        · rintro (h | ⟨h₁, h₂, rfl | h₃⟩)
          · exact .inl (.inl h)
          · exact .inl (.inr rfl)
          · exact .inr ⟨h₁, h₂, h₃⟩

/-! ### The source -/

namespace PlanFileSource

variable (s : PlanFileSource) (lib : Stdlib) (codec : Codec) (uuid : PlanEntry → String)
  (files : JobFiles)

/-- The loop of `Produce` over the plan files: what is sent, what is held back, and the error that
ended it. -/
def produceModels : List (String × String) → List RequestItem × List RequestItem × Option Err
  | [] => ([], [], none)
  | (safeModelID, modelID) :: rest =>
    match files.readPlanEntries safeModelID with
    | .error e => ([], [], some (e.wrap ("read plan for model " ++ modelID)))
    | .ok entries =>
      match s.produceLoop lib codec uuid (entries.map (modelID, ·)) with
      | (sent, held, some e) => (sent, held, some e)
      | (sent, held, none) =>
        let (sent', held', err) := produceModels rest
        (sent ++ sent', held ++ held', err)

/-- Everything that `Produce` sends, in order. The order of the plan files is the one of a map. -/
def produceFiles (order : List (String × String)) : List RequestItem × Option Err :=
  match s.produceModels lib codec uuid files order with
  | (sent, held, none) => (sent ++ held, none)
  | (sent, _, some e) => (sent, some e)

/-- The loop of `PreStoreRecovering` over one plan file. -/
def preStoreLoop (modelID : String) : List PlanEntry → Except Err (List RequestItem)
  | [] => .ok []
  | entry :: rest =>
    match s.readEntry lib codec uuid entry modelID with
    | .error e => .error e
    | .ok item => (preStoreLoop modelID rest).map fun items =>
        if s.recovering item.requestID then item :: items else items

def preStoreModels : List (String × String) → Except Err (List RequestItem)
  | [] => .ok []
  | (safeModelID, modelID) :: rest =>
    match files.readPlanEntries safeModelID with
    | .error e => .error (e.wrap ("read plan for model " ++ modelID))
    | .ok entries =>
      match s.preStoreLoop lib codec uuid modelID entries with
      | .error e => .error e
      | .ok items => (preStoreModels rest).map (items ++ ·)

/-- The requests that are stored as pending before the execution starts, in order. -/
def preStoreRecovering (recovering : List String) (order : List (String × String)) :
    Except Err (List RequestItem) :=
  if recovering = [] then .ok [] else s.preStoreModels lib codec uuid files order

/-- The source of a resumed execution. -/
def resumed (files : JobFiles) (jobID tenantID : String) (byTenant : Bool)
    (seed : ResumableResumeState) (recovering : List String) : PlanFileSource where
  batchID := jobID
  tenantID := tenantID
  byTenant := byTenant
  inputFile := files.input
  skip requestID := requestID ∈ seed.terminalRequestIDs
  recovering requestID := requestID ∈ recovering

variable {s lib codec uuid files}

/-- These are the requests of a plan file. -/
def Reads (s : PlanFileSource) (lib : Stdlib) (codec : Codec) (uuid : PlanEntry → String)
    (files : JobFiles) (p : String × String) (items : List RequestItem) : Prop :=
  ∃ es, files.readPlanEntries p.1 = .ok es ∧
    List.Forall₂ (fun e item => s.readEntry lib codec uuid e p.2 = .ok item) es items

/-- The request is sent at once. -/
def sends (s : PlanFileSource) (item : RequestItem) : Bool :=
  !s.skip item.requestID && !s.recovering item.requestID

/-- The request is held back. -/
def holds (s : PlanFileSource) (item : RequestItem) : Bool :=
  !s.skip item.requestID && s.recovering item.requestID

theorem produceLoop_reads {modelID : String} {es : List PlanEntry} {items : List RequestItem}
    (h : List.Forall₂ (fun e item => s.readEntry lib codec uuid e modelID = .ok item) es items) :
    s.produceLoop lib codec uuid (es.map (modelID, ·)) =
      (items.filter s.sends, items.filter s.holds, none) := by
  induction h with
  | nil => rfl
  | @cons e item es items hread _ ih =>
    rw [List.map_cons, produceLoop, hread, List.filter_cons, List.filter_cons]
    dsimp only
    rw [ih]
    cases hskip : s.skip item.requestID <;> cases hrec : s.recovering item.requestID <;>
      simp [sends, holds, hskip, hrec]

theorem produceModels_reads {order : List (String × String)} {items : List (List RequestItem)}
    (h : List.Forall₂ (s.Reads lib codec uuid files) order items) :
    s.produceModels lib codec uuid files order =
      (items.flatten.filter s.sends, items.flatten.filter s.holds, none) := by
  induction h with
  | nil => rfl
  | cons hread _ ih =>
    obtain ⟨es, hes, hitems⟩ := hread
    rw [produceModels, hes]
    dsimp only
    rw [produceLoop_reads hitems, ih, List.flatten_cons, List.filter_append, List.filter_append]

theorem preStoreLoop_reads {modelID : String} {es : List PlanEntry} {items : List RequestItem}
    (h : List.Forall₂ (fun e item => s.readEntry lib codec uuid e modelID = .ok item) es items) :
    s.preStoreLoop lib codec uuid modelID es =
      .ok (items.filter fun item => s.recovering item.requestID) := by
  induction h with
  | nil => rfl
  | @cons e item es items hread _ ih =>
    rw [preStoreLoop, hread]
    dsimp only
    rw [ih, List.filter_cons]
    rfl

theorem preStoreModels_reads {order : List (String × String)} {items : List (List RequestItem)}
    (h : List.Forall₂ (s.Reads lib codec uuid files) order items) :
    s.preStoreModels lib codec uuid files order =
      .ok (items.flatten.filter fun item => s.recovering item.requestID) := by
  induction h with
  | nil => rfl
  | cons hread _ ih =>
    obtain ⟨es, hes, hitems⟩ := hread
    rw [preStoreModels, hes]
    dsimp only
    rw [preStoreLoop_reads hitems, ih, List.flatten_cons, List.filter_append]
    rfl

end PlanFileSource

/-! ### What the entries say -/

/-- The entry is in flight, and its submitter is known. -/
def EntryRow.recoverable (e : EntryRow) : Bool :=
  e.status = .inFlight && e.submittedBy.any (· ≠ "")

/-- A choice among the requests of the accepted lines that the entries decide. -/
theorem filter_accepted {rows : List EntryRow} {ms : List ManifestEntry} {P : String → Bool}
    {Q : EntryRow → Bool} (h : List.Forall₂ EntryRow.Matches rows ms)
    (hP : ∀ e ∈ rows, P e.requestID = Q e) (hQ : ∀ e ∈ rows, Q e = true → e.status ≠ .failed) :
    ((ms.filter (!·.rejected)).map ManifestEntry.requestID).filter P =
      (rows.filter Q).map EntryRow.requestID := by
  induction h with
  | nil => rfl
  | @cons e m rows ms hm _ ih =>
    obtain ⟨hid, -, -, hrej⟩ := hm
    have hrest := ih (fun x hx => hP x (List.mem_cons_of_mem _ hx))
      fun x hx => hQ x (List.mem_cons_of_mem _ hx)
    have hPQ := hP e List.mem_cons_self
    rw [hid] at hPQ
    by_cases hq : Q e = true
    · have haccepted : m.rejected = false := by
        rw [← Bool.not_eq_true, hrej]
        exact fun hf => hQ e List.mem_cons_self hq hf.1
      simp [haccepted, hPQ, hq, hrest, hid]
    · by_cases hr : m.rejected = true
      · simp [hr, hq, hrest]
      · simp [hr, hPQ, hq, hrest]

theorem accepted_requestIDs {lib : Stdlib} {cfg : IngestConfig} {jobID : String}
    {lines : List InputLine} {ms : List ManifestEntry}
    (h : List.Forall₂ (fun l m => m.customID = l.info.customID ∧
      m.requestID = lib.stableBatchRequestID jobID l.info.customID ∧
      m.rejected = !cfg.registered l.info.modelID) lines ms) :
    (acceptedLines cfg lines).map (fun l => lib.stableBatchRequestID jobID l.info.customID) =
      (ms.filter (!·.rejected)).map ManifestEntry.requestID := by
  induction h with
  | nil => rfl
  | @cons l m lines ms hm _ ih =>
    obtain ⟨-, hid, hrej⟩ := hm
    unfold acceptedLines at ih ⊢
    rw [List.filter_cons, List.filter_cons, hrej, Bool.not_not]
    split
    · rw [List.map_cons, List.map_cons, ih, hid]
    · exact ih

namespace ResumableResumeState

variable {rows : List EntryRow}

theorem skips_iff (hkey : (rows.map EntryRow.requestID).Nodup) {e : EntryRow} (he : e ∈ rows) :
    e.requestID ∈ (ofEntries rows).terminalRequestIDs ↔ e.status.isTerminal = true := by
  rw [mem_terminalRequestIDs]
  constructor
  · rintro ⟨e', he', hid, ht⟩
    rwa [List.inj_on_of_nodup_map hkey he' he hid] at ht
  · exact fun ht => ⟨e, he, rfl, ht⟩

theorem recovers_iff (hkey : (rows.map EntryRow.requestID).Nodup) {e : EntryRow} (he : e ∈ rows) :
    (∃ p ∈ (ofEntries rows).inFlightSubmittedBy, p.1 = e.requestID ∧ p.2 ≠ "") ↔
      e.recoverable = true := by
  constructor
  · rintro ⟨p, hp, hid, hne⟩
    obtain ⟨e', he', hs, hb, -, hid'⟩ := mem_inFlightSubmittedBy.1 hp
    obtain rfl := List.inj_on_of_nodup_map hkey he' he (hid'.trans hid)
    simp [EntryRow.recoverable, hs, hb, hne]
  · intro hr
    simp only [EntryRow.recoverable, Bool.and_eq_true, decide_eq_true_eq, Option.any_eq_true] at hr
    obtain ⟨hs, submitter, hb, hne⟩ := hr
    exact ⟨(e.requestID, submitter), mem_inFlightSubmittedBy.2 ⟨e, he, hs, hb, hne, rfl⟩, rfl, hne⟩

theorem submitter_iff {x : String} :
    (x ≠ "" ∧ ∃ p ∈ (ofEntries rows).inFlightSubmittedBy, p.2 = x) ↔
      ∃ e ∈ rows, e.recoverable = true ∧ e.submittedBy = some x := by
  constructor
  · rintro ⟨hne, p, hp, rfl⟩
    obtain ⟨e, he, hs, hb, -, -⟩ := mem_inFlightSubmittedBy.1 hp
    exact ⟨e, he, by simp [EntryRow.recoverable, hs, hb, hne], hb⟩
  · rintro ⟨e, he, hr, hb⟩
    simp only [EntryRow.recoverable, hb, Bool.and_eq_true, decide_eq_true_eq, Option.any_some] at hr
    exact ⟨hr.2, (e.requestID, x), mem_inFlightSubmittedBy.2 ⟨e, he, hr.1, hb, hr.2, rfl⟩, rfl⟩

end ResumableResumeState

/-! ### What is read -/

/-- The line is read back as a request. -/
def Parses (codec : Codec) (line : Bytes) : Prop :=
  ∃ req, codec.unmarshal (codec.decodeStruct (requestFields codec)) {} "Request"
    (trimNewline line) = .ok req

section Reading

variable {lib : Stdlib} {codec : Codec} {cfg : IngestConfig} {s : PlanFileSource}
  {u : PlanEntry → String} {files : JobFiles} {lines : List InputLine}
  {manifest : RequestManifest}

theorem readLine_requestID {line : Bytes} {info : LineMeta} (random modelID : String)
    (hid : s.batchID ≠ "") (hinfo : extractAndValidateLine lib codec cfg line = .ok info)
    (hparse : Parses codec line) : (s.readLine lib codec random line modelID).requestID =
      lib.stableBatchRequestID s.batchID info.customID := by
  rcases s.readLine_cases random modelID hinfo with ⟨-, herr, -⟩ | ⟨-, -, -, hrequest, -⟩
  · obtain ⟨req, hreq⟩ := hparse
    exact absurd (by rw [PlanFileSource.readLine, hreq]) herr
  · exact hrequest hid

/-- The requests of a plan file are those of its model's lines. -/
theorem JobFiles.Partitions.reads (h : files.Partitions lib codec cfg s.batchID lines manifest)
    (hid : s.batchID ≠ "") (hfile : s.inputFile = files.input)
    (hparse : ∀ l ∈ acceptedLines cfg lines, Parses codec l.bytes) {p : String × String}
    (hp : p ∈ files.modelMap.safeToModel) :
    ∃ items, s.Reads lib codec u files p items ∧ (items.map RequestItem.requestID).Perm
      (((acceptedLines cfg lines).filter (·.info.modelID = p.2)).map fun l =>
        lib.stableBatchRequestID s.batchID l.info.customID) := by
  obtain ⟨es, ls, hes, -, hperm, hfor⟩ := h.plan p hp
  have hlines : ∀ l ∈ ls, l ∈ acceptedLines cfg lines :=
    fun l hl => List.mem_of_mem_filter (hperm.mem_iff.1 hl)
  have hitems : ∃ items, List.Forall₂ (fun e item => s.readEntry lib codec u e p.2 = .ok item)
      es items ∧ items.map RequestItem.requestID =
        ls.map fun l => lib.stableBatchRequestID s.batchID l.info.customID := by
    clear hes hperm
    induction hfor with
    | nil => exact ⟨[], .nil, rfl⟩
    | @cons e l es ls hread _ ih =>
      obtain ⟨items, hfor, hids⟩ := ih fun x hx => hlines x (List.mem_cons_of_mem _ hx)
      have hl := hlines l List.mem_cons_self
      have hrequest := readLine_requestID (s := s) (u e) p.2 hid
        (h.validated l (List.mem_of_mem_filter hl)) (hparse l hl)
      refine ⟨s.readLine lib codec (u e) l.bytes p.2 :: items, .cons ?_ hfor, ?_⟩
      · rw [PlanFileSource.readEntry, hfile, hread.2]
      · rw [List.map_cons, List.map_cons, hids, hrequest]
  obtain ⟨items, hfor, hids⟩ := hitems
  refine ⟨items, ⟨es, hes, hfor⟩, ?_⟩
  rw [hids]
  exact hperm.map _

theorem exists_forall₂ {α β : Type} {R : α → β → Prop} {l : List α} (h : ∀ a ∈ l, ∃ b, R a b) :
    ∃ l', List.Forall₂ R l l' := by
  induction l with
  | nil => exact ⟨[], .nil⟩
  | cons a l ih =>
    obtain ⟨b, hb⟩ := h a List.mem_cons_self
    obtain ⟨l', hl'⟩ := ih fun x hx => h x (List.mem_cons_of_mem _ hx)
    exact ⟨b :: l', .cons hb hl'⟩

/-- The plan files are read in any order as the requests of all accepted lines. -/
theorem JobFiles.Partitions.reads_all (h : files.Partitions lib codec cfg s.batchID lines manifest)
    (hid : s.batchID ≠ "") (hfile : s.inputFile = files.input)
    (hparse : ∀ l ∈ acceptedLines cfg lines, Parses codec l.bytes) {order : List (String × String)}
    (horder : order.Perm files.modelMap.safeToModel) :
    ∃ items, List.Forall₂ (s.Reads lib codec u files) order items ∧
      (items.flatten.map RequestItem.requestID).Perm
        ((manifest.entries.filter (!·.rejected)).map ManifestEntry.requestID) := by
  obtain ⟨items, hitems⟩ := exists_forall₂ fun p (hp : p ∈ order) =>
    h.reads (u := u) hid hfile hparse (horder.mem_iff.1 hp)
  have hgroups : (items.flatten.map RequestItem.requestID).Perm
      (((order.map Prod.snd).flatMap fun k =>
        (acceptedLines cfg lines).filter (·.info.modelID = k)).map
          fun l => lib.stableBatchRequestID s.batchID l.info.customID) := by
    clear horder
    induction hitems with
    | nil => rfl
    | cons hread _ ih =>
      rw [List.flatten_cons, List.map_append, List.map_cons, List.flatMap_cons, List.map_append]
      exact hread.2.append ih
  refine ⟨items, hitems.imp fun _ _ h => h.1, hgroups.trans ?_⟩
  rw [← accepted_requestIDs h.manifest]
  have hmodels := (horder.map Prod.snd).nodup_iff.2 h.models
  have hcovered : ∀ l ∈ acceptedLines cfg lines, l.info.modelID ∈ order.map Prod.snd :=
    fun l hl => (horder.map Prod.snd).mem_iff.2 (h.covered l hl)
  exact (perm_flatMap_filter _ hmodels hcovered).map _

end Reading

/-! ### The partition -/

/-- How a resumed execution divides the entries. -/
structure ResumePartition (entries : List EntryRow) (processorID : String) (canRecover : Bool)
    (plan : List String × List String) (emitted stored : List RequestItem) : Prop where
  unfinished : (emitted.map RequestItem.requestID).Perm
    ((entries.filter (!·.status.isTerminal)).map EntryRow.requestID)
  once : (emitted.map RequestItem.requestID).Nodup
  /-- Requests that are being recovered come last. -/
  deferred : ∃ early late, emitted = early ++ late ∧ (∀ m ∈ early, m.requestID ∉ plan.1) ∧
    ∀ m ∈ late, m.requestID ∈ plan.1
  recovering : (stored.map RequestItem.requestID).Perm
    (if canRecover then (entries.filter EntryRow.recoverable).map EntryRow.requestID else [])
  submitters : plan.2.Nodup
  foreign : processorID ∉ plan.2
  mem_submitters : ∀ x, x ∈ plan.2 ↔ canRecover = true ∧ x ≠ processorID ∧
    ∃ e ∈ entries, e.recoverable = true ∧ e.submittedBy = some x

theorem recoveryPlan_eq (seed : ResumableResumeState) (self : String) (canRecover : Bool) :
    recoveryPlan (some seed) self canRecover =
      if canRecover then recoveryLoop self seed.inFlightSubmittedBy [] [] else ([], []) := by
  cases canRecover with
  | false => rfl
  | true =>
    cases hseed : seed.inFlightSubmittedBy with
    | nil => simp [recoveryPlan, hseed, recoveryLoop]
    | cons p rest => simp [recoveryPlan, hseed]

theorem recoveryPlan_recovering {seed : ResumableResumeState} {self : String} {canRecover : Bool}
    {q : String} : q ∈ (recoveryPlan (some seed) self canRecover).1 ↔
      canRecover = true ∧ ∃ p ∈ seed.inFlightSubmittedBy, p.1 = q ∧ p.2 ≠ "" := by
  rw [recoveryPlan_eq]
  cases canRecover with
  | false => simp
  | true => simp [mem_recovering]

theorem recoveryPlan_submitters (seed : ResumableResumeState) (self : String) (canRecover : Bool) :
    Submitters self (if canRecover then seed.inFlightSubmittedBy else []) []
      (recoveryPlan (some seed) self canRecover).2 := by
  rw [recoveryPlan_eq]
  cases canRecover with
  | false => exact ⟨List.nodup_nil, List.not_mem_nil, by simp⟩
  | true => exact recoveryLoop_submitters [] List.nodup_nil List.not_mem_nil

/-- What is sent and what is held back is everything that is not skipped. -/
theorem PlanFileSource.sends_holds_perm (s : PlanFileSource) (items : List RequestItem) :
    (items.filter s.sends ++ items.filter s.holds).Perm
      (items.filter fun m => !s.skip m.requestID) := by
  have hsends : items.filter s.sends =
      (items.filter fun m => !s.skip m.requestID).filter fun m => !s.recovering m.requestID := by
    rw [List.filter_filter]
    exact List.filter_congr fun m _ => Bool.and_comm ..
  have hholds : items.filter s.holds =
      (items.filter fun m => !s.skip m.requestID).filter fun m => !!s.recovering m.requestID := by
    rw [List.filter_filter]
    exact List.filter_congr fun m _ => by rw [PlanFileSource.holds, Bool.and_comm, Bool.not_not]
  rw [hsends, hholds]
  exact List.filter_append_perm ..

/-- The entries decide which of the requests of the accepted lines are chosen. -/
theorem chosen_perm {items : List RequestItem} {manifest : RequestManifest} {rows : List EntryRow}
    {P : String → Bool} {Q : EntryRow → Bool}
    (hids : (items.map RequestItem.requestID).Perm
      ((manifest.entries.filter (!·.rejected)).map ManifestEntry.requestID))
    (hmatch : List.Forall₂ EntryRow.Matches rows manifest.entries)
    (hP : ∀ e ∈ rows, P e.requestID = Q e) (hQ : ∀ e ∈ rows, Q e = true → e.status ≠ .failed) :
    ((items.filter fun m => P m.requestID).map RequestItem.requestID).Perm
      ((rows.filter Q).map EntryRow.requestID) := by
  rw [← filter_accepted hmatch hP hQ]
  have hmap : (items.filter fun m => P m.requestID).map RequestItem.requestID =
      (items.map RequestItem.requestID).filter P := by
    rw [List.filter_map]
    rfl
  rw [hmap]
  exact hids.filter _

/-- A resumed execution divides the entries of its batch: the source emits every accepted entry
without a result once, those that are being recovered last; exactly these are pre-stored, and their
other submitters are known. -/
theorem resume_partition (lib : Stdlib) (codec : Codec) (cfg : IngestConfig) (jobID : String)
    (lines : List InputLine) (manifest : RequestManifest) (files : JobFiles)
    (hplans : files.Partitions lib codec cfg jobID lines manifest) (hjob : jobID ≠ "")
    (hparse : ∀ l ∈ acceptedLines cfg lines, Parses codec l.bytes)
    (w w' : World) (hw : w.Numbered) (hid : w.batch.row.id = jobID) (pages : Nat)
    (seed : ResumableResumeState)
    (hseed : w.Executes (resumeState jobID manifest pages) w' (.ok seed))
    (inFlight : List (String × String)) (hmap : inFlight.Perm seed.inFlightSubmittedBy)
    (self tenantID : String) (byTenant canRecover : Bool) (uuid : PlanEntry → String)
    (order order' : List (String × String)) (horder : order.Perm files.modelMap.safeToModel)
    (horder' : order'.Perm files.modelMap.safeToModel) :
    let plan := recoveryPlan (some { seed with inFlightSubmittedBy := inFlight }) self canRecover
    let source := PlanFileSource.resumed files jobID tenantID byTenant seed plan.1
    ∃ emitted stored, source.produceFiles lib codec uuid files order = (emitted, none) ∧
      source.preStoreRecovering lib codec uuid files plan.1 order' = .ok stored ∧
      ResumePartition w.batch.entries.rows self canRecover plan emitted stored := by
  intro plan source
  obtain ⟨rfl, hmatch⟩ := resumeState_runs hw hseed
  have hrows := World.listing_perm hw hid
  have hkey : ((w.listing jobID).map EntryRow.requestID).Nodup :=
    (hrows.map _).nodup_iff.2 w.batch.entries.primaryKey
  -- the three places agree on every entry
  have hskip : ∀ e ∈ w.listing jobID, (!source.skip e.requestID) = !e.status.isTerminal := by
    intro e he
    have := ResumableResumeState.skips_iff hkey he
    cases ht : e.status.isTerminal <;>
      simp [source, PlanFileSource.resumed, this, ht]
  have hplan : ∀ q, source.recovering q = true ↔ q ∈ plan.1 := by
    intro q
    simp [source, PlanFileSource.resumed]
  have hrecover : ∀ e ∈ w.listing jobID,
      source.recovering e.requestID = (canRecover && e.recoverable) := by
    intro e he
    have hiff : e.requestID ∈ plan.1 ↔ canRecover = true ∧ e.recoverable = true := by
      rw [recoveryPlan_recovering, ← ResumableResumeState.recovers_iff hkey he]
      simp only [hmap.mem_iff]
    rw [← hplan] at hiff
    rw [Bool.eq_iff_iff, hiff, Bool.and_eq_true]
  obtain ⟨items, hreads, hids⟩ := hplans.reads_all (s := source) (u := uuid) hjob rfl hparse horder
  obtain ⟨items', hreads', hids'⟩ :=
    hplans.reads_all (s := source) (u := uuid) hjob rfl hparse horder'
  have hopen : ((items.flatten.filter fun m => !source.skip m.requestID).map
      RequestItem.requestID).Perm
        ((w.batch.entries.rows.filter (!·.status.isTerminal)).map EntryRow.requestID) := by
    apply (chosen_perm (P := fun q => !source.skip q) hids hmatch hskip ?_).trans
    · exact (hrows.filter _).map _
    · intro e _ he hf
      simp [hf, EntryStatus.isTerminal] at he
  have hemitted := ((source.sends_holds_perm items.flatten).map RequestItem.requestID).trans hopen
  have hstored : ((items'.flatten.filter fun m => source.recovering m.requestID).map
      RequestItem.requestID).Perm (if canRecover then
        (w.batch.entries.rows.filter EntryRow.recoverable).map EntryRow.requestID else []) := by
    apply (chosen_perm hids' hmatch hrecover ?_).trans
    · cases canRecover with
      | false => simp
      | true => exact (hrows.filter _).map _
    · intro e _ he hf
      simp [hf, EntryRow.recoverable] at he
  refine ⟨_, items'.flatten.filter fun m => source.recovering m.requestID, ?_, ?_,
    { unfinished := hemitted
      once := ?_
      deferred := ⟨_, _, rfl, fun m hm => ?_, fun m hm => ?_⟩
      recovering := hstored
      submitters := ?_
      foreign := ?_
      mem_submitters := fun x => ?_ }⟩
  · rw [PlanFileSource.produceFiles, PlanFileSource.produceModels_reads hreads]
  · unfold PlanFileSource.preStoreRecovering
    split
    next hnone =>
      have hempty : (items'.flatten.filter fun m => source.recovering m.requestID) = [] := by
        apply List.filter_eq_nil_iff.2
        intro m _ hm
        rw [hplan, hnone] at hm
        cases hm
      rw [hempty]
    · exact PlanFileSource.preStoreModels_reads hreads'
  · apply hemitted.nodup_iff.2
    exact w.batch.entries.primaryKey.sublist (List.filter_sublist.map _)
  · have hsend := (List.mem_filter.1 hm).2
    simp only [PlanFileSource.sends, Bool.and_eq_true, Bool.not_eq_true'] at hsend
    rw [← hplan, hsend.2]
    exact Bool.false_ne_true
  · have hhold := (List.mem_filter.1 hm).2
    simp only [PlanFileSource.holds, Bool.and_eq_true] at hhold
    exact (hplan _).1 hhold.2
  · exact (recoveryPlan_submitters ..).nodup
  · exact (recoveryPlan_submitters ..).foreign
  · rw [(recoveryPlan_submitters ..).mem]
    cases canRecover with
    | false => simp
    | true =>
      simp only [if_true, List.not_mem_nil, false_or, true_and, hmap.mem_iff,
        ResumableResumeState.submitter_iff, hrows.mem_iff]

def mixedRow (ordinal : Int) (customID : String) (status : EntryStatus)
    (submittedBy : Option String) : EntryRow where
  requestID := Stdlib.injective.stableBatchRequestID "batch_1" customID
  ordinal := ordinal
  customID := customID
  status := status
  attempts := if submittedBy.isSome then 1 else 0
  submittedBy := submittedBy
  createdAt := 0
  updatedAt := 0

/-- The first entry was submitted by `q` and has no result, the second has one, the third is of a
rejected line and the fourth is pending. -/
def mixedWorld : World where
  batch := ⟨{ id := "batch_1", status := { status := .inProgress } },
    ⟨[mixedRow 0 "a" .inFlight (some "q"), mixedRow 1 "b" .completed (some "q"),
      mixedRow 2 "c" .failed none, mixedRow 3 "d" .pending none], by decide +kernel⟩⟩

theorem mixedWorld_numbered : mixedWorld.Numbered :=
  ⟨by decide +kernel, by decide +kernel⟩

/-- The resume state of the batch. -/
theorem mixedWorld_seed :
    mixedWorld.Executes (resumeState "batch_1" mixedFiles.1 1) mixedWorld
      (.ok (.ofEntries mixedWorld.batch.entries.rows)) := by
  have hlist : mixedWorld.Executes (listResumableEntries "batch_1" 1 (-1)) mixedWorld
      (.ok mixedWorld.batch.entries.rows) :=
    Prog.runs_lift_bind.2 ⟨_, .ok mixedWorld.batch.entries.rows, ⟨{}, rfl⟩, .ret ..⟩
  have hcheck : checkManifestIntegrity mixedFiles.1 mixedWorld.batch.entries.rows = .ok () := by
    decide +kernel
  apply Prog.runs_bind.2 ⟨_, _, hlist, ?_⟩
  dsimp only
  rw [hcheck]
  exact .ret ..

theorem parses_mixed {line : Bytes} (h : line ∈ normalizedLines [] mixedInput) :
    Parses (requestsCodec mixedRequests) line := by
  let codec := requestsCodec mixedRequests
  have hall : ∀ line ∈ normalizedLines [] mixedInput,
      (codec.unmarshal (codec.decodeStruct (requestFields codec)) {} "Request"
        (trimNewline line)).toOption.isSome := by decide +kernel
  exact ⟨_, ok_of_isSome (hall line h) {}⟩

/-- `p` resumes the batch: it sends the fourth line, and the first one after waiting for the result
of `q`. -/
theorem mixedInput_resumed :
    let seed := ResumableResumeState.ofEntries mixedWorld.batch.entries.rows
    let plan := recoveryPlan (some seed) "p" true
    let source := PlanFileSource.resumed mixedFiles.2 "batch_1" "" false seed plan.1
    plan = ([Stdlib.injective.stableBatchRequestID "batch_1" "a"], ["q"]) ∧ ∃ emitted stored,
      source.produceFiles .injective (requestsCodec mixedRequests) (fun _ => "0") mixedFiles.2
        mixedFiles.2.modelMap.safeToModel = (emitted, none) ∧
      source.preStoreRecovering .injective (requestsCodec mixedRequests) (fun _ => "0")
        mixedFiles.2 plan.1 mixedFiles.2.modelMap.safeToModel = .ok stored ∧
      ResumePartition mixedWorld.batch.entries.rows "p" true plan emitted stored := by
  obtain ⟨infos, hall, h⟩ := preProcessFiles_partitions Function.injective_id
    preProcessFiles_mixed (by decide +kernel)
  refine ⟨by decide +kernel, resume_partition .injective (requestsCodec mixedRequests) mixedConfig
    "batch_1" _ _ _ h (by decide) (fun l hl => ?_) mixedWorld mixedWorld mixedWorld_numbered rfl 1 _
    mixedWorld_seed _ (.refl _) "p" "" false true (fun _ => "0") _ _ (.refl _) (.refl _)⟩
  have hbytes := List.mem_map_of_mem (f := InputLine.bytes) (List.mem_of_mem_filter hl)
  rw [map_bytes_inputLines, List.map_fst_zip hall.length_eq.le] at hbytes
  exact parses_mixed hbytes

end BatchGateway
