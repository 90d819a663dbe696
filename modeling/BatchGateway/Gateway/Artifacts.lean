import BatchGateway.Checkpoint.Durability
import BatchGateway.Gateway.Issues
import BatchGateway.Gateway.Rendering
import BatchGateway.Worker.Listing

/-! The artifacts of a batch: one line per entry in ordinal order, for a finalizer that runs alone. -/
namespace BatchGateway

open Interleaving Prog

/-! ### Lines -/

/-- The line carries an error object with a code. -/
def OutputLine.hasCode (line : OutputLine) : Bool := line.error.any (·.code ≠ "")

def ResultItem.outputLine (msg : ResultItem) : OutputLine :=
  ⟨msg.requestID, msg.customID, msg.response, msg.error⟩

/-- The synthetic line of an entry that was not executed. -/
def EntryRow.notExecuted (e : EntryRow) (code : BatchErrorCode) : OutputLine :=
  ⟨e.requestID, e.customID, none, some ⟨code.text, code.message⟩⟩

namespace Stdlib

variable (lib : Stdlib)

def lineBytes (line : OutputLine) : Bytes := lib.marshal line ++ newline

def fileOf (lines : List OutputLine) : Bytes := (lines.map lib.lineBytes).flatten

/-- The error object of a rejected line. -/
def rejectedLine (requestID : String) (line : RequestMeta) : OutputLine :=
  ⟨requestID, line.customID, none, some ⟨"model_not_found",
    "model " ++ lib.quote line.modelID ++ " is not configured in any gateway"⟩⟩

end Stdlib

/-- The line that an entry was committed with: by the checkpoint of a result, or by the activation
of a line that was rejected. -/
inductive CommittedWith (lib : Stdlib) (w : World) : EntryRow → OutputLine → Prop where
  | checkpoint (now : Time) (row : EntryRow) (msg : ResultItem) (key : String)
      (hrow : row.requestID = msg.requestID)
      (hobject : w.objects key = some (lib.resultLine msg)) :
      CommittedWith lib w (row.commit now { msg.entryResult (lib.sha256 (lib.resultLine msg))
        (lib.resultLine msg).length with resultKey := key }) msg.outputLine
  | activation (now : Time) (batchID requestID : String) (ordinal : Int) (line : RequestMeta)
      (hobject : w.objects (resumableResultKey batchID requestID) =
        some (lib.modelNotFoundLine requestID line)) :
      CommittedWith lib w (activationRow now (lib.rejectedEntry batchID ordinal line.customID
        requestID "model_not_found" (lib.modelNotFoundLine requestID line)).activationEntry)
        (lib.rejectedLine requestID line)

namespace CommittedWith

variable {lib : Stdlib} {w : World} {e : EntryRow} {line : OutputLine}

/-- The line is the object that the entry refers to. -/
theorem object (h : CommittedWith lib w e line) :
    w.objects (e.resultKey.getD "") = some (lib.lineBytes line) := by
  cases h with
  | checkpoint now row msg key _ hobject => exact (congrArg w.objects (orNull_getD key)).trans hobject
  | activation now batchID requestID ordinal line hobject =>
    exact (congrArg w.objects (orNull_getD (resumableResultKey batchID requestID))).trans hobject

/-- The line's error object decides about the artifact, provided it has a code. -/
theorem artifact (h : CommittedWith lib w e line) :
    e.artifact = if line.hasCode then .error else .output := by
  cases h with
  | checkpoint now row msg key =>
    unfold EntryRow.artifact EntryRow.commit ResultItem.entryResult
    dsimp only
    cases hsucceeded : msg.succeeded with
    | true =>
      have hnone : msg.error = none := by
        unfold ResultItem.succeeded at hsucceeded
        rw [Bool.and_eq_true, Option.isNone_iff_eq_none] at hsucceeded
        exact hsucceeded.1
      simp [OutputLine.hasCode, ResultItem.outputLine, hnone]
    | false =>
      simp only [Bool.false_eq_true, if_false, orNull_getD]
      unfold OutputLine.hasCode ResultItem.outputLine
      cases msg.error with
      | none => simp
      | some err => simp
  | activation => rfl

end CommittedWith

/-! ### Where committed lines come from -/

/-- The statement commits lines as a checkpoint or an activation does. -/
def Stmt.CommitsLines (lib : Stdlib) : Stmt → Prop
  | .checkpoint _ requestID _ _ result => ∃ msg : ResultItem, ∃ key, requestID = msg.requestID ∧
      result = { msg.entryResult (lib.sha256 (lib.resultLine msg)) (lib.resultLine msg).length with
        resultKey := key }
  | .activate a => ∀ x ∈ a.entries, x.entryStatus.isTerminal = true →
      ∃ (batchID requestID : String) (ordinal : Int) (line : RequestMeta),
        x = (lib.rejectedEntry batchID ordinal line.customID requestID "model_not_found"
          (lib.modelNotFoundLine requestID line)).activationEntry
  | _ => True

/-- The entry has what a checkpoint or an activation writes of a line. -/
def EntryRow.WrittenWith (lib : Stdlib) (e : EntryRow) (line : OutputLine) : Prop :=
  ∀ w : World, w.objects (e.resultKey.getD "") = some (lib.lineBytes line) →
    CommittedWith lib w e line

/-- The entry records the digest of its line. -/
def EntryRow.Sourced (lib : Stdlib) (e : EntryRow) : Prop :=
  ∃ line, e.WrittenWith lib line ∧ e.resultSHA256.getD "" = lib.sha256 (lib.lineBytes line)

section

variable {lib : Stdlib} {w w' : World}

theorem sourced_commit (lib : Stdlib) (now : Time) {row : EntryRow} {msg : ResultItem}
    (hrow : row.requestID = msg.requestID) (key : String) :
    (row.commit now { msg.entryResult (lib.sha256 (lib.resultLine msg))
      (lib.resultLine msg).length with resultKey := key }).Sourced lib := by
  refine ⟨msg.outputLine, fun w hw => ?_, orNull_getD _⟩
  refine .checkpoint now row msg key hrow ?_
  rw [← orNull_getD key]
  exact hw

theorem sourced_activation (lib : Stdlib) (now : Time) (batchID requestID : String) (ordinal : Int)
    (line : RequestMeta) : (activationRow now (lib.rejectedEntry batchID ordinal line.customID
      requestID "model_not_found" (lib.modelNotFoundLine requestID line)).activationEntry).Sourced
        lib := by
  refine ⟨lib.rejectedLine requestID line, fun w hw => ?_, orNull_getD _⟩
  refine .activation now batchID requestID ordinal line ?_
  rw [← orNull_getD (resumableResultKey batchID requestID)]
  exact hw

theorem sourced_perform {env : Env} {c : Call} {r : c.Resp}
    (hw : ∀ e ∈ w.batch.entries.rows, e.status.isTerminal = true → e.Sourced lib)
    (hc : ∀ st, c = .exec st → st.CommitsLines lib) (h : w.perform env c = some (w', r)) :
    ∀ e ∈ w'.batch.entries.rows, e.status.isTerminal = true → e.Sourced lib := by
  intro e he hterminal
  rcases World.batch_perform h with hbatch | ⟨st, b, rfl, -, hexec, rfl⟩
  · exact hw e (hbatch ▸ he) hterminal
  · have hlines := hc st rfl
    rcases Stmt.terminal_row_origin hexec he hterminal with hold | ⟨a, rfl, x, hx, rfl⟩ |
      ⟨id, q, p, epoch, result, row, rfl, -, hrow, rfl⟩
    · exact hw e hold hterminal
    · obtain ⟨batchID, requestID, ordinal, line, rfl⟩ := hlines x hx hterminal
      exact sourced_activation lib env.now batchID requestID ordinal line
    · obtain ⟨msg, key, rfl, rfl⟩ := hlines
      exact sourced_commit lib env.now hrow key

theorem activation_commitsLines {batchID : String} {registered : String → Bool}
    {lines : List RequestMeta} {manifest : RequestManifest} {x : ResumableActivationEntry}
    (h : lib.ingest batchID registered lines = .ok manifest) (hx : x ∈ manifest.activationEntries)
    (hterminal : x.entryStatus.isTerminal = true) :
    ∃ (batchID requestID : String) (ordinal : Int) (line : RequestMeta),
      x = (lib.rejectedEntry batchID ordinal line.customID requestID "model_not_found"
        (lib.modelNotFoundLine requestID line)).activationEntry := by
  obtain ⟨e, he, rfl⟩ := List.mem_map.1 hx
  obtain ⟨ordinal, line, rfl⟩ := Stdlib.ingest_entry h he
  unfold Stdlib.manifestEntry at hterminal ⊢
  dsimp only at hterminal ⊢
  split at hterminal
  · cases hterminal
  next hreg =>
    rw [if_neg hreg]
    exact ⟨batchID, _, ordinal, line, rfl⟩

theorem issues_commitsLines {α : Type} {P : Stmt → Prop} {m : Task α} (h : Issues P m)
    (hP : ∀ st, P st → st.CommitsLines lib) :
    m.Calls fun c => ∀ st, c = .exec st → st.CommitsLines lib := by
  refine Calls.mono h fun c hc st hst => ?_
  subst hst
  exact hP st hc

theorem code_commitsLines {op : StoreOp} (h : op.start w = some w') :
    (op.code lib).Calls fun c => ∀ st, c = .exec st → st.CommitsLines lib := by
  cases op with
  | checkpoint s msg =>
    refine issues_commitsLines (checkpointResult_commits s msg) fun st hst => ?_
    obtain ⟨key, rfl⟩ := hst
    exact ⟨msg, key, rfl, rfl⟩
  | mark batchID requestID processorID epoch =>
    refine issues_commitsLines (markEntryInFlight_issues ..) fun st hst => ?_
    subst hst
    exact trivial
  | activate s jobProcessorID leaseTTL registered lines =>
    unfold StoreOp.code
    dsimp only
    cases hingest : lib.ingest s.batchID registered lines with
    | error err => exact trivial
    | ok manifest =>
      refine Calls.bind (issues_commitsLines (activateResumable_issues s jobProcessorID leaseTTL
        (Stdlib.ingest_wellFormed hingest)) fun st hst => ?_) fun r => ?_
      · obtain ⟨rfl, -⟩ := hst
        exact fun x hx hterminal => activation_commitsLines hingest hx hterminal
      · cases r <;> exact trivial
  | stmt st =>
    have hother := (StoreOp.started h).other st rfl
    refine Calls.lift_bind (fun st' heq => ?_) fun r => ?_
    · obtain rfl := Call.exec.inj heq
      cases st <;> first | exact trivial | cases hother
    · cases r <;> exact trivial

/-- In every run of checkpoints and activations of any owners, every finished entry is committed
with the line that its object holds, as long as no two lines in question share a digest. -/
theorem committedWith_of_run (hlib : ∀ name, DotFree (lib.uuidSHA1 name)) {row : BatchRow}
    {ls : List (Label Env StoreOp)} {p : StorePool}
    (hp : exec (storeSystem lib).step ⟨{ w with batch := ⟨row, .empty⟩ }, []⟩ ls = some p)
    (hsha : ∀ key data line, p.world.objects key = some data →
      lib.sha256 data = lib.sha256 (lib.lineBytes line) → data = lib.lineBytes line)
    {e : EntryRow} (he : e ∈ p.world.batch.entries.rows) (hterminal : e.status.isTerminal = true) :
    ∃ line, CommittedWith lib p.world e line := by
  have hsourced := calls_exec (S := storeSystem lib)
    (I := fun w : World => ∀ e ∈ w.batch.entries.rows, e.status.isTerminal = true → e.Sourced lib)
    (P := fun c => ∀ st, c = .exec st → st.CommitsLines lib)
    (fun env op w w' hw hstart => ⟨(StoreOp.started hstart).batch ▸ hw, code_commitsLines hstart⟩)
    (fun env w c w' r hw hc hstep => sourced_perform hw hc hstep) hp
    (fun e he => absurd he List.not_mem_nil)
  obtain ⟨line, hwritten, hdigest⟩ := hsourced e he hterminal
  obtain ⟨key, hkey, data, hdata, -, hstored⟩ :=
    (durability_reachable hlib hp).inv.stored e he hterminal
  refine ⟨line, hwritten p.world ?_⟩
  rw [hkey, Option.getD_some, hdata, hsha key data line hdata (hstored.trans hdigest)]

end

/-! ### Reading results -/

variable {lib : Stdlib} {w w' : World} {code : Option BatchErrorCode} {jobID : String}

/-- What is read of an entry: the object of a finished one. -/
def World.resultOf (w : World) (e : EntryRow) : Bytes :=
  if e.status.isTerminal then (w.objects (e.resultKey.getD "")).getD [] else []

theorem fetchResult_runs {e : EntryRow} {data : Bytes}
    (h : w.Executes (lib.fetchResult e) w' (.ok data)) :
    w' = w ∧ w.objects (e.resultKey.getD "") = some data := by
  obtain ⟨u, r, ⟨env, hr⟩, h⟩ := runs_lift_bind.1 h
  cases hr
  generalize hread : w.retrieve env (e.resultKey.getD "") = r at h
  cases r with
  | error err => cases (runs_ret.1 h).2
  | ok found =>
    dsimp only at h
    split at h
    · cases (runs_ret.1 h).2
    · split at h
      · cases (runs_ret.1 h).2
      · obtain ⟨rfl, hdata⟩ := runs_ret.1 h
        cases hdata
        exact ⟨rfl, World.objects_of_retrieve hread⟩

theorem fetchPage_runs {es : List EntryRow} {fetched : List (EntryRow × Bytes)}
    (h : w.Executes (lib.fetchPage es) w' (.ok fetched)) :
    w' = w ∧ fetched = es.map fun e => (e, w.resultOf e) := by
  induction es generalizing fetched w' with
  | nil =>
    obtain ⟨rfl, hfetched⟩ := runs_ret.1 h
    cases hfetched
    exact ⟨rfl, rfl⟩
  | cons e es ih =>
    unfold Stdlib.fetchPage at h
    split at h
    next hterminal =>
      obtain ⟨u, r, hr, hk⟩ := runs_bind.1 h
      cases r with
      | error err => cases (runs_ret.1 hk).2
      | ok data =>
        obtain ⟨rfl, hobject⟩ := fetchResult_runs hr
        obtain ⟨v, rest, hrest, hk⟩ := runs_bind.1 hk
        cases rest with
        | error err => cases (runs_ret.1 hk).2
        | ok rest =>
          obtain ⟨rfl, rfl⟩ := ih hrest
          obtain ⟨rfl, hfetched⟩ := runs_ret.1 hk
          cases hfetched
          refine ⟨rfl, ?_⟩
          rw [List.map_cons, World.resultOf, if_pos hterminal, hobject, Option.getD_some]
    next hopen =>
      obtain ⟨v, rest, hrest, h⟩ := runs_bind.1 h
      cases rest with
      | error err => cases (runs_ret.1 h).2
      | ok rest =>
        obtain ⟨rfl, rfl⟩ := ih hrest
        obtain ⟨rfl, hfetched⟩ := runs_ret.1 h
        cases hfetched
        refine ⟨rfl, ?_⟩
        rw [List.map_cons, World.resultOf, if_neg hopen]

/-! ### Writing artifacts -/

/-- The writer of an artifact that does not exist, after some lines. -/
def Stdlib.writerAfter (lib : Stdlib) (jobID : String) (kind : ArtifactKind) (lines : List Bytes) :
    ArtifactWriter :=
  { lib.newArtifactWriter jobID kind.text with
    mode := if lines = [] then .closed else .writing
    content := lines.flatten }

theorem writeResult_runs {kind : ArtifactKind} {lines : List Bytes} {line : Bytes}
    {a : ArtifactWriter} (hnew : w.objects (artifactKey lib jobID kind) = none)
    (h : w.Executes ((lib.writerAfter jobID kind lines).writeResult line) w' (.ok a)) :
    w' = w ∧ a = lib.writerAfter jobID kind (lines ++ [line]) := by
  obtain ⟨u, r, hr, hk⟩ := runs_bind.1 h
  -- the stream is open afterwards
  have hopen : u = w ∧ ∀ b, r = .ok b →
      b = { lib.writerAfter jobID kind lines with mode := .writing } := by
    unfold ArtifactWriter.ensure at hr
    split at hr
    next hmode =>
      obtain ⟨rfl, rfl⟩ := runs_ret.1 hr
      refine ⟨rfl, ?_⟩
      rintro _ ⟨⟩
      by_cases hlines : lines = []
      · exact absurd (if_pos hlines) hmode
      · simp only [Stdlib.writerAfter, if_neg hlines]
    next =>
      obtain ⟨v, s, ⟨env, hs⟩, hr⟩ := runs_lift_bind.1 hr
      cases hs
      have hstream : w.openStream env (artifactKey lib jobID kind) = World.read env () := by
        unfold World.openStream
        rw [hnew]
      generalize hread : w.openStream env (lib.writerAfter jobID kind lines).key = s at hr
      have hs := hread.symm.trans hstream
      cases s with
      | ok done =>
        obtain ⟨rfl, rfl⟩ := runs_ret.1 hr
        exact ⟨rfl, fun b hb => (Except.ok.inj hb).symm⟩
      | error err =>
        have hplain : err = transient := by
          unfold World.read at hs
          split at hs
          · cases hs
          · exact Except.error.inj hs
        subst hplain
        obtain ⟨rfl, rfl⟩ := runs_ret.1 hr
        exact ⟨rfl, nofun⟩
  obtain ⟨rfl, hb⟩ := hopen
  cases r with
  | error err => cases (runs_ret.1 hk).2
  | ok b =>
    obtain rfl := hb b rfl
    obtain ⟨v, s, ⟨env, hs⟩, hk⟩ := runs_lift_bind.1 hk
    cases hs
    generalize World.read env () = s at hk
    cases s with
    | error err => cases (runs_ret.1 hk).2
    | ok done =>
      obtain ⟨rfl, ha⟩ := runs_ret.1 hk
      cases ha
      refine ⟨rfl, ?_⟩
      simp [Stdlib.writerAfter]

/-! ### The loop over the entries -/

/-- What an entry contributes: its stored line, or the synthetic one. -/
def Stdlib.contribution (lib : Stdlib) (w : World) (code : Option BatchErrorCode) (e : EntryRow) :
    Bytes :=
  match e.status.isTerminal, code with
  | false, some c => lib.notExecutedLine e c
  | _, _ => w.resultOf e

/-- The contributions to one artifact. -/
def Stdlib.contributions (lib : Stdlib) (w : World) (code : Option BatchErrorCode)
    (kind : ArtifactKind) (es : List EntryRow) : List Bytes :=
  (es.filter (·.artifact = kind)).map (lib.contribution w code)

/-- The state of the assembly after some entries. -/
structure AssembledSoFar (lib : Stdlib) (w : World) (jobID : String) (code : Option BatchErrorCode)
    (es : List EntryRow) (st : Assembly) : Prop where
  output : st.output = lib.writerAfter jobID .output (lib.contributions w code .output es)
  errorW : st.errorW = lib.writerAfter jobID .error (lib.contributions w code .error es)
  total : st.counts.total = es.length
  completed : st.counts.completed = es.countP (·.status = .completed)
  failed : st.counts.failed = es.countP (·.status ≠ .completed)
  finished : code = none → ∀ e ∈ es, e.status.isTerminal = true

theorem AssembledSoFar.counts_eq {es : List EntryRow} {st : Assembly}
    (hst : AssembledSoFar lib w jobID code es st) : st.counts =
      ⟨es.length, es.countP (·.status = .completed),
        es.length - es.countP (·.status = .completed)⟩ := by
  obtain ⟨-, -, htotal, hcompleted, hfailed, -⟩ := hst
  have hsplit : es.length = es.countP (·.status = .completed) +
      es.countP (·.status ≠ .completed) := by
    rw [List.length_eq_countP_add_countP (·.status = .completed)]
    simp only [decide_not, decide_eq_true_eq]
  cases hcounts : st.counts with
  | mk total completed failed =>
    rw [hcounts] at htotal hcompleted hfailed
    dsimp only at htotal hcompleted hfailed
    rw [htotal, hcompleted, hfailed]
    congr 1
    omega

theorem contributions_snoc (lib : Stdlib) (w : World) (code : Option BatchErrorCode)
    (kind : ArtifactKind) (es : List EntryRow) (e : EntryRow) :
    lib.contributions w code kind (es ++ [e]) = lib.contributions w code kind es ++
      if e.artifact = kind then [lib.contribution w code e] else [] := by
  unfold Stdlib.contributions
  rw [List.filter_append, List.map_append]
  by_cases hkind : e.artifact = kind <;> simp [hkind]

theorem contribution_of_terminal {e : EntryRow} (h : e.status.isTerminal = true) :
    lib.contribution w code e = w.resultOf e := by
  unfold Stdlib.contribution
  rw [h]

section

variable {es : List EntryRow} {st st' : Assembly} {e : EntryRow}

/-- One more entry, which goes to the output. -/
theorem AssembledSoFar.toOutput (hst : AssembledSoFar lib w jobID code es st)
    (hterminal : e.status.isTerminal = true) (hkind : e.artifact = .output)
    (hwriter : st'.output = lib.writerAfter jobID .output
      (lib.contributions w code .output es ++ [w.resultOf e]))
    (hother : st'.errorW = st.errorW) (htotal : st'.counts.total = st.counts.total + 1)
    (hcompleted : st'.counts.completed =
      st.counts.completed + if e.status = .completed then 1 else 0)
    (hfailed : st'.counts.failed = st.counts.failed + if e.status = .completed then 0 else 1) :
    AssembledSoFar lib w jobID code (es ++ [e]) st' := by
  refine ⟨?_, ?_, ?_, ?_, ?_, ?_⟩
  · rw [hwriter, contributions_snoc, if_pos hkind, contribution_of_terminal hterminal]
  · have hnot : e.artifact ≠ .error := by rw [hkind]; decide
    rw [hother, hst.errorW, contributions_snoc, if_neg hnot, List.append_nil]
  · rw [htotal, hst.total, List.length_append]
    rfl
  · rw [hcompleted, hst.completed, List.countP_append, List.countP_singleton]
    split <;> simp_all
  · rw [hfailed, hst.failed, List.countP_append, List.countP_singleton]
    split <;> simp_all
  · intro hcode x hx
    rcases List.mem_append.1 hx with hx | hx
    · exact hst.finished hcode x hx
    · rw [List.mem_singleton.1 hx]
      exact hterminal

/-- One more entry, which goes to the errors. -/
theorem AssembledSoFar.toErrors (hst : AssembledSoFar lib w jobID code es st)
    (hkind : e.artifact = .error) (hfinished : code = none → e.status.isTerminal = true)
    (hwriter : st'.errorW = lib.writerAfter jobID .error
      (lib.contributions w code .error es ++ [lib.contribution w code e]))
    (hother : st'.output = st.output) (htotal : st'.counts.total = st.counts.total + 1)
    (hcompleted : st'.counts.completed = st.counts.completed)
    (hfailed : st'.counts.failed = st.counts.failed + 1) :
    AssembledSoFar lib w jobID code (es ++ [e]) st' := by
  have hnot : e.status ≠ .completed := by
    intro hs
    unfold EntryRow.artifact at hkind
    rw [hs] at hkind
    cases hkind
  refine ⟨?_, ?_, ?_, ?_, ?_, ?_⟩
  · have hout : e.artifact ≠ .output := by rw [hkind]; decide
    rw [hother, hst.output, contributions_snoc, if_neg hout, List.append_nil]
  · rw [hwriter, contributions_snoc, if_pos hkind]
  · rw [htotal, hst.total, List.length_append]
    rfl
  · rw [hcompleted, hst.completed, List.countP_append, List.countP_singleton]
    simp [hnot]
  · rw [hfailed, hst.failed, List.countP_append, List.countP_singleton]
    simp [hnot]
  · intro hcode x hx
    rcases List.mem_append.1 hx with hx | hx
    · exact hst.finished hcode x hx
    · rw [List.mem_singleton.1 hx]
      exact hfinished hcode

variable
  (houtput : w.objects (artifactKey lib jobID .output) = none)
  (herror : w.objects (artifactKey lib jobID .error) = none)

include houtput herror

theorem assembleEntry_runs (hst : AssembledSoFar lib w jobID code es st)
    (h : w.Executes (lib.assembleEntry code st e (w.resultOf e)) w' (.ok st')) :
    w' = w ∧ AssembledSoFar lib w jobID code (es ++ [e]) st' := by
  unfold Stdlib.assembleEntry at h
  rw [hst.output, hst.errorW] at h
  cases hs : e.status
  case completed =>
    simp only [hs] at h
    obtain ⟨u, r, hr, hk⟩ := runs_bind.1 h
    cases r with
    | error err => cases (runs_ret.1 hk).2
    | ok output =>
      obtain ⟨rfl, rfl⟩ := writeResult_runs houtput hr
      obtain ⟨rfl, hst'⟩ := runs_ret.1 hk
      cases hst'
      refine ⟨rfl, hst.toOutput (by rw [hs]; rfl) ?_ rfl hst.errorW.symm rfl ?_ ?_⟩
      · rw [EntryRow.artifact, hs]
      · rw [hs]; rfl
      · rw [hs, if_pos rfl, add_zero]
  case failed =>
    simp only [hs] at h
    have hterminal : e.status.isTerminal = true := by rw [hs]; rfl
    split at h
    next hcode =>
      obtain ⟨u, r, hr, hk⟩ := runs_bind.1 h
      cases r with
      | error err => cases (runs_ret.1 hk).2
      | ok errorW =>
        obtain ⟨rfl, rfl⟩ := writeResult_runs herror hr
        obtain ⟨rfl, hst'⟩ := runs_ret.1 hk
        cases hst'
        refine ⟨rfl, hst.toErrors ?_ (fun _ => hterminal) ?_ hst.output.symm rfl rfl rfl⟩
        · rw [EntryRow.artifact, hs]
          exact if_pos hcode
        · rw [contribution_of_terminal hterminal]
    next hcode =>
      obtain ⟨u, r, hr, hk⟩ := runs_bind.1 h
      cases r with
      | error err => cases (runs_ret.1 hk).2
      | ok output =>
        obtain ⟨rfl, rfl⟩ := writeResult_runs houtput hr
        obtain ⟨rfl, hst'⟩ := runs_ret.1 hk
        cases hst'
        refine ⟨rfl, hst.toOutput hterminal ?_ rfl hst.errorW.symm rfl ?_ ?_⟩
        · rw [EntryRow.artifact, hs]
          exact if_neg hcode
        · rw [hs, if_neg (by decide), add_zero]
        · rw [hs, if_neg (by decide)]
  case pending | inFlight =>
    simp only [hs] at h
    have hopen : e.status.isTerminal = false := by rw [hs]; rfl
    cases code with
    | none => cases (runs_ret.1 h).2
    | some code =>
      obtain ⟨u, r, hr, hk⟩ := runs_bind.1 h
      cases r with
      | error err => cases (runs_ret.1 hk).2
      | ok errorW =>
        obtain ⟨rfl, rfl⟩ := writeResult_runs herror hr
        obtain ⟨rfl, hst'⟩ := runs_ret.1 hk
        cases hst'
        refine ⟨rfl, hst.toErrors (artifact_of_open hopen) nofun ?_ hst.output.symm rfl rfl rfl⟩
        have hline : lib.contribution w' (some code) e = lib.notExecutedLine e code := by
          unfold Stdlib.contribution
          rw [hopen]
        rw [hline]

theorem assemblePage_runs {page : List EntryRow} (hst : AssembledSoFar lib w jobID code es st)
    (h : w.Executes (lib.assemblePage code st (page.map fun e => (e, w.resultOf e))) w' (.ok st')) :
    w' = w ∧ AssembledSoFar lib w jobID code (es ++ page) st' := by
  induction page generalizing es st with
  | nil =>
    obtain ⟨rfl, hst'⟩ := runs_ret.1 h
    cases hst'
    rw [List.append_nil]
    exact ⟨rfl, hst⟩
  | cons e page ih =>
    obtain ⟨u, r, hr, hk⟩ := runs_bind.1 h
    cases r with
    | error err => cases (runs_ret.1 hk).2
    | ok st₁ =>
      obtain ⟨rfl, hst₁⟩ := assembleEntry_runs houtput herror hst hr
      obtain ⟨rfl, hst'⟩ := ih hst₁ hk
      rw [List.append_assoc] at hst'
      exact ⟨rfl, hst'⟩

theorem assemblePages_runs (hw : w.Numbered) {pages : Nat} {after : Int}
    (hst : AssembledSoFar lib w jobID code es st)
    (h : w.Executes (lib.assemblePages jobID code pages after st) w' (.ok st')) :
    w' = w ∧ AssembledSoFar lib w jobID code (es ++ w.entriesAfter jobID after) st' := by
  induction pages generalizing es st after with
  | zero => cases (runs_ret.1 h).2
  | succ pages ih =>
    obtain ⟨u, r, ⟨env, hr⟩, hk⟩ := runs_lift_bind.1 h
    cases hr
    generalize hread : World.read env ((w.entriesAfter jobID after).take resumableEntriesPageSize) =
      r at hk
    cases r with
    | error err => cases (runs_ret.1 hk).2
    | ok page =>
      have hpage := World.read_ok hread
      obtain ⟨u, r, hr, hk₁⟩ := runs_bind.1 hk
      cases r with
      | error err => cases (runs_ret.1 hk₁).2
      | ok fetched =>
        obtain ⟨rfl, rfl⟩ := fetchPage_runs hr
        obtain ⟨v, r, hr, hk₂⟩ := runs_bind.1 hk₁
        cases r with
        | error err => cases (runs_ret.1 hk₂).2
        | ok st₁ =>
          obtain ⟨rfl, hst₁⟩ := assemblePage_runs houtput herror hst hr
          dsimp only at hk₂
          split at hk₂
          next hshort =>
            obtain ⟨rfl, hst'⟩ := runs_ret.1 hk₂
            cases hst'
            rw [hpage, List.length_take] at hshort
            rw [hpage, List.take_of_length_le (by omega)] at hst₁
            exact ⟨rfl, hst₁⟩
          next hfull =>
            obtain ⟨rfl, hst'⟩ := ih hst₁ hk₂
            rw [hpage] at hfull
            rw [hpage, World.entriesAfter_next hw (by decide) hfull, List.append_assoc,
              List.take_append_drop] at hst'
            exact ⟨rfl, hst'⟩

end

/-! ### The published artifacts -/

theorem World.publish_ok {env : Env} {key : String} {data : Bytes} {publication : Publication}
    (h : w.publish env key data publication = (w', .ok ())) :
    w'.batch = w.batch ∧ ∀ k, w'.objects k = if k = key then some data else w.objects k := by
  unfold World.publish at h
  split at h
  · cases (Prod.mk.inj h).2
  · split at h
    · have hanswer := (Prod.mk.inj h).2
      split at hanswer <;> cases hanswer
    · obtain ⟨rfl, -⟩ := Prod.mk.inj h
      exact ⟨rfl, fun _ => rfl⟩

/-- An artifact with lines is published, one without lines is not created. -/
theorem commitArtifact_runs {kind : ArtifactKind} {lines : List Bytes} {publication : Publication}
    {fileID : String}
    (h : w.Executes (lib.commitArtifact (lib.writerAfter jobID kind lines) publication) w'
      (.ok fileID)) :
    (fileID = if lines = [] then "" else lib.stableFileID jobID kind.text) ∧
      w'.batch = w.batch ∧ ∀ key, w'.objects key =
        if key = artifactKey lib jobID kind ∧ lines ≠ [] then some lines.flatten
        else w.objects key := by
  unfold Stdlib.commitArtifact at h
  by_cases hlines : lines = []
  · simp only [Stdlib.writerAfter, hlines, if_true] at h
    obtain ⟨rfl, hid⟩ := runs_ret.1 h
    cases hid
    simp [hlines]
  · simp only [Stdlib.writerAfter, hlines, if_false] at h
    obtain ⟨u, r, ⟨env, hr⟩, hk⟩ := runs_lift_bind.1 h
    have hpublish := Option.some.inj hr
    cases r with
    | error err => cases (runs_ret.1 hk).2
    | ok done =>
      obtain ⟨v, r, ⟨env, hv⟩, hk⟩ := runs_lift_bind.1 hk
      cases hv
      generalize World.read env () = r at hk
      cases r with
      | error err => cases (runs_ret.1 hk).2
      | ok recorded =>
        obtain ⟨rfl, hid⟩ := runs_ret.1 hk
        cases hid
        obtain ⟨hbatch, hobjects⟩ := World.publish_ok hpublish
        refine ⟨(if_neg hlines).symm, hbatch, fun key => ?_⟩
        rw [hobjects]
        simp only [hlines, ne_eq, not_false_eq_true, and_true]
        rfl

/-- The line of an entry in its artifact. -/
def entryLine (line : EntryRow → OutputLine) (code : Option BatchErrorCode) (e : EntryRow) :
    OutputLine :=
  match e.status.isTerminal, code with
  | false, some c => e.notExecuted c
  | _, _ => line e

section

variable {line : EntryRow → OutputLine} {e : EntryRow} {es : List EntryRow}

theorem contribution_eq (hline : e.status.isTerminal = true → CommittedWith lib w e (line e))
    (hfinished : code = none → e.status.isTerminal = true) :
    lib.contribution w code e = lib.lineBytes (entryLine line code e) ∧
      e.artifact = if (entryLine line code e).hasCode then .error else .output := by
  unfold Stdlib.contribution entryLine
  cases hterminal : e.status.isTerminal with
  | true =>
    have hcommitted := hline hterminal
    refine ⟨?_, hcommitted.artifact⟩
    change w.resultOf e = _
    rw [World.resultOf, if_pos hterminal, hcommitted.object, Option.getD_some]
  | false =>
    cases code with
    | none =>
      rw [hfinished rfl] at hterminal
      cases hterminal
    | some c =>
      refine ⟨rfl, ?_⟩
      rw [artifact_of_open hterminal]
      cases c <;> rfl

theorem contributions_eq
    (hline : ∀ e ∈ es, e.status.isTerminal = true → CommittedWith lib w e (line e))
    (hfinished : code = none → ∀ e ∈ es, e.status.isTerminal = true) (kind : ArtifactKind) :
    lib.contributions w code kind es = ((es.map (entryLine line code)).filter
      fun l => (if l.hasCode then ArtifactKind.error else .output) = kind).map lib.lineBytes := by
  have heach (e : EntryRow) (he : e ∈ es) := contribution_eq (hline e he)
    fun hcode => hfinished hcode e he
  unfold Stdlib.contributions
  rw [List.filter_map, List.map_map]
  have hfilter : es.filter (·.artifact = kind) = es.filter ((fun l : OutputLine =>
      decide ((if l.hasCode then ArtifactKind.error else .output) = kind)) ∘ entryLine line code) := by
    refine List.filter_congr fun e he => ?_
    rw [(heach e he).2]
    rfl
  rw [hfilter]
  refine List.map_congr_left fun e he => ?_
  exact (heach e (List.mem_of_mem_filter he)).1

end

/-- The lines are published in order, each in one artifact; `isError` says in which. An artifact
without lines is not created. -/
structure PublishedBy (isError : OutputLine → Bool) (lib : Stdlib) (jobID : String)
    (lines : List OutputLine) (w w' : World) (outputFileID errorFileID : String) : Prop where
  objects : ∀ key, w'.objects key =
    if key = artifactKey lib jobID .error ∧ lines.filter isError ≠ [] then
      some (lib.fileOf (lines.filter isError))
    else if key = artifactKey lib jobID .output ∧ lines.filter (!isError ·) ≠ [] then
      some (lib.fileOf (lines.filter (!isError ·)))
    else w.objects key
  outputFileID_eq : outputFileID =
    if lines.filter (!isError ·) = [] then "" else lib.stableFileID jobID "output"
  errorFileID_eq : errorFileID =
    if lines.filter isError = [] then "" else lib.stableFileID jobID "error"

/-- The artifacts of a batch without artifacts. Every entry contributes one line to one of the
files, in ordinal order: a line whose error object has a code, and the synthetic line of an entry
that was not executed, go to the errors, all other lines to the output. -/
theorem assembled_artifacts {line : EntryRow → OutputLine} {counts : BatchRequestCounts}
    {outputFileID errorFileID : String} (hid : w.batch.row.id = jobID) (hw : w.Numbered)
    (hline : ∀ e ∈ w.batch.entries.rows, e.status.isTerminal = true → CommittedWith lib w e (line e))
    (houtput : w.objects (artifactKey lib jobID .output) = none)
    (herror : w.objects (artifactKey lib jobID .error) = none)
    (h : w.Executes (lib.assembleResumableArtifacts jobID code) w'
      (.ok (counts, outputFileID, errorFileID))) :
    ∃ es : List EntryRow, es.Perm w.batch.entries.rows ∧ es.Pairwise (·.ordinal < ·.ordinal) ∧
      PublishedBy OutputLine.hasCode lib jobID (es.map (entryLine line code)) w w' outputFileID
        errorFileID ∧
      counts = ⟨es.length, es.countP (·.status = .completed),
        es.length - es.countP (·.status = .completed)⟩ ∧
      (code = none → ∀ e ∈ es, e.status.isTerminal = true) := by
  have hperm := World.listing_perm hw hid
  refine ⟨w.listing jobID, hperm, World.entriesAfter_sorted hw, ?_⟩
  obtain ⟨u, env, ⟨env', henv⟩, hk⟩ := runs_lift_bind.1 h
  obtain rfl : u = w := World.read_perform rfl henv
  obtain ⟨v, r, hr, hk₁⟩ := runs_bind.1 hk
  cases r with
  | error err => cases (runs_ret.1 hk₁).2
  | ok st =>
    have hstart : AssembledSoFar lib u jobID code [] ⟨lib.newArtifactWriter jobID "output",
        lib.newArtifactWriter jobID "error", {}, []⟩ :=
      ⟨rfl, rfl, rfl, rfl, rfl, fun _ _ he => absurd he List.not_mem_nil⟩
    obtain ⟨rfl, hst⟩ := assemblePages_runs houtput herror hw hstart hr
    change AssembledSoFar lib v jobID code (v.listing jobID) st at hst
    have hcontents := contributions_eq (fun e he => hline e (hperm.mem_iff.1 he)) hst.finished
    have houtputs : lib.contributions v code .output (v.listing jobID) =
        (((v.listing jobID).map (entryLine line code)).filter (!·.hasCode)).map lib.lineBytes := by
      rw [hcontents]
      congr 2
      funext l
      cases l.hasCode <;> rfl
    have herrors : lib.contributions v code .error (v.listing jobID) =
        (((v.listing jobID).map (entryLine line code)).filter OutputLine.hasCode).map
          lib.lineBytes := by
      rw [hcontents]
      congr 2
      funext l
      cases l.hasCode <;> rfl
    dsimp only at hk₁
    rw [hst.output, hst.errorW, houtputs, herrors] at hk₁
    obtain ⟨u, r, hr, hk₂⟩ := runs_bind.1 hk₁
    cases r with
    | error err => cases (runs_ret.1 hk₂).2
    | ok outputID =>
      obtain ⟨hout, -, hobjects⟩ := commitArtifact_runs hr
      obtain ⟨u', r, hr, hk₃⟩ := runs_bind.1 hk₂
      cases r with
      | error err => cases (runs_ret.1 hk₃).2
      | ok errorID =>
        obtain ⟨herr, -, hobjects'⟩ := commitArtifact_runs hr
        obtain ⟨rfl, hresult⟩ := runs_ret.1 hk₃
        cases hresult
        refine ⟨⟨fun key => ?_, ?_, ?_⟩, ?_, hst.finished⟩
        · rw [hobjects', hobjects]
          simp only [ne_eq, List.map_eq_nil_iff]
          rfl
        · simpa only [List.map_eq_nil_iff, ArtifactKind.text] using hout
        · simpa only [List.map_eq_nil_iff, ArtifactKind.text] using herr
        · exact hst.counts_eq

/-! ### Concrete runs -/

/-- The world answers all calls of a task in the same surroundings. -/
def World.runAlone {α : Type} (env : Env) : World → Task α → Option (World × α)
  | w, .ret a => some (w, a)
  | w, .call c k => (w.perform env c).bind fun p => runAlone env p.1 (k p.2)

theorem World.executes_of_runAlone {α : Type} {env : Env} {w w' : World} {m : Task α} {a : α}
    (h : w.runAlone env m = some (w', a)) : w.Executes m w' a := by
  induction m generalizing w with
  | ret b =>
    cases h
    exact .ret ..
  | call c k ih =>
    obtain ⟨⟨u, r⟩, hu, hk⟩ := Option.bind_eq_some_iff.1 h
    exact .call ⟨env, hu⟩ (ih r hk)

def succeededResult : ResultItem := ⟨"r1", "b", some ⟨200, "", "\x7b\x7d"⟩, none⟩

def failedResult : ResultItem := ⟨"r0", "a", none, some ⟨"server_error", "boom"⟩⟩

/-- A failed request whose error object has no code. -/
def uncodedResult : ResultItem := ⟨"r0", "a", none, some ⟨"", "boom"⟩⟩

/-- The row that a checkpoint of the result leaves behind. -/
def checkpointedRow (ordinal : Int) (msg : ResultItem) : EntryRow :=
  EntryRow.commit 0 { msg.entryResult (Stdlib.sample.sha256 (Stdlib.sample.resultLine msg))
    (Stdlib.sample.resultLine msg).length with
      resultKey := resumableResultKey "batch_1" msg.requestID }
    { requestID := msg.requestID, ordinal, customID := msg.customID, status := .inFlight
      createdAt := 0, updatedAt := 0 }

/-- A completed, a failed and a pending entry, stored out of order. -/
def threeEntries : World where
  batch := ⟨{ id := "batch_1", status := { status := .finalizing } },
    ⟨[checkpointedRow 2 succeededResult, checkpointedRow 0 failedResult,
      { requestID := "r2", ordinal := 1, customID := "c", status := .pending
        createdAt := 0, updatedAt := 0 }], by decide +kernel⟩⟩
  objects key :=
    if key = resumableResultKey "batch_1" "r0" then some (Stdlib.sample.resultLine failedResult)
    else if key = resumableResultKey "batch_1" "r1" then
      some (Stdlib.sample.resultLine succeededResult)
    else none

def threeLines (e : EntryRow) : OutputLine :=
  if e.requestID = "r0" then failedResult.outputLine else succeededResult.outputLine

theorem threeEntries_assembled : ∃ w' counts outputFileID errorFileID,
    threeEntries.Executes (Stdlib.sample.assembleResumableArtifacts "batch_1" (some .batchCancelled))
      w' (.ok (counts, outputFileID, errorFileID)) ∧
    ∃ es : List EntryRow, es.Perm threeEntries.batch.entries.rows ∧
      PublishedBy OutputLine.hasCode .sample "batch_1"
        (es.map (entryLine threeLines (some .batchCancelled))) threeEntries w' outputFileID
        errorFileID ∧ counts = ⟨3, 1, 2⟩ := by
  have hline : ∀ e ∈ threeEntries.batch.entries.rows, e.status.isTerminal = true →
      CommittedWith .sample threeEntries e (threeLines e) := by
    intro e he hterminal
    rcases List.mem_cons.1 he with rfl | he
    · exact .checkpoint 0 _ succeededResult _ rfl (by decide +kernel)
    rcases List.mem_cons.1 he with rfl | he
    · exact .checkpoint 0 _ failedResult _ rfl (by decide +kernel)
    · rw [List.mem_singleton.1 he] at hterminal
      cases hterminal
  have hrun : (threeEntries.runAlone { count := 1 }
      (Stdlib.sample.assembleResumableArtifacts "batch_1" (some .batchCancelled))).map Prod.snd =
        some (.ok (⟨3, 1, 2⟩, Stdlib.sample.stableFileID "batch_1" "output",
          Stdlib.sample.stableFileID "batch_1" "error")) := by decide +kernel
  obtain ⟨⟨w', r⟩, hw', hr⟩ := Option.map_eq_some_iff.1 hrun
  dsimp only at hr
  subst hr
  have hexec := World.executes_of_runAlone hw'
  obtain ⟨es, hperm, -, hpublished, -⟩ := assembled_artifacts rfl
    ⟨by decide +kernel, by decide +kernel⟩
    hline (by decide +kernel) (by decide +kernel) hexec
  exact ⟨w', _, _, _, hexec, es, hperm, hpublished, rfl⟩

/-- One entry, whose error object has no code. -/
def uncodedEntry : World where
  batch := ⟨{ id := "batch_1", status := { status := .finalizing } },
    ⟨[checkpointedRow 0 uncodedResult], by decide +kernel⟩⟩
  objects key :=
    if key = resumableResultKey "batch_1" "r0" then some (Stdlib.sample.resultLine uncodedResult)
    else none

/-- A line whose error object has an empty code is published in the output. -/
theorem uncodedEntry_misrouted : uncodedEntry.Numbered ∧
    (∀ e ∈ uncodedEntry.batch.entries.rows, e.status.isTerminal = true →
      CommittedWith .sample uncodedEntry e uncodedResult.outputLine) ∧
    uncodedEntry.objects (artifactKey .sample "batch_1" .output) = none ∧
    uncodedEntry.objects (artifactKey .sample "batch_1" .error) = none ∧
    ∃ w' counts outputFileID errorFileID,
      uncodedEntry.Executes (Stdlib.sample.assembleResumableArtifacts "batch_1" none) w'
        (.ok (counts, outputFileID, errorFileID)) ∧
      ¬ ∃ es : List EntryRow, es.Perm uncodedEntry.batch.entries.rows ∧
        PublishedBy (·.error.isSome) .sample "batch_1"
          (es.map (entryLine (fun _ => uncodedResult.outputLine) none)) uncodedEntry w'
          outputFileID errorFileID := by
  refine ⟨⟨by decide +kernel, by decide +kernel⟩, ?_, by decide +kernel, by decide +kernel, ?_⟩
  · intro e he _
    rw [List.mem_singleton.1 he]
    exact .checkpoint 0 _ uncodedResult _ rfl (by decide +kernel)
  · have hrun : (uncodedEntry.runAlone { count := 1 }
        (Stdlib.sample.assembleResumableArtifacts "batch_1" none)).map Prod.snd =
          some (.ok (⟨1, 0, 1⟩, Stdlib.sample.stableFileID "batch_1" "output", "")) := by
      decide +kernel
    obtain ⟨⟨w', r⟩, hw', hr⟩ := Option.map_eq_some_iff.1 hrun
    dsimp only at hr
    subst hr
    refine ⟨w', _, _, _, World.executes_of_runAlone hw', ?_⟩
    rintro ⟨es, hperm, hpublished⟩
    have hone : es = [checkpointedRow 0 uncodedResult] := List.perm_singleton.1 hperm
    subst hone
    have hid := hpublished.errorFileID_eq
    revert hid
    decide +kernel

end BatchGateway
