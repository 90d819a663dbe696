import BatchGateway.Gateway.Conduct
import BatchGateway.Gateway.Rendering

/-! The discipline of finalization: an artifact is published or compared only after all entries were
listed, and its content is a rendering of what was read. -/
namespace BatchGateway

open Interleaving Prog

/-- The entries that a thread has listed in ordinal order since it last began at the start. -/
structure Reading where
  id : String := ""
  reads : List EntryRow := []
  after : Int := -1
  complete : Bool := false

namespace Reading

/-- A page continues the listing, starts a new one, or belongs to neither. -/
def listed (s : Reading) (id : String) (after : Int) (limit : Nat) :
    Except Err (List EntryRow) → Reading
  | .error _ => s
  | .ok page =>
    let last := (page.getLast?.map EntryRow.ordinal).getD after
    if after = -1 then ⟨id, page, last, page.length < limit⟩
    else if s.id = id ∧ s.after = after ∧ s.reads ≠ [] then
      ⟨id, s.reads ++ page, last, page.length < limit⟩
    else {}

/-- The content of an artifact is a rendering of a complete listing. -/
structure Publishes (s : Reading) (lib : Stdlib) (contents : Set Bytes) (kind : ArtifactKind)
    (key : String) (pub : Publication) (content : Bytes) : Prop where
  complete : s.complete = true
  reads : s.reads ≠ []
  key : key = artifactKey lib s.id kind
  unfinished : pub.unfinished = unfinishedOf s.reads
  renders : Renders lib contents pub.code kind s.reads content

/-- What a thread expects of the answers: objects have known contents, a page begins after the start,
and a published artifact has the content that would be published now. -/
def Expected (s : Reading) (lib : Stdlib) (contents : Set Bytes) : (c : Call) → c.Resp → Prop
  | .retrieve _ => fun r => ∀ data, r = .ok data → data ∈ contents
  | .listEntries .. => fun r => ∀ page, r = .ok page → ∀ e ∈ page, -1 < e.ordinal
  | .retrieveArtifact key pub => fun r => ∀ data, r = .ok data →
      ∀ kind content, s.Publishes lib contents kind key pub content → data = content
  | _ => fun _ => True

end Reading

def assembly (lib : Stdlib) (contents : Set Bytes) : Monitor Reading Call Call.Resp where
  allow s
    | .commitStream key data pub => ∃ kind, s.Publishes lib contents kind key pub data
    | .retrieveArtifact key pub => ∃ kind content, s.Publishes lib contents kind key pub content
    | _ => True
  answer s c r := (∀ e ∈ c.failure r, e.kind ≠ .mismatch) ∧ s.Expected lib contents c r
  next s
    | .listEntries id after limit => fun r => s.listed id after limit r
    | _ => fun _ => s

variable {α β : Type} {lib : Stdlib} {contents : Set Bytes} {s : Reading} {Q : α → Reading → Prop}
  {code : Option BatchErrorCode} {kind : ArtifactKind} {jobID : String} {e : EntryRow}
  {es : List EntryRow}

/-- The result is no complaint about an artifact. -/
def NoMismatch : Except Err α → Prop
  | .ok _ => True
  | .error e => e.kind ≠ .mismatch

/-- A value in `D`, or an error that is no complaint about an artifact; the listing stays. -/
def Yields (s : Reading) (D : α → Prop) (r : Except Err α) (s' : Reading) : Prop :=
  s' = s ∧ match r with
    | .ok a => D a
    | .error e => e.kind ≠ .mismatch

/-- The calls that neither list entries nor concern an artifact. -/
def Call.IsAside (c : Call) : Bool :=
  !c.IsArtifact && match c with
    | listEntries .. => false
    | _ => true

theorem assembly_aside {c : Call} {f : c.Resp → Task α} (h : c.IsAside = true)
    (hf : ∀ r, (∀ e ∈ c.failure r, e.kind ≠ .mismatch) → (f r).Obeys (assembly lib contents) Q s) :
    (call c >>= f).Obeys (assembly lib contents) Q s := by
  cases c <;> first | exact ⟨trivial, fun r hr => hf r hr.1⟩ | cases h

variable {key : String} {f : Except Err Bytes → Task α}

theorem assembly_fetch
    (hf : ∀ r, (∀ e ∈ errorOf r, e.kind ≠ .mismatch) → (∀ data, r = .ok data → data ∈ contents) →
      (f r).Obeys (assembly lib contents) Q s) :
    (call (.retrieve key) >>= f).Obeys (assembly lib contents) Q s :=
  ⟨trivial, fun r hr => hf r hr.1 hr.2⟩

variable {data : Bytes}

theorem assembly_commit {pub : Publication} {f : Except Err Unit → Task α}
    (h : s.Publishes lib contents kind key pub data)
    (hf : ∀ r, (∀ e ∈ errorOf r, e.kind ≠ .mismatch) → (f r).Obeys (assembly lib contents) Q s) :
    (call (.commitStream key data pub) >>= f).Obeys (assembly lib contents) Q s :=
  ⟨⟨kind, h⟩, fun r hr => hf r hr.1⟩

theorem assembly_retrieve {content : Bytes} {pub : Publication}
    (h : s.Publishes lib contents kind key pub content)
    (hf : ∀ r, (∀ e ∈ errorOf r, e.kind ≠ .mismatch) → (∀ data, r = .ok data → data = content) →
      (f r).Obeys (assembly lib contents) Q s) :
    (call (.retrieveArtifact key pub) >>= f).Obeys (assembly lib contents) Q s :=
  ⟨⟨kind, content, h⟩, fun r hr => hf r hr.1 fun data hd => hr.2 data hd kind content h⟩

/-! ### Artifacts -/

/-- An artifact on the way has the content of the entries so far. -/
structure Draft (lib : Stdlib) (contents : Set Bytes) (jobID : String)
    (code : Option BatchErrorCode) (kind : ArtifactKind) (a : ArtifactWriter) (es : List EntryRow) :
    Prop where
  key : a.key = artifactKey lib jobID kind
  content : Renders lib contents code kind es a.content
  opened : a.mode ≠ .closed → es ≠ []

structure Drafts (lib : Stdlib) (contents : Set Bytes) (jobID : String)
    (code : Option BatchErrorCode) (st : Assembly) (es : List EntryRow) : Prop where
  output : Draft lib contents jobID code .output st.output es
  error : Draft lib contents jobID code .error st.errorW es
  unfinished : st.unfinished = unfinishedOf es

variable {a : ArtifactWriter}

theorem Draft.skip (h : Draft lib contents jobID code kind a es) (hk : e.artifact ≠ kind) :
    Draft lib contents jobID code kind a (es ++ [e]) where
  key := h.key
  content := by
    have hnone : Contributes lib contents code kind e [] := by simp [Contributes, hk]
    simpa using h.content.snoc hnone
  opened _ := by simp

theorem drafts_empty (lib : Stdlib) (contents : Set Bytes) (jobID : String)
    (code : Option BatchErrorCode) :
    Drafts lib contents jobID code
      ⟨lib.newArtifactWriter jobID "output", lib.newArtifactWriter jobID "error", {}, []⟩ [] :=
  ⟨⟨rfl, renders_nil, fun h => absurd rfl h⟩, ⟨rfl, renders_nil, fun h => absurd rfl h⟩, rfl⟩

theorem writeResult_obeys {part : Bytes} (h : Draft lib contents jobID code kind a es)
    (hp : Contributes lib contents code kind e part) :
    (a.writeResult part).Obeys (assembly lib contents)
      (Yields s fun a => Draft lib contents jobID code kind a (es ++ [e])) s := by
  have hdraft : ∀ a' : ArtifactWriter, a'.key = a.key → a'.content = a.content ++ part →
      Draft lib contents jobID code kind a' (es ++ [e]) := fun a' hk hc =>
    ⟨hk.trans h.key, hc ▸ h.content.snoc hp, by simp⟩
  refine Obeys.bind (P := Yields s fun a' => a'.key = a.key ∧ a'.content = a.content) ?_
    fun r s' ⟨hs, hr⟩ => ?_
  · unfold ArtifactWriter.ensure
    split
    · exact .ret ⟨rfl, rfl, rfl⟩
    · refine assembly_aside rfl fun r hr => ?_
      split
      · exact .ret ⟨rfl, rfl, rfl⟩
      next err =>
        split
        · exact .ret ⟨rfl, rfl, rfl⟩
        · exact .ret ⟨rfl, hr err rfl⟩
  · subst hs
    split
    · exact .ret ⟨rfl, hr⟩
    next a' =>
      unfold ArtifactWriter.write
      split
      · exact .ret ⟨rfl, hdraft _ hr.1 (by simp [hr.2])⟩
      · refine assembly_aside rfl fun r hr' => ?_
        split
        next err => exact .ret ⟨rfl, hr' err rfl⟩
        next => exact .ret ⟨rfl, hdraft _ hr.1 (by simp [hr.2])⟩

theorem fetchResult_obeys :
    (lib.fetchResult e).Obeys (assembly lib contents) (Yields s (IsResult lib contents e)) s := by
  refine assembly_fetch fun r hr hdata => ?_
  split
  next err => exact .ret ⟨rfl, hr err rfl⟩
  next data =>
    split
    · exact .ret ⟨rfl, nofun⟩
    · split
      · exact .ret ⟨rfl, nofun⟩
      next hsha => exact .ret ⟨rfl, hdata data rfl, not_not.1 hsha⟩

/-- Every finished entry of the page comes with its result. -/
def Fetched (lib : Stdlib) (contents : Set Bytes) (es : List EntryRow)
    (page : List (EntryRow × Bytes)) : Prop :=
  page.map Prod.fst = es ∧ ∀ x ∈ page, x.1.status.isTerminal = true → IsResult lib contents x.1 x.2

theorem Fetched.cons {page : List (EntryRow × Bytes)} (h : Fetched lib contents es page)
    (hd : e.status.isTerminal = true → IsResult lib contents e data) :
    Fetched lib contents (e :: es) ((e, data) :: page) :=
  ⟨by rw [List.map_cons, h.1], List.forall_mem_cons.2 ⟨hd, h.2⟩⟩

theorem fetchPage_obeys :
    (lib.fetchPage es).Obeys (assembly lib contents) (Yields s (Fetched lib contents es)) s := by
  induction es with
  | nil => exact .ret ⟨rfl, rfl, by simp⟩
  | cons e es ih =>
    unfold Stdlib.fetchPage
    split
    · refine fetchResult_obeys.bind fun r s' hy => ?_
      obtain ⟨rfl, hr⟩ := hy
      split
      · exact .ret ⟨rfl, hr⟩
      · refine ih.bind fun r' s' hy => ?_
        obtain ⟨rfl, hr'⟩ := hy
        split
        · exact .ret ⟨rfl, hr'⟩
        · exact .ret ⟨rfl, hr'.cons fun _ => hr⟩
    next hopen =>
      refine ih.bind fun r s' hy => ?_
      obtain ⟨rfl, hr⟩ := hy
      split
      · exact .ret ⟨rfl, hr⟩
      · exact .ret ⟨rfl, hr.cons fun h => absurd h hopen⟩

variable {st : Assembly}

/-- An entry is written to its own artifact and leaves the other one as it is. -/
theorem Drafts.output_write {counts : BatchRequestCounts} (h : Drafts lib contents jobID code st es)
    (ha : Draft lib contents jobID code .output a (es ++ [e])) (ht : e.status.isTerminal = true)
    (hk : e.artifact = .output) :
    Drafts lib contents jobID code { st with output := a, counts := counts } (es ++ [e]) :=
  ⟨ha, h.error.skip (by simp [hk]), by simp [unfinishedOf_snoc, ht, h.unfinished]⟩

theorem Drafts.error_write {counts : BatchRequestCounts} (h : Drafts lib contents jobID code st es)
    (ha : Draft lib contents jobID code .error a (es ++ [e])) (ht : e.status.isTerminal = true)
    (hk : e.artifact = .error) :
    Drafts lib contents jobID code { st with errorW := a, counts := counts } (es ++ [e]) :=
  ⟨h.output.skip (by simp [hk]), ha, by simp [unfinishedOf_snoc, ht, h.unfinished]⟩

theorem contributes_result {part : Bytes} (ht : e.status.isTerminal = true)
    (hd : IsResult lib contents e part) : Contributes lib contents code e.artifact e part := by
  simp [Contributes, ht, hd]

theorem assembleEntry_obeys (h : Drafts lib contents jobID code st es)
    (hd : e.status.isTerminal = true → IsResult lib contents e data) :
    (lib.assembleEntry code st e data).Obeys (assembly lib contents)
      (Yields s fun st => Drafts lib contents jobID code st (es ++ [e])) s := by
  unfold Stdlib.assembleEntry
  dsimp only
  split
  next hs =>
    have ht : e.status.isTerminal = true := by simp [hs, EntryStatus.isTerminal]
    have hk : e.artifact = .output := by simp [EntryRow.artifact, hs]
    refine (writeResult_obeys h.output (hk ▸ contributes_result ht (hd ht))).bind fun r s' hy => ?_
    obtain ⟨rfl, hr⟩ := hy
    split
    · exact .ret ⟨rfl, hr⟩
    · exact .ret ⟨rfl, h.output_write hr ht hk⟩
  next hs =>
    have ht : e.status.isTerminal = true := by simp [hs, EntryStatus.isTerminal]
    split
    next hcode =>
      have hk : e.artifact = .error := by simp only [EntryRow.artifact, hs, if_pos hcode]
      refine (writeResult_obeys h.error (hk ▸ contributes_result ht (hd ht))).bind fun r s' hy => ?_
      obtain ⟨rfl, hr⟩ := hy
      split
      · exact .ret ⟨rfl, hr⟩
      · exact .ret ⟨rfl, h.error_write hr ht hk⟩
    next hcode =>
      have hk : e.artifact = .output := by simp only [EntryRow.artifact, hs, if_neg hcode]
      refine (writeResult_obeys h.output (hk ▸ contributes_result ht (hd ht))).bind fun r s' hy => ?_
      obtain ⟨rfl, hr⟩ := hy
      split
      · exact .ret ⟨rfl, hr⟩
      · exact .ret ⟨rfl, h.output_write hr ht hk⟩
  all_goals
    next hs =>
    have ht : e.status.isTerminal = false := by simp [hs, EntryStatus.isTerminal]
    have hk := artifact_of_open ht
    split
    · exact .ret ⟨rfl, fun he => by cases he⟩
    next c =>
      refine (writeResult_obeys (e := e) h.error (by simp [Contributes, hk, ht])).bind
        fun r s' hy => ?_
      obtain ⟨rfl, hr⟩ := hy
      split
      · exact .ret ⟨rfl, hr⟩
      · exact .ret ⟨rfl, h.output.skip (by simp [hk]), hr,
          by simp [unfinishedOf_snoc, ht, h.unfinished]⟩

theorem assemblePage_obeys {page : List (EntryRow × Bytes)}
    (h : Drafts lib contents jobID code st es)
    (hp : ∀ x ∈ page, x.1.status.isTerminal = true → IsResult lib contents x.1 x.2) :
    (lib.assemblePage code st page).Obeys (assembly lib contents)
      (Yields s fun st => Drafts lib contents jobID code st (es ++ page.map Prod.fst)) s := by
  induction page generalizing st es with
  | nil => exact .ret ⟨rfl, by simpa using h⟩
  | cons x page ih =>
    obtain ⟨hx, hpage⟩ := List.forall_mem_cons.1 hp
    refine (assembleEntry_obeys h hx).bind fun r s' ⟨hs, hr⟩ => ?_
    subst hs
    split
    · exact .ret ⟨rfl, hr⟩
    · have := ih hr hpage
      rwa [List.append_assoc] at this

/-- The listing so far: none before the first page, and otherwise all that the drafts are made of. -/
def Reading.Holds (s : Reading) (jobID : String) (after : Int) (es : List EntryRow) : Prop :=
  (after = -1 ∧ es = []) ∨
    (after ≠ -1 ∧ s.id = jobID ∧ s.after = after ∧ s.reads ≠ [] ∧ s.reads = es)

variable {after : Int}

theorem Reading.Holds.listed {limit : Nat} {page : List EntryRow} (h : s.Holds jobID after es) :
    s.listed jobID after limit (.ok page) =
      ⟨jobID, es ++ page, (page.getLast?.map EntryRow.ordinal).getD after, page.length < limit⟩ := by
  rcases h with ⟨rfl, rfl⟩ | ⟨hne, hid, hafter, hreads, rfl⟩
  · simp [Reading.listed]
  · simp [Reading.listed, hne, hid, hafter, hreads]

/-- The drafts of a complete listing. -/
def Assembled (lib : Stdlib) (contents : Set Bytes) (jobID : String) (code : Option BatchErrorCode)
    (r : Except Err Assembly) (s : Reading) : Prop :=
  match r with
  | .ok st => s.id = jobID ∧ s.complete = true ∧ Drafts lib contents jobID code st s.reads
  | .error e => e.kind ≠ .mismatch

theorem assemblePages_obeys {pages : Nat} (h : Drafts lib contents jobID code st es)
    (hs : s.Holds jobID after es) :
    (lib.assemblePages jobID code pages after st).Obeys (assembly lib contents)
      (Assembled lib contents jobID code) s := by
  induction pages generalizing after st es s with
  | zero => exact .ret fun he => by cases he
  | succ pages ih =>
    refine ⟨trivial, ?_⟩
    rintro r ⟨herr, hpage⟩
    cases r with
    | error err => exact .ret (herr err rfl)
    | ok page =>
      change Obeys _ _ _ (s.listed jobID after resumableEntriesPageSize (.ok page))
      rw [hs.listed]
      refine fetchPage_obeys.bind fun r s' hy => ?_
      obtain ⟨rfl, hr⟩ := hy
      split
      · exact .ret hr
      refine (assemblePage_obeys h hr.2).bind fun r s' hy => ?_
      obtain ⟨rfl, hr'⟩ := hy
      split
      · exact .ret hr'
      rw [hr.1] at hr'
      split
      next hlast => exact .ret ⟨rfl, decide_eq_true hlast, hr'⟩
      next hfull =>
        -- a full page has a last entry, and its ordinal is where the next page begins
        have hne : page ≠ [] := by
          rintro rfl
          exact hfull (by decide)
        have hlast := hpage page rfl _ (List.getLast_mem hne)
        refine ih hr' (.inr ⟨?_, rfl, rfl, by simp [hne], rfl⟩)
        rw [List.getLast?_eq_getLast_of_ne_nil hne]
        exact ne_of_gt hlast

theorem commitArtifact_obeys (h : Draft lib contents s.id code kind a s.reads)
    (hc : s.complete = true) :
    (lib.commitArtifact a ⟨code, unfinishedOf s.reads⟩).Obeys (assembly lib contents)
      (Yields s fun _ => True) s := by
  have hpub : a.mode ≠ .closed →
      s.Publishes lib contents kind a.key ⟨code, unfinishedOf s.reads⟩ a.content := fun hm =>
    ⟨hc, h.opened hm, h.key, rfl, h.content⟩
  unfold Stdlib.commitArtifact
  split
  · exact .ret ⟨rfl, trivial⟩
  next hm =>
    have hpub := hpub (by simp [hm])
    refine Obeys.bind (P := Yields s fun _ => True) ?_ fun r s' ⟨hs, hr⟩ => ?_
    · refine assembly_retrieve hpub fun r herr hdata => ?_
      split
      next err => exact .ret ⟨rfl, herr err rfl⟩
      next data =>
        rw [hdata data rfl, if_neg (by simp)]
        exact .ret ⟨rfl, trivial⟩
    · subst hs
      split
      · exact .ret ⟨rfl, hr⟩
      · refine assembly_aside rfl fun r hr => ?_
        split
        next err => exact .ret ⟨rfl, hr err rfl⟩
        next => exact .ret ⟨rfl, trivial⟩
  next hm =>
    refine assembly_commit (hpub (by simp [hm])) fun r herr => ?_
    split
    next err => exact .ret ⟨rfl, herr err rfl⟩
    next =>
      refine assembly_aside rfl fun r hr => ?_
      split
      next err => exact .ret ⟨rfl, hr err rfl⟩
      next => exact .ret ⟨rfl, trivial⟩

theorem assembleResumableArtifacts_obeys :
    (lib.assembleResumableArtifacts jobID code).Obeys (assembly lib contents)
      (fun r _ => NoMismatch r) s := by
  refine assembly_aside rfl fun env _ => ?_
  refine (assemblePages_obeys (drafts_empty lib contents jobID code) (.inl ⟨rfl, rfl⟩)).bind
    fun r s' hr => ?_
  split
  · exact .ret hr
  next st =>
    obtain ⟨rfl, hc, hd⟩ := hr
    rw [hd.unfinished]
    refine (commitArtifact_obeys hd.output hc).bind fun r s'' ⟨hs, hr⟩ => ?_
    subst hs
    split
    · exact .ret hr
    · refine (commitArtifact_obeys hd.error hc).bind fun r s'' ⟨hs, hr⟩ => ?_
      split
      · exact .ret hr
      · exact .ret trivial

/-! ### The rest of a pickup -/

/-- Whatever was listed before, the program keeps to the discipline and returns values in `D`. -/
def Agrees (lib : Stdlib) (contents : Set Bytes) (D : α → Prop) (m : Task α) : Prop :=
  ∀ s, m.Obeys (assembly lib contents) (fun a _ => D a) s

namespace Agrees

variable {D : α → Prop} {E : β → Prop}

theorem ret {a : α} (h : D a) : Agrees lib contents D (return a) := fun _ => h

theorem bind {m : Task α} {f : α → Task β} (hm : Agrees lib contents D m)
    (hf : ∀ a, D a → Agrees lib contents E (f a)) : Agrees lib contents E (m >>= f) :=
  fun s => (hm s).bind fun a s' ha => hf a ha s'

theorem call {c : Call} {f : c.Resp → Task α} (h : c.IsArtifact = false)
    (hf : ∀ r, (∀ e ∈ c.failure r, e.kind ≠ .mismatch) → Agrees lib contents D (f r)) :
    Agrees lib contents D (BatchGateway.call c >>= f) := by
  intro s
  cases c <;> first | exact ⟨trivial, fun r hr => hf r hr.1 _⟩ | cases h

end Agrees

variable {item : BatchItem} {task : BatchJobPriority} {p : Processor}

theorem pqEnqueue_agrees {jp : BatchJobPriority} : Agrees lib contents NoMismatch (pqEnqueue jp) := by
  unfold pqEnqueue
  split_ifs <;> first | exact .ret nofun | skip
  refine .call rfl fun r hr => ?_
  split
  next err => exact .ret (hr err rfl)
  next => exact .ret nofun
  next => exact .ret trivial

variable {q : String}

theorem requeueResumableOrphan_agrees {id : String} {epoch : Int} {expired bump : Bool} :
    Agrees lib contents NoMismatch (requeueResumableOrphan id q epoch expired bump) := by
  refine .call rfl fun r hr => ?_
  split
  next err => exact .ret (hr err rfl)
  next => exact .ret trivial
  next =>
    refine .call rfl fun r hr => ?_
    split
    next err => exact .ret (hr err rfl)
    next => exact .ret trivial

variable {job : BatchItem} {counts : Option BatchRequestCounts}

theorem updatePersistentStatusFrom_agrees {expected : Option BatchStatusInfo} {new : BatchStatus}
    {slo : Option Time} {out err : String} :
    Agrees lib contents NoMismatch
      (updatePersistentStatusFrom expected job new counts slo out err) := by
  refine .call rfl fun env _ => ?_
  split
  next herr => exact .ret (by simp [NoMismatch, buildStatus_error herr])
  next doc _ =>
    refine Agrees.bind (D := NoMismatch) ?_ fun r hr => ?_
    · unfold dbUpdate
      split
      · exact .ret nofun
      split
      · exact .ret trivial
      refine .call rfl fun r hr => ?_
      split
      next err => exact .ret (hr err rfl)
      next => exact .ret trivial
      next => split <;> exact .ret nofun
    · split
      · exact .ret hr
      · exact .ret trivial

theorem ignore_noMismatch {r : Except Err α} (h : NoMismatch r) : NoMismatch (ignore r) := by
  cases r with
  | ok => trivial
  | error => exact h

theorem handleFailed_agrees :
    Agrees lib contents NoMismatch (handleFailed item counts) :=
  updatePersistentStatusFrom_agrees.bind fun _ hr => .ret (ignore_noMismatch hr)

theorem handleExpired_agrees :
    Agrees lib contents NoMismatch (handleExpired item counts) :=
  updatePersistentStatusFrom_agrees.bind fun _ hr => .ret (ignore_noMismatch hr)

theorem handleCancelled_agrees :
    Agrees lib contents NoMismatch (handleCancelled item counts) := by
  refine updatePersistentStatusFrom_agrees.bind fun r hr => ?_
  split
  · exact .ret trivial
  · refine updatePersistentStatusFrom_agrees.bind fun r' _ => ?_
    split
    · exact .ret hr
    · exact .ret nofun

theorem finalizeResumableStatus_agrees {expected terminal : BatchStatus}
    {counts : BatchRequestCounts} {out err : String} :
    Agrees lib contents NoMismatch
      (finalizeResumableStatus q job expected terminal counts out err) := by
  refine .call rfl fun env _ => ?_
  split
  next herr => exact .ret (by simp [NoMismatch, buildStatus_error herr])
  next doc _ =>
    refine Agrees.bind (D := NoMismatch) ?_ fun r hr => ?_
    · unfold finalizeResumableBatch
      dsimp only
      split
      · exact .ret nofun
      refine .call rfl fun r hr => ?_
      split
      next err => exact .ret (hr err rfl)
      next => exact .ret trivial
      next =>
        refine .call rfl fun r hr => ?_
        split
        next err => exact .ret (hr err rfl)
        next =>
          split
          · exact .ret trivial
          · exact .ret nofun
    · split
      · exact .ret hr
      · exact .call rfl fun _ _ => .ret trivial

theorem finalizeResumableAs_agrees {status expected : BatchStatus} {code : BatchErrorCode} :
    Agrees lib contents NoMismatch (finalizeResumableAs lib q job status code expected) := by
  refine Agrees.bind (fun s => assembleResumableArtifacts_obeys) fun r hr => ?_
  split
  · exact .ret hr
  · refine finalizeResumableStatus_agrees.bind fun r hr => ?_
    split
    · exact .ret hr
    · exact .ret trivial

theorem finalizeResumableJob_agrees :
    Agrees lib contents NoMismatch (finalizeResumableJob lib q job) := by
  refine updatePersistentStatusFrom_agrees.bind fun r hr => ?_
  split
  · exact .ret hr
  refine Agrees.bind (fun s => assembleResumableArtifacts_obeys) fun r hr => ?_
  split
  · exact .ret hr
  refine .call rfl fun env _ => ?_
  split
  · refine finalizeResumableStatus_agrees.bind fun r hr => ?_
    split
    · exact .ret hr
    · exact .ret nofun
  · refine finalizeResumableStatus_agrees.bind fun r hr => ?_
    split
    · exact .ret hr
    · exact .ret trivial

theorem handleJobError_agrees {durable : Bool} {err : Err} :
    Agrees lib contents NoMismatch (handleJobError lib p item durable counts err) := by
  unfold handleJobError
  split
  · split
    · exact finalizeResumableAs_agrees
    · exact finalizeResumableAs_agrees
    · exact .ret trivial
    · exact finalizeResumableAs_agrees
  · split
    · exact handleCancelled_agrees
    · exact handleExpired_agrees
    · exact .ret trivial
    · exact handleFailed_agrees

theorem runActivated_agrees : Agrees lib contents NoMismatch (runActivated lib p item) := by
  refine .call rfl fun fresh _ => .call rfl fun _ _ => .call rfl fun _ _ => .call rfl fun env _ => ?_
  split
  · exact .ret trivial
  split
  · split
    · exact .ret trivial
    · exact handleJobError_agrees
  · refine finalizeResumableJob_agrees.bind fun r hr => ?_
    split
    · split
      · exact .ret trivial
      · exact .ret hr
    · exact .ret trivial

theorem putRejectedObjects_agrees {sink : BatchResultStore} {ms : List ManifestEntry} :
    Agrees lib contents NoMismatch (sink.putRejectedObjects lib ms) := by
  induction ms with
  | nil => exact .ret trivial
  | cons m ms ih =>
    unfold BatchResultStore.putRejectedObjects
    split
    · refine Agrees.bind (D := NoMismatch) (.call rfl fun r hr => ?_) fun r hr => ?_
      · split
        · exact .ret trivial
        next err =>
          split
          · exact .ret (hr err rfl)
          · refine Agrees.bind (D := fun _ => True) (.call rfl fun r _ => ?_) fun found _ => ?_
            · split <;> exact .ret trivial
            · split
              · exact .ret trivial
              · exact .ret fun he => by cases he
      · split
        · exact .ret hr
        · exact ih
    · exact ih

variable {manifest : RequestManifest}

theorem activateResumable_agrees {sink : BatchResultStore} {ttl : Duration} :
    Agrees lib contents NoMismatch (sink.activateResumable lib q ttl manifest) := by
  refine putRejectedObjects_agrees.bind fun r hr => ?_
  split
  · exact .ret hr
  refine Agrees.bind (D := NoMismatch) ?_ fun r hr => ?_
  · unfold activateResumableBatch
    split_ifs <;> first | exact .ret nofun | skip
    refine .call rfl fun r hr => ?_
    split
    next err => exact .ret (hr err rfl)
    next => exact .ret nofun
    next => exact .ret trivial
  · split
    · exact .ret hr
    · exact .ret trivial

theorem listResumableEntries_agrees {id : String} {pages : Nat} :
    Agrees lib contents NoMismatch (listResumableEntries id pages after) := by
  induction pages generalizing after with
  | zero => exact .ret nofun
  | succ pages ih =>
    refine .call rfl fun r hr => ?_
    split
    next err => exact .ret (hr err rfl)
    next =>
      split
      · exact .ret trivial
      · refine ih.bind fun r hr => ?_
        split
        · exact .ret hr
        · exact .ret trivial

theorem checkManifestEntries_noMismatch (i : Nat) (es : List EntryRow) (ms : List ManifestEntry) :
    NoMismatch (checkManifestEntries i es ms) := by
  induction es generalizing i ms with
  | nil => trivial
  | cons e es ih =>
    cases ms with
    | nil => trivial
    | cons m ms =>
      unfold checkManifestEntries
      split_ifs
      · exact fun he => by cases he
      · dsimp only
        split_ifs
        · exact fun he => by cases he
        · exact ih (i + 1) ms

theorem recoverResumable_agrees :
    Agrees lib contents NoMismatch (recoverResumable item manifest) := by
  refine .call rfl fun env _ => listResumableEntries_agrees.bind fun r hr => ?_
  split
  · exact .ret hr
  next entries =>
    have hcheck : NoMismatch (checkManifestIntegrity manifest entries) := by
      unfold checkManifestIntegrity
      split_ifs
      · exact nofun
      · exact checkManifestEntries_noMismatch ..
    split
    next herr =>
      rw [herr] at hcheck
      exact .ret hcheck
    next => exact .ret trivial

theorem runManifest_agrees :
    Agrees lib contents NoMismatch (runManifest lib p item task manifest) := by
  refine Agrees.bind (D := NoMismatch) ?_ fun r hr => ?_
  · unfold activateOrRecover
    dsimp only
    split
    · exact recoverResumable_agrees
    · exact activateResumable_agrees
  · split
    · exact runActivated_agrees
    split
    · exact .ret trivial
    split
    · split
      · exact finalizeResumableAs_agrees
      · exact .ret hr
    · exact handleFailed_agrees

theorem runIngestion_agrees : Agrees lib contents NoMismatch (runIngestion lib p item task) := by
  refine .call rfl fun env _ => ?_
  split
  · exact handleJobError_agrees
  · split
    · exact handleJobError_agrees
    · exact runManifest_agrees

theorem returnToQueue_agrees : Agrees lib contents NoMismatch (returnToQueue item task) := by
  refine pqEnqueue_agrees.bind fun r _ => ?_
  split
  · exact handleFailed_agrees
  · exact .ret trivial

theorem runFromEvents_agrees : Agrees lib contents NoMismatch (runFromEvents lib p item task) := by
  refine .call rfl fun r _ => ?_
  split
  · split
    · exact requeueResumableOrphan_agrees
    · exact returnToQueue_agrees
  · exact runIngestion_agrees

theorem routeResumedPickup_agrees :
    Agrees lib contents (fun r => ∀ result ∈ r, NoMismatch result)
      (routeResumedPickup lib p item task) := by
  refine .call rfl fun env _ => ?_
  split
  · refine finalizeResumableAs_agrees.bind fun r hr => .ret ?_
    rintro _ ⟨⟩
    exact hr
  · exact .ret nofun

theorem runJob_agrees : Agrees lib contents NoMismatch (runJob lib p item task) := by
  unfold runJob
  split
  · refine .call rfl fun _ _ => routeResumedPickup_agrees.bind fun r hr => ?_
    split
    next result => exact .ret (hr result rfl)
    next => exact runFromEvents_agrees
  · exact runFromEvents_agrees

/-- A pickup that keeps to the discipline never complains about an artifact. -/
theorem pollJob_agrees : Agrees lib contents NoMismatch (pollJob lib p task) := by
  refine .call rfl fun r _ => ?_
  split
  · exact pqEnqueue_agrees
  · exact .ret trivial
  · split
    · exact handleFailed_agrees
    · refine .call rfl fun env _ => ?_
      dsimp only
      split
      · exact updatePersistentStatusFrom_agrees.bind fun _ hr => .ret (ignore_noMismatch hr)
      split
      · split
        · exact updatePersistentStatusFrom_agrees.bind fun _ hr => .ret (ignore_noMismatch hr)
        · exact .ret trivial
      split
      · split
        · exact requeueResumableOrphan_agrees
        · exact returnToQueue_agrees
      · exact runJob_agrees

end BatchGateway
