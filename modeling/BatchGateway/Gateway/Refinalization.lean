import BatchGateway.Gateway.Assembly

/-! A later attempt to finalize a batch agrees with the artifacts of the earlier ones, as long as it
finds the same requests unfinished and gives them the same code. -/
namespace BatchGateway

open Interleaving

variable {lib : Stdlib} {contents : Set Bytes} {w w' : World} {env : Env} {g : Actor} {s : Held}
  {t : Reading} {rows rows' done rest : List EntryRow} {id : String} {kind : ArtifactKind}

/-- A published artifact is compared with a rendering for the same unfinished requests and the same
code for them, and everything that is stored has one of the given contents. -/
def SameRendering (contents : Set Bytes) (w : World) (_ : Env) (_ : Actor) : Call → Prop
  | .retrieveArtifact key pub => ∀ pub' ∈ w.publication key,
      pub.unfinished = pub'.unfinished ∧ (pub.unfinished ≠ [] → pub.code = pub'.code)
  | .store _ data _ | .commitStream _ data _ => data ∈ contents
  | _ => True

instance [DecidablePred (· ∈ contents)] (c : Call) : Decidable (SameRendering contents w env g c) := by
  unfold SameRendering
  split <;> infer_instance

/-! ### Listing -/

/-- The entries are in ordinal order, from zero on. -/
structure Ordered (rows : List EntryRow) : Prop where
  sorted : (rows.map EntryRow.ordinal).Pairwise (· < ·)
  nonneg : ∀ n ∈ rows.map EntryRow.ordinal, -1 < n

theorem ordinals_of_readAs (h : List.Forall₂ ReadAs rows rows') :
    rows'.map EntryRow.ordinal = rows.map EntryRow.ordinal := by
  induction h with
  | nil => rfl
  | cons hr _ ih => rw [List.map_cons, List.map_cons, ih, hr.ordinal]

theorem Ordered.mono (h : Ordered rows) (hr : List.Forall₂ ReadAs rows rows') : Ordered rows' := by
  constructor <;> rw [ordinals_of_readAs hr]
  · exact h.sorted
  · exact h.nonneg

/-- The listing covers the rows `done` up to its position, and nothing of the `rest` beyond it. -/
structure Reading.Covers (t : Reading) (done rest : List EntryRow) : Prop where
  reads : List.Forall₂ ReadAs t.reads done
  upTo : ∀ n ∈ done.map EntryRow.ordinal, n ≤ t.after
  beyond : ∀ n ∈ rest.map EntryRow.ordinal, t.after < n
  complete : t.complete = true → rest = []

/-- What a thread has listed is right about the rows. -/
def Reading.Known (t : Reading) (w : World) : Prop :=
  t.reads = [] ∨ (w.batch.row.id = t.id ∧
    ∃ done rest, w.batch.entries.rows = done ++ rest ∧ t.Covers done rest)

theorem forall₂_append_left (h : List.Forall₂ ReadAs (done ++ rest) rows) :
    ∃ done' rest', rows = done' ++ rest' ∧ List.Forall₂ ReadAs done done' ∧
      List.Forall₂ ReadAs rest rest' := by
  refine ⟨rows.take done.length, rows.drop done.length, by simp, ?_, ?_⟩
  · simpa using List.forall₂_take done.length h
  · simpa using List.forall₂_drop done.length h

theorem Reading.Covers.mono {done' rest' : List EntryRow} (h : t.Covers done rest)
    (hd : List.Forall₂ ReadAs done done') (hr : List.Forall₂ ReadAs rest rest') :
    t.Covers done' rest' where
  reads := forall₂_readAs_trans h.reads hd
  upTo := by
    rw [ordinals_of_readAs hd]
    exact h.upTo
  beyond := by
    rw [ordinals_of_readAs hr]
    exact h.beyond
  complete hc := by
    obtain rfl := h.complete hc
    cases hr
    rfl

variable {after : Int}

/-- The next page covers the next rows. -/
theorem Reading.Covers.extend {reads page : List EntryRow} {c c' : Bool}
    (h : Reading.Covers ⟨id, reads, after, c⟩ done (page ++ rest))
    (hs : ((page ++ rest).map EntryRow.ordinal).Pairwise (· < ·)) (hc : c' = true → rest = []) :
    Reading.Covers ⟨id, reads ++ page, (page.getLast?.map EntryRow.ordinal).getD after, c'⟩
      (done ++ page) rest := by
  have hreads := List.rel_append h.reads (List.forall₂_same.2 fun r (_ : r ∈ page) => ReadAs.refl r)
  have hbeyond := h.beyond
  rw [List.map_append, List.forall_mem_append] at hbeyond
  rcases List.eq_nil_or_concat' page with rfl | ⟨init, last, rfl⟩
  · exact ⟨hreads, by simpa using h.upTo, hbeyond.2, hc⟩
  · -- the rows are sorted, so the last one of the page separates it from the rest
    rw [List.map_append, List.map_append, List.pairwise_append, List.pairwise_append] at hs
    obtain ⟨⟨-, -, hinit⟩, -, hrest⟩ := hs
    rw [List.getLast?_concat, Option.map_some, Option.getD_some]
    refine ⟨hreads, ?_, fun n hn => hrest _ (by simp) n hn, hc⟩
    rw [List.map_append, List.map_append, List.forall_mem_append, List.forall_mem_append]
    refine ⟨fun n hn => ?_, fun n hn => (hinit n hn _ (by simp)).le, by simp⟩
    exact (h.upTo n hn).trans (hbeyond.1 _ (by simp)).le

/-- In an ordered table the entries after a position are those beyond it. -/
theorem entriesAfter_eq (ho : Ordered w.batch.entries.rows)
    (hrows : w.batch.entries.rows = done ++ rest) (hd : ∀ n ∈ done.map EntryRow.ordinal, n ≤ after)
    (hr : ∀ n ∈ rest.map EntryRow.ordinal, after < n) :
    w.entriesAfter w.batch.row.id after = rest := by
  have hfilter : w.batch.entries.rows.filter (after < ·.ordinal) = rest := by
    rw [List.forall_mem_map] at hd hr
    rw [hrows, List.filter_append, List.filter_eq_nil_iff.2 (by simpa using hd),
      List.filter_eq_self.2 (by simpa using hr), List.nil_append]
  have hsorted : rest.Pairwise fun a b => a.ordinal ≤ b.ordinal := by
    have := ho.sorted
    rw [hrows, List.map_append, List.pairwise_append] at this
    exact (List.pairwise_map.1 this.2.1).imp fun h => le_of_lt h
  rw [World.entriesAfter, if_pos rfl, hfilter, hsorted.insertionSort_eq]

/-- The listing knows one page more. -/
theorem known_page {reads : List EntryRow} {c : Bool} {limit : Nat}
    (ho : Ordered w.batch.entries.rows) (hrows : w.batch.entries.rows = done ++ rest)
    (h : Reading.Covers ⟨w.batch.row.id, reads, after, c⟩ done rest) :
    let page := (w.entriesAfter w.batch.row.id after).take limit
    Reading.Known ⟨w.batch.row.id, reads ++ page,
      (page.getLast?.map EntryRow.ordinal).getD after, page.length < limit⟩ w := by
  have hsorted := ho.sorted
  rw [hrows, List.map_append, List.pairwise_append] at hsorted
  dsimp only
  rw [entriesAfter_eq ho hrows h.upTo h.beyond]
  refine .inr ⟨rfl, done ++ rest.take limit, rest.drop limit, by simp [hrows], ?_⟩
  rw [← List.take_append_drop limit rest] at h
  refine h.extend ?_ fun hc => ?_
  · rw [List.take_append_drop]
    exact hsorted.2.1
  · simp at hc ⊢
    omega

theorem known_listed {limit : Nat} (ho : Ordered w.batch.entries.rows) (ht : t.Known w) :
    (t.listed id after limit (.ok ((w.entriesAfter id after).take limit))).Known w := by
  unfold Reading.listed
  dsimp only
  split
  next hstart =>
    subst hstart
    by_cases hid : w.batch.row.id = id
    · subst hid
      exact known_page (c := false) ho rfl ⟨.nil, by simp, ho.nonneg, nofun⟩
    · refine .inl ?_
      rw [World.entriesAfter, if_neg hid, List.take_nil]
  split
  next hcont =>
    obtain ⟨rfl, rfl, hne⟩ := hcont
    obtain ⟨hid, done, rest, hrows, hcov⟩ := ht.resolve_left hne
    rw [← hid]
    exact known_page ho hrows ⟨hcov.reads, hcov.upTo, hcov.beyond, hcov.complete⟩
  · exact .inl rfl

/-! ### The protocol -/

/-- Every artifact of the batch was rendered from its entries, and what the store holds has one of the
given contents. -/
structure Published (lib : Stdlib) (contents : Set Bytes) (batchID : String) (w : World) :
    Prop where
  id : w.batch.row.id = batchID
  ordered : Ordered w.batch.entries.rows
  objects : ∀ key data, w.objects key = some data → data ∈ contents
  artifacts : ∀ kind data, w.objects (artifactKey lib batchID kind) = some data →
    w.batch.entries.rows ≠ [] ∧ ∃ pub, w.publication (artifactKey lib batchID kind) = some pub ∧
      Describes lib contents w.batch.entries.rows kind pub data

/-- Nobody changes an entry that is finished, and the batch keeps its identity. -/
structure Recognisable (w w' : World) : Prop where
  id : w'.batch.row.id = w.batch.row.id
  spec : w'.batch.row.specDecodes = w.batch.row.specDecodes
  rows : w.batch.entries.rows ≠ [] →
    List.Forall₂ ReadAs w.batch.entries.rows w'.batch.entries.rows

theorem Recognisable.refl (w : World) : Recognisable w w :=
  ⟨rfl, rfl, fun _ => List.forall₂_same.2 fun r _ => .refl r⟩

theorem Recognisable.trans {w₁ w₂ w₃ : World} (h : Recognisable w₁ w₂) (h' : Recognisable w₂ w₃) :
    Recognisable w₁ w₃ where
  id := h'.id.trans h.id
  spec := h'.spec.trans h.spec
  rows hne := by
    have hr := h.rows hne
    refine forall₂_readAs_trans hr (h'.rows ?_)
    rintro h0
    rw [h0] at hr
    exact hne (List.forall₂_nil_right_iff.1 hr)

/-- The protocol between the attempts to finalize the batch. -/
def refinalization (lib : Stdlib) (contents : Set Bytes) (id : String) :
    Protocol (gateway lib) where
  inv := Published lib contents id
  holds _ _ := True
  rely _ := Recognisable
  guar _ _ _ := Recognisable
  peer _ _ := True
  cond := SameRendering contents
  rely_refl _ := Recognisable.refl
  rely_trans _ _ _ _ h h' := h.trans h'
  guar_holds _ _ _ _ _ _ _ _ := trivial
  guar_rely _ _ _ _ _ _ _ _ _ _ h := ⟨h, trivial⟩

variable {c : Call} {r : c.Resp}

theorem recognisable_perform (hp : w.perform env c = some (w', r)) :
    Recognisable w w' := by
  rcases World.batch_perform hp with hb | ⟨st, b, -, -, hb, rfl⟩
  · constructor <;> rw [hb]
    exact fun _ => List.forall₂_same.2 fun r _ => .refl r
  · refine ⟨Stmt.id_exec hb, Stmt.specDecodes_exec hb, fun hne => ?_⟩
    rcases Stmt.rows_exec hb with ⟨a, -, hnil, -⟩ | ⟨f, hf, hev⟩
    · exact absurd hnil hne
    · dsimp only
      rw [hf, List.forall₂_map_right_iff]
      exact List.forall₂_same.2 fun r _ => readAs_of_evolves (hev r)

theorem Reading.Known.mono (h : t.Known w) (hr : Recognisable w w') : t.Known w' := by
  rcases h with h | ⟨hid, done, rest, hrows, hcov⟩
  · exact .inl h
  by_cases hne : w.batch.entries.rows = []
  · left
    have hdone : done = [] := (List.append_eq_nil_iff.1 (hrows.symm.trans hne)).1
    have := hcov.reads
    rw [hdone] at this
    exact List.forall₂_nil_right_iff.1 this
  · have := hr.rows hne
    rw [hrows] at this
    obtain ⟨done', rest', hrows', hd, hrest⟩ := forall₂_append_left this
    exact .inr ⟨hr.id.trans hid, done', rest', hrows', hcov.mono hd hrest⟩

/-! ### Steps -/

theorem not_isResultKey_artifactKey : isResultKey (artifactKey lib id kind) = false := by
  simp only [isResultKey, artifactKey, Stdlib.stableFileID, String.toList_append]
  rfl

variable {key : String}

theorem isResultKey_of_dir {dir : String} (hd : isResultKey dir = true)
    (h : (dir ++ "/").toList.isPrefixOf key.toList = true) : isResultKey key = true := by
  simp only [isResultKey, List.isPrefixOf_iff_prefix, String.toList_append] at hd h ⊢
  exact hd.trans ((List.prefix_append _ _).trans h)

theorem artifact_untouched (ha : g.conduct.allow s c) (hc : c.IsArtifact = false)
    (hp : w.perform env c = some (w', r)) :
    w'.objects (artifactKey lib id kind) = w.objects (artifactKey lib id kind) ∧
      w'.publication = w.publication := by
  have hkey : ∀ key, isResultKey key = true → artifactKey lib id kind ≠ key := by
    rintro _ h rfl
    rw [not_isResultKey_artifactKey] at h
    cases h
  cases c with
  | exec st =>
    rcases World.execStmt_cases (Option.some.inj hp) with ⟨rfl, -⟩ | ⟨b, -, rfl, -⟩ <;>
      exact ⟨rfl, rfl⟩
  | store key data owner =>
    rcases World.storeObject_cases (Option.some.inj hp) with ⟨rfl, -⟩ | ⟨-, rfl⟩
    · exact ⟨rfl, rfl⟩
    · exact ⟨if_neg (hkey key ha), rfl⟩
  | delete key =>
    rcases World.deleteObjects_cases (Option.some.inj hp) with rfl | rfl
    · exact ⟨rfl, rfl⟩
    · exact ⟨if_neg (by simpa using hkey key ha), rfl⟩
  | deleteDir dir =>
    rcases World.deleteObjects_cases (Option.some.inj hp) with rfl | rfl
    · exact ⟨rfl, rfl⟩
    · refine ⟨if_neg fun h => ?_, rfl⟩
      exact hkey _ (isResultKey_of_dir ha h) rfl
  | commitStream | retrieveArtifact => cases hc
  | sendCancelEvent =>
    simp only [World.perform] at hp
    split at hp <;> cases hp <;> exact ⟨rfl, rfl⟩
  | go work =>
    cases hp
    exact ⟨rfl, rfl⟩
  | _ =>
    rw [World.read_perform rfl hp]
    exact ⟨rfl, rfl⟩

theorem contents_perform (hc : SameRendering contents w env g c)
    (h : ∀ key data, w.objects key = some data → data ∈ contents)
    (hp : w.perform env c = some (w', r)) :
    ∀ key data, w'.objects key = some data → data ∈ contents := by
  intro key data hd
  rcases World.objects_perform hp hd with hold | ⟨owner, rfl⟩ | ⟨publication, rfl⟩
  · exact h key data hold
  · exact hc
  · exact hc

theorem activate_ordered {a : ResumableActivation} (h : g.Allows s (.activate a)) :
    a.entries.Pairwise (·.ordinal < ·.ordinal) ∧ ∀ e ∈ a.entries, 0 ≤ e.ordinal := by
  cases g <;> first | exact h.2.2.2 | simp [Actor.Allows] at h

theorem ordered_perform (ha : g.conduct.allow s c) (ho : Ordered w.batch.entries.rows)
    (hp : w.perform env c = some (w', r)) :
    Ordered w'.batch.entries.rows := by
  rcases World.batch_perform hp with hb | ⟨st, b, rfl, -, hb, rfl⟩
  · rwa [hb]
  · rcases Stmt.rows_exec hb with ⟨a, rfl, -, hrows⟩ | ⟨f, hf, hev⟩
    · obtain ⟨hsorted, hnonneg⟩ := activate_ordered ha
      dsimp only
      rw [hrows]
      refine ⟨?_, ?_⟩
      · rw [List.map_map, List.pairwise_map]
        exact hsorted
      · rw [List.map_map, List.forall_mem_map]
        intro e he
        have := hnonneg e he
        simp only [Function.comp, activationRow]
        omega
    · refine ho.mono ?_
      dsimp only
      rw [hf, List.forall₂_map_right_iff]
      exact List.forall₂_same.2 fun r _ => readAs_of_evolves (hev r)

/-- A complete listing is the whole table as it was read. -/
theorem Reading.Known.describes {pub : Publication} {content : Bytes} (h : t.Known w)
    (hpub : t.Publishes lib contents kind key pub content) :
    w.batch.row.id = t.id ∧ w.batch.entries.rows ≠ [] ∧
      Describes lib contents w.batch.entries.rows kind pub content := by
  obtain ⟨hid, done, rest, hrows, hcov⟩ := h.resolve_left hpub.reads
  obtain rfl := hcov.complete hpub.complete
  rw [List.append_nil] at hrows
  have hreads := hrows ▸ hcov.reads
  refine ⟨hid, fun hnil => hpub.reads ?_, t.reads, hreads, hpub.unfinished, hpub.renders⟩
  rw [hnil] at hreads
  exact List.forall₂_nil_right_iff.1 hreads

theorem Published.publish {data : Bytes} {pub : Publication}
    (hkeys : Function.Injective (artifactKey lib id)) (hw : Published lib contents id w)
    (ht : t.Known w) (hpub : t.Publishes lib contents kind key pub data) (hdata : data ∈ contents) :
    Published lib contents id { w with
      objects := fun k => if k = key then some data else w.objects k
      publication := fun k => if k = key then some pub else w.publication k } := by
  obtain ⟨hid, hne, hdesc⟩ := ht.describes hpub
  obtain rfl : key = artifactKey lib id kind := by rw [hpub.key, ← hid, hw.id]
  refine ⟨hw.id, hw.ordered, fun k d hk => ?_, fun kind' d hd => ?_⟩
  · dsimp only at hk
    split at hk
    · cases hk
      exact hdata
    · exact hw.objects k d hk
  · by_cases hk : kind' = kind
    · subst hk
      simp only [if_true, Option.some.injEq] at hd ⊢
      subst hd
      exact ⟨hne, pub, rfl, hdesc⟩
    · have hk' : artifactKey lib id kind' ≠ artifactKey lib id kind := fun h => hk (hkeys h)
      simp only [if_neg hk'] at hd ⊢
      exact hw.artifacts kind' d hd

theorem published_step (hkeys : Function.Injective (artifactKey lib id))
    (hw : Published lib contents id w) (ht : t.Known w) (ha : g.conduct.allow s c)
    (hat : (assembly lib contents).allow t c) (hc : SameRendering contents w env g c)
    (hp : w.perform env c = some (w', r)) : Published lib contents id w' := by
  have hrec := recognisable_perform hp
  cases hart : c.IsArtifact with
  | false =>
    refine ⟨hrec.id.trans hw.id, ordered_perform ha hw.ordered hp, contents_perform hc hw.objects hp,
      fun kind data hd => ?_⟩
    obtain ⟨hobj, hpub⟩ : w'.objects (artifactKey lib id kind) = _ ∧ w'.publication = _ :=
      artifact_untouched ha hart hp
    rw [hobj] at hd
    obtain ⟨hne, pub, hpub', hdesc⟩ := hw.artifacts kind data hd
    have hrows := hrec.rows hne
    refine ⟨fun hnil => hne ?_, pub, by rw [hpub, hpub'], hdesc.mono hrows⟩
    rw [hnil] at hrows
    exact List.forall₂_nil_right_iff.1 hrows
  | true =>
    cases c <;> simp only [Call.IsArtifact, Bool.false_eq_true] at hart
    case commitStream key data pub =>
      obtain ⟨kind, hpub⟩ := hat
      rcases World.publish_cases (Option.some.inj hp) with rfl | ⟨-, rfl⟩
      · exact hw
      · exact hw.publish hkeys ht hpub hc
    case retrieveArtifact => rwa [World.read_perform rfl hp]

theorem known_step (hw : Published lib contents id w) (ht : t.Known w)
    (hp : w.perform env c = some (w', r)) : ((assembly lib contents).next t c r).Known w' := by
  have hmono := ht.mono (recognisable_perform hp)
  cases c with
  | listEntries id after limit =>
    cases hp
    change (t.listed id after limit (World.read env _)).Known w
    unfold World.read
    split
    · exact known_listed hw.ordered ht
    · exact hmono
  | _ => exact hmono

theorem mem_entriesAfter {e : EntryRow} (h : e ∈ w.entriesAfter id after) :
    e ∈ w.batch.entries.rows := by
  unfold World.entriesAfter at h
  split at h
  · rw [List.mem_insertionSort] at h
    exact (List.mem_filter.1 h).1
  · cases h

/-- The world answers as a finalization expects. -/
theorem assembly_answer (hsha : Set.InjOn lib.sha256 contents) (hw : Published lib contents id w)
    (ht : t.Known w) (hc : SameRendering contents w env g c) (hp : w.perform env c = some (w', r)) :
    (assembly lib contents).answer t c r := by
  refine ⟨fun e he => ?_, ?_⟩
  · rcases World.ordinary_perform hp he with h | h <;> simp [h]
  cases c with
  | listEntries id after limit =>
    cases hp
    rintro page hpage e he
    change World.read env _ = _ at hpage
    unfold World.read at hpage
    split at hpage <;> cases hpage
    exact hw.ordered.nonneg _ (List.mem_map_of_mem (mem_entriesAfter (List.mem_of_mem_take he)))
  | retrieve key =>
    cases hp
    rintro data hdata
    exact hw.objects key data (World.objects_of_retrieve hdata)
  | retrieveArtifact key pub =>
    cases hp
    rintro data hdata kind content hpub
    have hobj := World.objects_of_retrieve hdata
    obtain ⟨hid, hne, hdesc⟩ := ht.describes hpub
    obtain rfl : key = artifactKey lib id kind := by rw [hpub.key, ← hid, hw.id]
    obtain ⟨-, pub', hpub', hdesc'⟩ := hw.artifacts kind data hobj
    obtain ⟨hu, hcode⟩ := hc pub' hpub'
    exact (hdesc.unique hsha w.batch.entries.primaryKey hdesc' hu hcode).symm
  | _ => trivial

/-! ### Runs -/

/-- Every thread keeps to both disciplines, and a pickup never complains about an artifact. -/
theorem code_assembles (lib : Stdlib) (contents : Set Bytes) (g : Actor) :
    (g.code lib).Obeys (g.conduct.prod (assembly lib contents))
      (fun r _ => g.polls = true → NoMismatch r) ({}, {}) := by
  cases hg : g.polls with
  | true =>
    cases g <;> cases hg
    exact ((code_obeys lib _).prod (pollJob_agrees {})).mono fun r st h _ => h.2
  | false =>
    refine ((code_obeys lib g).prod_of_allow fun s t c hc => ?_).mono fun _ _ _ h => nomatch h
    cases c <;> first | exact trivial | exact absurd (hg.symm.trans hc) (by decide)

theorem refinalization_starts (hsha : Set.InjOn lib.sha256 contents)
    (hkeys : Function.Injective (artifactKey lib id)) :
    (refinalization lib contents id).Starts fun g r _ => g.polls = true → NoMismatch r := by
  intro env g w w' hw hstart
  have hsame : w'.batch.row.id = w.batch.row.id ∧ w'.batch.row.specDecodes = w.batch.row.specDecodes ∧
      w'.batch.entries = w.batch.entries ∧ w'.objects = w.objects ∧
      w'.publication = w.publication := by
    rcases Actor.start_cases hstart with ⟨p, task, -, hcl⟩ | ⟨-, rfl, -⟩
    · exact ⟨hcl.id.1, hcl.spec, hcl.entries, hcl.objects.1, hcl.objects.2⟩
    · exact ⟨rfl, rfl, rfl, rfl, rfl⟩
  obtain ⟨hid, hspec, hentries, hobjects, hpub⟩ := hsame
  have hw' : Published lib contents id w' := by
    constructor
    · exact hid.trans hw.id
    · rw [hentries]
      exact hw.ordered
    · rw [hobjects]
      exact hw.objects
    · rw [hobjects, hpub, hentries]
      exact hw.artifacts
  have hrec : Recognisable w w' := by
    refine ⟨hid, hspec, fun _ => ?_⟩
    rw [hentries]
    exact List.forall₂_same.2 fun r _ => .refl r
  have hsafe : (refinalization lib contents id).Triple g
      (fun w => Held.Copies {} w ∧ Reading.Known {} w) (g.code lib)
      fun r _ => g.polls = true → NoMismatch r := by
    refine (Protocol.triple_of_obeys (T := fun st w => st.1.Copies w ∧ st.2.Known w) ?_ ?_
      (code_assembles lib contents g)).post fun _ _ _ _ ⟨_, _, h⟩ => h
    · exact fun st w w' _ _ hr h => ⟨fun it hit => (h.1 it hit).trans hr.spec.symm, h.2.mono hr⟩
    · intro st w e c w₂ r hw _ h ha hc hp
      exact ⟨published_step hkeys hw h.2 ha.1 ha.2 hc hp, recognisable_perform hp,
        ⟨answer_of_perform h.1 hp, assembly_answer (g := g) hsha hw h.2 hc hp⟩,
        copies_of_perform (g := g) h.1 hp, known_step hw h.2 hp⟩
  exact ⟨hw', trivial, hsafe w' hw' trivial ⟨by simp [Held.Copies], .inl rfl⟩, fun g' _ =>
    ⟨trivial, trivial, hrec, trivial⟩⟩

/-- The two artifacts of a batch have different keys when the identifiers behind them differ. -/
theorem artifactKey_injective
    (h : lib.uuidSHA1 (id ++ "\x00output") ≠ lib.uuidSHA1 (id ++ "\x00error")) :
    Function.Injective (artifactKey lib id) := by
  have hne : artifactKey lib id .output ≠ artifactKey lib id .error := by
    intro he
    simp only [artifactKey, Stdlib.stableFileID, ArtifactKind.text, String.append_assoc,
      String.append_right_inj, String.append_left_inj] at he
    exact h he
  intro a b hab
  cases a <;> cases b <;> first | rfl | exact absurd hab hne | exact absurd hab.symm hne

/-- A pickup ended because a published artifact differs from what it would have published. -/
def Blocked (th : Thread Actor Call Call.Resp (Except Err Unit)) : Prop :=
  th.who.polls = true ∧ match th.code with
    | some (.ret (.error e)) => e.kind = .mismatch
    | _ => False

instance (th : Thread Actor Call Call.Resp (Except Err Unit)) : Decidable (Blocked th) := by
  unfold Blocked
  cases th.code with
  | none => infer_instance
  | some m =>
    cases m with
    | ret r => cases r <;> infer_instance
    | call c k => infer_instance

/-- Nobody is blocked by an artifact, as long as each comparison finds the same requests unfinished
as the publication did and uses the same code for them. The digests of what the store holds do not
collide, and the store has no artifact of the batch yet. -/
theorem refinalization_agrees (lib : Stdlib) (w : World) (row : BatchRow) (contents : Set Bytes)
    (hsha : Set.InjOn lib.sha256 contents)
    (hfiles : lib.uuidSHA1 (row.id ++ "\x00output") ≠ lib.uuidSHA1 (row.id ++ "\x00error"))
    (hobjects : ∀ key data, w.objects key = some data → data ∈ contents)
    (hnew : ∀ kind, w.objects (artifactKey lib row.id kind) = none)
    {ls : List (Label Env Actor)} {pool : GatewayPool}
    (hc : Along (gateway lib).step (StepCond (SameRendering contents)) (initial w row) ls)
    (hp : exec (gateway lib).step (initial w row) ls = some pool) :
    ∀ th ∈ pool.threads, ¬ Blocked th := by
  have hw : Published lib contents row.id (initial w row).world :=
    ⟨rfl, ⟨.nil, by simp [initial]⟩, hobjects, fun kind data hd => nomatch (hnew kind).symm.trans hd⟩
  have hok := Protocol.ok_exec (refinalization_starts hsha (artifactKey_injective hfiles))
    (Protocol.ok_empty hw) hc hp
  rintro ⟨g, m⟩ hth ⟨hpoll, hb⟩
  obtain ⟨i, hi⟩ := List.getElem?_of_mem hth
  split at hb
  next e hm =>
    cases hm
    exact hok.safe i _ _ hi rfl pool.world hok.inv trivial (.refl _) hpoll hb
  next => exact hb

/-- The only request of the batch is never executed. When the batch expires, its owner publishes the
error artifact and crashes. -/
def interruptedExpiry : List (Label Env Actor) :=
  ingestionRun "m" ++ steps 0 4 ++
    [.run 0 { now := 2000, outcome := .error ⟨"batch job expired", .expired⟩ },
      .run 0 { now := 2000, count := 1 }] ++ steps 0 4 { now := 2000 } ++ [.crash 0]

/-- The reconciler, thread `i`, puts the batch back into the queue. -/
def requeueRun (i : Nat) : List (Label Env Actor) :=
  [.spawn {} (.reconcile {})] ++ steps i 5 { now := 2000 }

/-- The next owner, thread `i`, finalizes the batch up to the comparison of the error artifact. -/
def retryRun (i : Nat) (status : BatchStatus) : List (Label Env Actor) :=
  [.spawn { now := 2000 } (.poll (sampleProcessor "q")
    ⟨"batch_1", 1000, 3, "q", some status, 0, true⟩)] ++
    steps i 4 { now := 2000 } ++ [.run i { now := 2000, count := 1 }] ++ steps i 3 { now := 2000 }

/-- Before the batch is requeued, it is cancelled. -/
def cancelledRetry : List (Label Env Actor) :=
  interruptedExpiry ++
  [.spawn {} (.cancel "batch_1")] ++ steps 1 5 { now := 2000 } ++
  requeueRun 2 ++ retryRun 3 .cancelling

theorem cancelledRetry_blocked :
    ∃ pool ∈ exec (gateway .sample).step sampleInitial cancelledRetry,
      ∃ th ∈ pool.threads, Blocked th := by
  decide +kernel

/-- Nobody cancels the batch, and its next owner finds it expired again. -/
def expiredRetry : List (Label Env Actor) :=
  interruptedExpiry ++ requeueRun 1 ++ retryRun 2 .inProgress ++
  steps 2 4 { now := 2000 }

theorem expiredRetry_agrees :
    ∃ pool ∈ exec (gateway .sample).step sampleInitial expiredRetry,
      pool.world.batch.row.status.status = .expired ∧ ∀ th ∈ pool.threads, ¬ Blocked th := by
  obtain ⟨pool, hp, hstatus⟩ :
      ∃ pool ∈ exec (gateway .sample).step sampleInitial expiredRetry,
        pool.world.batch.row.status.status = .expired := by
    decide +kernel
  exact ⟨pool, hp, hstatus, refinalization_agrees .sample _ sampleRow
    {d | d = Stdlib.textBytes (Stdlib.sampleNotExecutedLine .batchExpired)}
    (fun a ha b hb _ => ha.trans hb.symm) (by decide) (fun _ _ h => by cases h)
    (fun _ => rfl) (by decide +kernel) hp⟩

end BatchGateway
