import BatchGateway.Pipeline.Input
import BatchGateway.Pipeline.Provenance

/-! An activated batch can be resumed: its entries stay those of the manifest, and an entry that
failed without having been marked in flight was rejected at ingestion. This rests on the fence: a
request whose fence failed gets an error result all the same. -/
namespace BatchGateway

open Interleaving GoJson

/-! ### Entries and manifest -/

theorem matches_activate (now : Time) (es : List ManifestEntry) :
    List.Forall₂ EntryRow.Matches ((es.map ManifestEntry.activationEntry).map (activationRow now))
      es := by
  induction es with
  | nil => exact .nil
  | cons m es ih =>
    refine .cons ⟨?_, ?_, ?_, ?_⟩ ih
    · simp [activationRow]
    · simp [activationRow]
    · unfold ManifestEntry.activationEntry
      split <;> rfl
    · rw [activationRow, ManifestEntry.activationEntry_status]
      cases hr : m.rejected <;> simp

theorem forall₂_map_of_mem {α β : Type} {R : α → β → Prop} {f : α → α} {l : List α} {l' : List β}
    (h : List.Forall₂ R l l') (hf : ∀ a ∈ l, ∀ b, R a b → R (f a) b) :
    List.Forall₂ R (l.map f) l' := by
  induction h with
  | nil => exact .nil
  | cons hr _ ih =>
    exact .cons (hf _ List.mem_cons_self _ hr) (ih fun a ha => hf a (List.mem_cons_of_mem _ ha))

/-- A statement keeps an entry at its line, if it commits only marked entries. -/
theorem Stmt.Evolves.matches {now : Time} {s : Stmt} {row row' : EntryRow} {m : ManifestEntry}
    (h : s.Evolves now row row') (hm : row.Matches m)
    (hcommit : ∀ id p n result, s = .checkpoint id row.requestID p n result → row.IsOpen →
      1 ≤ row.attempts) : row'.Matches m := by
  obtain ⟨hid, hord, hcustom, hrej⟩ := hm
  have hopen : row.IsOpen → m.rejected = false := by
    intro ho
    by_contra hr
    rw [EntryRow.IsOpen, (hrej.1 (by simpa using hr)).1] at ho
    cases ho
  cases h with
  | same => exact ⟨hid, hord, hcustom, hrej⟩
  | mark hq ho => exact ⟨hid, hord, hcustom, by simp [hopen ho, EntryRow.mark]⟩
  | commit hq ho =>
    refine ⟨hid, hord, hcustom, ?_⟩
    have := hcommit _ _ _ _ (by rw [hq]) ho
    simp only [hopen ho, EntryRow.commit, Bool.false_eq_true, false_iff, not_and]
    omega
  | submitter => exact ⟨hid, hord, hcustom, hrej⟩

/-- The batch was not activated yet, or its entries are those of the manifest. -/
def World.Intact (es : List ManifestEntry) (w : World) : Prop :=
  w.batch.entries.rows = [] ∨ List.Forall₂ EntryRow.Matches w.batch.entries.rows es

variable {w w' : World} {es : List ManifestEntry}

theorem World.Intact.perform {env : Env} {c : Call} {a : c.Resp} (h : w.Intact es)
    (hp : w.perform env c = some (w', a)) (hact : ∀ act, c = .exec (.activate act) →
      act.entries = es.map ManifestEntry.activationEntry)
    (hcommit : ∀ id p n result, ∀ row ∈ w.batch.entries.rows,
      c = .exec (.checkpoint id row.requestID p n result) → env.fault ≠ .before → row.IsOpen →
      1 ≤ row.attempts) : w'.Intact es := by
  rcases batch_perform hp with hb | ⟨s, b, rfl, hc, hs, rfl⟩
  · unfold World.Intact
    rw [hb]
    exact h
  · have hf : env.fault ≠ .before := by
      intro hf
      simp [World.commits, hf] at hc
    rcases Stmt.rows_exec hs with ⟨act, rfl, -, hrows⟩ | ⟨f, hrows, hev⟩
    · right
      dsimp only
      rw [hrows, hact act rfl]
      exact matches_activate env.now es
    · rcases h with h | h
      · left
        dsimp only
        rw [hrows, h, List.map_nil]
      · right
        dsimp only
        rw [hrows]
        refine forall₂_map_of_mem h fun row hr m hm => (hev row).matches hm ?_
        rintro id p n result rfl ho
        exact hcommit id p n result row hr rfl hf ho

/-- The batch has its entries. -/
def World.Activated (es : List ManifestEntry) (w : World) : Prop :=
  w.batch.entries.rows = [] → es = []

/-- Both the table and the check know the entries in line order. -/
theorem World.Intact.integrity {manifest : RequestManifest} (h : w.Intact manifest.entries)
    (ha : w.Activated manifest.entries) (hm : manifest.WellFormed) :
    checkManifestIntegrity manifest (w.entriesAfter w.batch.row.id (-1)) = .ok () := by
  have hmatch : List.Forall₂ EntryRow.Matches w.batch.entries.rows manifest.entries := by
    rcases h with h | h
    · rw [h, ha h]
      exact .nil
    · exact h
  have hordinals : w.batch.entries.rows.map EntryRow.ordinal =
      manifest.entries.map ManifestEntry.ordinal := by
    generalize w.batch.entries.rows = rows at hmatch
    generalize manifest.entries = es at hmatch
    induction hmatch with
    | nil => rfl
    | cons hr _ ih => rw [List.map_cons, List.map_cons, ih, hr.2.1]
  have hsorted : w.batch.entries.rows.Pairwise (·.ordinal < ·.ordinal) := by
    rw [← List.pairwise_map (f := EntryRow.ordinal) (R := (· < ·)), hordinals, List.pairwise_map]
    exact hm.ordered
  have hnonneg : ∀ row ∈ w.batch.entries.rows, -1 < row.ordinal := by
    intro row hr
    have hmem : row.ordinal ∈ manifest.entries.map ManifestEntry.ordinal := by
      rw [← hordinals]
      exact List.mem_map_of_mem hr
    obtain ⟨m, hmem, hm'⟩ := List.mem_map.1 hmem
    have := hm.nonneg m hmem
    omega
  have hlist : w.entriesAfter w.batch.row.id (-1) = w.batch.entries.rows := by
    unfold World.entriesAfter
    rw [if_pos rfl, List.filter_eq_self.2 (by simpa using hnonneg)]
    exact (hsorted.imp fun h => Int.le_of_lt h).insertionSort_eq
  rw [hlist, checkManifestIntegrity_iff]
  exact hmatch

/-! ### Results for requests that passed the fence -/

/-- A failure of the request does no harm: it will not be committed, or the entry was marked or
finished before, or there is no such entry. -/
def Harmless (es : List ManifestEntry) (cause : Option Cause) (w : World) (q : String) : Prop :=
  cause.isSome ∨ Attempted q w ∨ HasTerminal q w ∨ ∀ m ∈ es, m.requestID ≠ q

/-- Results are for requests that passed the fence. -/
def Token.Fenced (es : List ManifestEntry) (cause : Option Cause) (w : World) : Token → Prop
  | .answered d | .accepted d => Harmless es cause w d.item.requestID
  | .result d => d.Own → Harmless es cause w d.item.requestID
  | _ => True

theorem Harmless.mono {cause cause' : Option Cause} {q : String} (h : Harmless es cause w q)
    (hc : cause.isSome → cause'.isSome) (he : w.Evolves w') : Harmless es cause' w' q := by
  rcases h with h | h | h | h
  · exact .inl (hc h)
  · exact .inr (.inl (h.evolves he))
  · exact .inr (.inr (.inl (h.evolves he)))
  · exact .inr (.inr (.inr h))

/-- An open entry of a running execution was marked. -/
theorem Harmless.attempted {row : EntryRow} (h : Harmless es none w row.requestID)
    (hr : row ∈ w.batch.entries.rows) (ho : row.IsOpen) (hw : w.Intact es) : 1 ≤ row.attempts := by
  rcases h with h | ⟨row', hr', hq, ha⟩ | ⟨row', hr', hq, ht⟩ | h
  · cases h
  · rwa [← EntryTable.eq_of_requestID hr' hr hq]
  · rw [EntryTable.eq_of_requestID hr' hr hq, (ho : row.status.isTerminal = false)] at ht
    cases ht
  · rcases hw with hw | hw
    · rw [hw] at hr
      cases hr
    · obtain ⟨m, hm, hmatch⟩ := exists_mem_of_forall₂ hw hr
      exact absurd hmatch.1.symm (h m hm)

theorem Token.Fenced.mono {cause cause' : Option Cause} {t : Token} (h : t.Fenced es cause w)
    (hc : cause.isSome → cause'.isSome) (he : w.Evolves w') : t.Fenced es cause' w' := by
  cases t with
  | answered d | accepted d => exact Harmless.mono h hc he
  | result d => exact fun ho => (h ho).mono hc he
  | _ => trivial

/-- One turn, when failing fences do no harm. -/
theorem Turn.fenced {S : Setup} {sc : Scene} {x y : Multiset Token} {p p' : PendingRequests}
    {n n' : Nat} {good : GenerateResponse → Prop} {submitted : List String}
    (h : Turn S sc x p n y p' n') (ha : ∀ d, sc.arrives d → d.Received S good submitted)
    (hu : ∀ msg, sc.unfenced msg → Harmless es sc.cause sc.world msg.requestID)
    (hparse : ∀ msg, .ok msg ∈ sc.cfg.requests → msg.parseError.isSome →
      ∀ m ∈ es, m.requestID ≠ msg.requestID)
    (hk : ∀ t ∈ x, t.Known S good sc.cfg submitted sc.world)
    (hp : ∀ msg ∈ p, .ok msg ∈ sc.cfg.requests ∧ Attempted msg.requestID sc.world)
    (hx : ∀ t ∈ x, t.Fenced es sc.cause sc.world) : ∀ t ∈ y, t.Fenced es sc.cause sc.world := by
  have hone : ∀ {t : Token}, t.Fenced es sc.cause sc.world →
      ∀ t' ∈ ({t} : Multiset Token), t'.Fenced es sc.cause sc.world := by
    intro t ht t' hm
    rwa [Multiset.mem_singleton.1 hm]
  have hself : ∀ {t : Token}, x = {t} → t ∈ x := fun hxt => by simp [hxt]
  cases h with
  | stay | lose | drop | submit | ignore | ack => exact fun t ht => absurd ht (Multiset.notMem_zero t)
  | launch =>
    intro t ht
    obtain ⟨line, -, rfl⟩ := mem_bagOf.1 ht
    cases line <;> trivial
  | cancelFresh hc | cancelMarked hc => exact hone fun _ => .inl hc
  | overrule hc => exact hone (.inl hc)
  | collect hc =>
    intro t ht
    obtain ⟨msg, hm, rfl⟩ := mem_bagOf.1 ht
    exact fun _ => .inr (.inl (hp msg hm).2)
  | reject he =>
    exact hone fun _ => .inr (.inr (.inr (hparse _ (hk _ (hself rfl)) (by rw [he]; rfl))))
  | unfenced hm => exact hone fun _ => hu _ hm
  | mark | store | acquire | settle | resolve => exact hone trivial
  | unknown | unsubmitted => exact hone fun _ => .inr (.inl (hk _ (hself rfl)).2)
  | unanswered => exact hone (.inr (.inl (hk _ (hself rfl)).2))
  | @answer msg resp err =>
    obtain ⟨response, error, he⟩ := S.bodies.buildResult_eq msg resp err
    rw [he]
    exact hone (.inr (.inl (hk (.admitted msg) (hself rfl)).2))
  | release => exact hone fun _ => hx _ (hself rfl)
  | receive hd =>
    obtain ⟨resp, -, -, hitem, -, -⟩ := ha _ hd
    exact hone fun ho => absurd (by rw [hitem, BodyCodec.asyncResult_customID]) ho
  | @accept d d' _ _ hd =>
    refine hone ?_
    rcases PendingRequests.enrich_cases hd with ⟨rfl, ho⟩ | ⟨rfl, -, msg, hm, hid⟩ |
      ⟨-, -, msg, hm, hid, rfl⟩
    · exact hx _ (hself rfl) ho
    · exact .inr (.inl (hid ▸ (hp msg hm).2))
    · exact .inr (.inl (hid ▸ (hp msg hm).2))

/-! ### The whole system -/

variable {S : Setup} {h h' : Hub S} {e : Event S}

/-- The request whose fence failed, with another error than a conflict. -/
def PrePC.unfenced : PrePC → Option RequestItem
  | .mark msg (.ret (.error err)) => if err.isConflict then none else some msg
  | _ => none

/-- The pre-dispatcher that takes the step. -/
def Participant.preDispatcher : Participant S → Option (Fin S.jobs)
  | .run j .pre => some j
  | _ => none

/-- Where the fence of a request failed before the step, the dispatch was already stopped, or the
entry was marked or finished before. -/
def Hub.FenceHolds (h : Hub S) (e : Event S) : Prop :=
  ∀ j ∈ e.who.preDispatcher, ∀ msg ∈ (h.runs j).pre.unfenced,
    (h.runs j).dispatchCause.isSome ∨ Attempted msg.requestID (h.worlds (S.batch j)) ∨
      HasTerminal msg.requestID (h.worlds (S.batch j))

instance (q : String) (w : World) : Decidable (Attempted q w) :=
  inferInstanceAs (Decidable (∃ row ∈ _, _))

instance (q : String) (w : World) : Decidable (HasTerminal q w) :=
  inferInstanceAs (Decidable (∃ row ∈ _, _))

instance (h : Hub S) (e : Event S) : Decidable (h.FenceHolds e) :=
  inferInstanceAs (Decidable (∀ j ∈ _, _))

variable {codec : Codec} {icfg : Fin S.jobs → IngestConfig} {input : Fin S.batches → Bytes}
  {id : Fin S.batches → String}

/-- The entries are those of the manifest, and so are the results on their way. -/
structure Hub.Intact (id : Fin S.batches → String) (h : Hub S) : Prop where
  ids : ∀ i, (h.worlds i).batch.row.id = id i
  traced : h.Traced fun _ => True
  tokens : ∀ j, ∀ t ∈ (h.runs j).bag,
    t.Fenced (S.config j).manifest.entries (h.runs j).dispatchCause (h.worlds (S.batch j))
  entries : ∀ j, (h.worlds (S.batch j)).Intact (S.config j).manifest.entries

theorem Hub.Initial.intact (hi : h.Initial) (hid : ∀ i, (h.worlds i).batch.row.id = id i) :
    h.Intact id where
  ids := hid
  traced := hi.traced
  tokens j := by
    rw [hi.runs]
    exact fun t ht => absurd ht (Multiset.notMem_zero t)
  entries j := .inl (hi.entries _)

theorem World.id_perform {env : Env} {c : Call} {a : c.Resp} (hp : w.perform env c = some (w', a)) :
    w'.batch.row.id = w.batch.row.id := by
  rcases batch_perform hp with hb | ⟨s, b, rfl, -, hs, rfl⟩
  · rw [hb]
  · exact Stmt.id_exec hs

theorem Setup.id_step (hs : S.step h e = some h') (hh : h.Sound) (i : Fin S.batches) :
    (h'.worlds i).batch.row.id = (h.worlds i).batch.row.id := by
  rcases S.world_step hs hh i with hw | ⟨env, c, a, hp, -⟩
  · rw [hw]
  · exact World.id_perform hp

theorem Setup.intact_step (hin : S.Inputs codec icfg input id)
    (hcfg : ∀ j j', S.batch j' = S.batch j → icfg j' = icfg j) (hs : S.step h e = some h')
    (hf : h.FenceHolds e) (hh : h.Intact id) : h'.Intact id := by
  have hev := S.evolves_step hs
  refine ⟨fun i => (S.id_step hs hh.traced.sound i).trans (hh.ids i),
    S.traced_step hs (fun _ _ _ => trivial) hh.traced, fun j => ?_, fun j => ?_⟩
  · obtain ⟨x, y, ht, hx, hbag⟩ := (S.moves_step hs hh.traced.sound j).turn
    have hcause : (h.runs j).dispatchCause.isSome → (h'.runs j).dispatchCause.isSome :=
      S.dispatchCause_step hs
    have hold : ∀ t ∈ (h.runs j).bag, t.Fenced (S.config j).manifest.entries
        (h'.runs j).dispatchCause (h.worlds (S.batch j)) :=
      fun t ht => (hh.tokens j t ht).mono hcause (.refl _)
    have harrive : ∀ d, (h.scene e h' j).arrives d →
        d.Received S (fun _ => True) h.shared.submitted := by
      rintro d ⟨b, js, hb⟩
      exact hh.traced.held b d (by rw [hb]; rfl)
    have hunfenced : ∀ msg, (h.scene e h' j).unfenced msg →
        Harmless (S.config j).manifest.entries (h'.runs j).dispatchCause
          (h.worlds (S.batch j)) msg.requestID := by
      rintro msg ⟨hw, err, hpc, hconf⟩
      rcases hf j (by rw [hw]; rfl) msg (by simp [hpc, PrePC.unfenced, hconf]) with hc | ha | ht
      · exact .inl (hcause hc)
      · exact .inr (.inl ha)
      · exact .inr (.inr (.inl ht))
    have hy := ht.fenced harrive hunfenced
      (fun msg hmsg he m hm hq => (hin.ingested j).parseError hmsg he m hm hq.symm)
      (fun t ht => hh.traced.tokens j t (hx t ht)) (hh.traced.pending j)
      (fun t ht => hold t (hx t ht))
    exact fun t hm => ((hbag t hm).elim (hold t) (hy t)).mono (fun hc => hc) (hev _)
  · rcases S.world_step hs hh.traced.sound (S.batch j) with hw | ⟨env, c, a, hp, -, hcalls⟩
    · rw [hw]
      exact hh.entries j
    · refine (hh.entries j).perform hp (fun act hc => ?_)
        fun q p n result row hr hc hfault ho => ?_
      · subst hc
        cases hcalls with
        | other hc => cases hc
        | @prepare j' _ hj hc =>
          obtain ⟨act', hact, hentries, -⟩ := hc
          cases hact
          rw [hentries, hin.manifest_eq hj (hcfg _ _ hj)]
          rfl
        | mark _ _ _ hc => cases hc
        | checkpoint _ _ _ hc =>
          obtain ⟨_, -, hchk⟩ := hc
          cases hchk
      · subst hc
        cases hcalls with
        | other hc => cases hc
        | prepare _ _ hc =>
          obtain ⟨_, hact, -⟩ := hc
          cases hact
        | mark _ _ _ hc => cases hc
        | @checkpoint j' d t _ hj hpc hc hg =>
          obtain ⟨key, -, hchk⟩ := hc
          simp only [Stmt.checkpoint.injEq] at hchk
          obtain ⟨-, hq, -⟩ := hchk
          have hdispatch := (hh.traced.sound.control j').dispatching hpc (hg _ rfl hfault)
          have hharmless : Harmless _ _ _ _ :=
            hh.tokens j' (.accepted d) (Run.mem_bag_of_drain (by simp [hpc, DrainPC.bag]))
          rw [← hq, hdispatch, hj, hin.manifest_eq hj (hcfg _ _ hj)] at hharmless
          exact hharmless.attempted hr ho (hh.entries j)

/-- In every run in which a failing fence never leaves an unmarked entry to a running execution,
every activated batch can be resumed in every state. -/
theorem integrity_of_fences {h₀ : Hub S} (hin : S.Inputs codec icfg input id)
    (hcfg : ∀ j j', S.batch j' = S.batch j → icfg j' = icfg j) (hi : h₀.Initial)
    (hid : ∀ i, (h₀.worlds i).batch.row.id = id i) (es : List (Event S))
    (hf : Along S.step Hub.FenceHolds h₀ es) (hs : exec S.step h₀ es = some h) (j : Fin S.jobs)
    (ha : (h.worlds (S.batch j)).Activated (S.config j).manifest.entries) :
    checkManifestIntegrity (S.config j).manifest
      ((h.worlds (S.batch j)).entriesAfter (S.config j).batchID (-1)) = .ok () := by
  have hh : h.Intact id := along_invariant (I := Hub.Intact id)
    (fun h e h' hh hf hs => S.intact_step hin hcfg hs hf hh) hf hs (hi.intact hid)
  rw [hin.batchID, ← hh.ids]
  exact (hh.entries j).integrity ha (hin.ingested j).wellFormed

/-- The only line of an input file fails at the fence, and the error becomes its result. -/
def fenceLine (fault : Fault) : List (Event (.sample [.ofLine])) :=
  Event.start ⟨0, by decide⟩ ++ Event.fence ⟨0, by decide⟩ { fault := fault } ++
    [.run ⟨0, by decide⟩ .drain, .run ⟨0, by decide⟩ .drain, .call ⟨0, by decide⟩ .drain,
      .call ⟨0, by decide⟩ .drain, .call ⟨0, by decide⟩ .drain]

theorem inputs_ofLine : (Setup.sample [.ofLine]).Inputs oneModelCodec (fun _ => sampleIngestConfig)
    (fun _ => sampleRequestLine oneModel) (fun _ => "batch_1") :=
  Setup.inputs_sample rfl RunConfig.ingested_ofLine

/-- The fence failed after it had marked the entry. -/
theorem fenceLine_after_integrity :
    ∃ h, exec (Setup.sample [.ofLine]).step (.sample [.ofLine]) (fenceLine .after) = some h ∧
      (h.worlds ⟨0, by decide⟩).batch.entries.rows.map EntryRow.status = [.failed] ∧
      checkManifestIntegrity RunConfig.ofLine.manifest
        ((h.worlds ⟨0, by decide⟩).entriesAfter "batch_1" (-1)) = .ok () := by
  have hrun : ((exec (Setup.sample [.ofLine]).step (.sample [.ofLine]) (fenceLine .after)).map
      fun h => (h.worlds ⟨0, by decide⟩).batch.entries.rows.map EntryRow.status) =
      some [.failed] := by decide +kernel
  obtain ⟨h, hr, hrows⟩ := Option.map_eq_some_iff.1 hrun
  refine ⟨h, hr, hrows, integrity_of_fences inputs_ofLine (fun _ _ _ => rfl)
    (Hub.sample_initial _) (by decide +kernel) (fenceLine .after) (by decide +kernel) hr
    ⟨0, by decide⟩ fun hnil => ?_⟩
  have := congrArg (List.map EntryRow.status) hnil
  cases hrows.symm.trans this

/-- The fence failed before it could mark the entry. -/
theorem fenceLine_before_integrity :
    (Hub.sample [.ofLine]).Initial ∧
    (Setup.sample [.ofLine]).Inputs oneModelCodec (fun _ => sampleIngestConfig)
      (fun _ => sampleRequestLine oneModel) (fun _ => "batch_1") ∧
    ((exec (Setup.sample [.ofLine]).step (.sample [.ofLine]) (fenceLine .before)).map fun h =>
      checkManifestIntegrity RunConfig.ofLine.manifest
        ((h.worlds ⟨0, by decide⟩).entriesAfter "batch_1" (-1)) matches .error _) = some true :=
  ⟨Hub.sample_initial _, inputs_ofLine, by decide +kernel⟩

end BatchGateway
