import BatchGateway.Pipeline.Progress
import BatchGateway.Pipeline.Provenance

/-! No request gets lost. Until its entry is finished a request is on its way or pending, unless the
execution is bound to fail. A job that goes on to finalization leaves no entry open. -/
namespace BatchGateway

open Interleaving GoJson

/-! ### Carrying a request -/

/-- The token will lead to a result for the request. A received result may be ignored, and what is
about to be submitted is pending. -/
def Token.Carries (q : String) : Token → Prop
  | .fresh msg | .marked msg | .admitted msg => msg.requestID = q
  | .answered d | .accepted d => d.item.requestID = q
  | .result d => d.item.requestID = q ∧ d.item.customID ≠ ""
  | .unreadable | .stored _ | .settled _ => False

/-- The request is on its way or pending. -/
def Carried (q : String) (bag : Multiset Token) (p : PendingRequests) : Prop :=
  (∃ t ∈ bag, t.Carries q) ∨ ∃ msg ∈ p, msg.requestID = q

variable {q : String} {p : PendingRequests}

theorem carried_singleton {t : Token} :
    Carried q {t} p ↔ t.Carries q ∨ ∃ msg ∈ p, msg.requestID = q := by
  simp [Carried]

theorem Carried.turn {t t' : Token} (h : Carried q {t} p) (ht : t.Carries q → t'.Carries q) :
    Carried q {t'} p :=
  carried_singleton.2 ((carried_singleton.1 h).imp_left ht)

/-- A token stays unless the turn takes it, and what the turn makes is there. -/
theorem Moves.stays {S : Setup} {sc : Scene} {r r' : Run} (h : Moves S sc r r') :
    ∃ x y, Turn S sc x r.pending r.globalTokens y r'.pending r'.globalTokens ∧
      (∀ t ∈ x, t ∈ r.bag) ∧ (∀ t ∈ r.bag, t ∈ x ∨ t ∈ r'.bag) ∧ ∀ t ∈ y, t ∈ r'.bag := by
  obtain ⟨x, y, hx, hbag, ht⟩ := h
  obtain ⟨rest, hrest⟩ := Multiset.le_iff_exists_add.1 hx
  have hbag' : r'.bag = rest + y := by
    have : r'.bag + x = rest + y + x := by
      rw [hbag, hrest]
      abel
    exact Multiset.add_left_inj.1 this
  refine ⟨x, y, ht, fun t hm => Multiset.mem_of_le hx hm, fun t hm => ?_, fun t hm => ?_⟩
  · rw [hrest, Multiset.mem_add] at hm
    rw [hbag', Multiset.mem_add]
    exact hm.imp_right .inl
  · rw [hbag', Multiset.mem_add]
    exact .inr hm

theorem PendingRequests.enrich_own {d : Delivery} (h : d.item.customID ≠ "") :
    p.enrich d ≠ none := by
  unfold PendingRequests.enrich
  by_cases he : d.item.error.isSome = true
  · rw [if_pos he, if_pos (Or.inr h)]
    nofun
  · rw [if_neg he, if_pos h]
    nofun

/-- A turn loses no request of the execution, unless it will not end well. -/
theorem Turn.carried {S : Setup} {sc : Scene} {x y : Multiset Token} {p' : PendingRequests}
    {n n' : Nat} {good : GenerateResponse → Prop} {submitted : List String}
    (h : Turn S sc x p n y p' n') (hcustom : ∀ msg, .ok msg ∈ sc.cfg.requests → msg.customID ≠ "")
    (hq : ∃ msg, .ok msg ∈ sc.cfg.requests ∧ msg.requestID = q)
    (hk : ∀ t ∈ x, t.Known S good sc.cfg submitted sc.world)
    (hp : ∀ msg ∈ p, .ok msg ∈ sc.cfg.requests ∧ Attempted msg.requestID sc.world)
    (hc : Carried q x p) :
    sc.broken ∨ HasTerminal q sc.world ∨ Carried q y p' := by
  have hself : ∀ {t : Token}, x = {t} → t.Known S good sc.cfg submitted sc.world :=
    fun hxt => hk _ (by simp [hxt])
  have hzero : ∀ {p : PendingRequests}, Carried q 0 p → ∃ msg ∈ p, msg.requestID = q :=
    fun hc => hc.resolve_left fun ⟨t, ht, _⟩ => Multiset.notMem_zero t ht
  cases h with
  | stay => exact .inr (.inr hc)
  | launch =>
    obtain ⟨msg, hmsg, hid⟩ := hq
    exact .inr (.inr (.inl ⟨.fresh msg, mem_bagOf.2 ⟨_, hmsg, rfl⟩, hid⟩))
  | lose hb => exact .inl hb
  | drop ht =>
    rcases carried_singleton.1 hc with rfl | hc
    · exact .inr (.inl ht)
    · exact .inr (.inr (.inr hc))
  | @cancelFresh msg | @reject msg | @unfenced msg =>
    have hne := hcustom _ (hself rfl)
    exact .inr (.inr (hc.turn fun hid => ⟨hid, hne⟩))
  | mark => exact .inr (.inr (hc.turn fun hid => hid))
  | @cancelMarked msg | @unknown msg =>
    have hne := hcustom _ (hself rfl).1
    exact .inr (.inr (hc.turn fun hid => ⟨hid, hne⟩))
  | @store msg =>
    by_cases hid : msg.requestID = q
    · exact .inr (.inr (.inr ⟨msg, List.mem_cons_self, hid⟩))
    · obtain ⟨m, hm, hmid⟩ := (carried_singleton.1 hc).resolve_left hid
      have hne : m.requestID ≠ msg.requestID := fun he => hid (he.symm.trans hmid)
      exact .inr (.inr (.inr ⟨m, List.mem_cons_of_mem _ (List.mem_filter.2 ⟨hm, by simpa using hne⟩),
        hmid⟩))
  | submit => exact .inr (.inr (.inr ((carried_singleton.1 hc).resolve_left id)))
  | unsubmitted => exact .inr (.inr (.inr ((carried_singleton.1 hc).resolve_left id)))
  | collect =>
    obtain ⟨msg, hm, hid⟩ := hzero hc
    exact .inr (.inr (.inl ⟨_, mem_bagOf.2 ⟨msg, hm, rfl⟩, hid, hcustom msg (hp msg hm).1⟩))
  | acquire => exact .inr (.inr (hc.turn fun hid => hid))
  | @answer msg resp err =>
    obtain ⟨response, error, he⟩ := S.bodies.buildResult_eq msg resp err
    rw [he]
    exact .inr (.inr (hc.turn fun hid => hid))
  | unanswered => exact .inr (.inr (hc.turn fun hid => hid))
  | overrule => exact .inr (.inr (hc.turn fun hid => hid))
  | @release d =>
    obtain ⟨msg, hmsg, -, hcid, -⟩ := hself (t := .answered d) rfl
    have hne : d.item.customID ≠ "" := hcid ▸ hcustom msg hmsg
    exact .inr (.inr (hc.turn fun hid => ⟨hid, hne⟩))
  | receive => exact .inr (.inr (.inr (hzero hc)))
  | @accept d d' _ _ hd =>
    refine .inr (.inr (hc.turn fun hid => ?_))
    rcases PendingRequests.enrich_cases hd with ⟨rfl, -⟩ | ⟨rfl, -⟩ | ⟨-, -, msg, -, -, rfl⟩
    · exact hid.1
    · exact hid.1
    · exact hid.1
  | @ignore d _ _ hd =>
    rcases carried_singleton.1 hc with ⟨-, hne⟩ | hc
    · exact absurd hd (PendingRequests.enrich_own hne)
    · exact .inr (.inr (.inr hc))
  | @settle d _ _ ht =>
    rcases carried_singleton.1 hc with rfl | hc
    · exact .inr (.inl ht)
    · exact .inr (.inr (.inr hc))
  | @resolve d =>
    obtain ⟨msg, hm, hid⟩ := (carried_singleton.1 hc).resolve_left id
    by_cases hd : msg.requestID = d.item.requestID
    · rw [← hid, hd]
      exact .inr (.inl (hself (t := .settled d) rfl).2)
    · exact .inr (.inr (.inr ⟨msg, List.mem_filter.2 ⟨hm, by simpa using hd⟩, hid⟩))
  | ack => exact .inr (.inr (.inr ((carried_singleton.1 hc).resolve_left id)))

/-- The request is accounted for: its entry is finished, it is carried, or the execution will not
end well. -/
def Run.Accounts (q : String) (w : World) (r : Run) : Prop :=
  r.Broken ∨ HasTerminal q w ∨ Carried q r.bag r.pending

/-- Every entry is a line of the manifest. -/
theorem World.Identified.line {w : World} {manifest : RequestManifest} (h : w.Identified manifest)
    {row : EntryRow} (hr : row ∈ w.batch.entries.rows) :
    ∃ m ∈ manifest.entries, m.requestID = row.requestID := by
  rcases h with hnil | hid
  · rw [hnil] at hr
    cases hr
  · have hmem : (row.requestID, row.ordinal, row.customID) ∈ manifest.identities := by
      rw [← hid]
      exact List.mem_map_of_mem hr
    obtain ⟨m, hm, heq⟩ := List.mem_map.1 hmem
    exact ⟨m, hm, (Prod.mk.inj heq).1⟩

/-! ### The whole system -/

section System

variable {S : Setup} {h h' : Hub S} {e : Event S} {codec : Codec} {icfg : Fin S.jobs → IngestConfig}
  {input : Fin S.batches → Bytes} {id : Fin S.batches → String} {j : Fin S.jobs}

/-- No line of the execution's input file is too long for its plan entry. -/
def Setup.ShortLines (input : Fin S.batches → Bytes) (j : Fin S.jobs) : Prop :=
  ∀ line ∈ normalizedLines [] (input (S.batch j)), line.length < 2 ^ 32

/-- The entry of every line is finished. -/
def Hub.Covered (h : Hub S) (j : Fin S.jobs) : Prop :=
  ∀ m ∈ (S.config j).manifest.entries, HasTerminal m.requestID (h.worlds (S.batch j))

theorem Setup.covered_step (hs : S.step h e = some h') (hc : h.Covered j) : h'.Covered j :=
  fun m hm => (hc m hm).evolves (S.evolves_step hs _)

theorem Setup.accounts_step (hin : S.Inputs codec icfg input id) (hlen : S.ShortLines input j)
    (hs : S.step h e = some h') (hh : h.Traced fun _ => True) {msg : RequestItem}
    (hmsg : .ok msg ∈ (S.config j).requests)
    (ha : (h.runs j).Accounts msg.requestID (h.worlds (S.batch j))) :
    (h'.runs j).Accounts msg.requestID (h'.worlds (S.batch j)) := by
  have hev := S.evolves_step hs (S.batch j)
  rcases ha with hb | ht | hc
  · exact .inl (S.broken_step hs hh.sound.control hb)
  · exact .inr (.inl (ht.evolves hev))
  · obtain ⟨x, y, hturn, hx, hstay, hy⟩ := (S.moves_step hs hh.sound j).stays
    have hcarried : ∀ {p}, Carried msg.requestID y p → Carried msg.requestID (h'.runs j).bag p :=
      fun hc => hc.imp_left fun ⟨t, ht, hcar⟩ => ⟨t, hy t ht, hcar⟩
    have hstep : Carried msg.requestID x (h.runs j).pending →
        (h'.runs j).Accounts msg.requestID (h'.worlds (S.batch j)) := by
      intro hc
      have := hturn.carried (fun m hm => (hin.ingested j).customID_ne hlen hm) ⟨msg, hmsg, rfl⟩
        (fun t ht => hh.tokens j t (hx t ht)) (hh.pending j) hc
      exact this.imp_right fun h => h.imp (fun ht => ht.evolves hev) hcarried
    rcases hc with ⟨t, ht, hcar⟩ | hp
    · rcases hstay t ht with ht | ht
      · exact hstep (.inl ⟨t, ht, hcar⟩)
      · exact .inr (.inr (.inl ⟨t, ht, hcar⟩))
    · exact hstep (.inr hp)

/-- How far the job is, and what that says about the entries. -/
structure Hub.Retains (j : Fin S.jobs) (h : Hub S) : Prop where
  traced : h.Traced fun _ => True
  tallied : h.Tallied .atMost j
  running : (h.runs j).job = .wait → ∀ msg, .ok msg ∈ (S.config j).requests →
    (h.runs j).Accounts msg.requestID (h.worlds (S.batch j))
  ended : ∀ err, (h.runs j).job = .classify err →
    (h.runs j).jobCause.isSome ∨ err.isSome ∨ h.Covered j
  checked : (h.runs j).job = .check none → (h.runs j).jobCause = some .neutral ∨ h.Covered j
  proceeds : (h.runs j).job = .proceed → h.Covered j

theorem Hub.Initial.retains (hi : h.Initial) : h.Retains j where
  traced := hi.traced
  tallied := hi.tallied
  running := by
    rw [hi.runs]
    nofun
  ended := by
    rw [hi.runs]
    nofun
  checked := by
    rw [hi.runs]
    nofun
  proceeds := by
    rw [hi.runs]
    nofun

section

variable (hin : S.Inputs codec icfg input id)
include hin

/-- When every goroutine returned, a request that is accounted for has its result. -/
theorem Hub.Retains.covered (hlen : S.ShortLines input j) (hne : id (S.batch j) ≠ "")
    (hh : h.Retains j) (hwait : (h.runs j).job = .wait) (hd : (h.runs j).groupDone = true) :
    (h.runs j).jobCause.isSome ∨ (h.runs j).failure.isSome ∨ h.Covered j := by
  have hcontrol := hh.traced.sound.control j
  by_cases hb : (h.runs j).Broken
  · exact (hb.surfaces hcontrol hd).imp_right .inl
  refine .inr (.inr fun m hm => ?_)
  obtain ⟨hbag, hpending⟩ := Run.bag_of_groupDone hcontrol hd
  obtain ⟨hsource, -⟩ := Run.groupDone_iff.1 hd
  have hprepared := (hh.traced.sound.run j).prepared (.inr (by simp [hsource]))
  by_cases hr : m.rejected = true
  · exact hprepared.installed.rejected m hm hr
  have hbatch : (S.config j).batchID ≠ "" := by rwa [hin.batchID]
  obtain ⟨msg, hmsg, hid⟩ := (hin.ingested j).covered hlen hbatch hm (by simpa using hr)
  have hterminal : HasTerminal msg.requestID (h.worlds (S.batch j)) := by
    rcases hh.running hwait msg hmsg with hb' | ht | ⟨t, ht, -⟩ | ⟨p, hp, -⟩
    · exact absurd hb' hb
    · exact ht
    · rw [hbag] at ht
      exact absurd ht (Multiset.notMem_zero t)
    · rw [hpending] at hp
      cases hp
  rcases hid with hid | hid
  · rwa [← hid]
  · obtain ⟨row, hrow, hq, -⟩ := hterminal
    obtain ⟨m', hm', hid'⟩ := (hh.tallied.identified j).line hrow
    exact absurd (hid'.trans hq) (hid m' hm').symm

/-- When every request succeeded, every entry is completed. -/
theorem Hub.Tallied.covered (hh : h.Tallied .atMost j) (hne : (h.runs j).source ≠ .idle)
    (hall : Run.allSucceeded (h.runs j).counts = true) :
    h.Covered j := by
  obtain ⟨hcompleted, -⟩ := hh.at_most hin
  have hlines := (hh.length hin).2 hne
  have htotal := (hh.totalled j).total hne
  obtain ⟨-, hall⟩ := of_decide_eq_true hall
  have hcount : (h.worlds (S.batch j)).count .completed =
      (h.worlds (S.batch j)).batch.entries.rows.length := by
    have := List.countP_le_length (p := fun row : EntryRow => row.status = .completed)
      (l := (h.worlds (S.batch j)).batch.entries.rows)
    unfold World.count at hcompleted ⊢
    omega
  have hrow := List.countP_eq_length.1 hcount
  intro m hm
  obtain ⟨row, hr, hid⟩ := ((hh.sound.run j).prepared (.inr hne)).installed.rows m hm
  refine ⟨row, hr, hid, ?_⟩
  rw [of_decide_eq_true (hrow row hr)]
  rfl

/-- An outcome that lets the job be finalized, unless its ownership was lost. -/
theorem Hub.Retains.classified (hh : h.Retains j) {err : Option Err}
    (hpc : (h.runs j).job = .classify err) (hne : (h.runs j).source ≠ .idle)
    (hout : Run.classifyOutcome (h.runs j).jobCause (h.runs j).counts err = none) :
    (h.runs j).jobCause = some .neutral ∨ h.Covered j := by
  have hended := hh.ended err hpc
  cases hc : (h.runs j).jobCause with
  | none =>
    rw [hc] at hended hout
    obtain rfl : err = none := hout
    exact .inr ((hended.resolve_left nofun).resolve_left nofun)
  | some cause =>
    rw [hc] at hout
    cases cause with
    | neutral => exact .inl rfl
    | expired => cases hout
    | cancelled => cases hout
    | shutdown =>
      right
      simp only [Run.classifyOutcome, Run.causeErr] at hout
      split at hout
      next hall => exact hh.tallied.covered hin hne hall
      next => cases hout

theorem Setup.retains_step (hlen : S.ShortLines input j) (hne : id (S.batch j) ≠ "")
    (hs : S.step h e = some h') (hh : h.Retains j) :
    h'.Retains j := by
  have htraced := S.traced_step hs (fun _ _ _ => trivial) hh.traced
  have htallied := S.tallied_step hin hs (fun _ _ => S.evolves_step hs _) hh.tallied
  have hcause : ∀ c, (h.runs j).jobCause = some c → (h'.runs j).jobCause = some c :=
    S.keeps_step hs j .job
  have hcovered : h.Covered j → h'.Covered j := S.covered_step hs
  rcases S.job_step hs j with ⟨-, hjob⟩ | ⟨t, t', -, hjob⟩ | hjob
  · generalize hr : h'.runs j = r' at hjob
    cases Run.stepJob_cases hjob with
    | launch pending hpc =>
      have hdormant := (hh.traced.sound.control j).dormant (by rw [hpc]; rfl)
      have hbag : (h'.runs j).bag = bagOf .ofLine (S.config j).requests := by
        rw [hr]
        exact Run.bag_launch hdormant pending
      refine ⟨htraced, htallied, fun _ msg hmsg => .inr (.inr (.inl ⟨.fresh msg, ?_, rfl⟩)),
        ?_, ?_, ?_⟩
      · rw [hbag]
        exact mem_bagOf.2 ⟨_, hmsg, rfl⟩
      all_goals
        rw [hr]
        nofun
    | collect hpc hd =>
      refine ⟨htraced, htallied, ?_, fun err herr => ?_, ?_, ?_⟩
      · rw [hr]
        nofun
      · rw [hr] at herr
        cases herr
        rcases hh.covered hin hlen hne hpc hd with hc | hf | hc
        · obtain ⟨c, hc⟩ := Option.isSome_iff_exists.1 hc
          exact .inl (Option.isSome_iff_exists.2 ⟨c, hcause c hc⟩)
        · exact .inr (.inl hf)
        · exact .inr (.inr (hcovered hc))
      all_goals
        rw [hr]
        nofun
    | classify err hpc =>
      refine ⟨htraced, htallied, ?_, ?_, fun hcheck => ?_, ?_⟩
      · rw [hr]
        nofun
      · rw [hr]
        nofun
      · rw [hr] at hcheck
        have hout : Run.classifyOutcome (h.runs j).jobCause (h.runs j).counts err = none :=
          JobPC.check.inj hcheck
        have hne : (h.runs j).source ≠ .idle := by
          intro hidle
          have := ((hh.tallied.totalled j).new hidle).2.2
          rw [hpc] at this
          cases this
        rcases hh.classified hin hpc hne hout with hc | hc
        · exact .inl (hcause _ hc)
        · exact .inr (hcovered hc)
      · rw [hr]
        nofun
    | proceed hpc hlost =>
      refine ⟨htraced, htallied, ?_, ?_, ?_, fun _ => ?_⟩
      · rw [hr]
        nofun
      · rw [hr]
        nofun
      · rw [hr]
        nofun
      · rcases hh.checked hpc with hc | hc
        · simp [Run.ownershipLost, hc] at hlost
        · exact hcovered hc
    | _ => refine ⟨htraced, htallied, ?_, ?_, ?_, ?_⟩ <;> rw [hr] <;> nofun
  · refine ⟨htraced, htallied, ?_, ?_, ?_, ?_⟩ <;> rw [hjob] <;> nofun
  · refine ⟨htraced, htallied, ?_, ?_, ?_, ?_⟩ <;> rw [hjob]
    · exact fun hpc msg hmsg => S.accounts_step hin hlen hs hh.traced hmsg (hh.running hpc msg hmsg)
    · intro err herr
      rcases hh.ended err herr with hc | hf | hc
      · obtain ⟨c, hc⟩ := Option.isSome_iff_exists.1 hc
        exact .inl (Option.isSome_iff_exists.2 ⟨c, hcause c hc⟩)
      · exact .inr (.inl hf)
      · exact .inr (.inr (hcovered hc))
    · exact fun hpc => (hh.checked hpc).imp (hcause _) hcovered
    · exact fun hpc => hcovered (hh.proceeds hpc)

end

/-- In every reachable state of every run, a job that goes on from its execution to finalization
has no open entry, when no line of its input file is too long for a plan entry. -/
theorem finalization_covered {h₀ : Hub S} (hin : S.Inputs codec icfg input id)
    (hlen : S.ShortLines input j) (hne : id (S.batch j) ≠ "") (hi : h₀.Initial)
    (es : List (Event S)) (hs : exec S.step h₀ es = some h) (hp : (h.runs j).job = .proceed) :
    ∀ row ∈ (h.worlds (S.batch j)).batch.entries.rows,
      row.status = .completed ∨ row.status = .failed := by
  have hh : h.Retains j := along_invariant (I := Hub.Retains j) (P := fun _ _ => True)
    (fun _ _ _ hh _ hs => S.retains_step hin hlen hne hs hh) (along_true h₀ es) hs hi.retains
  intro row hr
  obtain ⟨m, hm, hid⟩ := (hh.tallied.identified j).line hr
  obtain ⟨row', hr', hid', ht⟩ := hh.proceeds hp m hm
  rw [EntryTable.eq_of_requestID hr' hr (hid'.trans hid)] at ht
  exact of_decide_eq_true ht

end System

/-- The execution of the accepted line ends, and the job goes on to finalization. -/
def proceedLines : List (Event (.sample [.ofLines])) :=
  let run := Event.run (S := .sample [.ofLines]) ⟨0, Nat.one_pos⟩
  finishLines ++ [run .drain, run .job, run .job, run .job]

theorem proceedLines_covered :
    ∃ h, exec (Setup.sample [.ofLines]).step (.sample [.ofLines]) proceedLines = some h ∧
      (h.runs (0 : Fin 1)).job = .proceed ∧
      ∀ row ∈ (h.worlds (0 : Fin 1)).batch.entries.rows,
        row.status = .completed ∨ row.status = .failed := by
  have hrun : ((exec (Setup.sample [.ofLines]).step (.sample [.ofLines]) proceedLines).map fun h =>
      (h.runs (0 : Fin 1)).job matches .proceed) = some true := by decide +kernel
  obtain ⟨h, hs, hmatch⟩ := Option.map_eq_some_iff.1 hrun
  have hp : (h.runs (0 : Fin 1)).job = .proceed := by
    split at hmatch
    next hp => exact hp
    next => cases hmatch
  have hshort : ∀ line ∈ normalizedLines [] (requestsInput twoLines), line.length < 2 ^ 32 := by
    decide +kernel
  exact ⟨h, hs, hp, finalization_covered inputs_ofLines hshort (by decide) (Hub.sample_initial _)
    proceedLines hs hp⟩

end BatchGateway
