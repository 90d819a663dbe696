import BatchGateway.Lib.RelyGuarantee
import BatchGateway.Pipeline.Evolution
import BatchGateway.Pipeline.System

/-! What the store calls of an execution do and what their answers mean, whatever others do to the
batch meanwhile. -/
namespace BatchGateway

open Interleaving

/-- The reason for which an execution works on the store. -/
inductive Duty where
  | prepare (cfg : RunConfig)
  | mark (cfg : RunConfig) (requestID : String)
  | checkpoint (sink : BatchResultStore) (item : ResultItem)

/-- The keys under which the result of a request can be stored. -/
def BatchResultStore.IsKey (s : BatchResultStore) (q key : String) : Prop :=
  key = resumableResultKey s.batchID q ∨ ∃ u, key = fallbackResultKey s.batchID q u

/-- What the checkpoint of a result commits, with the object at the key. -/
def Stdlib.committed (lib : Stdlib) (item : ResultItem) (key : String) : ResumableResult :=
  { item.entryResult (lib.sha256 (lib.resultLine item)) (lib.resultLine item).length with
    resultKey := key }

/-- The calls that belong to a duty. -/
def Duty.Allows (lib : Stdlib) : Duty → Call → Prop
  | prepare cfg, .exec s =>
    ∃ a : ResumableActivation, s = .activate a ∧ a.entries = cfg.manifest.activationEntries ∧
      a.processorID = cfg.jobProcessorID ∧ a.epoch = cfg.epoch
  | prepare cfg, .store key data _ =>
    ∃ e ∈ cfg.manifest.entries, e.rejected = true ∧ key = e.resultKey ∧ data = e.errLine
  | mark cfg q, .exec s => s = .mark cfg.batchID q cfg.processorID cfg.epoch
  | checkpoint sink item, .exec s => ∃ key, sink.IsKey item.requestID key ∧
      s = .checkpoint sink.batchID item.requestID sink.processorID sink.epoch
        (lib.committed item key)
  | checkpoint sink item, .store key data _ =>
    sink.IsKey item.requestID key ∧ data = lib.resultLine item
  | checkpoint sink item, .delete key => ∃ u, key = fallbackResultKey sink.batchID item.requestID u
  | _, .ask | _, .entryStatus .. | _, .findEntry .. | _, .listEntries .. | _, .retrieve _ => True
  | _, _ => False

/-- The store as one execution sees it. -/
def taskSystem : System World Env Duty Call Call.Resp Unit where
  perform env w c := w.perform env c
  start _ _ _ := none
  code _ := .ret ()

theorem Duty.Allows.issued {lib : Stdlib} {g : Duty} {s : Stmt} (h : g.Allows lib (.exec s)) :
    s.Issued := by
  cases g with
  | prepare cfg =>
    obtain ⟨a, rfl, ha, -⟩ := h
    intro x hx
    rw [ha, RequestManifest.activationEntries, List.mem_map] at hx
    obtain ⟨e, -, rfl⟩ := hx
    unfold ManifestEntry.activationEntry
    split
    · exact .inr rfl
    · exact .inl rfl
  | mark cfg q =>
    obtain rfl := h
    trivial
  | checkpoint sink item =>
    obtain ⟨key, -, rfl⟩ := h
    exact item.entryResult_status (lib.sha256 (lib.resultLine item)) (lib.resultLine item).length

/-- What others may do to the batch while an execution works on it, and to each of its rows. -/
structure Others where
  step : World → World → Prop
  row : EntryRow → EntryRow → Prop
  refl : ∀ w, step w w
  trans : ∀ w₁ w₂ w₃, step w₁ w₂ → step w₂ w₃ → step w₁ w₃
  row_refl : ∀ r, row r r
  row_trans : ∀ r₁ r₂ r₃, row r₁ r₂ → row r₂ r₃ → row r₁ r₃
  evolves : ∀ {w w'}, step w w' → w.Evolves w'
  row_evolves : ∀ {r r'}, row r r' → r.Evolves r'
  rows : ∀ {w w'}, step w w' → ∀ r ∈ w.batch.entries.rows, ∃ r' ∈ w'.batch.entries.rows, row r r'

/-- Others work on the batch as well. -/
def Others.working : Others where
  step := World.Evolves
  row := EntryRow.Evolves
  refl := .refl
  trans _ _ _ := .trans
  row_refl := .refl
  row_trans _ _ _ := .trans
  evolves h := h
  row_evolves h := h
  rows h _ hr := h.row hr

/-- Others neither install entries nor commit results. -/
def Others.watching : Others where
  step := World.Keeps
  row := EntryRow.Keeps
  refl := .refl
  trans _ _ _ := .trans
  row_refl := .refl
  row_trans _ _ _ := .trans
  evolves h := h.evolves
  row_evolves h := h.toEvolves
  rows h _ hr := World.Keeps.row h hr

/-- An execution keeps to its duty, and others to what they may do. -/
def dutiful (lib : Stdlib) (o : Others := .working) : Protocol taskSystem where
  inv := World.Counted
  holds _ _ := True
  rely _ := o.step
  guar g _ c w w' := g.Allows lib c ∧ w.Evolves w'
  peer _ _ := ∀ w w', w.Evolves w' → o.step w w'
  cond _ _ _ _ := True
  rely_refl _ := o.refl
  rely_trans _ := o.trans
  guar_holds _ _ _ _ _ _ _ _ := trivial
  guar_rely _ _ _ _ _ _ _ hp _ _ h := ⟨hp _ _ h.2, trivial⟩

namespace Duty

variable {lib : Stdlib} {o : Others} {g : Duty} {β : Type} {A B : World → Prop} {Q : β → World → Prop}
  {q : String}

theorem stable_of_evolves (h : ∀ w w', w.Evolves w' → A w → A w') :
    (dutiful lib o).Stable g A := fun w w' _ _ he ha => h w w' (o.evolves he) ha

theorem stable_hasTerminal : (dutiful lib o).Stable g (HasTerminal q) :=
  stable_of_evolves fun _ _ he h => h.evolves he

theorem stable_attempted : (dutiful lib o).Stable g (Attempted q) :=
  stable_of_evolves fun _ _ he h => h.evolves he

/-- The rule for one allowed call. -/
theorem triple_call {c : Call} {B : c.Resp → World → Prop} {k : c.Resp → Task β}
    (hc : g.Allows lib c) (hA : (dutiful lib o).Stable g A)
    (hB : ∀ w env w' a, w.Counted → A w → w.perform env c = some (w', a) → B a w')
    (hk : ∀ a, (dutiful lib o).Triple g (B a) (k a) Q) :
    (dutiful lib o).Triple g A (call c >>= k) Q := by
  refine Protocol.Triple.lift_bind hA (fun w env w' a hi _ ha _ h => ?_) hk
  have h : w.perform env c = some (w', a) := h
  refine ⟨?_, ⟨hc, World.evolves_perform h⟩, hB w env w' a hi ha h⟩
  exact World.Counted.perform hi h fun s hs => .inr (hs ▸ hc : g.Allows lib (.exec s)).issued

/-- A call whose answer is not looked at. -/
theorem triple_any {c : Call} {k : c.Resp → Task β} (hc : g.Allows lib c)
    (hk : ∀ a, (dutiful lib o).Triple g (fun _ => True) (k a) Q) :
    (dutiful lib o).Triple g (fun _ => True) (call c >>= k) Q :=
  triple_call hc Protocol.stable_true (fun _ _ _ _ _ _ _ => trivial) hk

theorem triple_ret (a : β) (h : ∀ w, Q a w) : (dutiful lib o).Triple g (fun _ => True) (.ret a) Q :=
  Protocol.Triple.ret Protocol.stable_true fun w _ _ _ => h w

/-! ### Marking -/

/-- What the answer of an entry write says about its entry. -/
def Told (q : String) (marks : Bool) : Except Err Bool → World → Prop
  | .ok true, w => if marks then Attempted q w else HasTerminal q w
  | .ok false, w => HasTerminal q w
  | .error _, _ => True

theorem triple_entryNotUpdatable (op id p : String) (e : Int) (marks : Bool)
    (hc : g.Allows lib (.entryStatus id q p e)) :
    (dutiful lib o).Triple g (fun _ => True) (entryNotUpdatable op id q p e) (Told q marks) := by
  refine triple_call (c := .entryStatus _ _ _ _) (B := fun (a : Except Err (Option EntryStatus)) w =>
    ∀ status, a = .ok (some status) → status.isTerminal = true → HasTerminal q w) hc
    Protocol.stable_true ?_ fun a => ?_
  · rintro w env w' a - - h status rfl ht
    obtain ⟨rfl, ha⟩ := Prod.mk.inj (Option.some.inj h)
    simp only [World.read] at ha
    split at ha
    · have ha := Except.ok.inj ha
      split at ha
      · obtain ⟨row, hrow, rfl⟩ := Option.map_eq_some_iff.1 ha
        unfold World.entry at hrow
        split at hrow
        · obtain ⟨hr, hq⟩ := EntryTable.mem_find hrow
          exact ⟨row, hr, hq, ht⟩
        · cases hrow
      · cases ha
    · cases ha
  · rcases a with err | _ | status
    · exact (triple_ret _ fun _ => trivial).pre fun _ _ _ _ => trivial
    · exact (triple_ret _ fun _ => trivial).pre fun _ _ _ _ => trivial
    · dsimp only
      split
      next ht =>
        exact (Protocol.Triple.ret stable_hasTerminal fun _ _ _ h => h).pre
          fun _ _ _ h => h status rfl ht
      next => exact (triple_ret _ fun _ => trivial).pre fun _ _ _ _ => trivial

theorem attempted_of_mark {w w' : World} {env : Env} {id p : String} {e : Int}
    (hw : w.Counted) (h : w.execStmt env (.mark id q p e) = (w', .ok true)) : Attempted q w' := by
  rcases World.execStmt_cases h with ⟨-, hne⟩ | ⟨b, hb, rfl, -⟩
  · exact absurd rfl hne
  · obtain ⟨⟨-, row, hr, hq, ho⟩, rfl⟩ := Stmt.of_matched hb
    refine ⟨row.mark env.now p, ?_, hq, ?_⟩
    · dsimp only
      rw [EntryTable.updateOpen_rows, List.mem_map]
      exact ⟨row, hr, if_pos ⟨hq, ho⟩⟩
    · have := (hw row hr).1
      simp only [EntryRow.mark]
      omega

theorem triple_markEntryInFlight (cfg : RunConfig) (q : String) :
    (dutiful lib o).Triple (.mark cfg q) (fun _ => True)
      (markEntryInFlight cfg.batchID q cfg.processorID cfg.epoch) (Told q true) := by
  refine triple_call (c := .exec _)
    (B := fun (a : Except Err Bool) w => a = .ok true → Attempted q w) rfl
    Protocol.stable_true ?_ fun a => ?_
  · rintro w env w' a hw - h rfl
    exact attempted_of_mark hw (Option.some.inj h)
  · rcases a with err | _ | _
    · exact (triple_ret _ fun _ => trivial).pre fun _ _ _ _ => trivial
    · exact (triple_entryNotUpdatable (g := .mark cfg q) _ _ _ _ true trivial).pre
        fun _ _ _ _ => trivial
    · exact (Protocol.Triple.ret stable_attempted fun _ _ _ h => h).pre fun _ _ _ h => h rfl

/-! ### Checkpointing -/

variable (sink : BatchResultStore) (item : ResultItem)

theorem triple_verifyStored (key digest : String) (size : Int) :
    (dutiful lib o).Triple (.checkpoint sink item) (fun _ => True)
      (lib.verifyStored key digest size) fun _ _ => True := by
  refine triple_any trivial fun a => ?_
  rcases a with err | data <;> exact triple_ret _ fun _ => trivial

theorem triple_storeObject (digest : String) (size : Int) :
    (dutiful lib o).Triple (.checkpoint sink item) (fun _ => True)
      (sink.storeObject lib item.requestID (lib.resultLine item) digest size)
      fun res _ => ∀ key, res = .ok key → sink.IsKey item.requestID key := by
  refine triple_any ⟨.inl rfl, rfl⟩ fun a => ?_
  rcases a with err | _
  · dsimp only
    split
    · exact triple_ret _ fun _ _ => nofun
    · refine (triple_verifyStored sink item _ _ _).bind fun b => ?_
      cases b with
      | true =>
        refine triple_ret _ fun _ key hk => ?_
        cases hk
        exact .inl rfl
      | false =>
        refine triple_any trivial fun env => ?_
        refine triple_any ⟨.inr ⟨_, rfl⟩, rfl⟩ fun a => ?_
        rcases a with err | _
        · exact triple_ret _ fun _ _ => nofun
        · refine triple_ret _ fun _ key hk => ?_
          cases hk
          exact .inr ⟨_, rfl⟩
  · refine triple_ret _ fun _ key hk => ?_
    cases hk
    exact .inl rfl

theorem triple_checkpointEntryResult {key : String} (hk : sink.IsKey item.requestID key) :
    (dutiful lib o).Triple (.checkpoint sink item) (fun _ => True)
      (checkpointEntryResult sink.batchID item.requestID sink.processorID sink.epoch
        (lib.committed item key)) (Told item.requestID false) := by
  unfold checkpointEntryResult
  split
  · exact triple_ret _ fun _ => trivial
  next ht =>
    refine triple_call (c := .exec _) (B := fun (a : Except Err Bool) w => a = .ok true →
      HasTerminal item.requestID w) ⟨key, hk, rfl⟩ Protocol.stable_true ?_ fun a => ?_
    · rintro w env w' a - - h rfl
      exact terminal_of_commits h ⟨rfl, rfl, by simpa using ht⟩
    · rcases a with err | _ | _
      · exact (triple_ret _ fun _ => trivial).pre fun _ _ _ _ => trivial
      · exact (triple_entryNotUpdatable (g := .checkpoint sink item) _ _ _ _ false trivial).pre
          fun _ _ _ _ => trivial
      · exact (Protocol.Triple.ret stable_hasTerminal fun _ _ _ h => h).pre fun _ _ _ h => h rfl

theorem triple_commitObject {key : String} (hk : sink.IsKey item.requestID key) :
    (dutiful lib o).Triple (.checkpoint sink item) (fun _ => True)
      (sink.commitObject item (lib.sha256 (lib.resultLine item)) (lib.resultLine item).length key)
      (Told item.requestID false) := by
  refine (triple_checkpointEntryResult sink item hk).bind fun a => ?_
  rcases a with err | _ | _
  · exact (triple_ret _ fun _ => trivial).pre fun _ _ _ _ => trivial
  · dsimp only
    split
    next hne =>
      rcases hk with rfl | ⟨u, rfl⟩
      · exact absurd rfl hne
      · exact triple_call (B := fun _ => HasTerminal item.requestID) ⟨u, rfl⟩ stable_hasTerminal
          (fun _ _ _ _ _ ht h => ht.evolves (World.evolves_perform h))
          fun _ => Protocol.Triple.ret stable_hasTerminal fun _ _ _ h => h
    next => exact Protocol.Triple.ret stable_hasTerminal fun _ _ _ h => h
  · exact Protocol.Triple.ret stable_hasTerminal fun _ _ _ h => h

/-- A checkpoint that reports no error left its entry finished. -/
theorem triple_checkpointResult :
    (dutiful lib o).Triple (.checkpoint sink item) (fun _ => True)
      (sink.checkpointResult lib item) (Told item.requestID false) := by
  refine triple_call (c := .findEntry _ _) (B := fun (a : Except Err (Option EntryRow)) w =>
    ∀ row, a = .ok (some row) → row.status.isTerminal = true → HasTerminal item.requestID w) trivial
    Protocol.stable_true ?_ fun a => ?_
  · rintro w env w' a - - h row rfl ht
    obtain ⟨rfl, ha⟩ := Prod.mk.inj (Option.some.inj h)
    simp only [World.read] at ha
    split at ha
    · have hrow := Except.ok.inj ha
      unfold World.entry at hrow
      split at hrow
      · obtain ⟨hr, hq⟩ := EntryTable.mem_find hrow
        exact ⟨row, hr, hq, ht⟩
      · cases hrow
    · cases ha
  · rcases a with err | entry
    · exact (triple_ret _ fun _ => trivial).pre fun _ _ _ _ => trivial
    · dsimp only
      split
      next ht =>
        obtain ⟨row, rfl, ht⟩ := (Option.any_eq_true _ _).1 ht
        exact (Protocol.Triple.ret stable_hasTerminal fun _ _ _ h => h).pre
          fun _ _ _ h => h row rfl ht
      next =>
        refine Protocol.Triple.pre ?_ fun _ _ _ _ => trivial
        refine (triple_storeObject sink item _ _).bind fun res => ?_
        rcases res with err | key
        · exact (triple_ret _ fun _ => trivial).pre fun _ _ _ _ => trivial
        · intro w hi hh hk
          exact triple_commitObject sink item (hk key rfl) w hi hh trivial

/-! ### Preparing -/

end Duty

/-- The entries of the manifest are in the table, the rejected ones finished. -/
structure Installed (cfg : RunConfig) (w : World) : Prop where
  rows : ∀ e ∈ cfg.manifest.entries, ∃ row ∈ w.batch.entries.rows, row.requestID = e.requestID
  rejected : ∀ e ∈ cfg.manifest.entries, e.rejected = true → HasTerminal e.requestID w

/-- What the resume state says about the entries is true of them. -/
structure ResumableResumeState.Holds (seed : ResumableResumeState) (w : World) : Prop where
  terminal : ∀ q ∈ seed.terminalRequestIDs, HasTerminal q w
  inFlight : ∀ p ∈ seed.inFlightSubmittedBy, Attempted p.1 w

/-- The batch is ready for the execution of its requests. -/
structure Prepared (cfg : RunConfig) (seed : Option ResumableResumeState) (w : World) : Prop where
  installed : Installed cfg w
  seed : ∀ s ∈ seed, s.Holds w

theorem Prepared.evolves {cfg : RunConfig} {seed : Option ResumableResumeState} {w w' : World}
    (h : Prepared cfg seed w) (he : w.Evolves w') : Prepared cfg seed w' := by
  refine ⟨⟨fun e hm => ?_, fun e hm hr => (h.installed.rejected e hm hr).evolves he⟩,
    fun s hs => ⟨fun q hq => ((h.seed s hs).terminal q hq).evolves he,
      fun p hp => ((h.seed s hs).inFlight p hp).evolves he⟩⟩
  obtain ⟨row, hr, hq⟩ := h.installed.rows e hm
  obtain ⟨row', hr', hev⟩ := he.row hr
  exact ⟨row', hr', hev.requestID.trans hq⟩

namespace Duty

variable {lib : Stdlib} {o : Others} (cfg : RunConfig)

/-- The answer of the preparation. -/
def Ready (cfg : RunConfig) : Except Err (Option ResumableResumeState) → World → Prop
  | .ok seed, w => Prepared cfg seed w
  | .error _, _ => True

theorem triple_putRejectedObject {e : ManifestEntry} (sink : BatchResultStore)
    (he : e ∈ cfg.manifest.entries) (hr : e.rejected = true) :
    (dutiful lib o).Triple (.prepare cfg) (fun _ => True) (sink.putRejectedObject lib e)
      fun _ _ => True := by
  refine triple_any ⟨e, he, hr, rfl, rfl⟩ fun a => ?_
  rcases a with err | _
  · dsimp only
    split
    · exact triple_ret _ fun _ => trivial
    · refine Protocol.Triple.bind (M := fun _ _ => True) (triple_any trivial fun a => ?_) fun b => ?_
      · rcases a with err | data <;> exact triple_ret _ fun _ => trivial
      · cases b <;> exact triple_ret _ fun _ => trivial
  · exact triple_ret _ fun _ => trivial

theorem triple_putRejectedObjects (sink : BatchResultStore) {es : List ManifestEntry}
    (hes : ∀ e ∈ es, e ∈ cfg.manifest.entries) :
    (dutiful lib o).Triple (.prepare cfg) (fun _ => True) (sink.putRejectedObjects lib es)
      fun _ _ => True := by
  induction es with
  | nil => exact triple_ret _ fun _ => trivial
  | cons e es ih =>
    rw [BatchResultStore.putRejectedObjects]
    have hrest := ih fun x hx => hes x (List.mem_cons_of_mem _ hx)
    split
    next hr =>
      refine (triple_putRejectedObject cfg sink (hes e List.mem_cons_self) hr).bind fun a => ?_
      rcases a with err | _
      · exact triple_ret _ fun _ => trivial
      · exact hrest
    next => exact hrest

/-! #### Activation -/

/-- The entries are those of the manifest, right after their activation. -/
def Fresh (cfg : RunConfig) (w : World) : Prop :=
  ∃ now, w.batch.entries.rows = cfg.manifest.activationEntries.map (activationRow now)

variable {w : World}

theorem fresh_of_activate {w' : World} {env : Env} {a : ResumableActivation}
    (ha : a.entries = cfg.manifest.activationEntries)
    (h : w.execStmt env (.activate a) = (w', .ok true)) : Fresh cfg w' := by
  rcases World.execStmt_cases h with ⟨-, hne⟩ | ⟨b, hb, rfl, -⟩
  · exact absurd rfl hne
  · obtain ⟨-, -, hrows⟩ := activateStmt_some hb
    exact ⟨env.now, by rw [hrows, ha]⟩

variable {sink : BatchResultStore}

theorem triple_activateResumable {A : World → Prop} (hA : (dutiful lib o).Stable (.prepare cfg) A)
    (hfresh : ∀ w, Fresh cfg w → A w) (hsink : sink.epoch = cfg.epoch) (ttl : Duration) :
    (dutiful lib o).Triple (.prepare cfg) (fun _ => True)
      (sink.activateResumable lib cfg.jobProcessorID ttl cfg.manifest)
      fun a w => a = .ok () → A w := by
  refine (triple_putRejectedObjects cfg sink fun _ h => h).bind fun a => ?_
  rcases a with err | _
  · exact triple_ret _ fun _ => nofun
  · refine Protocol.Triple.bind (M := fun a w => a = .ok () → A w) ?_ fun a => ?_
    · unfold activateResumableBatch
      split
      · exact triple_ret _ fun _ => nofun
      split
      · exact triple_ret _ fun _ => nofun
      split
      · exact triple_ret _ fun _ => nofun
      refine triple_call (c := .exec _) (B := fun (a : Except Err Bool) w => a = .ok true → A w)
        ⟨_, rfl, rfl, rfl, hsink⟩ Protocol.stable_true ?_ fun a => ?_
      · rintro w env w' a - - h rfl
        exact hfresh w' (fresh_of_activate cfg (by rfl) (Option.some.inj h))
      · rcases a with err | _ | _
        · exact (triple_ret _ fun _ => nofun).pre fun _ _ _ _ => trivial
        · exact (triple_ret _ fun _ => nofun).pre fun _ _ _ _ => trivial
        · exact (Protocol.Triple.ret hA fun _ _ _ h _ => h).pre fun _ _ _ h => h rfl
    · rcases a with err | _
      · exact (triple_ret _ fun _ => nofun).pre fun _ _ _ _ => trivial
      · exact (Protocol.Triple.ret hA fun _ _ _ h _ => h).pre fun _ _ _ h => h rfl

/-! #### Resumption -/

/-- A listed entry is a row as it was at some time. -/
def Seen (o : Others) (e : EntryRow) (w : World) : Prop :=
  e.Counted ∧ ∃ row ∈ w.batch.entries.rows, o.row e row

/-- The listed entries are rows. -/
def Listed (o : Others) (entries : List EntryRow) (w : World) : Prop := ∀ e ∈ entries, Seen o e w

variable {entries : List EntryRow}

theorem stable_listed {g : Duty} :
    (dutiful lib o).Stable g (Listed o entries) := by
  intro w w' _ _ hstep h e hm
  obtain ⟨hc, row, hr, hev⟩ := h e hm
  obtain ⟨row', hr', hev'⟩ := o.rows hstep row hr
  exact ⟨hc, row', hr', o.row_trans _ _ _ hev hev'⟩

theorem listed_entriesAfter (hw : w.Counted) (id : String) (after : Int) (limit : Nat) :
    Listed o ((w.entriesAfter id after).take limit) w := by
  intro e he
  have he := List.mem_of_mem_take he
  unfold World.entriesAfter at he
  split at he
  · have he := (List.mem_insertionSort _).1 he
    have hr := (List.mem_filter.1 he).1
    exact ⟨hw e hr, e, hr, o.row_refl e⟩
  · cases he

theorem Listed.append {rest : List EntryRow} (h : Listed o entries w) (h' : Listed o rest w) :
    Listed o (entries ++ rest) w := by
  intro e he
  rcases List.mem_append.1 he with he | he
  · exact h e he
  · exact h' e he

/-- The pages that were read before stay true while the next ones are read. -/
theorem triple_listResumableEntries (id : String) (pages : Nat) (after : Int)
    (before : List EntryRow) :
    (dutiful lib o).Triple (.prepare cfg) (Listed o before) (listResumableEntries id pages after)
      fun res w => ∀ entries, res = .ok entries → Listed o (before ++ entries) w := by
  induction pages generalizing after before with
  | zero => exact Protocol.Triple.ret stable_listed fun _ _ _ _ _ he => by cases he
  | succ pages ih =>
    refine triple_call (c := .listEntries _ _ _) (B := fun (a : Except Err (List EntryRow)) w =>
      ∀ page, a = .ok page → Listed o (before ++ page) w) trivial stable_listed ?_ fun a => ?_
    · rintro w env w' a hw hb h page rfl
      obtain ⟨rfl, ha⟩ := Prod.mk.inj (Option.some.inj h)
      simp only [World.read] at ha
      split at ha
      · rw [← Except.ok.inj ha]
        exact hb.append (listed_entriesAfter hw _ _ _)
      · cases ha
    · rcases a with err | page
      · exact (triple_ret _ fun _ _ he => by cases he).pre fun _ _ _ _ => trivial
      · refine Protocol.Triple.pre (A := Listed o (before ++ page)) ?_ fun _ _ _ h => h page rfl
        dsimp only
        split
        · refine Protocol.Triple.ret stable_listed fun _ _ _ h es hes => ?_
          cases hes
          exact h
        · refine (ih _ _).bind fun res => ?_
          rcases res with err | rest
          · exact (triple_ret _ fun _ _ he => by cases he).pre fun _ _ _ _ => trivial
          · refine Protocol.Triple.pre (A := Listed o (before ++ (page ++ rest))) ?_ ?_
            · refine Protocol.Triple.ret stable_listed fun _ _ _ h es hes => ?_
              cases hes
              exact h
            · intro w _ _ h
              have := h rest rfl
              rwa [List.append_assoc] at this

/-- The execution resumes from listed entries that match its manifest. -/
def Resumes (o : Others) (cfg : RunConfig) (seed : ResumableResumeState) (w : World) : Prop :=
  ∃ entries, seed = .ofEntries entries ∧
    List.Forall₂ EntryRow.Matches entries cfg.manifest.entries ∧ Listed o entries w

theorem stable_resumes {g : Duty} {seed : ResumableResumeState} :
    (dutiful lib o).Stable g (Resumes o cfg seed) := by
  rintro w w' hi hh hr ⟨entries, hseed, hm, hl⟩
  exact ⟨entries, hseed, hm, stable_listed w w' hi hh hr hl⟩

theorem triple_resumeState :
    (dutiful lib o).Triple (.prepare cfg) (fun _ => True)
      (resumeState cfg.batchID cfg.manifest cfg.pages)
      fun res w => ∀ seed, res = .ok seed → Resumes o cfg seed w := by
  refine Protocol.Triple.pre (A := Listed o []) ?_ fun _ _ _ _ e he => absurd he List.not_mem_nil
  refine (triple_listResumableEntries cfg _ _ _ []).bind fun res => ?_
  rcases res with err | entries
  · exact (triple_ret _ fun _ _ => nofun).pre fun _ _ _ _ => trivial
  · dsimp only
    cases hm : checkManifestIntegrity cfg.manifest entries with
    | error e => exact (triple_ret _ fun _ _ => nofun).pre fun _ _ _ _ => trivial
    | ok u =>
      refine Protocol.Triple.pre (A := Resumes o cfg (.ofEntries entries)) ?_
        fun w _ _ h => ⟨entries, rfl, checkManifestIntegrity_iff.1 hm, h entries rfl⟩
      refine Protocol.Triple.ret (stable_resumes cfg) fun _ _ _ h seed hs => ?_
      cases hs
      exact h

/-- What the answer of the preparation rests on. -/
def Answered (o : Others) (cfg : RunConfig) (A : World → Prop) :
    Except Err (Option ResumableResumeState) → World → Prop
  | .ok none, w => A w
  | .ok (some seed), w => Resumes o cfg seed w
  | .error _, _ => True

theorem triple_prepare_answered {A : World → Prop} (hA : (dutiful lib o).Stable (.prepare cfg) A)
    (hfresh : ∀ w, Fresh cfg w → A w) (hsink : sink.epoch = cfg.epoch) :
    (dutiful lib o).Triple (.prepare cfg) (fun _ => True) (cfg.prepare lib sink)
      (Answered o cfg A) := by
  unfold RunConfig.prepare
  split
  · refine (triple_resumeState cfg).bind fun res => ?_
    rcases res with err | seed
    · exact (triple_ret _ fun _ => trivial).pre fun _ _ _ _ => trivial
    · exact (Protocol.Triple.ret (stable_resumes cfg) fun _ _ _ h => h).pre
        fun _ _ _ h => h seed rfl
  · refine (triple_activateResumable cfg hA hfresh hsink _).bind fun res => ?_
    rcases res with err | _
    · exact (triple_ret _ fun _ => trivial).pre fun _ _ _ _ => trivial
    · exact (Protocol.Triple.ret hA fun _ _ _ h => h).pre fun _ _ _ h => h rfl

/-! #### The prepared batch -/

theorem stable_prepared {g : Duty} {seed : Option ResumableResumeState} :
    (dutiful lib o).Stable g (Prepared cfg seed) :=
  stable_of_evolves fun _ _ he h => h.evolves he

theorem Fresh.prepared (h : Fresh cfg w) : Prepared cfg none w := by
  obtain ⟨now, hrows⟩ := h
  have hmem : ∀ e ∈ cfg.manifest.entries,
      activationRow now e.activationEntry ∈ w.batch.entries.rows := by
    intro e he
    rw [hrows]
    exact List.mem_map_of_mem (List.mem_map_of_mem he)
  refine ⟨⟨fun e he => ⟨_, hmem e he, e.activationEntry_requestID⟩, fun e he hr => ?_⟩, nofun⟩
  refine ⟨_, hmem e he, e.activationEntry_requestID, ?_⟩
  simp only [activationRow, ManifestEntry.activationEntry, hr, if_true]
  rfl

theorem Listed.mem_of_terminal (h : Listed o entries w) {e : EntryRow} (he : e ∈ entries)
    (ht : e.status.isTerminal = true) :
    e ∈ w.batch.entries.rows := by
  obtain ⟨-, row, hr, hev⟩ := h e he
  rwa [(o.row_evolves hev).terminal ht] at hr

theorem Resumes.prepared {seed : ResumableResumeState} (h : Resumes o cfg seed w) :
    Prepared cfg (some seed) w := by
  obtain ⟨entries, rfl, hm, h⟩ := h
  have hentry : ∀ m ∈ cfg.manifest.entries, ∃ e ∈ entries, e.Matches m := fun m hmem =>
    exists_mem_of_forall₂ hm.flip hmem
  refine ⟨⟨fun m hmem => ?_, fun m hmem hr => ?_⟩, ?_⟩
  · obtain ⟨e, he, hq, -⟩ := hentry m hmem
    obtain ⟨-, row, hrow, hev⟩ := h e he
    exact ⟨row, hrow, (o.row_evolves hev).requestID.trans hq⟩
  · obtain ⟨e, he, hq, -, -, hrej⟩ := hentry m hmem
    have ht : e.status.isTerminal = true := by
      rw [(hrej.1 hr).1]
      rfl
    exact ⟨e, h.mem_of_terminal he ht, hq, ht⟩
  · rintro seed hseed
    cases hseed
    refine ⟨fun q hq => ?_, fun p hp => ?_⟩
    · obtain ⟨e, he, hq, ht⟩ := ResumableResumeState.mem_terminalRequestIDs.1 hq
      exact ⟨e, h.mem_of_terminal he ht, hq, ht⟩
    · obtain ⟨e, he, hs, -, -, hq⟩ := ResumableResumeState.mem_inFlightSubmittedBy.1 hp
      obtain ⟨hc, row, hr, hev⟩ := h e he
      have hev := o.row_evolves hev
      exact ⟨row, hr, hev.requestID.trans hq, (hc.2 hs).trans hev.attempts⟩

theorem triple_prepare (hsink : sink.epoch = cfg.epoch) :
    (dutiful lib o).Triple (.prepare cfg) (fun _ => True) (cfg.prepare lib sink) (Ready cfg) := by
  refine (triple_prepare_answered cfg (stable_prepared cfg) (fun _ h => h.prepared) hsink).post ?_
  intro res w _ _ h
  rcases res with err | _ | seed
  · trivial
  · exact h
  · exact Resumes.prepared cfg h

end Duty
end BatchGateway
