import BatchGateway.Checkpoint.System

/-! A committed entry always finds its object: no owner deletes or overwrites what an entry refers
to, whatever crashes and ambiguous answers come in between. -/
namespace BatchGateway

open Interleaving

variable {lib : Stdlib} {w w' : World} {env : Env} {op : StoreOp} {key : String}

def DotFree (s : String) : Prop := '.' ∉ s.toList

/-- Keys of the second kind, which one call creates for itself. -/
def IsFallback (batchID key : String) : Prop := ∃ q u, key = fallbackResultKey batchID q u

theorem canonical_ne_fallback {batchID r : String} (hr : DotFree r) :
    ¬ IsFallback batchID (resumableResultKey batchID r) := by
  rintro ⟨q, u, h⟩
  have hsuffix : r ++ ".jsonl" = (q ++ "." ++ u) ++ ".jsonl" := by
    simpa [resumableResultKey, fallbackResultKey, String.append_assoc] using h
  rw [(String.append_left_inj ".jsonl").1 hsuffix] at hr
  simp [DotFree] at hr

theorem resultKey_ne_empty (batchID r : String) : resumableResultKey batchID r ≠ "" := by
  intro h
  have := congrArg String.toList h
  simp [resumableResultKey] at this

theorem fallbackKey_ne_empty (batchID q u : String) : fallbackResultKey batchID q u ≠ "" := by
  intro h
  have := congrArg String.toList h
  simp [fallbackResultKey] at this

/-- A finished entry that points to the key. -/
def Refers (e : EntryRow) (key : String) : Prop :=
  e.status.isTerminal = true ∧ e.resultKey = some key

def Unreferenced (key : String) (w : World) : Prop :=
  ∀ e ∈ w.batch.entries.rows, ¬ Refers e key

/-- The object at the key has this size and digest. -/
def Stored (lib : Stdlib) (w : World) (key : String) (size : Int) (digest : String) : Prop :=
  ∃ data, w.objects key = some data ∧ (data.length : Int) = size ∧ lib.sha256 data = digest

/-- Every finished entry has the object that it describes. -/
structure Durable (lib : Stdlib) (w : World) : Prop where
  dotFree : ∀ e ∈ w.batch.entries.rows, DotFree e.requestID
  stored : ∀ e ∈ w.batch.entries.rows, e.status.isTerminal = true →
    ∃ key, e.resultKey = some key ∧
      Stored lib w key (e.resultBytes.getD 0) (e.resultSHA256.getD "")

/-- What one step of an operation may do to the objects and to the references to them. -/
structure Careful (op : StoreOp) (w w' : World) : Prop where
  id : w'.batch.row.id = w.batch.row.id
  callers : w'.callers = w.callers
  kept : ∀ key data, w.objects key = some data →
    (w'.objects key = some data ∧ w'.owner key = w.owner key) ∨
    ∃ s, op.sink = some s ∧ w.owner key = some s.caller ∧ IsFallback w.batch.row.id key ∧
      Unreferenced key w
  refers : ∀ e ∈ w'.batch.entries.rows, ∀ key, Refers e key → e ∈ w.batch.entries.rows ∨
    (∃ r, DotFree r ∧ key = resumableResultKey w.batch.row.id r) ∨
    ∃ s, op.sink = some s ∧ w.owner key = some s.caller

/-- What an operation can rely on while others run. -/
structure Undisturbed (op : StoreOp) (w w' : World) : Prop where
  id : w'.batch.row.id = w.batch.row.id
  canonical : ∀ r data, DotFree r → w.objects (resumableResultKey w.batch.row.id r) = some data →
    w'.objects (resumableResultKey w.batch.row.id r) = some data
  own : ∀ s key data, op.sink = some s → IsFallback w.batch.row.id key →
    w.owner key = some s.caller → w.objects key = some data →
    w'.owner key = some s.caller ∧ w'.objects key = some data ∧
      (Unreferenced key w → Unreferenced key w')

/-- The operation works on this batch under a mark that is taken. -/
def Marked (op : StoreOp) (w : World) : Prop :=
  ∀ s, op.sink = some s → s.caller < w.callers ∧ s.batchID = w.batch.row.id

/-- Two operations never share a mark. -/
def Apart (op op' : StoreOp) : Prop :=
  ∀ s s', op.sink = some s → op'.sink = some s' → s.caller ≠ s'.caller

theorem Undisturbed.trans {w₁ w₂ w₃ : World} (h : Undisturbed op w₁ w₂)
    (h' : Undisturbed op w₂ w₃) : Undisturbed op w₁ w₃ where
  id := h'.id.trans h.id
  canonical r data hr ho := by
    have := h'.canonical r data hr
    rw [h.id] at this
    exact this (h.canonical r data hr ho)
  own s key data hs hf hown ho := by
    obtain ⟨hown₂, ho₂, hu₂⟩ := h.own s key data hs hf hown ho
    obtain ⟨hown₃, ho₃, hu₃⟩ := h'.own s key data hs (h.id ▸ hf) hown₂ ho₂
    exact ⟨hown₃, ho₃, fun hu => hu₃ (hu₂ hu)⟩

theorem Careful.undisturbed {op' : StoreOp} (h : Careful op w w') (hpeer : Apart op op') :
    Undisturbed op' w w' where
  id := h.id
  canonical r data hr ho := by
    rcases h.kept _ _ ho with ⟨ho', -⟩ | ⟨s, -, -, hf, -⟩
    · exact ho'
    · exact absurd hf (canonical_ne_fallback hr)
  own s' key data hs' hf hown ho := by
    have hother : ¬ ∃ s, op.sink = some s ∧ w.owner key = some s.caller := by
      rintro ⟨s, hs, hs2⟩
      rw [hown] at hs2
      exact hpeer s s' hs hs' (Option.some.inj hs2).symm
    rcases h.kept _ _ ho with ⟨ho', hown'⟩ | ⟨s, hs, hs2, -⟩
    · refine ⟨hown'.trans hown, ho', fun hu e he href => ?_⟩
      rcases h.refers e he key href with he | ⟨r, hr, rfl⟩ | hs
      · exact hu e he href
      · exact canonical_ne_fallback hr hf
      · exact hother hs
    · exact absurd ⟨s, hs, hs2⟩ hother

theorem Careful.marked {op' : StoreOp} (h : Careful op w w') (hm : Marked op' w) :
    Marked op' w' := by
  intro s hs
  rw [h.callers, h.id]
  exact hm s hs

/-- The protocol between the operations on one batch. -/
def durability (lib : Stdlib) : Protocol (storeSystem lib) where
  inv := Durable lib
  holds := Marked
  rely := Undisturbed
  guar op _ _ := Careful op
  peer := Apart
  cond _ _ _ _ := True
  rely_refl _ _ := ⟨rfl, fun _ _ _ h => h, fun _ _ _ _ _ hown ho => ⟨hown, ho, fun hu => hu⟩⟩
  rely_trans _ _ _ _ h h' := h.trans h'
  guar_holds _ _ _ _ _ _ hm h := h.marked hm
  guar_rely _ _ _ _ _ _ _ hpeer _ hm h := ⟨h.undisturbed hpeer, h.marked hm⟩

/-! ### Single steps -/

theorem careful_refl (op : StoreOp) (w : World) : Careful op w w :=
  ⟨rfl, rfl, fun _ _ h => .inl ⟨h, rfl⟩, fun _ he _ _ => .inl he⟩

theorem Durable.of_objects {objects : String → Option Bytes} {owner : String → Option Nat}
    (hw : Durable lib w) (h : ∀ key data, ¬ Unreferenced key w → w.objects key = some data →
      objects key = some data) : Durable lib { w with objects := objects, owner := owner } where
  dotFree := hw.dotFree
  stored e he ht := by
    obtain ⟨key, hkey, data, hdata, hd⟩ := hw.stored e he ht
    exact ⟨key, hkey, data, h key data (fun hu => hu e he ⟨ht, hkey⟩) hdata, hd⟩

/-- Creating an object disturbs nobody. -/
theorem store_step {data : Bytes} {t : Nat} {r : Except Err Unit} (hw : Durable lib w)
    (h : w.perform env (.store key data t) = some (w', r)) :
    Durable lib w' ∧ Careful op w w' ∧ (r = .ok () → w.objects key = none ∧
      w'.objects key = some data ∧ w'.owner key = some t ∧ w'.batch = w.batch) := by
  rcases World.storeObject_cases (Option.some.inj h) with ⟨rfl, hr⟩ | ⟨hnone, rfl⟩
  · exact ⟨hw, careful_refl op _, fun hok => absurd hok hr⟩
  · have hne : ∀ k d, w.objects k = some d → k ≠ key := by
      rintro k d hk rfl
      rw [hnone] at hk
      cases hk
    refine ⟨hw.of_objects fun k d _ hk => ?_, ⟨rfl, rfl, fun k d hk => .inl ?_,
      fun e he _ _ => .inl he⟩, fun _ => ⟨hnone, if_pos rfl, if_pos rfl, rfl⟩⟩
    · exact (if_neg (hne k d hk)).trans hk
    · exact ⟨(if_neg (hne k d hk)).trans hk, if_neg (hne k d hk)⟩

variable {s : BatchResultStore}

/-- A caller may delete its own fallback object while no entry refers to it. -/
theorem delete_step {r : Except Err Unit} (hw : Durable lib w) (hop : op.sink = some s)
    (hown : w.owner key = some s.caller) (hf : IsFallback w.batch.row.id key)
    (hu : Unreferenced key w) (h : w.perform env (.delete key) = some (w', r)) :
    Durable lib w' ∧ Careful op w w' := by
  rcases World.deleteObjects_cases (Option.some.inj h) with rfl | rfl
  · exact ⟨hw, careful_refl op _⟩
  · refine ⟨hw.of_objects fun k d hk hd => ?_, ⟨rfl, rfl, fun k d hd => ?_,
      fun e he _ _ => .inl he⟩⟩
    · have hne : k ≠ key := fun hkey => hk (hkey ▸ hu)
      simpa [hne] using hd
    · by_cases hkey : k = key
      · subst hkey
        exact .inr ⟨s, hop, hown, hf, hu⟩
      · exact .inl ⟨by simpa [hkey] using hd, rfl⟩

variable {r : Except Err Bool}

/-- A statement that neither activates nor checkpoints keeps all references. -/
theorem other_step {s : Stmt} (hw : Durable lib w) (hact : ∀ a, s ≠ .activate a)
    (hchk : ∀ id q p e result, s ≠ .checkpoint id q p e result)
    (h : w.perform env (.exec s) = some (w', r)) : Durable lib w' ∧ Careful op w w' := by
  rcases World.execStmt_cases (Option.some.inj h) with ⟨rfl, -⟩ | ⟨b, hb, rfl, -⟩
  · exact ⟨hw, careful_refl op _⟩
  · have hrows : ∀ e ∈ b.entries.rows, e.status.isTerminal = true → e ∈ w.batch.entries.rows := by
      intro e he ht
      rcases Stmt.terminal_row_origin hb he ht with he | ⟨a, ha, -⟩ | ⟨_, _, _, _, _, _, hs, -⟩
      · exact he
      · exact absurd ha (hact a)
      · exact absurd hs (hchk _ _ _ _ _)
    refine ⟨⟨fun e he => ?_, fun e he ht => hw.stored e (hrows e he ht) ht⟩,
      ⟨Stmt.id_exec hb, rfl, fun _ _ h => .inl ⟨h, rfl⟩, fun e he key hr => .inl (hrows e he hr.1)⟩⟩
    rcases Stmt.requestID_origin hb he with ⟨e', he', hid⟩ | ⟨a, ha, -⟩
    · rw [← hid]
      exact hw.dotFree e' he'
    · exact absurd ha (hact a)

/-- The object that a commit of request `q` is about to refer to: the canonical one with the right
content, or a fallback object of the caller that no entry refers to. -/
def Ready (lib : Stdlib) (s : BatchResultStore) (q : String) (size : Int) (digest key : String)
    (w : World) : Prop :=
  (key = resumableResultKey s.batchID q ∧ (DotFree q → Stored lib w key size digest)) ∨
  (IsFallback s.batchID key ∧ w.owner key = some s.caller ∧ Stored lib w key size digest ∧
    Unreferenced key w)

theorem Ready.ne_empty {q digest : String} {size : Int} (h : Ready lib s q size digest key w) :
    key ≠ "" := by
  rcases h with ⟨rfl, -⟩ | ⟨⟨q, u, rfl⟩, -⟩
  · exact resultKey_ne_empty _ _
  · exact fallbackKey_ne_empty _ _ _

/-- Committing a prepared object keeps every entry with its object. -/
theorem commit_step {q proc digest : String} {e size : Int} {result : ResumableResult}
    (hw : Durable lib w) (hop : op.sink = some s) (hid : s.batchID = w.batch.row.id)
    (hsize : 0 ≤ size) (hready : Ready lib s q size digest key w) (hkey : result.resultKey = key)
    (hbytes : result.resultBytes = size) (hsha : result.resultSHA256 = digest)
    (h : w.perform env (.exec (.checkpoint s.batchID q proc e result)) = some (w', r)) :
    Durable lib w' ∧ Careful op w w' ∧ (r = .ok false → w' = w) := by
  rcases World.execStmt_cases (Option.some.inj h) with ⟨rfl, -⟩ | ⟨b, hb, rfl, hr⟩
  · exact ⟨hw, careful_refl op _, fun _ => rfl⟩
  have hnew : ∀ x ∈ b.entries.rows, x.status.isTerminal = true → x ∈ w.batch.entries.rows ∨
      ∃ y ∈ w.batch.entries.rows, y.requestID = q ∧ x = y.commit env.now result := by
    intro x hx ht
    rcases Stmt.terminal_row_origin hb hx ht with hx | ⟨a, ha, -⟩ | ⟨_, _, _, _, _, y, hs, hy, hq, hx⟩
    · exact .inl hx
    · cases ha
    · cases hs
      exact .inr ⟨y, hy, hq, hx⟩
  refine ⟨⟨fun x hx => ?_, fun x hx ht => ?_⟩, ⟨Stmt.id_exec hb, rfl, fun _ _ h => .inl ⟨h, rfl⟩,
    fun x hx k hk => ?_⟩, fun hok => ?_⟩
  · rcases Stmt.requestID_origin hb hx with ⟨y, hy, hq⟩ | ⟨a, ha, -⟩
    · rw [← hq]
      exact hw.dotFree y hy
    · cases ha
  · rcases hnew x hx ht with hx | ⟨y, hy, hq, rfl⟩
    · exact hw.stored x hx ht
    · have hstored : Stored lib w key size digest := by
        rcases hready with ⟨-, hs⟩ | ⟨-, -, hs, -⟩
        · exact hs (hq ▸ hw.dotFree y hy)
        · exact hs
      refine ⟨key, by simp [EntryRow.commit, orNull, hkey, hready.ne_empty], ?_⟩
      have hb : (y.commit env.now result).resultBytes.getD 0 = size := by
        simp only [EntryRow.commit, hbytes]
        split
        · rfl
        · simp only [Option.getD_none]
          omega
      have hs : (y.commit env.now result).resultSHA256.getD "" = digest := by
        simp only [EntryRow.commit, orNull, hsha]
        split
        next he => exact he.symm
        next => rfl
      rw [hb, hs]
      exact hstored
  · rcases hnew x hx hk.1 with hx | ⟨y, hy, hq, rfl⟩
    · exact .inl hx
    · have hk2 : key = k := by
        have := hk.2
        simpa [EntryRow.commit, orNull, hkey, hready.ne_empty] using this
      subst hk2
      rcases hready with ⟨hc, -⟩ | ⟨-, hown, -, -⟩
      · exact .inr (.inl ⟨q, hq ▸ hw.dotFree y hy, hid ▸ hc⟩)
      · exact .inr (.inr ⟨s, hop, hown⟩)
  · rcases hr with hr | hr <;> rw [hr] at hok <;> cases hok

/-- What ingestion establishes about the entries of a manifest. -/
def WellKeyed (lib : Stdlib) (batchID : String) (es : List ManifestEntry) : Prop :=
  ∀ e ∈ es, DotFree e.requestID ∧
    (e.rejected = true → e.resultKey = resumableResultKey batchID e.requestID ∧
      e.resultBytes = e.errLine.length ∧ e.resultSHA256 = lib.sha256 e.errLine)

/-- The error objects of all rejected entries are stored. -/
def RejectedStored (lib : Stdlib) (es : List ManifestEntry) (w : World) : Prop :=
  ∀ e ∈ es, e.rejected = true → Stored lib w e.resultKey e.resultBytes e.resultSHA256

theorem activationEntries_mem {m : RequestManifest} {x : ResumableActivationEntry}
    (h : x ∈ m.activationEntries) : ∃ e ∈ m.entries, x = e.activationEntry := by
  obtain ⟨e, he, rfl⟩ := List.mem_map.1 h
  exact ⟨e, he, rfl⟩

/-- Activating a manifest whose error objects are stored keeps every entry with its object. -/
theorem activate_step {m : RequestManifest} {a : ResumableActivation} (hw : Durable lib w)
    (hm : WellKeyed lib w.batch.row.id m.entries) (hrej : RejectedStored lib m.entries w)
    (ha : a.entries = m.activationEntries)
    (h : w.perform env (.exec (.activate a)) = some (w', r)) :
    Durable lib w' ∧ Careful op w w' := by
  rcases World.execStmt_cases (Option.some.inj h) with ⟨rfl, -⟩ | ⟨b, hb, rfl, -⟩
  · exact ⟨hw, careful_refl op _⟩
  obtain ⟨-, -, hrows⟩ := activateStmt_some hb
  have hrow : ∀ x ∈ b.entries.rows, ∃ e ∈ m.entries, x = activationRow env.now e.activationEntry := by
    intro x hx
    rw [hrows, ha, List.mem_map] at hx
    obtain ⟨y, hy, rfl⟩ := hx
    obtain ⟨e, he, rfl⟩ := activationEntries_mem hy
    exact ⟨e, he, rfl⟩
  have hrejected : ∀ e, (activationRow env.now (ManifestEntry.activationEntry e)).status.isTerminal =
      true → e.rejected = true := by
    intro e ht
    by_contra hr
    simp [activationRow, ManifestEntry.activationEntry_status, hr, EntryStatus.isTerminal] at ht
  refine ⟨⟨fun x hx => ?_, fun x hx ht => ?_⟩, ⟨Stmt.id_exec hb, rfl, fun _ _ h => .inl ⟨h, rfl⟩,
    fun x hx k hk => ?_⟩⟩
  · obtain ⟨e, he, rfl⟩ := hrow x hx
    simpa [activationRow] using (hm e he).1
  · obtain ⟨e, he, rfl⟩ := hrow x hx
    have hr := hrejected e ht
    have hkey := ((hm e he).2 hr).1
    refine ⟨e.resultKey, ?_, ?_⟩
    · simp [activationRow, ManifestEntry.activationEntry, hr, orNull, hkey, resultKey_ne_empty]
    · have hs := hrej e he hr
      have hb : (activationRow env.now e.activationEntry).resultBytes.getD 0 = e.resultBytes := by
        simp only [activationRow, ManifestEntry.activationEntry, hr, if_true]
        split
        next h0 => exact h0.symm
        next => rfl
      have hd : (activationRow env.now e.activationEntry).resultSHA256.getD "" = e.resultSHA256 := by
        simp only [activationRow, ManifestEntry.activationEntry, hr, if_true, orNull]
        split
        next h0 => exact h0.symm
        next => rfl
      rw [hb, hd]
      exact hs
  · obtain ⟨e, he, rfl⟩ := hrow x hx
    have hr := hrejected e hk.1
    have hkey := ((hm e he).2 hr).1
    have hk2 : e.resultKey = k := by
      have := hk.2
      simpa [activationRow, ManifestEntry.activationEntry, hr, orNull, hkey,
        resultKey_ne_empty] using this
    exact .inr (.inl ⟨e.requestID, (hm e he).1, hk2 ▸ hkey⟩)

/-! ### The programs -/

section Programs

variable {s : BatchResultStore} {q digest : String} {size : Int} {α β : Type}
  {A : World → Prop} {Q : β → World → Prop}

theorem triple_read {c : Call} {B : c.Resp → World → Prop} {k : c.Resp → Task β}
    (hc : c.IsRead = true) (hA : (durability lib).Stable op A)
    (hB : ∀ w env a, A w → w.perform env c = some (w, a) → B a w)
    (hk : ∀ a, (durability lib).Triple op (B a) (k a) Q) :
    (durability lib).Triple op A (call c >>= k) Q := by
  refine Protocol.Triple.lift_bind hA (fun w env w₂ a hi _ ha _ h => ?_) hk
  have heq : w₂ = w := World.read_perform hc h
  subst heq
  exact ⟨hi, careful_refl op _, hB _ env a ha h⟩

theorem stable_canonical (hop : op.sink = some s) : (durability lib).Stable op
    fun w => DotFree q → Stored lib w (resumableResultKey s.batchID q) size digest := by
  intro w w' _ hm hr h hq
  obtain ⟨data, hdata, hd⟩ := h hq
  have hid : s.batchID = w.batch.row.id := ((hm s hop).2).trans hr.id
  rw [hid] at hdata ⊢
  exact ⟨data, hr.canonical q data hq hdata, hd⟩

theorem stable_ready (hop : op.sink = some s) :
    (durability lib).Stable op (Ready lib s q size digest key) := by
  intro w w' hi hm hr h
  rcases h with ⟨hkey, hs⟩ | ⟨hf, hown, ⟨data, hdata, hd⟩, hu⟩
  · subst hkey
    exact .inl ⟨rfl, stable_canonical hop w w' hi hm hr hs⟩
  · have hid : s.batchID = w.batch.row.id := ((hm s hop).2).trans hr.id
    obtain ⟨hown', hdata', hu'⟩ := hr.own s key data hop (hid ▸ hf) hown hdata
    exact .inr ⟨hf, hown', ⟨data, hdata', hd⟩, hu' hu⟩

theorem triple_verifyStored (hop : op.sink = some s) :
    (durability lib).Triple op (fun _ => True)
      (lib.verifyStored (resumableResultKey s.batchID q) digest size)
      fun b w => b = true → DotFree q →
        Stored lib w (resumableResultKey s.batchID q) size digest := by
  let B : Except Err Bytes → World → Prop := fun a w => ∀ data, a = .ok data →
    (data.length : Int) = size ∧ lib.sha256 data = digest → DotFree q →
      Stored lib w (resumableResultKey s.batchID q) size digest
  have hB : ∀ a, (durability lib).Stable op (B a) := fun a w w' hi hm hr h data ha hd =>
    stable_canonical hop w w' hi hm hr (h data ha hd)
  refine triple_read (c := .retrieve _) (B := B) rfl Protocol.stable_true ?_ fun a => ?_
  · rintro w env a - h data rfl hd -
    exact ⟨data, World.objects_of_retrieve (Prod.mk.inj (Option.some.inj h)).2, hd⟩
  · rcases a with err | data
    · exact Protocol.Triple.ret (hB _) fun w _ _ _ => nofun
    · exact Protocol.Triple.ret (hB _) fun w _ _ h hb => h data rfl (of_decide_eq_true hb)

/-- Only a successful create tells anything about the object. -/
theorem triple_store {data : Bytes} {t : Nat} {B : World → Prop} {k : Except Err Unit → Task β}
    (hB : ∀ w w' : World, Durable lib w → Marked op w → w.objects key = none →
      w'.objects key = some data → w'.owner key = some t → w'.batch = w.batch → B w')
    (hok : (durability lib).Triple op B (k (.ok ())) Q)
    (herr : ∀ e, (durability lib).Triple op (fun _ => True) (k (.error e)) Q) :
    (durability lib).Triple op (fun _ => True) (call (.store key data t) >>= k) Q := by
  refine Protocol.Triple.lift_bind (c := Call.store key data t)
    (B := fun (a : Except Err Unit) w => a = .ok () → B w) Protocol.stable_true
    (fun w env w₂ a hi hm _ _ h => ?_) fun a => ?_
  · obtain ⟨hd, hc, hnew⟩ : Durable lib w₂ ∧ Careful op w w₂ ∧ _ := store_step hi h
    refine ⟨hd, hc, fun ha => ?_⟩
    obtain ⟨hnone, hdata, hown, hbatch⟩ := hnew ha
    exact hB w w₂ hi hm hnone hdata hown hbatch
  · rcases a with e | _
    · exact (herr e).pre fun _ _ _ _ => trivial
    · exact hok.pre fun _ _ _ h => h rfl

/-- A stored key, if there is one, is ready to be committed. -/
def KeyReady (lib : Stdlib) (s : BatchResultStore) (q : String) (line : Bytes)
    (res : Except Err String) (w : World) : Prop :=
  ∀ key, res = .ok key → Ready lib s q line.length (lib.sha256 line) key w

theorem triple_ret_key (hop : op.sink = some s) (line : Bytes) :
    (durability lib).Triple op (Ready lib s q line.length (lib.sha256 line) key) (.ret (.ok key))
      (KeyReady lib s q line) := by
  refine Protocol.Triple.ret (stable_ready hop) fun w _ _ h k hk => ?_
  cases hk
  exact h

theorem triple_ret_error (line : Bytes) (e : Err) :
    (durability lib).Triple op (fun _ => True) (.ret (.error e)) (KeyReady lib s q line) :=
  Protocol.Triple.ret Protocol.stable_true fun _ _ _ _ => nofun

/-- Storing the line of a result prepares an object to commit. -/
theorem triple_storeObject (hop : op.sink = some s) (line : Bytes) :
    (durability lib).Triple op (fun _ => True)
      (s.storeObject lib q line (lib.sha256 line) line.length) (KeyReady lib s q line) := by
  refine triple_store (fun w w' _ _ _ hdata _ _ => .inl ⟨rfl, fun _ => ⟨line, hdata, rfl, rfl⟩⟩)
    (triple_ret_key hop line) fun e => ?_
  dsimp only
  split
  · exact triple_ret_error line _
  · refine (triple_verifyStored hop).bind fun b => ?_
    cases b with
    | true => exact (triple_ret_key hop line).pre fun w _ _ h => .inl ⟨rfl, h rfl⟩
    | false =>
      refine Protocol.Triple.pre (A := fun _ => True) ?_ fun _ _ _ _ => trivial
      refine triple_read (c := .ask) (B := fun _ _ => True) rfl Protocol.stable_true
        (fun _ _ _ _ _ => trivial) fun env => ?_
      -- Nothing is stored at the fallback key yet, so no entry refers to it.
      refine triple_store (fun w w' hi hm hnone hdata hown hbatch => .inr
        ⟨⟨q, _, rfl⟩, hown, ⟨line, hdata, rfl, rfl⟩, fun e he href => ?_⟩)
        (triple_ret_key hop line) fun e => triple_ret_error line _
      rw [hbatch] at he
      obtain ⟨k, hk, d, hd, -⟩ := hi.stored e he href.1
      cases hk.symm.trans href.2
      rw [hnone] at hd
      cases hd

theorem triple_entryNotUpdatable (hA : (durability lib).Stable op A) (name id r p : String)
    (e : Int) : (durability lib).Triple op A (entryNotUpdatable name id r p e) fun _ => A := by
  refine triple_read (c := .entryStatus _ _ _ _) (B := fun _ => A) rfl hA
    (fun _ _ _ h _ => h) fun a => ?_
  rcases a with _ | _ | status
  · exact Protocol.Triple.ret hA fun _ _ _ h => h
  · exact Protocol.Triple.ret hA fun _ _ _ h => h
  · dsimp only
    split <;> exact Protocol.Triple.ret hA fun _ _ _ h => h

/-- The postcondition of an operation as a whole: none. -/
abbrev Done {β : Type} : β → World → Prop := fun _ _ => True

theorem triple_done (a : β) : (durability lib).Triple op (fun _ => True) (.ret a) Done :=
  Protocol.Triple.ret Protocol.stable_true fun _ _ _ _ => trivial

/-- A commit that reports a duplicate did not use the object. -/
theorem triple_checkpointEntryResult {result : ResumableResult} {proc : String} {e : Int}
    (hop : op.sink = some s) (hsize : 0 ≤ size) (hkey : result.resultKey = key)
    (hbytes : result.resultBytes = size) (hsha : result.resultSHA256 = digest) :
    (durability lib).Triple op (Ready lib s q size digest key)
      (checkpointEntryResult s.batchID q proc e result)
      fun a w => a = .ok false → Ready lib s q size digest key w := by
  have hstable : (durability lib).Stable op (Ready lib s q size digest key) := stable_ready hop
  unfold checkpointEntryResult
  split
  · exact Protocol.Triple.ret hstable fun _ _ _ _ => nofun
  · refine Protocol.Triple.lift_bind (c := Call.exec _)
      (B := fun (a : Except Err Bool) w => a = .ok false → Ready lib s q size digest key w) hstable
      (fun w env w₂ a hi hm hready _ h => ?_) fun a => ?_
    · obtain ⟨hd, hc, hsame⟩ := commit_step hi hop (hm s hop).2 hsize hready hkey hbytes hsha h
      refine ⟨hd, hc, fun ha => ?_⟩
      rw [hsame ha]
      exact hready
    · rcases a with err | _ | _
      · exact Protocol.Triple.ret (fun _ _ _ _ _ _ => nofun) fun _ _ _ _ => nofun
      · refine ((triple_entryNotUpdatable hstable _ _ _ _ _).pre fun _ _ _ h => h rfl).post ?_
        exact fun _ _ _ _ h _ => h
      · exact Protocol.Triple.ret (fun _ _ _ _ _ _ => nofun) fun _ _ _ _ => nofun

theorem triple_commitObject (hop : op.sink = some s) (msg : ResultItem) (line : Bytes) :
    (durability lib).Triple op (Ready lib s msg.requestID line.length (lib.sha256 line) key)
      (s.commitObject msg (lib.sha256 line) line.length key) Done := by
  refine Protocol.Triple.bind (M := fun a w => a = .ok false →
      Ready lib s msg.requestID line.length (lib.sha256 line) key w)
    (triple_checkpointEntryResult hop (Int.natCast_nonneg _) (by rfl) (by rfl) (by rfl))
    fun a => ?_
  rcases a with err | _ | _
  · exact (triple_done _).pre fun _ _ _ _ => trivial
  · dsimp only
    split
    next hne =>
      refine Protocol.Triple.pre (A := Ready lib s msg.requestID line.length (lib.sha256 line) key)
        ?_ fun _ _ _ h => h rfl
      refine Protocol.Triple.lift_bind (c := Call.delete key) (B := fun _ _ => True)
        (stable_ready hop) (fun w env w₂ a hi hm hready _ h => ?_) fun _ => triple_done _
      rcases hready with ⟨hkey, -⟩ | ⟨hf, hown, -, hu⟩
      · exact absurd hkey hne
      · obtain ⟨hd, hc⟩ := delete_step hi hop hown ((hm s hop).2 ▸ hf) hu h
        exact ⟨hd, hc, trivial⟩
    next => exact (triple_done _).pre fun _ _ _ _ => trivial
  · exact (triple_done _).pre fun _ _ _ _ => trivial

theorem triple_checkpointResult (hop : op.sink = some s) (msg : ResultItem) :
    (durability lib).Triple op (fun _ => True) (s.checkpointResult lib msg) Done := by
  refine triple_read (c := .findEntry _ _) (B := fun _ _ => True) rfl Protocol.stable_true
    (fun _ _ _ _ _ => trivial) fun a => ?_
  rcases a with err | entry
  · exact triple_done _
  · dsimp only
    split
    · exact triple_done _
    · refine (triple_storeObject hop _).bind fun res => ?_
      rcases res with err | key
      · exact (triple_done _).pre fun _ _ _ _ => trivial
      · exact (triple_commitObject hop msg _).pre fun _ _ _ h => h key rfl

/-- The error object of a rejected entry is stored when its turn is over. -/
theorem triple_putRejectedObject (hop : op.sink = some s) {e : ManifestEntry}
    (hkey : e.resultKey = resumableResultKey s.batchID e.requestID) (hdot : DotFree e.requestID)
    (hbytes : e.resultBytes = e.errLine.length) (hsha : e.resultSHA256 = lib.sha256 e.errLine) :
    (durability lib).Triple op (fun _ => True) (s.putRejectedObject lib e)
      fun a w => a = .ok () → Stored lib w e.resultKey e.resultBytes e.resultSHA256 := by
  have hstable : (durability lib).Stable op
      fun w => Stored lib w e.resultKey e.resultBytes e.resultSHA256 := by
    rw [hkey]
    exact fun w w' hi hm hr h => stable_canonical hop w w' hi hm hr (fun _ => h) hdot
  refine triple_store (B := fun w => Stored lib w e.resultKey e.resultBytes e.resultSHA256)
    (fun w w' _ _ _ hdata _ _ => ⟨_, hdata, hbytes.symm, hsha.symm⟩)
    (Protocol.Triple.ret hstable fun _ _ _ h _ => h) fun err => ?_
  dsimp only
  split
  · exact Protocol.Triple.ret Protocol.stable_true fun _ _ _ _ => nofun
  · rw [hkey] at hstable ⊢
    refine (triple_verifyStored hop).bind fun b => ?_
    cases b with
    | true =>
      exact (Protocol.Triple.ret hstable fun _ _ _ h _ => h).pre fun _ _ _ h => h rfl hdot
    | false =>
      exact (Protocol.Triple.ret Protocol.stable_true fun _ _ _ _ => nofun).pre
        fun _ _ _ _ => trivial

variable {es : List ManifestEntry}

section

variable (hop : op.sink = some s) (hes : WellKeyed lib s.batchID es)
include hop hes

/-- The error objects of a well-keyed list stay stored. -/
theorem stable_rejectedStored :
    (durability lib).Stable op (RejectedStored lib es) := by
  intro w w' hi hm hr h e he hrej
  obtain ⟨hdot, hk⟩ := hes e he
  have := h e he hrej
  rw [(hk hrej).1] at this ⊢
  exact stable_canonical hop w w' hi hm hr (fun _ => this) hdot

theorem rejectedStored_guar (hm : Marked op w) (hc : Careful op w w')
    (h : RejectedStored lib es w) : RejectedStored lib es w' := by
  intro e he hrej
  obtain ⟨hdot, hk⟩ := hes e he
  obtain ⟨data, hdata, hd⟩ := h e he hrej
  refine ⟨data, ?_, hd⟩
  rcases hc.kept _ _ hdata with ⟨hdata', -⟩ | ⟨_, -, -, hf, -⟩
  · exact hdata'
  · rw [(hk hrej).1, (hm s hop).2] at hf
    exact absurd hf (canonical_ne_fallback hdot)

theorem triple_putRejectedObjects :
    (durability lib).Triple op (fun _ => True) (s.putRejectedObjects lib es)
      fun a w => a = .ok () → RejectedStored lib es w := by
  induction es with
  | nil => exact Protocol.Triple.ret Protocol.stable_true fun _ _ _ _ _ => nofun
  | cons e es ih =>
    obtain ⟨⟨hdot, hk⟩, hrest⟩ := List.forall_mem_cons.1 hes
    unfold BatchResultStore.putRejectedObjects
    split
    next hrej =>
      obtain ⟨hkey, hbytes, hsha⟩ := hk hrej
      have hone : WellKeyed lib s.batchID [e] := by simpa [WellKeyed] using ⟨hdot, hk⟩
      refine (triple_putRejectedObject hop hkey hdot hbytes hsha).bind fun a => ?_
      rcases a with err | _
      · exact (Protocol.Triple.ret Protocol.stable_true fun _ _ _ _ => nofun).pre
          fun _ _ _ _ => trivial
      · -- The object of this entry outlives the rest of the loop.
        refine (((ih hrest).frame (stable_rejectedStored hop hone)
          fun w _ _ w' _ hm hc h => rejectedStored_guar hop hone hm hc h).pre
          fun w _ _ h => ⟨trivial, fun x hx _ => ?_⟩).post fun a w _ _ h ha x hx hxr => ?_
        · rw [List.mem_singleton.1 hx]
          exact h rfl
        · rcases List.mem_cons.1 hx with rfl | hx
          · exact h.2 x (List.mem_singleton.2 rfl) hxr
          · exact h.1 ha x hx hxr
    next hrej =>
      refine (ih hrest).post fun a w _ _ h ha x hx hxr => ?_
      rcases List.mem_cons.1 hx with rfl | hx
      · exact absurd hxr hrej
      · exact h ha x hx hxr

end

theorem triple_activateResumable (hop : op.sink = some s) {m : RequestManifest}
    (hm : WellKeyed lib s.batchID m.entries) (proc : String) (ttl : Duration) :
    (durability lib).Triple op (fun _ => True) (s.activateResumable lib proc ttl m) Done := by
  refine (triple_putRejectedObjects hop hm).bind fun a => ?_
  rcases a with err | _
  · exact (triple_done _).pre fun _ _ _ _ => trivial
  · refine Protocol.Triple.pre (A := RejectedStored lib m.entries) ?_ fun _ _ _ h => h rfl
    have hstable := stable_rejectedStored hop hm
    refine Protocol.Triple.bind (M := fun _ _ => True) ?_ fun a => ?_
    · unfold activateResumableBatch
      split
      · exact (triple_done _).pre fun _ _ _ _ => trivial
      split
      · exact (triple_done _).pre fun _ _ _ _ => trivial
      split
      · exact (triple_done _).pre fun _ _ _ _ => trivial
      refine Protocol.Triple.lift_bind (c := Call.exec _) (B := fun _ _ => True) hstable
        (fun w env w₂ a hi hmark hrej _ h => ?_) fun a => ?_
      · obtain ⟨hd, hc⟩ : Durable lib w₂ ∧ Careful op w w₂ :=
          activate_step hi ((hmark s hop).2 ▸ hm) hrej rfl h
        exact ⟨hd, hc, trivial⟩
      · rcases a with _ | _ | _ <;> exact triple_done _
    · rcases a with _ | _ <;> exact triple_done _

/-- One statement that neither activates nor checkpoints. -/
theorem triple_other {st : Stmt} {k : Except Err Bool → Task β}
    (hact : ∀ a, st ≠ .activate a) (hchk : ∀ id q p e result, st ≠ .checkpoint id q p e result)
    (hk : ∀ a, (durability lib).Triple op (fun _ => True) (k a) Q) :
    (durability lib).Triple op (fun _ => True) (call (.exec st) >>= k) Q := by
  refine Protocol.Triple.lift_bind (c := Call.exec st) (B := fun _ _ => True) Protocol.stable_true
    (fun w env w₂ a hi _ _ _ h => ?_) hk
  obtain ⟨hd, hc⟩ : Durable lib w₂ ∧ Careful op w w₂ := other_step hi hact hchk h
  exact ⟨hd, hc, trivial⟩

theorem dotFree_stable (hlib : ∀ name, DotFree (lib.uuidSHA1 name)) (batchID customID : String) :
    DotFree (lib.stableBatchRequestID batchID customID) := by
  have := hlib (batchID ++ "\x00" ++ customID)
  simpa [DotFree, Stdlib.stableBatchRequestID, newBatchRequestID] using this

theorem wellKeyed_ingest (hlib : ∀ name, DotFree (lib.uuidSHA1 name)) {batchID : String}
    {registered : String → Bool} {lines : List RequestMeta} {m : RequestManifest}
    (h : lib.ingest batchID registered lines = .ok m) : WellKeyed lib batchID m.entries := by
  intro e he
  obtain ⟨ordinal, line, rfl⟩ := Stdlib.ingest_entry h he
  refine ⟨?_, fun hr => Stdlib.manifestEntry_resultKey hr⟩
  rw [Stdlib.manifestEntry_requestID]
  exact dotFree_stable hlib _ _

theorem triple_code (hlib : ∀ name, DotFree (lib.uuidSHA1 name)) (op : StoreOp)
    (hst : ∀ st, op = .stmt st → st.IsOther = true) :
    (durability lib).Triple op (fun _ => True) (op.code lib) Done := by
  cases op with
  | checkpoint s msg => exact triple_checkpointResult rfl msg
  | mark id q p e =>
    refine triple_other nofun nofun fun a => ?_
    rcases a with _ | _ | _
    · exact triple_done _
    · exact (triple_entryNotUpdatable Protocol.stable_true _ _ _ _ _)
    · exact triple_done _
  | activate s proc ttl registered lines =>
    simp only [StoreOp.code]
    split
    · exact triple_done _
    next m hm =>
      refine (triple_activateResumable rfl (wellKeyed_ingest hlib hm) proc ttl).bind fun a => ?_
      rcases a with _ | _ <;> exact triple_done _
  | stmt st =>
    have hst := hst st rfl
    refine triple_other (fun a ha => ?_) (fun id q p e result hc => ?_) fun a => ?_
    · simp [ha, Stmt.IsOther] at hst
    · simp [hc, Stmt.IsOther] at hst
    · rcases a with _ | _ <;> exact triple_done _

end Programs

/-- Operations start without disturbing each other, under marks of their own. -/
theorem durability_starts (hlib : ∀ name, DotFree (lib.uuidSHA1 name)) :
    (durability lib).Starts fun _ => Done := by
  intro env op w w' hi h
  have hs : op.Started w w' := StoreOp.started h
  have hd : Durable lib w' := by
    constructor
    · rw [hs.batch]
      exact hi.dotFree
    · rw [hs.batch]
      simpa only [Stored, hs.objects] using hi.stored
  have hmark : Marked op w' := fun s hop => by
    obtain ⟨-, hlt, hid⟩ := hs.sink s hop
    rw [hs.batch]
    exact ⟨hlt, hid⟩
  refine ⟨hd, hmark, triple_code hlib op hs.other w' hd hmark trivial, fun op' hm' => ?_⟩
  have hne : ∀ s s', op.sink = some s → op'.sink = some s' → s.caller ≠ s'.caller := by
    intro s s' hop hop' heq
    have h1 := (hs.sink s hop).1
    have h2 := (hm' s' hop').1
    omega
  refine ⟨hne, fun s s' hop' hop heq => hne s' s hop hop' heq.symm, ⟨by rw [hs.batch], ?_, ?_⟩, ?_⟩
  · intro r data _ ho
    rw [hs.objects]
    exact ho
  · intro s key data _ _ hown ho
    rw [hs.owner, hs.objects]
    exact ⟨hown, ho, fun hu => by simpa only [Unreferenced, hs.batch] using hu⟩
  · intro s hop'
    obtain ⟨hlt, hid⟩ := hm' s hop'
    rw [hs.batch]
    exact ⟨Nat.lt_of_lt_of_le hlt hs.callers, hid⟩

theorem durability_reachable (hlib : ∀ name, DotFree (lib.uuidSHA1 name)) {row : BatchRow}
    {ls : List (Label Env StoreOp)} {p : StorePool}
    (h : exec (storeSystem lib).step ⟨{ w with batch := ⟨row, .empty⟩ }, []⟩ ls = some p) :
    (durability lib).Ok (fun _ => Done) p :=
  Protocol.ok_exec (durability_starts hlib)
    (Protocol.ok_empty ⟨fun _ he => absurd he List.not_mem_nil,
      fun _ he => absurd he List.not_mem_nil⟩)
    (along_mono (fun _ l _ => by cases l <;> simp [StepCond, durability]) (along_true _ ls)) h

/-- Checkpoint durability: in every run of checkpoints and activations of any owners, with crashes
and ambiguous answers anywhere, every finished entry has an object of its recorded size and digest,
and no step deletes or overwrites it. -/
theorem checkpoint_durability (hlib : ∀ name, DotFree (lib.uuidSHA1 name)) (w : World)
    (row : BatchRow) {ls : List (Label Env StoreOp)} {p : StorePool}
    (hp : exec (storeSystem lib).step ⟨{ w with batch := ⟨row, .empty⟩ }, []⟩ ls = some p) :
    (∀ e ∈ p.world.batch.entries.rows, e.status.isTerminal = true →
      ∃ key data, e.resultKey = some key ∧ p.world.objects key = some data ∧
        (data.length : Int) = e.resultBytes.getD 0 ∧ lib.sha256 data = e.resultSHA256.getD "") ∧
    (∀ l q, (storeSystem lib).step p l = some q → ∀ e ∈ p.world.batch.entries.rows,
      e.status.isTerminal = true → ∀ key, e.resultKey = some key →
        q.world.objects key = p.world.objects key) := by
  have hok := durability_reachable hlib hp
  refine ⟨fun e he ht => ?_, fun l q hl e he ht key hkey => ?_⟩
  · obtain ⟨key, hkey, data, hdata, hlen, hsha⟩ := hok.inv.stored e he ht
    exact ⟨key, data, hkey, hdata, hlen, hsha⟩
  · rcases (storeSystem lib).step_cases hl with ⟨env, op, w', hw⟩ |
      ⟨i, env, op, c, k, w', a, hi, hc⟩ | ⟨i, op, m, -⟩
    · rw [show w'.objects = p.world.objects from (StoreOp.started hw).objects]
    · obtain ⟨key', hkey', data, hdata, -⟩ := hok.inv.stored e he ht
      cases hkey'.symm.trans hkey
      obtain ⟨-, hcare, -⟩ := hok.call hi trivial hc
      rcases Careful.kept hcare _ _ hdata with ⟨hdata', -⟩ | ⟨_, -, -, -, hu⟩
      · rw [hdata']
        exact hdata.symm
      · exact absurd ⟨ht, hkey⟩ (hu e he)
    · rfl

/-- The first checkpoint crashes after it stored its object; a second result goes to a fallback
key and is committed from there. -/
def sampleFallback : List (Label Env StoreOp) :=
  sampleStart ++ [.crash 3, .spawn {} (.checkpoint ⟨"batch_1", "p", 1, 2⟩ (sampleResult false)),
    .run 4 {}, .run 4 {}, .run 4 {}, .run 4 { uuid := "4d4a0c3e-7a0a-4b67-9d0a-0f6c1b6f4c11" },
    .run 4 {}, .run 4 {}]

theorem sample_dotFree (name : String) : DotFree (Stdlib.sample.uuidSHA1 name) := by
  unfold DotFree
  simp only [Stdlib.sample]
  split_ifs <;> decide

theorem checkpoint_durability_fallback :
    ∃ p, exec (storeSystem .sample).step ⟨sampleWorld, []⟩ sampleFallback = some p ∧
      ∃ e ∈ p.world.batch.entries.rows, e.status = .failed ∧ ∃ key data,
        e.resultKey = some key ∧ p.world.objects key = some data ∧
        (data.length : Int) = e.resultBytes.getD 0 ∧
        Stdlib.sample.sha256 data = e.resultSHA256.getD "" := by
  obtain ⟨p, hp⟩ : ∃ p, exec (storeSystem .sample).step ⟨sampleWorld, []⟩ sampleFallback = some p :=
    Option.isSome_iff_exists.1 (by decide +kernel)
  have hrow : (exec (storeSystem .sample).step ⟨sampleWorld, []⟩ sampleFallback).any
      (fun p => p.world.batch.entries.rows.any (·.status = .failed)) = true := by decide +kernel
  rw [hp, Option.any_some, List.any_eq_true] at hrow
  obtain ⟨e, he, hf⟩ := hrow
  have hf : e.status = .failed := of_decide_eq_true hf
  exact ⟨p, hp, e, he, hf, (checkpoint_durability sample_dotFree sampleWorld _ hp).1 e he
    (by rw [hf]; rfl)⟩

end BatchGateway
