import BatchGateway.Apiserver.Handlers
import BatchGateway.Lib.Unwinding

/-! Isolation of tenants. A request reads and writes what belongs to its tenant, and nothing else. -/
namespace BatchGateway.ApiServer

open Interleaving Interleaving.Prog

/-! ### What belongs to a tenant -/

def State.eventsOf (s : State) (id : String) : List BatchEvent := s.events.filter (·.id = id)

/-- Two states have the same rows and objects of a tenant. -/
structure AgreeOn (cfg : Config) (tenantID : String) (s t : State) : Prop where
  batches : ∀ r : BatchRecord, r.tenantID = tenantID → (r ∈ s.batches.rows ↔ r ∈ t.batches.rows)
  files : ∀ r : FileRecord, r.tenantID = tenantID → (r ∈ s.files.rows ↔ r ∈ t.files.rows)
  objects : ∀ loc : Location, loc.head? = some (cfg.folder tenantID) →
    s.objects loc = t.objects loc

/-- What belongs to a tenant did not change, the events of its batches included. -/
structure Untouched (cfg : Config) (tenantID : String) (s t : State) : Prop
    extends AgreeOn cfg tenantID s t where
  events : ∀ r ∈ s.batches.rows, r.tenantID = tenantID →
    s.eventsOf (Indexed.id r) = t.eventsOf (Indexed.id r)

/-- A batch with this ID belongs to the tenant. -/
def State.OwnsBatch (s : State) (tenantID id : String) : Prop :=
  ∃ r ∈ s.batches.rows, r.tenantID = tenantID ∧ Indexed.id r = id

/-- No file with this ID belongs to another tenant. -/
def State.OwnsFile (s : State) (tenantID id : String) : Prop :=
  ∀ r ∈ s.files.rows, r.id = id → r.tenantID = tenantID

/-- The call concerns what belongs to the tenant. -/
def Call.Within (cfg : Config) (tenantID : String) (s : State) : Call → Prop
  | now | newBatchID | copy _ => True
  | getBatches query _ _ | getFiles query _ _ _ => query.tenantID = tenantID
  | storeBatch r => r.tenantID = tenantID ∧ ∀ r' ∈ s.batches.rows, Indexed.id r' ≠ Indexed.id r
  | updateBatch item _ => s.OwnsBatch tenantID item.id
  | pqDelete id | sendEvent id _ => s.OwnsBatch tenantID id
  | retrieve fileName folderName | deleteObject fileName folderName =>
    ∀ loc, cfg.backend.locate folderName fileName = .ok loc →
      loc.head? = some (cfg.folder tenantID)
  | deleteFiles ids => ∀ id ∈ ids, s.OwnsFile tenantID id

variable {cfg : Config} {tenantID : String} {s t u : State}

theorem AgreeOn.symm (h : AgreeOn cfg tenantID s t) : AgreeOn cfg tenantID t s where
  batches r hr := (h.batches r hr).symm
  files r hr := (h.files r hr).symm
  objects loc hloc := (h.objects loc hloc).symm

namespace Untouched

theorem refl (cfg : Config) (tenantID : String) (s : State) : Untouched cfg tenantID s s :=
  ⟨⟨fun _ _ => Iff.rfl, fun _ _ => Iff.rfl, fun _ _ => rfl⟩, fun _ _ _ => rfl⟩

theorem trans (h : Untouched cfg tenantID s t) (h' : Untouched cfg tenantID t u) :
    Untouched cfg tenantID s u where
  batches r hr := (h.batches r hr).trans (h'.batches r hr)
  files r hr := (h.files r hr).trans (h'.files r hr)
  objects loc hloc := (h.objects loc hloc).trans (h'.objects loc hloc)
  events r hr ht := (h.events r hr ht).trans (h'.events r ((h.batches r ht).1 hr) ht)

end Untouched

/-! ### Statements -/

/-- The statements of the handlers address one batch by its ID. -/
def Addresses (stmt : Stmt) (id : String) : Prop :=
  ∀ now b, b.row.id ≠ id → stmt.exec now b = .ok none

theorem addresses_dbUpdate (item : BatchItem) (expectedStatus : Option BatchStatusInfo) :
    Addresses (.dbUpdate item expectedStatus) item.id := by
  intro now b hb
  simp only [Stmt.exec, dbUpdateStmt]
  rw [if_neg fun h => hb h.1]

theorem addresses_pqDelete (id : String) : Addresses (.pqDelete id) id := by
  intro now b hb
  simp only [Stmt.exec, pqDeleteStmt]
  rw [if_neg fun h => hb h.1]

section

variable {stmt : Stmt} {id : String} {now : Time} {r : BatchRecord}

theorem Addresses.apply_of_ne (h : Addresses stmt id) (hr : Indexed.id r ≠ id) :
    r.apply now stmt = r := by
  have hnone : stmt.apply now r.state = r.state := by
    rw [Stmt.apply, h now r.state hr]
  rw [BatchRecord.apply, hnone]

theorem Addresses.matched_of_ne (h : Addresses stmt id) (hr : Indexed.id r ≠ id) :
    r.matched now stmt = false := by
  rw [BatchRecord.matched, h now r.state hr]
  rfl

/-- The owner of an ID is the tenant of every row with this ID. -/
theorem State.OwnsBatch.tenantID_eq (h : s.OwnsBatch tenantID id) (hr : r ∈ s.batches.rows)
    (hid : Indexed.id r = id) : r.tenantID = tenantID := by
  obtain ⟨r', hr', ht, hid'⟩ := h
  rw [s.batches.eq_of_id hr hr' (hid.trans hid'.symm)]
  exact ht

/-- The rows of a tenant after a statement. -/
theorem mem_exec {r' : BatchRecord} :
    r' ∈ (s.exec now stmt).1.batches.rows ↔ ∃ r ∈ s.batches.rows, r.apply now stmt = r' :=
  List.mem_map

theorem ownsBatch_exec {id' : String} (h : s.OwnsBatch tenantID id') :
    (s.exec now stmt).1.OwnsBatch tenantID id' := by
  obtain ⟨r, hr, ht, hid⟩ := h
  exact ⟨_, mem_exec.2 ⟨r, hr, rfl⟩, ht, (BatchRecord.id_apply now stmt r).trans hid⟩

/-- A statement on a batch of one tenant leaves the batches of the others alone. -/
theorem exec_frame (h : Addresses stmt id) (hown : s.OwnsBatch tenantID id) {other : String}
    (hne : other ≠ tenantID) : Untouched cfg other s (s.exec now stmt).1 where
  batches r hr := by
    have hkept : ∀ r ∈ s.batches.rows, r.tenantID = other → r.apply now stmt = r := by
      intro r hr ht
      exact h.apply_of_ne fun hid => hne (ht ▸ hown.tenantID_eq hr hid)
    rw [mem_exec]
    constructor
    · intro hmem
      exact ⟨r, hmem, hkept r hmem hr⟩
    · rintro ⟨r', hmem, rfl⟩
      rw [hkept r' hmem hr]
      exact hmem
  files _ _ := Iff.rfl
  objects _ _ := rfl
  events _ _ _ := rfl

/-- The rows of the tenant decide whether a statement on its batch matches. -/
theorem exec_agree (hagree : AgreeOn cfg tenantID s t) (h : Addresses stmt id)
    (hs : s.OwnsBatch tenantID id) (ht : t.OwnsBatch tenantID id) :
    (s.exec now stmt).2 = (t.exec now stmt).2 ∧
      AgreeOn cfg tenantID (s.exec now stmt).1 (t.exec now stmt).1 := by
  have hany : ∀ {s t : State}, AgreeOn cfg tenantID s t → s.OwnsBatch tenantID id →
      (s.exec now stmt).2 = true → (t.exec now stmt).2 = true := by
    intro s t hagree hs hmatch
    obtain ⟨r, hr, hm⟩ := List.any_eq_true.1 hmatch
    have hid : Indexed.id r = id := by
      by_contra hne
      rw [h.matched_of_ne hne] at hm
      cases hm
    exact List.any_eq_true.2 ⟨r, (hagree.batches r (hs.tenantID_eq hr hid)).1 hr, hm⟩
  refine ⟨Bool.eq_iff_iff.2 ⟨hany hagree hs, hany hagree.symm ht⟩, ?_, hagree.files, hagree.objects⟩
  intro r hr
  rw [mem_exec, mem_exec]
  constructor
  · rintro ⟨r', hr', rfl⟩
    exact ⟨r', (hagree.batches r' hr).1 hr', rfl⟩
  · rintro ⟨r', hr', rfl⟩
    exact ⟨r', (hagree.batches r' hr).2 hr', rfl⟩

end

/-! ### Calls -/

/-- The rows that a query by tenant finds. -/
theorem tenantID_of_conditions {ρ : Type} [Indexed ρ] {coll : Collation} {now : Time}
    {query : BaseQuery} {r : ρ} (hne : query.tenantID ≠ "")
    (h : ∀ c ∈ query.conditions, Condition.holds coll now c r = true) :
    Indexed.tenantID r = query.tenantID := by
  have hmem : (Condition.tenant query.tenantID : Condition ρ) ∈ query.conditions := by
    simp [BaseQuery.conditions, hne]
  exact beq_iff_eq.1 (h _ hmem)

section

variable {c : Call} {env : Env} {other : String}

theorem mem_insert {batches : Table BatchRecord} {r r' : BatchRecord}
    (h : s.batches.insert r = some batches) : r' ∈ batches.rows ↔ r' = r ∨ r' ∈ s.batches.rows := by
  unfold Table.insert at h
  split at h
  · cases h
  · cases h
    exact List.mem_cons

theorem insert_of_new {r : BatchRecord} (h : ∀ r' ∈ s.batches.rows, Indexed.id r' ≠ Indexed.id r) :
    ∃ batches, s.batches.insert r = some batches := by
  unfold Table.insert
  rw [dif_neg]
  · exact ⟨_, rfl⟩
  · intro hmem
    obtain ⟨r', hr', hid⟩ := List.mem_map.1 hmem
    exact h r' hr' hid

theorem mem_delete {ids : List String} {r : FileRecord} :
    r ∈ (s.files.delete ids).rows ↔ r ∈ s.files.rows ∧ r.id ∉ ids := by
  unfold Table.delete
  rw [List.mem_filter]
  simp [Indexed.id]

/-- What belongs to other tenants stays as it was. -/
theorem effect_frame (h : c.Within cfg tenantID s) (hne : other ≠ tenantID)
    (hfolder : cfg.folder other ≠ cfg.folder tenantID) :
    Untouched cfg other s (effect cfg env s c).1 := by
  cases c with
  | now | newBatchID | getBatches | getFiles | retrieve | copy => exact .refl cfg other s
  | storeBatch r =>
    obtain ⟨htenant, hnew⟩ := h
    obtain ⟨batches, hinsert⟩ := insert_of_new hnew
    simp only [effect, hinsert]
    refine ⟨⟨fun r' hr' => ?_, fun _ _ => Iff.rfl, fun _ _ => rfl⟩, fun _ _ _ => rfl⟩
    rw [mem_insert hinsert]
    have hdiffer : r' ≠ r := by
      rintro rfl
      exact hne (hr'.symm.trans htenant)
    exact (or_iff_right hdiffer).symm
  | updateBatch item expectedStatus => exact exec_frame (addresses_dbUpdate item expectedStatus) h hne
  | pqDelete id => exact exec_frame (addresses_pqDelete id) h hne
  | sendEvent id ttl =>
    refine ⟨⟨fun _ _ => Iff.rfl, fun _ _ => Iff.rfl, fun _ _ => rfl⟩, fun r hr ht => ?_⟩
    have hdiffer : id ≠ Indexed.id r := fun hid => hne (ht.symm.trans (h.tenantID_eq hr hid.symm))
    simp [State.eventsOf, effect, hdiffer]
  | deleteObject fileName folderName =>
    simp only [effect]
    split
    · exact .refl cfg other s
    next loc hloc =>
      refine ⟨⟨fun _ _ => Iff.rfl, fun _ _ => Iff.rfl, fun loc' hloc' => ?_⟩, fun _ _ _ => rfl⟩
      have hdiffer : loc' ≠ loc := by
        rintro rfl
        exact hfolder (Option.some.inj (hloc'.symm.trans (h _ hloc)))
      exact (Function.update_of_ne hdiffer _ _).symm
  | deleteFiles ids =>
    refine ⟨⟨fun _ _ => Iff.rfl, fun r hr => ?_, fun _ _ => rfl⟩, fun _ _ _ => rfl⟩
    change r ∈ s.files.rows ↔ r ∈ (s.files.delete ids).rows
    rw [mem_delete]
    refine ⟨fun hmem => ⟨hmem, fun hid => ?_⟩, And.left⟩
    exact hne (hr.symm.trans (h r.id hid r hmem rfl))

/-- What belongs to the tenant decides what a call answers. -/
theorem effect_agree (hne : tenantID ≠ "") (hagree : AgreeOn cfg tenantID s t)
    (hs : c.Within cfg tenantID s) (ht : c.Within cfg tenantID t) :
    (effect cfg env s c).2 = (effect cfg env t c).2 ∧
      AgreeOn cfg tenantID (effect cfg env s c).1 (effect cfg env t c).1 := by
  cases c with
  | now | newBatchID | copy => exact ⟨rfl, hagree⟩
  | getBatches query start limit =>
    refine ⟨congrArg Except.ok (dbGet_congr s.batches.primaryKey t.batches.primaryKey ?_), hagree⟩
    intro r hr
    exact hagree.batches r ((tenantID_of_conditions (hs ▸ hne) hr).trans hs)
  | getFiles query purpose start limit =>
    refine ⟨congrArg Except.ok (dbGet_congr s.files.primaryKey t.files.primaryKey ?_), hagree⟩
    intro r hr
    exact hagree.files r ((tenantID_of_conditions (hs ▸ hne) hr).trans hs)
  | storeBatch r =>
    obtain ⟨bs, hins⟩ := insert_of_new hs.2
    obtain ⟨bt, hint⟩ := insert_of_new ht.2
    simp only [effect, hins, hint]
    refine ⟨trivial, fun r' hr' => ?_, hagree.files, hagree.objects⟩
    rw [mem_insert hins, mem_insert hint, hagree.batches r' hr']
  | updateBatch item expectedStatus =>
    obtain ⟨hmatch, hnext⟩ := exec_agree hagree (addresses_dbUpdate item expectedStatus) hs ht
    exact ⟨congrArg Except.ok hmatch, hnext⟩
  | pqDelete id =>
    obtain ⟨hmatch, hnext⟩ := exec_agree hagree (addresses_pqDelete id) hs ht
    exact ⟨congrArg Except.ok hmatch, hnext⟩
  | sendEvent => exact ⟨rfl, hagree.batches, hagree.files, hagree.objects⟩
  | retrieve fileName folderName =>
    refine ⟨?_, hagree⟩
    simp only [effect]
    cases hloc : cfg.backend.locate folderName fileName with
    | error e => rfl
    | ok loc =>
      have hsame : s.objects loc = t.objects loc := hagree.objects loc (hs loc hloc)
      simp only [Bind.bind, Except.bind, hsame]
  | deleteObject fileName folderName =>
    simp only [effect]
    split
    · exact ⟨rfl, hagree⟩
    next loc hloc =>
      have hsame : s.objects loc = t.objects loc := hagree.objects loc (hs loc hloc)
      refine ⟨by rw [hsame], hagree.batches, hagree.files, fun loc' hloc' => ?_⟩
      by_cases heq : loc' = loc
      · subst heq
        simp only [State.setObject, Function.update_self]
      · simp only [State.setObject, Function.update_of_ne heq]
        exact hagree.objects loc' hloc'
  | deleteFiles ids =>
    refine ⟨rfl, hagree.batches, fun r hr => ?_, hagree.objects⟩
    change r ∈ (s.files.delete ids).rows ↔ r ∈ (t.files.delete ids).rows
    rw [mem_delete, mem_delete, hagree.files r hr]

/-- A call has its effect, or fails, with or without it. -/
theorem perform_cases (cfg : Config) (env : Env) (s : State) (c : Call) :
    perform cfg env s c = effect cfg env s c ∨
    ∃ e, c.failure = some e ∧
      (perform cfg env s c = (s, e) ∨ perform cfg env s c = ((effect cfg env s c).1, e)) := by
  unfold perform
  split
  next e _ he => exact .inr ⟨e, he, .inl rfl⟩
  next e _ he => exact .inr ⟨e, he, .inr rfl⟩
  next => exact .inl rfl

/-- The state after a call is the one before it or the one after its effect. -/
theorem perform_state (cfg : Config) (env : Env) (s : State) (c : Call) :
    (perform cfg env s c).1 = s ∨ (perform cfg env s c).1 = (effect cfg env s c).1 := by
  rcases perform_cases cfg env s c with h | ⟨e, -, h | h⟩
  · exact .inr (by rw [h])
  · exact .inl (by rw [h])
  · exact .inr (by rw [h])

theorem perform_frame (h : c.Within cfg tenantID s) (hne : other ≠ tenantID)
    (hfolder : cfg.folder other ≠ cfg.folder tenantID) :
    Untouched cfg other s (perform cfg env s c).1 := by
  rcases perform_state cfg env s c with hsame | heffect
  · rw [hsame]
    exact .refl cfg other s
  · rw [heffect]
    exact effect_frame h hne hfolder

theorem perform_agree (hne : tenantID ≠ "") (hagree : AgreeOn cfg tenantID s t)
    (hs : c.Within cfg tenantID s) (ht : c.Within cfg tenantID t) :
    (perform cfg env s c).2 = (perform cfg env t c).2 ∧
      AgreeOn cfg tenantID (perform cfg env s c).1 (perform cfg env t c).1 := by
  have heffect : (effect cfg env s c).2 = (effect cfg env t c).2 ∧
      AgreeOn cfg tenantID (effect cfg env s c).1 (effect cfg env t c).1 :=
    effect_agree hne hagree hs ht
  unfold perform
  split
  · exact ⟨rfl, hagree⟩
  · exact ⟨rfl, heffect.2⟩
  · exact heffect

theorem ownsBatch_perform {id : String} (h : s.OwnsBatch tenantID id) :
    (perform cfg env s c).1.OwnsBatch tenantID id := by
  rcases perform_state cfg env s c with hsame | heffect
  · rw [hsame]
    exact h
  rw [heffect]
  cases c with
  | updateBatch | pqDelete => exact ownsBatch_exec h
  | storeBatch r =>
    simp only [effect]
    split
    · exact h
    next hinsert =>
      obtain ⟨r', hr', ht, hid⟩ := h
      exact ⟨r', (mem_insert hinsert).2 (.inr hr'), ht, hid⟩
  | deleteObject =>
    simp only [effect]
    split <;> exact h
  | now | newBatchID | getBatches | getFiles | sendEvent | retrieve | copy | deleteFiles => exact h

theorem ownsFile_perform {id : String} (h : s.OwnsFile tenantID id) :
    (perform cfg env s c).1.OwnsFile tenantID id := by
  rcases perform_state cfg env s c with hsame | heffect
  · rw [hsame]
    exact h
  rw [heffect]
  cases c with
  | deleteFiles ids =>
    intro r hr hid
    exact h r (mem_delete.1 hr).1 hid
  | storeBatch | deleteObject =>
    simp only [effect]
    split <;> exact h
  | now | newBatchID | getBatches | getFiles | updateBatch | pqDelete | sendEvent | retrieve
  | copy => exact h

end

/-! ### Names of stored files -/

theorem splitPath_of_plain {cs : List Char} (h : '/' ∉ cs) : splitPath cs = [cs] := by
  induction cs with
  | nil => rfl
  | cons c cs ih =>
    rw [List.mem_cons, not_or] at h
    rw [splitPath, if_neg (Ne.symm h.1), ih h.2]

theorem pathParts_of_plain {path : String} (h : '/' ∉ path.toList) : pathParts path = [path] := by
  rw [pathParts, splitPath_of_plain h, List.map_singleton, String.ofList_toList]

/-- An ID as the server generates it for a file. -/
def Generated (id : String) : Prop :=
  ∃ uuid : String, '/' ∉ uuid.toList ∧ id = ObjectKind.file.idPrefix ++ uuid

theorem slash_not_mem_fileExt (path : String) : '/' ∉ (fileExt path).toList := by
  unfold fileExt
  dsimp only
  split
  · rw [String.toList_ofList, List.mem_cons, List.mem_reverse]
    rintro (h | h)
    · exact absurd h (by decide)
    · have hne := List.all_eq_true.1 List.all_takeWhile _ h
      simp at hne
  · exact List.not_mem_nil

theorem slash_not_mem_folder (cfg : Config) (tenantID : String) :
    '/' ∉ (cfg.folder tenantID).toList := by
  have hdigit : ∀ d : Fin 16, Nat.digitChar d.val ≠ '/' := by decide
  unfold Config.folder hexText
  rw [String.toList_append, List.mem_append]
  rintro (h | h)
  · exact absurd h (by decide)
  · rw [String.toList_ofList, List.mem_map] at h
    obtain ⟨d, -, hd⟩ := h
    exact hdigit d hd

/-- Texts with different first letters differ. -/
theorem ne_of_head {a b : String} {x y : Char} (ha : a.toList.head? = some x)
    (hb : b.toList.head? = none ∨ b.toList.head? = some y) (hxy : x ≠ y) : a ≠ b := by
  rintro rfl
  rcases hb with hb | hb
  · rw [ha] at hb
    cases hb
  · rw [ha] at hb
    exact hxy (Option.some.inj hb)

theorem cleanPath_plain {folder name : String} {x y : Char} (hf : folder.toList.head? = some x)
    (hn : name.toList.head? = some y) (hx : x ≠ '.') (hy : y ≠ '.') :
    cleanPath [] [folder, name] = [folder, name] := by
  have hordinary : ∀ {p : String} {z : Char}, p.toList.head? = some z → z ≠ '.' →
      ¬ (p = "" ∨ p = ".") ∧ p ≠ ".." := by
    intro p z hp hz
    refine ⟨?_, ne_of_head hp (.inr rfl) hz⟩
    rintro (h | h)
    · exact ne_of_head hp (.inl rfl) hz h
    · exact ne_of_head hp (.inr rfl) hz h
  obtain ⟨hf₁, hf₂⟩ := hordinary hf hx
  obtain ⟨hn₁, hn₂⟩ := hordinary hn hy
  rw [cleanPath, if_neg hf₁, if_neg hf₂, cleanPath, if_neg hn₁, if_neg hn₂]
  rfl

/-- A file with a generated ID is stored in the folder of its tenant. -/
theorem locate_generated {id filename : String} (h : Generated id) {loc : Location}
    (hloc : cfg.backend.locate (cfg.folder tenantID) (fileStorageName id filename) = .ok loc) :
    loc.head? = some (cfg.folder tenantID) := by
  cases hb : cfg.backend with
  | s3 =>
    rw [hb] at hloc
    cases hloc
    rfl
  | fs =>
    obtain ⟨uuid, huuid, rfl⟩ := h
    have hplain : '/' ∉ (fileStorageName (ObjectKind.file.idPrefix ++ uuid) filename).toList := by
      unfold fileStorageName
      rw [String.toList_append, String.toList_append, List.mem_append, List.mem_append]
      rintro ((hmem | hmem) | hmem)
      · exact absurd hmem (by decide)
      · exact huuid hmem
      · split at hmem
        · exact absurd hmem (by decide)
        · exact slash_not_mem_fileExt _ hmem
    have hname : (fileStorageName (ObjectKind.file.idPrefix ++ uuid) filename).toList.head? =
        some 'f' := by
      unfold fileStorageName
      rw [String.toList_append, String.toList_append]
      rfl
    have hfolder : (cfg.folder tenantID).toList.head? = some 't' := by
      unfold Config.folder
      rw [String.toList_append]
      rfl
    rw [hb, Backend.locate, pathParts_of_plain (slash_not_mem_folder cfg tenantID),
      pathParts_of_plain hplain, List.singleton_append,
      cleanPath_plain hfolder hname (by decide) (by decide)] at hloc
    split at hloc
    · cases hloc
    split at hloc
    · cases hloc
    dsimp only at hloc
    split at hloc
    · cases hloc
    · cases hloc
      rfl

/-! ### The handlers keep to their tenant -/

/-- Every call of the program concerns what belongs to the tenant, if the program starts in a state
with `K`; `K'` holds of its result and its final state. -/
abbrev Keeps (cfg : Config) (tenant : Tenant) (env : Nat → Env) {α : Type} (K : State → Prop)
    (m : Handler α) (K' : α → State → Prop) : Prop :=
  Stays (perform cfg) env (fun s c => c.Within cfg tenant.name s) K m K'

/-- What a request relies on: the documents of the tenant's files are as the server writes them,
and the IDs that are generated are new. -/
structure Ready (env : Nat → Env) (tenant : Tenant) (s : State) : Prop where
  documents : ∀ r ∈ s.files.rows, r.tenantID = tenant.name →
    ∀ f ∈ r.file, f.id = r.id ∧ Generated r.id
  fresh : ∀ n, ∀ r ∈ s.batches.rows, Indexed.id r ≠ ObjectKind.batch.idPrefix ++ (env n).uuid

section

variable {tenant : Tenant} {env : Nat → Env} {K : State → Prop}

theorem keeps_read {c : Call} (hwithin : ∀ s, c.Within cfg tenant.name s)
    (hsame : ∀ e s, (perform cfg e s c).1 = s) :
    Keeps cfg tenant env K (ask c) fun _ s => K s := by
  refine Stays.lift (fun s _ => hwithin s) fun n s hs => ?_
  rw [hsame]
  exact hs

theorem perform_now (e : Env) (s : State) : perform cfg e s .now = (s, e.now) := by
  unfold perform
  split <;> first | rfl | contradiction

theorem perform_newBatchID (e : Env) (s : State) :
    perform cfg e s .newBatchID = (s, ObjectKind.batch.idPrefix ++ e.uuid) := by
  unfold perform
  split <;> first | rfl | contradiction

theorem keeps_now : Keeps cfg tenant env K (ask .now) fun _ s => K s :=
  keeps_read (fun _ => trivial) fun e s => by rw [perform_now]

/-- The items of a read are rows of the tenant. -/
def Found {ρ : Type} [Indexed ρ] (tenant : Tenant) (rows : State → List ρ)
    (a : Except Err (ItemPage ρ)) (s : State) : Prop :=
  ∀ page, a = .ok page → ∀ r ∈ page.items, r ∈ rows s ∧ Indexed.tenantID r = tenant.name

/-- A read by tenant finds rows of the tenant. -/
theorem keeps_get {ρ : Type} [Indexed ρ] {c : Call} {rows : State → List ρ} {query : BaseQuery}
    {answer : c.Answer → Except Err (ItemPage ρ)} (hq : query.tenantID = tenant.name)
    (hwithin : ∀ s, c.Within cfg tenant.name s) (hsame : ∀ e s, (effect cfg e s c).1 = s)
    (hok : ∀ e s, ∃ start limit filters, answer (effect cfg e s c).2 =
      .ok (dbGet cfg.collation e.now query start limit filters [] (rows s)))
    (hfail : ∀ r, c.failure = some r → ∃ err, answer r = .error err) :
    Keeps cfg tenant env K (ask c) fun a s => K s ∧ Found tenant rows (answer a) s := by
  refine Stays.lift (fun s _ => hwithin s) fun n s hs => ?_
  have hstate : (perform cfg (env n) s c).1 = s := by
    rcases perform_state cfg (env n) s c with h | h
    · exact h
    · exact h.trans (hsame _ s)
  rw [hstate]
  refine ⟨hs, fun page hpage r hr => ?_⟩
  have hanswer : (perform cfg (env n) s c).2 = (effect cfg (env n) s c).2 ∨
      c.failure = some (perform cfg (env n) s c).2 := by
    rcases perform_cases cfg (env n) s c with h | ⟨e, he, h | h⟩ <;> rw [h]
    · exact .inl rfl
    · exact .inr he
    · exact .inr he
  rcases hanswer with h | h
  · obtain ⟨start, limit, filters, hget⟩ := hok (env n) s
    rw [h, hget] at hpage
    cases hpage
    obtain ⟨hmem, hcond⟩ := mem_dbGet hr
    exact ⟨hmem, (tenantID_of_conditions (hq ▸ tenant.nonempty) hcond).trans hq⟩
  · obtain ⟨err, herr⟩ := hfail _ h
    rw [herr] at hpage
    cases hpage

theorem keeps_getBatches {query : BaseQuery} {start limit : Nat}
    (hq : query.tenantID = tenant.name) :
    Keeps cfg tenant env K (ask (.getBatches query start limit)) fun a s =>
      K s ∧ Found tenant (·.batches.rows) a s :=
  keeps_get hq (fun _ => hq) (fun _ _ => rfl) (fun _ _ => ⟨_, _, _, rfl⟩)
    fun _ hr => ⟨_, (Option.some.inj hr).symm⟩

theorem keeps_getFiles {query : BaseQuery} {purpose : String} {start limit : Nat}
    (hq : query.tenantID = tenant.name) :
    Keeps cfg tenant env K (ask (.getFiles query purpose start limit)) fun a s =>
      K s ∧ Found tenant (·.files.rows) a s :=
  keeps_get hq (fun _ => hq) (fun _ _ => rfl) (fun _ _ => ⟨_, _, _, rfl⟩)
    fun _ hr => ⟨_, (Option.some.inj hr).symm⟩

/-- The result of a program that returns at once says nothing about the state. -/
theorem keeps_done {α : Type} {a : α} : Keeps cfg tenant env K (pure a) fun _ _ => True :=
  .ret fun _ _ => trivial

/-! #### Reading one item -/

theorem keeps_getItemFromDB {ρ : Type} [Indexed ρ] {get : BaseQuery → Nat → Nat → Call}
    {answer : ∀ q start limit, (get q start limit).Answer → Except Err (ItemPage ρ)}
    {rows : State → List ρ} {id required notFound : String}
    (hget : ∀ q start limit, q.tenantID = tenant.name →
      Keeps cfg tenant env K (ask (get q start limit)) fun a s =>
        K s ∧ Found tenant rows (answer q start limit a) s) :
    Keeps cfg tenant env K (getItemFromDB get answer tenant id required notFound) fun a s =>
      K s ∧ ∀ r, a = .ok r → r ∈ rows s ∧ Indexed.tenantID r = tenant.name := by
  unfold getItemFromDB
  split
  · exact .ret fun s hs => ⟨hs, nofun⟩
  refine (hget _ _ _ rfl).bind fun a => ?_
  split
  · exact .ret fun s hs => ⟨hs.1, nofun⟩
  next page hpage =>
    split
    · exact .ret fun s hs => ⟨hs.1, nofun⟩
    next item rest hitems =>
      split
      · exact .ret fun s hs => ⟨hs.1, nofun⟩
      · refine .ret fun s hs => ⟨hs.1, fun r hr => ?_⟩
        cases hr
        exact hs.2 page hpage item (by rw [hitems]; exact List.mem_cons_self)

theorem keeps_getBatchItemFromDB (batchID : String) :
    Keeps cfg tenant env K (getBatchItemFromDB tenant batchID) fun a s =>
      K s ∧ ∀ r, a = .ok r → s.OwnsBatch tenant.name r.item.id := by
  have hitem : Keeps cfg tenant env K (getBatchItemFromDB tenant batchID) fun a s =>
      K s ∧ ∀ r, a = .ok r → r ∈ s.batches.rows ∧ Indexed.tenantID r = tenant.name :=
    keeps_getItemFromDB fun _ _ _ hq => keeps_getBatches hq
  refine hitem.mono (fun _ h => h) fun a s h => ⟨h.1, fun r hr => ?_⟩
  exact ⟨r, (h.2 r hr).1, (h.2 r hr).2, rfl⟩

theorem keeps_getFileItemFromDB (fileID : String) :
    Keeps cfg tenant env K (getFileItemFromDB tenant fileID) fun a s =>
      K s ∧ ∀ r, a = .ok r → r ∈ s.files.rows ∧ r.tenantID = tenant.name :=
  keeps_getItemFromDB fun _ _ _ hq => keeps_getFiles hq

theorem keeps_retrieveBatch (batchID : String) :
    Keeps cfg tenant env K (retrieveBatch tenant batchID) fun _ _ => True := by
  refine (keeps_getBatchItemFromDB batchID).bind fun a => ?_
  cases a with
  | error e => exact keeps_done
  | ok item =>
    dsimp only
    split <;> exact keeps_done

/-! #### Creation -/

theorem batchToDBItem_some {batch : Batch} {tags : Tags} {r : BatchRecord}
    (h : batchToDBItem cfg batch tenantID tags = some r) :
    r.tenantID = tenantID ∧ Indexed.id r = batch.id := by
  obtain ⟨priority, -, rfl⟩ := Option.map_eq_some_iff.1 h
  exact ⟨rfl, rfl⟩

theorem keeps_newBatchID : Keeps cfg tenant env (Ready env tenant) (ask .newBatchID) fun id s =>
    ∀ r ∈ s.batches.rows, Indexed.id r ≠ id := by
  refine Stays.lift (fun _ _ => trivial) fun n s hs => ?_
  rw [perform_newBatchID]
  exact hs.fresh n

theorem keeps_createBatch (body : Except String CreateBatchRequest)
    (header : String → List String) (carrier : List (String × String)) :
    Keeps cfg tenant env (Ready env tenant) (createBatch cfg tenant body header carrier)
      fun _ _ => True := by
  refine keeps_now.bind fun now => ?_
  split
  · exact keeps_done
  next batchReq =>
    split
    · exact keeps_done
    refine (keeps_getFiles rfl).bind fun a => ?_
    split
    · exact keeps_done
    next page =>
      split
      · exact keeps_done
      · split
        · exact keeps_done
        refine (keeps_newBatchID.mono (fun _ h => h.1) fun _ _ h => h).bind fun batchID => ?_
        dsimp only
        split
        · exact keeps_done
        next dbItem hitem =>
          obtain ⟨htenant, hid⟩ := batchToDBItem_some hitem
          have hstore : Keeps cfg tenant env (fun s => ∀ r ∈ s.batches.rows, Indexed.id r ≠ batchID)
              (ask (.storeBatch dbItem)) fun _ _ => True := by
            refine Stays.lift (fun s hs => ⟨htenant, fun r hr => ?_⟩) fun _ _ _ => trivial
            rw [hid]
            exact hs r hr
          refine hstore.bind fun a => ?_
          split <;> exact keeps_done

/-! #### Cancellation -/

theorem keeps_owned {c : Call} {id : String}
    (hwithin : ∀ s, s.OwnsBatch tenant.name id → c.Within cfg tenant.name s) :
    Keeps cfg tenant env (·.OwnsBatch tenant.name id) (ask c) fun _ s =>
      s.OwnsBatch tenant.name id :=
  Stays.lift hwithin fun _ _ hs => ownsBatch_perform hs

theorem keeps_dbUpdate (item : BatchItem) (expectedStatus : Option BatchStatusInfo) :
    Keeps cfg tenant env (·.OwnsBatch tenant.name item.id) (dbUpdate item expectedStatus)
      fun _ s => s.OwnsBatch tenant.name item.id := by
  unfold dbUpdate
  split
  · exact .ret fun _ hs => hs
  split
  · exact .ret fun _ hs => hs
  refine (keeps_owned (c := .updateBatch item expectedStatus) fun _ hs => hs).bind fun a => ?_
  split
  · exact .ret fun _ hs => hs
  · exact .ret fun _ hs => hs
  · split <;> exact .ret fun _ hs => hs

theorem dbItemToBatch_id {r : BatchRecord} {batch : Batch} (h : dbItemToBatch r = some batch) :
    batch.id = r.item.id := by
  unfold dbItemToBatch at h
  split at h
  · cases h
    rfl
  · cases h

/-- A failed program says nothing about a value. -/
theorem keeps_failed {α ε : Type} {e : ε} {Q : α → State → Prop} :
    Keeps cfg tenant env K (pure (Except.error e : Except ε α)) fun a s => ∀ b, a = .ok b → Q b s :=
  .ret fun _ _ _ h => nomatch h

/-- The batch that is marked is the tenant's. -/
theorem keeps_markCancelling (fromStatus : BatchStatus) (attempts : Nat) (item : BatchRecord)
    (batch : Batch) (hid : batch.id = item.item.id) :
    Keeps cfg tenant env (·.OwnsBatch tenant.name item.item.id)
      (markCancelling cfg tenant fromStatus attempts item batch)
      fun a s => ∀ b, a = .ok b → s.OwnsBatch tenant.name b.id := by
  induction attempts generalizing item batch with
  | zero => exact keeps_failed
  | succ attempts ih =>
    refine keeps_now.bind fun now => ?_
    dsimp only
    split
    · exact keeps_failed
    have hupdate : Keeps cfg tenant env (·.OwnsBatch tenant.name item.item.id)
        (dbUpdate (item.item.cancelUpdate batch.info now) item.item.status)
        fun _ s => s.OwnsBatch tenant.name item.item.id :=
      keeps_dbUpdate (item.item.cancelUpdate batch.info now) item.item.status
    refine hupdate.bind fun a => ?_
    split
    · refine .ret fun s hs b hb => ?_
      cases hb
      change s.OwnsBatch tenant.name batch.id
      rw [hid]
      exact hs
    · split
      · exact keeps_failed
      refine (keeps_getBatches rfl).bind fun a => ?_
      split
      · exact keeps_failed
      next page =>
        split
        · next fresh hpage =>
          split
          · exact keeps_failed
          split
          · exact keeps_failed
          next freshBatch hfresh =>
            split
            · exact keeps_failed
            refine (ih fresh freshBatch (dbItemToBatch_id hfresh)).mono (fun s hs => ?_)
              fun _ _ h => h
            obtain ⟨hmem, htenant⟩ := hs.2 page rfl fresh (by rw [hpage]; exact List.mem_cons_self)
            exact ⟨fresh, hmem, htenant, rfl⟩
        · exact keeps_failed

theorem keeps_notifyCancelled (batch : Batch) :
    Keeps cfg tenant env (·.OwnsBatch tenant.name batch.id) (notifyCancelled cfg batch)
      fun _ _ => True := by
  have hsend : Keeps cfg tenant env (·.OwnsBatch tenant.name batch.id)
      (sendCancelEvent cfg batch.id) fun _ _ => True := by
    unfold sendCancelEvent
    split
    · exact keeps_done
    split
    · exact keeps_done
    · exact (keeps_owned (c := .sendEvent batch.id _) fun _ hs => hs).mono (fun _ h => h)
        fun _ _ _ => trivial
  refine hsend.bind fun a => ?_
  split <;> exact keeps_done

theorem keeps_cancelBatch (batchID : String) :
    Keeps cfg tenant env K (cancelBatch cfg tenant batchID) fun _ _ => True := by
  refine (keeps_getBatchItemFromDB batchID).bind fun a => ?_
  cases a with
  | error e => exact keeps_done
  | ok item =>
    refine Stays.mono (K := (·.OwnsBatch tenant.name item.item.id)) ?_ (fun s hs => hs.2 item rfl)
      fun _ _ h => h
    dsimp only
    split
    · exact keeps_done
    next batch hbatch =>
      have hid := dbItemToBatch_id hbatch
      split
      · exact keeps_done
      split
      · exact keeps_done
      split
      · rw [← hid]
        exact keeps_notifyCancelled batch
      refine (keeps_owned (c := .pqDelete batch.id) fun s hs => ?_).bind fun a => ?_
      · change s.OwnsBatch tenant.name batch.id
        rw [hid]
        exact hs
      split
      · exact keeps_done
      · exact keeps_retrieveBatch batchID
      · refine (keeps_markCancelling _ _ item batch hid).bind fun a => ?_
        split
        · split <;> exact keeps_done
        next marked =>
          exact (keeps_notifyCancelled marked).mono (fun s hs => hs marked rfl) fun _ _ h => h

/-! #### Listings and files -/

theorem keeps_listBatches (limit after : String) :
    Keeps cfg tenant env K (listBatches cfg tenant limit after) fun _ _ => True := by
  unfold listBatches
  split
  · exact keeps_done
  split
  · exact keeps_done
  refine (keeps_getBatches rfl).bind fun a => ?_
  split
  · exact keeps_done
  · split <;> exact keeps_done

theorem keeps_listFiles (after limit order purpose : String) :
    Keeps cfg tenant env K (listFiles cfg tenant after limit order purpose) fun _ _ => True := by
  unfold listFiles
  split
  · exact keeps_done
  split
  · exact keeps_done
  split
  · exact keeps_done
  split
  · exact keeps_done
  refine (keeps_getFiles rfl).bind fun a => ?_
  split
  · exact keeps_done
  · split <;> exact keeps_done

/-- A file that was read is the tenant's, and so is the object that its document names. -/
theorem keeps_withFile {fileID : String} {next : FileRecord → FileObject → Handler Response}
    (hnext : ∀ item f, item.tenantID = tenant.name → Generated f.id →
      Keeps cfg tenant env (·.OwnsFile tenant.name f.id) (next item f) fun _ _ => True) :
    Keeps cfg tenant env (Ready env tenant) (withFile tenant fileID next) fun _ _ => True := by
  refine (keeps_getFileItemFromDB fileID).bind fun a => ?_
  cases a with
  | error e => exact keeps_done
  | ok item =>
    dsimp only
    split
    · exact keeps_done
    next f hf =>
      intro n s hs
      obtain ⟨hready, hfound⟩ := hs
      obtain ⟨hmem, htenant⟩ := hfound item rfl
      obtain ⟨hid, hgenerated⟩ := hready.documents item hmem htenant f hf
      refine hnext item f htenant (hid ▸ hgenerated) n s fun r hr hrid => ?_
      rw [s.files.eq_of_id hr hmem (hrid.trans hid)]
      exact htenant

theorem getFolderName_eq {folderName : String}
    (h : getFolderNameByTenantID cfg tenantID = .ok folderName) :
    folderName = cfg.folder tenantID := by
  unfold getFolderNameByTenantID at h
  split at h
  · cases h
  · exact (Except.ok.inj h).symm

theorem keeps_retrieveFile (fileID : String) :
    Keeps cfg tenant env (Ready env tenant) (retrieveFile tenant fileID) fun _ _ => True :=
  keeps_withFile fun _ _ _ _ => keeps_done

theorem keeps_downloadFile (fileID : String) :
    Keeps cfg tenant env (Ready env tenant) (downloadFile cfg tenant fileID) fun _ _ => True := by
  refine keeps_withFile fun item f htenant hgenerated => ?_
  split
  · exact keeps_done
  next folderName hfolder =>
    have hretrieve : Keeps cfg tenant env (·.OwnsFile tenant.name f.id)
        (ask (.retrieve (fileStorageName f.id f.filename) folderName)) fun _ _ => True := by
      refine Stays.lift (fun s _ loc hloc => ?_) fun _ _ _ => trivial
      rw [getFolderName_eq hfolder, htenant] at hloc
      exact locate_generated hgenerated hloc
    refine hretrieve.bind fun a => ?_
    split
    · exact keeps_done
    next content =>
      have hcopy : Keeps cfg tenant env (fun _ => True) (ask (.copy content)) fun _ _ => True :=
        Stays.lift (fun _ _ => trivial) fun _ _ _ => trivial
      exact hcopy.bind fun _ => keeps_done

theorem keeps_deleteFile (fileID : String) :
    Keeps cfg tenant env (Ready env tenant) (deleteFile cfg tenant fileID) fun _ _ => True := by
  refine keeps_withFile fun item f htenant hgenerated => ?_
  split
  · exact keeps_done
  next folderName hfolder =>
    have hobject : Keeps cfg tenant env (·.OwnsFile tenant.name f.id)
        (ask (.deleteObject (fileStorageName f.id f.filename) folderName))
        fun _ s => s.OwnsFile tenant.name f.id := by
      refine Stays.lift (fun s _ loc hloc => ?_) fun _ _ hs => ownsFile_perform hs
      rw [getFolderName_eq hfolder, htenant] at hloc
      exact locate_generated hgenerated hloc
    have hrow : Keeps cfg tenant env (·.OwnsFile tenant.name f.id) (ask (.deleteFiles [f.id]))
        fun _ _ => True := by
      refine Stays.lift (fun s hs id hid => ?_) fun _ _ _ => trivial
      rw [List.mem_singleton.1 hid]
      exact hs
    refine hobject.bind fun a => ?_
    split
    · exact keeps_done
    all_goals
      refine hrow.bind fun a => ?_
      split <;> exact keeps_done

theorem keeps_handle (req : Request) :
    Keeps cfg tenant env (Ready env tenant) (handle cfg tenant req) fun _ _ => True := by
  cases req with
  | createBatch body header carrier => exact keeps_createBatch body header carrier
  | listBatches limit after => exact keeps_listBatches limit after
  | retrieveBatch batchID => exact keeps_retrieveBatch batchID
  | cancelBatch batchID => exact keeps_cancelBatch batchID
  | listFiles after limit order purpose => exact keeps_listFiles after limit order purpose
  | retrieveFile fileID => exact keeps_retrieveFile fileID
  | downloadFile fileID => exact keeps_downloadFile fileID
  | deleteFile fileID => exact keeps_deleteFile fileID

end

/-- The run of a request from a state: the state after it and the response. -/
def serve (cfg : Config) (tenant : Tenant) (env : Nat → Env) (s : State) (req : Request) :
    State × Response :=
  (runFrom (perform cfg) env 0 s (handle cfg tenant req)).2

/-- Whatever belongs to other tenants, a request is answered in the same way, and leaves it as it
was as long as its folder is another one. Generated IDs are new, and the documents of the tenant's
files name their own rows. -/
theorem serve_isolated (cfg : Config) (tenant : Tenant) (env : Nat → Env) (s t : State)
    (req : Request) (hagree : AgreeOn cfg tenant.name s t) (hs : Ready env tenant s)
    (ht : Ready env tenant t) :
    (serve cfg tenant env s req).2 = (serve cfg tenant env t req).2 ∧
    AgreeOn cfg tenant.name (serve cfg tenant env s req).1 (serve cfg tenant env t req).1 ∧
    ∀ other, other ≠ tenant.name → cfg.folder other ≠ cfg.folder tenant.name →
      Untouched cfg other s (serve cfg tenant env s req).1 ∧
      Untouched cfg other t (serve cfg tenant env t req).1 := by
  have hconfined : ∀ s, Ready env tenant s → Confined (perform cfg) env
      (fun s c => c.Within cfg tenant.name s) 0 s (handle cfg tenant req) :=
    fun s hs => (keeps_handle req 0 s hs).1
  obtain ⟨hresponse, hafter⟩ := Confined.agree
    (fun e s t c => perform_agree tenant.nonempty) hagree (hconfined s hs) (hconfined t ht)
  refine ⟨hresponse, hafter, fun other hne hfolder => ?_⟩
  have hstep : ∀ e s (c : Call), c.Within cfg tenant.name s →
      Untouched cfg other s (perform cfg e s c).1 :=
    fun _ _ _ h => perform_frame h hne hfolder
  have hframe : ∀ s, Ready env tenant s → Untouched cfg other s (serve cfg tenant env s req).1 :=
    fun s hs => (hconfined s hs).frame (Untouched.refl cfg other) (fun _ _ _ => Untouched.trans)
      hstep
  exact ⟨hframe s hs, hframe t ht⟩

/-! ### Two tenants -/

def sampleConfig : Config where
  parseDuration _ := none
  sscanf _ := none
  atoi _ := none
  sha256 name := if name = "acme" then [1] else [0]

def acme : Tenant := ⟨"acme", by decide⟩

/-- A file whose document names `documentID`. -/
def sampleFile (id tenantID documentID : String) : FileRecord where
  id
  tenantID
  purpose := "batch"
  file := some { id := documentID, filename := "in.jsonl", object := "file", purpose := "batch" }

/-- Two tenants with a file each. -/
def sharedState (documentID : String) : State where
  batches := ⟨[], by decide⟩
  files := {
    rows := [sampleFile "file_a" "acme" documentID, sampleFile "file_b" "umbra" "file_b"]
    primaryKey := show ["file_a", "file_b"].Nodup by decide }
  objects loc :=
    if loc = ["t-1", "file_a.jsonl"] then some [1, 2]
    else if loc = ["t-0", "file_b.jsonl"] then some [3] else none

/-- The first tenant by itself. -/
def soleState : State where
  batches := ⟨[], by decide⟩
  files := ⟨[sampleFile "file_a" "acme" "file_a"], by decide⟩
  objects loc := if loc = ["t-1", "file_a.jsonl"] then some [1, 2] else none

theorem deletion_isolated :
    (serve sampleConfig acme (fun _ => {}) (sharedState "file_a") (.deleteFile "file_a")).2.body =
      .deleted { id := "file_a" } ∧
    (serve sampleConfig acme (fun _ => {}) soleState (.deleteFile "file_a")).2.body =
      .deleted { id := "file_a" } ∧
    Untouched sampleConfig "umbra" (sharedState "file_a")
      (serve sampleConfig acme (fun _ => {}) (sharedState "file_a") (.deleteFile "file_a")).1 := by
  have hgenerated : Generated "file_a" := ⟨"a", by decide, by decide⟩
  have hagree : AgreeOn sampleConfig acme.name (sharedState "file_a") soleState := by
    refine ⟨fun _ _ => Iff.rfl, fun r hr => ?_, fun loc hloc => ?_⟩
    · have hother : r ≠ sampleFile "file_b" "umbra" "file_b" := by
        rintro rfl
        exact absurd hr (by decide)
      simp [sharedState, soleState, hother]
    · have hother : loc ≠ ["t-0", "file_b.jsonl"] := by
        rintro rfl
        exact absurd hloc (by decide)
      simp [sharedState, soleState, hother]
  have hready : ∀ s : State, s.batches.rows = [] → (∀ r ∈ s.files.rows,
      r.tenantID = acme.name → r = sampleFile "file_a" "acme" "file_a") →
      Ready (fun _ => {}) acme s := by
    intro s hbatches hfiles
    refine ⟨fun r hr ht f hf => ?_, fun n r hr => ?_⟩
    · obtain rfl := hfiles r hr ht
      cases hf
      exact ⟨rfl, hgenerated⟩
    · rw [hbatches] at hr
      cases hr
  obtain ⟨hsame, -, huntouched⟩ := serve_isolated sampleConfig acme (fun _ => {})
    (sharedState "file_a") soleState (.deleteFile "file_a") hagree
    (hready _ rfl (by decide)) (hready _ rfl (by decide))
  have hbody : (serve sampleConfig acme (fun _ => {}) soleState (.deleteFile "file_a")).2.body =
      .deleted { id := "file_a" } := by decide +kernel
  refine ⟨?_, hbody, (huntouched "umbra" (by decide) (by decide)).1⟩
  rw [hsame]
  exact hbody

/-- A file whose document names the row of another tenant: its deletion takes that row away. -/
theorem foreignDocument_deleted :
    sampleConfig.folder "umbra" ≠ sampleConfig.folder acme.name ∧
    sampleFile "file_b" "umbra" "file_b" ∈ (sharedState "file_b").files.rows ∧
    (serve sampleConfig acme (fun _ => {}) (sharedState "file_b") (.deleteFile "file_a")).2.body =
      .deleted { id := "file_b" } ∧
    ¬ Untouched sampleConfig "umbra" (sharedState "file_b")
      (serve sampleConfig acme (fun _ => {}) (sharedState "file_b") (.deleteFile "file_a")).1 := by
  have hgone : sampleFile "file_b" "umbra" "file_b" ∉ (serve sampleConfig acme (fun _ => {})
      (sharedState "file_b") (.deleteFile "file_a")).1.files.rows := by decide +kernel
  have hrow : sampleFile "file_b" "umbra" "file_b" ∈ (sharedState "file_b").files.rows := by decide
  refine ⟨by decide, hrow, by decide +kernel, fun h => hgone ?_⟩
  exact (h.files (sampleFile "file_b" "umbra" "file_b") rfl).1 hrow

end BatchGateway.ApiServer
