import BatchGateway.Database.Types
import BatchGateway.Lib.Keyset
import Mathlib.Data.String.Basic

/-! Reads of an item table: the conditions of a query, its order, and one row of look-ahead. -/
namespace BatchGateway

/-- The indexed columns that the item tables share. -/
class Indexed (ρ : Type) where
  id : ρ → String
  tenantID : ρ → String
  expiry : ρ → Int
  tags : ρ → Tags

/-- The indexed columns of an item by themselves. -/
structure BaseIndexes where
  id : String
  tenantID : String
  expiry : Int := 0
  tags : Tags := []
  deriving DecidableEq, Repr

instance : Indexed BaseIndexes := ⟨(·.id), (·.tenantID), (·.expiry), (·.tags)⟩

/-- An item table; the ID is its primary key. -/
structure Table (ρ : Type) [Indexed ρ] where
  rows : List ρ
  primaryKey : (rows.map Indexed.id).Nodup

inductive LogicalCond where
  | none | and | or
  deriving DecidableEq, Repr

structure BaseQuery where
  ids : List String := []
  tenantID : String := ""
  tagSelectors : Tags := []
  tagsLogicalCond : LogicalCond := .none
  expired : Bool := false
  /-- Only items after this ID are returned, if it is set. The ID does not have to exist. -/
  afterID : String := ""
  descending : Bool := false
  deriving DecidableEq, Repr

/-- `EXTRACT(EPOCH FROM NOW())::BIGINT`, which rounds to the nearest second. -/
def Time.epoch (now : Time) : Int := (now + 500000) / 1000000

/-- The order of the database's texts. -/
structure Collation where
  order : LinearOrder String

/-- The collation that compares texts character by character. -/
def Collation.codepoint : Collation := ⟨inferInstance⟩

/-- The order of a listing: that of the collation, or its reverse. -/
def listingOrder (coll : Collation) : Bool → LinearOrder String
  | false => coll.order
  | true => @OrderDual.instLinearOrder String coll.order

/-- One condition of a `WHERE` clause. `column` stands for the conditions on the columns that only
one of the tables has. -/
inductive Condition (ρ : Type) where
  | idAny (ids : List String)
  | tenant (tenantID : String)
  | tagged (cond : LogicalCond) (selectors : Tags)
  | expired
  | column (p : ρ → Bool)
  | after (descending : Bool) (id : String)

variable {ρ : Type} [Indexed ρ]

def Condition.holds (coll : Collation) (now : Time) : Condition ρ → ρ → Bool
  | idAny ids, r => ids.contains (Indexed.id r)
  | tenant tenantID, r => Indexed.tenantID r == tenantID
  | tagged .or selectors, r => selectors.any ((Indexed.tags r).contains ·)
  | tagged _ selectors, r => selectors.all ((Indexed.tags r).contains ·)
  | expired, r => 0 < Indexed.expiry r ∧ Indexed.expiry r ≤ now.epoch
  | column p, r => p r
  | after false id, r => @decide _ (coll.order.toDecidableLT id (Indexed.id r))
  | after true id, r => @decide _ (coll.order.toDecidableLT (Indexed.id r) id)

/-- A `SELECT` statement: conditions that all have to hold, the order, `OFFSET` and `LIMIT`. -/
structure Select (ρ : Type) where
  conditions : List (Condition ρ)
  descending : Bool
  offset : Nat
  limit : Nat

def Select.rows (coll : Collation) (now : Time) (s : Select ρ) (table : List ρ) :
    List ρ :=
  let found := table.filter fun r => s.conditions.all (·.holds coll now r)
  let ordered := @Keyset.sorted _ _ (listingOrder coll s.descending) Indexed.id found
  (ordered.drop s.offset).take s.limit

/-- The conditions on the shared columns, except for the cursor. -/
def BaseQuery.conditions (bq : BaseQuery) : List (Condition ρ) :=
  (if bq.ids = [] then [] else [.idAny bq.ids]) ++
  (if bq.tenantID = "" then [] else [.tenant bq.tenantID]) ++
  (if bq.tagSelectors = [] then [] else [.tagged bq.tagsLogicalCond bq.tagSelectors]) ++
  (if bq.expired then [.expired] else [])

def BaseQuery.cursor (bq : BaseQuery) : List (Condition ρ) :=
  if bq.afterID = "" then [] else [.after bq.descending bq.afterID]

def BaseQuery.allConditions (bq : BaseQuery) (extraFilters rawConditions : List (ρ → Bool)) :
    List (Condition ρ) :=
  bq.conditions ++ extraFilters.map .column ++ bq.cursor ++ rawConditions.map .column

/-- The statement of a query; there is none for a query without conditions. The cursor replaces
the offset. -/
def buildGetQuery (bq : BaseQuery) (start limit : Nat)
    (extraFilters rawConditions : List (ρ → Bool)) : Option (Select ρ) :=
  if (bq.allConditions extraFilters rawConditions).isEmpty then none
  else some {
    conditions := bq.allConditions extraFilters rawConditions
    descending := bq.descending
    offset := if bq.afterID = "" then start else 0
    limit }

structure ItemPage (ρ : Type) where
  items : List ρ := []
  cursor : Nat := 0
  expectMore : Bool := false

/-- Read items. One row more than the limit is requested to learn whether there are more. -/
def dbGet (coll : Collation) (now : Time) (bq : BaseQuery) (start limit : Nat)
    (extraFilters rawConditions : List (ρ → Bool)) (table : List ρ) : ItemPage ρ :=
  match buildGetQuery bq start (limit + 1) extraFilters rawConditions with
  | none => {}
  | some statement =>
    let rows := statement.rows coll now table
    if limit < rows.length then ⟨rows.take limit, start + limit, true⟩
    else ⟨rows, start + rows.length, false⟩

/-- The row meets every condition of the query other than its cursor. -/
def BaseQuery.Matches (bq : BaseQuery) (coll : Collation) (now : Time)
    (extraFilters rawConditions : List (ρ → Bool)) (r : ρ) : Prop :=
  (∀ c ∈ bq.conditions, Condition.holds coll now c r = true) ∧
  (∀ p ∈ extraFilters, p r = true) ∧ ∀ p ∈ rawConditions, p r = true

section

variable {coll : Collation} {now : Time} {bq : BaseQuery} {start limit : Nat}
  {extraFilters rawConditions : List (ρ → Bool)} {table : List ρ} {r : ρ}

instance : Decidable (bq.Matches coll now extraFilters rawConditions r) :=
  inferInstanceAs (Decidable (_ ∧ _))

/-- The cursor of a query as a key. -/
def BaseQuery.key (bq : BaseQuery) : Option String :=
  if bq.afterID = "" then none else some bq.afterID

theorem holds_cursor : (∀ c ∈ bq.cursor, Condition.holds coll now c r = true) ↔
    @Keyset.Beyond _ (listingOrder coll bq.descending) bq.key (Indexed.id r) := by
  unfold BaseQuery.cursor BaseQuery.key
  split
  · exact ⟨fun _ => nofun, fun _ => List.forall_mem_nil _⟩
  · rw [List.forall_mem_singleton]
    cases bq.descending with
    | false | true =>
      simp [Condition.holds, Keyset.Beyond]
      rfl

theorem holds_columns (ps : List (ρ → Bool)) :
    (∀ c ∈ ps.map Condition.column, c.holds coll now r = true) ↔ ∀ p ∈ ps, p r = true :=
  List.forall_mem_map

/-- The rows of the statement without its offset and limit. -/
theorem filter_allConditions :
    (table.filter fun r => (bq.allConditions extraFilters rawConditions).all
      (·.holds coll now r)) =
    (table.filter fun r => bq.Matches coll now extraFilters rawConditions r).filter fun r =>
      @decide (@Keyset.Beyond _ (listingOrder coll bq.descending) bq.key (Indexed.id r))
        (@Keyset.instDecidableBeyond _ (listingOrder coll bq.descending) _ _) := by
  rw [List.filter_filter]
  apply List.filter_congr
  intro r _
  rw [Bool.eq_iff_iff, List.all_eq_true, Bool.and_eq_true, decide_eq_true_iff, decide_eq_true_iff,
    BaseQuery.allConditions, List.forall_mem_append, List.forall_mem_append, List.forall_mem_append,
    holds_columns,
    holds_columns, holds_cursor, BaseQuery.Matches]
  tauto

theorem Select.mem_rows {s : Select ρ} (h : r ∈ s.rows coll now table) :
    r ∈ table ∧ ∀ c ∈ s.conditions, c.holds coll now r = true := by
  let := listingOrder coll s.descending
  have hsorted := List.mem_of_mem_drop (List.mem_of_mem_take h)
  have hfilter := (List.mem_insertionSort _).1 hsorted
  rw [List.mem_filter, List.all_eq_true] at hfilter
  exact hfilter

/-- A statement depends on the rows that meet its conditions only. -/
theorem Select.rows_congr {s : Select ρ} {table' : List ρ} (h : (table.map Indexed.id).Nodup)
    (h' : (table'.map Indexed.id).Nodup)
    (hmem : ∀ r, (∀ c ∈ s.conditions, c.holds coll now r = true) → (r ∈ table ↔ r ∈ table')) :
    s.rows coll now table = s.rows coll now table' := by
  let := listingOrder coll s.descending
  unfold Select.rows
  dsimp only
  rw [Keyset.sorted_congr (h.sublist (List.filter_sublist.map _))
    (h'.sublist (List.filter_sublist.map _))]
  intro r
  rw [List.mem_filter, List.mem_filter, List.all_eq_true]
  exact and_congr_left fun hr => hmem r hr

theorem conditions_of_buildGetQuery {statement : Select ρ}
    (h : buildGetQuery bq start limit extraFilters rawConditions = some statement) {c : Condition ρ}
    (hc : c ∈ bq.conditions) : c ∈ statement.conditions := by
  unfold buildGetQuery at h
  rw [Option.ite_none_left_eq_some, Option.some.injEq] at h
  rw [← h.2]
  exact List.mem_append_left _ (List.mem_append_left _ (List.mem_append_left _ hc))

/-- The items of a read are rows of the table that meet the conditions of the query. -/
theorem mem_dbGet
    (h : r ∈ (dbGet coll now bq start limit extraFilters rawConditions table).items) :
    r ∈ table ∧ ∀ c ∈ bq.conditions, Condition.holds coll now c r = true := by
  unfold dbGet at h
  split at h
  next => cases h
  next statement heq =>
    have hrow : r ∈ statement.rows coll now table := by
      dsimp only at h
      split at h
      · exact List.mem_of_mem_take h
      · exact h
    obtain ⟨htable, hall⟩ := Select.mem_rows hrow
    exact ⟨htable, fun c hc => hall c (conditions_of_buildGetQuery heq hc)⟩

/-- A read depends on the rows that meet the conditions of its query only. -/
theorem dbGet_congr {table' : List ρ} (h : (table.map Indexed.id).Nodup)
    (h' : (table'.map Indexed.id).Nodup)
    (hmem : ∀ r, (∀ c ∈ bq.conditions, Condition.holds coll now c r = true) →
      (r ∈ table ↔ r ∈ table')) :
    dbGet coll now bq start limit extraFilters rawConditions table =
      dbGet coll now bq start limit extraFilters rawConditions table' := by
  unfold dbGet
  split
  next => rfl
  next statement heq =>
    rw [Select.rows_congr h h']
    intro r hr
    exact hmem r fun c hc => hr c (conditions_of_buildGetQuery heq hc)

/-- A read from a cursor, or from the start, is a page of the matching rows. -/
theorem dbGet_eq_page (htenant : bq.tenantID ≠ "") (hstart : bq.afterID = "" → start = 0) :
    dbGet coll now bq start limit extraFilters rawConditions table =
      let p := @Keyset.page _ _ (listingOrder coll bq.descending) Indexed.id bq.key limit
        (table.filter fun r => bq.Matches coll now extraFilters rawConditions r)
      ⟨p.rows, start + p.rows.length, p.more⟩ := by
  have hoffset : (if bq.afterID = "" then start else 0) = 0 := by
    split
    · exact hstart ‹_›
    · rfl
  have hsome : (bq.allConditions extraFilters rawConditions).isEmpty = false := by
    have hmem : (Condition.tenant bq.tenantID : Condition ρ) ∈ bq.conditions := by
      simp [BaseQuery.conditions, htenant]
    rw [List.isEmpty_eq_false_iff]
    exact List.ne_nil_of_mem
      (List.mem_append_left _ (List.mem_append_left _ (List.mem_append_left _ hmem)))
  have hrows : ∀ n, Select.rows coll now
      ⟨bq.allConditions extraFilters rawConditions, bq.descending, 0, n⟩ table =
      (@Keyset.after _ _ (listingOrder coll bq.descending) Indexed.id bq.key
        (table.filter fun r => bq.Matches coll now extraFilters rawConditions r)).take n := by
    intro n
    unfold Select.rows Keyset.after
    rw [filter_allConditions]
    rfl
  unfold dbGet buildGetQuery Keyset.page
  simp only [hsome, hoffset, hrows, Bool.false_eq_true, if_false]
  split
  next h =>
    rw [List.length_take] at h
    simp only [List.length_take]
    congr 2
    omega
  next => rfl

end

end BatchGateway
