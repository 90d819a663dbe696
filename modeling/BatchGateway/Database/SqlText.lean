import BatchGateway.Database.Core
import BatchGateway.Lib.Placeholders

/-! The texts of the reads and updates of an item table, with their arguments. A running index
numbers the placeholders; a map is given by its entries in the order of its iteration. -/
namespace BatchGateway
namespace PgCore

open Placeholders

/-- A name that stands in a statement unquoted. -/
structure SqlName where
  text : String
  plain : text.toList.all fun c => c.isAlphanum || c = '_'

structure TableDescriptor where
  tableName : SqlName
  extraColumns : List SqlName

/-- An argument of a statement; `value` is one of a column that only some table has. -/
inductive SqlArg (V : Type) where
  | ids (ids : List String)
  | text (s : String)
  | bytes (b : List UInt8)
  | int (n : Int)
  | value (v : V)
  deriving DecidableEq, Repr

variable {V : Type} (d : TableDescriptor) (marshal : Tags → String)

def expiryCondition : String := "expiry > 0 AND expiry <= EXTRACT(EPOCH FROM NOW())::BIGINT"

/-- The columns of a `SELECT`. -/
def selectColumns (includeStatic : Bool) : List String :=
  ["id", "tenant_id", "expiry", "tags"] ++ d.extraColumns.map SqlName.text ++
    if includeStatic then ["status", "spec"] else ["status"]

/-- `$%d` -/
def placeholder (argIdx : Nat) : String := "$" ++ toString argIdx

/-- The clauses written so far, their arguments, and the number of the next placeholder. -/
structure Clauses (V : Type) where
  texts : List String := []
  args : List (SqlArg V) := []
  argIdx : Nat := 1

/-- Append a clause with one placeholder between two texts. -/
def Clauses.add (b : Clauses V) (before : String) (v : SqlArg V) (after : String := "") :
    Clauses V :=
  { texts := b.texts ++ [before ++ placeholder b.argIdx ++ after]
    args := b.args ++ [v]
    argIdx := b.argIdx + 1 }

def joiner : LogicalCond → String
  | .or => " OR "
  | _ => " AND "

/-- One condition per selector, joined in parentheses. -/
def Clauses.addTags (b : Clauses V) (cond : LogicalCond) (selectors : Tags) : Clauses V :=
  let tagConds := selectors.foldl
    (fun c (k, v) => c.add "tags @> " (.text (marshal [(k, v)])) "::jsonb") { b with texts := [] }
  { tagConds with texts := b.texts ++ ["(" ++ (joiner cond).intercalate tagConds.texts ++ ")"] }

def Clauses.addColumns (b : Clauses V) (columns : List (SqlName × V)) : Clauses V :=
  columns.foldl (fun c (col, v) => c.add (col.text ++ " = ") (.value v)) b

def Clauses.addIDs (b : Clauses V) (ids : List String) : Clauses V :=
  if ids ≠ [] then b.add "id = ANY(" (.ids ids) ")" else b

def Clauses.addTenant (b : Clauses V) (tenantID : String) : Clauses V :=
  if tenantID ≠ "" then b.add "tenant_id = " (.text tenantID) else b

def Clauses.addSelectors (b : Clauses V) (cond : LogicalCond) (selectors : Tags) : Clauses V :=
  if selectors ≠ [] then b.addTags marshal cond selectors else b

def Clauses.addExpired (b : Clauses V) (expired : Bool) : Clauses V :=
  if expired then { b with texts := b.texts ++ [expiryCondition] } else b

def Clauses.addCursor (b : Clauses V) (descending : Bool) (afterID : String) : Clauses V :=
  let cmp := if descending then "<" else ">"
  if afterID ≠ "" then b.add ("id " ++ cmp ++ " ") (.text afterID) else b

/-- The conditions of a read, except for the raw ones. -/
def getConditions (bq : BaseQuery) (extraFilters : List (SqlName × V)) : Clauses V :=
  let b : Clauses V := {}
  let b := b.addIDs bq.ids
  let b := b.addTenant bq.tenantID
  let b := b.addSelectors marshal bq.tagsLogicalCond bq.tagSelectors
  let b := b.addExpired bq.expired
  let b := b.addColumns extraFilters
  b.addCursor bq.descending bq.afterID

/-- The statement of a read and its arguments. The cursor replaces the offset. -/
def buildGetQuery (bq : BaseQuery) (includeStatic : Bool) (start limit : Int)
    (extraFilters : List (SqlName × V)) (rawConditions : List String) :
    String × List (SqlArg V) :=
  let b := getConditions marshal bq extraFilters
  let start := if bq.afterID ≠ "" then 0 else start
  let order := if bq.descending then "DESC" else "ASC"
  let conditions := b.texts ++ rawConditions
  if conditions = [] then ("", [])
  else
    ("SELECT " ++ ", ".intercalate (selectColumns d includeStatic) ++ " FROM " ++
      d.tableName.text ++ " WHERE " ++ " AND ".intercalate conditions ++ " ORDER BY " ++ "id" ++
      " " ++ order ++ " OFFSET " ++ placeholder b.argIdx ++ " LIMIT " ++
      placeholder (b.argIdx + 1),
    b.args ++ [.int start, .int limit])

def packTags (tags : Tags) : String := if tags = [] then "\x7b\x7d" else marshal tags

/-- The text of a `WHERE` clause with the arguments and the next number. -/
structure WhereClause (V : Type) where
  text : String
  args : List (SqlArg V)
  argIdx : Nat
  hasConditions : Bool := false

def WhereClause.add (w : WhereClause V) (col : String) (v : SqlArg V) : WhereClause V :=
  { text := w.text ++ (" AND " ++ col ++ " = " ++ placeholder w.argIdx)
    args := w.args ++ [v]
    argIdx := w.argIdx + 1
    hasConditions := true }

/-- The statement that an update executes. Without a matching row it is a conflict if there are
conditions. -/
structure UpdateCall (V : Type) where
  sql : String
  args : List (SqlArg V)
  hasConditions : Bool

def setClauses (idx : BaseIndexes) (status : List UInt8) : Clauses V :=
  let b : Clauses V := {}
  let b := if status ≠ [] then b.add "status = " (.bytes status) else b
  if idx.tags ≠ [] then b.add "tags = " (.text (packTags marshal idx.tags)) else b

def whereClause (b : Clauses V) (id : String) (expectedStatus : List UInt8)
    (extraConditions : List (SqlName × V)) : WhereClause V :=
  let w : WhereClause V :=
    { text := "id = " ++ placeholder b.argIdx, args := b.args ++ [.text id], argIdx := b.argIdx + 1 }
  let w := if expectedStatus ≠ [] then w.add "status" (.bytes expectedStatus) else w
  extraConditions.foldl (fun w (col, v) => w.add col.text (.value v)) w

/-- Update the status and the tags of an item; there is nothing to execute without either. -/
def update (idx : BaseIndexes) (status expectedStatus : List UInt8)
    (extraConditions : List (SqlName × V)) (rawSetClauses : List String) :
    Except String (Option (UpdateCall V)) :=
  if idx.id = "" then .error "ID is empty"
  else
    let b := setClauses marshal idx status
    if b.texts = [] then .ok none
    else
      let w := whereClause b idx.id expectedStatus extraConditions
      .ok (some {
        sql := "UPDATE " ++ d.tableName.text ++ " SET " ++
          ", ".intercalate (b.texts ++ rawSetClauses) ++ " WHERE " ++ w.text
        args := w.args
        hasConditions := w.hasConditions })

/-! ### The raw clauses of the clients -/

def batchDescriptor : TableDescriptor where
  tableName := ⟨"batch_items", rfl⟩
  extraColumns := [⟨"processor_id", rfl⟩, ⟨"priority", rfl⟩, ⟨"epoch", rfl⟩,
    ⟨"recovery_attempts", rfl⟩, ⟨"resumable", rfl⟩, ⟨"owner_lease_expires_at", rfl⟩]

def fileTableDescriptor : TableDescriptor where
  tableName := ⟨"file_items", rfl⟩
  extraColumns := [⟨"purpose", rfl⟩]

def buildNonTerminalCondition (column : String) : String :=
  column ++ "::jsonb->>'status' NOT IN (" ++
    ",".intercalate (BatchStatus.terminalStatuses.map fun s => "'" ++ s.text ++ "'") ++ ")"

/-- The raw conditions of a read of batches. -/
def batchRawConditions (nonTerminal hasProcessorID : Bool) : List String :=
  (if nonTerminal then [buildNonTerminalCondition "status"] else []) ++
    if hasProcessorID then ["processor_id" ++ " IS NOT NULL"] else []

/-- The raw set clauses of an update of a batch. -/
def batchRawSets (bumpEpoch : Bool) : List String :=
  if bumpEpoch then ["epoch" ++ " = " ++ "epoch" ++ " + 1"] else []

/-! ### What the statements say -/

abbrev SqlPieces (V : Type) := List (Piece (SqlArg V))

def columnPieces (col : SqlName) (v : V) : SqlPieces V :=
  chars (col.text ++ " = ") ++ [.arg (.value v)]

def selectorPieces (selector : String × String) : SqlPieces V :=
  chars "tags @> " ++ ([.arg (.text (marshal [selector]))] ++ chars "::jsonb")

/-- A condition with its own value; those on other columns have their own texts. -/
def conditionPieces : Condition BaseIndexes → SqlPieces V
  | .idAny ids => chars "id = ANY(" ++ ([.arg (.ids ids)] ++ chars ")")
  | .tenant tenantID => chars "tenant_id = " ++ [.arg (.text tenantID)]
  | .tagged cond selectors =>
    chars "(" ++ ((chars (joiner cond)).intercalate (selectors.map (selectorPieces marshal)) ++
      chars ")")
  | .expired => chars expiryCondition
  | .column _ => []
  | .after descending id => chars (if descending then "id < " else "id > ") ++ [.arg (.text id)]

def readConditions (bq : BaseQuery) (extraFilters : List (SqlName × V)) : List (SqlPieces V) :=
  bq.conditions.map (conditionPieces marshal) ++ extraFilters.map (fun f => columnPieces f.1 f.2) ++
    bq.cursor.map (conditionPieces marshal)

/-- A read with its values in place. -/
def readPieces (bq : BaseQuery) (includeStatic : Bool) (start limit : Int)
    (extraFilters : List (SqlName × V)) (rawConditions : List String) : SqlPieces V :=
  chars ("SELECT " ++ ", ".intercalate (selectColumns d includeStatic) ++ " FROM " ++
    d.tableName.text ++ " WHERE ") ++
  (chars " AND ").intercalate
    (readConditions marshal bq extraFilters ++ rawConditions.map chars) ++
  chars (" ORDER BY " ++ "id" ++ " " ++ (if bq.descending then "DESC" else "ASC") ++ " OFFSET ") ++
  [.arg (.int (if bq.afterID = "" then start else 0))] ++ chars " LIMIT " ++ [.arg (.int limit)]

def setPieces (idx : BaseIndexes) (status : List UInt8) : List (SqlPieces V) :=
  (if status = [] then [] else [chars "status = " ++ [.arg (.bytes status)]]) ++
  (if idx.tags = [] then [] else [chars "tags = " ++ [.arg (.text (packTags marshal idx.tags))]])

/-- An update with its values in place. -/
def updatePieces (idx : BaseIndexes) (status expectedStatus : List UInt8)
    (extraConditions : List (SqlName × V)) (rawSetClauses : List String) : SqlPieces V :=
  chars ("UPDATE " ++ d.tableName.text ++ " SET ") ++
  (chars ", ").intercalate (setPieces marshal idx status ++ rawSetClauses.map chars) ++
  chars " WHERE " ++ chars "id = " ++ [.arg (.text idx.id)] ++
  (if expectedStatus = [] then [] else chars " AND status = " ++ [.arg (.bytes expectedStatus)]) ++
  extraConditions.flatMap fun c => chars " AND " ++ columnPieces c.1 c.2

/-! ### The clauses -/

section

variable {d marshal} {before : List (SqlArg V)} {b : Clauses V} {pss : List (SqlPieces V)}

/-- The clauses are those of the pieces, numbered after the arguments of `before`. -/
structure Clauses.Says (before : List (SqlArg V)) (b : Clauses V) (pss : List (SqlPieces V)) :
    Prop where
  texts : WritesAll (before.length + 1) b.texts pss
  args : b.args = before ++ values pss.flatten
  argIdx : b.argIdx = b.args.length + 1

theorem SqlName.no_dollar (name : SqlName) : '$' ∉ name.text.toList := by
  intro h
  have := List.all_eq_true.1 name.plain '$' h
  revert this
  decide

/-- One placeholder between two texts. -/
theorem writes_clause {s e : String} (hs : '$' ∉ s.toList) (he : '$' ∉ e.toList)
    (hb : Breaks e.toList) (n : Nat) (v : SqlArg V) :
    Writes n (s ++ placeholder n ++ e) (chars s ++ ([.arg v] ++ chars e)) := by
  rw [String.append_assoc]
  apply Writes.after_plain hs
  exact (writes_arg v n).append (writes_of_no_dollar he _) hb

theorem Clauses.Says.add (h : b.Says before pss) {s e : String} (hs : '$' ∉ s.toList)
    (he : '$' ∉ e.toList) (hb : Breaks e.toList) (v : SqlArg V) :
    (b.add s v e).Says before (pss ++ [chars s ++ ([.arg v] ++ chars e)]) where
  texts := by
    have hidx : b.argIdx = before.length + 1 + (values pss.flatten).length := by
      rw [h.argIdx, h.args, List.length_append]
      omega
    refine h.texts.snoc ?_
    rw [← hidx]
    exact writes_clause hs he hb b.argIdx v
  args := by simp [Clauses.add, h.args]
  argIdx := by simp [Clauses.add, h.argIdx]

theorem Clauses.Says.addLast (h : b.Says before pss) {s : String} (hs : '$' ∉ s.toList)
    (v : SqlArg V) : (b.add s v).Says before (pss ++ [chars s ++ [.arg v]]) := by
  simpa using h.add hs (e := "") (by simp) nofun v

/-- A condition without arguments. -/
theorem Clauses.Says.addText (h : b.Says before pss) {s : String} (hs : '$' ∉ s.toList) :
    Clauses.Says before { b with texts := b.texts ++ [s] } (pss ++ [chars s]) where
  texts := h.texts.snoc (writes_of_no_dollar hs _)
  args := by simp [h.args]
  argIdx := h.argIdx

/-- A loop that appends one clause for each entry. -/
theorem Clauses.Says.fold {ε : Type} {g : Clauses V → ε → Clauses V} {f : ε → SqlPieces V}
    (hg : ∀ b pss x, Clauses.Says before b pss → (g b x).Says before (pss ++ [f x]))
    (xs : List ε) (h : b.Says before pss) : (xs.foldl g b).Says before (pss ++ xs.map f) := by
  induction xs generalizing b pss with
  | nil => simpa using h
  | cons x xs ih =>
    have hnext := ih (hg b pss x h)
    simpa using hnext

theorem Clauses.Says.addColumns (h : b.Says before pss) (columns : List (SqlName × V)) :
    (b.addColumns columns).Says before (pss ++ columns.map fun c => columnPieces c.1 c.2) := by
  refine Clauses.Says.fold (fun b pss x hb => ?_) columns h
  refine hb.addLast ?_ (.value x.2)
  simp [x.1.no_dollar]

theorem joiner_plain (cond : LogicalCond) : '$' ∉ (joiner cond).toList ∧ (joiner cond).toList ≠ [] ∧
    Breaks (joiner cond).toList := by
  cases cond with
  | or | none | and => decide

theorem Clauses.Says.addTags (h : b.Says before pss) (cond : LogicalCond) (selectors : Tags) :
    (b.addTags marshal cond selectors).Says before
      (pss ++ [conditionPieces marshal (.tagged cond selectors)]) := by
  -- the conditions of the selectors are numbered after the arguments so far
  have hstart : Clauses.Says b.args { b with texts := [] } [] := ⟨trivial, by simp, h.argIdx⟩
  have hsub := Clauses.Says.fold (f := selectorPieces marshal)
    (g := fun c (x : String × String) => c.add "tags @> " (.text (marshal [(x.1, x.2)])) "::jsonb")
    (fun _ _ x hb => hb.add (by decide) (by decide) (by decide) (.text (marshal [x])))
    selectors hstart
  rw [List.nil_append] at hsub
  obtain ⟨hplain, hne, hbreaks⟩ := joiner_plain cond
  have hjoined := hsub.texts.intercalate (joiner cond) hplain hne hbreaks
  have hparen : Writes (b.args.length + 1) _ (conditionPieces marshal (.tagged cond selectors)) :=
    Writes.after_plain (s := "(") (by decide)
      (hjoined.append (writes_of_no_dollar (s := ")") (by decide) _) (by decide))
  have hvalues : values (conditionPieces marshal (.tagged cond selectors) : SqlPieces V) =
      values (selectors.map (selectorPieces marshal)).flatten := by
    simp [conditionPieces, values_intercalate]
  constructor
  · refine h.texts.snoc ?_
    have hn : b.args.length + 1 = before.length + 1 + (values pss.flatten).length := by
      rw [h.args, List.length_append]
      omega
    rw [← hn, ← String.append_assoc] at *
    exact hparen
  · have hargs := hsub.args
    rw [List.flatten_append, values_append, List.flatten_singleton, hvalues, ← List.append_assoc,
      ← h.args]
    exact hargs
  · exact hsub.argIdx

/-- A block that is left out unless its condition holds. -/
theorem Clauses.Says.optional {p : Prop} [Decidable p] {b' : Clauses V} {ps : SqlPieces V}
    (h : b.Says before pss) (h' : b'.Says before (pss ++ [ps])) :
    Clauses.Says before (if ¬ p then b' else b) (pss ++ if p then [] else [ps]) := by
  by_cases hp : p
  · simpa [hp] using h
  · simpa [hp] using h'

theorem map_optional {p : Prop} [Decidable p] (c : Condition BaseIndexes) :
    (if p then [] else [c]).map (conditionPieces marshal) =
      if p then [] else [(conditionPieces marshal c : SqlPieces V)] := by
  split <;> rfl

section

variable (h : b.Says before pss)
include h

theorem Clauses.Says.addIDs (ids : List String) :
    (b.addIDs ids).Says before
      (pss ++ (if ids = [] then [] else [.idAny ids]).map (conditionPieces marshal)) := by
  rw [map_optional]
  exact h.optional (h.add (by decide) (by decide) (by decide) (.ids ids))

theorem Clauses.Says.addTenant (tenantID : String) :
    (b.addTenant tenantID).Says before
      (pss ++ (if tenantID = "" then [] else [.tenant tenantID]).map (conditionPieces marshal)) := by
  rw [map_optional]
  exact h.optional (h.addLast (by decide) (.text tenantID))

theorem Clauses.Says.addSelectors (cond : LogicalCond) (selectors : Tags) :
    (b.addSelectors marshal cond selectors).Says before
      (pss ++ (if selectors = [] then [] else [.tagged cond selectors]).map
        (conditionPieces marshal)) := by
  rw [map_optional]
  exact h.optional (h.addTags cond selectors)

theorem Clauses.Says.addExpired (expired : Bool) :
    (b.addExpired expired).Says before
      (pss ++ (if expired then [.expired] else []).map (conditionPieces marshal)) := by
  cases expired with
  | true => exact h.addText (by decide)
  | false => simpa [Clauses.addExpired] using h

theorem Clauses.Says.addCursor (descending : Bool) (afterID : String) :
    (b.addCursor descending afterID).Says before
      (pss ++ (if afterID = "" then [] else [.after descending afterID]).map
        (conditionPieces marshal)) := by
  rw [map_optional]
  apply h.optional
  cases descending with
  | true => exact h.addLast (by decide) (.text afterID)
  | false => exact h.addLast (by decide) (.text afterID)

end

theorem says_empty : Clauses.Says [] ({} : Clauses V) [] := ⟨trivial, rfl, rfl⟩

theorem says_getConditions (marshal : Tags → String) (bq : BaseQuery)
    (extraFilters : List (SqlName × V)) :
    (getConditions marshal bq extraFilters).Says [] (readConditions marshal bq extraFilters) := by
  unfold readConditions BaseQuery.conditions BaseQuery.cursor
  rw [List.map_append, List.map_append, List.map_append]
  exact (((((says_empty.addIDs bq.ids).addTenant bq.tenantID).addSelectors bq.tagsLogicalCond
    bq.tagSelectors).addExpired bq.expired).addColumns extraFilters).addCursor bq.descending
    bq.afterID

/-- The raw clauses follow without numbers. -/
theorem Clauses.Says.raw (h : b.Says [] pss) {raw : List String}
    (hraw : ∀ c ∈ raw, placeholders c = []) :
    WritesAll 1 (b.texts ++ raw) (pss ++ raw.map chars) :=
  h.texts.append (writesAll_of_no_placeholders hraw _)

theorem values_raw (pss : List (SqlPieces V)) (raw : List String) :
    values (pss ++ raw.map chars).flatten = values pss.flatten := by
  induction raw generalizing pss with
  | nil => simp
  | cons c cs ih => simpa using ih (pss ++ [chars c])

theorem no_dollar_intercalate {sep : String} {ss : List String} (hsep : '$' ∉ sep.toList)
    (h : ∀ s ∈ ss, '$' ∉ s.toList) : '$' ∉ (sep.intercalate ss).toList := by
  induction ss with
  | nil => simp
  | cons s ss ih =>
    have hs := h s List.mem_cons_self
    have hss := ih fun t ht => h t (List.mem_cons_of_mem _ ht)
    cases ss with
    | nil => simpa using hs
    | cons t ts =>
      rw [String.intercalate_cons_cons]
      rw [String.toList_append, String.toList_append]
      simp only [List.mem_append, not_or]
      exact ⟨⟨hs, hsep⟩, hss⟩

theorem selectColumns_no_dollar (includeStatic : Bool) :
    ∀ c ∈ selectColumns d includeStatic, '$' ∉ c.toList := by
  unfold selectColumns
  refine List.forall_mem_append.2 ⟨List.forall_mem_append.2 ⟨by decide, ?_⟩, ?_⟩
  · intro c hc
    obtain ⟨name, -, rfl⟩ := List.mem_map.1 hc
    exact name.no_dollar
  · cases includeStatic with
    | true | false => decide

/-- The order, the offset and the limit of a read. -/
theorem writes_paging (descending : Bool) (start limit : Int) (n : Nat) :
    Writes n (" ORDER BY " ++ "id" ++ " " ++ (if descending then "DESC" else "ASC") ++
        " OFFSET " ++ (placeholder n ++ (" LIMIT " ++ placeholder (n + 1))))
      (chars (" ORDER BY " ++ "id" ++ " " ++ (if descending then "DESC" else "ASC") ++
        " OFFSET ") ++ ([.arg (.int start : SqlArg V)] ++
        (chars " LIMIT " ++ [.arg (.int limit)]))) := by
  have horder : '$' ∉ (" ORDER BY " ++ "id" ++ " " ++ (if descending then "DESC" else "ASC") ++
      " OFFSET ").toList := by
    cases descending with
    | true | false => decide
  have hlimit : Writes (n + 1) (" LIMIT " ++ placeholder (n + 1))
      (chars " LIMIT " ++ [.arg (.int limit : SqlArg V)]) :=
    Writes.after_plain (by decide) (writes_arg _ _)
  apply Writes.after_plain horder
  apply (writes_arg _ n).append hlimit
  rw [String.toList_append]
  exact breaks_append (by decide) (by decide)

theorem breaks_paging (descending : Bool) (s : String) :
    Breaks (" ORDER BY " ++ "id" ++ " " ++ (if descending then "DESC" else "ASC") ++
      " OFFSET " ++ s).toList := by
  rw [String.toList_append]
  cases descending with
  | true | false => exact breaks_append (by decide) (by decide)

theorem buildGetQuery_writes {bq : BaseQuery} {extraFilters : List (SqlName × V)}
    {rawConditions : List String} (hraw : ∀ c ∈ rawConditions, placeholders c = [])
    (hne : readConditions marshal bq extraFilters ++ rawConditions.map chars ≠ [])
    (includeStatic : Bool) (start limit : Int) :
    let q := buildGetQuery d marshal bq includeStatic start limit extraFilters rawConditions
    let ps := readPieces d marshal bq includeStatic start limit extraFilters rawConditions
    Writes 1 q.1 ps ∧ q.2 = values ps := by
  intro q ps
  have hread : Clauses.Says [] (getConditions marshal bq extraFilters)
      (readConditions marshal bq extraFilters) := says_getConditions marshal bq extraFilters
  have htexts := hread.raw hraw
  have hconds : (getConditions marshal bq extraFilters).texts ++ rawConditions ≠ [] := fun he =>
    hne (htexts.eq_nil_iff.1 he)
  have hidx : (getConditions marshal bq extraFilters).argIdx =
      1 + (values ((chars " AND ").intercalate
        (readConditions marshal bq extraFilters ++ rawConditions.map chars))).length := by
    rw [values_intercalate, values_raw, hread.argIdx, hread.args, List.nil_append, Nat.add_comm]
  have hhead : '$' ∉ ("SELECT " ++ ", ".intercalate (selectColumns d includeStatic) ++ " FROM " ++
      d.tableName.text ++ " WHERE ").toList := by
    have hcols : '$' ∉ (", ".intercalate (selectColumns d includeStatic)).toList :=
      no_dollar_intercalate (by decide) (selectColumns_no_dollar includeStatic)
    simp only [String.toList_append, List.mem_append, not_or]
    exact ⟨⟨⟨⟨by decide, hcols⟩, by decide⟩, d.tableName.no_dollar⟩, by decide⟩
  have hwhere := htexts.intercalate " AND " (by decide) (by decide) (by decide)
  have hall := Writes.after_plain hhead (hwhere.append
    (writes_paging bq.descending (if bq.afterID = "" then start else 0) limit _)
    (breaks_paging bq.descending _))
  have hstart : (if bq.afterID ≠ "" then 0 else start) = if bq.afterID = "" then start else 0 :=
    ite_not _ _ _
  constructor
  · simp only [q, ps, buildGetQuery, readPieces, hconds, if_false]
    rw [← hidx] at hall
    simp only [String.append_assoc, List.append_assoc] at hall ⊢
    exact hall
  · simp only [q, ps, buildGetQuery, readPieces, hconds, if_false, hstart]
    rw [hread.args]
    simp only [values_append, values_chars, values_intercalate, values_raw, values_arg, values_nil,
      List.nil_append, List.append_assoc, List.cons_append]

theorem says_setClauses (idx : BaseIndexes) (status : List UInt8) :
    (setClauses marshal idx status : Clauses V).Says [] (setPieces marshal idx status) := by
  have hstatus : Clauses.Says [] _ (if status = [] then [] else [_]) :=
    says_empty.optional (p := status = [])
      (says_empty.addLast (s := "status = ") (by decide) (.bytes status : SqlArg V))
  exact hstatus.optional (hstatus.addLast (by decide) (.text (packTags marshal idx.tags)))

/-! ### The conditions of an update -/

/-- The clause is that of the pieces, numbered after the arguments of `before`. -/
structure WhereClause.Says (before : List (SqlArg V)) (w : WhereClause V) (ps : SqlPieces V) :
    Prop where
  text : Writes (before.length + 1) w.text ps
  args : w.args = before ++ values ps
  argIdx : w.argIdx = w.args.length + 1

variable {w : WhereClause V} {ps : SqlPieces V}

theorem WhereClause.Says.add (h : w.Says before ps) (col : String) (hcol : '$' ∉ col.toList)
    (v : SqlArg V) :
    (w.add col v).Says before (ps ++ (chars (" AND " ++ col ++ " = ") ++ [.arg v])) where
  text := by
    have hidx : w.argIdx = before.length + 1 + (values ps).length := by
      rw [h.argIdx, h.args, List.length_append]
      omega
    have hplain : '$' ∉ (" AND " ++ col ++ " = ").toList := by simp [hcol]
    refine h.text.append ?_ ?_
    · rw [← hidx]
      exact Writes.after_plain hplain (writes_arg v w.argIdx)
    · rw [String.append_assoc, String.append_assoc, String.toList_append]
      exact breaks_append (by decide) (by decide)
  args := by simp [WhereClause.add, h.args]
  argIdx := by simp [WhereClause.add, h.argIdx]

theorem WhereClause.Says.addColumns (h : w.Says before ps) (columns : List (SqlName × V)) :
    WhereClause.Says before (columns.foldl (fun w c => w.add c.1.text (.value c.2)) w)
      (ps ++ columns.flatMap fun c => chars " AND " ++ columnPieces c.1 c.2) := by
  induction columns generalizing w ps with
  | nil => simpa using h
  | cons c columns ih =>
    have hnext := ih (h.add c.1.text c.1.no_dollar (.value c.2))
    simpa [chars_append, columnPieces] using hnext

theorem says_whereClause (h : b.Says [] pss) (id : String) (expectedStatus : List UInt8)
    (extraConditions : List (SqlName × V)) :
    (whereClause b id expectedStatus extraConditions).Says b.args
      (chars "id = " ++ [.arg (.text id)] ++
        (if expectedStatus = [] then [] else
          chars " AND status = " ++ [.arg (.bytes expectedStatus)]) ++
        extraConditions.flatMap fun c => chars " AND " ++ columnPieces c.1 c.2) := by
  have hid : WhereClause.Says b.args
      { text := "id = " ++ placeholder b.argIdx, args := b.args ++ [.text id],
        argIdx := b.argIdx + 1 } (chars "id = " ++ [.arg (.text id)]) := by
    refine ⟨?_, by simp, by simp [h.argIdx]⟩
    rw [← h.argIdx]
    exact Writes.after_plain (by decide) (writes_arg _ _)
  apply WhereClause.Says.addColumns
  by_cases hexpected : expectedStatus = []
  · simpa [hexpected] using hid
  · have hstatus := hid.add "status" (by decide) (.bytes expectedStatus)
    simpa [hexpected] using hstatus

theorem update_writes {idx : BaseIndexes} {status expectedStatus : List UInt8}
    {extraConditions : List (SqlName × V)} {rawSetClauses : List String} {call : UpdateCall V}
    (hraw : ∀ c ∈ rawSetClauses, placeholders c = [])
    (hcall : update d marshal idx status expectedStatus extraConditions rawSetClauses =
      .ok (some call)) :
    let ps := updatePieces d marshal idx status expectedStatus extraConditions rawSetClauses
    Writes 1 call.sql ps ∧ call.args = values ps := by
  intro ps
  have hset : Clauses.Says [] (setClauses marshal idx status : Clauses V)
      (setPieces marshal idx status) := says_setClauses idx status
  have hjoined := (hset.raw hraw).intercalate ", " (by decide) (by decide) (by decide)
  have hargs : (setClauses marshal idx status : Clauses V).args =
      values ((chars ", ").intercalate (setPieces marshal idx status ++ rawSetClauses.map chars)) := by
    rw [values_intercalate, values_raw, hset.args, List.nil_append]
  have hwhere := says_whereClause hset idx.id expectedStatus extraConditions
  have htable : '$' ∉ ("UPDATE " ++ d.tableName.text ++ " SET ").toList := by
    simp [d.tableName.no_dollar]
  unfold update at hcall
  split at hcall
  · cases hcall
  · dsimp only at hcall
    split at hcall
    · cases hcall
    · cases hcall
      constructor
      · have htext := hwhere.text
        rw [hargs, Nat.add_comm] at htext
        have hall := Writes.after_plain htable (hjoined.append
          (Writes.after_plain (s := " WHERE ") (by decide) htext)
          (by rw [String.toList_append]; exact breaks_append (by decide) (by decide)))
        simp only [ps, updatePieces, String.append_assoc, List.append_assoc] at hall ⊢
        exact hall
      · simp only [ps, updatePieces, hwhere.args, hargs]
        simp only [values_append, values_chars, List.nil_append, List.append_assoc]

theorem batchRawConditions_plain (nonTerminal hasProcessorID : Bool) :
    ∀ c ∈ batchRawConditions nonTerminal hasProcessorID, placeholders c = [] := by
  cases nonTerminal <;> cases hasProcessorID <;> decide

theorem batchRawSets_plain (bumpEpoch : Bool) :
    ∀ c ∈ batchRawSets bumpEpoch, placeholders c = [] := by
  cases bumpEpoch <;> decide

/-- Whatever the query and the update, and in whatever order their maps are iterated: when the raw
clauses hold no placeholders, a statement has one placeholder for each of its arguments, numbered
from one on, and with the arguments in their places every condition, set clause, offset and limit
has its own value. -/
theorem statements_bound (d : TableDescriptor) (marshal : Tags → String) :
    (∀ (bq : BaseQuery) (includeStatic : Bool) (start limit : Int)
      (extraFilters : List (SqlName × V)) (rawConditions : List String),
      (∀ c ∈ rawConditions, placeholders c = []) →
      let q := buildGetQuery d marshal bq includeStatic start limit extraFilters rawConditions
      placeholders q.1 = List.range' 1 q.2.length ∧
      if readConditions marshal bq extraFilters = [] ∧ rawConditions = [] then q = ("", [])
      else bind q.2 q.1 =
        some (readPieces d marshal bq includeStatic start limit extraFilters rawConditions)) ∧
    (∀ (idx : BaseIndexes) (status expectedStatus : List UInt8)
      (extraConditions : List (SqlName × V)) (rawSetClauses : List String) (call : UpdateCall V),
      (∀ c ∈ rawSetClauses, placeholders c = []) →
      update d marshal idx status expectedStatus extraConditions rawSetClauses = .ok (some call) →
      placeholders call.sql = List.range' 1 call.args.length ∧
      bind call.args call.sql =
        some (updatePieces d marshal idx status expectedStatus extraConditions rawSetClauses)) := by
  constructor
  · intro bq includeStatic start limit extraFilters rawConditions hraw q
    have htexts := (says_getConditions marshal bq extraFilters).raw hraw
    by_cases hnone : readConditions marshal bq extraFilters = [] ∧ rawConditions = []
    · have hempty : (getConditions marshal bq extraFilters).texts ++ rawConditions = [] := by
        rw [htexts.eq_nil_iff, hnone.1, hnone.2]
        rfl
      have hq : q = ("", []) := by simp only [q, buildGetQuery, hempty, if_true]
      rw [hq, if_pos hnone]
      exact ⟨rfl, rfl⟩
    · have hne : readConditions marshal bq extraFilters ++ rawConditions.map chars ≠ [] := by
        simpa using hnone
      obtain ⟨hwrites, hargs⟩ := buildGetQuery_writes (d := d) hraw hne includeStatic start limit
      rw [if_neg hnone]
      exact ⟨hargs ▸ hwrites.placeholders, hargs ▸ hwrites.bind⟩
  · intro idx status expectedStatus extraConditions rawSetClauses call hraw hcall
    obtain ⟨hwrites, hargs⟩ := update_writes hraw hcall
    exact ⟨hargs ▸ hwrites.placeholders, hargs ▸ hwrites.bind⟩

/-- The reconciler's read of a tenant's batches, and the takeover of one of them. -/
theorem batchStatements_bound :
    (let q := buildGetQuery (V := Int) batchDescriptor (fun _ => "") { tenantID := "t" } false 0 10
        [] (batchRawConditions true true);
      placeholders q.1 = [1, 2, 3] ∧ q.2 = [.text "t", .int 0, .int 10]) ∧
    ∃ call, update (V := Int) batchDescriptor (fun _ => "") ⟨"b", "t", 0, []⟩ [1] [2]
        [(⟨"epoch", rfl⟩, 3)] (batchRawSets true) = .ok (some call) ∧
      placeholders call.sql = [1, 2, 3, 4] ∧
      call.args = [.bytes [1], .text "b", .bytes [2], .value 3] := by
  obtain ⟨hget, hupdate⟩ := statements_bound (V := Int) batchDescriptor fun _ => ""
  refine ⟨⟨?_, by decide +kernel⟩, _, rfl, ?_, rfl⟩
  · exact (hget { tenantID := "t" } false 0 10 [] _ (batchRawConditions_plain true true)).1
  · exact (hupdate ⟨"b", "t", 0, []⟩ [1] [2] [(⟨"epoch", rfl⟩, 3)] _ _ (batchRawSets_plain true)
      rfl).1

/-- A raw condition is taken as it is, with the placeholders it has. -/
theorem rawPlaceholder_unbound :
    let q := buildGetQuery (V := Nat) fileTableDescriptor (fun _ => "") {} false 0 10 []
      ["expiry > $9"]
    placeholders q.1 = [9, 1, 2] ∧ q.2 = [.int 0, .int 10] := by
  decide +kernel

end

end PgCore
end BatchGateway
