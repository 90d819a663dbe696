import BatchGateway.Database.Core
import BatchGateway.Database.Client
import BatchGateway.Worker.Preprocessor

/-! Listings of the API server. A client reads page after page, each after the last ID of the page
before, while rows come and go. -/
namespace BatchGateway

/-! ### Tenants and IDs -/

/-- A tenant as a request names it. -/
structure Tenant where
  name : String
  nonempty : name ≠ ""
  deriving DecidableEq

def defaultTenantID : String := "default"

/-- The last value of a header, or the default if the header is absent or empty. -/
def lastHeaderValue (values : List String) (defaultVal : String) : String :=
  match values.getLast? with
  | some v => if v ≠ "" then v else defaultVal
  | none => defaultVal

theorem lastHeaderValue_ne {values : List String} {defaultVal : String} (h : defaultVal ≠ "") :
    lastHeaderValue values defaultVal ≠ "" := by
  unfold lastHeaderValue
  split
  · split
    · assumption
    · exact h
  · exact h

/-- The tenant of a request, by the values of its tenant header. -/
def tenantOf (values : List String) : Tenant :=
  ⟨lastHeaderValue values defaultTenantID, lastHeaderValue_ne (by decide)⟩

inductive ObjectKind where
  | file | batch
  deriving DecidableEq, Repr

namespace ObjectKind

def idPrefix : ObjectKind → String
  | file => "file_"
  | batch => "batch_"

/-- The text has the form of an ID of this kind. -/
def Issues (kind : ObjectKind) (id : String) : Prop :=
  hasPrefix kind.idPrefix id = true ∧ kind.idPrefix.utf8ByteSize < id.utf8ByteSize

instance (kind : ObjectKind) (id : String) : Decidable (kind.Issues id) :=
  inferInstanceAs (Decidable (_ ∧ _))

end ObjectKind

/-! ### The `after` parameter -/

def isDigits (s : String) : Bool := s.toList.all (fun c => '0' ≤ c ∧ c ≤ '9') && s ≠ ""

/-- The value of a string of digits. -/
def decimal (s : String) : Nat := s.toList.foldl (fun n c => 10 * n + (c.toNat - '0'.toNat)) 0

/-- The offset or the cursor that the parameter stands for. -/
def parseAfter (after : String) (kind : ObjectKind) : Except String (Nat × String) :=
  if after = "" then .ok (0, "")
  else if isDigits after then
    if decimal after < 2 ^ 63 then .ok (decimal after, "")
    else .error ("after offset " ++ quoted after ++ " is out of range")
  else if kind.Issues after then .ok (0, after)
  else .error ("after must be an object ID starting with " ++ quoted kind.idPrefix ++
    " or a non-negative integer offset")

namespace ObjectKind.Issues

variable {kind : ObjectKind} {id : String}

theorem ne_empty (h : kind.Issues id) : id ≠ "" := by
  rintro rfl
  exact absurd h.2 (Nat.not_lt_zero _)

/-- An ID is not an offset, because its first letter is no digit. -/
theorem not_isDigits (h : kind.Issues id) : isDigits id = false := by
  have hstart : ∃ c ∈ kind.idPrefix.toList, (decide ('0' ≤ c ∧ c ≤ '9')) = false := by
    cases kind
    · exact ⟨'f', by decide, by decide⟩
    · exact ⟨'b', by decide, by decide⟩
  obtain ⟨c, hc, hdigit⟩ := hstart
  have hmem : c ∈ id.toList := (List.isPrefixOf_iff_prefix.1 h.1).subset hc
  have hall : id.toList.all (fun c => '0' ≤ c ∧ c ≤ '9') = false := by
    rw [List.all_eq_false]
    exact ⟨c, hmem, by rw [hdigit]; exact Bool.false_ne_true⟩
  rw [isDigits, hall, Bool.false_and]

theorem parseAfter_eq (h : kind.Issues id) : parseAfter id kind = .ok (0, id) := by
  rw [parseAfter, if_neg h.ne_empty, h.not_isDigits, if_neg Bool.false_ne_true, if_pos h]

end ObjectKind.Issues

/-! ### Pages -/

variable {ρ : Type} [Indexed ρ]

/-- What a listing asks for: the tenant, the filter and the order, but not the cursor. -/
structure ListQuery (ρ : Type) where
  tenant : Tenant
  base : BaseQuery := {}
  extraFilters : List (ρ → Bool) := []
  rawConditions : List (ρ → Bool) := []

namespace ListQuery

def query (q : ListQuery ρ) (afterID : String) : BaseQuery :=
  { q.base with tenantID := q.tenant.name, afterID }

/-- The row belongs to the listing. -/
def Matches (q : ListQuery ρ) (coll : Collation) (now : Time) (r : ρ) : Prop :=
  (q.query "").Matches coll now q.extraFilters q.rawConditions r

instance (q : ListQuery ρ) (coll : Collation) (now : Time) (r : ρ) :
    Decidable (q.Matches coll now r) :=
  inferInstanceAs (Decidable (BaseQuery.Matches ..))

/-- The order of the listing's IDs. -/
def Before (q : ListQuery ρ) (coll : Collation) (a b : String) : Prop :=
  (listingOrder coll q.base.descending).lt a b

end ListQuery

/-- A request for a page, and the table that it meets. -/
structure ListRead (ρ : Type) [Indexed ρ] where
  now : Time
  table : Table ρ
  limit : Nat

def listPage (coll : Collation) (kind : ObjectKind) (q : ListQuery ρ) (after : String)
    (read : ListRead ρ) : Except String (ItemPage ρ) :=
  match parseAfter after kind with
  | .error e => .error e
  | .ok (start, afterID) => .ok (dbGet coll read.now (q.query afterID) start read.limit
      q.extraFilters q.rawConditions read.table.rows)

def ItemPage.lastID (page : ItemPage ρ) : Option String := page.items.getLast?.map Indexed.id

/-- The pages of a client that follows the last IDs. -/
def traverse (coll : Collation) (kind : ObjectKind) (q : ListQuery ρ) :
    String → List (ListRead ρ) → Except String (List (ItemPage ρ))
  | _, [] => .ok []
  | after, read :: reads => do
    let page ← listPage coll kind q after read
    let rest ← traverse coll kind q (page.lastID.getD after) reads
    return page :: rest

/-- The IDs on some pages. -/
def foundIDs (pages : List (ItemPage ρ)) : List String :=
  pages.flatMap fun page => page.items.map Indexed.id

section

variable {coll : Collation} {kind : ObjectKind} {q : ListQuery ρ} {after : String}
  {read : ListRead ρ} {reads : List (ListRead ρ)}

/-- The tables hold IDs of this kind only. -/
def Listed (kind : ObjectKind) (reads : List (ListRead ρ)) : Prop :=
  ∀ read ∈ reads, ∀ r ∈ read.table.rows, kind.Issues (Indexed.id r)

/-- The rows of the listing at a read, with the limit of the page. -/
def ListRead.matching (read : ListRead ρ) (coll : Collation) (q : ListQuery ρ) :
    List ρ × Nat :=
  (read.table.rows.filter fun r => q.Matches coll read.now r, read.limit)

theorem ListRead.mem_matching {r : ρ} :
    r ∈ (read.matching coll q).1 ↔ r ∈ read.table.rows ∧ q.Matches coll read.now r := by
  rw [ListRead.matching, List.mem_filter, decide_eq_true_iff]

theorem ListRead.distinct (coll : Collation) (q : ListQuery ρ) (reads : List (ListRead ρ)) :
    Keyset.Distinct Indexed.id (reads.map (·.matching coll q)) := by
  intro m hm
  obtain ⟨read, -, rfl⟩ := List.mem_map.1 hm
  exact read.table.primaryKey.sublist (List.filter_sublist.map _)

/-- The cursor of a client. -/
def cursorKey (after : String) : Option String := if after = "" then none else some after

def ItemPage.toPage (page : ItemPage ρ) : Keyset.Page ρ := ⟨page.items, page.expectMore⟩

/-- The client has no cursor yet, or an ID. -/
def Resumes (kind : ObjectKind) (after : String) : Prop := after = "" ∨ kind.Issues after

theorem parseAfter_of_resumes (h : Resumes kind after) : parseAfter after kind = .ok (0, after) := by
  rcases h with rfl | h
  · rfl
  · exact h.parseAfter_eq

theorem listPage_eq (coll : Collation) (q : ListQuery ρ) (read : ListRead ρ)
    (h : Resumes kind after) : ∃ page, listPage coll kind q after read = .ok page ∧
    page.toPage = @Keyset.page _ _ (listingOrder coll q.base.descending) Indexed.id
      (cursorKey after) (read.matching coll q).2 (read.matching coll q).1 := by
  refine ⟨_, by rw [listPage, parseAfter_of_resumes h], ?_⟩
  rw [dbGet_eq_page q.tenant.nonempty fun _ => rfl]
  rfl

/-- Every page holds matching rows of its read. -/
theorem mem_of_page {cursor : Option String} {page : ItemPage ρ} (hpage : page.toPage =
      @Keyset.page _ _ (listingOrder coll q.base.descending) Indexed.id cursor
        (read.matching coll q).2 (read.matching coll q).1) {r : ρ} (hr : r ∈ page.items) :
    r ∈ read.table.rows ∧ q.Matches coll read.now r := by
  let := listingOrder coll q.base.descending
  have hmem : r ∈ page.toPage.rows := hr
  rw [hpage] at hmem
  exact ListRead.mem_matching.1 (Keyset.mem_page hmem).1

/-- The cursor after a page, which is again an ID. -/
theorem resumes_lastID (hrows : ∀ r ∈ read.table.rows, kind.Issues (Indexed.id r))
    (h : Resumes kind after) {page : ItemPage ρ} (hpage : page.toPage =
      @Keyset.page _ _ (listingOrder coll q.base.descending) Indexed.id (cursorKey after)
        (read.matching coll q).2 (read.matching coll q).1) :
    Resumes kind (page.lastID.getD after) ∧
      cursorKey (page.lastID.getD after) = Keyset.next Indexed.id (cursorKey after) page.toPage := by
  cases hlast : page.items.getLast? with
  | none =>
    have hnone : page.lastID = none := by rw [ItemPage.lastID, hlast]; rfl
    unfold Keyset.next ItemPage.toPage
    rw [hnone, hlast]
    exact ⟨h, rfl⟩
  | some r =>
    have hsome : page.lastID = some (Indexed.id r) := by rw [ItemPage.lastID, hlast]; rfl
    have hissued : kind.Issues (Indexed.id r) :=
      hrows r (mem_of_page hpage (List.mem_of_getLast? hlast)).1
    unfold Keyset.next ItemPage.toPage cursorKey
    rw [hsome, hlast, Option.getD_some, if_neg hissued.ne_empty]
    exact ⟨.inr hissued, rfl⟩

/-- Following the last IDs is keyset pagination over the matching rows of each read. -/
theorem traverse_eq (coll : Collation) (q : ListQuery ρ) (hids : Listed kind reads)
    (h : Resumes kind after) :
    ∃ pages, traverse coll kind q after reads = .ok pages ∧
      pages.map ItemPage.toPage = @Keyset.pages _ _ (listingOrder coll q.base.descending) Indexed.id
        (cursorKey after) (reads.map (·.matching coll q)) := by
  induction reads generalizing after with
  | nil => exact ⟨[], rfl, rfl⟩
  | cons read reads ih =>
    obtain ⟨hread, hreads⟩ := List.forall_mem_cons.1 hids
    obtain ⟨page, hpage, heq⟩ := listPage_eq coll q read h
    obtain ⟨hresumes, hkey⟩ := resumes_lastID hread h heq
    obtain ⟨pages, hpages, hrest⟩ := ih hreads hresumes
    refine ⟨page :: pages, ?_, ?_⟩
    · rw [traverse, hpage]
      change (do let rest ← traverse coll kind q (page.lastID.getD after) reads
                 return page :: rest) = _
      rw [hpages]
      rfl
    · unfold List.map Keyset.pages
      rw [hrest, hkey, heq]

theorem foundIDs_eq (pages : List (ItemPage ρ)) :
    foundIDs pages = ((pages.map ItemPage.toPage).flatMap Keyset.Page.rows).map Indexed.id := by
  rw [foundIDs, List.flatMap_map, List.map_flatMap]
  rfl

end

/-- Following the last IDs lists IDs in strict order and none twice. Each page holds matching rows,
and says that there is more exactly when a matching row was beyond it. When nothing more is left,
every row that matched throughout was listed. -/
theorem traversal_exact (coll : Collation) (kind : ObjectKind) (q : ListQuery ρ)
    (reads : List (ListRead ρ)) (hids : Listed kind reads) :
    ∃ pages, traverse coll kind q "" reads = .ok pages ∧ pages.length = reads.length ∧
      (foundIDs pages).Pairwise (q.Before coll) ∧ (foundIDs pages).Nodup ∧
      (∀ i read page, reads[i]? = some read → pages[i]? = some page →
        (∀ r ∈ page.items, r ∈ read.table.rows ∧ q.Matches coll read.now r) ∧
        (page.expectMore = true ↔ ∃ r ∈ read.table.rows, q.Matches coll read.now r ∧
          ∀ id ∈ foundIDs (pages.take (i + 1)), q.Before coll id (Indexed.id r))) ∧
      ((∃ page ∈ pages.getLast?, page.expectMore = false) → ∀ id,
        (∀ read ∈ reads, ∃ r ∈ read.table.rows,
          q.Matches coll read.now r ∧ Indexed.id r = id) → id ∈ foundIDs pages) := by
  let := listingOrder coll q.base.descending
  obtain ⟨pages, hpages, heq⟩ := traverse_eq coll q hids (.inl rfl)
  have hdistinct := ListRead.distinct coll q reads
  have hsorted : (foundIDs pages).Pairwise (q.Before coll) := by
    rw [foundIDs_eq, heq, List.pairwise_map]
    exact Keyset.pages_sorted hdistinct
  refine ⟨pages, hpages, ?_, hsorted, ?_, ?_, ?_⟩
  · have hlength := congrArg List.length heq
    rw [Keyset.length_pages, List.length_map, List.length_map] at hlength
    exact hlength
  · exact hsorted.imp fun hlt => ne_of_lt hlt
  · intro i read page hread hpage
    have hmatching : (reads.map (·.matching coll q))[i]? = some (read.matching coll q) := by
      rw [List.getElem?_map, hread]
      rfl
    have hat : page.toPage = Keyset.page Indexed.id (Keyset.resume Indexed.id (cursorKey "")
        ((reads.map (·.matching coll q)).take i)) (read.matching coll q).2
        (read.matching coll q).1 := by
      have hget : (Keyset.pages Indexed.id (cursorKey "") (reads.map (·.matching coll q)))[i]? = _ :=
        Keyset.getElem?_pages hmatching
      rw [← heq, List.getElem?_map, hpage] at hget
      exact Option.some.inj hget
    refine ⟨fun r hr => mem_of_page hat hr, ?_⟩
    have hmore : page.expectMore = page.toPage.more := rfl
    rw [hmore, hat, Keyset.pages_more_iff hdistinct hmatching, ← heq, ← List.map_take]
    refine exists_congr fun r => ?_
    rw [ListRead.mem_matching, and_assoc, foundIDs_eq, List.forall_mem_map]
    exact and_congr_right fun _ => and_congr_right fun _ => and_iff_right nofun
  · rintro ⟨page, hlast, hmore⟩ id hid
    have hdone : (pages.map ItemPage.toPage).getLast?.any (fun p => !p.more) = true := by
      rw [List.getLast?_map, hlast]
      exact congrArg not hmore
    rw [heq] at hdone
    have hthere : ∀ m ∈ reads.map (·.matching coll q), ∃ r ∈ m.1, Indexed.id r = id := by
      intro m hm
      obtain ⟨read, hread, rfl⟩ := List.mem_map.1 hm
      obtain ⟨r, hr, hmatch, heqid⟩ := hid read hread
      exact ⟨r, ListRead.mem_matching.2 ⟨hr, hmatch⟩, heqid⟩
    obtain ⟨p, hp, r, hr, hrid⟩ := Keyset.pages_cover hdistinct hdone nofun hthere
    rw [foundIDs_eq, heq, ← hrid]
    exact List.mem_map_of_mem (List.mem_flatMap.2 ⟨p, hp, hr⟩)

/-- Three pages; the last row of the first page is gone at the second, and one was added. -/
def sampleReads : List (ListRead BaseIndexes) :=
  let row (id : String) : BaseIndexes := { id, tenantID := "t" }
  [⟨0, ⟨[row "batch_b", row "batch_a", row "batch_c"], by decide⟩, 1⟩,
    ⟨0, ⟨[row "batch_b", row "batch_d", row "batch_c"], by decide⟩, 2⟩,
    ⟨0, ⟨[row "batch_d", row "batch_c"], by decide⟩, 2⟩]

theorem sampleReads_exact :
    ∃ pages, traverse .codepoint .batch { tenant := tenantOf ["t"] } "" sampleReads = .ok pages ∧
      foundIDs pages = ["batch_a", "batch_b", "batch_c", "batch_d"] ∧
      pages.map (·.expectMore) = [true, true, false] ∧ (foundIDs pages).Nodup := by
  have hids : Listed .batch sampleReads := by
    unfold Listed
    decide +kernel
  obtain ⟨pages, hpages, -, -, hnodup, -⟩ := traversal_exact .codepoint .batch
    { tenant := tenantOf ["t"] } sampleReads hids
  have hrun : (traverse .codepoint .batch { tenant := tenantOf ["t"] } "" sampleReads).toOption.map
      (fun pages => (foundIDs pages, pages.map (·.expectMore))) =
      some (["batch_a", "batch_b", "batch_c", "batch_d"], [true, true, false]) := by
    decide +kernel
  rw [hpages] at hrun
  obtain ⟨hfound, hmore⟩ := Prod.mk.inj (Option.some.inj hrun)
  exact ⟨pages, hpages, hfound, hmore, hnodup⟩

end BatchGateway
