import Mathlib.Data.List.Sort

/-! Keyset pagination. A reader asks for the rows after a key, page by page, and goes on after the
last key of each page, while the rows change between the pages. -/
namespace Keyset

variable {κ ρ : Type} [LinearOrder κ] (key : ρ → κ)

/-- The key is after the cursor. -/
def Beyond (cursor : Option κ) (k : κ) : Prop := ∀ a ∈ cursor, a < k

instance (cursor : Option κ) (k : κ) : Decidable (Beyond cursor k) :=
  inferInstanceAs (Decidable (∀ a ∈ cursor, a < k))

/-- The rows in the order of their keys. -/
def sorted (rows : List ρ) : List ρ := rows.insertionSort (key · ≤ key ·)

/-- The rows after the cursor. -/
def after (cursor : Option κ) (rows : List ρ) : List ρ :=
  sorted key (rows.filter fun r => Beyond cursor (key r))

structure Page (ρ : Type) where
  rows : List ρ
  more : Bool

/-- One row more than the limit is looked at, to know whether there is more. -/
def page (cursor : Option κ) (limit : Nat) (rows : List ρ) : Page ρ :=
  let found := (after key cursor rows).take (limit + 1)
  if limit < found.length then ⟨found.take limit, true⟩ else ⟨found, false⟩

/-- The cursor after a page: the key of its last row. -/
def next (cursor : Option κ) (p : Page ρ) : Option κ := (p.rows.getLast?.map key).or cursor

/-- What a reader sees that asks for pages of these limits, the rows being these each time. -/
def pages : Option κ → List (List ρ × Nat) → List (Page ρ)
  | _, [] => []
  | cursor, (rows, limit) :: rest =>
    let p := page key cursor limit rows
    p :: pages (next key cursor p) rest

/-- The cursor after these reads. -/
def resume : Option κ → List (List ρ × Nat) → Option κ
  | cursor, [] => cursor
  | cursor, (rows, limit) :: rest => resume (next key cursor (page key cursor limit rows)) rest

variable {key} {cursor : Option κ} {rows : List ρ} {limit : Nat}

theorem mem_after {r : ρ} : r ∈ after key cursor rows ↔ r ∈ rows ∧ Beyond cursor (key r) := by
  rw [after, sorted, List.mem_insertionSort, List.mem_filter, decide_eq_true_iff]

/-- Distinct keys come in strictly increasing order. -/
theorem sorted_lt (h : (rows.map key).Nodup) : (sorted key rows).Pairwise (key · < key ·) := by
  have htotal : Std.Total (α := ρ) (key · ≤ key ·) := ⟨fun a b => le_total (key a) (key b)⟩
  have htrans : IsTrans ρ (key · ≤ key ·) := ⟨fun _ _ _ => le_trans⟩
  have hle := List.pairwise_insertionSort (fun a b : ρ => key a ≤ key b) rows
  have hnodup : (sorted key rows).Pairwise (key · ≠ key ·) := by
    rw [← List.pairwise_map (f := key) (R := (· ≠ ·))]
    exact ((List.perm_insertionSort _ _).map _).nodup_iff.2 h
  exact (hle.and hnodup).imp fun h => lt_of_le_of_ne h.1 h.2

/-- The order of the rows depends on which rows there are only. -/
theorem sorted_congr {rows' : List ρ} (h : (rows.map key).Nodup) (h' : (rows'.map key).Nodup)
    (hmem : ∀ r, r ∈ rows ↔ r ∈ rows') : sorted key rows = sorted key rows' := by
  have hperm : rows.Perm rows' := (List.perm_ext_iff_of_nodup h.of_map h'.of_map).2 hmem
  have hsorted : (sorted key rows).Perm (sorted key rows') :=
    (List.perm_insertionSort _ _).trans (hperm.trans (List.perm_insertionSort _ _).symm)
  exact hsorted.eq_of_pairwise (fun _ _ _ _ hlt hgt => absurd hlt (lt_asymm hgt)) (sorted_lt h)
    (sorted_lt h')

theorem after_sorted (h : (rows.map key).Nodup) :
    (after key cursor rows).Pairwise (key · < key ·) :=
  sorted_lt (h.sublist (List.filter_sublist.map _))

theorem page_rows : (page key cursor limit rows).rows = (after key cursor rows).take limit := by
  unfold page
  dsimp only
  split
  · rw [List.take_take, Nat.min_eq_left (Nat.le_succ limit)]
  next h =>
    rw [List.length_take] at h
    have hlen : (after key cursor rows).length ≤ limit := by omega
    rw [List.take_of_length_le hlen, List.take_of_length_le (Nat.le_succ_of_le hlen)]

theorem page_more : (page key cursor limit rows).more = true ↔
    limit < (after key cursor rows).length := by
  unfold page
  dsimp only
  split
  next h =>
    rw [List.length_take] at h
    exact ⟨fun _ => by omega, fun _ => rfl⟩
  next h =>
    rw [List.length_take] at h
    refine ⟨nofun, fun hlt => absurd hlt ?_⟩
    omega

theorem page_rows_of_not_more (h : (page key cursor limit rows).more = false) :
    (page key cursor limit rows).rows = after key cursor rows := by
  have hlen : ¬ limit < (after key cursor rows).length := by
    rw [← page_more, h]
    exact Bool.false_ne_true
  rw [page_rows]
  exact List.take_of_length_le (Nat.le_of_not_lt hlen)

theorem page_sorted (h : (rows.map key).Nodup) :
    (page key cursor limit rows).rows.Pairwise (key · < key ·) := by
  rw [page_rows]
  exact (after_sorted h).sublist (List.take_sublist _ _)

theorem mem_page {r : ρ} (h : r ∈ (page key cursor limit rows).rows) :
    r ∈ rows ∧ Beyond cursor (key r) := by
  rw [page_rows] at h
  exact mem_after.1 (List.mem_of_mem_take h)

/-- There is more exactly when a row stands beyond the page. -/
theorem page_more_iff (h : (rows.map key).Nodup) : (page key cursor limit rows).more = true ↔
    ∃ r ∈ rows, Beyond cursor (key r) ∧
      ∀ x ∈ (page key cursor limit rows).rows, key x < key r := by
  constructor
  · intro hmore
    have hlt := page_more.1 hmore
    have hsplit : (after key cursor rows).Pairwise (key · < key ·) := after_sorted h
    rw [← List.take_append_drop limit (after key cursor rows), List.pairwise_append] at hsplit
    have hmem : (after key cursor rows)[limit] ∈ (after key cursor rows).drop limit := by
      rw [List.drop_eq_getElem_cons hlt]
      exact List.mem_cons_self
    obtain ⟨hrow, hbeyond⟩ := mem_after.1 (List.mem_of_mem_drop hmem)
    refine ⟨_, hrow, hbeyond, fun x hx => ?_⟩
    rw [page_rows] at hx
    exact hsplit.2.2 x hx _ hmem
  · rintro ⟨r, hr, hbeyond, hall⟩
    by_contra hmore
    have hrows := page_rows_of_not_more (Bool.eq_false_iff.2 hmore)
    have hmem : r ∈ (page key cursor limit rows).rows := by
      rw [hrows]
      exact mem_after.2 ⟨hr, hbeyond⟩
    exact lt_irrefl _ (hall r hmem)

/-- No row of a page is beyond the cursor after it. -/
theorem not_beyond_next (h : (rows.map key).Nodup) {r : ρ}
    (hr : r ∈ (page key cursor limit rows).rows) :
    ∃ b, next key cursor (page key cursor limit rows) = some b ∧ key r ≤ b := by
  have hne : (page key cursor limit rows).rows ≠ [] := List.ne_nil_of_mem hr
  refine ⟨key ((page key cursor limit rows).rows.getLast hne), ?_, ?_⟩
  · rw [next, List.getLast?_eq_getLast_of_ne_nil hne]
    rfl
  · have hsorted : (page key cursor limit rows).rows.Pairwise (key · < key ·) := page_sorted h
    rw [← List.dropLast_append_getLast hne, List.pairwise_append] at hsorted
    rw [← List.dropLast_append_getLast hne] at hr
    rcases List.mem_append.1 hr with hr | hr
    · exact (hsorted.2.2 r hr _ (List.mem_singleton_self _)).le
    · rw [List.mem_singleton.1 hr]

/-- A row after the cursor is on the page, or beyond the cursor after it. -/
theorem mem_page_or_beyond (h : (rows.map key).Nodup) {r : ρ} (hr : r ∈ rows)
    (hbeyond : Beyond cursor (key r)) :
    r ∈ (page key cursor limit rows).rows ∨
      Beyond (next key cursor (page key cursor limit rows)) (key r) := by
  have hmem : r ∈ after key cursor rows := mem_after.2 ⟨hr, hbeyond⟩
  have hsorted : (after key cursor rows).Pairwise (key · < key ·) := after_sorted h
  rw [← List.take_append_drop limit (after key cursor rows)] at hmem hsorted
  rw [List.pairwise_append] at hsorted
  rw [page_rows]
  rcases List.mem_append.1 hmem with htake | hdrop
  · exact .inl htake
  · refine .inr fun b hb => ?_
    rw [next, page_rows] at hb
    cases hlast : ((after key cursor rows).take limit).getLast? with
    | none =>
      rw [hlast] at hb
      exact hbeyond b hb
    | some x =>
      rw [hlast] at hb
      cases hb
      exact hsorted.2.2 x (List.mem_of_getLast? hlast) r hdrop

/-- The next cursor is passed by what is beyond the old cursor and the page. -/
theorem beyond_next_iff (h : (rows.map key).Nodup) {k : κ} :
    Beyond (next key cursor (page key cursor limit rows)) k ↔
      Beyond cursor k ∧ ∀ r ∈ (page key cursor limit rows).rows, key r < k := by
  constructor
  · intro hnext
    have hrows : ∀ r ∈ (page key cursor limit rows).rows, key r < k := by
      intro r hr
      obtain ⟨b, hb, hle⟩ := not_beyond_next h hr
      exact hle.trans_lt (hnext b hb)
    refine ⟨fun a ha => ?_, hrows⟩
    by_cases hempty : (page key cursor limit rows).rows = []
    · apply hnext a
      rw [next, hempty]
      exact ha
    · obtain ⟨x, hx⟩ := List.exists_mem_of_ne_nil _ hempty
      exact ((mem_page hx).2 a ha).trans (hrows x hx)
  · rintro ⟨hcursor, hrows⟩ b hb
    rw [next] at hb
    cases hlast : (page key cursor limit rows).rows.getLast? with
    | none =>
      rw [hlast] at hb
      exact hcursor b hb
    | some x =>
      rw [hlast] at hb
      cases hb
      exact hrows x (List.mem_of_getLast? hlast)

/-! ### Traversals -/

variable {reads : List (List ρ × Nat)}

/-- The rows have distinct keys at every read. -/
def Distinct (key : ρ → κ) (reads : List (List ρ × Nat)) : Prop :=
  ∀ read ∈ reads, (read.1.map key).Nodup

theorem beyond_pages (h : Distinct key reads) {p : Page ρ} (hp : p ∈ pages key cursor reads) {r : ρ}
    (hr : r ∈ p.rows) : Beyond cursor (key r) := by
  induction reads generalizing cursor with
  | nil => cases hp
  | cons read reads ih =>
    obtain ⟨hread, hreads⟩ := List.forall_mem_cons.1 h
    rcases List.mem_cons.1 hp with rfl | hp
    · exact (mem_page hr).2
    · exact ((beyond_next_iff hread).1 (ih hreads hp)).1

/-- The keys of a traversal increase strictly. -/
theorem pages_sorted (h : Distinct key reads) :
    ((pages key cursor reads).flatMap Page.rows).Pairwise (key · < key ·) := by
  induction reads generalizing cursor with
  | nil => exact .nil
  | cons read reads ih =>
    obtain ⟨hread, hreads⟩ := List.forall_mem_cons.1 h
    rw [pages, List.flatMap_cons, List.pairwise_append]
    refine ⟨page_sorted hread, ih hreads, fun r hr s hs => ?_⟩
    obtain ⟨p, hp, hsp⟩ := List.mem_flatMap.1 hs
    exact ((beyond_next_iff hread).1 (beyond_pages hreads hp hsp)).2 r hr

theorem pages_append (first second : List (List ρ × Nat)) : pages key cursor (first ++ second) =
    pages key cursor first ++ pages key (resume key cursor first) second := by
  induction first generalizing cursor with
  | nil => rfl
  | cons read first ih =>
    rw [List.cons_append, pages, ih, pages, resume, List.cons_append]

theorem take_pages (n : Nat) :
    (pages key cursor reads).take n = pages key cursor (reads.take n) := by
  induction reads generalizing cursor n with
  | nil => rw [pages, List.take_nil, List.take_nil, pages]
  | cons read reads ih =>
    cases n with
    | zero => rfl
    | succ n => rw [pages, List.take_succ_cons, List.take_succ_cons, ih, pages]

/-- The page of one read. -/
theorem getElem?_pages {i : Nat} {read : List ρ × Nat} (h : reads[i]? = some read) :
    (pages key cursor reads)[i]? =
      some (page key (resume key cursor (reads.take i)) read.2 read.1) := by
  induction reads generalizing cursor i with
  | nil => cases h
  | cons first reads ih =>
    cases i with
    | zero =>
      cases h
      rfl
    | succ i =>
      rw [pages, List.getElem?_cons_succ]
      exact ih h

theorem length_pages : (pages key cursor reads).length = reads.length := by
  induction reads generalizing cursor with
  | nil => rfl
  | cons read reads ih => rw [pages, List.length_cons, List.length_cons, ih]

theorem beyond_resume_iff (h : Distinct key reads) {k : κ} : Beyond (resume key cursor reads) k ↔
    Beyond cursor k ∧ ∀ r ∈ (pages key cursor reads).flatMap Page.rows, key r < k := by
  induction reads generalizing cursor with
  | nil => exact ⟨fun hk => ⟨hk, List.forall_mem_nil _⟩, And.left⟩
  | cons read reads ih =>
    obtain ⟨hread, hreads⟩ := List.forall_mem_cons.1 h
    rw [resume, ih hreads, beyond_next_iff hread, pages, List.flatMap_cons, List.forall_mem_append,
      and_assoc]

/-- A page tells that there is more exactly when some row of its read is beyond all that the
traversal has found so far. -/
theorem pages_more_iff (h : Distinct key reads) {i : Nat} {read : List ρ × Nat}
    (hi : reads[i]? = some read) :
    (page key (resume key cursor (reads.take i)) read.2 read.1).more = true ↔ ∃ r ∈ read.1,
      Beyond cursor (key r) ∧
      ∀ x ∈ ((pages key cursor reads).take (i + 1)).flatMap Page.rows, key x < key r := by
  have hfirst : Distinct key (reads.take i) := fun x hx => h x (List.mem_of_mem_take hx)
  have hread : (read.1.map key).Nodup := h read (List.mem_of_getElem? hi)
  have htake : reads.take (i + 1) = reads.take i ++ [read] := by
    rw [List.take_add_one, hi]
    rfl
  rw [page_more_iff hread, take_pages, htake, pages_append, List.flatMap_append]
  refine exists_congr fun r => and_congr_right fun _ => ?_
  rw [beyond_resume_iff hfirst, List.forall_mem_append, and_assoc, pages, pages,
    List.flatMap_singleton]

/-- A complete traversal finds every key that was there at each read. -/
theorem pages_cover (h : Distinct key reads) (hdone : (pages key cursor reads).getLast?.any
    (fun p => !p.more) = true) {k : κ} (hbeyond : Beyond cursor k)
    (hk : ∀ read ∈ reads, ∃ r ∈ read.1, key r = k) :
    ∃ p ∈ pages key cursor reads, ∃ r ∈ p.rows, key r = k := by
  induction reads generalizing cursor with
  | nil => cases hdone
  | cons read reads ih =>
    obtain ⟨hread, hreads⟩ := List.forall_mem_cons.1 h
    obtain ⟨⟨r, hr, rfl⟩, hrest⟩ := List.forall_mem_cons.1 hk
    rw [pages] at hdone ⊢
    have hcases : r ∈ (page key cursor read.2 read.1).rows ∨
        Beyond (next key cursor (page key cursor read.2 read.1)) (key r) :=
      mem_page_or_beyond hread hr hbeyond
    rcases hcases with hmem | hnext
    · exact ⟨_, List.mem_cons_self, r, hmem, rfl⟩
    · cases reads with
      | nil =>
        -- the only page is complete, so that nothing is beyond it
        have hmore : (page key cursor read.2 read.1).more = false := by simpa [pages] using hdone
        refine ⟨_, List.mem_cons_self, r, ?_, rfl⟩
        rw [page_rows_of_not_more hmore]
        exact mem_after.2 ⟨hr, hbeyond⟩
      | cons read' reads =>
        have hdone' : (pages key (next key cursor (page key cursor read.2 read.1))
            (read' :: reads)).getLast?.any (fun p => !p.more) = true := by
          simpa [pages] using hdone
        obtain ⟨p, hp, hfound⟩ := ih hreads hdone' hnext hrest
        exact ⟨p, List.mem_cons_of_mem _ hp, hfound⟩

end Keyset
