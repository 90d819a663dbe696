import BatchGateway.Lib.Keyset
import BatchGateway.Lib.Sequential
import BatchGateway.Worker.Recovery

/-! Listings of the entries page by page, for a process that runs alone. -/
namespace BatchGateway

open Interleaving Prog

/-- The world may answer the call like this. -/
def World.Answers (c : Call) (w w' : World) (r : c.Resp) : Prop :=
  ∃ env, w.perform env c = some (w', r)

/-- The task runs alone and returns. -/
abbrev World.Executes {α : Type} (w : World) (m : Task α) (w' : World) (a : α) : Prop :=
  Prog.Runs World.Answers w m w' a

namespace World

variable {w w' : World} {id : String} {after : Int}

theorem read_ok {α : Type} {env : Env} {a b : α} (h : read env a = .ok b) : b = a := by
  unfold read at h
  split at h
  · cases h
    rfl
  · cases h

/-- The ordinals of the entries are distinct and not negative. -/
structure Numbered (w : World) : Prop where
  distinct : (w.batch.entries.rows.map EntryRow.ordinal).Nodup
  nonneg : ∀ row ∈ w.batch.entries.rows, 0 ≤ row.ordinal

/-- All entries of a batch in ordinal order. -/
def listing (w : World) (id : String) : List EntryRow := w.entriesAfter id (-1)

theorem entriesAfter_perm (hid : w.batch.row.id = id) :
    (w.entriesAfter id after).Perm (w.batch.entries.rows.filter (after < ·.ordinal)) := by
  rw [entriesAfter, if_pos hid]
  exact List.perm_insertionSort ..

theorem listing_perm (hw : w.Numbered) (hid : w.batch.row.id = id) :
    (w.listing id).Perm w.batch.entries.rows := by
  have hall : w.batch.entries.rows.filter (-1 < ·.ordinal) = w.batch.entries.rows := by
    apply List.filter_eq_self.2
    intro row hrow
    have hpos := hw.nonneg row hrow
    exact decide_eq_true (by omega)
  have hperm : (w.listing id).Perm (w.batch.entries.rows.filter (-1 < ·.ordinal)) :=
    entriesAfter_perm hid
  rwa [hall] at hperm

theorem entriesAfter_sorted (hw : w.Numbered) :
    (w.entriesAfter id after).Pairwise (·.ordinal < ·.ordinal) := by
  unfold entriesAfter
  split
  · exact Keyset.sorted_lt (hw.distinct.sublist (List.filter_sublist.map _))
  · exact .nil

/-- The next listing is the rest of this one. -/
theorem entriesAfter_filter (hw : w.Numbered) {after' : Int} (h : after ≤ after') :
    w.entriesAfter id after' = (w.entriesAfter id after).filter (after' < ·.ordinal) := by
  by_cases hid : w.batch.row.id = id
  · have hrows : w.batch.entries.rows.filter (after' < ·.ordinal) =
        (w.batch.entries.rows.filter (after < ·.ordinal)).filter (after' < ·.ordinal) := by
      rw [List.filter_filter]
      apply List.filter_congr
      intro row _
      by_cases hrow : after' < row.ordinal
      · have : after < row.ordinal := by omega
        simp [hrow, this]
      · simp [hrow]
    have hperm : (w.entriesAfter id after').Perm
        ((w.entriesAfter id after).filter (after' < ·.ordinal)) := by
      apply (entriesAfter_perm hid).trans
      rw [hrows]
      exact ((entriesAfter_perm hid).filter _).symm
    have hsorted : ((w.entriesAfter id after).filter (after' < ·.ordinal)).Pairwise
        (·.ordinal < ·.ordinal) := (entriesAfter_sorted hw).filter _
    apply hperm.eq_of_pairwise (fun a b _ _ h₁ h₂ => ?_) (entriesAfter_sorted hw) hsorted
    omega
  · rw [entriesAfter, if_neg hid, entriesAfter, if_neg hid]
    rfl

end World

/-- Beyond the last one of the first entries stand the others. -/
theorem filter_beyond_take {l : List EntryRow} (hl : l.Pairwise (·.ordinal < ·.ordinal)) {n : Nat}
    {last : EntryRow} (hlast : (l.take n).getLast? = some last) :
    l.filter (last.ordinal < ·.ordinal) = l.drop n := by
  have hsplit := List.take_append_drop n l
  rw [← hsplit, List.pairwise_append] at hl
  obtain ⟨hfirst, -, hcross⟩ := hl
  have hmem : last ∈ l.take n := List.mem_of_getLast? hlast
  have htake : (l.take n).filter (last.ordinal < ·.ordinal) = [] := by
    apply List.filter_eq_nil_iff.2
    intro row hrow hlt
    have hlt : last.ordinal < row.ordinal := of_decide_eq_true hlt
    obtain ⟨front, hfront⟩ := List.getLast?_eq_some_iff.1 hlast
    rw [hfront, List.pairwise_append] at hfirst
    rw [hfront] at hrow
    rcases List.mem_append.1 hrow with hrow | hrow
    · have := hfirst.2.2 row hrow last (List.mem_singleton_self _)
      omega
    · rw [List.mem_singleton.1 hrow] at hlt
      omega
  have hdrop : (l.drop n).filter (last.ordinal < ·.ordinal) = l.drop n := by
    apply List.filter_eq_self.2
    intro row hrow
    exact decide_eq_true (hcross last hmem row hrow)
  nth_rewrite 1 [← hsplit]
  rw [List.filter_append, htake, hdrop, List.nil_append]

/-- A full page is followed by the rest of the listing. -/
theorem World.entriesAfter_next {w : World} {id : String} {after : Int} {n : Nat} (hw : w.Numbered)
    (hn : 0 < n) (hfull : ¬ ((w.entriesAfter id after).take n).length < n) :
    w.entriesAfter id
        ((((w.entriesAfter id after).take n).getLast?.map EntryRow.ordinal).getD after) =
      (w.entriesAfter id after).drop n := by
  cases hlast : ((w.entriesAfter id after).take n).getLast? with
  | none =>
    rw [List.getLast?_eq_none_iff.1 hlast] at hfull
    exact absurd hn hfull
  | some last =>
    have hmem : last ∈ w.entriesAfter id after := List.mem_of_mem_take (List.mem_of_getLast? hlast)
    have hafter : after ≤ last.ordinal := by
      unfold entriesAfter at hmem
      split at hmem
      · have hrow := List.mem_filter.1 ((List.perm_insertionSort _ _).mem_iff.1 hmem)
        exact Int.le_of_lt (of_decide_eq_true hrow.2)
      · cases hmem
    rw [Option.map_some, Option.getD_some, World.entriesAfter_filter hw hafter]
    exact filter_beyond_take (World.entriesAfter_sorted hw) hlast

/-- A listing that succeeds returns all entries after the ordinal. -/
theorem listResumableEntries_runs {w w' : World} {id : String} {pages : Nat} {after : Int}
    {r : Except Err (List EntryRow)} (hw : w.Numbered)
    (h : w.Executes (listResumableEntries id pages after) w' r) :
    w' = w ∧ ∀ es, r = .ok es → es = w.entriesAfter id after := by
  induction pages generalizing after r w' with
  | zero =>
    obtain ⟨rfl, rfl⟩ := runs_ret.1 h
    exact ⟨rfl, nofun⟩
  | succ pages ih =>
    rw [listResumableEntries] at h
    obtain ⟨u, page, ⟨env, hpage⟩, h⟩ := runs_lift_bind.1 h
    cases hpage
    generalize hread : World.read env ((w.entriesAfter id after).take resumableEntriesPageSize) =
      page at h
    cases page with
    | error e =>
      obtain ⟨rfl, rfl⟩ := runs_ret.1 h
      exact ⟨rfl, nofun⟩
    | ok page =>
      have hpage := World.read_ok hread
      dsimp only at h
      split at h
      next hshort =>
        obtain ⟨rfl, rfl⟩ := runs_ret.1 h
        refine ⟨rfl, ?_⟩
        rintro _ ⟨⟩
        rw [hpage, List.length_take] at hshort
        rw [hpage]
        exact List.take_of_length_le (by omega)
      next hfull =>
        obtain ⟨v, rest, hrest, h⟩ := runs_bind.1 h
        obtain ⟨rfl, hok⟩ := ih hrest
        cases rest with
        | error e =>
          obtain ⟨rfl, rfl⟩ := runs_ret.1 h
          exact ⟨rfl, nofun⟩
        | ok rest =>
          obtain ⟨rfl, rfl⟩ := runs_ret.1 h
          refine ⟨rfl, ?_⟩
          rintro _ ⟨⟩
          rw [hpage] at hfull
          rw [hok rest rfl, hpage, World.entriesAfter_next hw (by decide) hfull]
          exact List.take_append_drop ..

/-- The resume state is the one of all entries, which match the manifest. -/
theorem resumeState_runs {w w' : World} {id : String} {manifest : RequestManifest} {pages : Nat}
    {seed : ResumableResumeState} (hw : w.Numbered)
    (h : w.Executes (resumeState id manifest pages) w' (.ok seed)) :
    seed = .ofEntries (w.listing id) ∧
      List.Forall₂ EntryRow.Matches (w.listing id) manifest.entries := by
  obtain ⟨u, r, hlist, h⟩ := runs_bind.1 h
  obtain ⟨-, hok⟩ := listResumableEntries_runs hw hlist
  cases r with
  | error e => cases (runs_ret.1 h).2
  | ok entries =>
    obtain rfl := hok entries rfl
    dsimp only at h
    split at h
    · cases (runs_ret.1 h).2
    next hcheck =>
      cases (runs_ret.1 h).2
      exact ⟨rfl, checkManifestIntegrity_iff.1 hcheck⟩

end BatchGateway
