import BatchGateway.Database.Stmt

/-! Runs of statements on one batch, the grants they hand out, and fencing by the epoch. -/
namespace BatchGateway

namespace Stmt

variable {s : Stmt} {b b' : BatchState} {now : Time} {e : Int}

/-- The ownership grant that a statement issues. -/
def grant (now : Time) (s : Stmt) (b : BatchState) : Option (String × Int) :=
  match s, s.exec now b with
  | pqDequeue p _, .ok (some b') => some (p, b'.row.epoch)
  | pqClaimOwned p, .ok (some b') => some (p, b'.row.epoch)
  | _, _ => none

/-- No statement lowers the epoch, and one that changes the owner raises it. -/
theorem epoch_exec (h : s.exec now b = .ok (some b')) :
    b.row.epoch ≤ b'.row.epoch ∧
      (b'.row.processorID ≠ b.row.processorID → b.row.epoch < b'.row.epoch) := by
  cases s with
  | activate a =>
    obtain ⟨-, hrow, -⟩ := activateStmt_some h
    simp [hrow, activatedRow]
  | dbUpdate item expected =>
    obtain ⟨-, rfl⟩ := of_matched h
    grind
  | _ =>
    obtain ⟨-, rfl⟩ := of_matched h
    grind

/-- A statement that compares the epoch it carries matches only a row at that epoch. -/
theorem epoch_of_exec (h : s.exec now b = .ok (some b'))
    (hs : ∀ x expected, s = dbUpdate x expected → 0 < x.epoch) (hc : s.carries = some e)
    (hr : ∀ id p, s ≠ recordSubmitter id p e) : b.row.epoch = e := by
  cases s with
  | activate a =>
    obtain ⟨⟨-, -, he, -⟩, -, -⟩ := activateStmt_some h
    cases hc
    exact he
  | recordSubmitter id p e' =>
    cases hc
    exact absurd rfl (hr id p)
  | _ =>
    simp only [carries, Option.some.injEq, reduceCtorEq] at hc
    all_goals
      obtain ⟨hg, -⟩ := of_matched h
      grind [OwnerLock]

/-- Every in-flight entry names its submitter. -/
def SubmitterKnown (b : BatchState) : Prop := ∀ r ∈ b.entries.rows, ¬ r.NeedsSubmitter

theorem submitterKnown_exec (h : s.exec now b = .ok (some b')) (hs : s.Issued)
    (hb : SubmitterKnown b) : SubmitterKnown b' := by
  intro r' hr'
  rcases rows_exec h with ⟨a, rfl, -, hrows⟩ | ⟨f, hrows, hev⟩
  · rw [hrows, List.mem_map] at hr'
    obtain ⟨x, hx, rfl⟩ := hr'
    exact fun hn => Issued.not_inFlight hs hx hn.1
  · rw [hrows, List.mem_map] at hr'
    obtain ⟨r, hr, rfl⟩ := hr'
    have hr := hb r hr
    have hstep := hev r
    generalize f r = r' at hstep ⊢
    cases hstep with
    | same => exact hr
    | mark => simp [EntryRow.NeedsSubmitter, EntryRow.mark]
    | commit =>
      rintro ⟨hin, -⟩
      simp only [EntryRow.commit] at hin
      simp [Issued, hin, EntryStatus.isTerminal] at hs
    | submitter => simp [EntryRow.NeedsSubmitter]

theorem submitterKnown_apply (hs : s.Issued) (hb : SubmitterKnown b) :
    SubmitterKnown (s.apply now b) := by
  rcases apply_cases with h | h
  · rw [h]
    exact hb
  · exact submitterKnown_exec h hs hb

theorem epoch_apply : b.row.epoch ≤ (s.apply now b).row.epoch ∧
    ((s.apply now b).row.processorID ≠ b.row.processorID →
      b.row.epoch < (s.apply now b).row.epoch) := by
  rcases apply_cases with h | h
  · rw [h]
    exact ⟨Int.le_refl _, fun hne => absurd rfl hne⟩
  · exact epoch_exec h

/-- A statement with an outdated epoch changes nothing. The submitter record compares no epoch; it
is harmless because no entry is left for it. -/
theorem apply_stale (hs : s.Issued) (hb : SubmitterKnown b) (hc : s.carries = some e)
    (he : e < b.row.epoch) : s.apply now b = b := by
  rcases apply_cases with h | h
  · exact h
  · by_cases hr : ∃ id p, s = recordSubmitter id p e
    · obtain ⟨id, p, rfl⟩ := hr
      obtain ⟨⟨-, x, hx, hn⟩, -⟩ := of_matched h
      exact absurd hn (hb x hx)
    · have := epoch_of_exec h (fun x ex hx => by rw [hx] at hs; exact hs) hc
        fun id p hsp => hr ⟨id, p, hsp⟩
      omega

theorem grant_some {g : String × Int} (h : s.grant now b = some g) :
    ∃ b', s.exec now b = .ok (some b') ∧ b'.row.processorID = some g.1 ∧
      b'.row.epoch = g.2 ∧ b.row.epoch < g.2 := by
  unfold grant at h
  split at h
  · next p lease b' hx =>
    cases h
    refine ⟨b', hx, ?_⟩
    obtain ⟨-, rfl⟩ := of_matched hx
    exact ⟨rfl, rfl, Int.lt_succ _⟩
  · next p b' hx =>
    cases h
    refine ⟨b', hx, ?_⟩
    obtain ⟨⟨hp, -⟩, rfl⟩ := of_matched hx
    exact ⟨hp, rfl, Int.lt_succ _⟩
  · cases h

end Stmt

/-- Execute a list of statements, each at its own database time. -/
def runStmts (b : BatchState) (l : List (Time × Stmt)) : BatchState :=
  l.foldl (fun b x => x.2.apply x.1 b) b

/-- The grants that the dequeues and startup claims of a run hand out, in order. -/
def grants : BatchState → List (Time × Stmt) → List (String × Int)
  | _, [] => []
  | b, x :: l => (x.2.grant x.1 b).toList ++ grants (x.2.apply x.1 b) l

variable {b : BatchState} {l : List (Time × Stmt)}

theorem submitterKnown_run (hl : ∀ x ∈ l, x.2.Issued) (hb : Stmt.SubmitterKnown b) :
    Stmt.SubmitterKnown (runStmts b l) := by
  induction l generalizing b with
  | nil => exact hb
  | cons x l ih =>
    obtain ⟨hx, hl⟩ := List.forall_mem_cons.1 hl
    exact ih hl (Stmt.submitterKnown_apply hx hb)

theorem epoch_lt_grants {g : String × Int} (hg : g ∈ grants b l) : b.row.epoch < g.2 := by
  induction l generalizing b with
  | nil => cases hg
  | cons x l ih =>
    rcases List.mem_append.1 hg with hg | hg
    · obtain ⟨_, _, _, _, hlt⟩ := Stmt.grant_some (Option.mem_toList.1 hg)
      exact hlt
    · exact Int.lt_of_le_of_lt Stmt.epoch_apply.1 (ih hg)

/-- Each grant is issued at a larger epoch than the ones before it. -/
theorem grants_nodup (b : BatchState) (l : List (Time × Stmt)) : (grants b l).Nodup := by
  induction l generalizing b with
  | nil => exact List.nodup_nil
  | cons x l ih =>
    simp only [grants]
    cases hg : x.2.grant x.1 b with
    | none => simpa using ih _
    | some g =>
      simp only [Option.toList_some, List.cons_append, List.nil_append, List.nodup_cons]
      refine ⟨fun hmem => ?_, ih _⟩
      have hlt := epoch_lt_grants hmem
      obtain ⟨b', hx, -, heq, -⟩ := Stmt.grant_some hg
      rw [Stmt.apply_of_exec hx, heq] at hlt
      exact absurd hlt (Int.lt_irrefl _)

/-- Fencing: in every run from a row without entries, such as a freshly stored one, in which no entry
is inserted as submitted, whatever statement comes next never lowers the epoch and raises it with
every change of owner, no grant is issued twice, and a statement that carries the epoch of an
outlived grant changes neither the row nor its entries. -/
theorem fencing (row : BatchRow) (l : List (Time × Stmt))
    (hl : ∀ x ∈ l, x.2.Issued) (now : Time) (s : Stmt) (hs : s.Issued) :
    let b := runStmts ⟨row, .empty⟩ l
    (b.row.epoch ≤ (s.apply now b).row.epoch ∧
      ((s.apply now b).row.processorID ≠ b.row.processorID →
        b.row.epoch < (s.apply now b).row.epoch)) ∧
    (grants ⟨row, .empty⟩ (l ++ [(now, s)])).Nodup ∧
    ∀ p e, (p, e) ∈ grants ⟨row, .empty⟩ l → s.carries = some e → e < b.row.epoch →
      s.apply now b = b := by
  have hknown : Stmt.SubmitterKnown (runStmts ⟨row, .empty⟩ l) :=
    submitterKnown_run hl (by simp [Stmt.SubmitterKnown])
  exact ⟨Stmt.epoch_apply, grants_nodup _ _,
    fun p e _ hc he => Stmt.apply_stale hs hknown hc he⟩

/-- A batch that `p` dequeues, the reconciler re-enqueues and `q` dequeues. -/
def takeover : List (Time × Stmt) :=
  [(0, .pqDequeue "p" 0),
   (1, .pqEnqueue ⟨"batch_1", 0, 1, "p", some .validating, 0, false⟩),
   (2, .pqDequeue "q" 0)]

theorem fencing_takeover :
    let b := runStmts ⟨{ id := "batch_1", status := { status := .validating } }, .empty⟩ takeover
    let s := Stmt.dbUpdate { id := "batch_1", epoch := 1, status := some { status := .failed } } none
    b.row.processorID = some "q" ∧ b.row.epoch = 3 ∧ s.apply 3 b = b :=
  ⟨by decide, by decide, (fencing _ takeover (by decide) 3 _ (by decide)).2.2 "p" 1
    (by decide) rfl (by decide)⟩

/-- An activation that inserts its entry as submitted, and the requeue of the batch. -/
def submittedEntry : List (Time × Stmt) :=
  [(0, .pqDequeue "p" 0),
   (1, .activate { batchID := "batch_1", processorID := "p", epoch := 1, leaseTTL := 60000000000
                   entries := [{ requestID := "r", ordinal := 0, customID := "c"
                                 status := EntryStatus.inFlight.text }] }),
   (2, .requeue "batch_1" "p" 1 false false)]

/-- The second statement of the requeue carries the epoch that the first one ended, and writes the
entry. -/
theorem submittedEntry_written :
    let b₀ : BatchState := ⟨{ id := "batch_1", status := { status := .validating } }, .empty⟩
    let b := runStmts b₀ submittedEntry
    let s := Stmt.recordSubmitter "batch_1" "p" 1
    ("p", 1) ∈ grants b₀ submittedEntry ∧ s.carries = some 1 ∧ b.row.epoch = 2 ∧ s.apply 3 b ≠ b := by
  decide +kernel

end BatchGateway
