import BatchGateway.Lib.Monitor
import BatchGateway.Pipeline.Input
import BatchGateway.Pipeline.Outcome

/-! The counts of the progress tracker follow the entries of the store. They come from the resume
state, from the rejected lines and from the results that were committed. -/
namespace BatchGateway

open Interleaving GoJson

/-! ### Commits of a checkpoint -/

/-- What a checkpoint did to its entry, as far as the answers tell. -/
inductive CommitState where
  | undone | done | unsure
  deriving DecidableEq, Repr

/-- A checkpoint executes no further statement once one of them had an effect or failed. -/
def commitWatch : Monitor CommitState Call Call.Resp where
  allow s c := match c with
    | .exec _ => s = .undone
    | _ => True
  answer _ _ _ := True
  next s c a := match c, a with
    | .exec _, .ok true => .done
    | .exec _, .error _ => .unsure
    | _, _ => s

/-- What a checkpoint reports about its commit. -/
def CommitState.Told : Except Err Bool → CommitState → Prop
  | .ok true, s => s = .done
  | .ok false, s => s = .undone
  | .error _, s => s ≠ .done

section Commits

open Prog

variable {lib : Stdlib}

theorem obeys_entryNotUpdatable (op id q p : String) (e : Int) :
    (entryNotUpdatable op id q p e).Obeys commitWatch CommitState.Told .undone := by
  refine Obeys.lift_bind trivial fun a _ => ?_
  rcases a with err | _ | status
  · exact .ret nofun
  · exact .ret nofun
  · dsimp only
    split
    · exact .ret rfl
    · exact .ret nofun

theorem obeys_checkpointEntryResult (id q p : String) (e : Int) (result : ResumableResult) :
    (checkpointEntryResult id q p e result).Obeys commitWatch CommitState.Told .undone := by
  unfold checkpointEntryResult
  split
  · exact .ret nofun
  · refine Obeys.lift_bind rfl fun a _ => ?_
    rcases a with err | _ | _
    · exact .ret nofun
    · exact obeys_entryNotUpdatable _ _ _ _ _
    · exact .ret rfl

theorem obeys_storeObject (s : BatchResultStore) (q : String) (line : Bytes) (digest : String)
    (size : Int) : (s.storeObject lib q line digest size).Obeys commitWatch
      (fun _ st => st = .undone) .undone := by
  refine Obeys.lift_bind trivial fun a _ => ?_
  rcases a with err | _
  · dsimp only
    split
    · exact .ret rfl
    · refine Obeys.bind (P := fun _ st => st = .undone) ?_ fun b st hst => ?_
      · refine Obeys.lift_bind trivial fun a _ => ?_
        rcases a with err | data <;> exact .ret rfl
      · subst hst
        cases b with
        | true => exact .ret rfl
        | false =>
          refine Obeys.lift_bind trivial fun env _ => ?_
          refine Obeys.lift_bind trivial fun a _ => ?_
          rcases a with err | _ <;> exact .ret rfl
  · exact .ret rfl

theorem obeys_commitObject (s : BatchResultStore) (msg : ResultItem) (digest : String) (size : Int)
    (key : String) :
    (s.commitObject msg digest size key).Obeys commitWatch CommitState.Told .undone := by
  refine (obeys_checkpointEntryResult _ _ _ _ _).bind fun a st hst => ?_
  rcases a with err | _ | _
  · exact .ret hst
  · dsimp only
    split
    · exact Obeys.lift_bind trivial fun _ _ => .ret hst
    · exact .ret hst
  · exact .ret hst

/-- A checkpoint reports its commit. -/
theorem obeys_checkpointResult (s : BatchResultStore) (msg : ResultItem) :
    (s.checkpointResult lib msg).Obeys commitWatch CommitState.Told .undone := by
  refine Obeys.lift_bind trivial fun a _ => ?_
  rcases a with err | entry
  · exact .ret nofun
  · dsimp only
    split
    · exact .ret rfl
    · refine (obeys_storeObject _ _ _ _ _).bind fun a st hst => ?_
      subst hst
      rcases a with err | key
      · exact .ret nofun
      · exact obeys_commitObject _ _ _ _ _

end Commits

/-! ### Counts and entries -/

/-- The counter of a status. -/
def BatchRequestCounts.of (counts : BatchRequestCounts) : EntryStatus → Int
  | .completed => counts.completed
  | .failed => counts.failed
  | .pending | .inFlight => 0

/-- The status that a committed result gives its entry. -/
def Delivery.status (d : Delivery) : EntryStatus := if d.item.succeeded then .completed else .failed

/-- How closely counts follow the entries, given what others do to these. A lenient relation
survives a statement whose outcome is unknown. -/
structure Precision where
  others : Others
  rel : Int → Int → Prop
  lenient : Prop
  refl : ∀ n, rel n n
  add : ∀ {m n : Int} (k : Int), rel m n → rel (m + k) (n + k)
  rows : ∀ {rows rows' : List EntryRow} {s : EntryStatus}, List.Forall₂ others.row rows rows' →
    s.isTerminal = true → rel (rows.countP (·.status = s)) (rows'.countP (·.status = s))
  step : ∀ {w w' : World} {s : EntryStatus} {n : Int}, others.step w w' → s.isTerminal = true →
    rel n (w.count s) → rel n (w'.count s)
  keeps : ∀ {w w' : World}, w.Keeps w' → others.step w w'
  evolves : lenient → ∀ {w w' : World}, w.Evolves w' → others.step w w'
  zero : lenient → ∀ n : Nat, rel 0 n

/-- Whatever others do, no more is counted than there is. -/
def Precision.atMost : Precision where
  others := .working
  rel := (· ≤ ·)
  lenient := True
  refl := Int.le_refl
  add k h := Int.add_le_add_right h k
  rows h hs := Int.ofNat_le.2 (World.countP_evolves h hs)
  step h hs hn := Int.le_trans hn (Int.ofNat_le.2 (h.count hs))
  keeps h := h.evolves
  evolves _ _ _ h := h
  zero _ := Int.natCast_nonneg

/-- As long as nobody else commits, everything is counted. -/
def Precision.exact : Precision where
  others := .watching
  rel := (· = ·)
  lenient := False
  refl _ := rfl
  add k h := congrArg (· + k) h
  rows h hs := congrArg Nat.cast (World.countP_keeps h hs)
  step h hs hn := hn.trans (congrArg Nat.cast (World.countP_keeps h hs))
  keeps h := h
  evolves h := h.elim
  zero h := h.elim

namespace Precision

variable (p : Precision) {cfg : RunConfig} {counts : BatchRequestCounts} {owed : Option Delivery}
  {w w' : World}

/-- The counts fit the entries, with a result that is committed but not counted yet. -/
def Fits (counts : BatchRequestCounts) (owed : Option Delivery) (w : World) : Prop :=
  ∀ s : EntryStatus, s.isTerminal = true →
    p.rel (counts.of s + if owed.any (·.status = s) then 1 else 0) (w.count s)

variable {p}

theorem Fits.step (h : p.Fits counts owed w) (hw : p.others.step w w') : p.Fits counts owed w' :=
  fun s hs => p.step hw hs (h s hs)

theorem stable_fits {lib : Stdlib} {g : Duty} :
    (dutiful lib p.others).Stable g (p.Fits counts owed) :=
  fun _ _ _ _ hw h => h.step hw

/-- A result that was committed is owed. -/
theorem Fits.commit {env : Env} {id q pid : String} {e : Int} {result : ResumableResult}
    {d : Delivery} (h : p.Fits counts none w) (hd : result.status = d.status)
    (hp : w.execStmt env (.checkpoint id q pid e result) = (w', .ok true)) :
    p.Fits counts (some d) w' := by
  intro s hs
  have hcount := World.count_commit hp hs
  have hfit := p.add (if d.status = s then 1 else 0) (h s hs)
  rw [hcount, hd]
  by_cases hst : d.status = s
  · simpa [hst] using hfit
  · simpa [hst] using hfit

/-- Counting the owed result settles it. -/
theorem Fits.record {r : Run} {d : Delivery} (h : p.Fits r.counts (some d) w) :
    p.Fits (r.recorded d) none w := by
  intro s hs
  have hfit := h s hs
  unfold Delivery.status at hfit
  unfold Run.recorded
  by_cases hd : d.item.succeeded = true
  · cases s <;> simp_all [BatchRequestCounts.of, EntryStatus.isTerminal]
  · cases s <;> simp_all [BatchRequestCounts.of, EntryStatus.isTerminal]

end Precision

/-- The batch was not activated yet, or its entries are the lines of the manifest. -/
def World.Identified (w : World) (manifest : RequestManifest) : Prop :=
  w.batch.entries.rows = [] ∨ w.identities = manifest.identities

/-- Listed entries with the identities of the rows are these rows, in their order. -/
theorem Duty.Listed.rows {o : Others} {entries : List EntryRow} {manifest : RequestManifest}
    {w : World} (h : Listed o entries w) (hid : w.Identified manifest)
    (hm : List.Forall₂ EntryRow.Matches entries manifest.entries) :
    List.Forall₂ o.row entries w.batch.entries.rows := by
  rcases hid with hnil | hid
  · have hempty : entries = [] := by
      rw [List.eq_nil_iff_forall_not_mem]
      intro e he
      obtain ⟨-, row, hr, -⟩ := h e he
      rw [hnil] at hr
      cases hr
    rw [hnil, hempty]
    exact .nil
  · have hlen : w.batch.entries.rows.length = manifest.entries.length := by
      have := congrArg List.length hid
      simpa [World.identities, RequestManifest.identities] using this
    refine List.forall₂_iff_get.2 ⟨hm.length_eq.trans hlen.symm, fun i hi hi' => ?_⟩
    obtain ⟨-, row, hr, hrow⟩ := h _ (List.get_mem entries ⟨i, hi⟩)
    have hi'' : i < manifest.entries.length := hlen ▸ hi'
    have hrequest : (w.batch.entries.rows.get ⟨i, hi'⟩).requestID =
        (manifest.entries.get ⟨i, hi''⟩).requestID := by
      have := congrArg (fun l => (l.map Prod.fst)[i]?) hid
      simpa [World.identities, RequestManifest.identities, hi', hi''] using this
    have hmatch := (List.forall₂_iff_get.1 hm).2 i hi hi''
    have heq : row = w.batch.entries.rows.get ⟨i, hi'⟩ := by
      refine EntryTable.eq_of_requestID hr (List.get_mem _ _) ?_
      rw [(o.row_evolves hrow).requestID, hrequest, hmatch.1]
    rwa [← heq]

namespace Precision

variable {p : Precision} {cfg : RunConfig} {w : World} {n : Int}

/-- A resumed execution starts from counts that fit. -/
theorem fits_resumes {seed : ResumableResumeState} (hid : w.Identified cfg.manifest)
    (h : Duty.Resumes p.others cfg seed w) :
    p.Fits { total := n, completed := seed.completed, failed := seed.failed } none w := by
  obtain ⟨entries, rfl, hm, hl⟩ := h
  have hrows := hl.rows hid hm
  intro s hs
  have hrel : p.rel (entries.countP (·.status = s)) (w.count s) := p.rows hrows hs
  cases s with
  | completed =>
    rw [BatchRequestCounts.of, ResumableResumeState.ofEntries_completed]
    simpa using hrel
  | failed =>
    rw [BatchRequestCounts.of, ResumableResumeState.ofEntries_failed]
    simpa using hrel
  | pending | inFlight => cases hs

/-- A fresh execution starts with the rejected lines. -/
theorem fits_fresh (h : Duty.Fresh cfg w)
    (hr : cfg.rejectedCount = cfg.manifest.entries.countP ManifestEntry.rejected) :
    p.Fits { total := n, failed := cfg.rejectedCount } none w := by
  obtain ⟨now, hrows⟩ := h
  have hstatus : ∀ m : ManifestEntry, (activationRow now m.activationEntry).status =
      if m.rejected then .failed else .pending := fun m => m.activationEntry_status
  intro s hs
  have hcount : (w.count s : Int) = BatchRequestCounts.of
      { total := n, failed := cfg.rejectedCount } s := by
    unfold World.count
    rw [hrows, RequestManifest.activationEntries, List.map_map, List.countP_map]
    cases s with
    | completed =>
      refine congrArg Nat.cast (List.countP_eq_zero.2 fun m _ => ?_)
      simp only [Function.comp_apply, hstatus]
      split <;> simp
    | failed =>
      rw [BatchRequestCounts.of, hr]
      refine congrArg Nat.cast (List.countP_congr fun m _ => ?_)
      simp only [Function.comp_apply, hstatus]
      split <;> simp_all
    | pending | inFlight => cases hs
  rw [hcount]
  simpa using p.refl _

end Precision

/-! ### Steps of an execution -/

/-- The delivery whose commit is known and not counted. -/
def CommitState.owed (d : Delivery) : CommitState → Option Delivery
  | done => some d
  | undone | unsure => none

/-- The counts fit at every point of the checkpointer's loop. With an error, only a lenient relation
is left. -/
def DrainPC.Fits (p : Precision) (counts : BatchRequestCounts) (w : World) : DrainPC → Prop
  | .range none | .enrich _ none | .ack _ | .leave none => p.Fits counts none w
  | .checkpoint d t => ∃ s, t.Obeys commitWatch CommitState.Told s ∧
      ((s = .unsure → p.lenient) → p.Fits counts (s.owed d) w)
  | .resolve d true | .record d => p.Fits counts (some d) w
  | .resolve _ false => p.Fits counts none w
  | .idle | .range (some _) | .enrich _ (some _) | .fail _ | .leave (some _) | .done =>
    p.lenient → p.Fits counts none w

namespace DrainPC.Fits

variable {p : Precision} {counts : BatchRequestCounts} {w w' : World} {pc : DrainPC}

theorem enrich_iff {d : Delivery} {err : Option Err} :
    (DrainPC.enrich d err).Fits p counts w ↔ (DrainPC.range err).Fits p counts w := by
  cases err <;> rfl

theorem leave_iff {err : Option Err} :
    (DrainPC.leave err).Fits p counts w ↔ (DrainPC.range err).Fits p counts w := by
  cases err <;> rfl

theorem step (h : pc.Fits p counts w) (hw : p.others.step w w') : pc.Fits p counts w' := by
  unfold DrainPC.Fits at h ⊢
  split at h
  case h_5 =>
    obtain ⟨s, hobeys, hfit⟩ := h
    exact ⟨s, hobeys, fun hl => (hfit hl).step hw⟩
  case h_1 | h_2 | h_3 | h_4 | h_6 | h_7 | h_8 => exact h.step hw
  all_goals exact fun hl => (h hl).step hw

end DrainPC.Fits

/-- The counts of the execution fit the entries, and so will those that it starts from. -/
structure Run.Fits (p : Precision) (lib : Stdlib) (cfg : RunConfig) (w : World) (r : Run) :
    Prop where
  prepare : ∀ t, r.job = .prepare t → (dutiful lib p.others).Safe (.prepare cfg)
    (Duty.Answered p.others cfg
      (p.Fits { total := cfg.lineCount, failed := cfg.rejectedCount } none)) t w
  built : r.job = .build → p.Fits (r.seedCounts cfg) none w
  drain : r.drain.Fits p r.counts w

namespace Run.Fits

variable {S : Setup} {p : Precision} {lib : Stdlib} {cfg : RunConfig} {w w' : World} {r r' : Run}
  {env : Surroundings} {sink : BatchResultStore}

theorem initial : ({} : Run).Fits p lib cfg w := by
  refine ⟨nofun, nofun, fun hl s hs => ?_⟩
  have hzero := p.zero hl (w.count s)
  cases s with
  | completed | failed => simpa [BatchRequestCounts.of] using hzero
  | pending | inFlight => cases hs

theorem step (h : r.Fits p lib cfg w) (hw : p.others.step w w') : r.Fits p lib cfg w' :=
  ⟨fun t ht => (h.prepare t ht).rely hw, fun hb => (h.built hb).step hw, h.drain.step hw⟩

theorem of_eq (h : r.Fits p lib cfg w) (hjob : r'.job = r.job) (hseed : r'.seed = r.seed)
    (hcounts : r'.counts = r.counts) (hdrain : r'.drain = r.drain) : r'.Fits p lib cfg w := by
  refine ⟨?_, ?_, ?_⟩
  · rw [hjob]
    exact h.prepare
  · unfold Run.seedCounts
    rw [hjob, hseed]
    exact h.built
  · rw [hcounts, hdrain]
    exact h.drain

theorem cancel (h : r.Fits p lib cfg w) (cause : Cause) (ctx : Ctx) :
    (r.cancel cause ctx).Fits p lib cfg w := by
  cases ctx <;> exact { h with }

theorem leave (h : r.Fits p lib cfg w) (err : Option Err) : (r.leave err).Fits p lib cfg w := by
  cases err with
  | none => exact h
  | some e => exact { h.cancel .neutral .group with }

theorem stepDrain (h : r.Fits p S.lib cfg w) (hs : r.stepDrain S sink = some r') :
    r'.Fits p S.lib cfg w := by
  have hd := h.drain
  unfold Run.stepDrain at hs
  split at hs
  case h_1 err hpc =>
    rw [hpc] at hd
    split at hs
    · cases hs
      exact { h with drain := DrainPC.Fits.enrich_iff.2 hd }
    · split at hs <;> cases hs
      exact { h with drain := DrainPC.Fits.leave_iff.2 hd }
  case h_2 d err hpc =>
    rw [hpc] at hd
    split at hs <;> cases hs
    · exact { h with drain := ⟨.undone, obeys_checkpointResult sink _, fun _ => hd⟩ }
    · exact { h with drain := DrainPC.Fits.enrich_iff.1 hd }
  case h_3 d committed hpc =>
    rw [hpc] at hd
    cases hs
    refine { h with drain := ?_ }
    obtain ⟨s, hobeys, hfit⟩ := hd
    cases committed with
    | true =>
      obtain rfl : s = .done := hobeys
      exact hfit nofun
    | false =>
      obtain rfl : s = .undone := hobeys
      exact hfit nofun
  case h_4 d e hpc =>
    rw [hpc] at hd
    cases hs
    refine { h with drain := fun hl => ?_ }
    obtain ⟨s, hobeys, hfit⟩ := hd
    have hne : s ≠ .done := hobeys
    have := hfit fun _ => hl
    cases s with
    | done => exact absurd rfl hne
    | undone | unsure => exact this
  case h_6 d committed hpc =>
    rw [hpc] at hd
    cases hs
    refine { h with drain := ?_ }
    cases committed <;> exact hd
  case h_7 d hpc =>
    rw [hpc] at hd
    cases hs
    exact { h with drain := Precision.Fits.record hd }
  case h_8 hpc =>
    rw [hpc] at hd
    cases hs
    exact { h with drain := hd }
  case h_9 e hpc =>
    rw [hpc] at hd
    cases hs
    refine cancel ?_ _ _
    exact { h with drain := hd }
  case h_10 err hpc =>
    rw [hpc] at hd
    cases hs
    refine leave ?_ _
    refine { h with drain := ?_ }
    cases err with
    | none => exact fun _ => hd
    | some e => exact hd
  all_goals cases hs

theorem stepJob (hw : w.Counted) (hid : w.Identified cfg.manifest)
    (hrej : cfg.rejectedCount = cfg.manifest.entries.countP ManifestEntry.rejected)
    (hsink : sink.epoch = cfg.epoch) (h : r.Fits p S.lib cfg w)
    (hs : r.stepJob S cfg env (cfg.prepare S.lib sink) = some r') : r'.Fits p S.lib cfg w := by
  cases stepJob_cases hs with
  | start =>
    refine ⟨fun t ht => ?_, nofun, h.drain⟩
    cases ht
    exact Duty.triple_prepare_answered cfg Precision.stable_fits
      (fun w hf => Precision.fits_fresh hf hrej) hsink w hw trivial trivial
  | prepared seed hpc =>
    refine ⟨nofun, fun _ => ?_, h.drain⟩
    have hans := h.prepare _ hpc w hw trivial (p.others.refl w)
    cases seed with
    | none => exact hans
    | some seed => exact Precision.fits_resumes hid hans
  | launch pending hpc => exact ⟨nofun, nofun, h.built hpc⟩
  | _ => exact ⟨nofun, nofun, h.drain⟩

theorem stepRun {j : Fin S.jobs} {s s' : Shared (Fin S.jobs)} {g : Goroutine} (hw : w.Counted)
    (hid : w.Identified (S.config j).manifest) (hrej : (S.config j).rejectedCount =
      (S.config j).manifest.entries.countP ManifestEntry.rejected)
    (h : r.Fits p S.lib (S.config j) w) (hs : S.stepRun env j s r g = some (s', r')) :
    r'.Fits p S.lib (S.config j) w := by
  rcases main_or_frame hs with hs | hs | hs | hs | hf
  · exact h.stepJob hw hid hrej rfl hs
  · obtain ⟨hjob, hseed, hcounts, -, hdrain⟩ := stepSource_frame hs
    exact h.of_eq hjob hseed hcounts hdrain
  · obtain ⟨hjob, hseed, hcounts, -, -, hdrain⟩ := stepPre_frame hs
    exact h.of_eq hjob hseed hcounts hdrain
  · exact h.stepDrain hs
  · exact h.of_eq hf.job hf.seed hf.counts hf.drain

/-- A call of the checkpointer commits at most once, and tells so. -/
theorem checkpoint {env : Env} {d : Delivery} {c : Call} {t : c.Resp → Task (Except Err Bool)}
    {a : c.Resp} {counts : BatchRequestCounts}
    (h : (DrainPC.checkpoint d (.call c t)).Fits p counts w)
    (hc : (Duty.checkpoint sink d.item).Allows lib c)
    (hp : w.perform env c = some (w', a)) :
    (DrainPC.checkpoint d (t a)).Fits p counts w' := by
  obtain ⟨s, ⟨hallow, hk⟩, hfit⟩ := h
  refine ⟨commitWatch.next s c a, hk a trivial, ?_⟩
  cases c with
  | exec st =>
    obtain ⟨key, -, rfl⟩ := hc
    obtain rfl : s = .undone := hallow
    have hfit := hfit nofun
    have hp : w.execStmt env _ = (w', a) := Option.some.inj hp
    rcases a with err | _ | _
    · exact fun hl => hfit.step (p.evolves (hl rfl) (World.evolves_perform (c := .exec _)
        (congrArg some hp)))
    · obtain ⟨rfl, -⟩ := World.execStmt_unmatched hp
      exact fun _ => hfit
    · exact fun _ => hfit.commit rfl hp
  | _ =>
    intro hl
    exact (hfit hl).step (p.keeps (World.keeps_perform hp trivial))

/-- The calls of the execution itself. -/
theorem awaits {slot : Slot} {c : Call} {k : c.Resp → Run} {env : Env} {a : c.Resp}
    (hc : r.Control cfg) (hw : w.Counted) (h : r.Fits p lib cfg w)
    (hsound : r.Sound lib cfg sink w) (hk : r.awaits slot = some ⟨c, k⟩)
    (hp : w.perform env c = some (w', a)) : (k a).Fits p lib cfg w' := by
  have hev := World.evolves_perform hp
  obtain ⟨t, hpc⟩ | ⟨msg, t, hpc⟩ | ⟨d, t, hpc⟩ := awaits_cases hk
  · obtain ⟨-, -, hs⟩ := h.prepare _ hpc w hw trivial (p.others.refl w) env w' a trivial hp
    have hdrain := h.drain
    have hidle := (hc.dormant (by rw [hpc]; rfl)).drain
    rw [hidle] at hdrain
    refine ⟨fun t ht => ?_, nofun, ?_⟩
    · cases ht
      exact hs
    · dsimp only
      rw [hidle]
      exact fun hl => (hdrain hl).step (p.evolves hl hev)
  · obtain ⟨-, hg, -⟩ := hsound.mark _ _ hpc w hw trivial (.refl w) env w' a trivial hp
    have hspares : w.Spares c := by
      cases c with
      | exec st =>
        obtain rfl := hg.1
        trivial
      | _ => trivial
    exact { h.step (p.keeps (World.keeps_perform hp hspares)) with }
  · obtain ⟨-, hg, -⟩ := hsound.checkpoint _ _ hpc w hw trivial (.refl w) env w' a trivial hp
    have hdrain := h.drain
    rw [hpc] at hdrain
    -- The job waits for its goroutines.
    have hjob : ¬ r.job.dormant = true := by
      intro hd
      have := (hc.dormant hd).drain
      rw [hpc] at this
      cases this
    refine ⟨fun t ht => ?_, fun hb => ?_, checkpoint hdrain hg.1 hp⟩
    · exact absurd (by rw [show r.job = _ from ht]; rfl) hjob
    · exact absurd (by rw [show r.job = _ from hb]; rfl) hjob

/-- Whatever happens to the entries before the job starts is seen by it. -/
theorem others (h : r.Fits p lib cfg w) (hc : r.Control cfg) (hev : w.Evolves w')
    (hstep : r.job ≠ .idle → p.others.step w w') : r.Fits p lib cfg w' := by
  by_cases hidle : r.job = .idle
  · have hd := (hc.dormant (by rw [hidle]; rfl)).drain
    have hdrain := h.drain
    rw [hd] at hdrain
    refine ⟨fun t ht => ?_, fun hb => ?_, ?_⟩
    · rw [hidle] at ht
      cases ht
    · rw [hidle] at hb
      cases hb
    · rw [hd]
      exact fun hl => (hdrain hl).step (p.evolves hl hev)
  · exact h.step (hstep hidle)

end Run.Fits

/-- The goroutines were started. -/
def JobPC.executing : JobPC → Bool
  | .wait | .classify _ => true
  | _ => false

/-- The progress tracker is new as long as the execution is; then it knows the number of lines. -/
structure Run.Totalled (cfg : RunConfig) (r : Run) : Prop where
  new : r.source = .idle → r.drain = .idle ∧ r.counts = {} ∧ r.job.executing = false
  total : r.source ≠ .idle → r.counts.total = cfg.lineCount

namespace Run.Totalled

variable {S : Setup} {cfg : RunConfig} {r r' : Run} {env : Surroundings} {sink : BatchResultStore}

theorem of_eq (h : r.Totalled cfg) (hjob : r'.job = r.job) (hcounts : r'.counts = r.counts)
    (hdrain : r'.drain = r.drain) (hsource : r'.source = .idle ↔ r.source = .idle) :
    r'.Totalled cfg := by
  refine ⟨fun hs => ?_, fun hs => ?_⟩
  · rw [hjob, hcounts, hdrain]
    exact h.new (hsource.1 hs)
  · rw [hcounts]
    exact h.total (mt hsource.2 hs)

theorem stepSource (h : r.Totalled cfg) (hs : r.stepSource cfg = some r') : r'.Totalled cfg := by
  obtain ⟨hjob, -, hcounts, -, hdrain⟩ := stepSource_frame hs
  have hidle : r.source ≠ .idle := by
    intro hidle
    simp [Run.stepSource, hidle] at hs
  refine h.of_eq hjob hcounts hdrain (iff_of_false ?_ hidle)
  have hsend : ∀ {u : Run} {msg}, u.source ≠ .idle → u.sendRequest msg = some r' →
      r'.source ≠ .idle := by
    intro u msg hu hsend
    unfold sendRequest at hsend
    split at hsend <;> cases hsend <;> exact hu
  unfold Run.stepSource at hs
  split at hs
  case h_2 =>
    split at hs
    · cases hs
      nofun
    split at hs
    · cases hs
      nofun
    · exact hsend (by nofun) hs
  case h_4 => exact hsend (by nofun) hs
  case h_7 err _ =>
    cases hs
    cases err <;> nofun
  all_goals
    cases hs <;> nofun

theorem stepDrain (h : r.Totalled cfg) (hs : r.stepDrain S sink = some r') : r'.Totalled cfg := by
  obtain ⟨-, -, -, hsource, -⟩ := stepDrain_frame hs
  have hne : r.source ≠ .idle := by
    intro hidle
    simp [Run.stepDrain, (h.new hidle).1] at hs
  refine ⟨fun hidle => absurd (hsource ▸ hidle) hne, fun _ => ?_⟩
  rw [← h.total hne]
  unfold Run.stepDrain at hs
  split at hs
  case h_1 =>
    split at hs
    · cases hs
      rfl
    · split at hs <;> cases hs
      rfl
  case h_2 => split at hs <;> cases hs <;> rfl
  case h_7 d _ =>
    cases hs
    simp only [Run.recorded]
    split <;> rfl
  case h_10 err _ =>
    cases hs
    cases err <;> rfl
  all_goals
    cases hs <;> rfl

theorem stepJob {task : Task (Except Err (Option ResumableResumeState))} (h : r.Totalled cfg)
    (hs : r.stepJob S cfg env task = some r') : r'.Totalled cfg := by
  -- Where the job does not execute nothing else changes.
  have hset : ∀ pc, pc.executing = false → { r with job := pc }.Totalled cfg :=
    fun pc hpc => ⟨fun hs => ⟨(h.new hs).1, (h.new hs).2.1, hpc⟩, h.total⟩
  cases stepJob_cases hs with
  | launch =>
    refine ⟨nofun, fun _ => ?_⟩
    simp only [launch, seedCounts]
    split <;> rfl
  | collect hpc =>
    refine ⟨fun hidle => ?_, h.total⟩
    have := (h.new hidle).2.2
    rw [hpc] at this
    cases this
  | prepared => exact { hset .build rfl with }
  | _ => exact hset _ rfl

theorem stepRun {j : Fin S.jobs} {s s' : Shared (Fin S.jobs)} {g : Goroutine}
    (h : r.Totalled (S.config j)) (hs : S.stepRun env j s r g = some (s', r')) :
    r'.Totalled (S.config j) := by
  rcases main_or_frame hs with hs | hs | hs | hs | hf
  · exact h.stepJob hs
  · exact h.stepSource hs
  · obtain ⟨hjob, -, hcounts, -, hsource, hdrain⟩ := stepPre_frame hs
    exact h.of_eq hjob hcounts hdrain (by rw [hsource])
  · exact h.stepDrain hs
  · exact h.of_eq hf.job hf.counts hf.drain (by rw [hf.source])

theorem awaits {slot : Slot} {c : Call} {k : c.Resp → Run} (h : r.Totalled cfg)
    (hk : r.awaits slot = some ⟨c, k⟩) (a : c.Resp) : (k a).Totalled cfg := by
  obtain ⟨t, hpc⟩ | ⟨msg, t, hpc⟩ | ⟨d, t, hpc⟩ := awaits_cases hk
  · exact ⟨fun hs => ⟨(h.new hs).1, (h.new hs).2.1, rfl⟩, h.total⟩
  · exact { h with }
  · refine ⟨fun hidle => ?_, h.total⟩
    have := (h.new hidle).1
    rw [hpc] at this
    cases this

end Run.Totalled

/-! ### The whole system -/

section System

variable {S : Setup} {h h' : Hub S} {e : Event S} {codec : Codec} {icfg : Fin S.jobs → IngestConfig}
  {input : Fin S.batches → Bytes} {id : Fin S.batches → String} {p : Precision} {j : Fin S.jobs}

theorem Setup.totalled_step (hs : S.step h e = some h')
    (hh : ∀ j, (h.runs j).Totalled (S.config j)) : ∀ j, (h'.runs j).Totalled (S.config j) :=
  S.step_runs (P := fun j r => r.Totalled (S.config j)) hs
    (fun _ _ _ _ _ hr ht => ht.stepRun hr) (fun _ _ _ _ a _ hk ht => ht.awaits hk a)
    (fun _ _ ht => { ht with })
    (fun _ _ _ hr ht => by
      have hf := Run.frame_sendPreResult hr
      exact ht.of_eq hf.job hf.counts hf.drain (by rw [hf.source])) hh

/-- The entries of every batch are the lines of its input file. -/
def Hub.Identified (h : Hub S) : Prop :=
  ∀ j, (h.worlds (S.batch j)).Identified (S.config j).manifest

theorem Setup.identified_step (hin : S.Inputs codec icfg input id) (hs : S.step h e = some h')
    (hsound : h.Sound) (hh : h.Identified) : h'.Identified := by
  intro j
  by_cases hne : (h.worlds (S.batch j)).batch.entries.rows = []
  · rcases S.world_step hs hsound (S.batch j) with hw | ⟨env, c, a, hp, -, hcalls⟩
    · exact .inl (hw ▸ hne)
    · rcases World.batch_perform hp with hb | ⟨s, b, rfl, -, hexec, hw⟩
      · exact .inl (hb ▸ hne)
      · rcases Stmt.rows_exec hexec with ⟨act, rfl, -, hrows⟩ | ⟨f, hrows, -⟩
        · cases hcalls with
          | other hc => cases hc
          | @prepare j' _ hj hc =>
            obtain ⟨act', hact, hentries, -⟩ := hc
            cases hact
            right
            have hj' := hin.ingested j'
            rw [hj] at hj'
            rw [← (hin.ingested j).identities_eq hj' (by rw [hin.batchID, hin.batchID, hj])]
            rw [hw, World.identities, hrows, hentries, RequestManifest.activationEntries,
              RequestManifest.identities, List.map_map, List.map_map]
            refine List.map_congr_left fun m _ => ?_
            simp [activationRow]
          | mark _ _ _ hc => cases hc
          | checkpoint _ _ _ hc =>
            obtain ⟨_, -, hchk⟩ := hc
            cases hchk
        · left
          rw [hw]
          dsimp only
          rw [hrows, hne, List.map_nil]
  · right
    rw [(S.evolves_step hs (S.batch j)).identities hne]
    exact (hh j).resolve_left hne

/-- Every way of changing an execution or its batch. -/
theorem Setup.fits_step (hin : S.Inputs codec icfg input id) (hs : S.step h e = some h')
    (hsound : h.Sound) (hid : h.Identified)
    (hothers : (∀ slot, e.who ≠ .call j slot) → (h.runs j).job ≠ .idle →
      p.others.step (h.worlds (S.batch j)) (h'.worlds (S.batch j)))
    (hh : (h.runs j).Fits p S.lib (S.config j) (h.worlds (S.batch j))) :
    (h'.runs j).Fits p S.lib (S.config j) (h'.worlds (S.batch j)) := by
  have hev := S.evolves_step hs (S.batch j)
  have hrej := (hin.ingested j).counts.2
  obtain ⟨j', g, s, r, -, hr⟩ | ⟨j', slot, c, k, w, a, hw, hk, hp⟩ | ⟨j', cause, -⟩ |
    ⟨b, -, hb⟩ | ⟨i, c, w, a, hw, hc, hp⟩ := S.step_cases hs
  · dsimp only
    by_cases hj : j = j'
    · subst hj
      rw [Function.update_self]
      exact hh.stepRun (hsound.counted _) (hid j) hrej hr
    · rw [Function.update_of_ne hj]
      exact hh
  · by_cases hj : j = j'
    · subst hj
      dsimp only
      rw [Function.update_self, Function.update_self]
      exact hh.awaits (hsound.control j) (hsound.counted _) (hsound.run j) hk hp
    · have hne : ∀ slot, e.who ≠ .call j slot := by
        intro slot' hw'
        rw [hw] at hw'
        cases hw'
        exact hj rfl
      have hfit := hh.others (hsound.control j) hev (hothers hne)
      dsimp only at hfit ⊢
      rwa [Function.update_of_ne hj]
  · dsimp only
    by_cases hj : j = j'
    · subst hj
      rw [Function.update_self]
      exact hh.cancel _ _
    · rw [Function.update_of_ne hj]
      exact hh
  · obtain ⟨pc, rfl | ⟨d, j', js, r, -, -, hr, rfl⟩⟩ := Hub.stepBroadcaster_cases hb
    · exact hh
    · simp only [Hub.setBroadcaster, Hub.setRun]
      by_cases hj : j = j'
      · subst hj
        rw [Function.update_self]
        have hf := Run.frame_sendPreResult hr
        exact hh.of_eq hf.job hf.seed hf.counts hf.drain
      · rw [Function.update_of_ne hj]
        exact hh
  · exact hh.others (hsound.control j) hev (hothers fun slot hw' => by simp [hw] at hw')

/-- No other execution of the batch has the owner and the epoch of this one. -/
def Setup.Sole (S : Setup) (j : Fin S.jobs) : Prop :=
  ∀ j', j' ≠ j → S.batch j' = S.batch j → (S.config j').epoch = (S.config j).epoch →
    (S.config j').processorID ≠ (S.config j).processorID ∧
      (S.config j').jobProcessorID ≠ (S.config j).processorID

def JobPC.started : JobPC → Bool
  | .idle => false
  | _ => true

/-- From its start on, the execution owns the batch. -/
def Hub.OwnedBy (j : Fin S.jobs) (h : Hub S) (_ : Event S) : Prop :=
  (h.runs j).job.started = true →
    (h.worlds (S.batch j)).batch.row.processorID = some (S.config j).processorID ∧
      (h.worlds (S.batch j)).batch.row.epoch = (S.config j).epoch

instance (j : Fin S.jobs) (h : Hub S) (e : Event S) : Decidable (h.OwnedBy j e) :=
  inferInstanceAs (Decidable (_ → _))

/-- Others cannot finish entries of a batch that they do not own. -/
theorem Setup.spared_step (hs : S.step h e = some h') (hsound : h.Sound) (hsole : S.Sole j)
    (hown : h.OwnedBy j e) (hne : ∀ slot, e.who ≠ .call j slot) (hidle : (h.runs j).job ≠ .idle) :
    (h.worlds (S.batch j)).Keeps (h'.worlds (S.batch j)) := by
  have hstarted : (h.runs j).job.started = true := by
    cases hj : (h.runs j).job with
    | idle => exact absurd hj hidle
    | _ => rfl
  obtain ⟨howner, hepoch⟩ := hown hstarted
  have hother : ∀ j' slot, e.who = .call j' slot → j' ≠ j := by
    rintro j' slot hw rfl
    exact hne slot hw
  rcases S.world_step hs hsound (S.batch j) with hw | ⟨env, c, a, hp, -, hcalls⟩
  · rw [hw]
    exact .refl _
  · refine World.keeps_perform hp ?_
    cases hcalls with
    | other hc =>
      unfold World.Spares
      split
      · cases hc
      · cases hc
      · trivial
    | @prepare j' hw hj hc =>
      unfold World.Spares
      split
      · obtain ⟨act, hact, -, hproc, hep⟩ := hc
        cases hact
        rintro ⟨hp', he'⟩
        rw [howner, Option.some.injEq] at hp'
        exact (hsole j' (hother _ _ hw) hj (by rw [← hep, ← he', hepoch])).2 (by rw [← hproc, hp'])
      · obtain ⟨act, hact, -⟩ := hc
        cases hact
      · trivial
    | mark _ _ _ hc =>
      unfold World.Spares
      split
      · cases hc
      · cases hc
      · trivial
    | @checkpoint j' d t hw hj hpc hc hg =>
      unfold World.Spares
      split
      · obtain ⟨key, -, hchk⟩ := hc
        cases hchk
      · obtain ⟨key, -, hchk⟩ := hc
        simp only [Stmt.checkpoint.injEq] at hchk
        obtain ⟨-, -, rfl, rfl, -⟩ := hchk
        rintro ⟨hp', he'⟩
        rw [howner, Option.some.injEq] at hp'
        exact (hsole j' (hother _ _ hw) hj (by rw [← hepoch, he']; rfl)).1 hp'.symm
      · trivial

end System

end BatchGateway
