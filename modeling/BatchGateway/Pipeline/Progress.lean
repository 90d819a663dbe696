import BatchGateway.Pipeline.Integrity
import BatchGateway.Pipeline.Tally

/-! Progress counts are never ahead of the store, and they are exact once the owner's checkpointer
returns without an error. -/
namespace BatchGateway

open Interleaving GoJson

variable {S : Setup} {h h' : Hub S} {e : Event S} {codec : Codec} {icfg : Fin S.jobs → IngestConfig}
  {input : Fin S.batches → Bytes} {id : Fin S.batches → String} {p : Precision} {j : Fin S.jobs}

/-- The counts of the entry set. -/
def World.tally (w : World) : BatchRequestCounts where
  total := w.batch.entries.rows.length
  completed := w.count .completed
  failed := w.count .failed

/-- The counts of an execution fit, and so does everything they come from. -/
structure Hub.Tallied (p : Precision) (j : Fin S.jobs) (h : Hub S) : Prop where
  sound : h.Sound
  identified : h.Identified
  totalled : ∀ j, (h.runs j).Totalled (S.config j)
  fits : (h.runs j).Fits p S.lib (S.config j) (h.worlds (S.batch j))

theorem Hub.Initial.tallied (hi : h.Initial) : h.Tallied p j where
  sound := hi.sound
  identified _ := .inl (hi.entries _)
  totalled j := by
    rw [hi.runs]
    exact ⟨fun _ => ⟨rfl, rfl, rfl⟩, fun hne => absurd rfl hne⟩
  fits := by
    rw [hi.runs]
    exact .initial

theorem Setup.tallied_step (hin : S.Inputs codec icfg input id) (hs : S.step h e = some h')
    (hothers : (∀ slot, e.who ≠ .call j slot) → (h.runs j).job ≠ .idle →
      p.others.step (h.worlds (S.batch j)) (h'.worlds (S.batch j)))
    (hh : h.Tallied p j) : h'.Tallied p j where
  sound := S.sound_step hs hh.sound
  identified := S.identified_step hin hs hh.sound hh.identified
  totalled := S.totalled_step hs hh.totalled
  fits := S.fits_step hin hs hh.sound hh.identified hothers hh.fits

theorem World.count_add_le (w : World) :
    w.count .completed + w.count .failed ≤ w.batch.entries.rows.length := by
  unfold World.count
  induction w.batch.entries.rows with
  | nil => exact Nat.le_refl _
  | cons row rows ih =>
    rw [List.countP_cons, List.countP_cons, List.length_cons]
    by_cases hc : row.status = .completed
    · simp only [hc, decide_true, if_true, reduceCtorEq, decide_false, Bool.false_eq_true, if_false]
      omega
    · by_cases hf : row.status = .failed
      · simp only [hf, decide_true, if_true, reduceCtorEq, decide_false, Bool.false_eq_true, if_false]
        omega
      · simp only [hc, hf, decide_false, Bool.false_eq_true, if_false]
        omega

/-- What is owed is not counted yet. -/
theorem DrainPC.Fits.le {counts : BatchRequestCounts} {w : World} {pc : DrainPC} {s : EntryStatus}
    (h : pc.Fits .atMost counts w) (hs : s.isTerminal = true) : counts.of s ≤ w.count s := by
  have hle : ∀ owed, Precision.atMost.Fits counts owed w → counts.of s ≤ w.count s := by
    intro owed hfit
    have hfit : counts.of s + _ ≤ (w.count s : Int) := hfit s hs
    split at hfit <;> omega
  unfold DrainPC.Fits at h
  split at h
  case h_5 =>
    obtain ⟨st, -, hfit⟩ := h
    exact hle _ (hfit fun _ => trivial)
  case h_1 | h_2 | h_3 | h_4 | h_6 | h_7 | h_8 => exact hle _ h
  all_goals exact hle _ (h trivial)

/-- There are at most as many entries as lines, and as many once the execution started. -/
theorem Hub.Tallied.length (hin : S.Inputs codec icfg input id) (hh : h.Tallied p j) :
    ((h.worlds (S.batch j)).batch.entries.rows.length : Int) ≤ (S.config j).lineCount ∧
    ((h.runs j).source ≠ .idle →
      (S.config j).lineCount = (h.worlds (S.batch j)).batch.entries.rows.length) := by
  have hlines := (hin.ingested j).counts.1
  rcases hh.identified j with hnil | hid
  · rw [hnil, hlines]
    refine ⟨by simp, fun hne => ?_⟩
    have hrows := ((hh.sound.run j).prepared (.inr hne)).installed.rows
    cases hm : (S.config j).manifest.entries with
    | nil => simp
    | cons m ms =>
      obtain ⟨row, hr, -⟩ := hrows m (by rw [hm]; exact List.mem_cons_self)
      rw [hnil] at hr
      cases hr
  · have hlen := congrArg List.length hid
    simp only [World.identities, RequestManifest.identities, List.length_map] at hlen
    rw [hlines, hlen]
    exact ⟨Int.le_refl _, fun _ => rfl⟩

theorem Hub.Tallied.at_most (hin : S.Inputs codec icfg input id) (hh : h.Tallied .atMost j) :
    (h.runs j).counts.completed ≤ (h.worlds (S.batch j)).count .completed ∧
    (h.runs j).counts.failed ≤ (h.worlds (S.batch j)).count .failed ∧
    (h.runs j).counts.completed + (h.runs j).counts.failed ≤ (h.runs j).counts.total := by
  have hle : ∀ s : EntryStatus, s.isTerminal = true →
      (h.runs j).counts.of s ≤ (h.worlds (S.batch j)).count s := by
    intro s hs
    exact hh.fits.drain.le hs
  have hcompleted := hle .completed rfl
  have hfailed := hle .failed rfl
  refine ⟨hcompleted, hfailed, ?_⟩
  simp only [BatchRequestCounts.of] at hcompleted hfailed
  by_cases hidle : (h.runs j).source = .idle
  · rw [((hh.totalled j).new hidle).2.1]
    decide
  · have hlen := (hh.length hin).1
    have hsum := (h.worlds (S.batch j)).count_add_le
    rw [(hh.totalled j).total hidle]
    omega

theorem Hub.Tallied.exact (hin : S.Inputs codec icfg input id) (hh : h.Tallied .exact j)
    (hd : (h.runs j).drain = .leave none) :
    (h.runs j).counts = (h.worlds (S.batch j)).tally := by
  have hfit := hh.fits.drain
  rw [hd] at hfit
  have hcompleted := hfit .completed rfl
  have hfailed := hfit .failed rfl
  simp only [BatchRequestCounts.of, Precision.exact, Option.any_none, Bool.false_eq_true, if_false,
    Int.add_zero] at hcompleted hfailed
  have hne : (h.runs j).source ≠ .idle := by
    intro hidle
    have := ((hh.totalled j).new hidle).1
    rw [hd] at this
    cases this
  have htotal := ((hh.totalled j).total hne).trans ((hh.length hin).2 hne)
  exact congr (congr (congrArg BatchRequestCounts.mk htotal) hcompleted) hfailed

/-- In every reachable state the counts of every execution, fresh or resumed, are at most those of
the entry set. When the checkpointer of the execution that owned the batch since its start returns
nil, they are equal. -/
theorem progress_exact {h₀ : Hub S} (hin : S.Inputs codec icfg input id) (hi : h₀.Initial)
    (es : List (Event S)) (hs : exec S.step h₀ es = some h) (j : Fin S.jobs) :
    ((h.runs j).counts.completed ≤ (h.worlds (S.batch j)).tally.completed ∧
      (h.runs j).counts.failed ≤ (h.worlds (S.batch j)).tally.failed ∧
      (h.runs j).counts.completed + (h.runs j).counts.failed ≤ (h.runs j).counts.total) ∧
    (S.Sole j → Along S.step (Hub.OwnedBy j) h₀ es → (h.runs j).drain = .leave none →
      (h.runs j).counts = (h.worlds (S.batch j)).tally) := by
  constructor
  · have hh : h.Tallied .atMost j := along_invariant (I := Hub.Tallied .atMost j)
      (P := fun _ _ => True)
      (fun _ _ _ hh _ hs => S.tallied_step hin hs (fun _ _ => S.evolves_step hs _) hh)
      (along_true h₀ es) hs hi.tallied
    exact hh.at_most hin
  · intro hsole howned hd
    have hh : h.Tallied .exact j := along_invariant (I := Hub.Tallied .exact j)
      (fun _ _ _ hh ho hs => S.tallied_step hin hs
        (fun hne hidle => S.spared_step hs hh.sound hsole ho hne hidle) hh) howned hs hi.tallied
    exact hh.exact hin hd

theorem inputs_ofLines : (Setup.sample [.ofLines]).Inputs (requestsCodec twoLines)
    (fun _ => sampleIngestConfig) (fun _ => requestsInput twoLines) (fun _ => "batch_1") :=
  Setup.inputs_sample rfl (RunConfig.ingested_ofInput (by decide +kernel) (by decide +kernel))

/-- The second line is rejected, and the result of the first one is counted. -/
def finishLines : List (Event (.sample [.ofLines])) :=
  let j : Fin (Setup.sample [.ofLines]).jobs := ⟨0, Nat.one_pos⟩
  Event.generate j 1 ++ Event.answer j ++ Event.finish j

theorem finishLines_exact :
    ∃ h, exec (Setup.sample [.ofLines]).step (.sample [.ofLines]) finishLines = some h ∧
      (h.runs (0 : Fin 1)).drain = .leave none ∧
      (h.runs (0 : Fin 1)).counts = { total := 2, completed := 1, failed := 1 } ∧
      (h.runs (0 : Fin 1)).counts = (h.worlds (0 : Fin 1)).tally := by
  have hrun : ((exec (Setup.sample [.ofLines]).step (.sample [.ofLines]) finishLines).map fun h =>
      ((h.runs (0 : Fin 1)).drain matches .leave _, (h.runs (0 : Fin 1)).drain.failed,
        (h.runs (0 : Fin 1)).counts)) =
      some (true, false, { total := 2, completed := 1, failed := 1 }) := by decide +kernel
  obtain ⟨h, hs, heq⟩ := Option.map_eq_some_iff.1 hrun
  obtain ⟨hmatch, hfailed, hcounts⟩ := by simpa only [Prod.mk.injEq] using heq
  have hd : (h.runs (0 : Fin 1)).drain = .leave none := by
    split at hmatch
    next err hd =>
      rw [hd] at hfailed ⊢
      cases err with
      | none => rfl
      | some => cases hfailed
    next => cases hmatch
  have hsole : (Setup.sample [.ofLines]).Sole ⟨0, Nat.one_pos⟩ := by
    intro j' hne
    exact absurd (Fin.ext (by have := j'.isLt; exact Nat.lt_one_iff.1 this)) hne
  exact ⟨h, hs, hd, hcounts, (progress_exact inputs_ofLines (Hub.sample_initial _) finishLines hs
    ⟨0, Nat.one_pos⟩).2 hsole (by decide +kernel) hd⟩

end BatchGateway
