import BatchGateway.FilesStore.Links

/-! Publication is create-only: whatever the writers do, the object is absent or the complete bytes
of the one writer that linked it, and only a deletion changes it. -/
namespace BatchGateway

open Interleaving

namespace FileSystem

variable {s t : FileSystem} {i : Nat} {w : FsWriter} {f : TempFile}

/-- What a step of a writer does to the object and to the files: the object is linked only when
there is none, and only a writer that copies adds to its file. -/
inductive Touch (s t : FileSystem) (w : FsWriter) : Prop where
  | quiet (hobject : t.names .object = s.names .object) (hinodes : t.inodes = s.inodes)
  | create (hobject : t.names .object = s.names .object) (hinodes : t.inodes = s.inodes ++ [[]])
  | copy (f : TempFile) (rest chunk : Bytes) (hphase : w.phase = .copying rest)
      (hf : w.file = some f) (hobject : t.names .object = s.names .object)
      (hinodes : t.inodes = s.inodes.modify f.inode (· ++ chunk))
  | link (hnone : s.names .object = none)

theorem link_touch : Touch s (s.link i w f) w := by
  unfold FileSystem.link
  split
  · exact .quiet rfl rfl
  · exact .quiet rfl rfl
  next hobject => exact .link hobject

theorem stepFile_touch {env : FsEnv} (hf : w.file = some f)
    (hs : s.stepFile i w env f = some t) : Touch s t w := by
  unfold FileSystem.stepFile at hs
  split at hs
  next rest hphase =>
    split at hs
    · cases hs
      exact .quiet rfl rfl
    · cases hs
      exact .copy f rest (rest.take env.size) hphase hf rfl rfl
  next =>
    split at hs
    · cases hs
      exact .quiet rfl rfl
    · cases hs
      exact .quiet rfl rfl
  next =>
    cases hs
    exact .quiet rfl rfl
  next =>
    split at hs
    · cases hs
      exact .quiet rfl rfl
    · cases hs
      exact .quiet rfl rfl
  next =>
    split at hs
    · cases hs
      exact .quiet rfl rfl
    · cases hs
      exact link_touch
  next =>
    cases hs
    split
    · exact .quiet rfl rfl
    · exact .quiet (object_setName f.nanos f.counter none) rfl
  next =>
    cases hs
    exact .quiet rfl rfl
  next =>
    cases hs
    split
    · exact .quiet rfl rfl
    · exact .quiet (object_setName f.nanos f.counter none) rfl
  next => cases hs

theorem stepWriter_touch {env : FsEnv} (hs : s.stepWriter i w env = some t) : Touch s t w := by
  unfold FileSystem.stepWriter at hs
  split at hs
  next =>
    split at hs
    · cases hs
      exact .quiet rfl rfl
    · cases hs
      exact .quiet rfl rfl
  next =>
    split at hs
    · cases hs
      exact .quiet rfl rfl
    · cases hs
      exact .quiet rfl rfl
  next =>
    cases hs
    exact .quiet rfl rfl
  next =>
    split at hs
    · cases hs
      exact .quiet rfl rfl
    · split at hs
      · cases hs
        exact .quiet rfl rfl
      · cases hs
        exact .create (object_setName env.nanos (s.tmpCounter + 1) _) rfl
  next =>
    obtain ⟨f, hf, hs⟩ := Option.bind_eq_some_iff.1 hs
    exact stepFile_touch hf hs

/-- Appending to the file of a writer that has not linked it leaves the object as it is. -/
theorem Sound.visible_append (h : Sound s) (hi : s.writers[i]? = some w) (hf : w.file = some f)
    (hnot : i ∉ s.linkedBy) {chunk b : Bytes} (hobject : t.names .object = s.names .object)
    (hinodes : t.inodes = s.inodes.modify f.inode (· ++ chunk)) (hb : s.visible = some b) :
    t.visible = some b := by
  obtain ⟨k, hk, hkb⟩ := Option.bind_eq_some_iff.1 hb
  obtain ⟨p, x, g, hp, hx, hg, hgk, -⟩ := h.object k hk
  have hpi : i ≠ p := by
    rintro rfl
    exact hnot (List.mem_of_mem_head? hp)
  have hne : f.inode ≠ k := hgk ▸ h.apart i p w x hi hx hpi f hf g hg
  unfold visible
  rw [hobject, hk, hinodes]
  change (s.inodes.modify f.inode (· ++ chunk))[k]? = some b
  rw [List.getElem?_modify_ne _ _ hne]
  exact hkb

theorem visible_of_eq (hobject : t.names .object = s.names .object)
    (hinodes : t.inodes = s.inodes) : t.visible = s.visible := by
  unfold visible
  rw [hobject, hinodes]

theorem Sound.visible_touch (h : Sound s) (hi : s.writers[i]? = some w) (ht : Touch s t w)
    {b : Bytes} (hb : s.visible = some b) : t.visible = some b := by
  cases ht with
  | quiet hobject hinodes => rw [visible_of_eq hobject hinodes, hb]
  | create hobject hinodes =>
    obtain ⟨k, hk, hkb⟩ := Option.bind_eq_some_iff.1 hb
    unfold visible
    rw [hobject, hk, hinodes]
    exact (List.getElem?_append_left (List.getElem?_eq_some_iff.1 hkb).1).trans hkb
  | copy f rest chunk hphase hf hobject hinodes =>
    have hnot : i ∉ s.linkedBy := fun hl => ((h.ok i w hi).inner.final hl).1.2.1 rest hphase
    exact h.visible_append hi hf hnot hobject hinodes hb
  | link hnone =>
    unfold visible at hb
    rw [hnone] at hb
    cases hb

/-- Only a deletion changes an object that is visible. -/
theorem Sound.visible_step {e : FsEvent} (h : Sound s) (he : e ≠ .delete)
    (hs : s.step e = some t) {b : Bytes} (hb : s.visible = some b) : t.visible = some b := by
  cases e with
  | store | openStream | restart =>
    cases hs
    exact hb
  | step i env =>
    obtain ⟨w, hi, hs⟩ := Option.bind_eq_some_iff.1 hs
    exact h.visible_touch hi (stepWriter_touch hs) hb
  | write i chunk accepted =>
    obtain ⟨w, hi, hs⟩ := Option.bind_eq_some_iff.1 hs
    obtain ⟨f, hf, hs⟩ := Option.bind_eq_some_iff.1 hs
    split at hs
    · cases hs
    · split at hs
      · cases hs
        exact hb
      next hopen =>
        cases hs
        have hnot : i ∉ s.linkedBy := fun hl => hopen (((h.ok i w hi).inner.final hl).2 f hf)
        exact h.visible_append hi hf hnot rfl rfl hb
  | commit i | abort i =>
    obtain ⟨w, -, hs⟩ := Option.bind_eq_some_iff.1 hs
    obtain ⟨-, rfl⟩ := of_guarded hs
    exact hb
  | crash i =>
    obtain ⟨w, -, hs⟩ := Option.bind_eq_some_iff.1 hs
    cases hs
    exact hb
  | delete => exact absurd rfl he
  | sweep nanos counter =>
    cases hs
    rw [visible_of_eq (object_setName nanos counter none) rfl, hb]

theorem Sound.visible (h : Sound s) :
    s.visible = none ∧ s.names .object = none ∨ (s.names .object).isSome = true ∧
      ∃ i w, s.linkedBy.head? = some i ∧ s.writers[i]? = some w ∧ s.visible = some w.complete := by
  cases hk : s.names .object with
  | none =>
    refine .inl ⟨?_, rfl⟩
    unfold FileSystem.visible
    rw [hk]
    rfl
  | some k =>
    obtain ⟨i, w, f, hp, hi, hf, hfk, hcomplete⟩ := h.object k hk
    refine .inr ⟨rfl, i, w, hp, hi, ?_⟩
    unfold FileSystem.visible
    rw [hk, ← hcomplete, ← hfk]
    exact (h.ok i w hi).content f hf

/-- How many calls of all the writers reported success. -/
def successReports (s : FileSystem) : Nat :=
  (s.writers.map fun w => w.reports.countP Except.isOk).sum

/-- Publication is create-only. Every success that is reported is one link, and there is one link
per deletion and one for the object that is there, whose bytes are all those of the writer that
linked it. A writer that did not link reports errors only. -/
theorem publication_createOnly {es : List FsEvent} {s : FileSystem}
    (hrun : exec FileSystem.step {} es = some s) :
    s.successReports ≤ s.linkedBy.length ∧
    s.linkedBy.length = s.deletions + s.visible.isSome.toNat ∧
    (s.visible = none ∨ ∃ i w, s.linkedBy.head? = some i ∧ s.writers[i]? = some w ∧
      s.visible = some w.complete) ∧
    (∀ i w, s.writers[i]? = some w → i ∉ s.linkedBy → ∀ r ∈ w.reports, ∃ e, r = .error e) ∧
    ∀ e t b, e ≠ .delete → s.step e = some t → s.visible = some b → t.visible = some b := by
  have h : Sound s :=
    exec_invariant (fun _ _ _ hsound hs => Sound.step hsound hs) hrun sound_initial
  refine ⟨?_, ?_, ?_, fun i w hi hnot r hr => ?_, fun e t b he hs hb => h.visible_step he hs hb⟩
  · refine Nat.le_trans (List.sum_le_sum fun w _ => ?_) h.reports
    exact Nat.le_add_right _ _
  · rw [h.links]
    rcases h.visible with ⟨hnone, hobject⟩ | ⟨hobject, -, w, -, -, hsome⟩
    · rw [hnone, hobject]
      rfl
    · rw [hsome, hobject]
      rfl
  · rcases h.visible with ⟨hnone, -⟩ | ⟨-, hsome⟩
    · exact .inl hnone
    · exact .inr hsome
  · cases r with
    | error e => exact ⟨e, rfl⟩
    | ok m => exact absurd ((h.ok i w hi).inner.succeeded m hr) hnot

/-- A stored file and a stream race; both pass the check, and the stream links first. -/
def racingWriters : List FsEvent :=
  [.store [97, 98] 0 0, .openStream,
    .step 0 {}, .step 1 {}, .step 0 {}, .step 1 {}, .step 0 {}, .step 1 {},
    .write 1 [99] 1, .step 0 { size := 2, eof := true }, .commit 1,
    .step 1 {}, .step 1 {}, .step 0 {}, .step 0 {}, .step 1 {}, .step 0 {}, .step 0 {}, .step 1 {}]

theorem racingWriters_createOnly : ∃ s, exec FileSystem.step {} racingWriters = some s ∧
    s.visible = some [99] ∧ s.successReports = 1 ∧ s.linkedBy = [1] ∧
    ∀ w, s.writers[0]? = some w → ∀ r ∈ w.reports, ∃ e, r = .error e := by
  have hend : (exec FileSystem.step {} racingWriters).map
      (fun s => (s.visible, s.successReports, s.linkedBy)) = some (some [99], 1, [1]) := by
    decide +kernel
  obtain ⟨s, hs, heq⟩ := Option.map_eq_some_iff.1 hend
  obtain ⟨hvisible, heq⟩ := Prod.mk.inj heq
  obtain ⟨hreports, hlinked⟩ := Prod.mk.inj heq
  obtain ⟨-, -, -, hother, -⟩ := publication_createOnly hs
  refine ⟨s, hs, hvisible, hreports, hlinked, fun w hw => hother 0 w hw ?_⟩
  rw [hlinked]
  decide

end FileSystem
end BatchGateway
