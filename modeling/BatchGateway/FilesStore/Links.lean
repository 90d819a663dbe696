import BatchGateway.FilesStore.Filesystem
import Mathlib.Algebra.Order.BigOperators.Group.List
import Mathlib.Algebra.Order.Group.Nat

/-! What holds of the writers and of their files in every state: a live writer owns its temporary
name, files are not shared, and the object is the complete file of the last writer that linked one.
-/
namespace BatchGateway

open Interleaving

namespace WriterPhase

/-- The writer has no temporary file yet. -/
def Early : WriterPhase → Prop
  | checking | making | creating _ => True
  | _ => False

/-- The writer has written everything and has not linked its file yet. -/
def Publishing : WriterPhase → Prop
  | closing | measuring | linking => True
  | _ => False

/-- The writer is a stream that was opened. -/
def Streaming : WriterPhase → Prop
  | committing | idle | abortClosing | abortRemoving => True
  | _ => False

/-- There is nothing left to write or to link. -/
def Settled (p : WriterPhase) : Prop := ¬ p.Early ∧ (∀ rest, p ≠ .copying rest) ∧ ¬ p.Publishing

/-- The call is about to report success. -/
def succeeds : WriterPhase → Bool
  | cleaning (.ok _) => true
  | _ => false

end WriterPhase

namespace FsWriter

/-- The successes that the calls of the writer reported, or are about to report. -/
def successes (w : FsWriter) : Nat := w.reports.countP Except.isOk + w.phase.succeeds.toNat

/-- What holds of a writer by itself; `linked` tells whether it linked the object. -/
structure Local (linked : Prop) (w : FsWriter) : Prop where
  early : w.phase.Early → w.file = none ∧ w.written = []
  streaming : w.phase.Streaming → w.kind = .stream
  copying : ∀ rest, w.phase = .copying rest → w.kind = .store (w.written ++ rest)
  filled : w.phase.Publishing → w.written = w.complete
  shut : w.phase = .measuring ∨ w.phase = .linking → ∀ f ∈ w.file, f.closed = true
  /-- A writer that linked the object never links again nor writes. -/
  final : linked → w.phase.Settled ∧ ∀ f ∈ w.file, f.closed = true
  succeeding : w.phase.succeeds = true → linked
  succeeded : ∀ m, .ok m ∈ w.reports → linked

variable {w w' : FsWriter} {linked : Prop} {f : TempFile}

/-- A step to a phase in which nothing is left to do for the object. -/
theorem Local.settle (h : Local linked w) (hphase : w'.phase.Settled)
    (hclosed : ∀ f' ∈ w'.file, f'.closed = true ∨ f' ∈ w.file)
    (hstream : w'.phase.Streaming → w'.kind = .stream)
    (hsucceeds : w'.phase.succeeds = true → linked)
    (hreports : ∀ m, .ok m ∈ w'.reports → linked) : Local linked w' where
  early he := absurd he hphase.1
  streaming := hstream
  copying rest hc := absurd hc (hphase.2.1 rest)
  filled hp := absurd hp hphase.2.2
  shut hp := by
    rcases hp with hp | hp
    · exact absurd (hp ▸ trivial) hphase.2.2
    · exact absurd (hp ▸ trivial) hphase.2.2
  final hl := by
    refine ⟨hphase, fun f' hf' => ?_⟩
    rcases hclosed f' hf' with hc | hf
    · exact hc
    · exact (h.final hl).2 f' hf
  succeeding := hsucceeds
  succeeded := hreports

/-- The call fails and goes on to clean up. -/
theorem Local.fail (h : Local linked w) (e : FsErr) :
    Local linked { w with phase := .cleaning (.error e) } :=
  h.settle ⟨nofun, nofun, nofun⟩ (fun _ hf => .inr hf) nofun nofun h.succeeded

theorem Local.close (h : Local linked w) {phase : WriterPhase} (hphase : phase.Settled)
    (hstream : phase.Streaming → w.kind = .stream) (hsucceeds : phase.succeeds = true → linked) :
    Local linked (w.close f phase) := by
  refine h.settle hphase (fun f' hf' => .inl ?_) hstream hsucceeds h.succeeded
  cases hf'
  rfl

variable {result : Except FsErr FileMetadata}

theorem Local.report (h : Local linked w) (hresult : ∀ m, result = .ok m → linked) :
    Local linked (w.report result) := by
  have hphase : (w.report result).phase.Settled ∧ (w.report result).phase.succeeds = false := by
    unfold FsWriter.report
    dsimp only
    split <;> exact ⟨⟨nofun, nofun, nofun⟩, rfl⟩
  refine h.settle hphase.1 (fun _ hf => .inr hf) (fun hs => ?_) (fun hs => ?_) fun m hm => ?_
  · unfold FsWriter.report at hs
    dsimp only at hs
    split at hs
    next hk => exact hk.1
    next => cases hs
  · rw [hphase.2] at hs
    cases hs
  · rcases List.mem_cons.1 hm with heq | hm
    · exact hresult m heq.symm
    · exact h.succeeded m hm

theorem Local.opened (h : Local linked w) (hearly : w.phase.Early) (hnot : ¬ linked) :
    Local linked { w with file := some f, phase := w.kind.opened } := by
  have hempty := (h.early hearly).2
  cases hkind : w.kind with
  | store data =>
    refine ⟨nofun, nofun, fun rest hrest => ?_, nofun, ?_, fun hl => absurd hl hnot, nofun,
      h.succeeded⟩
    · cases hrest
      rw [hempty]
      rfl
    · rintro (hp | hp) <;> cases hp
  | stream =>
    refine ⟨nofun, fun _ => rfl, nofun, nofun, ?_, fun hl => absurd hl hnot, nofun, h.succeeded⟩
    rintro (hp | hp) <;> cases hp

/-- A report does not change the number of successes that are due or made. -/
theorem successes_report (h : result.isOk = true → w.phase.succeeds = true) :
    (w.report result).successes ≤ w.successes := by
  have hphase : (w.report result).phase.succeeds = false := by
    unfold FsWriter.report
    dsimp only
    split <;> rfl
  unfold successes
  rw [hphase]
  change (result :: w.reports).countP Except.isOk + 0 ≤ _
  rw [List.countP_cons]
  split
  next hok =>
    rw [h hok]
    exact Nat.le_refl _
  next => omega

end FsWriter

namespace FileSystem

variable {s t : FileSystem} {i j : Nat} {w w' x : FsWriter} {f : TempFile}

/-- What holds of a writer in its surroundings. -/
structure Ok (s : FileSystem) (i : Nat) (w : FsWriter) : Prop where
  content : ∀ f ∈ w.file, s.inodes[f.inode]? = some w.written
  named : w.phase ≠ .crashed → ∀ f ∈ w.file, f.counter ≤ s.tmpCounter ∧
    ∀ k, s.names f.name = some k → k = f.inode
  inner : w.Local (i ∈ s.linkedBy)

/-- The object is the complete file of the last writer that linked one. -/
def Published (s : FileSystem) : Prop :=
  ∀ k, s.names .object = some k → ∃ i w f, s.linkedBy.head? = some i ∧ s.writers[i]? = some w ∧
    w.file = some f ∧ f.inode = k ∧ w.written = w.complete

structure Sound (s : FileSystem) : Prop where
  ok : ∀ (i : Nat) (w : FsWriter), s.writers[i]? = some w → Ok s i w
  apart : ∀ (i j : Nat) (w x : FsWriter), s.writers[i]? = some w → s.writers[j]? = some x →
    i ≠ j → ∀ f ∈ w.file, ∀ g ∈ x.file, f.inode ≠ g.inode
  object : Published s
  writers : ∀ i ∈ s.linkedBy, i < s.writers.length
  links : s.linkedBy.length = s.deletions + (s.names .object).isSome.toNat
  reports : (s.writers.map FsWriter.successes).sum ≤ s.linkedBy.length

/-- What a step of the writer `i` leaves alone. -/
structure Frame (s t : FileSystem) (i : Nat) (w : FsWriter) : Prop where
  contents : ∀ (k : Nat) (b : Bytes), s.inodes[k]? = some b → (∀ f ∈ w.file, f.inode ≠ k) →
    t.inodes[k]? = some b
  counter : s.tmpCounter ≤ t.tmpCounter
  names : ∀ nanos counter k, t.names (.temp nanos counter) = some k → counter ≤ s.tmpCounter →
    s.names (.temp nanos counter) = some k
  linked : ∀ j, j ≠ i → (j ∈ t.linkedBy ↔ j ∈ s.linkedBy)

/-- The other writers are as before. -/
theorem Ok.frame (h : Ok s j x) (hframe : Frame s t i w) (hne : j ≠ i)
    (hapart : ∀ f ∈ x.file, ∀ g ∈ w.file, g.inode ≠ f.inode) : Ok t j x where
  content f hf := hframe.contents f.inode _ (h.content f hf) (hapart f hf)
  named hlive f hf := by
    obtain ⟨hcounter, hname⟩ := h.named hlive f hf
    exact ⟨hcounter.trans hframe.counter, fun k hk => hname k (hframe.names _ _ k hk hcounter)⟩
  inner := by
    have heq : (j ∈ t.linkedBy) = (j ∈ s.linkedBy) := propext (hframe.linked j hne)
    rw [heq]
    exact h.inner

section

variable (h : Sound s) (hi : s.writers[i]? = some w)
include h hi

/-- A step of one writer. Its file stays the same one or is new. -/
theorem Sound.advance (w' : FsWriter) (hwriters : t.writers = s.writers.set i w')
    (hframe : Frame s t i w) (hself : Ok t i w')
    (hfile : ∀ f' ∈ w'.file, (∃ f ∈ w.file, f.inode = f'.inode) ∨ f'.inode = s.inodes.length)
    (hobject : Published t)
    (hlinks : t.linkedBy.length = t.deletions + (t.names .object).isSome.toNat)
    (hreports : w'.successes + s.linkedBy.length ≤ w.successes + t.linkedBy.length) :
    Sound t where
  ok j x hj := by
    rw [hwriters] at hj
    rcases getElem?_set_cases hj with ⟨rfl, rfl⟩ | ⟨hne, hj⟩
    · exact hself
    · refine (h.ok j x hj).frame hframe hne fun f hf g hg => ?_
      exact h.apart i j w x hi hj (Ne.symm hne) g hg f hf
  apart j k x y hj hk hjk f hf g hg := by
    have hlt : ∀ (l : Nat) (z : FsWriter), s.writers[l]? = some z → ∀ f ∈ z.file,
        f.inode < s.inodes.length := fun l z hl f hf =>
      (List.getElem?_eq_some_iff.1 ((h.ok l z hl).content f hf)).1
    have hnew : ∀ (l : Nat) (z : FsWriter), l ≠ i → s.writers[l]? = some z → ∀ g ∈ z.file,
        ∀ f' ∈ w'.file, f'.inode ≠ g.inode := by
      intro l z hl hz g hg f' hf'
      rcases hfile f' hf' with ⟨f, hf, heq⟩ | heq
      · rw [← heq]
        exact h.apart i l w z hi hz (Ne.symm hl) f hf g hg
      · have := hlt l z hz g hg
        omega
    rw [hwriters] at hj hk
    rcases getElem?_set_cases hj with ⟨rfl, rfl⟩ | ⟨hji, hx⟩ <;>
      rcases getElem?_set_cases hk with ⟨rfl, rfl⟩ | ⟨hki, hy⟩
    · exact absurd rfl hjk
    · exact hnew k y hki hy g hg f hf
    · exact (hnew j x hji hx f hf g hg).symm
    · exact h.apart j k x y hx hy hjk f hf g hg
  object := hobject
  writers j hj := by
    rw [hwriters, List.length_set]
    by_cases hji : j = i
    · rw [hji]
      exact (List.getElem?_eq_some_iff.1 hi).1
    · exact h.writers j ((hframe.linked j hji).1 hj)
  links := hlinks
  reports := by
    have hsum := sum_map_set FsWriter.successes hi w'
    have hold := h.reports
    rw [hwriters]
    omega

/-- A step that leaves the files and the object alone, though a temporary name may go. -/
theorem Sound.quiet (hwriters : t.writers = s.writers.set i w') (hinodes : t.inodes = s.inodes)
    (hcounter : s.tmpCounter ≤ t.tmpCounter) (hlinked : t.linkedBy = s.linkedBy)
    (hdeletions : t.deletions = s.deletions) (hobject : t.names .object = s.names .object)
    (hnames : ∀ nanos counter k, t.names (.temp nanos counter) = some k →
      s.names (.temp nanos counter) = some k) (hkind : w'.kind = w.kind)
    (hwritten : w'.written = w.written)
    (hfile : w'.file.map (fun f => (f.name, f.inode)) = w.file.map fun f => (f.name, f.inode))
    (hlive : w'.phase ≠ .crashed → w.phase ≠ .crashed) (hlocal : w'.Local (i ∈ s.linkedBy))
    (hsuccesses : w'.successes ≤ w.successes) : Sound t := by
  have hfile' : ∀ f' ∈ w'.file, ∃ f ∈ w.file, f.name = f'.name ∧ f.inode = f'.inode := by
    intro f' hf'
    have hmap : (f'.name, f'.inode) ∈ w.file.map fun f => (f.name, f.inode) := by
      rw [← hfile]
      exact Option.mem_map_of_mem _ hf'
    obtain ⟨f, hf, heq⟩ := Option.mem_map.1 hmap
    exact ⟨f, hf, (Prod.mk.inj heq).1, (Prod.mk.inj heq).2⟩
  have hframe : Frame s t i w := by
    refine ⟨fun k b hk _ => hinodes ▸ hk, hcounter, fun _ _ k hk _ => hnames _ _ k hk,
      fun j _ => ?_⟩
    rw [hlinked]
  have hold := h.ok i w hi
  refine h.advance hi w' hwriters hframe ⟨?_, ?_, hlinked ▸ hlocal⟩ ?_ ?_ ?_ ?_
  · intro f' hf'
    obtain ⟨f, hf, -, heq⟩ := hfile' f' hf'
    rw [hinodes, hwritten, ← heq]
    exact hold.content f hf
  · intro hphase f' hf'
    obtain ⟨f, hf, hname, heq⟩ := hfile' f' hf'
    obtain ⟨hle, hk⟩ := hold.named (hlive hphase) f hf
    have hcounters : f.counter = f'.counter := (FsName.temp.inj hname).2
    refine ⟨hcounters ▸ hle.trans hcounter, fun k hnk => ?_⟩
    rw [← heq]
    refine hk k ?_
    rw [hname]
    exact hnames _ _ k hnk
  · intro f' hf'
    obtain ⟨f, hf, -, heq⟩ := hfile' f' hf'
    exact .inl ⟨f, hf, heq⟩
  · intro k hk
    rw [hobject] at hk
    obtain ⟨p, x, g, hp, hx, hg, hgk, hcomplete⟩ := h.object k hk
    rw [hlinked, hwriters]
    by_cases hpi : p = i
    · subst hpi
      cases hi.symm.trans hx
      have hlt : p < s.writers.length := (List.getElem?_eq_some_iff.1 hi).1
      rw [hg] at hfile
      obtain ⟨g', hg', hsame⟩ := Option.map_eq_some_iff.1 hfile
      refine ⟨p, w', g', hp, List.getElem?_set_self hlt, hg', ?_, ?_⟩
      · rw [← hgk]
        exact (Prod.mk.inj hsame).2
      · unfold FsWriter.complete at hcomplete ⊢
        rw [hkind, hwritten]
        exact hcomplete
    · refine ⟨p, x, g, hp, ?_, hg, hgk, hcomplete⟩
      rw [List.getElem?_set_ne (Ne.symm hpi)]
      exact hx
  · rw [hlinked, hdeletions, hobject]
    exact h.links
  · rw [hlinked]
    omega

/-- A step of a writer that adds to its own file. -/
theorem Sound.appended (hf : w.file = some f) (hnot : i ∉ s.linkedBy) (hlive : w.phase ≠ .crashed)
    (chunk : Bytes) (hwritten : w'.written = w.written ++ chunk)
    (hfile : w'.file.map (fun f => (f.name, f.inode)) = some (f.name, f.inode))
    (hlocal : w'.Local (i ∈ s.linkedBy)) (hsuccesses : w'.successes ≤ w.successes) :
    Sound ((s.append f.inode chunk).setWriter i w') := by
  have hold := h.ok i w hi
  obtain ⟨f', hf', hsame⟩ := Option.map_eq_some_iff.1 hfile
  obtain ⟨hname, hinode⟩ := Prod.mk.inj hsame
  have honly : ∀ g ∈ w'.file, g = f' := fun g hg => Option.some.inj (hg.symm.trans hf')
  refine h.advance hi w' rfl ⟨fun k b hk hne => ?_, Nat.le_refl _, fun _ _ k hk _ => hk,
    fun _ _ => Iff.rfl⟩ ⟨?_, ?_, hlocal⟩ ?_ ?_ h.links (Nat.add_le_add_right hsuccesses _)
  · change (s.inodes.modify f.inode (· ++ chunk))[k]? = some b
    simp [hne f hf, hk]
  · intro g hg
    rw [honly g hg, hinode, hwritten]
    change (s.inodes.modify f.inode (· ++ chunk))[f.inode]? = _
    simp [hold.content f hf]
  · intro _ g hg
    obtain ⟨hle, hk⟩ := hold.named hlive f hf
    have hcounter : f'.counter = f.counter := (FsName.temp.inj hname).2
    rw [honly g hg, hinode, hname, hcounter]
    exact ⟨hle, hk⟩
  · intro g hg
    exact .inl ⟨f, hf, by rw [honly g hg, hinode]⟩
  · intro k hk
    obtain ⟨p, x, g, hp, hx, hg, hgk, hcomplete⟩ := h.object k hk
    have hpi : p ≠ i := by
      rintro rfl
      exact hnot (List.mem_of_mem_head? hp)
    refine ⟨p, x, g, hp, ?_, hg, hgk, hcomplete⟩
    change (s.writers.set i w')[p]? = some x
    rw [List.getElem?_set_ne (Ne.symm hpi)]
    exact hx

theorem Sound.createTempFile {tries : Nat} (hphase : w.phase = .creating tries) (nanos : Int) :
    Sound (s.createTempFile i w nanos) := by
  have hold := h.ok i w hi
  have hearly : w.phase.Early := hphase ▸ trivial
  obtain ⟨hnone, hempty⟩ := hold.inner.early hearly
  have hnot : i ∉ s.linkedBy := fun hl => (hold.inner.final hl).1.1 hearly
  refine h.advance hi _ rfl ⟨fun k b hk _ => ?_, Nat.le_succ _, fun n c k hk hle => ?_,
    fun _ _ => Iff.rfl⟩ ⟨?_, ?_, ?_⟩ ?_ ?_ ?_ ?_
  · change (s.inodes ++ [[]])[k]? = some b
    rw [List.getElem?_append_left (List.getElem?_eq_some_iff.1 hk).1]
    exact hk
  · have hne : FsName.temp n c ≠ .temp nanos (s.tmpCounter + 1) := by
      intro heq
      have := (FsName.temp.inj heq).2
      omega
    exact (Function.update_of_ne hne _ s.names).symm.trans hk
  · intro f hf
    cases hf
    change (s.inodes ++ [[]])[s.inodes.length]? = some w.written
    rw [List.getElem?_append_right (Nat.le_refl _), Nat.sub_self, hempty]
    rfl
  · intro _ f hf
    cases hf
    refine ⟨Nat.le_refl _, fun k hk => ?_⟩
    have hself : Function.update s.names (.temp nanos (s.tmpCounter + 1)) (some s.inodes.length)
        (.temp nanos (s.tmpCounter + 1)) = some s.inodes.length := Function.update_self ..
    exact Option.some.inj (hk.symm.trans hself)
  · exact hold.inner.opened hearly hnot
  · intro f hf
    cases hf
    exact .inr rfl
  · intro k hk
    obtain ⟨p, x, g, hp, hx, hg, hgk, hcomplete⟩ := h.object k hk
    have hpi : p ≠ i := by
      rintro rfl
      exact hnot (List.mem_of_mem_head? hp)
    refine ⟨p, x, g, hp, ?_, hg, hgk, hcomplete⟩
    exact (List.getElem?_set_ne (Ne.symm hpi)).trans hx
  · exact h.links
  · refine Nat.add_le_add_right ?_ _
    unfold FsWriter.successes
    have hsucceeds : w.kind.opened.succeeds = false := by
      cases w.kind <;> rfl
    rw [hsucceeds]
    exact Nat.le_add_right _ _

end

variable {phase : WriterPhase}

theorem ne_crashed (h : w.phase = phase) (hphase : phase ≠ .crashed) :
    w.phase ≠ .crashed :=
  h ▸ hphase

theorem successes_le (hreports : w'.reports = w.reports) (hphase : w'.phase.succeeds = false) :
    w'.successes ≤ w.successes := by
  unfold FsWriter.successes
  rw [hreports, hphase]
  exact Nat.le_add_right _ _

theorem Sound.setPhase (h : Sound s) (hi : s.writers[i]? = some w) (hlive : w.phase ≠ .crashed)
    (hsucceeds : phase.succeeds = false)
    (hlocal : FsWriter.Local (i ∈ s.linkedBy) { w with phase }) :
    Sound (s.setWriter i { w with phase }) :=
  h.quiet hi rfl rfl (Nat.le_refl _) rfl rfl rfl (fun _ _ _ hk => hk) rfl rfl rfl (fun _ => hlive)
    hlocal (successes_le rfl hsucceeds)

theorem Sound.close (h : Sound s) (hi : s.writers[i]? = some w) (hf : w.file = some f)
    (hlive : w.phase ≠ .crashed) (hsucceeds : phase.succeeds = false)
    (hlocal : FsWriter.Local (i ∈ s.linkedBy) (w.close f phase)) :
    Sound (s.setWriter i (w.close f phase)) := by
  refine h.quiet hi rfl rfl (Nat.le_refl _) rfl rfl rfl (fun _ _ _ hk => hk) rfl rfl ?_
    (fun _ => hlive) hlocal (successes_le rfl hsucceeds)
  rw [hf]
  rfl

/-- A call returns; its temporary name may be removed before. -/
theorem Sound.report (h : Sound s) (hi : s.writers[i]? = some w) (hlive : w.phase ≠ .crashed)
    (result : Except FsErr FileMetadata) (hresult : result.isOk = true → w.phase.succeeds = true)
    (hwriters : t.writers = s.writers.set i (w.report result)) (hinodes : t.inodes = s.inodes)
    (hcounter : s.tmpCounter ≤ t.tmpCounter) (hlinked : t.linkedBy = s.linkedBy)
    (hdeletions : t.deletions = s.deletions) (hobject : t.names .object = s.names .object)
    (hnames : ∀ nanos counter k, t.names (.temp nanos counter) = some k →
      s.names (.temp nanos counter) = some k) : Sound t := by
  have hinner := (h.ok i w hi).inner
  refine h.quiet hi hwriters hinodes hcounter hlinked hdeletions hobject hnames rfl rfl rfl
    (fun _ => hlive) (hinner.report fun m hm => ?_) (FsWriter.successes_report hresult)
  exact hinner.succeeding (hresult (by rw [hm]; rfl))

theorem names_setName_self (name : FsName) (target : Option Nat) :
    (s.setName name target).names name = target := by
  unfold setName
  exact Function.update_self ..

theorem names_setName_ne {name other : FsName} {target : Option Nat} (h : other ≠ name) :
    (s.setName name target).names other = s.names other := by
  unfold setName
  exact Function.update_of_ne h ..

theorem names_setName_none {name : FsName} {nanos : Int} {counter k : Nat}
    (h : (s.setName name none).names (.temp nanos counter) = some k) :
    s.names (.temp nanos counter) = some k := by
  by_cases hname : FsName.temp nanos counter = name
  · rw [← hname, names_setName_self] at h
    cases h
  · rw [names_setName_ne hname] at h
    exact h

theorem object_setName (nanos : Int) (counter : Nat) (target : Option Nat) :
    (s.setName (.temp nanos counter) target).names .object = s.names .object :=
  names_setName_ne (by nofun)

section

variable (h : Sound s) (hi : s.writers[i]? = some w)
include h hi

theorem Sound.copyChunk (hf : w.file = some f) {rest : Bytes} (hphase : w.phase = .copying rest)
    (env : FsEnv) :
    Sound (s.copyChunk i w env f rest) := by
  have hinner := (h.ok i w hi).inner
  have hnot : i ∉ s.linkedBy := fun hl => (hinner.final hl).1.2.1 rest hphase
  have hlive : w.phase ≠ .crashed := ne_crashed hphase nofun
  have hkind := hinner.copying rest hphase
  unfold FileSystem.copyChunk
  dsimp only
  split
  next e _ =>
    refine h.appended hi hf hnot hlive (rest.take env.size) rfl rfl ?_ (successes_le rfl rfl)
    refine hinner.settle ⟨nofun, nofun, nofun⟩ (fun f' hf' => .inl ?_) nofun nofun hinner.succeeded
    cases hf'
    rfl
  next =>
    split
    next heof =>
      refine h.appended hi hf hnot hlive (rest.take env.size) rfl (by rw [hf]; rfl) ?_
        (successes_le rfl rfl)
      refine ⟨nofun, nofun, nofun, fun _ => ?_, ?_, fun hl => absurd hl hnot, nofun,
        hinner.succeeded⟩
      · have hall : rest.take env.size = rest := by
          rcases heof with rfl | ⟨-, hdrop⟩
          · exact List.take_nil
          · exact List.take_of_length_le (List.drop_eq_nil_iff.1 hdrop)
        unfold FsWriter.complete
        dsimp only
        rw [hkind, hall]
      · rintro (hp | hp) <;> cases hp
    next =>
      refine h.appended hi hf hnot hlive (rest.take env.size) rfl (by rw [hf]; rfl) ?_
        (successes_le rfl rfl)
      refine ⟨nofun, nofun, fun rest' hrest => ?_, nofun, ?_, fun hl => absurd hl hnot, nofun,
        hinner.succeeded⟩
      · cases hrest
        dsimp only
        rw [hkind, List.append_assoc, List.take_append_drop]
      · rintro (hp | hp) <;> cases hp

theorem Sound.link (hf : w.file = some f) (hphase : w.phase = .linking) : Sound (s.link i w f) := by
  have hok := h.ok i w hi
  have hlive : w.phase ≠ .crashed := ne_crashed hphase nofun
  have hpublishing : w.phase.Publishing := hphase ▸ trivial
  have hnot : i ∉ s.linkedBy := fun hl => (hok.inner.final hl).1.2.2 hpublishing
  unfold FileSystem.link
  split
  · exact h.setPhase hi hlive rfl (hok.inner.fail _)
  · exact h.setPhase hi hlive rfl (hok.inner.fail _)
  next inode hname hobject =>
    have hinode : inode = f.inode := (hok.named hlive f hf).2 inode hname
    have hlt : i < s.writers.length := (List.getElem?_eq_some_iff.1 hi).1
    have htemp : ∀ n c, (s.setName .object (some inode)).names (.temp n c) = s.names (.temp n c) :=
      fun n c => names_setName_ne (by nofun)
    refine h.advance hi { w with phase := .cleaning (.ok w.metadata) } rfl
      ⟨fun _ _ hk _ => hk, Nat.le_refl _, fun n c k hk _ => ?_, fun j hj => ?_⟩
      ⟨hok.content, ?_, ?_⟩ (fun f' hf' => .inl ⟨f', hf', rfl⟩) ?_ ?_ ?_
    · exact (htemp n c).symm.trans hk
    · exact ⟨fun hm => (List.mem_cons.1 hm).resolve_left hj, List.mem_cons_of_mem _⟩
    · intro _ g hg
      obtain ⟨hle, hk⟩ := hok.named hlive g hg
      exact ⟨hle, fun k hnk => hk k ((htemp g.nanos g.counter).symm.trans hnk)⟩
    · refine ⟨nofun, nofun, nofun, nofun, ?_,
        fun _ => ⟨⟨nofun, nofun, nofun⟩, hok.inner.shut (.inr hphase)⟩,
        fun _ => List.mem_cons_self, fun m hm => absurd (hok.inner.succeeded m hm) hnot⟩
      rintro (hp | hp) <;> cases hp
    · intro k hk
      have hset : (s.setName .object (some inode)).names .object = some inode :=
        names_setName_self _ _
      have heq : some inode = some k := hset.symm.trans hk
      cases heq
      exact ⟨i, _, f, rfl, List.getElem?_set_self hlt, hf, hinode.symm,
        hok.inner.filled hpublishing⟩
    · have hlinks := h.links
      rw [hobject] at hlinks
      have hnow : ((s.setName .object (some inode)).names .object).isSome.toNat = 1 := by
        rw [names_setName_self]
        rfl
      change s.linkedBy.length + 1 = s.deletions + _
      rw [hlinks]
      exact congrArg (s.deletions + ·) hnow.symm
    · have hbefore : w.successes = w.reports.countP Except.isOk := by
        unfold FsWriter.successes
        rw [hphase]
        rfl
      have hafter : FsWriter.successes { w with phase := .cleaning (.ok w.metadata) } =
          w.reports.countP Except.isOk + 1 := rfl
      rw [hbefore, hafter]
      change _ ≤ _ + (s.linkedBy.length + 1)
      omega

omit h hi in
theorem live_of_stepFile {env : FsEnv} (hs : s.stepFile i w env f = some t) :
    w.phase ≠ .crashed := by
  intro hphase
  rw [FileSystem.stepFile, hphase] at hs
  cases hs

theorem Sound.stepFile {env : FsEnv} (hf : w.file = some f) (hs : s.stepFile i w env f = some t) :
    Sound t := by
  have hinner := (h.ok i w hi).inner
  have hlive := live_of_stepFile hs
  unfold FileSystem.stepFile at hs
  split at hs
  next rest hphase =>
    split at hs
    · cases hs
      exact h.close hi hf hlive rfl (hinner.close ⟨nofun, nofun, nofun⟩ nofun nofun)
    · cases hs
      exact h.copyChunk hi hf hphase env
  next hphase =>
    split at hs
    · cases hs
      exact h.setPhase hi hlive rfl (hinner.fail _)
    next hopen =>
      cases hs
      have hkind : w.kind = .stream := hinner.streaming (hphase ▸ trivial)
      have hnot : i ∉ s.linkedBy := fun hl => hopen (.inr ((hinner.final hl).2 f hf))
      refine h.setPhase hi hlive rfl ⟨nofun, nofun, nofun, fun _ => ?_, ?_,
        fun hl => absurd hl hnot, nofun, hinner.succeeded⟩
      · unfold FsWriter.complete
        dsimp only
        rw [hkind]
      · rintro (hp | hp) <;> cases hp
  next hphase =>
    have hpublishing : w.phase.Publishing := hphase ▸ trivial
    have hnot : i ∉ s.linkedBy := fun hl => (hinner.final hl).1.2.2 hpublishing
    have hclosed : ∀ phase, ∀ f' ∈ (w.close f phase).file, f'.closed = true := by
      intro phase f' hf'
      cases hf'
      rfl
    cases hs
    split
    · exact h.close hi hf hlive rfl (hinner.close ⟨nofun, nofun, nofun⟩ nofun nofun)
    · split
      · exact h.close hi hf hlive rfl ⟨nofun, nofun, nofun, fun _ => hinner.filled hpublishing,
          fun _ => hclosed _, fun hl => absurd hl hnot, nofun, hinner.succeeded⟩
      · exact h.close hi hf hlive rfl ⟨nofun, nofun, nofun, fun _ => hinner.filled hpublishing,
          fun _ => hclosed _, fun hl => absurd hl hnot, nofun, hinner.succeeded⟩
  next hphase =>
    have hpublishing : w.phase.Publishing := hphase ▸ trivial
    have hnot : i ∉ s.linkedBy := fun hl => (hinner.final hl).1.2.2 hpublishing
    split at hs
    · cases hs
      exact h.setPhase hi hlive rfl (hinner.fail _)
    · cases hs
      exact h.setPhase hi hlive rfl ⟨nofun, nofun, nofun, fun _ => hinner.filled hpublishing,
        fun _ => hinner.shut (.inl hphase), fun hl => absurd hl hnot, nofun, hinner.succeeded⟩
  next hphase =>
    split at hs
    · cases hs
      exact h.setPhase hi hlive rfl (hinner.fail _)
    · cases hs
      exact h.link hi hf hphase
  next result hphase =>
    have hresult : result.isOk = true → w.phase.succeeds = true := by
      intro hok
      rw [hphase]
      cases result with
      | ok m => rfl
      | error e => cases hok
    cases hs
    split
    · exact h.report hi hlive result hresult rfl rfl (Nat.le_refl _) rfl rfl rfl fun _ _ _ hk => hk
    · exact h.report hi hlive result hresult rfl rfl (Nat.le_refl _) rfl rfl
        (object_setName f.nanos f.counter none) fun _ _ _ hk => names_setName_none hk
  next hphase =>
    cases hs
    exact h.close hi hf hlive rfl (hinner.close ⟨nofun, nofun, nofun⟩
      (fun _ => hinner.streaming (hphase ▸ trivial)) nofun)
  next hphase =>
    have hidle : FsWriter.Local (i ∈ s.linkedBy) { w with phase := .idle } :=
      hinner.settle ⟨nofun, nofun, nofun⟩ (fun _ hf => .inr hf)
        (fun _ => hinner.streaming (hphase ▸ trivial)) nofun hinner.succeeded
    cases hs
    split
    · exact h.setPhase hi hlive rfl hidle
    · exact h.quiet hi rfl rfl (Nat.le_refl _) rfl rfl
        (object_setName f.nanos f.counter none)
        (fun _ _ _ hk => names_setName_none hk) rfl rfl rfl (fun _ => hlive) hidle
        (successes_le rfl rfl)
  next => cases hs

/-- A step of a writer that has no temporary file yet. -/
theorem Sound.stepWriter {env : FsEnv} (hs : s.stepWriter i w env = some t) : Sound t := by
  have hinner := (h.ok i w hi).inner
  have hgo : ∀ {phase : WriterPhase}, phase.Early → w.phase.Early →
      FsWriter.Local (i ∈ s.linkedBy) { w with phase } := by
    intro phase hphase hearly
    have hnot : i ∉ s.linkedBy := fun hl => (hinner.final hl).1.1 hearly
    cases phase <;> first
      | exact absurd hphase id
      | exact ⟨fun _ => hinner.early hearly, nofun, nofun, nofun,
          (by rintro (hp | hp) <;> cases hp), fun hl => absurd hl hnot, nofun, hinner.succeeded⟩
  unfold FileSystem.stepWriter at hs
  split at hs
  next hphase =>
    have hlive : w.phase ≠ .crashed := ne_crashed hphase nofun
    split at hs
    · cases hs
      exact h.report hi hlive (.error .fileExists) nofun rfl rfl (Nat.le_refl _) rfl rfl rfl
        fun _ _ _ hk => hk
    · cases hs
      exact h.setPhase hi hlive rfl (hgo trivial (hphase ▸ trivial))
  next hphase =>
    have hlive : w.phase ≠ .crashed := ne_crashed hphase nofun
    split at hs
    · cases hs
      exact h.report hi hlive (.error .failed) nofun rfl rfl (Nat.le_refl _) rfl rfl rfl
        fun _ _ _ hk => hk
    · cases hs
      exact h.setPhase hi hlive rfl (hgo trivial (hphase ▸ trivial))
  next hphase =>
    have hlive : w.phase ≠ .crashed := ne_crashed hphase nofun
    cases hs
    exact h.report hi hlive (.error .failed) nofun rfl rfl (Nat.le_refl _) rfl rfl rfl
        fun _ _ _ hk => hk
  next tries hphase =>
    have hlive : w.phase ≠ .crashed := ne_crashed hphase nofun
    split at hs
    · cases hs
      exact h.report hi hlive (.error .failed) nofun rfl rfl (Nat.le_succ _) rfl rfl rfl
        fun _ _ _ hk => hk
    · split at hs
      · cases hs
        exact h.quiet hi rfl rfl (Nat.le_succ _) rfl rfl rfl (fun _ _ _ hk => hk) rfl rfl rfl
          (fun _ => hlive) (hgo trivial (hphase ▸ trivial)) (successes_le rfl rfl)
      · cases hs
        exact h.createTempFile hi hphase env.nanos
  next =>
    obtain ⟨f, hf, hs⟩ := Option.bind_eq_some_iff.1 hs
    exact h.stepFile hi hf hs

end

theorem Sound.spawn (h : Sound s) (w : FsWriter) (hphase : w.phase = .checking)
    (hfile : w.file = none) (hwritten : w.written = []) (hreports : w.reports = []) :
    Sound { s with writers := s.writers ++ [w] } where
  ok j x hj := by
    rcases getElem?_snoc_cases hj with ⟨rfl, rfl⟩ | ⟨-, hj⟩
    · have hnone : ∀ f, f ∉ x.file := by
        rw [hfile]
        nofun
      have hnot : s.writers.length ∉ s.linkedBy := fun hl => absurd (h.writers _ hl) (lt_irrefl _)
      refine ⟨fun f hf => absurd hf (hnone f), fun _ f hf => absurd hf (hnone f), ?_⟩
      refine ⟨fun _ => ⟨hfile, hwritten⟩, ?_, ?_, ?_, ?_, fun hl => absurd hl hnot, ?_, ?_⟩
      · rw [hphase]
        nofun
      · rw [hphase]
        nofun
      · rw [hphase]
        nofun
      · rw [hphase]
        rintro (hp | hp) <;> cases hp
      · rw [hphase]
        nofun
      · rw [hreports]
        nofun
    · exact ⟨(h.ok j x hj).content, (h.ok j x hj).named, (h.ok j x hj).inner⟩
  apart j k x y hj hk hjk f hf g hg := by
    have hnone : ∀ f, f ∉ w.file := by
      rw [hfile]
      nofun
    rcases getElem?_snoc_cases hj with ⟨-, rfl⟩ | ⟨-, hx⟩
    · exact absurd hf (hnone f)
    · rcases getElem?_snoc_cases hk with ⟨-, rfl⟩ | ⟨-, hy⟩
      · exact absurd hg (hnone g)
      · exact h.apart j k x y hx hy hjk f hf g hg
  object k hk := by
    obtain ⟨p, x, g, hp, hx, hrest⟩ := h.object k hk
    refine ⟨p, x, g, hp, ?_, hrest⟩
    exact (List.getElem?_append_left (List.getElem?_eq_some_iff.1 hx).1).trans hx
  writers j hj := by
    rw [List.length_append]
    exact Nat.lt_succ_of_lt (h.writers j hj)
  links := h.links
  reports := by
    have hzero : w.successes = 0 := by
      unfold FsWriter.successes
      rw [hphase, hreports]
      rfl
    rw [List.map_append, List.sum_append]
    change (s.writers.map FsWriter.successes).sum + (w.successes + 0) ≤ _
    rw [hzero]
    exact h.reports

theorem Sound.streamWrite {chunk : Bytes} (h : Sound s) (hi : s.writers[i]? = some w)
    (hs : s.streamWrite i w chunk = some t) : Sound t := by
  have hinner := (h.ok i w hi).inner
  obtain ⟨f, hf, hs⟩ := Option.bind_eq_some_iff.1 hs
  split at hs
  · cases hs
  next hidle =>
    have hphase : w.phase = .idle := not_not.1 hidle
    split at hs
    · cases hs
      exact h
    next hopen =>
      cases hs
      have hnot : i ∉ s.linkedBy := fun hl => hopen ((hinner.final hl).2 f hf)
      refine h.appended hi hf hnot (ne_crashed hphase nofun) chunk rfl (by rw [hf]; rfl) ?_ ?_
      · refine hinner.settle ?_ (fun _ hg => .inr hg) hinner.streaming hinner.succeeding
          hinner.succeeded
        dsimp only
        rw [hphase]
        exact ⟨nofun, nofun, nofun⟩
      · exact Nat.le_refl _

/-- The process crashes with all its writers. -/
theorem Sound.restart (h : Sound s) : Sound { s with
    tmpCounter := 0, writers := s.writers.map fun w => { w with phase := .crashed } } where
  ok j x hj := by
    rw [List.getElem?_map] at hj
    obtain ⟨w, hw, rfl⟩ := Option.map_eq_some_iff.1 hj
    have hold := h.ok j w hw
    exact ⟨hold.content, fun hlive => absurd rfl hlive,
      hold.inner.settle ⟨nofun, nofun, nofun⟩ (fun _ hf => .inr hf) nofun nofun
        hold.inner.succeeded⟩
  apart j k x y hj hk := by
    rw [List.getElem?_map] at hj hk
    obtain ⟨w, hw, rfl⟩ := Option.map_eq_some_iff.1 hj
    obtain ⟨w', hw', rfl⟩ := Option.map_eq_some_iff.1 hk
    exact h.apart j k w w' hw hw'
  object k hk := by
    obtain ⟨p, x, g, hp, hx, hg, hgk, hcomplete⟩ := h.object k hk
    refine ⟨p, { x with phase := .crashed }, g, hp, ?_, hg, hgk, hcomplete⟩
    rw [List.getElem?_map, hx]
    rfl
  writers j hj := by
    rw [List.length_map]
    exact h.writers j hj
  links := h.links
  reports := by
    refine Nat.le_trans ?_ h.reports
    rw [List.map_map]
    refine List.sum_le_sum fun w _ => ?_
    exact successes_le rfl rfl

theorem Sound.delete (h : Sound s) (hobject : (s.names .object).isSome = true) :
    Sound { s.setName .object none with deletions := s.deletions + 1 } where
  ok j x hj := by
    have hold := h.ok j x hj
    refine ⟨hold.content, fun hlive f hf => ⟨(hold.named hlive f hf).1, fun k hk => ?_⟩, hold.inner⟩
    have hk' : (s.setName .object none).names f.name = some k := hk
    exact (hold.named hlive f hf).2 k (names_setName_none hk')
  apart := h.apart
  object k hk := by
    have hnone : (s.setName .object none).names .object = none := names_setName_self _ _
    cases hnone.symm.trans hk
  writers := h.writers
  links := by
    have hnone : (s.setName .object none).names .object = none := names_setName_self _ _
    have hlinks := h.links
    rw [hobject] at hlinks
    change s.linkedBy.length =
      s.deletions + 1 + ((s.setName .object none).names .object).isSome.toNat
    rw [hnone, hlinks]
    rfl
  reports := h.reports

theorem Sound.sweep (h : Sound s) (nanos : Int) (counter : Nat) :
    Sound (s.setName (.temp nanos counter) none) where
  ok j x hj := by
    have hold := h.ok j x hj
    exact ⟨hold.content, fun hlive f hf => ⟨(hold.named hlive f hf).1,
      fun k hk => (hold.named hlive f hf).2 k (names_setName_none hk)⟩, hold.inner⟩
  apart := h.apart
  object k hk := h.object k (object_setName nanos counter none ▸ hk)
  writers := h.writers
  links := by
    rw [object_setName]
    exact h.links
  reports := h.reports

theorem sound_initial : Sound {} where
  ok _ _ hi := nomatch hi
  apart _ _ _ _ hi := nomatch hi
  object _ hk := nomatch hk
  writers _ hi := nomatch hi
  links := rfl
  reports := Nat.le_refl _

theorem Sound.step {e : FsEvent} (h : Sound s) (hs : s.step e = some t) : Sound t := by
  cases e with
  | store data fileSizeLimit lineNumLimit =>
    cases hs
    exact h.spawn _ rfl rfl rfl rfl
  | openStream =>
    cases hs
    exact h.spawn _ rfl rfl rfl rfl
  | step i env =>
    obtain ⟨w, hi, hs⟩ := Option.bind_eq_some_iff.1 hs
    exact h.stepWriter hi hs
  | write i chunk accepted =>
    obtain ⟨w, hi, hs⟩ := Option.bind_eq_some_iff.1 hs
    exact h.streamWrite hi hs
  | commit i | abort i =>
    obtain ⟨w, hi, hs⟩ := Option.bind_eq_some_iff.1 hs
    obtain ⟨hphase, rfl⟩ := of_guarded hs
    have hinner := (h.ok i w hi).inner
    exact h.setPhase hi (ne_crashed hphase nofun) rfl (hinner.settle ⟨nofun, nofun, nofun⟩
      (fun _ hf => .inr hf) (fun _ => hinner.streaming (hphase ▸ trivial)) nofun hinner.succeeded)
  | crash i =>
    obtain ⟨w, hi, hs⟩ := Option.bind_eq_some_iff.1 hs
    cases hs
    have hinner := (h.ok i w hi).inner
    exact h.quiet hi rfl rfl (Nat.le_refl _) rfl rfl rfl (fun _ _ _ hk => hk) rfl rfl rfl
      (fun hlive => absurd rfl hlive)
      (hinner.settle ⟨nofun, nofun, nofun⟩ (fun _ hf => .inr hf) nofun nofun hinner.succeeded)
      (successes_le rfl rfl)
  | restart =>
    cases hs
    exact h.restart
  | delete =>
    obtain ⟨hobject, rfl⟩ := of_guarded hs
    exact h.delete hobject
  | sweep nanos counter =>
    cases hs
    exact h.sweep nanos counter

end FileSystem
end BatchGateway
