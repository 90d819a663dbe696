import Mathlib.Data.List.Perm.Subperm
import Mathlib.Data.Set.Insert
import Mathlib.Logic.Function.Basic
import Mathlib.Order.Basic

/-! At-least-once delivery of an ordered log to subscribers that replace one another. A batch selects
the first visible entries of the log for one subscriber and puts them one after another while that
subscriber is the current one; afterwards an acknowledgement may remove what was put. Entries may
expire. -/
namespace Relay

/-- A batch: its subscriber, the entries that were put, and those still to be put. -/
structure Batch where
  sub : Nat
  accepted : List Nat
  rest : List Nat

structure State where
  log : List Nat
  visible : Set Nat
  removed : Set Nat
  expired : Set Nat
  current : Option Nat
  sent : Nat → List Nat
  batch : Nat → Option Batch

/-- The entries that a batch may select: the first visible ones, at most `c`. -/
structure Selection (c : Nat) (visible : Set Nat) (rest : List Nat) : Prop where
  increasing : rest.Pairwise (· < ·)
  shown : ∀ e ∈ rest, e ∈ visible
  closed : ∀ e ∈ rest, ∀ n ∈ visible, n < e → n ∈ rest
  length : rest.length ≤ c

/-- The first entries of a sorted list are a selection of it. -/
theorem Selection.take {c limit : Nat} {entries : List Nat} (h : entries.Pairwise (· < ·))
    (hlimit : limit ≤ c) : Selection c { n | n ∈ entries } (entries.take limit) := by
  refine ⟨h.sublist (List.take_sublist ..), fun e he => List.mem_of_mem_take he,
    fun e he n hn hlt => ?_, (List.length_take_le ..).trans hlimit⟩
  have hn' : n ∈ entries.take limit ++ entries.drop limit := by
    rw [List.take_append_drop]
    exact hn
  rw [← List.take_append_drop limit entries] at h
  rcases List.mem_append.1 hn' with hn' | hn'
  · exact hn'
  · have := (List.pairwise_append.1 h).2.2 e he n hn'
    omega

theorem mem_take_or_length {limit n : Nat} {entries : List Nat} (h : n ∈ entries) :
    n ∈ entries.take limit ∨ limit ≤ (entries.take limit).length := by
  rw [← List.take_append_drop limit entries] at h
  rcases List.mem_append.1 h with hn | hn
  · exact .inl hn
  · have hpos := List.length_pos_of_mem hn
    rw [List.length_drop] at hpos
    rw [List.length_take]
    omega

inductive Step (c : Nat) (s : State) : State → Prop where
  /-- Entries are added at the end of the log, and entries expire. -/
  | extend {added : List Nat} {visible expired : Set Nat}
      (hincreasing : added.Pairwise (· < ·)) (hadded : ∀ m ∈ s.log, ∀ n ∈ added, m < n)
      (hvisible : ∀ n ∈ visible, n ∈ s.visible ∨ n ∈ added) (hexpired : s.expired ⊆ expired)
      (hsettled : ∀ n, n ∈ s.visible ∨ n ∈ added → n ∈ visible ∨ n ∈ expired) :
      Step c s { s with log := s.log ++ added, visible, expired }
  | subscribe {k : Nat} (hnew : s.sent k = [])
      (hfree : ∀ i b, s.batch i = some b → b.sub ≠ k) : Step c s { s with current := some k }
  | unsubscribe : Step c s { s with current := none }
  | select {i k : Nat} {rest : List Nat} (hi : s.batch i = none)
      (hfree : ∀ j b, s.batch j = some b → b.sub ≠ k) (hselection : Selection c s.visible rest)
      (hfull : s.sent k = [] → ∀ n ∈ s.visible, n ∈ rest ∨ c ≤ rest.length) :
      Step c s { s with batch := Function.update s.batch i (some ⟨k, [], rest⟩) }
  | put {i k e : Nat} {accepted rest : List Nat} (hi : s.batch i = some ⟨k, accepted, e :: rest⟩)
      (hcurrent : s.current = some k) :
      Step c s { s with
        sent := Function.update s.sent k (s.sent k ++ [e])
        batch := Function.update s.batch i (some ⟨k, accepted ++ [e], rest⟩) }
  /-- A batch ends: all was put, or its subscriber is not the current one. -/
  | drop {i : Nat} {b : Batch} (hi : s.batch i = some b)
      (hrest : b.rest = [] ∨ s.current ≠ some b.sub) :
      Step c s { s with batch := Function.update s.batch i none }
  | ack {i k : Nat} {accepted : List Nat} {visible removed : Set Nat}
      (hi : s.batch i = some ⟨k, accepted, []⟩)
      (hvisible : ∀ n, n ∈ visible ↔ n ∈ s.visible ∧ n ∉ accepted) (hkept : s.removed ⊆ removed)
      (hremoved : ∀ n ∈ removed, n ∈ s.removed ∨ n ∈ accepted)
      (hgone : ∀ n ∈ accepted, n ∈ s.visible → n ∈ removed) :
      Step c s { s with visible, removed, batch := Function.update s.batch i none }

namespace State

/-- What a subscriber got, or is to get from the batch that is under way. -/
def covered (s : State) (k : Nat) : Set Nat :=
  { n | n ∈ s.sent k ∨ ∃ i b, s.batch i = some b ∧ b.sub = k ∧ n ∈ b.rest }

/-- What holds of a batch. -/
structure BatchOk (c : Nat) (s : State) (b : Batch) : Prop where
  known : ∀ e ∈ b.accepted ++ b.rest, e ∈ s.log
  increasing : (b.accepted ++ b.rest).Pairwise (· < ·)
  length : (b.accepted ++ b.rest).length ≤ c
  /-- No visible entry is left out before an entry of the batch. -/
  closed : ∀ e ∈ b.accepted ++ b.rest, ∀ n ∈ s.visible, n < e → n ∈ b.accepted ++ b.rest
  accepted : ∀ e ∈ b.accepted, e ∈ s.sent b.sub
  next : ∀ e ∈ b.rest, e ∈ s.sent b.sub ∨ ∀ m ∈ s.sent b.sub, m < e

/-- What holds of what a subscriber got. -/
structure SentOk (s : State) (k : Nat) : Prop where
  known : ∀ n ∈ s.sent k, n ∈ s.log
  reach : ∀ n ∈ s.sent k, ∀ m ∈ s.visible, m < n → m ∈ s.sent k
  /-- First occurrences come in increasing order. -/
  ordered : ∀ p n q, s.sent k = p ++ n :: q → n ∉ p → ∀ m ∈ p, m < n
  /-- Between two entries that the subscriber got nothing is skipped, unless it expired. -/
  solid : ∀ f ∈ s.sent k, ∀ n ∈ s.sent k, ∀ m ∈ s.log, f ≤ m → m ≤ n →
    m ∈ s.sent k ∨ m ∈ s.expired

/-- What holds of the current subscriber. -/
structure CurrentOk (s : State) (k : Nat) : Prop where
  pending : ∀ i b, s.batch i = some b → b.sub ≠ k → ∀ m ∈ b.accepted, m ∈ s.visible →
    (∃ x, x ∈ s.covered k) → m ∈ s.covered k
  gone : ∀ m ∈ s.removed, m ∈ s.expired ∨ m ∈ s.covered k ∨ ∀ x ∈ s.covered k, m < x

structure Sound (c : Nat) (s : State) : Prop where
  increasing : s.log.Pairwise (· < ·)
  visible : ∀ n ∈ s.visible, n ∈ s.log
  removed : ∀ n ∈ s.removed, n ∈ s.log
  settled : ∀ n ∈ s.log, n ∈ s.visible ∨ n ∈ s.removed ∨ n ∈ s.expired
  /-- What is visible is beyond all that was removed. -/
  below : ∀ m ∈ s.removed, ∀ n ∈ s.visible, m < n
  batches : ∀ i b, s.batch i = some b → BatchOk c s b
  apart : ∀ i j b b', s.batch i = some b → s.batch j = some b' → b.sub = b'.sub → i = j
  subs : ∀ k, SentOk s k
  current : ∀ k, s.current = some k → CurrentOk s k

variable {c : Nat} {s : State} {visible : Set Nat}

theorem Sound.extend (h : Sound c s) {added : List Nat} {expired : Set Nat}
    (hincreasing : added.Pairwise (· < ·)) (hadded : ∀ m ∈ s.log, ∀ n ∈ added, m < n)
    (hvisible : ∀ n ∈ visible, n ∈ s.visible ∨ n ∈ added) (hexpired : s.expired ⊆ expired)
    (hsettled : ∀ n, n ∈ s.visible ∨ n ∈ added → n ∈ visible ∨ n ∈ expired) :
    Sound c { s with log := s.log ++ added, visible, expired } := by
  have hold : ∀ n ∈ visible, ∀ m ∈ s.log, n ≤ m → n ∈ s.visible := by
    intro n hn m hm hle
    rcases hvisible n hn with hn | hn
    · exact hn
    · have := hadded m hm n hn
      omega
  refine ⟨List.pairwise_append.2 ⟨h.increasing, hincreasing, hadded⟩, fun n hn => ?_, fun n hn => ?_,
    fun n hn => ?_, fun m hm n hn => ?_, fun i b hb => ?_, h.apart, fun k => ?_, fun k hk => ?_⟩
  · rcases hvisible n hn with hn | hn
    · exact List.mem_append_left _ (h.visible n hn)
    · exact List.mem_append_right _ hn
  · exact List.mem_append_left _ (h.removed n hn)
  · rcases List.mem_append.1 hn with hn | hn
    · rcases h.settled n hn with hv | hr | he
      · exact (hsettled n (.inl hv)).imp_right .inr
      · exact .inr (.inl hr)
      · exact .inr (.inr (hexpired he))
    · exact (hsettled n (.inr hn)).imp_right .inr
  · rcases hvisible n hn with hn | hn
    · exact h.below m hm n hn
    · exact hadded m (h.removed m hm) n hn
  · have hok := h.batches i b hb
    refine ⟨fun e he => List.mem_append_left _ (hok.known e he), hok.increasing, hok.length,
      fun e he n hn hlt => ?_, hok.accepted, hok.next⟩
    exact hok.closed e he n (hold n hn e (hok.known e he) hlt.le) hlt
  · have hok := h.subs k
    refine ⟨fun n hn => List.mem_append_left _ (hok.known n hn), fun n hn m hm hlt => ?_, hok.ordered,
      fun f hf n hn m hm hfm hmn => ?_⟩
    · exact hok.reach n hn m (hold m hm n (hok.known n hn) hlt.le) hlt
    · rcases List.mem_append.1 hm with hm | hm
      · exact (hok.solid f hf n hn m hm hfm hmn).imp_right (@hexpired m)
      · have := hadded n (hok.known n hn) m hm
        omega
  · have hok := h.current k hk
    refine ⟨fun i b hb hne m hm hv => ?_, fun m hm => (hok.gone m hm).imp_left (@hexpired m)⟩
    have hm' := (h.batches i b hb).known m (List.mem_append_left _ hm)
    exact hok.pending i b hb hne m hm (hold m hv m hm' (Nat.le_refl m))

variable {k : Nat}

/-- A new subscriber got nothing yet. -/
theorem Sound.subscribe (h : Sound c s) (hnew : s.sent k = [])
    (hfree : ∀ i b, s.batch i = some b → b.sub ≠ k) : Sound c { s with current := some k } := by
  have hempty : ∀ x, x ∉ s.covered k := by
    rintro x (hx | ⟨i, b, hb, hk, -⟩)
    · rw [hnew] at hx
      cases hx
    · exact hfree i b hb hk
  refine ⟨h.increasing, h.visible, h.removed, h.settled, h.below, fun i b hb => ?_, h.apart,
    fun k => ?_, fun k' hk' => ?_⟩
  · have hok := h.batches i b hb
    exact ⟨hok.known, hok.increasing, hok.length, hok.closed, hok.accepted, hok.next⟩
  · have hok := h.subs k
    exact ⟨hok.known, hok.reach, hok.ordered, hok.solid⟩
  · cases hk'
    exact ⟨fun i b hb hne m hm hv ⟨x, hx⟩ => absurd hx (hempty x),
      fun m hm => .inr (.inr fun x hx => absurd hx (hempty x))⟩

theorem Sound.unsubscribe (h : Sound c s) : Sound c { s with current := none } := by
  refine ⟨h.increasing, h.visible, h.removed, h.settled, h.below, fun i b hb => ?_, h.apart,
    fun k => ?_, nofun⟩
  · have hok := h.batches i b hb
    exact ⟨hok.known, hok.increasing, hok.length, hok.closed, hok.accepted, hok.next⟩
  · have hok := h.subs k
    exact ⟨hok.known, hok.reach, hok.ordered, hok.solid⟩

variable {i : Nat} {b : Batch}

theorem update_cases {j : Nat} {v : Option Batch} (h : Function.update s.batch i v j = some b) :
    j = i ∧ v = some b ∨ j ≠ i ∧ s.batch j = some b := by
  by_cases hj : j = i
  · subst hj
    rw [Function.update_self] at h
    exact .inl ⟨rfl, h⟩
  · rw [Function.update_of_ne hj] at h
    exact .inr ⟨hj, h⟩

/-- A first selection takes all that the earlier subscribers were sent and is still visible. -/
theorem BatchOk.selected {rest : List Nat} (hb : BatchOk c s b) (h : Selection c s.visible rest)
    {m : Nat} (hm : m ∈ b.accepted) (hv : m ∈ s.visible)
    (hfull : ∀ n ∈ s.visible, n ∈ rest ∨ c ≤ rest.length) : m ∈ rest := by
  by_contra hnot
  have hmem : m ∈ b.accepted ++ b.rest := List.mem_append_left _ hm
  have hlt : ∀ e ∈ rest, e < m := by
    intro e he
    have hne : e ≠ m := fun heq => hnot (heq ▸ he)
    have hle : ¬ m < e := fun hlt => hnot (h.closed e he m hv hlt)
    omega
  have hsub : m :: rest ⊆ b.accepted ++ b.rest := by
    intro e he
    rcases List.mem_cons.1 he with rfl | he
    · exact hmem
    · exact hb.closed m hmem e (h.shown e he) (hlt e he)
  have hnodup : (m :: rest).Nodup := by
    refine List.nodup_cons.2 ⟨hnot, h.increasing.imp fun hab => ?_⟩
    exact Nat.ne_of_lt hab
  have hle := (List.subperm_of_subset hnodup hsub).length_le
  have hlen := hb.length
  rw [List.length_cons] at hle
  rcases hfull m hv with hin | hin
  · exact hnot hin
  · omega

theorem Sound.select (h : Sound c s) {rest : List Nat} (hi : s.batch i = none)
    (hfree : ∀ j b, s.batch j = some b → b.sub ≠ k) (hselection : Selection c s.visible rest)
    (hfull : s.sent k = [] → ∀ n ∈ s.visible, n ∈ rest ∨ c ≤ rest.length) :
    Sound c { s with batch := Function.update s.batch i (some ⟨k, [], rest⟩) } := by
  have hcovered : ∀ k' x, x ∈ s.covered k' →
      x ∈ covered { s with batch := Function.update s.batch i (some ⟨k, [], rest⟩) } k' := by
    rintro k' x (hx | ⟨j, b, hb, hbk, hx⟩)
    · exact .inl hx
    · refine .inr ⟨j, b, ?_, hbk, hx⟩
      have hj : j ≠ i := by
        rintro rfl
        rw [hi] at hb
        cases hb
      exact (Function.update_of_ne hj _ s.batch).trans hb
  have hcovers : ∀ k' x,
      x ∈ covered { s with batch := Function.update s.batch i (some ⟨k, [], rest⟩) } k' →
      x ∈ s.covered k' ∨ k' = k ∧ x ∈ rest := by
    rintro k' x (hx | ⟨j, b, hb, hbk, hx⟩)
    · exact .inl (.inl hx)
    · rcases update_cases hb with ⟨-, heq⟩ | ⟨-, hb⟩
      · cases heq
        exact .inr ⟨hbk.symm, hx⟩
      · exact .inl (.inr ⟨j, b, hb, hbk, hx⟩)
  refine ⟨h.increasing, h.visible, h.removed, h.settled, h.below, fun j b hb => ?_,
    fun j j' b b' hb hb' heq => ?_, fun k' => ?_, fun k' hk' => ⟨?_, fun m hm => ?_⟩⟩
  · rcases update_cases hb with ⟨-, heq⟩ | ⟨-, hb⟩
    · cases heq
      refine ⟨fun e he => h.visible e (hselection.shown e he), hselection.increasing,
        hselection.length, hselection.closed, nofun, fun e he => ?_⟩
      by_cases hsent : e ∈ s.sent k
      · exact .inl hsent
      · refine .inr fun m hm => ?_
        have hne : m ≠ e := fun heq => hsent (heq ▸ hm)
        have hle : ¬ e < m := fun hlt => hsent ((h.subs k).reach m hm e (hselection.shown e he) hlt)
        omega
    · have hok := h.batches j b hb
      exact ⟨hok.known, hok.increasing, hok.length, hok.closed, hok.accepted, hok.next⟩
  · rcases update_cases hb with ⟨hj, hbeq⟩ | ⟨-, hb⟩ <;>
      rcases update_cases hb' with ⟨hj', hbeq'⟩ | ⟨-, hb'⟩
    · rw [hj, hj']
    · cases hbeq
      exact absurd heq.symm (hfree j' b' hb')
    · cases hbeq'
      exact absurd heq (hfree j b hb)
    · exact h.apart j j' b b' hb hb' heq
  · have hok := h.subs k'
    exact ⟨hok.known, hok.reach, hok.ordered, hok.solid⟩
  · rintro j b hb hne m hm hv ⟨x, hx⟩
    rcases update_cases hb with ⟨-, heq⟩ | ⟨-, hbj⟩
    · cases heq
      cases hm
    · by_cases hsome : ∃ x, x ∈ s.covered k'
      · exact hcovered k' m ((h.current k' hk').pending j b hbj hne m hm hv hsome)
      · rcases hcovers k' x hx with hx | ⟨rfl, -⟩
        · exact absurd ⟨x, hx⟩ hsome
        · -- The subscriber got nothing yet, so that its selection is a full one.
          have hnone : s.sent k' = [] :=
            List.eq_nil_iff_forall_not_mem.2 fun y hy => hsome ⟨y, .inl hy⟩
          have hrest := (h.batches j b hbj).selected hselection hm hv (hfull hnone)
          exact .inr ⟨i, _, Function.update_self .., rfl, hrest⟩
  · rcases (h.current k' hk').gone m hm with he | hc | hlt
    · exact .inl he
    · exact .inr (.inl (hcovered k' m hc))
    · refine .inr (.inr fun x hx => ?_)
      rcases hcovers k' x hx with hx | ⟨-, hx⟩
      · exact hlt x hx
      · exact h.below m hm x (hselection.shown x hx)

section Put

variable {i k e : Nat} {accepted rest : List Nat}

theorem BatchOk.head_lt (h : BatchOk c s ⟨k, accepted, e :: rest⟩) : ∀ m ∈ rest, e < m :=
  (List.pairwise_cons.1 (List.pairwise_append.1 h.increasing).2.1).1

/-- The visible entries before the next one were all put. -/
theorem BatchOk.before (h : BatchOk c s ⟨k, accepted, e :: rest⟩) {m : Nat} (hv : m ∈ s.visible)
    (hlt : m < e) : m ∈ s.sent k := by
  have hmem := h.closed e (List.mem_append_right _ List.mem_cons_self) m hv hlt
  rcases List.mem_append.1 hmem with hm | hm
  · exact h.accepted m hm
  · rcases List.mem_cons.1 hm with rfl | hm
    · exact absurd hlt (lt_irrefl m)
    · have := h.head_lt m hm
      omega

section

variable (h : Sound c s) (hi : s.batch i = some ⟨k, accepted, e :: rest⟩)
include h hi

/-- All entries between one that the subscriber got and the next one were put, or expired. -/
theorem Sound.between (hcurrent : s.current = some k) {f m : Nat} (hf : f ∈ s.sent k ∨ f = e)
    (hm : m ∈ s.log) (hfm : f ≤ m) (hme : m < e) : m ∈ s.sent k ∨ m ∈ s.expired := by
  have hok := h.batches i _ hi
  rcases h.settled m hm with hv | hr | he
  · exact .inl (hok.before hv hme)
  · rcases (h.current k hcurrent).gone m hr with he | hc | hlt
    · exact .inr he
    · rcases hc with hc | ⟨j, b, hb, hbk, hrest⟩
      · exact .inl hc
      · have hji : j = i := h.apart j i b _ hb hi hbk
        subst hji
        cases hb.symm.trans hi
        rcases List.mem_cons.1 hrest with rfl | hrest
        · exact absurd hme (lt_irrefl m)
        · have := hok.head_lt m hrest
          omega
    · have hcov : f ∈ s.covered k := by
        rcases hf with hf | rfl
        · exact .inl hf
        · exact .inr ⟨i, _, hi, rfl, List.mem_cons_self⟩
      have := hlt f hcov
      omega
  · exact .inr he

theorem Sound.sent_put (hcurrent : s.current = some k) : SentOk
      { s with
        sent := Function.update s.sent k (s.sent k ++ [e])
        batch := Function.update s.batch i (some ⟨k, accepted ++ [e], rest⟩) } k := by
  have hok := h.batches i _ hi
  have hsub := h.subs k
  have hnext := hok.next e List.mem_cons_self
  have hself : Function.update s.sent k (s.sent k ++ [e]) k = s.sent k ++ [e] :=
    Function.update_self ..
  refine ⟨?_, ?_, ?_, ?_⟩ <;> dsimp only <;> rw [hself]
  · intro n hn
    rcases List.mem_append.1 hn with hn | hn
    · exact hsub.known n hn
    · cases List.mem_singleton.1 hn
      exact hok.known e (List.mem_append_right _ List.mem_cons_self)
  · intro n hn m hm hlt
    refine List.mem_append_left _ ?_
    rcases List.mem_append.1 hn with hn | hn
    · exact hsub.reach n hn m hm hlt
    · cases List.mem_singleton.1 hn
      exact hok.before hm hlt
  · intro p n q heq hnp m hm
    rcases List.eq_nil_or_concat q with rfl | ⟨q', x, rfl⟩
    · obtain ⟨rfl, hen⟩ := List.append_inj' heq rfl
      cases hen
      rcases hnext with hin | hlt
      · exact absurd hin hnp
      · exact hlt m hm
    · have hsplit : s.sent k = p ++ n :: q' := by
        rw [List.concat_eq_append, ← List.cons_append, ← List.append_assoc] at heq
        exact (List.append_inj' heq rfl).1
      exact hsub.ordered p n q' hsplit hnp m hm
  · intro f hf n hn m hm hfm hmn
    have hold : f ∈ s.sent k → n ∈ s.sent k → m ∈ s.sent k ++ [e] ∨ m ∈ s.expired :=
      fun hf hn => (hsub.solid f hf n hn m hm hfm hmn).imp_left (List.mem_append_left _)
    have hf' : f ∈ s.sent k ∨ f = e := by
      rcases List.mem_append.1 hf with hf | hf
      · exact .inl hf
      · exact .inr (List.mem_singleton.1 hf)
    rcases List.mem_append.1 hn with hn | hn
    · rcases hf' with hf | hfe
      · exact hold hf hn
      · rcases hnext with hin | hlt
        · exact hold (hfe ▸ hin) hn
        · have := hlt n hn
          omega
    · cases List.mem_singleton.1 hn
      by_cases hmn' : m = e
      · exact .inl (List.mem_append_right _ (List.mem_singleton.2 hmn'))
      · exact (h.between hi hcurrent hf' hm hfm (by omega)).imp_left (List.mem_append_left _)

/-- A put moves an entry from what is to be put to what was put. -/
theorem covered_put (x : Nat) :
    x ∈ covered
      { s with
        sent := Function.update s.sent k (s.sent k ++ [e])
        batch := Function.update s.batch i (some ⟨k, accepted ++ [e], rest⟩) } k ↔
      x ∈ s.covered k := by
  have hself : Function.update s.sent k (s.sent k ++ [e]) k = s.sent k ++ [e] :=
    Function.update_self ..
  constructor
  · rintro (hx | ⟨j, b, hb, hbk, hx⟩)
    · dsimp only at hx
      rw [hself] at hx
      rcases List.mem_append.1 hx with hx | hx
      · exact .inl hx
      · cases List.mem_singleton.1 hx
        exact .inr ⟨i, _, hi, rfl, List.mem_cons_self⟩
    · rcases update_cases hb with ⟨-, heq⟩ | ⟨-, hb⟩
      · cases heq
        exact .inr ⟨i, _, hi, rfl, List.mem_cons_of_mem _ hx⟩
      · exact .inr ⟨j, b, hb, hbk, hx⟩
  · rintro (hx | ⟨j, b, hb, hbk, hx⟩)
    · refine .inl ?_
      dsimp only
      rw [hself]
      exact List.mem_append_left _ hx
    · have hji : j = i := h.apart j i b _ hb hi hbk
      subst hji
      cases hb.symm.trans hi
      rcases List.mem_cons.1 hx with rfl | hx
      · refine .inl ?_
        dsimp only
        rw [hself]
        exact List.mem_append_right _ (List.mem_singleton.2 rfl)
      · exact .inr ⟨j, _, Function.update_self .., rfl, hx⟩

theorem Sound.put (hcurrent : s.current = some k) : Sound c
      { s with
        sent := Function.update s.sent k (s.sent k ++ [e])
        batch := Function.update s.batch i (some ⟨k, accepted ++ [e], rest⟩) } := by
  have hok := h.batches i _ hi
  have hself : Function.update s.sent k (s.sent k ++ [e]) k = s.sent k ++ [e] :=
    Function.update_self ..
  have hother : ∀ k', k' ≠ k → Function.update s.sent k (s.sent k ++ [e]) k' = s.sent k' :=
    fun k' hk' => Function.update_of_ne hk' ..
  have happend : accepted ++ [e] ++ rest = accepted ++ e :: rest := List.append_assoc ..
  refine ⟨h.increasing, h.visible, h.removed, h.settled, h.below, fun j b hb => ?_,
    fun j j' b b' hb hb' heq => ?_, fun k' => ?_, fun k' hk' => ⟨?_, fun m hm => ?_⟩⟩
  · rcases update_cases hb with ⟨-, heq⟩ | ⟨hj, hb⟩
    · cases heq
      refine ⟨?_, ?_, ?_, ?_, ?_, ?_⟩ <;> dsimp only
      · rw [happend]
        exact hok.known
      · rw [happend]
        exact hok.increasing
      · rw [happend]
        exact hok.length
      · rw [happend]
        exact hok.closed
      · rw [hself]
        intro x hx
        rcases List.mem_append.1 hx with hx | hx
        · exact List.mem_append_left _ (hok.accepted x hx)
        · exact List.mem_append_right _ hx
      · rw [hself]
        intro x hx
        rcases hok.next x (List.mem_cons_of_mem _ hx) with hin | hlt
        · exact .inl (List.mem_append_left _ hin)
        · refine .inr fun m hm => ?_
          rcases List.mem_append.1 hm with hm | hm
          · exact hlt m hm
          · cases List.mem_singleton.1 hm
            exact hok.head_lt x hx
    · have hne : b.sub ≠ k := fun hbk => hj (h.apart j i b _ hb hi hbk)
      have hokj := h.batches j b hb
      refine ⟨hokj.known, hokj.increasing, hokj.length, hokj.closed, ?_, ?_⟩ <;> dsimp only <;>
        rw [hother _ hne]
      · exact hokj.accepted
      · exact hokj.next
  · rcases update_cases hb with ⟨hj, hbeq⟩ | ⟨-, hb⟩ <;>
      rcases update_cases hb' with ⟨hj', hbeq'⟩ | ⟨-, hb'⟩
    · rw [hj, hj']
    · cases hbeq
      rw [hj]
      exact h.apart i j' _ b' hi hb' heq
    · cases hbeq'
      rw [hj']
      exact h.apart j i b _ hb hi heq
    · exact h.apart j j' b b' hb hb' heq
  · by_cases hk' : k' = k
    · subst hk'
      exact h.sent_put hi hcurrent
    · have hsub := h.subs k'
      refine ⟨?_, ?_, ?_, ?_⟩ <;> dsimp only <;> rw [hother k' hk']
      · exact hsub.known
      · exact hsub.reach
      · exact hsub.ordered
      · exact hsub.solid
  · cases hcurrent.symm.trans hk'
    rintro j b hb hne m hm hv ⟨x, hx⟩
    rcases update_cases hb with ⟨-, heq⟩ | ⟨-, hb⟩
    · cases heq
      exact absurd rfl hne
    · refine (covered_put h hi m).2 ?_
      exact (h.current k hcurrent).pending j b hb hne m hm hv ⟨x, (covered_put h hi x).1 hx⟩
  · cases hcurrent.symm.trans hk'
    rcases (h.current k hcurrent).gone m hm with he | hc | hlt
    · exact .inl he
    · exact .inr (.inl ((covered_put h hi m).2 hc))
    · exact .inr (.inr fun x hx => hlt x ((covered_put h hi x).1 hx))

end

end Put

/-- The end of a batch takes nothing from what the current subscriber is to get. -/
theorem covered_drop (hi : s.batch i = some b) (hrest : b.rest = [] ∨ b.sub ≠ k)
    (visible removed : Set Nat) (x : Nat) :
    x ∈ covered { s with visible, removed, batch := Function.update s.batch i none } k ↔
      x ∈ s.covered k := by
  constructor
  · rintro (hx | ⟨j, b', hb', hbk, hx⟩)
    · exact .inl hx
    · rcases update_cases hb' with ⟨-, heq⟩ | ⟨-, hb'⟩
      · cases heq
      · exact .inr ⟨j, b', hb', hbk, hx⟩
  · rintro (hx | ⟨j, b', hb', hbk, hx⟩)
    · exact .inl hx
    · refine .inr ⟨j, b', ?_, hbk, hx⟩
      have hji : j ≠ i := by
        rintro rfl
        cases hi.symm.trans hb'
        rcases hrest with hrest | hrest
        · rw [hrest] at hx
          cases hx
        · exact hrest hbk
      exact (Function.update_of_ne hji _ s.batch).trans hb'

/-- The end of a batch, which may have removed what it put. -/
theorem Sound.finish (h : Sound c s) (hi : s.batch i = some b)
    (hrest : b.rest = [] ∨ s.current ≠ some b.sub) {removed : Set Nat}
    (hvisible : visible ⊆ s.visible) (hremoved : ∀ n ∈ removed, n ∈ s.log)
    (hsettled : ∀ n ∈ s.visible, n ∈ visible ∨ n ∈ removed) (hkept : s.removed ⊆ removed)
    (hbelow : ∀ m ∈ removed, ∀ n ∈ visible, m < n) (hgone : ∀ k, s.current = some k → ∀ m ∈ removed,
      m ∈ s.expired ∨ m ∈ s.covered k ∨ ∀ x ∈ s.covered k, m < x) :
    Sound c { s with visible, removed, batch := Function.update s.batch i none } := by
  have hcovered : ∀ k, s.current = some k → ∀ x,
      x ∈ covered { s with visible, removed, batch := Function.update s.batch i none } k ↔
        x ∈ s.covered k := by
    intro k hk
    refine covered_drop hi (hrest.imp_right fun hne heq => hne ?_) visible removed
    rw [hk, heq]
  have hbatch : ∀ {j b'}, Function.update s.batch i none j = some b' → s.batch j = some b' := by
    intro j b' hb'
    rcases update_cases hb' with ⟨-, heq⟩ | ⟨-, hb'⟩
    · cases heq
    · exact hb'
  refine ⟨h.increasing, fun n hn => h.visible n (hvisible hn), hremoved, fun n hn => ?_, hbelow,
    fun j b' hb' => ?_, fun j j' b b' hb hb' => h.apart j j' b b' (hbatch hb) (hbatch hb'),
    fun k => ?_, fun k hk => ⟨?_, fun m hm => ?_⟩⟩
  · rcases h.settled n hn with hv | hr | he
    · exact (hsettled n hv).imp_right .inl
    · exact .inr (.inl (hkept hr))
    · exact .inr (.inr he)
  · have hok := h.batches j b' (hbatch hb')
    exact ⟨hok.known, hok.increasing, hok.length, fun e he n hn => hok.closed e he n (hvisible hn),
      hok.accepted, hok.next⟩
  · have hok := h.subs k
    exact ⟨hok.known, fun n hn m hm => hok.reach n hn m (hvisible hm), hok.ordered, hok.solid⟩
  · rintro j b' hb' hne m hm hv ⟨x, hx⟩
    refine (hcovered k hk m).2 ?_
    exact (h.current k hk).pending j b' (hbatch hb') hne m hm (hvisible hv)
      ⟨x, (hcovered k hk x).1 hx⟩
  · rcases hgone k hk m hm with he | hc | hlt
    · exact .inl he
    · exact .inr (.inl ((hcovered k hk m).2 hc))
    · exact .inr (.inr fun x hx => hlt x ((hcovered k hk x).1 hx))

theorem Sound.drop (h : Sound c s) (hi : s.batch i = some b)
    (hrest : b.rest = [] ∨ s.current ≠ some b.sub) :
    Sound c { s with batch := Function.update s.batch i none } :=
  h.finish hi hrest (fun _ hn => hn) h.removed (fun _ hn => .inl hn) (fun _ hn => hn) h.below
    fun k hk => (h.current k hk).gone

theorem Sound.ack (h : Sound c s) {accepted : List Nat} {removed : Set Nat}
    (hi : s.batch i = some ⟨k, accepted, []⟩)
    (hvisible : ∀ n, n ∈ visible ↔ n ∈ s.visible ∧ n ∉ accepted) (hkept : s.removed ⊆ removed)
    (hremoved : ∀ n ∈ removed, n ∈ s.removed ∨ n ∈ accepted)
    (hgone : ∀ n ∈ accepted, n ∈ s.visible → n ∈ removed) :
    Sound c { s with visible, removed, batch := Function.update s.batch i none } := by
  have hok := h.batches i _ hi
  have hmem : ∀ {n}, n ∈ accepted → n ∈ accepted ++ [] := fun hn => List.mem_append_left _ hn
  refine h.finish hi (.inl rfl) (fun n hn => ((hvisible n).1 hn).1) (fun n hn => ?_) (fun n hn => ?_)
    hkept (fun m hm n hn => ?_) fun k' hk' m hm => ?_
  · rcases hremoved n hn with hr | ha
    · exact h.removed n hr
    · exact hok.known n (hmem ha)
  · by_cases ha : n ∈ accepted
    · exact .inr (hgone n ha hn)
    · exact .inl ((hvisible n).2 ⟨hn, ha⟩)
  · obtain ⟨hv, hna⟩ := (hvisible n).1 hn
    rcases hremoved m hm with hr | ha
    · exact h.below m hr n hv
    · have hne : n ≠ m := fun heq => hna (heq ▸ ha)
      have hle : ¬ n < m := by
        intro hlt
        have hin := hok.closed m (hmem ha) n hv hlt
        rw [List.append_nil] at hin
        exact hna hin
      omega
  · have hcurrent := h.current k' hk'
    rcases hremoved m hm with hr | ha
    · exact hcurrent.gone m hr
    · by_cases hk : k = k'
      · subst hk
        exact .inr (.inl (.inl (hok.accepted m ha)))
      · rcases h.settled m (hok.known m (hmem ha)) with hv | hr | he
        · by_cases hsome : ∃ x, x ∈ s.covered k'
          · exact .inr (.inl (hcurrent.pending i _ hi hk m ha hv hsome))
          · exact .inr (.inr fun x hx => absurd ⟨x, hx⟩ hsome)
        · exact hcurrent.gone m hr
        · exact .inl he

/-- Nothing was logged yet. -/
theorem sound_empty (hlog : s.log = []) (hvisible : ∀ n, n ∉ s.visible)
    (hremoved : ∀ n, n ∉ s.removed) (hsent : ∀ k, s.sent k = []) (hbatch : ∀ i, s.batch i = none)
    (hcurrent : s.current = none) : Sound c s := by
  have hnobatch : ∀ i b, s.batch i ≠ some b := fun i b hb => by
    rw [hbatch i] at hb
    cases hb
  refine ⟨hlog ▸ .nil, fun n hn => absurd hn (hvisible n), fun n hn => absurd hn (hremoved n), ?_,
    fun m hm => absurd hm (hremoved m), fun i b hb => absurd hb (hnobatch i b),
    fun i _ b _ hb => absurd hb (hnobatch i b), fun k => ⟨?_, ?_, ?_, ?_⟩, fun k hk => ?_⟩
  · rw [hlog]
    nofun
  · rw [hsent]
    nofun
  · rw [hsent]
    nofun
  · rw [hsent]
    intro p n q heq
    exact absurd (congrArg List.length heq) (by simp)
  · rw [hsent]
    nofun
  · rw [hcurrent] at hk
    cases hk

theorem Sound.step {t : State} (h : Sound c s) (hs : Step c s t) : Sound c t := by
  cases hs with
  | extend hincreasing hadded hvisible hexpired hsettled =>
    exact h.extend hincreasing hadded hvisible hexpired hsettled
  | subscribe hnew hfree => exact h.subscribe hnew hfree
  | unsubscribe => exact h.unsubscribe
  | select hi hfree hselection hfull => exact h.select hi hfree hselection hfull
  | put hi hcurrent => exact h.put hi hcurrent
  | drop hi hrest => exact h.drop hi hrest
  | ack hi hvisible hkept hremoved hgone => exact h.ack hi hvisible hkept hremoved hgone

end State
end Relay
