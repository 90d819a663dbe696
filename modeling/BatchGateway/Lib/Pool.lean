import BatchGateway.Lib.Run
import BatchGateway.Lib.Prog
import Mathlib.Algebra.BigOperators.Group.List.Basic
import Mathlib.Tactic.Abel

/-! Pools of concurrently running programs over a shared world. A step is one call of one thread,
the start of a new thread or the crash of a running one. -/
namespace Interleaving

/-- What a pool runs: how the world answers a call in a given environment, which threads it lets
start, and the program each of them runs. -/
structure System (W E Γ C : Type) (R : C → Type) (α : Type) where
  perform : E → W → (c : C) → Option (W × R c)
  start : E → W → Γ → Option W
  code : Γ → Prog C R α

/-- A thread keeps its identity; its code is lost in a crash. -/
structure Thread (Γ C : Type) (R : C → Type) (α : Type) where
  who : Γ
  code : Option (Prog C R α)

def Thread.returned {Γ C : Type} {R : C → Type} {α : Type} (t : Thread Γ C R α) : Bool :=
  match t.code with
  | some (.ret _) => true
  | _ => false

theorem Thread.exists_of_returned {Γ C : Type} {R : C → Type} {α : Type} {t : Thread Γ C R α}
    (h : t.returned = true) : ∃ a, t.code = some (.ret a) := by
  unfold returned at h
  split at h
  next a ha => exact ⟨a, ha⟩
  next => cases h

structure Pool (W Γ C : Type) (R : C → Type) (α : Type) where
  world : W
  threads : List (Thread Γ C R α)

/-- The scheduler's choices. -/
inductive Label (E Γ : Type) where
  | spawn (e : E) (g : Γ)
  | run (i : Nat) (e : E)
  | crash (i : Nat)

variable {W E Γ C : Type} {R : C → Type} {α β : Type}

/-- The condition `cond` on the call a step is about to make. -/
def StepCond (cond : W → E → Γ → C → Prop) (p : Pool W Γ C R α) : Label E Γ → Prop
  | .run i e => ∀ g c k, p.threads[i]? = some ⟨g, some (.call c k)⟩ → cond p.world e g c
  | _ => True

instance (cond : W → E → Γ → C → Prop) [∀ w e g c, Decidable (cond w e g c)]
    (p : Pool W Γ C R α) : (l : Label E Γ) → Decidable (StepCond cond p l)
  | .spawn .. => isTrue trivial
  | .crash _ => isTrue trivial
  | .run i e =>
    match h : p.threads[i]? with
    | some ⟨g, some (.call c k)⟩ => decidable_of_iff (cond p.world e g c)
        ⟨fun hc _ _ _ h' => by cases h.symm.trans h'; exact hc, fun hall => hall g c k h⟩
    | some ⟨_, some (.ret _)⟩ => isTrue fun _ _ _ h' => by cases h.symm.trans h'
    | some ⟨_, none⟩ => isTrue fun _ _ _ h' => by cases h.symm.trans h'
    | none => isTrue fun _ _ _ h' => by cases h.symm.trans h'

namespace System

variable (S : System W E Γ C R α) {p q : Pool W Γ C R α}

def step (p : Pool W Γ C R α) : Label E Γ → Option (Pool W Γ C R α)
  | .spawn e g => (S.start e p.world g).map fun w => ⟨w, p.threads ++ [⟨g, some (S.code g)⟩]⟩
  | .run i e =>
    match p.threads[i]? with
    | some ⟨g, some (.call c k)⟩ =>
      (S.perform e p.world c).map fun (w, r) => ⟨w, p.threads.set i ⟨g, some (k r)⟩⟩
    | _ => none
  | .crash i =>
    match p.threads[i]? with
    | some ⟨g, some _⟩ => some { p with threads := p.threads.set i ⟨g, none⟩ }
    | _ => none

/-- Everything a pool step can do. -/
inductive Steps (p : Pool W Γ C R α) : Label E Γ → Pool W Γ C R α → Prop
  | spawn (e : E) (g : Γ) (w : W) (hw : S.start e p.world g = some w) :
    Steps p (.spawn e g) ⟨w, p.threads ++ [⟨g, some (S.code g)⟩]⟩
  | run (i : Nat) (e : E) (g : Γ) (c : C) (k : R c → Prog C R α) (w : W) (r : R c)
    (hi : p.threads[i]? = some ⟨g, some (.call c k)⟩) (hp : S.perform e p.world c = some (w, r)) :
    Steps p (.run i e) ⟨w, p.threads.set i ⟨g, some (k r)⟩⟩
  | crash (i : Nat) (g : Γ) (m : Prog C R α) (hi : p.threads[i]? = some ⟨g, some m⟩) :
    Steps p (.crash i) ⟨p.world, p.threads.set i ⟨g, none⟩⟩

theorem step_cases {l : Label E Γ} (h : S.step p l = some q) : S.Steps p l q := by
  cases l with
  | spawn e g =>
    simp only [step, Option.map_eq_some_iff] at h
    obtain ⟨w, hw, rfl⟩ := h
    exact .spawn e g w hw
  | run i e =>
    simp only [step] at h
    split at h
    next g c k hi =>
      simp only [Option.map_eq_some_iff, Prod.exists] at h
      obtain ⟨w, r, hw, rfl⟩ := h
      exact .run i e g c k w r hi hw
    next => cases h
  | crash i =>
    simp only [step] at h
    split at h
    next g m hi =>
      cases h
      exact .crash i g m hi
    next => cases h

end System

variable {τ : Type} {l : List τ} {a : τ}

/-- A lookup in an updated list finds the new element or an old one elsewhere. -/
theorem getElem?_set_cases {i j : Nat} {b : τ} (h : (l.set i a)[j]? = some b) :
    (j = i ∧ b = a) ∨ (j ≠ i ∧ l[j]? = some b) := by
  rw [List.getElem?_set] at h
  split at h
  next hij =>
    split at h
    · cases h
      exact .inl ⟨hij.symm, rfl⟩
    · cases h
  next hij => exact .inr ⟨fun hji => hij hji.symm, h⟩

/-- Changing one element of a list changes its own part of a sum. -/
theorem sum_map_set {M : Type} [AddCommMonoid M] (f : τ → M) {k : Nat} (h : l[k]? = some a)
    (a' : τ) : ((l.set k a').map f).sum + f a = (l.map f).sum + f a' := by
  induction l generalizing k with
  | nil => simp at h
  | cons b l ih =>
    cases k with
    | zero =>
      cases h
      simp only [List.set_cons_zero, List.map_cons, List.sum_cons]
      abel
    | succ k =>
      simp only [List.set_cons_succ, List.map_cons, List.sum_cons, add_assoc, ih h]

theorem getElem?_snoc_cases {j : Nat} {b : τ} (h : (l ++ [a])[j]? = some b) :
    (j = l.length ∧ b = a) ∨ (j < l.length ∧ l[j]? = some b) := by
  rcases Nat.lt_trichotomy j l.length with hj | hj | hj
  · rw [List.getElem?_append_left hj] at h
    exact .inr ⟨hj, h⟩
  · subst hj
    simp at h
    exact .inl ⟨rfl, h.symm⟩
  · rw [List.getElem?_eq_none (by simp; omega)] at h
    cases h

variable {S : System W E Γ C R α} {p q : Pool W Γ C R α}

/-- A step removes no thread and renames none. -/
theorem who_step {l : Label E Γ} {t : Thread Γ C R α} (hs : S.step p l = some q)
    (ht : t ∈ p.threads) :
    ∃ t' ∈ q.threads, t'.who = t.who := by
  have hset : ∀ (i : Nat) (g : Γ) (m m' : Option (Prog C R α)), p.threads[i]? = some ⟨g, m⟩ →
      ∃ t' ∈ p.threads.set i ⟨g, m'⟩, t'.who = t.who := by
    intro i g m m' hi
    obtain ⟨j, hj⟩ := List.mem_iff_getElem?.1 ht
    by_cases hij : i = j
    · subst hij
      cases hi.symm.trans hj
      obtain ⟨hlt, -⟩ := List.getElem?_eq_some_iff.1 hi
      exact ⟨⟨g, m'⟩, List.mem_iff_getElem?.2 ⟨i, by simp [hlt]⟩, rfl⟩
    · exact ⟨t, List.mem_iff_getElem?.2 ⟨j, by simp [hij, hj]⟩, rfl⟩
  rcases S.step_cases hs with ⟨e, g, w, -⟩ | ⟨i, e, g, c, k, w, r, hi, -⟩ | ⟨i, g, m, hi⟩
  · exact ⟨t, List.mem_append_left _ ht, rfl⟩
  · exact hset i g _ _ hi
  · exact hset i g _ _ hi

/-- Changing one element of a list without changing what is looked at. -/
theorem map_set_of_eq {υ : Type} {f : τ → υ} {i : Nat} {a' : τ} (hi : l[i]? = some a)
    (h : f a' = f a) : (l.set i a').map f = l.map f := by
  obtain ⟨hlt, rfl⟩ := List.getElem?_eq_some_iff.1 hi
  rw [List.map_set, h]
  apply List.ext_getElem?
  intro j
  rw [List.getElem?_set]
  split
  next hij =>
    subst hij
    simp [hlt]
  next => rfl

theorem map_who_set {ts : List (Thread Γ C R α)} {i : Nat} {g : Γ} {m m' : Option (Prog C R α)}
    (hi : ts[i]? = some ⟨g, m⟩) : (ts.set i ⟨g, m'⟩).map Thread.who = ts.map Thread.who :=
  map_set_of_eq hi rfl

/-- The threads of a pool by name: a step adds at most one. -/
theorem map_who_step {l : Label E Γ} (hs : S.step p l = some q) :
    q.threads.map Thread.who = p.threads.map Thread.who ∨
      ∃ g, q.threads.map Thread.who = p.threads.map Thread.who ++ [g] := by
  rcases S.step_cases hs with ⟨e, g, w, -⟩ | ⟨i, e, g, c, k, w, r, hi, -⟩ | ⟨i, g, m, hi⟩
  · exact .inr ⟨g, by simp⟩
  · exact .inl (map_who_set hi)
  · exact .inl (map_who_set hi)

/-! ### Counting threads -/

section Tally

variable {P : Thread Γ C R α → Prop} {ts : List (Thread Γ C R α)} {t t' : Thread Γ C R α} {i : Nat}

/-- The number of threads with a property. -/
noncomputable def tally (P : Thread Γ C R α → Prop) (ts : List (Thread Γ C R α)) : Nat :=
  open Classical in ts.countP fun t => decide (P t)

theorem tally_eq_zero (h : ∀ t ∈ ts, ¬ P t) : tally P ts = 0 := by
  simpa [tally, List.countP_eq_zero] using h

theorem tally_snoc_le (P : Thread Γ C R α → Prop) (ts : List (Thread Γ C R α))
    (t : Thread Γ C R α) : tally P (ts ++ [t]) ≤ tally P ts + 1 := by
  unfold tally
  rw [List.countP_append, List.countP_singleton]
  split <;> omega

theorem tally_snoc_of_not (h : ¬ P t) : tally P (ts ++ [t]) = tally P ts := by
  simp [tally, h]

/-- A thread that changes without gaining the property. -/
theorem tally_set_le (hi : ts[i]? = some t) (h : P t' → P t) :
    tally P (ts.set i t') ≤ tally P ts := by
  obtain ⟨hlt, rfl⟩ := List.getElem?_eq_some_iff.1 hi
  unfold tally
  rw [List.countP_set hlt]
  by_cases ht : P ts[i]
  · have hpos : 0 < ts.countP fun t => open Classical in decide (P t) :=
      List.countP_pos_iff.2 ⟨ts[i], List.getElem_mem hlt, by simpa using ht⟩
    simp only [ht, decide_true, if_true]
    split <;> omega
  · have ht' : ¬ P t' := fun h' => ht (h h')
    simp [ht, ht']

/-- A thread that loses the property. -/
theorem tally_set_lt (hi : ts[i]? = some t) (h : P t) (h' : ¬ P t') :
    tally P (ts.set i t') < tally P ts := by
  obtain ⟨hlt, rfl⟩ := List.getElem?_eq_some_iff.1 hi
  unfold tally
  have hpos : 0 < ts.countP fun t => open Classical in decide (P t) :=
    List.countP_pos_iff.2 ⟨ts[i], List.getElem_mem hlt, by simpa using h⟩
  rw [List.countP_set hlt]
  simp only [h, h', decide_true, decide_false, if_true, Bool.false_eq_true, if_false]
  omega

end Tally

/-- Thread `i` of a selected kind may already return a value outside `Q` without further events. -/
def Loud (sel : Γ → Prop) (ev : Γ → (c : C) → R c → Prop) (Q : α → Prop) (p : Pool W Γ C R α)
    (i : Nat) : Prop :=
  ∃ g m, p.threads[i]? = some ⟨g, some m⟩ ∧ sel g ∧ ¬ Prog.Quiet (ev g) Q m

/-- A thread becomes loud only by an event of its own. -/
theorem loud_step {l : Label E Γ} {sel : Γ → Prop} {ev : Γ → (c : C) → R c → Prop} {Q : α → Prop}
    {j : Nat} (hinit : ∀ g, sel g → Prog.Quiet (ev g) Q (S.code g)) (hs : S.step p l = some q)
    (hj : Loud sel ev Q q j) :
    Loud sel ev Q p j ∨ ∃ e g c k r, l = .run j e ∧ p.threads[j]? = some ⟨g, some (.call c k)⟩ ∧
      sel g ∧ S.perform e p.world c = some (q.world, r) ∧ ev g c r := by
  obtain ⟨g, m, hj, hg, hm⟩ := hj
  rcases S.step_cases hs with ⟨e, g', w, hw⟩ | ⟨i, e, g', c, k, w, r, hi, hp⟩ | ⟨i, g', m', hi⟩
  · rcases getElem?_snoc_cases hj with ⟨-, heq⟩ | ⟨-, hj⟩
    · cases heq
      exact absurd (hinit g hg) hm
    · exact .inl ⟨g, m, hj, hg, hm⟩
  · rcases getElem?_set_cases hj with ⟨rfl, heq⟩ | ⟨-, hj⟩
    · cases heq
      by_cases hev : ev g c r
      · exact .inr ⟨e, g, c, k, r, rfl, hi, hg, hp, hev⟩
      · exact .inl ⟨g, .call c k, hi, hg, fun hq => hm (hq r hev)⟩
    · exact .inl ⟨g, m, hj, hg, hm⟩
  · rcases getElem?_set_cases hj with ⟨-, heq⟩ | ⟨-, hj⟩
    · cases heq
    · exact .inl ⟨g, m, hj, hg, hm⟩

end Interleaving
