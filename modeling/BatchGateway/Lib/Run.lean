import Mathlib.Data.List.Basic

/-! Finite runs of a deterministic labelled step function, and conditions imposed on each of
their steps. -/
namespace Interleaving

variable {σ α : Type*} {step : σ → α → Option σ} {s t u : σ} {as bs : List α}

/-- Execute a list of labels; `none` as soon as one of them is not enabled. -/
def exec (step : σ → α → Option σ) : σ → List α → Option σ
  | s, [] => some s
  | s, a :: as => (step s a).bind fun t => exec step t as

/-- Every step of the run from `s` is taken in a state that meets `P`. -/
def Along (step : σ → α → Option σ) (P : σ → α → Prop) : σ → List α → Prop
  | _, [] => True
  | s, a :: as => P s a ∧ ∀ t ∈ step s a, Along step P t as

instance (P : σ → α → Prop) [∀ s a, Decidable (P s a)] :
    (s : σ) → (as : List α) → Decidable (Along step P s as)
  | _, [] => isTrue trivial
  | s, a :: as =>
    match h : step s a with
    | none => decidable_of_iff (P s a) (by simp [Along, h])
    | some t =>
      have : Decidable (Along step P t as) := instDecidableAlong P t as
      decidable_of_iff (P s a ∧ Along step P t as) (by simp [Along, h])

/-- A guarded step that was taken. -/
theorem of_guarded {α : Type*} {P : Prop} [Decidable P] {x y : α}
    (h : (if P then some x else none) = some y) : P ∧ x = y := by
  simpa using h

theorem of_unless {α : Type*} {P : Prop} [Decidable P] {x y : α}
    (h : (if P then none else some x) = some y) : ¬ P ∧ x = y := by
  simpa using h

@[simp] theorem exec_nil : exec step s [] = some s := rfl

theorem exec_cons {a : α} : exec step s (a :: as) = some t ↔
    ∃ u, step s a = some u ∧ exec step u as = some t := by
  simp [exec, Option.bind_eq_some_iff]

theorem exec_append : exec step s (as ++ bs) = some t ↔
    ∃ u, exec step s as = some u ∧ exec step u bs = some t := by
  induction as generalizing s with
  | nil => simp
  | cons a as ih =>
    simp only [List.cons_append, exec_cons, ih]
    constructor
    · rintro ⟨v, hv, u, hu, ht⟩
      exact ⟨u, ⟨v, hv, hu⟩, ht⟩
    · rintro ⟨u, ⟨v, hv, hu⟩, ht⟩
      exact ⟨v, hv, u, hu, ht⟩

variable {P : σ → α → Prop}

theorem along_append (h : Along step P s (as ++ bs)) (hu : exec step s as = some u) :
    Along step P s as ∧ Along step P u bs := by
  induction as generalizing s with
  | nil =>
    cases hu
    exact ⟨trivial, h⟩
  | cons a as ih =>
    obtain ⟨v, hv, hu⟩ := exec_cons.1 hu
    have hs := ih (h.2 v hv) hu
    refine ⟨⟨h.1, fun w hw => ?_⟩, hs.2⟩
    cases hv.symm.trans hw
    exact hs.1

variable {I : σ → Prop}

/-- An invariant that every conforming step keeps holds after every conforming run. -/
theorem along_invariant (hstep : ∀ s a t, I s → P s a → step s a = some t → I t)
    (hP : Along step P s as) (he : exec step s as = some t) (hs : I s) : I t := by
  induction as generalizing s with
  | nil =>
    cases he
    exact hs
  | cons a as ih =>
    obtain ⟨u, hu, ht⟩ := exec_cons.1 he
    exact ih (hP.2 u hu) ht (hstep s a u hs hP.1 hu)

/-- An invariant that every step keeps holds after every run. -/
theorem exec_invariant (hstep : ∀ s a t, I s → step s a = some t → I t)
    (he : exec step s as = some t) (hs : I s) : I t := by
  induction as generalizing s with
  | nil =>
    cases he
    exact hs
  | cons a as ih =>
    obtain ⟨u, hu, ht⟩ := exec_cons.1 he
    exact ih ht (hstep s a u hs hu)

/-- What the invariant says about each conforming step holds along every conforming run. -/
theorem along_of_invariant {Q : σ → α → Prop}
    (hstep : ∀ s a t, I s → P s a → step s a = some t → I t) (hQ : ∀ s a, I s → P s a → Q s a)
    (hP : Along step P s as) (hs : I s) : Along step Q s as := by
  induction as generalizing s with
  | nil => trivial
  | cons a as ih => exact ⟨hQ s a hs hP.1, fun t ht => ih (hP.2 t ht) (hstep s a t hs hP.1 ht)⟩

/-- A relation that every conforming step establishes is composed along a run. -/
theorem along_relation {Q : σ → σ → Prop} (hrefl : ∀ s, Q s s)
    (htrans : ∀ s t u, Q s t → Q t u → Q s u)
    (hstep : ∀ s a t, I s → P s a → step s a = some t → I t ∧ Q s t) (hP : Along step P s as)
    (he : exec step s as = some t) (hs : I s) : Q s t := by
  induction as generalizing s with
  | nil =>
    cases he
    exact hrefl _
  | cons a as ih =>
    obtain ⟨u, hu, ht⟩ := exec_cons.1 he
    obtain ⟨hi, hr⟩ := hstep s a u hs hP.1 hu
    exact htrans s u t hr (ih (hP.2 u hu) ht hi)

theorem along_mono {Q : σ → α → Prop} (hPQ : ∀ s a, P s a → Q s a) (h : Along step P s as) :
    Along step Q s as := by
  induction as generalizing s with
  | nil => trivial
  | cons a as ih => exact ⟨hPQ s a h.1, fun t ht => ih (h.2 t ht)⟩

theorem along_true (s : σ) (as : List α) : Along step (fun _ _ => True) s as := by
  induction as generalizing s with
  | nil => trivial
  | cons a as ih => exact ⟨trivial, fun t _ => ih t⟩

theorem along_of_forall (h : ∀ s, ∀ a ∈ as, P s a) (s : σ) :
    Along step P s as := by
  induction as generalizing s with
  | nil => trivial
  | cons a as ih =>
    exact ⟨h s a List.mem_cons_self, fun t _ => ih (fun u b hb => h u b (List.mem_cons_of_mem _ hb)) t⟩

end Interleaving
