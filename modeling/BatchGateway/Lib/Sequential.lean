import BatchGateway.Lib.Prog

/-! Programs that run alone: every call is answered by one step of the state. -/
namespace Interleaving.Prog

universe u v

variable {C : Type u} {R : C → Type v} {σ : Type*} {α β : Type v}
  {answer : (c : C) → σ → σ → R c → Prop}

/-- The program can take the state `s` to `t` and return the value. -/
inductive Runs (answer : (c : C) → σ → σ → R c → Prop) : σ → Prog C R α → σ → α → Prop where
  | ret (s : σ) (a : α) : Runs answer s (ret a) s a
  | call {s u t : σ} {c : C} {k : R c → Prog C R α} {r : R c} {a : α} (h : answer c s u r)
      (hk : Runs answer u (k r) t a) : Runs answer s (call c k) t a

variable {s t : σ}

theorem runs_ret {a b : α} : Runs answer s (ret a) t b ↔ t = s ∧ b = a := by
  constructor
  · rintro ⟨⟩
    exact ⟨rfl, rfl⟩
  · rintro ⟨rfl, rfl⟩
    exact .ret ..

theorem runs_call {c : C} {k : R c → Prog C R α} {a : α} :
    Runs answer s (call c k) t a ↔ ∃ u r, answer c s u r ∧ Runs answer u (k r) t a := by
  constructor
  · rintro ⟨⟩
    exact ⟨_, _, ‹_›, ‹_›⟩
  · rintro ⟨u, r, h, hk⟩
    exact .call h hk

theorem runs_lift_bind {c : C} {f : R c → Prog C R α} {a : α} :
    Runs answer s (lift c >>= f) t a ↔ ∃ u r, answer c s u r ∧ Runs answer u (f r) t a :=
  runs_call

theorem runs_bind {p : Prog C R α} {f : α → Prog C R β} {b : β} :
    Runs answer s (p >>= f) t b ↔ ∃ u a, Runs answer s p u a ∧ Runs answer u (f a) t b := by
  induction p generalizing s with
  | ret a =>
    constructor
    · exact fun h => ⟨s, a, .ret .., h⟩
    · rintro ⟨u, a', h, hf⟩
      obtain ⟨rfl, rfl⟩ := runs_ret.1 h
      exact hf
  | call c k ih =>
    rw [call_bind, runs_call]
    constructor
    · rintro ⟨v, r, h, hk⟩
      obtain ⟨u, a, hp, hf⟩ := (ih r).1 hk
      exact ⟨u, a, .call h hp, hf⟩
    · rintro ⟨u, a, hp, hf⟩
      obtain ⟨v, r, h, hk⟩ := runs_call.1 hp
      exact ⟨v, r, h, (ih r).2 ⟨u, a, hk, hf⟩⟩

end Interleaving.Prog
