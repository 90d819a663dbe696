import Mathlib.Logic.Basic

/-! Sequential programs that interact with their surroundings through calls. -/
namespace Interleaving

universe u v

variable {C : Type u} {R : C → Type v} {α β γ : Type v}

/-- A program either returns or makes a call and continues with the answer. -/
inductive Prog (C : Type u) (R : C → Type v) (α : Type v) : Type (max u v) where
  | ret (a : α)
  | call (c : C) (k : R c → Prog C R α)

namespace Prog

/-- Run `p`, then `f` on what it returned. -/
def bind : Prog C R α → (α → Prog C R β) → Prog C R β
  | ret a, f => f a
  | call c k, f => call c fun r => bind (k r) f

instance : Monad (Prog C R) where
  pure := ret
  bind := bind

/-- The program that makes one call and returns its answer. -/
def lift (c : C) : Prog C R (R c) := call c ret

@[simp] theorem ret_bind (a : α) (f : α → Prog C R β) : (ret a >>= f) = f a := rfl

@[simp] theorem pure_eq (a : α) : (pure a : Prog C R α) = ret a := rfl

@[simp] theorem call_bind (c : C) (k : R c → Prog C R α) (f : α → Prog C R β) :
    (call c k >>= f) = call c fun r => k r >>= f := rfl

/-- Until a call is answered by one of the events `ev`, the program can only return values in `Q`. -/
def Quiet (ev : (c : C) → R c → Prop) (Q : α → Prop) : Prog C R α → Prop
  | ret a => Q a
  | call c k => ∀ r, ¬ ev c r → Quiet ev Q (k r)

variable {ev : (c : C) → R c → Prop} {P : α → Prop} {Q : β → Prop}

theorem Quiet.lift_bind {c : C} {f : R c → Prog C R β}
    (h : ∀ r, ¬ ev c r → Quiet ev Q (f r)) : Quiet ev Q (lift c >>= f) := h

theorem Quiet.bind {p : Prog C R α} {f : α → Prog C R β} (hp : Quiet ev P p)
    (hf : ∀ a, P a → Quiet ev Q (f a)) : Quiet ev Q (p >>= f) := by
  induction p with
  | ret a => exact hf a hp
  | call c k ih => exact fun r hr => ih r (hp r hr)

/-- Any program is quiet about values that it does not care for. -/
theorem Quiet.true (ev : (c : C) → R c → Prop) (p : Prog C R α) : Quiet ev (fun _ => True) p := by
  induction p with
  | ret a => trivial
  | call c k ih => exact fun r _ => ih r

end Prog

end Interleaving
