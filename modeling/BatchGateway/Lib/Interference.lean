import BatchGateway.Lib.Pool

/-! A program among others. Between two of its calls the world may become anything, so that a
program is known by its own calls: what each of them found and what it left. -/
namespace Interleaving

/-- One call of a program, with the world before and after it. -/
structure OwnCall (W E C : Type) (R : C → Type) where
  before : W
  env : E
  call : C
  answer : R call
  after : W

namespace Prog

variable {W E C : Type} {R : C → Type} {α β : Type}
  {perform : E → W → (c : C) → Option (W × R c)}

/-- The program can make these calls, whatever happens between them, and has then become another
one. -/
inductive Makes (perform : E → W → (c : C) → Option (W × R c)) :
    Prog C R α → List (OwnCall W E C R) → Prog C R α → Prop where
  | refl (m : Prog C R α) : Makes perform m [] m
  | call {w w' : W} {env : E} {c : C} {k : R c → Prog C R α} {r : R c}
      {calls : List (OwnCall W E C R)} {m : Prog C R α} (h : perform env w c = some (w', r))
      (hk : Makes perform (k r) calls m) : Makes perform (call c k) (⟨w, env, c, r, w'⟩ :: calls) m

variable {calls : List (OwnCall W E C R)}

theorem makes_ret {a : α} {m : Prog C R α} (h : Makes perform (ret a) calls m) :
    calls = [] ∧ m = ret a := by
  cases h
  exact ⟨rfl, rfl⟩

/-- A program that begins with a call has not begun, or it made the call. -/
theorem makes_lift_bind {c : C} {f : R c → Prog C R α} {m : Prog C R α}
    (h : Makes perform (lift c >>= f) calls m) :
    (calls = [] ∧ ∀ a, m ≠ ret a) ∨ ∃ w env r w' rest, perform env w c = some (w', r) ∧
      calls = ⟨w, env, c, r, w'⟩ :: rest ∧ Makes perform (f r) rest m := by
  cases h with
  | refl => exact .inl ⟨rfl, nofun⟩
  | call h hk => exact .inr ⟨_, _, _, _, _, h, rfl, hk⟩

/-- A composed program is still in its first part, or in its second part with what the first one
returned. -/
theorem makes_bind {p : Prog C R α} {f : α → Prog C R β} {m : Prog C R β}
    (h : Makes perform (p >>= f) calls m) :
    (∃ p', Makes perform p calls p' ∧ (∀ a, p' ≠ ret a) ∧ m = (p' >>= f)) ∨
    ∃ a first rest, calls = first ++ rest ∧ Makes perform p first (ret a) ∧
      Makes perform (f a) rest m := by
  induction p generalizing calls with
  | ret a => exact .inr ⟨a, [], calls, rfl, .refl _, h⟩
  | call c k ih =>
    cases h with
    | refl => exact .inl ⟨_, .refl _, nofun, rfl⟩
    | call h hk =>
      rcases ih _ hk with ⟨p', hp, hne, rfl⟩ | ⟨a, first, rest, rfl, hp, hf⟩
      · exact .inl ⟨p', .call h hp, hne, rfl⟩
      · exact .inr ⟨a, _ :: first, rest, rfl, .call h hp, hf⟩

theorem bind_ne_ret {p : Prog C R α} {f : α → Prog C R β} (h : ∀ a, p ≠ ret a) (b : β) :
    (p >>= f) ≠ ret b := by
  cases p with
  | ret a => exact absurd rfl (h a)
  | call c k => nofun

end Prog

/-! ### The threads of a pool -/

namespace System

variable {W E Γ C : Type} {R : C → Type} {α : Type} (S : System W E Γ C R α)
  {p q : Pool W Γ C R α} {ls : List (Label E Γ)}

/-- The call that a thread makes in a step, if the step is one of its own. -/
def ownCall (i : Nat) (p : Pool W Γ C R α) : Label E Γ → List (OwnCall W E C R)
  | .run j e =>
    match p.threads[i]? with
    | some ⟨_, some (.call c _)⟩ =>
      if j = i then (S.perform e p.world c).toList.map fun (w, r) => ⟨p.world, e, c, r, w⟩ else []
    | _ => []
  | _ => []

/-- The calls that a thread makes in a run. -/
def ownCalls (i : Nat) : Pool W Γ C R α → List (Label E Γ) → List (OwnCall W E C R)
  | _, [] => []
  | p, l :: ls => S.ownCall i p l ++ ((S.step p l).map fun q => ownCalls i q ls).getD []

/-- One step: the thread makes its call, crashes, or stays as it is. -/
theorem ownCall_cases {i : Nat} {t : Thread Γ C R α} {l : Label E Γ}
    (hi : p.threads[i]? = some t) (hs : S.step p l = some q) :
    (∃ e c k w r, t.code = some (.call c k) ∧ S.perform e p.world c = some (w, r) ∧
      S.ownCall i p l = [⟨p.world, e, c, r, w⟩] ∧ q.threads[i]? = some ⟨t.who, some (k r)⟩) ∨
    (S.ownCall i p l = [] ∧ (q.threads[i]? = some t ∨ q.threads[i]? = some ⟨t.who, none⟩)) := by
  have hlt : i < p.threads.length := (List.getElem?_eq_some_iff.1 hi).1
  rcases S.step_cases hs with ⟨e, g, w, -⟩ | ⟨j, e, g, c, k, w, r, hj, hp⟩ | ⟨j, g, m, hj⟩
  · refine .inr ⟨rfl, .inl ?_⟩
    rw [← hi]
    exact List.getElem?_append_left hlt
  · by_cases hji : j = i
    · subst hji
      cases hi.symm.trans hj
      refine .inl ⟨e, c, k, w, r, rfl, hp, ?_, ?_⟩
      · simp [ownCall, hj, hp]
      · exact List.getElem?_set_self hlt
    · refine .inr ⟨?_, .inl ?_⟩
      · dsimp only [ownCall]
        split
        · rw [if_neg hji]
        · rfl
      · rw [← hi]
        exact List.getElem?_set_ne hji
  · by_cases hji : j = i
    · subst hji
      cases hi.symm.trans hj
      exact .inr ⟨rfl, .inr (List.getElem?_set_self hlt)⟩
    · refine .inr ⟨rfl, .inl ?_⟩
      rw [← hi]
      exact List.getElem?_set_ne hji

/-- In every run of a pool, a thread makes its calls as a program among others. -/
theorem makes_ownCalls {i : Nat} {t : Thread Γ C R α} (hi : p.threads[i]? = some t)
    (hs : exec S.step p ls = some q) :
    (t.code = none ∧ S.ownCalls i p ls = []) ∨
    ∃ m m', t.code = some m ∧ m.Makes S.perform (S.ownCalls i p ls) m' := by
  induction ls generalizing p t with
  | nil =>
    cases hc : t.code with
    | none => exact .inl ⟨rfl, rfl⟩
    | some m => exact .inr ⟨m, m, rfl, .refl m⟩
  | cons l ls ih =>
    obtain ⟨u, hu, hs⟩ := exec_cons.1 hs
    have hcalls : S.ownCalls i p (l :: ls) = S.ownCall i p l ++ S.ownCalls i u ls := by
      rw [ownCalls, hu]
      rfl
    rw [hcalls]
    rcases S.ownCall_cases hi hu with ⟨e, c, k, w, r, hcode, hp, hown, hi'⟩ | ⟨hown, hi' | hi'⟩
    · rw [hown, hcode]
      obtain ⟨hnone, -⟩ | ⟨m, m', hm, hmakes⟩ := ih hi' hs
      · cases hnone
      · cases hm
        exact .inr ⟨_, m', rfl, .call hp hmakes⟩
    · rw [hown]
      exact ih hi' hs
    · rw [hown]
      obtain ⟨-, hnil⟩ | ⟨_, _, hm, -⟩ := ih hi' hs
      · rw [hnil]
        cases hc : t.code with
        | none => exact .inl ⟨rfl, rfl⟩
        | some m => exact .inr ⟨m, m, rfl, .refl m⟩
      · cases hm

end System
end Interleaving
