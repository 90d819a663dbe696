import BatchGateway.Lib.Prog

/-! Programs that keep to a part of the state. If every call of a run is confined to the part, then
the rest stays as it was, and two runs from states with the same part return the same. -/
namespace Interleaving.Prog

universe u v

variable {C : Type u} {R : C → Type v} {S E : Type*} {α β : Type v}

/-- Run a program; `env n` is what the surroundings choose at the call with number `n`. -/
def runFrom (perform : E → S → (c : C) → S × R c) (env : Nat → E) :
    Nat → S → Prog C R α → Nat × S × α
  | n, s, ret a => (n, s, a)
  | n, s, call c k =>
    let p := perform (env n) s c
    runFrom perform env (n + 1) p.1 (k p.2)

/-- Every call of the run is one that `P` allows in the state that it meets. -/
def Confined (perform : E → S → (c : C) → S × R c) (env : Nat → E) (P : S → C → Prop) :
    Nat → S → Prog C R α → Prop
  | _, _, ret _ => True
  | n, s, call c k =>
    P s c ∧ Confined perform env P (n + 1) (perform (env n) s c).1 (k (perform (env n) s c).2)

variable {perform : E → S → (c : C) → S × R c} {env : Nat → E} {P : S → C → Prop}

theorem runFrom_bind (n : Nat) (s : S) (m : Prog C R α) (f : α → Prog C R β) :
    runFrom perform env n s (m >>= f) =
      let p := runFrom perform env n s m
      runFrom perform env p.1 p.2.1 (f p.2.2) := by
  induction m generalizing n s with
  | ret a => rfl
  | call c k ih => exact ih _ _ _

theorem confined_bind {n : Nat} {s : S} {m : Prog C R α} {f : α → Prog C R β}
    (hm : Confined perform env P n s m)
    (hf : let p := runFrom perform env n s m
      Confined perform env P p.1 p.2.1 (f p.2.2)) :
    Confined perform env P n s (m >>= f) := by
  induction m generalizing n s with
  | ret a => exact hf
  | call c k ih => exact ⟨hm.1, ih _ hm.2 hf⟩

/-- What no allowed call changes, no confined run changes. -/
theorem Confined.frame {F : S → S → Prop} (hrefl : ∀ s, F s s)
    (htrans : ∀ s t u, F s t → F t u → F s u)
    (hstep : ∀ e s c, P s c → F s (perform e s c).1) {m : Prog C R α} {n : Nat} {s : S}
    (h : Confined perform env P n s m) : F s (runFrom perform env n s m).2.1 := by
  induction m generalizing n s with
  | ret a => exact hrefl s
  | call c k ih => exact htrans _ _ _ (hstep _ s c h.1) (ih _ h.2)

/-- Two runs side by side. If related states give allowed calls the same answers and related states
again, then the two runs return the same. -/
theorem Confined.agree {I : S → S → Prop}
    (hstep : ∀ e s t c, I s t → P s c → P t c →
      (perform e s c).2 = (perform e t c).2 ∧ I (perform e s c).1 (perform e t c).1)
    {m : Prog C R α} {n : Nat} {s t : S} (hI : I s t) (hs : Confined perform env P n s m)
    (ht : Confined perform env P n t m) :
    (runFrom perform env n s m).2.2 = (runFrom perform env n t m).2.2 ∧
      I (runFrom perform env n s m).2.1 (runFrom perform env n t m).2.1 := by
  induction m generalizing n s t with
  | ret a => exact ⟨rfl, hI⟩
  | call c k ih =>
    obtain ⟨hanswer, hnext⟩ := hstep (env n) s t c hI hs.1 ht.1
    have ht' := ht.2
    unfold runFrom
    dsimp only
    rw [← hanswer] at ht' ⊢
    exact ih _ hnext hs.2 ht'

/-- From a state with `K`, the run is confined, and its result and final state meet `K'`. -/
def Stays (perform : E → S → (c : C) → S × R c) (env : Nat → E) (P : S → C → Prop)
    (K : S → Prop) (m : Prog C R α) (K' : α → S → Prop) : Prop :=
  ∀ n s, K s → Confined perform env P n s m ∧
    K' (runFrom perform env n s m).2.2 (runFrom perform env n s m).2.1

namespace Stays

variable {K : S → Prop} {K' : α → S → Prop}

theorem ret {a : α} (h : ∀ s, K s → K' a s) : Stays perform env P K (Prog.ret a) K' :=
  fun _ s hs => ⟨trivial, h s hs⟩

theorem lift {c : C} {J : R c → S → Prop} (hc : ∀ s, K s → P s c)
    (hJ : ∀ n s, K s → J (perform (env n) s c).2 (perform (env n) s c).1) :
    Stays perform env P K (lift c) J :=
  fun n s hs => ⟨⟨hc s hs, trivial⟩, hJ n s hs⟩

theorem bind {m : Prog C R α} {f : α → Prog C R β} {J : β → S → Prop}
    (hm : Stays perform env P K m K') (hf : ∀ a, Stays perform env P (K' a) (f a) J) :
    Stays perform env P K (m >>= f) J := by
  intro n s hs
  obtain ⟨hconfined, hK⟩ := hm n s hs
  obtain ⟨hnext, hJ⟩ := hf _ (runFrom perform env n s m).1 _ hK
  rw [runFrom_bind]
  exact ⟨confined_bind hconfined hnext, hJ⟩

theorem mono {m : Prog C R α} {K₁ : S → Prop} {J : α → S → Prop}
    (hm : Stays perform env P K m K') (hK : ∀ s, K₁ s → K s) (hJ : ∀ a s, K' a s → J a s) :
    Stays perform env P K₁ m J := by
  intro n s hs
  obtain ⟨hconfined, hend⟩ := hm n s (hK s hs)
  exact ⟨hconfined, hJ _ _ hend⟩

end Stays
end Interleaving.Prog
