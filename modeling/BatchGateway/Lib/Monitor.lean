import BatchGateway.Lib.RelyGuarantee

/-! Disciplines on the calls of a program. A monitor follows a program call by call; what it allows
can depend on the answers so far, but not on the world. -/
namespace Interleaving

/-- The calls that are allowed in a state of the monitor, the answers to be expected, and the state
after an answer. -/
structure Monitor (σ C : Type) (R : C → Type) where
  allow : σ → C → Prop
  answer : σ → (c : C) → R c → Prop
  next : σ → (c : C) → R c → σ

/-- Two monitors side by side. -/
def Monitor.prod {σ τ C : Type} {R : C → Type} (M : Monitor σ C R) (N : Monitor τ C R) :
    Monitor (σ × τ) C R where
  allow s c := M.allow s.1 c ∧ N.allow s.2 c
  answer s c r := M.answer s.1 c r ∧ N.answer s.2 c r
  next s c r := (M.next s.1 c r, N.next s.2 c r)

namespace Prog

variable {σ C : Type} {R : C → Type} {α β : Type} {M : Monitor σ C R} {s : σ}

/-- Watched from state `s` on, the program makes allowed calls only and returns values in `Q`. -/
def Obeys (M : Monitor σ C R) (Q : α → σ → Prop) : Prog C R α → σ → Prop
  | ret a, s => Q a s
  | call c k, s => M.allow s c ∧ ∀ r, M.answer s c r → Obeys M Q (k r) (M.next s c r)

/-- Every call of the program satisfies `P`. -/
def Calls (P : C → Prop) : Prog C R α → Prop
  | ret _ => True
  | call c k => P c ∧ ∀ r, Calls P (k r)

/-- Every value that the program can return satisfies `P`. -/
def Returns (P : α → Prop) : Prog C R α → Prop
  | ret a => P a
  | call _ k => ∀ r, Returns P (k r)

variable {P : α → σ → Prop} {Q Q' : β → σ → Prop} {A B : C → Prop}

theorem Obeys.ret {a : β} (h : Q a s) : (pure a : Prog C R β).Obeys M Q s := h

theorem Obeys.lift_bind {c : C} {k : R c → Prog C R β} (hc : M.allow s c)
    (hk : ∀ r, M.answer s c r → (k r).Obeys M Q (M.next s c r)) :
    (lift c >>= k).Obeys M Q s := ⟨hc, hk⟩

variable {f : α → Prog C R β}

theorem Obeys.bind {m : Prog C R α} (hm : m.Obeys M P s)
    (hf : ∀ a s', P a s' → (f a).Obeys M Q s') : (m >>= f).Obeys M Q s := by
  induction m generalizing s with
  | ret a => exact hf a s hm
  | call c k ih => exact ⟨hm.1, fun r hr => ih r (hm.2 r hr)⟩

variable {m : Prog C R β}

theorem Obeys.mono (hm : m.Obeys M Q s) (h : ∀ a s', Q a s' → Q' a s') :
    m.Obeys M Q' s := by
  induction m generalizing s with
  | ret a => exact h a s hm
  | call c k ih => exact ⟨hm.1, fun r hr => ih r (hm.2 r hr)⟩

theorem Obeys.prod {τ : Type} {N : Monitor τ C R} {t : τ} {Q' : β → τ → Prop} (hm : m.Obeys M Q s)
    (hn : m.Obeys N Q' t) :
    m.Obeys (M.prod N) (fun a st => Q a st.1 ∧ Q' a st.2) (s, t) := by
  induction m generalizing s t with
  | ret a => exact ⟨hm, hn⟩
  | call c k ih =>
    exact ⟨⟨hm.1, hn.1⟩, fun r hr => ih r (hm.2 r hr.1) (hn.2 r hr.2)⟩

/-- A second monitor can be added freely when it allows whatever the first one allows. -/
theorem Obeys.prod_of_allow {τ : Type} {N : Monitor τ C R} {t : τ} (hm : m.Obeys M Q s)
    (h : ∀ s t c, M.allow s c → N.allow t c) :
    m.Obeys (M.prod N) (fun a st => Q a st.1) (s, t) := by
  induction m generalizing s t with
  | ret a => exact hm
  | call c k ih => exact ⟨⟨hm.1, h s t c hm.1⟩, fun r hr => ih r (hm.2 r hr.1)⟩

theorem Calls.lift_bind {c : C} {k : R c → Prog C R β} (hc : A c) (hk : ∀ r, (k r).Calls A) :
    (lift c >>= k).Calls A := ⟨hc, hk⟩

theorem Calls.bind {m : Prog C R α} (hm : m.Calls A) (hf : ∀ a, (f a).Calls A) :
    (m >>= f).Calls A := by
  induction m with
  | ret a => exact hf a
  | call c k ih => exact ⟨hm.1, fun r => ih r (hm.2 r)⟩

theorem Calls.bind_returns {D : α → Prop} {m : Prog C R α} (hm : m.Calls A) (hr : m.Returns D)
    (hf : ∀ a, D a → (f a).Calls A) : (m >>= f).Calls A := by
  induction m with
  | ret a => exact hf a hr
  | call c k ih => exact ⟨hm.1, fun r => ih r (hm.2 r) (hr r)⟩

theorem Returns.lift_bind {D : β → Prop} {c : C} {k : R c → Prog C R β}
    (hk : ∀ r, (k r).Returns D) : (lift c >>= k).Returns D := hk

theorem Returns.bind {D : α → Prop} {E : β → Prop} {m : Prog C R α} (hm : m.Returns D)
    (hf : ∀ a, D a → (f a).Returns E) : (m >>= f).Returns E := by
  induction m with
  | ret a => exact hf a hm
  | call c k ih => exact fun r => ih r (hm r)

theorem returns_true (m : Prog C R α) : m.Returns fun _ => True := by
  induction m with
  | ret a => trivial
  | call c k ih => exact ih

theorem Calls.mono (hm : m.Calls A) (h : ∀ c, A c → B c) : m.Calls B := by
  induction m with
  | ret a => trivial
  | call c k ih => exact ⟨h c hm.1, fun r => ih r (hm.2 r)⟩

/-- A program whose calls are allowed and leave the monitor's state alone obeys the monitor. -/
theorem Calls.obeys (hm : m.Calls A) (hallow : ∀ c, A c → M.allow s c)
    (hnext : ∀ c r, A c → M.next s c r = s) : m.Obeys M (fun _ s' => s' = s) s := by
  induction m with
  | ret a => rfl
  | call c k ih =>
    refine ⟨hallow c hm.1, fun r _ => ?_⟩
    rw [hnext c r hm.1]
    exact ih r (hm.2 r)

/-- A program whose calls are always allowed obeys the monitor in any state. -/
theorem Calls.obeys_of_allow (hm : m.Calls A) (hallow : ∀ s c, A c → M.allow s c) :
    m.Obeys M (fun _ _ => True) s := by
  induction m generalizing s with
  | ret a => trivial
  | call c k ih => exact ⟨hallow s c hm.1, fun r _ => ih r (hm.2 r)⟩

end Prog

namespace Protocol

variable {σ W E Γ C : Type} {R : C → Type} {α β : Type} {S : System W E Γ C R α} {P : Protocol S}
  {M : Monitor σ C R} {g : Γ} {T : σ → W → Prop} {Q : β → σ → Prop}

/-- What a monitor allows is safe when each allowed call keeps the protocol and the monitor's state
stays right about the world. -/
theorem triple_of_obeys (hT : ∀ s, P.Stable g (T s))
    (hstep : ∀ s w e c w₂ r, P.inv w → P.holds g w → T s w → M.allow s c → P.cond w e g c →
      S.perform e w c = some (w₂, r) →
        P.inv w₂ ∧ P.guar g e c w w₂ ∧ M.answer s c r ∧ T (M.next s c r) w₂)
    {m : Prog C R β} {s : σ} (hm : m.Obeys M Q s) :
    P.Triple g (T s) m fun a w => ∃ s', T s' w ∧ Q a s' := by
  induction m generalizing s with
  | ret a => exact Triple.ret (hT s) fun w _ _ hw => ⟨s, hw, hm⟩
  | call c k ih =>
    refine Triple.call (B := fun r w => M.answer s c r ∧ T (M.next s c r) w) (hT s) ?_ ?_
    · intro w e w₂ r hi hh hw hc hp
      exact hstep s w e c w₂ r hi hh hw hm.1 hc hp
    · intro r w hi hh hw
      exact ih r (hm.2 r hw.1) w hi hh hw.2

end Protocol

/-! ### Watched pools -/

section Watched

variable {σ W E Γ C : Type} {R : C → Type} {α : Type} {S : System W E Γ C R α}
  {M : Γ → Monitor σ C R} {T : Γ → σ → W → Prop} {p q : Pool W Γ C R α} {l : Label E Γ}

/-- Every running program obeys the monitor of its thread, in a state that is right about the
world. -/
def Watched (M : Γ → Monitor σ C R) (T : Γ → σ → W → Prop) (p : Pool W Γ C R α) : Prop :=
  ∀ (i : Nat) g m, p.threads[i]? = some ⟨g, some m⟩ →
    ∃ s, T g s p.world ∧ m.Obeys (M g) (fun _ _ => True) s

theorem watched_empty (w : W) : Watched (α := α) M T ⟨w, []⟩ := fun i g m h => by simp at h

/-- A call of a watched program is an allowed one. -/
theorem Watched.allow {i : Nat} {g : Γ} {c : C} {k : R c → Prog C R α} (h : Watched M T p)
    (hi : p.threads[i]? = some ⟨g, some (.call c k)⟩) :
    ∃ s, T g s p.world ∧ (M g).allow s c := by
  obtain ⟨s, hT, hm⟩ := h i g _ hi
  exact ⟨s, hT, hm.1⟩

theorem watched_step
    (hstart : ∀ e g w w', S.start e w g = some w' →
      (∃ s, T g s w' ∧ (S.code g).Obeys (M g) (fun _ _ => True) s) ∧
        ∀ g' s, T g' s w → T g' s w')
    (hcall : ∀ e g s w c w' r, T g s w → (M g).allow s c → S.perform e w c = some (w', r) →
      ((M g).answer s c r ∧ T g ((M g).next s c r) w') ∧ ∀ g' s, T g' s w → T g' s w')
    (hs : S.step p l = some q) (h : Watched M T p) : Watched M T q := by
  rcases S.step_cases hs with ⟨e, g, w, hw⟩ | ⟨i, e, g, c, k, w, r, hi, hp⟩ | ⟨i, g, m, hi⟩
  · obtain ⟨hnew, hold⟩ := hstart e g _ _ hw
    intro j g' m hj
    rcases getElem?_snoc_cases hj with ⟨-, heq⟩ | ⟨-, hj⟩
    · cases heq
      exact hnew
    · obtain ⟨s, hT, hm⟩ := h j g' m hj
      exact ⟨s, hold g' s hT, hm⟩
  · obtain ⟨s, hT, hallow, hk⟩ := h i g _ hi
    obtain ⟨⟨hr, hT'⟩, hold⟩ := hcall e g s _ c w r hT hallow hp
    intro j g' m hj
    rcases getElem?_set_cases hj with ⟨-, heq⟩ | ⟨-, hj⟩
    · cases heq
      exact ⟨_, hT', hk r hr⟩
    · obtain ⟨s', hT'', hm⟩ := h j g' m hj
      exact ⟨s', hold g' s' hT'', hm⟩
  · intro j g' m' hj
    rcases getElem?_set_cases hj with ⟨-, heq⟩ | ⟨-, hj⟩
    · cases heq
    · exact h j g' m' hj

end Watched

/-- An invariant of the world holds in every run when the programs make calls in `P` only, and these
keep it. -/
theorem calls_exec {W E Γ C : Type} {R : C → Type} {α : Type} {S : System W E Γ C R α}
    {P : C → Prop} {I : W → Prop} {w : W} {ls : List (Label E Γ)} {p : Pool W Γ C R α}
    (hstart : ∀ e g w w', I w → S.start e w g = some w' → I w' ∧ (S.code g).Calls P)
    (hcall : ∀ e w c w' r, I w → P c → S.perform e w c = some (w', r) → I w')
    (h : exec S.step ⟨w, []⟩ ls = some p) (hw : I w) : I p.world := by
  have hinv : I p.world ∧ ∀ (i : Nat) g m, p.threads[i]? = some ⟨g, some m⟩ → m.Calls P := by
    refine exec_invariant (I := fun p => I p.world ∧ ∀ (i : Nat) g m,
      p.threads[i]? = some ⟨g, some m⟩ → m.Calls P) ?_ h ⟨hw, fun _ _ _ hi => by simp at hi⟩
    rintro p l q ⟨hI, hthreads⟩ hstep
    rcases S.step_cases hstep with ⟨e, g, w, hs⟩ | ⟨i, e, g, c, k, w, r, hi, hp⟩ | ⟨i, g, m, hi⟩
    · obtain ⟨hI', hcode⟩ := hstart e g _ _ hI hs
      refine ⟨hI', fun j g' m hj => ?_⟩
      rcases getElem?_snoc_cases hj with ⟨-, heq⟩ | ⟨-, hj⟩
      · cases heq
        exact hcode
      · exact hthreads j g' m hj
    · obtain ⟨hc, hk⟩ := hthreads i g _ hi
      refine ⟨hcall e _ c w r hI hc hp, fun j g' m hj => ?_⟩
      rcases getElem?_set_cases hj with ⟨-, heq⟩ | ⟨-, hj⟩
      · cases heq
        exact hk r
      · exact hthreads j g' m hj
    · refine ⟨hI, fun j g' m' hj => ?_⟩
      rcases getElem?_set_cases hj with ⟨-, heq⟩ | ⟨-, hj⟩
      · cases heq
      · exact hthreads j g' m' hj
  exact hinv.1

end Interleaving
