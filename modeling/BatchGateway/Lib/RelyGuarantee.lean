import BatchGateway.Lib.Pool

/-! Rely-guarantee reasoning for pools of programs. -/
namespace Interleaving

variable {W E Γ C : Type} {R : C → Type} {α β : Type}

/-- What the threads of a pool rely on and what they guarantee to one another. `holds g` is a fact
about the world that belongs to thread `g` for its whole life, `peer g g'` relates any two threads
that live together, and `cond` restricts the steps that are considered at all. -/
structure Protocol (S : System W E Γ C R α) where
  inv : W → Prop
  holds : Γ → W → Prop
  rely : Γ → W → W → Prop
  guar : Γ → E → C → W → W → Prop
  peer : Γ → Γ → Prop
  cond : W → E → Γ → C → Prop
  rely_refl : ∀ g w, rely g w w
  rely_trans : ∀ g w₁ w₂ w₃, rely g w₁ w₂ → rely g w₂ w₃ → rely g w₁ w₃
  guar_holds : ∀ g e c w w', inv w → holds g w → guar g e c w w' → holds g w'
  guar_rely : ∀ g g' e c w w', inv w → peer g g' → holds g w → holds g' w → guar g e c w w' →
    rely g' w w' ∧ holds g' w'

namespace Protocol

variable {S : System W E Γ C R α} (P : Protocol S)

/-- From `w` on, under interference that `g` may rely on, every call of the program keeps the
invariant and the guarantee, and a returned value meets `Q`. -/
def Safe (g : Γ) (Q : β → W → Prop) : Prog C R β → W → Prop
  | .ret a, w => ∀ w', P.inv w' → P.holds g w' → P.rely g w w' → Q a w'
  | .call c k, w => ∀ w', P.inv w' → P.holds g w' → P.rely g w w' →
      ∀ e w₂ r, P.cond w' e g c → S.perform e w' c = some (w₂, r) →
        P.inv w₂ ∧ P.guar g e c w' w₂ ∧ Safe g Q (k r) w₂

/-- The assertion survives whatever other threads do. -/
def Stable (g : Γ) (A : W → Prop) : Prop :=
  ∀ w w', P.inv w' → P.holds g w' → P.rely g w w' → A w → A w'

/-- Started where `A` holds, the program is safe and ends in `Q`. -/
def Triple (g : Γ) (A : W → Prop) (m : Prog C R β) (Q : β → W → Prop) : Prop :=
  ∀ w, P.inv w → P.holds g w → A w → P.Safe g Q m w

variable {P} {g : Γ} {A B : W → Prop} {Q : β → W → Prop} {w w' : W} {m : Prog C R β}

theorem Safe.rely (h : P.Safe g Q m w) (hr : P.rely g w w') :
    P.Safe g Q m w' := by
  cases m with
  | ret a => exact fun w₂ hi hh hr₂ => h w₂ hi hh (P.rely_trans g _ _ _ hr hr₂)
  | call c k => exact fun w₂ hi hh hr₂ => h w₂ hi hh (P.rely_trans g _ _ _ hr hr₂)

theorem Safe.bind {δ : Type} {m : Prog C R δ} {M : δ → W → Prop} {f : δ → Prog C R β}
    (hm : P.Safe g M m w) (hf : ∀ a, P.Triple g (M a) (f a) Q) (hi : P.inv w)
    (hh : P.holds g w) : P.Safe g Q (m >>= f) w := by
  induction m generalizing w with
  | ret a => exact hf a w hi hh (hm w hi hh (P.rely_refl g w))
  | call c k ih =>
    intro w' hi' hh' hr e w₂ r hc hp
    obtain ⟨hi₂, hg, hs⟩ := hm w' hi' hh' hr e w₂ r hc hp
    exact ⟨hi₂, hg, ih r hs hi₂ (P.guar_holds g e c _ _ hi' hh' hg)⟩

theorem Triple.bind {δ : Type} {m : Prog C R δ} {M : δ → W → Prop} {f : δ → Prog C R β}
    (hm : P.Triple g A m M) (hf : ∀ a, P.Triple g (M a) (f a) Q) :
    P.Triple g A (m >>= f) Q :=
  fun w hi hh ha => (hm w hi hh ha).bind hf hi hh

theorem Triple.ret {a : β} (hA : P.Stable g A) (h : ∀ w, P.inv w → P.holds g w → A w → Q a w) :
    P.Triple g A (.ret a) Q :=
  fun w _ _ ha w' hi' hh' hr => h w' hi' hh' (hA w w' hi' hh' hr ha)

variable {c : C}

/-- The rule for one call: its step keeps the invariant and the guarantee and establishes `B`. -/
theorem Triple.call {k : R c → Prog C R β} {B : R c → W → Prop} (hA : P.Stable g A)
    (hstep : ∀ w e w₂ r, P.inv w → P.holds g w → A w → P.cond w e g c →
      S.perform e w c = some (w₂, r) → P.inv w₂ ∧ P.guar g e c w w₂ ∧ B r w₂)
    (hk : ∀ r, P.Triple g (B r) (k r) Q) : P.Triple g A (.call c k) Q := by
  intro w _ _ ha w' hi' hh' hr e w₂ r hc hp
  obtain ⟨hi₂, hg, hb⟩ := hstep w' e w₂ r hi' hh' (hA w w' hi' hh' hr ha) hc hp
  exact ⟨hi₂, hg, hk r w₂ hi₂ (P.guar_holds g e c _ _ hi' hh' hg) hb⟩

/-- The same rule for a single call followed by a continuation. -/
theorem Triple.lift_bind {k : R c → Prog C R β} {B : R c → W → Prop} (hA : P.Stable g A)
    (hstep : ∀ w e w₂ r, P.inv w → P.holds g w → A w → P.cond w e g c →
      S.perform e w c = some (w₂, r) → P.inv w₂ ∧ P.guar g e c w w₂ ∧ B r w₂)
    (hk : ∀ r, P.Triple g (B r) (k r) Q) : P.Triple g A (Prog.lift c >>= k) Q :=
  Triple.call hA hstep hk

theorem stable_true : P.Stable g fun _ => True := fun _ _ _ _ _ _ => trivial

theorem Triple.pre (h : P.Triple g A m Q) (hA : ∀ w, P.inv w → P.holds g w → B w → A w) :
    P.Triple g B m Q :=
  fun w hi hh hb => h w hi hh (hA w hi hh hb)

theorem Triple.post {Q' : β → W → Prop} (h : P.Triple g A m Q)
    (hQ : ∀ a w, P.inv w → P.holds g w → Q a w → Q' a w) : P.Triple g A m Q' := by
  intro w hi hh ha
  have hs := h w hi hh ha
  clear ha hi hh h
  induction m generalizing w with
  | ret a => exact fun w' hi' hh' hr => hQ a w' hi' hh' (hs w' hi' hh' hr)
  | call c k ih =>
    intro w' hi' hh' hr e w₂ r hc hp
    obtain ⟨hi₂, hg, hs'⟩ := hs w' hi' hh' hr e w₂ r hc hp
    exact ⟨hi₂, hg, ih r w₂ hs'⟩

/-- Frame rule: what neither the others nor the guarantee can destroy is still there at the end. -/
theorem Triple.frame (h : P.Triple g A m Q) (hr : P.Stable g B)
    (hg : ∀ w e c w', P.inv w → P.holds g w → P.guar g e c w w' → B w → B w') :
    P.Triple g (fun w => A w ∧ B w) m fun a w => Q a w ∧ B w := by
  intro w hi hh ⟨ha, hb⟩
  have hs := h w hi hh ha
  clear ha hi hh h
  induction m generalizing w with
  | ret a => exact fun w' hi' hh' hw => ⟨hs w' hi' hh' hw, hr w w' hi' hh' hw hb⟩
  | call c k ih =>
    intro w' hi' hh' hw e w₂ r hc hp
    obtain ⟨hi₂, hgu, hs'⟩ := hs w' hi' hh' hw e w₂ r hc hp
    exact ⟨hi₂, hgu, ih r w₂ (hg w' e c w₂ hi' hh' hgu (hr w w' hi' hh' hw hb)) hs'⟩

variable (P) in
/-- A new thread finds its standing fact, a safe program and peers that can rely on its start. -/
def Starts (post : Γ → α → W → Prop) : Prop :=
  ∀ e g w w', P.inv w → S.start e w g = some w' →
    P.inv w' ∧ P.holds g w' ∧ P.Safe g (post g) (S.code g) w' ∧
      ∀ g', P.holds g' w → P.peer g g' ∧ P.peer g' g ∧ P.rely g' w w' ∧ P.holds g' w'

variable (P) in
/-- Every thread of the pool keeps to the protocol from here on. -/
structure Ok (post : Γ → α → W → Prop) (p : Pool W Γ C R α) : Prop where
  inv : P.inv p.world
  holds : ∀ (i : Nat) (t : Thread Γ C R α), p.threads[i]? = some t → P.holds t.who p.world
  safe : ∀ (i : Nat) (t : Thread Γ C R α) m, p.threads[i]? = some t → t.code = some m →
    P.Safe t.who (post t.who) m p.world
  peers : ∀ (i j : Nat) (t u : Thread Γ C R α), i ≠ j → p.threads[i]? = some t →
    p.threads[j]? = some u → P.peer t.who u.who

variable {post : Γ → α → W → Prop} {p q : Pool W Γ C R α} {l : Label E Γ}

theorem ok_empty (h : P.inv w) : P.Ok post ⟨w, []⟩ :=
  ⟨h, by simp, by simp, by simp⟩

variable {i : Nat}

/-- A call made by a thread of a conforming pool keeps that thread's guarantee. -/
theorem Ok.call {e : E} {k : R c → Prog C R α} {r : R c} (h : P.Ok post p)
    (hi : p.threads[i]? = some ⟨g, some (.call c k)⟩) (hc : P.cond p.world e g c)
    (hp : S.perform e p.world c = some (w, r)) :
    P.inv w ∧ P.guar g e c p.world w ∧ P.Safe g (post g) (k r) w :=
  h.safe i _ _ hi rfl p.world h.inv (h.holds i _ hi) (P.rely_refl _ _) e w r hc hp

theorem Ok.spawn {e : E} (hstart : P.Starts post) (h : P.Ok post p)
    (hw : S.start e p.world g = some w) :
    P.Ok post ⟨w, p.threads ++ [⟨g, some (S.code g)⟩]⟩ := by
  obtain ⟨hi, hh, hsafe, hothers⟩ := hstart e g _ _ h.inv hw
  refine ⟨hi, ?_, ?_, ?_⟩
  · intro j t hj
    rcases getElem?_snoc_cases hj with ⟨_, rfl⟩ | ⟨_, hj⟩
    · exact hh
    · exact (hothers _ (h.holds j t hj)).2.2.2
  · intro j t m hj hm
    rcases getElem?_snoc_cases hj with ⟨_, rfl⟩ | ⟨_, hj⟩
    · cases hm
      exact hsafe
    · exact (h.safe j t m hj hm).rely (hothers _ (h.holds j t hj)).2.2.1
  · intro j k t u hjk hj hk
    rcases getElem?_snoc_cases hj with ⟨ej, rfl⟩ | ⟨_, hj'⟩ <;>
      rcases getElem?_snoc_cases hk with ⟨ek, rfl⟩ | ⟨_, hk'⟩
    · exact absurd (ej.trans ek.symm) hjk
    · exact (hothers _ (h.holds k u hk')).1
    · exact (hothers _ (h.holds j t hj')).2.1
    · exact h.peers j k t u hjk hj' hk'

theorem Ok.peers_set {t : Thread Γ C R α} {m : Option (Prog C R α)} (h : P.Ok post p)
    (hi : p.threads[i]? = some t) (j k : Nat) (u v : Thread Γ C R α) (hjk : j ≠ k)
    (hj : (p.threads.set i ⟨t.who, m⟩)[j]? = some u)
    (hk : (p.threads.set i ⟨t.who, m⟩)[k]? = some v) : P.peer u.who v.who := by
  rcases getElem?_set_cases hj with ⟨rfl, rfl⟩ | ⟨_, hj'⟩ <;>
    rcases getElem?_set_cases hk with ⟨rfl, rfl⟩ | ⟨_, hk'⟩
  · exact absurd rfl hjk
  · exact h.peers j k t v hjk hi hk'
  · exact h.peers j k u t hjk hj' hi
  · exact h.peers j k u v hjk hj' hk'

theorem Ok.run {e : E} {k : R c → Prog C R α} {r : R c} (h : P.Ok post p)
    (hi : p.threads[i]? = some ⟨g, some (.call c k)⟩) (hc : P.cond p.world e g c)
    (hp : S.perform e p.world c = some (w, r)) :
    P.Ok post ⟨w, p.threads.set i ⟨g, some (k r)⟩⟩ := by
  obtain ⟨hinv, hg, hsafe⟩ := h.call hi hc hp
  have hh := h.holds i _ hi
  have hother : ∀ j t, j ≠ i → p.threads[j]? = some t →
      P.rely t.who p.world w ∧ P.holds t.who w := fun j t hj ht =>
    P.guar_rely g t.who e c _ _ h.inv (h.peers i j _ t (Ne.symm hj) hi ht) hh (h.holds j t ht) hg
  refine ⟨hinv, ?_, ?_, ?_⟩
  · intro j t hj
    rcases getElem?_set_cases hj with ⟨_, rfl⟩ | ⟨hne, hj⟩
    · exact P.guar_holds g e c _ _ h.inv hh hg
    · exact (hother j t hne hj).2
  · intro j t m hj hm
    rcases getElem?_set_cases hj with ⟨_, rfl⟩ | ⟨hne, hj⟩
    · cases hm
      exact hsafe
    · exact (h.safe j t m hj hm).rely (hother j t hne hj).1
  · exact h.peers_set hi

theorem Ok.crash {m : Prog C R α} (h : P.Ok post p) (hi : p.threads[i]? = some ⟨g, some m⟩) :
    P.Ok post ⟨p.world, p.threads.set i ⟨g, none⟩⟩ := by
  refine ⟨h.inv, ?_, ?_, ?_⟩
  · intro j t hj
    rcases getElem?_set_cases hj with ⟨_, rfl⟩ | ⟨_, hj⟩
    · exact h.holds i ⟨g, some m⟩ hi
    · exact h.holds j t hj
  · intro j t n hj hn
    rcases getElem?_set_cases hj with ⟨_, rfl⟩ | ⟨_, hj⟩
    · cases hn
    · exact h.safe j t n hj hn
  · exact h.peers_set hi

theorem ok_step (hstart : P.Starts post) (h : P.Ok post p) (hc : StepCond P.cond p l)
    (hs : S.step p l = some q) : P.Ok post q := by
  rcases S.step_cases hs with ⟨e, g, w, hw⟩ | ⟨i, e, g, c, k, w, r, hi, hp⟩ | ⟨i, g, m, hi⟩
  · exact h.spawn hstart hw
  · exact h.run hi (hc g c k hi) hp
  · exact h.crash hi

/-- Every pool that a conforming run reaches keeps to the protocol. -/
theorem ok_exec {ls : List (Label E Γ)} (hstart : P.Starts post) (h : P.Ok post p)
    (hc : Along S.step (StepCond P.cond) p ls) (he : exec S.step p ls = some q) :
    P.Ok post q :=
  along_invariant (fun _ _ _ hi hl hs => ok_step hstart hi hl hs) hc he h

end Protocol
end Interleaving
