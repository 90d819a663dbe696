import Mathlib.Data.Multiset.Count
import Mathlib.Data.List.Nodup

/-! A registry of shared objects with reference counts. A reference is taken and dropped by the key
of the object; the last one to be dropped removes the object, and a later one under the same key
is of a new object. -/
namespace Refcount

structure Entry where
  id : Nat
  refs : Nat
  deriving DecidableEq, Repr

/-- The registered objects, and the identity of the next one. -/
structure Registry (κ : Type) where
  entries : List (κ × Entry) := []
  next : Nat := 0
  deriving DecidableEq, Repr

variable {κ : Type} [DecidableEq κ]

namespace Registry

variable (r : Registry κ) (k : κ)

def find : Option Entry := (r.entries.find? (·.1 = k)).map Prod.snd

def setRefs (refs : Nat) : Registry κ :=
  { r with entries := r.entries.map fun x => if x.1 = k then (x.1, { x.2 with refs }) else x }

def insert : Registry κ := ⟨(k, ⟨r.next, 1⟩) :: r.entries, r.next + 1⟩

def erase : Registry κ := { r with entries := r.entries.filter (·.1 ≠ k) }

variable {r k} {e : Entry}

theorem mem_of_find (h : r.find k = some e) : (k, e) ∈ r.entries := by
  obtain ⟨x, hx, rfl⟩ := Option.map_eq_some_iff.1 h
  have hk : x.1 = k := by simpa using List.find?_some hx
  rw [← hk]
  exact List.mem_of_find?_eq_some hx

theorem ne_of_find_none (h : r.find k = none) {x : κ × Entry} (hx : x ∈ r.entries) : x.1 ≠ k := by
  have hnone := List.find?_eq_none.1 (Option.map_eq_none_iff.1 h) x hx
  simpa using hnone

theorem keys_setRefs (refs : Nat) :
    (r.setRefs k refs).entries.map Prod.fst = r.entries.map Prod.fst := by
  rw [setRefs, List.map_map]
  apply List.map_congr_left
  intro x _
  dsimp only [Function.comp]
  split <;> rfl

theorem mem_setRefs {refs : Nat} {x : κ × Entry} : x ∈ (r.setRefs k refs).entries ↔
    ∃ y ∈ r.entries, x = if y.1 = k then (y.1, { y.2 with refs }) else y := by
  simp only [setRefs, List.mem_map, eq_comm]

theorem mem_erase {x : κ × Entry} : x ∈ (r.erase k).entries ↔ x ∈ r.entries ∧ x.1 ≠ k := by
  simp [erase]

end Registry

/-- The counts are those of the references held, which are all of registered objects. -/
structure Counted (r : Registry κ) (held : Multiset (κ × Nat)) : Prop where
  keys : (r.entries.map Prod.fst).Nodup
  ids : (r.entries.map (·.2.id)).Nodup
  old : ∀ x ∈ r.entries, x.2.id < r.next
  refs : ∀ x ∈ r.entries, x.2.refs = held.count (x.1, x.2.id)
  registered : ∀ h ∈ held, ∃ e, (h.1, e) ∈ r.entries ∧ e.id = h.2

namespace Counted

variable {r : Registry κ} {k : κ} {e : Entry} {held : Multiset (κ × Nat)}

theorem empty : Counted ({} : Registry κ) 0 where
  keys := List.nodup_nil
  ids := List.nodup_nil
  old _ hx := nomatch hx
  refs _ hx := nomatch hx
  registered _ hh := absurd hh (Multiset.notMem_zero _)

section

variable (h : Counted r held)
include h

theorem eq_of_key {x y : κ × Entry} (hx : x ∈ r.entries) (hy : y ∈ r.entries) (hk : x.1 = y.1) :
    x = y :=
  List.inj_on_of_nodup_map h.keys hx hy hk

theorem eq_of_id {x y : κ × Entry} (hx : x ∈ r.entries) (hy : y ∈ r.entries) (hid : x.2.id = y.2.id)
    : x = y :=
  List.inj_on_of_nodup_map h.ids hx hy hid

theorem find_of_mem (he : (k, e) ∈ r.entries) : r.find k = some e := by
  cases hf : r.find k with
  | none => exact absurd rfl (Registry.ne_of_find_none hf he)
  | some e' =>
    have heq := h.eq_of_key (Registry.mem_of_find hf) he rfl
    rw [(Prod.mk.inj heq).2]

/-- Setting the count of an object to that of the new references. -/
theorem setRefs (he : (k, e) ∈ r.entries) {held' : Multiset (κ × Nat)}
    (hother : ∀ x, x ≠ (k, e.id) → held'.count x = held.count x) :
    Counted (r.setRefs k (held'.count (k, e.id))) held' where
  keys := by
    rw [Registry.keys_setRefs]
    exact h.keys
  ids := by
    have hids : (r.setRefs k (held'.count (k, e.id))).entries.map (·.2.id) =
        r.entries.map (·.2.id) := by
      rw [Registry.setRefs, List.map_map]
      apply List.map_congr_left
      intro x _
      dsimp only [Function.comp]
      split <;> rfl
    rw [hids]
    exact h.ids
  old x hx := by
    obtain ⟨y, hy, rfl⟩ := Registry.mem_setRefs.1 hx
    have hold := h.old y hy
    split <;> exact hold
  refs x hx := by
    obtain ⟨y, hy, rfl⟩ := Registry.mem_setRefs.1 hx
    split
    next hk =>
      have heq := h.eq_of_key hy he hk
      rw [heq]
    next hk =>
      have hne : (y.1, y.2.id) ≠ (k, e.id) := fun heq => hk (Prod.mk.inj heq).1
      rw [hother _ hne]
      exact h.refs y hy
  registered x hx := by
    have hcount : 0 < held'.count x := Multiset.count_pos.2 hx
    by_cases hxe : x = (k, e.id)
    · rw [hxe]
      exact ⟨_, Registry.mem_setRefs.2 ⟨(k, e), he, (if_pos rfl).symm⟩, rfl⟩
    · rw [hother x hxe] at hcount
      obtain ⟨e', he', hid⟩ := h.registered x (Multiset.count_pos.1 hcount)
      have hk : x.1 ≠ k := by
        intro hk
        have heq := h.eq_of_key he' he hk
        apply hxe
        refine Prod.ext hk ?_
        rw [← hid, (Prod.mk.inj heq).2]
      exact ⟨e', Registry.mem_setRefs.2 ⟨(x.1, e'), he', (if_neg hk).symm⟩, hid⟩

/-- One more reference to a registered object. -/
theorem retain (hf : r.find k = some e) :
    Counted (r.setRefs k (e.refs + 1)) ((k, e.id) ::ₘ held) := by
  have he := Registry.mem_of_find hf
  have hcount : e.refs + 1 = Multiset.count (k, e.id) ((k, e.id) ::ₘ held) := by
    rw [Multiset.count_cons_self, h.refs _ he]
  rw [hcount]
  exact h.setRefs he fun x hx => Multiset.count_cons_of_ne hx _

/-- The first reference to a new object. -/
theorem insert (hf : r.find k = none) :
    Counted (r.insert k) ((k, r.next) ::ₘ held) where
  keys := by
    refine List.nodup_cons.2 ⟨fun hmem => ?_, h.keys⟩
    obtain ⟨x, hx, hk⟩ := List.mem_map.1 hmem
    exact Registry.ne_of_find_none hf hx hk
  ids := by
    refine List.nodup_cons.2 ⟨fun hmem => ?_, h.ids⟩
    obtain ⟨x, hx, hid⟩ := List.mem_map.1 hmem
    have hlt := h.old x hx
    have hself : x.2.id = r.next := hid
    omega
  old x hx := by
    rcases List.mem_cons.1 hx with rfl | hx
    · exact Nat.lt_succ_self _
    · exact Nat.lt_succ_of_lt (h.old x hx)
  refs x hx := by
    rcases List.mem_cons.1 hx with rfl | hx
    · have hzero : held.count (k, r.next) = 0 := by
        rw [Multiset.count_eq_zero]
        intro hmem
        obtain ⟨e, he, hid⟩ := h.registered _ hmem
        exact Registry.ne_of_find_none hf he rfl
      rw [Multiset.count_cons_self, hzero]
    · have hne : (x.1, x.2.id) ≠ (k, r.next) := fun heq =>
        Registry.ne_of_find_none hf hx (Prod.mk.inj heq).1
      rw [Multiset.count_cons_of_ne hne]
      exact h.refs x hx
  registered x hx := by
    rcases Multiset.mem_cons.1 hx with rfl | hx
    · exact ⟨_, List.mem_cons_self, rfl⟩
    · obtain ⟨e, he, hid⟩ := h.registered x hx
      exact ⟨e, List.mem_cons_of_mem _ he, hid⟩

end

/-- A reference that is held is of the object registered under its key, which counts it. -/
theorem find_of_held {b : Nat} (h : Counted r ((k, b) ::ₘ held)) :
    ∃ e, r.find k = some e ∧ e.id = b ∧ e.refs = held.count (k, b) + 1 := by
  obtain ⟨e, he, hid⟩ := h.registered _ (Multiset.mem_cons_self _ _)
  refine ⟨e, h.find_of_mem he, hid, ?_⟩
  have hrefs : e.refs = Multiset.count (k, e.id) ((k, b) ::ₘ held) := h.refs _ he
  have hid' : e.id = b := hid
  rw [hrefs, hid', Multiset.count_cons_self]

/-- One reference less, which was not the last. -/
theorem release {b : Nat} (h : Counted r ((k, b) ::ₘ held)) (hf : r.find k = some e) :
    Counted (r.setRefs k (e.refs - 1)) held := by
  obtain ⟨e', hf', hid, hrefs⟩ := h.find_of_held
  cases hf.symm.trans hf'
  have he := Registry.mem_of_find hf
  have hcount : e.refs - 1 = held.count (k, e.id) := by
    rw [hrefs, hid]
    rfl
  rw [hcount]
  refine h.setRefs he fun x hx => ?_
  rw [hid] at hx
  rw [Multiset.count_cons_of_ne hx]

/-- The last reference; nothing else refers to the object. -/
theorem erase {b : Nat} (h : Counted r ((k, b) ::ₘ held)) (hf : r.find k = some e)
    (hlast : e.refs - 1 = 0) : Counted (r.erase k) held ∧ ∀ x ∈ held, x.1 ≠ k ∧ x.2 ≠ b := by
  obtain ⟨e', hf', hid, hrefs⟩ := h.find_of_held
  cases hf.symm.trans hf'
  have he := Registry.mem_of_find hf
  have hnone : ∀ x ∈ held, x.1 ≠ k ∧ x.2 ≠ b := by
    intro x hx
    have hxk : x ≠ (k, b) := by
      rintro rfl
      have hpos := Multiset.count_pos.2 hx
      omega
    obtain ⟨ex, hex, hidx⟩ := h.registered x (Multiset.mem_cons_of_mem hx)
    constructor
    · intro hk
      have heq := h.eq_of_key hex he hk
      apply hxk
      refine Prod.ext hk ?_
      rw [← hidx, (Prod.mk.inj heq).2, hid]
    · intro hb
      have heq := h.eq_of_id hex he (hidx.trans (hb.trans hid.symm))
      exact hxk (Prod.ext (Prod.mk.inj heq).1 hb)
  refine ⟨⟨?_, ?_, ?_, ?_, ?_⟩, hnone⟩
  · exact h.keys.sublist (List.filter_sublist.map _)
  · exact h.ids.sublist (List.filter_sublist.map _)
  · exact fun x hx => h.old x (Registry.mem_erase.1 hx).1
  · intro x hx
    obtain ⟨hx, hk⟩ := Registry.mem_erase.1 hx
    have hne : (x.1, x.2.id) ≠ (k, b) := fun heq => hk (Prod.mk.inj heq).1
    rw [h.refs x hx, Multiset.count_cons_of_ne hne]
  · intro x hx
    obtain ⟨ex, hex, hidx⟩ := h.registered x (Multiset.mem_cons_of_mem hx)
    exact ⟨ex, Registry.mem_erase.2 ⟨hex, (hnone x hx).1⟩, hidx⟩

end Counted
end Refcount
