import Mathlib.Data.List.Forall2

/-! Decoding of JSON values into typed records, as Go's `encoding/json` does it. Members keep their
order and may repeat; a value of the wrong type does not stop the decoding, but fails the call. -/
namespace GoJson

/-- A syntactically valid JSON text. A number is kept as its literal. -/
inductive Json where
  | null
  | bool (b : Bool)
  | num (literal : String)
  | str (s : String)
  | arr (items : List Json)
  | obj (members : List (String × Json))

/-- What decoding takes from the rest of the library. -/
structure Codec where
  /-- The scanner: `none` for a text that is not valid JSON. -/
  parse : List UInt8 → Option Json
  /-- The case folding under which member names are compared. -/
  fold : String → String
  /-- The literal is in the range of a 64-bit float. -/
  parsesFloat : String → Bool
  /-- The text of the error for bytes that are not valid JSON. -/
  syntaxError : List UInt8 → String
  /-- The text of the error for a value that does not fit the named type. -/
  typeError : String → Json → String

/-- Decode into a variable that already has a value; the flag is false if an error was noted. -/
abbrev Decoder (α : Type) := Json → α → α × Bool

variable {α σ τ : Type}

/-- A string; `null` leaves the variable alone. -/
def decodeString : Decoder String
  | .null, old => (old, true)
  | .str s, _ => (s, true)
  | _, old => (old, false)

/-- A pointer to a boolean; `null` resets it. -/
def decodeBoolPtr : Decoder (Option Bool)
  | .null, _ => (none, true)
  | .bool b, _ => (some b, true)
  | _, old => (some (old.getD false), false)

/-- A value that stays encoded. -/
def decodeRaw : Decoder (Option Json)
  | v, _ => (some v, true)

/-- A slice and what its array still holds behind its end. -/
structure Slice (α : Type) where
  items : List α := []
  behind : List α := []

/-- Decode element by element into the array that the slice already has. -/
def decodeItems (zero : α) (dec : Decoder α) : List Json → List α → List α × Bool
  | [], _ => ([], true)
  | v :: vs, array =>
    let (x, ok) := dec v (array.head?.getD zero)
    let (xs, oks) := decodeItems zero dec vs array.tail
    (x :: xs, ok && oks)

/-- A slice: its elements are decoded over the old ones, and an empty array starts afresh. -/
def decodeSlice (zero : α) (dec : Decoder α) : Decoder (Slice α)
  | .null, _ => ({}, true)
  | .arr [], _ => ({}, true)
  | .arr (v :: vs), old =>
    let array := old.items ++ old.behind
    let (xs, ok) := decodeItems zero dec (v :: vs) array
    ({ items := xs, behind := array.drop xs.length }, ok)
  | _, old => (old, false)

/-- A field of a record: its name in JSON and how its value is decoded. -/
structure Field (σ : Type) where
  name : String
  decode : Decoder σ

namespace Codec

variable (codec : Codec)

/-- The field a member belongs to: the one of that very name, else the first of that name up to
case. -/
def field (fields : List (Field σ)) (key : String) : Option (Field σ) :=
  (fields.find? (·.name = key)).or (fields.find? fun f => codec.fold f.name = codec.fold key)

/-- One member; a member that belongs to no field is skipped. -/
def decodeMember (fields : List (Field σ)) (s : σ) (key : String) (v : Json) : σ × Bool :=
  match codec.field fields key with
  | none => (s, true)
  | some f => f.decode v s

/-- The members in order; a later one overwrites what an earlier one set. -/
def decodeMembers (fields : List (Field σ)) : List (String × Json) → σ → σ × Bool
  | [], s => (s, true)
  | (key, v) :: rest, s =>
    let (s, ok) := codec.decodeMember fields s key v
    let (s, oks) := decodeMembers fields rest s
    (s, ok && oks)

def decodeStruct (fields : List (Field σ)) : Decoder σ
  | .null, old => (old, true)
  | .obj members, old => codec.decodeMembers fields members old
  | _, old => (old, false)

mutual

/-- Every number in the value is in the range of a float. -/
def floats : Json → Bool
  | .num literal => codec.parsesFloat literal
  | .arr items => floatItems items
  | .obj members => floatMembers members
  | .null | .bool _ | .str _ => true

def floatItems : List Json → Bool
  | [] => true
  | v :: vs => floats v && floatItems vs

def floatMembers : List (String × Json) → Bool
  | [] => true
  | (_, v) :: rest => floats v && floatMembers rest

end

/-- A map from names to values of any type, the latest entry first. An object adds its members to
the map that is there; `null` removes the map. A number has to fit a float. -/
def decodeMap : Decoder (List (String × Json))
  | .null, _ => ([], true)
  | .obj members, old => (members.reverse ++ old, codec.floatMembers members)
  | _, old => (old, false)

/-- Decode a value into a fresh variable of the named type. -/
def decodeValue (dec : Decoder α) (zero : α) (type : String) (v : Json) : Except String α :=
  match dec v zero with
  | (x, true) => .ok x
  | (_, false) => .error (codec.typeError type v)

/-- Decode a text into a fresh variable of the named type. -/
def unmarshal (dec : Decoder α) (zero : α) (type : String) (data : List UInt8) :
    Except String α :=
  match codec.parse data with
  | none => .error (codec.syntaxError data)
  | some v => codec.decodeValue dec zero type v

end Codec

variable {codec : Codec}

theorem mem_of_field {fields : List (Field σ)} {f : Field σ} {key : String}
    (h : codec.field fields key = some f) : f ∈ fields := by
  unfold Codec.field at h
  cases hx : fields.find? (·.name = key) with
  | some g =>
    rw [hx] at h
    cases h
    exact List.mem_of_find?_eq_some hx
  | none =>
    rw [hx, Option.none_or] at h
    exact List.mem_of_find?_eq_some h

theorem unmarshal_ok {dec : Decoder α} {zero x : α} {type : String} {data : List UInt8} :
    codec.unmarshal dec zero type data = .ok x ↔
      ∃ v, codec.parse data = some v ∧ dec v zero = (x, true) := by
  unfold Codec.unmarshal
  cases codec.parse data with
  | none => simp
  | some v =>
    simp only [Codec.decodeValue, Option.some.injEq, exists_eq_left']
    split
    next hx => simp [hx]
    next hx => simp [hx]

/-! ### Two records decoded from one object -/

/-- Fields of one name, the second of which can follow the first on the values in `P`. -/
def Follows (R : σ → τ → Prop) (P : String → Json → Prop) (f : Field σ) (g : Field τ) : Prop :=
  f.name = g.name ∧ ∀ v s t, P f.name v → R s t → (f.decode v s).2 = true →
    (g.decode v t).2 = true ∧ R (f.decode v s).1 (g.decode v t).1

variable {R : σ → τ → Prop} {P : String → Json → Prop} {fs : List (Field σ)}
  {gs : List (Field τ)}

theorem find?_follows {p : String → Bool} (h : List.Forall₂ (Follows R P) fs gs) :
    Option.Rel (Follows R P) (fs.find? (p ·.name)) (gs.find? (p ·.name)) := by
  induction h with
  | nil => exact .none
  | @cons f g fs gs hfg _ ih =>
    have hname : p f.name = p g.name := by rw [hfg.1]
    by_cases hp : p f.name = true
    · have hq : p g.name = true := hname ▸ hp
      simpa [List.find?_cons, hp, hq] using Option.Rel.some hfg
    · have hq : ¬ p g.name = true := hname ▸ hp
      simpa [List.find?_cons, hp, hq] using ih

theorem field_follows (codec : Codec) (key : String) (h : List.Forall₂ (Follows R P) fs gs) :
    Option.Rel (Follows R P) (codec.field fs key) (codec.field gs key) := by
  have hexact := find?_follows (p := (· = key)) h
  have hfold := find?_follows (p := fun name => codec.fold name = codec.fold key) h
  unfold Codec.field
  generalize fs.find? (·.name = key) = a at hexact ⊢
  generalize gs.find? (·.name = key) = b at hexact ⊢
  cases hexact with
  | some hfg => exact .some hfg
  | none => exact hfold

/-- Where one record is decoded without an error, so is one whose fields follow it, and both stay
related. -/
theorem decodeMembers_follows (h : List.Forall₂ (Follows R P) fs gs)
    {members : List (String × Json)} {s : σ} {t : τ}
    (hP : ∀ m ∈ members, ∀ f, codec.field fs m.1 = some f → P f.name m.2) (hR : R s t)
    (hok : (codec.decodeMembers fs members s).2 = true) :
    (codec.decodeMembers gs members t).2 = true ∧
      R (codec.decodeMembers fs members s).1 (codec.decodeMembers gs members t).1 := by
  induction members generalizing s t with
  | nil => exact ⟨rfl, hR⟩
  | cons m rest ih =>
    obtain ⟨key, v⟩ := m
    simp only [Codec.decodeMembers, Bool.and_eq_true] at hok ⊢
    have hrest : ∀ m ∈ rest, ∀ f, codec.field fs m.1 = some f → P f.name m.2 :=
      fun m hm => hP m (List.mem_cons_of_mem _ hm)
    have hm : (codec.decodeMember gs t key v).2 = true ∧
        R (codec.decodeMember fs s key v).1 (codec.decodeMember gs t key v).1 := by
      have hfield := field_follows codec key h
      have hv := hP (key, v) List.mem_cons_self
      have hmem := hok.1
      unfold Codec.decodeMember at hmem ⊢
      generalize codec.field gs key = g at hfield ⊢
      cases hf : codec.field fs key with
      | none =>
        rw [hf] at hfield
        cases hfield
        exact ⟨rfl, hR⟩
      | some f =>
        rw [hf] at hfield hmem
        cases hfield with
        | some hfg => exact hfg.2 v s t (hv f hf) hR hmem
    obtain ⟨hok', hR'⟩ := ih hrest hm.2 hok.2
    exact ⟨⟨hm.1, hok'⟩, hR'⟩

end GoJson
