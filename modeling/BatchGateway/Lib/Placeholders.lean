import Mathlib.Data.String.Basic
import Mathlib.Data.List.Basic

/-! Statements with numbered placeholders: a dollar sign and the number of the argument that stands
in its place. -/
namespace Placeholders

inductive Token where
  | char (c : Char)
  | placeholder (n : Nat)
  deriving DecidableEq, Repr

/-- What has been read before the next character. -/
inductive Lex where
  | text
  | dollar
  | number (n : Nat)

def digit (c : Char) : Nat := c.toNat - '0'.toNat

def scan : Lex → List Char → List Token
  | .text, [] => []
  | .dollar, [] => [.char '$']
  | .number n, [] => [.placeholder n]
  | .text, c :: cs => if c = '$' then scan .dollar cs else .char c :: scan .text cs
  | .dollar, c :: cs =>
    if c.isDigit then scan (.number (digit c)) cs
    else if c = '$' then .char '$' :: scan .dollar cs
    else .char '$' :: .char c :: scan .text cs
  | .number n, c :: cs =>
    if c.isDigit then scan (.number (10 * n + digit c)) cs
    else if c = '$' then .placeholder n :: scan .dollar cs
    else .placeholder n :: .char c :: scan .text cs

/-- A statement with its placeholders told apart from its text. -/
def tokens (s : String) : List Token := scan .text s.toList

def Token.number? : Token → Option Nat
  | char _ => none
  | placeholder n => some n

def numbers (ts : List Token) : List Nat := ts.filterMap Token.number?

/-- The numbers of the placeholders of a statement, from left to right. -/
def placeholders (s : String) : List Nat := numbers (tokens s)

/-- A statement in which the arguments stand themselves. -/
inductive Piece (α : Type) where
  | char (c : Char)
  | arg (a : α)
  deriving DecidableEq, Repr

variable {α : Type}

def Token.bind (args : List α) : Token → Option (Piece α)
  | char c => some (.char c)
  | placeholder n => if n = 0 then none else args[n - 1]?.map .arg

/-- Put the arguments in the place of their placeholders. -/
def bind (args : List α) (s : String) : Option (List (Piece α)) :=
  (tokens s).mapM (Token.bind args)

/-- Text without arguments. -/
def chars (s : String) : List (Piece α) := s.toList.map .char

def Piece.value? : Piece α → Option α
  | char _ => none
  | arg a => some a

def values (ps : List (Piece α)) : List α := ps.filterMap Piece.value?

/-- Give numbers to the arguments, from `n` on. -/
def number : Nat → List (Piece α) → List Token
  | _, [] => []
  | n, .char c :: ps => .char c :: number n ps
  | n, .arg _ :: ps => .placeholder n :: number (n + 1) ps

/-- The text is the statement with its arguments numbered from `n` on. -/
def Writes (n : Nat) (s : String) (ps : List (Piece α)) : Prop := tokens s = number n ps

/-- The text does not continue a number. -/
def Breaks (cs : List Char) : Prop := ∀ c ∈ cs.head?, c.isDigit = false

instance : (cs : List Char) → Decidable (Breaks cs)
  | [] => isTrue nofun
  | c :: _ => decidable_of_iff (c.isDigit = false) (by simp [Breaks])

@[simp] theorem numbers_char (c : Char) (ts : List Token) :
    numbers (.char c :: ts) = numbers ts := rfl

@[simp] theorem numbers_placeholder (n : Nat) (ts : List Token) :
    numbers (.placeholder n :: ts) = n :: numbers ts := rfl

@[simp] theorem values_nil : values ([] : List (Piece α)) = [] := rfl

@[simp] theorem values_char (c : Char) (ps : List (Piece α)) :
    values (.char c :: ps) = values ps := rfl

@[simp] theorem values_arg (a : α) (ps : List (Piece α)) :
    values (.arg a :: ps) = a :: values ps := rfl

/-! ### Reading -/

section Reading

attribute [local simp] scan

variable {s t : String} {cs rest : List Char} {c : Char} {n : Nat}

theorem scan_dollar_breaks (h : Breaks rest) :
    scan .dollar rest = .char '$' :: scan .text rest := by
  cases rest with
  | nil => rfl
  | cons c cs =>
    have hc : c.isDigit = false := h c rfl
    by_cases hd : c = '$'
    · simp [scan, hd]
    · simp [scan, hc, hd]

theorem scan_number_breaks (h : Breaks rest) :
    scan (.number n) rest = .placeholder n :: scan .text rest := by
  cases rest with
  | nil => rfl
  | cons c cs =>
    have hc : c.isDigit = false := h c rfl
    by_cases hd : c = '$'
    · simp [scan, hd]
    · simp [scan, hc, hd]

/-- What follows is read by itself, unless it continues a number. -/
theorem scan_append (st : Lex) (cs : List Char) (h : Breaks rest) :
    scan st (cs ++ rest) = scan st cs ++ scan .text rest := by
  induction cs generalizing st with
  | nil =>
    cases st with
    | text => rfl
    | dollar => exact scan_dollar_breaks h
    | number n => exact scan_number_breaks h
  | cons c cs ih =>
    cases st with
    | text =>
      by_cases hd : c = '$'
      · simp [scan, hd, ih]
      · simp [scan, hd, ih]
    | dollar =>
      by_cases hc : c.isDigit = true
      · simp [scan, hc, ih]
      · by_cases hd : c = '$'
        · simp [scan, hd, ih]
        · simp [scan, hc, hd, ih]
    | number n =>
      by_cases hc : c.isDigit = true
      · simp [scan, hc, ih]
      · by_cases hd : c = '$'
        · simp [scan, hd, ih]
        · simp [scan, hc, hd, ih]

theorem tokens_append (h : Breaks t.toList) : tokens (s ++ t) = tokens s ++ tokens t := by
  unfold tokens
  rw [String.toList_append]
  exact scan_append .text s.toList h

/-- Text without a dollar sign ends nothing and starts nothing. -/
theorem scan_plain (h : '$' ∉ cs) (rest : List Char) :
    scan .text (cs ++ rest) = cs.map .char ++ scan .text rest := by
  induction cs with
  | nil => rfl
  | cons c cs ih =>
    have hc : c ≠ '$' := fun he => h (he ▸ List.mem_cons_self)
    have hcs := ih fun hm => h (List.mem_cons_of_mem _ hm)
    simp [scan, hc, hcs]

/-- The digits of a number are read as that number. -/
theorem scan_digits (h : ∀ c ∈ cs, c.isDigit = true) (n : Nat) :
    scan (.number n) cs = [.placeholder (Nat.ofDigitChars 10 cs n)] := by
  induction cs generalizing n with
  | nil => rfl
  | cons c cs ih =>
    have hc := h c List.mem_cons_self
    rw [Nat.ofDigitChars_cons]
    simp only [scan, hc, if_true]
    exact ih (fun d hd => h d (List.mem_cons_of_mem _ hd)) _

theorem tokens_placeholder (n : Nat) : tokens ("$" ++ toString n) = [.placeholder n] := by
  have hdigits : ∀ c ∈ Nat.toDigits 10 n, c.isDigit = true := fun c hc =>
    Nat.isDigit_of_mem_toDigits (by decide) (by decide) hc
  have hvalue : Nat.ofDigitChars 10 (Nat.toDigits 10 n) 0 = n := Nat.ofDigitChars_ten_toDigits
  unfold tokens
  rw [String.toList_append, Nat.toString_eq_repr, Nat.toList_repr]
  -- a number has at least one digit
  cases hcs : Nat.toDigits 10 n with
  | nil => exact absurd hcs (Nat.toDigits_ne_nil)
  | cons c cs =>
    rw [hcs] at hdigits hvalue
    have hc := hdigits c List.mem_cons_self
    rw [Nat.ofDigitChars_cons] at hvalue
    change scan .dollar (c :: cs) = _
    simp only [scan, hc, if_true]
    rw [scan_digits (fun d hd => hdigits d (List.mem_cons_of_mem _ hd)), ← hvalue]
    simp [digit]

/-- A number that was started is a placeholder. -/
theorem scan_number_ne (cs : List Char) (n : Nat) : numbers (scan (.number n) cs) ≠ [] := by
  induction cs generalizing n with
  | nil => simp [scan]
  | cons c cs ih =>
    by_cases hc : c.isDigit = true
    · simpa only [scan, hc, if_true] using ih _
    · by_cases hd : c = '$'
      · simp [scan, hd]
      · simp [scan, hc, hd]

/-- Text in which no placeholder is read is read as it is. -/
theorem scan_of_no_numbers (cs : List Char) :
    (numbers (scan .text cs) = [] → scan .text cs = cs.map .char) ∧
    (numbers (scan .dollar cs) = [] → scan .dollar cs = .char '$' :: cs.map .char) := by
  induction cs with
  | nil => exact ⟨fun _ => rfl, fun _ => rfl⟩
  | cons c cs ih =>
    constructor
    · intro h
      by_cases hd : c = '$'
      · simp only [scan, hd, if_true] at h ⊢
        exact ih.2 h
      · simp only [scan, hd, if_false, numbers_char] at h ⊢
        rw [ih.1 h, List.map_cons]
    · intro h
      by_cases hc : c.isDigit = true
      · simp only [scan, hc, if_true] at h
        exact absurd h (scan_number_ne cs _)
      · by_cases hd : c = '$'
        · simp only [scan, hc, if_false, if_pos hd, numbers_char, Bool.false_eq_true] at h ⊢
          rw [ih.2 h, List.map_cons, hd]
        · simp only [scan, hc, hd, if_false, numbers_char, Bool.false_eq_true] at h ⊢
          rw [ih.1 h, List.map_cons]

end Reading

/-! ### Numbering -/

section Numbering

attribute [local simp] number

variable {s t : String} {n : Nat} {ps qs : List (Piece α)}

@[simp] theorem values_append : values (ps ++ qs) = values ps ++ values qs := by
  simp [values]

@[simp] theorem chars_empty : (chars "" : List (Piece α)) = [] := rfl

theorem chars_append (s t : String) :
    (chars (s ++ t) : List (Piece α)) = chars s ++ chars t := by
  simp [chars]

@[simp] theorem values_chars (s : String) : values (chars s : List (Piece α)) = [] := by
  unfold chars
  induction s.toList with
  | nil => rfl
  | cons c cs ih => simpa using ih

theorem number_append : number n (ps ++ qs) = number n ps ++ number (n + (values ps).length) qs := by
  induction ps generalizing n with
  | nil => rfl
  | cons p ps ih =>
    cases p with
    | char c => simp [number, ih]
    | arg a =>
      simp only [List.cons_append, number, ih, values_arg, List.length_cons]
      congr 3
      omega

theorem number_chars (n : Nat) (s : String) :
    number n (chars s : List (Piece α)) = s.toList.map .char := by
  unfold chars
  induction s.toList with
  | nil => rfl
  | cons c cs ih => simp [number, ih]

/-- The placeholders are those of the arguments, each once and in order. -/
theorem numbers_number (n : Nat) (ps : List (Piece α)) :
    numbers (number n ps) = List.range' n (values ps).length := by
  induction ps generalizing n with
  | nil => rfl
  | cons p ps ih =>
    cases p with
    | char c => simpa [number] using ih n
    | arg a => simpa [number, List.range'_succ] using ih (n + 1)

/-- The arguments come back to their places. -/
theorem bind_number (before : List α) (ps : List (Piece α)) :
    (number (before.length + 1) ps).mapM (Token.bind (before ++ values ps)) = some ps := by
  -- the arguments of the pieces already read stand before the others
  induction ps generalizing before with
  | nil => rfl
  | cons p ps ih =>
    cases p with
    | char c =>
      have hrest := ih before
      simp only [number, values_char, List.mapM_cons, hrest]
      rfl
    | arg a =>
      have hrest := ih (before ++ [a])
      have hvalues : before ++ values (.arg a :: ps) = (before ++ [a]) ++ values ps := by simp
      rw [hvalues]
      simp only [List.length_append, List.length_singleton] at hrest
      simp only [number, List.mapM_cons, hrest]
      simp [Token.bind]

theorem Writes.placeholders (h : Writes 1 s ps) :
    placeholders s = List.range' 1 (values ps).length := by
  unfold Placeholders.placeholders
  rw [h]
  exact numbers_number 1 ps

theorem Writes.bind (h : Writes 1 s ps) : bind (values ps) s = some ps := by
  unfold Placeholders.bind
  rw [h]
  exact bind_number [] ps

/-! ### Writing -/

theorem writes_of_no_placeholders (h : Placeholders.placeholders s = []) (n : Nat) :
    Writes n s (chars s : List (Piece α)) := by
  unfold Writes
  rw [number_chars]
  exact (scan_of_no_numbers s.toList).1 h

theorem writes_of_no_dollar (h : '$' ∉ s.toList) (n : Nat) :
    Writes n s (chars s : List (Piece α)) := by
  have hscan := scan_plain h []
  unfold Writes tokens
  rw [number_chars]
  simpa [scan] using hscan

theorem writes_arg (a : α) (n : Nat) : Writes n ("$" ++ toString n) [.arg a] :=
  tokens_placeholder n

/-- Two texts one after the other, of which the second does not continue a number. -/
theorem Writes.append (h : Writes n s ps) (h' : Writes (n + (values ps).length) t qs)
    (hb : Breaks t.toList) : Writes n (s ++ t) (ps ++ qs) := by
  unfold Writes at *
  rw [tokens_append hb, number_append, h, h']

/-- Text without a dollar sign before any other. -/
theorem Writes.after_plain (hs : '$' ∉ s.toList) (h : Writes n t qs) :
    Writes n (s ++ t) (chars s ++ qs) := by
  unfold Writes tokens at *
  rw [String.toList_append, scan_plain hs, number_append, number_chars, h, values_chars]
  rfl

/-- Texts in a row, with their arguments numbered throughout. -/
def WritesAll : Nat → List String → List (List (Piece α)) → Prop
  | _, [], [] => True
  | n, s :: ss, ps :: pss => Writes n s ps ∧ WritesAll (n + (values ps).length) ss pss
  | _, _, _ => False

variable {ss : List String} {pss : List (List (Piece α))}

theorem WritesAll.append {ts : List String} {qss : List (List (Piece α))} (h : WritesAll n ss pss)
    (h' : WritesAll (n + (values pss.flatten).length) ts qss) :
    WritesAll n (ss ++ ts) (pss ++ qss) := by
  induction ss generalizing n pss with
  | nil =>
    cases pss with
    | nil => exact h'
    | cons => exact h.elim
  | cons s ss ih =>
    cases pss with
    | nil => exact h.elim
    | cons ps pss =>
      refine ⟨h.1, ih h.2 ?_⟩
      have hn : n + (values (ps :: pss).flatten).length =
          n + (values ps).length + (values pss.flatten).length := by
        simp only [List.flatten_cons, values_append, List.length_append]
        omega
      rwa [hn] at h'

theorem WritesAll.snoc (h : WritesAll n ss pss)
    (h' : Writes (n + (values pss.flatten).length) s ps) : WritesAll n (ss ++ [s]) (pss ++ [ps]) :=
  h.append ⟨h', trivial⟩

theorem writesAll_of_no_placeholders (h : ∀ s ∈ ss, Placeholders.placeholders s = []) (n : Nat) :
    WritesAll n ss (ss.map chars : List (List (Piece α))) := by
  induction ss generalizing n with
  | nil => trivial
  | cons s ss ih =>
    exact ⟨writes_of_no_placeholders (h s List.mem_cons_self) n,
      ih (fun t ht => h t (List.mem_cons_of_mem _ ht)) _⟩

theorem WritesAll.eq_nil_iff (h : WritesAll n ss pss) : ss = [] ↔ pss = [] := by
  cases ss with
  | nil =>
    cases pss with
    | nil => exact ⟨fun _ => rfl, fun _ => rfl⟩
    | cons => exact h.elim
  | cons =>
    cases pss with
    | nil => exact h.elim
    | cons => exact ⟨nofun, nofun⟩

theorem breaks_append {cs ds : List Char} (hne : cs ≠ []) (h : Breaks cs) : Breaks (cs ++ ds) := by
  cases cs with
  | nil => exact absurd rfl hne
  | cons c cs => exact h

/-- A separator has no arguments. -/
theorem values_intercalate (sep : String) (pss : List (List (Piece α))) :
    values ((chars sep).intercalate pss) = values pss.flatten := by
  induction pss with
  | nil => rfl
  | cons ps pss ih =>
    cases pss with
    | nil => simp
    | cons ps' pss => simp [ih]

/-- Texts joined by a separator. -/
theorem WritesAll.intercalate (h : WritesAll n ss pss) (sep : String) (hsep : '$' ∉ sep.toList)
    (hne : sep.toList ≠ []) (hb : Breaks sep.toList) :
    Writes n (sep.intercalate ss) ((chars sep).intercalate pss) := by
  induction ss generalizing n pss with
  | nil =>
    cases pss with
    | nil => rfl
    | cons => exact h.elim
  | cons s ss ih =>
    cases pss with
    | nil => exact h.elim
    | cons ps pss =>
      cases ss with
      | nil =>
        cases pss with
        | nil => simpa using h.1
        | cons => exact h.2.elim
      | cons s' ss =>
        cases pss with
        | nil => exact h.2.elim
        | cons ps' pss =>
          rw [String.intercalate_cons_cons, List.intercalate_cons_cons, String.append_assoc,
            List.append_assoc]
          have hbreaks : Breaks (sep ++ sep.intercalate (s' :: ss)).toList := by
            rw [String.toList_append]
            exact breaks_append hne hb
          exact h.1.append (Writes.after_plain hsep (ih h.2)) hbreaks

end Numbering

end Placeholders
