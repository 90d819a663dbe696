import Mathlib.Data.Nat.Log
import Mathlib.Tactic.Ring
import Mathlib.Tactic.Set

/-! Rounding of natural numbers to 53 significant bits, to the nearest and on a tie to the even one,
and the product of an integer with a factor below one, as double precision computes it. -/
namespace Binary64

/-- `n / unit` to the nearest integer, on a tie to the even one. -/
def nearest (n unit : Nat) : Nat :=
  if 2 * (n % unit) < unit ∨ 2 * (n % unit) = unit ∧ n / unit % 2 = 0 then n / unit
  else n / unit + 1

/-- The place of the last of 53 bits. -/
def unit (n : Nat) : Nat := 2 ^ (Nat.log 2 n - 52)

def round (n : Nat) : Nat := if n < 2 ^ 53 then n else nearest n (unit n) * unit n

/-- A number of at most 53 bits, shifted. -/
def Representable (n : Nat) : Prop := ∃ m e, m < 2 ^ 53 ∧ n = m * 2 ^ e

/-- A double between zero and one: `mantissa / 2 ^ shift`. -/
structure UnitFloat where
  mantissa : Nat
  shift : Nat
  mantissa_lt : mantissa < 2 ^ 53
  shift_le : shift ≤ 1074
  pos : 0 < mantissa
  lt_one : mantissa < 2 ^ shift
  deriving DecidableEq, Repr

/-- The floor of the product of an integer, converted to a double, with a factor. The product is
rounded in the unit of the factor, of which it is a multiple. -/
def floorMul (n : Nat) (f : UnitFloat) : Nat := round (round n * f.mantissa) / 2 ^ f.shift

/-- The same for an integer of any sign. -/
def floorMulInt : Int → UnitFloat → Int
  | .ofNat n, f => floorMul n f
  | .negSucc n, f =>
    -((round (round (n + 1) * f.mantissa) + (2 ^ f.shift - 1)) / 2 ^ f.shift : Nat)

variable {n m k g : Nat}

theorem nearest_cases (n : Nat) (hk : 0 < k) :
    nearest n k = n / k ∨ nearest n k = n / k + 1 ∧ 0 < n % k := by
  unfold nearest
  split
  · exact .inl rfl
  · refine .inr ⟨rfl, ?_⟩
    omega

/-- The nearest multiple is not beyond a multiple that the number is not beyond. -/
theorem nearest_le (hk : 0 < k) (h : n ≤ m * k) : nearest n k ≤ m := by
  have hdiv : n / k ≤ m := Nat.div_le_of_le_mul (by rwa [Nat.mul_comm])
  rcases nearest_cases n hk with heq | ⟨heq, hmod⟩
  · omega
  · rw [heq]
    -- the remainder keeps the quotient below the bound
    have hsplit := Nat.div_add_mod n k
    by_contra hnot
    have hq : n / k = m := by omega
    rw [hq, Nat.mul_comm k m] at hsplit
    omega

theorem unit_pos (n : Nat) : 0 < unit n := Nat.two_pow_pos _

theorem log_bounds (h : 2 ^ 53 ≤ n) : 53 ≤ Nat.log 2 n ∧ 2 ^ Nat.log 2 n ≤ n ∧
    n < 2 ^ (Nat.log 2 n + 1) := by
  have hne : n ≠ 0 := by
    have := Nat.two_pow_pos 53
    omega
  exact ⟨Nat.le_log_of_pow_le (by decide) h, Nat.pow_log_le_self 2 hne,
    Nat.lt_pow_succ_log_self (by decide) n⟩

/-- The quotient by the unit has 53 bits. -/
theorem div_unit (h : 2 ^ 53 ≤ n) : 2 ^ 52 ≤ n / unit n ∧ n / unit n < 2 ^ 53 := by
  obtain ⟨hlog, hle, hlt⟩ := log_bounds h
  have hlow : 2 ^ Nat.log 2 n = 2 ^ 52 * unit n := by
    rw [unit, ← Nat.pow_add]
    congr 1
    omega
  have hhigh : 2 ^ (Nat.log 2 n + 1) = 2 ^ 53 * unit n := by
    rw [unit, ← Nat.pow_add]
    congr 1
    omega
  rw [hlow] at hle
  rw [hhigh] at hlt
  exact ⟨(Nat.le_div_iff_mul_le (unit_pos n)).2 hle, (Nat.div_lt_iff_lt_mul (unit_pos n)).2 hlt⟩

theorem Representable.mul_pow (h : Representable n) (k : Nat) : Representable (n * 2 ^ k) := by
  obtain ⟨m, e, hm, rfl⟩ := h
  refine ⟨m, e + k, hm, ?_⟩
  rw [Nat.pow_add, Nat.mul_assoc]

theorem representable_round (n : Nat) : Representable (round n) := by
  unfold round
  split
  next h => exact ⟨n, 0, h, by simp⟩
  next h =>
    have hquot := (div_unit (Nat.le_of_not_lt h)).2
    by_cases hfull : nearest n (unit n) < 2 ^ 53
    · exact ⟨_, _, hfull, rfl⟩
    · -- rounded up to the next power of two
      have heq : nearest n (unit n) = 2 ^ 53 := by
        rcases nearest_cases n (unit_pos n) with heq | ⟨heq, -⟩
        · omega
        · omega
      refine ⟨1, 53 + (Nat.log 2 n - 52), by decide, ?_⟩
      rw [heq, Nat.pow_add, Nat.one_mul]
      rfl

/-- Rounding does not pass a number that is representable. -/
theorem round_le (hg : Representable g) (h : n ≤ g) : round n ≤ g := by
  unfold round
  split
  · exact h
  next hn =>
    obtain ⟨hlog, hle, -⟩ := log_bounds (Nat.le_of_not_lt hn)
    obtain ⟨m, e, hm, rfl⟩ := hg
    have hexp : Nat.log 2 n - 52 ≤ e := by
      have hpow : 2 ^ Nat.log 2 n < 2 ^ (53 + e) := by
        rw [Nat.pow_add]
        exact Nat.lt_of_le_of_lt (Nat.le_trans hle h)
          (Nat.mul_lt_mul_of_pos_right hm (Nat.two_pow_pos e))
      have := (Nat.pow_lt_pow_iff_right (by decide)).1 hpow
      omega
    have hmul : m * 2 ^ e = m * 2 ^ (e - (Nat.log 2 n - 52)) * unit n := by
      rw [unit, Nat.mul_assoc, ← Nat.pow_add]
      congr 2
      omega
    rw [hmul] at h ⊢
    exact Nat.mul_le_mul_right _ (nearest_le (unit_pos n) h)

/-- A factor below one is at most `1 - 2⁻⁵³`. -/
theorem UnitFloat.mantissa_mul_le (f : UnitFloat) :
    f.mantissa * 2 ^ 53 ≤ (2 ^ 53 - 1) * 2 ^ f.shift := by
  have hlt := f.lt_one
  have hmantissa := f.mantissa_lt
  rcases Nat.le_total f.shift 53 with h | h
  · have hpow : 2 ^ f.shift ≤ 2 ^ 53 := Nat.pow_le_pow_right (by decide) h
    omega
  · have hpow : 2 ^ 53 ≤ 2 ^ f.shift := Nat.pow_le_pow_right (by decide) h
    calc f.mantissa * 2 ^ 53 ≤ (2 ^ 53 - 1) * 2 ^ 53 := Nat.mul_le_mul_right _ (by omega)
      _ ≤ (2 ^ 53 - 1) * 2 ^ f.shift := Nat.mul_le_mul_left _ hpow

/-- Less than half a unit above a multiple with 53 bits is rounded down to it. -/
theorem round_eq_of_lt_half {q u : Nat} (hq : 2 ^ 52 ≤ q) (hq' : q < 2 ^ 53) (hle : q * 2 ^ u ≤ n)
    (hlt : 2 * n < (2 * q + 1) * 2 ^ u) (hn : 2 ^ 53 ≤ n) : round n = q * 2 ^ u := by
  have hu := Nat.two_pow_pos u
  have hlog : Nat.log 2 n = 52 + u := by
    apply Nat.log_eq_of_pow_le_of_lt_pow
    · rw [Nat.pow_add]
      exact Nat.le_trans (Nat.mul_le_mul_right _ hq) hle
    · rw [show 52 + u + 1 = 53 + u by omega, Nat.pow_add]
      have hnext : (q + 1) * 2 ^ u ≤ 2 ^ 53 * 2 ^ u := Nat.mul_le_mul_right _ hq'
      have hhalf : (2 * q + 1) * 2 ^ u ≤ 2 * ((q + 1) * 2 ^ u) := by
        rw [← Nat.mul_assoc]
        exact Nat.mul_le_mul_right _ (by omega)
      omega
  have hunit : unit n = 2 ^ u := by
    rw [unit, hlog]
    congr 1
    omega
  have hdiv : n / 2 ^ u = q := by
    apply Nat.div_eq_of_lt_le hle
    have hexpand : (2 * q + 1) * 2 ^ u + 2 ^ u = 2 * ((q + 1) * 2 ^ u) := by ring
    omega
  have hmod : 2 * (n % 2 ^ u) < 2 ^ u := by
    have hsplit := Nat.div_add_mod n (2 ^ u)
    rw [hdiv] at hsplit
    have hexpand : (2 * q + 1) * 2 ^ u = 2 * (2 ^ u * q) + 2 ^ u := by ring
    omega
  unfold round nearest
  rw [if_neg (Nat.not_lt.2 hn), hunit, if_pos (.inl hmod), hdiv]

/-- An integer that is rounded up is rounded to the next multiple of its unit. -/
theorem round_up (h : n < round n) : 2 ^ 53 ≤ n ∧ round n = (n / unit n + 1) * unit n := by
  unfold round at h ⊢
  split at h
  · omega
  next hn =>
    refine ⟨Nat.le_of_not_lt hn, ?_⟩
    rw [if_neg hn]
    rcases nearest_cases n (unit_pos n) with heq | ⟨heq, -⟩
    · rw [heq] at h
      have := Nat.div_mul_le_self n (unit n)
      omega
    · rw [heq]

/-- A factor below one does not increase an integer. -/
theorem floorMul_le (n : Nat) (f : UnitFloat) : floorMul n f ≤ n := by
  have hone : f.mantissa ≤ 2 ^ f.shift := Nat.le_of_lt f.lt_one
  suffices hround : round (round n * f.mantissa) ≤ n * 2 ^ f.shift by
    rw [Nat.mul_comm n] at hround
    exact Nat.div_le_of_le_mul hround
  rcases Nat.lt_or_ge n (round n) with hup | hdown
  · obtain ⟨hn, hx⟩ := round_up hup
    obtain ⟨hq, hq'⟩ := div_unit hn
    have hlog := (log_bounds hn).1
    -- the product in units of the converted integer, shifted by the factor
    set q := n / unit n
    set u := Nat.log 2 n - 52 + f.shift with hu
    have hunit : unit n * 2 ^ f.shift = 2 ^ u := by rw [unit, ← Nat.pow_add]
    have hbound : q * 2 ^ u ≤ n * 2 ^ f.shift := by
      rw [← hunit, ← Nat.mul_assoc]
      exact Nat.mul_le_mul_right _ (Nat.div_mul_le_self n (unit n))
    have hprod : round n * f.mantissa * 2 ^ 53 ≤ (2 ^ 53 - 1) * (q * 2 ^ u + 2 ^ u) := by
      calc round n * f.mantissa * 2 ^ 53 = round n * (f.mantissa * 2 ^ 53) := Nat.mul_assoc _ _ _
        _ ≤ round n * ((2 ^ 53 - 1) * 2 ^ f.shift) := Nat.mul_le_mul_left _ f.mantissa_mul_le
        _ = (2 ^ 53 - 1) * (q * 2 ^ u + 2 ^ u) := by
          rw [hx, ← hunit]
          ring
    have hlow : 2 ^ 52 * 2 ^ u ≤ q * 2 ^ u := Nat.mul_le_mul_right _ hq
    have hpos := Nat.two_pow_pos u
    rcases Nat.le_total (round n * f.mantissa) (q * 2 ^ u) with hle | hge
    · exact Nat.le_trans (round_le ⟨q, u, hq', rfl⟩ hle) hbound
    · have htwo : 2 ≤ 2 ^ u := by
        have := Nat.pow_le_pow_right (show 0 < 2 by decide) (show 1 ≤ u by omega)
        simpa using this
      have hhalf : 2 * (round n * f.mantissa) < (2 * q + 1) * 2 ^ u := by
        have hexpand : (2 * q + 1) * 2 ^ u = 2 * (q * 2 ^ u) + 2 ^ u := by ring
        omega
      rw [round_eq_of_lt_half hq hq' hge hhalf (by omega)]
      exact hbound
  · exact Nat.le_trans
      (round_le ((representable_round n).mul_pow f.shift) (Nat.mul_le_mul_left _ hone))
      (Nat.mul_le_mul_right _ hdown)

theorem floorMulInt_le {n : Int} (h : 0 ≤ n) (f : UnitFloat) : floorMulInt n f ≤ n := by
  obtain ⟨k, rfl⟩ := Int.eq_ofNat_of_zero_le h
  exact Int.ofNat_le.2 (floorMul_le k f)

/-- `0.7 * 10` is `7`, although the double for `0.7` is less than seven tenths. -/
example : floorMul 10 ⟨3152519739159347, 52, by decide, by decide, by decide, by decide⟩ = 7 := by
  decide +kernel

end Binary64
