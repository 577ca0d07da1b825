import Mathlib.Tactic.Linarith

/-!
# Whole numbers with 53 binary digits

A whole number is rounded to one with at most 53 binary digits before its zeros: to the nearest
one, and to that with an even last digit if two are equally near.  These are the numbers that
doubles have, as long as they are in their range.  Rounding keeps the order, and it leaves alone all
numbers that have no more digits.
-/

namespace Workflow.Decimal

/-- How often `2 ^ k` goes into a number, to the nearest and to an even count in a tie. -/
def roundedQuotient (n k : Nat) : Nat :=
  let count := n / 2 ^ k
  let rest := n % 2 ^ k
  if 2 * rest < 2 ^ k then count
  else if 2 * rest = 2 ^ k then count + count % 2
  else count + 1

/-- The binary digits beyond the first 53. -/
def surplus (n : Nat) : Nat := n.log2 - 52

def roundedNat (n : Nat) : Nat := roundedQuotient n (surplus n) * 2 ^ surplus n

/-- The whole number nearest to another among those with at most 53 binary digits before their
zeros. -/
def rounded : Int → Int
  | .ofNat n => roundedNat n
  | .negSucc n => -roundedNat (n + 1)

/-! ### One place -/

theorem div_le_roundedQuotient (n k : Nat) : n / 2 ^ k ≤ roundedQuotient n k := by
  rw [roundedQuotient]
  split
  · exact le_rfl
  · split
    · exact Nat.le_add_right _ _
    · exact Nat.le_succ _

theorem roundedQuotient_le (n k : Nat) : roundedQuotient n k ≤ n / 2 ^ k + 1 := by
  rw [roundedQuotient]
  split
  · exact Nat.le_succ _
  · split
    · have := Nat.mod_lt (n / 2 ^ k) Nat.two_pos
      omega
    · exact le_rfl

theorem roundedQuotient_mono {m n : Nat} (h : m ≤ n) (k : Nat) :
    roundedQuotient m k ≤ roundedQuotient n k := by
  rcases (Nat.div_le_div_right (c := 2 ^ k) h).lt_or_eq with hlt | heq
  · calc roundedQuotient m k ≤ m / 2 ^ k + 1 := roundedQuotient_le m k
      _ ≤ n / 2 ^ k := hlt
      _ ≤ roundedQuotient n k := div_le_roundedQuotient n k
  · -- With the same count, the number with the greater rest is rounded up if the other one is.
    have hm := Nat.div_add_mod m (2 ^ k)
    have hn := Nat.div_add_mod n (2 ^ k)
    rw [heq] at hm
    have hrest : m % 2 ^ k ≤ n % 2 ^ k := by omega
    simp only [roundedQuotient, heq]
    split_ifs <;> omega

theorem roundedQuotient_zero (n : Nat) : roundedQuotient n 0 = n := by
  simp [roundedQuotient, Nat.mod_one]

/-- Zeros at the end of a number make no difference. -/
theorem roundedQuotient_mul (n k c : Nat) :
    roundedQuotient (n * 2 ^ c) (k + c) = roundedQuotient n k := by
  have hpos : 0 < 2 ^ c := Nat.two_pow_pos c
  have hcount : n * 2 ^ c / 2 ^ (k + c) = n / 2 ^ k := by
    rw [Nat.pow_add, Nat.mul_div_mul_right _ _ hpos]
  have hrest : n * 2 ^ c % 2 ^ (k + c) = n % 2 ^ k * 2 ^ c := by
    rw [Nat.pow_add, Nat.mul_mod_mul_right]
  have hless : 2 * (n % 2 ^ k * 2 ^ c) < 2 ^ (k + c) ↔ 2 * (n % 2 ^ k) < 2 ^ k := by
    rw [Nat.pow_add, ← Nat.mul_assoc, Nat.mul_lt_mul_right hpos]
  have heq : 2 * (n % 2 ^ k * 2 ^ c) = 2 ^ (k + c) ↔ 2 * (n % 2 ^ k) = 2 ^ k := by
    rw [Nat.pow_add, ← Nat.mul_assoc, Nat.mul_left_inj hpos.ne']
  simp only [roundedQuotient, hcount, hrest, hless, heq]

/-! ### All places -/

theorem surplus_eq_zero {n : Nat} (h : n < 2 ^ 53) : surplus n = 0 := by
  rcases Nat.eq_zero_or_pos n with rfl | hpos
  · rfl
  · have := (Nat.log2_lt hpos.ne').mpr h
    rw [surplus]
    omega

/-- Numbers with at most 53 binary digits stay as they are, and so does the next one. -/
theorem roundedNat_of_le {n : Nat} (h : n ≤ 2 ^ 53) : roundedNat n = n := by
  rcases h.lt_or_eq with hlt | rfl
  · rw [roundedNat, surplus_eq_zero hlt, roundedQuotient_zero, Nat.pow_zero, Nat.mul_one]
  · decide

theorem lt_pow_surplus (n : Nat) : n < 2 ^ (53 + surplus n) := by
  refine Nat.lt_log2_self.trans_le (Nat.pow_le_pow_right Nat.two_pos ?_)
  rw [surplus]
  omega

theorem pow_surplus_le {n : Nat} (h : 0 < surplus n) : 2 ^ (52 + surplus n) ≤ n := by
  have hlog : 52 + surplus n = n.log2 := by
    rw [surplus] at h ⊢
    omega
  have hne : n ≠ 0 := by
    rintro rfl
    exact absurd h (by decide)
  rw [hlog]
  exact Nat.log2_self_le hne

theorem roundedNat_le (n : Nat) : roundedNat n ≤ 2 ^ (53 + surplus n) := by
  have hcount : n / 2 ^ surplus n < 2 ^ 53 := by
    rw [Nat.div_lt_iff_lt_mul (Nat.two_pow_pos _), ← Nat.pow_add]
    exact lt_pow_surplus n
  rw [roundedNat, Nat.pow_add]
  exact Nat.mul_le_mul_right _ ((roundedQuotient_le _ _).trans hcount)

theorem le_roundedNat {n : Nat} (h : 0 < surplus n) : 2 ^ (52 + surplus n) ≤ roundedNat n := by
  have hcount : 2 ^ 52 ≤ n / 2 ^ surplus n := by
    rw [Nat.le_div_iff_mul_le (Nat.two_pow_pos _), ← Nat.pow_add]
    exact pow_surplus_le h
  rw [roundedNat, Nat.pow_add]
  exact Nat.mul_le_mul_right _ (hcount.trans (div_le_roundedQuotient _ _))

theorem surplus_mono {m n : Nat} (h : m ≤ n) : surplus m ≤ surplus n := by
  by_contra hlt
  have hm := pow_surplus_le (n := m) (by omega)
  have hn := lt_pow_surplus n
  have hpow : 2 ^ (53 + surplus n) ≤ 2 ^ (52 + surplus m) :=
    Nat.pow_le_pow_right Nat.two_pos (by omega)
  omega

theorem roundedNat_mono {m n : Nat} (h : m ≤ n) : roundedNat m ≤ roundedNat n := by
  rcases (surplus_mono h).lt_or_eq with hlt | heq
  · calc roundedNat m ≤ 2 ^ (53 + surplus m) := roundedNat_le m
      _ ≤ 2 ^ (52 + surplus n) := Nat.pow_le_pow_right Nat.two_pos (by omega)
      _ ≤ roundedNat n := le_roundedNat (by omega)
  · rw [roundedNat, roundedNat, heq]
    exact Nat.mul_le_mul_right _ (roundedQuotient_mono h _)

/-! ### Numbers with a sign -/

theorem rounded_of_abs_le {i : Int} (h : |i| ≤ 2 ^ 53) : rounded i = i := by
  rw [abs_le] at h
  cases i with
  | ofNat n =>
      have hn : n ≤ 2 ^ 53 := by
        rw [Int.ofNat_eq_natCast] at h
        omega
      rw [rounded, roundedNat_of_le hn]
      rfl
  | negSucc n =>
      have hn : n + 1 ≤ 2 ^ 53 := by omega
      rw [rounded, roundedNat_of_le hn]
      rfl

/-- Rounding keeps the order of numbers. -/
theorem rounded_mono {i j : Int} (h : i ≤ j) : rounded i ≤ rounded j := by
  cases i with
  | ofNat m =>
      cases j with
      | ofNat n => exact Int.ofNat_le.mpr (roundedNat_mono (Int.ofNat_le.mp h))
      | negSucc n => exact absurd h (by rw [Int.ofNat_eq_natCast]; omega)
  | negSucc m =>
      cases j with
      | ofNat n =>
          rw [rounded, rounded]
          omega
      | negSucc n =>
          have hmono : roundedNat (n + 1) ≤ roundedNat (m + 1) := roundedNat_mono (by omega)
          rw [rounded, rounded]
          omega

/-- No other number is rounded to one below `2 ^ 53`. -/
theorem eq_of_rounded_eq {i j : Int} (hi : |i| < 2 ^ 53) (h : rounded i = rounded j) : i = j := by
  rw [rounded_of_abs_le hi.le] at h
  rw [abs_lt] at hi
  rcases lt_trichotomy i j with hlt | heq | hgt
  · have hnext : rounded (i + 1) = i + 1 := rounded_of_abs_le (abs_le.mpr (by omega))
    have hmono : rounded (i + 1) ≤ rounded j := rounded_mono hlt
    omega
  · exact heq
  · have hnext : rounded (i - 1) = i - 1 := rounded_of_abs_le (abs_le.mpr (by omega))
    have hmono : rounded j ≤ rounded (i - 1) := rounded_mono (by omega)
    omega

end Workflow.Decimal
