import Mathlib.Tactic

/-!
# Rounding up to a power of two

Programs round `value` up to a power of two `2 ^ k` by adding `2 ^ k - 1` and
clearing the low bits, in words of a fixed width. Below the end of the word the
result is the least multiple of `2 ^ k` that is not smaller.
-/

namespace Vodka.Foundation.Alignment

/-- `(value + alignment - 1) & ~(alignment - 1)` in words of `width` bits. -/
def alignUp (width value alignment : ℕ) : ℕ :=
  ((value + alignment - 1) % 2 ^ width) &&& (2 ^ width - 1 - (alignment - 1))

/-- Clearing the low bits of a word. -/
theorem and_not_low_bits {width value k : ℕ} (hvalue : value < 2 ^ width) :
    value &&& (2 ^ width - 1 - (2 ^ k - 1)) = value / 2 ^ k * 2 ^ k := by
  rcases le_or_gt k width with hk | hk
  · have hmask : 2 ^ width - 1 - (2 ^ k - 1) = (2 ^ (width - k) - 1) * 2 ^ k := by
      have hone : 0 < 2 ^ k := Nat.two_pow_pos k
      rw [Nat.sub_mul, one_mul, ← pow_add, Nat.sub_add_cancel hk, Nat.sub_sub,
        Nat.add_sub_cancel' hone]
    rw [hmask]
    apply Nat.eq_of_testBit_eq
    intro i
    rw [Nat.testBit_and, Nat.testBit_mul_two_pow, Nat.testBit_mul_two_pow,
      Nat.testBit_two_pow_sub_one, Nat.testBit_div_two_pow]
    rcases le_or_gt k i with hi | hi
    · rw [Nat.sub_add_cancel hi]
      rcases lt_or_ge i width with hlt | hge
      · have hinner : i - k < width - k := by omega
        simp [hi, hinner]
      · have hzero : value.testBit i = false :=
          Nat.testBit_lt_two_pow (hvalue.trans_le (Nat.pow_le_pow_right (by decide) hge))
        simp [hzero]
    · simp [hi.not_ge]
  · have hpow : 2 ^ width ≤ 2 ^ k := Nat.pow_le_pow_right (by decide) hk.le
    have hmask : 2 ^ width - 1 - (2 ^ k - 1) = 0 := by omega
    rw [hmask, Nat.and_zero, Nat.div_eq_of_lt (hvalue.trans_le hpow), zero_mul]

variable {width value k bound : ℕ}

theorem alignUp_eq (h : value + 2 ^ k - 1 < 2 ^ width) :
    alignUp width value (2 ^ k) = (value + 2 ^ k - 1) / 2 ^ k * 2 ^ k := by
  rw [alignUp, Nat.mod_eq_of_lt h, and_not_low_bits h]

theorem dvd_alignUp (h : value + 2 ^ k - 1 < 2 ^ width) : 2 ^ k ∣ alignUp width value (2 ^ k) := by
  rw [alignUp_eq h]
  exact Nat.dvd_mul_left _ _

theorem le_alignUp (h : value + 2 ^ k - 1 < 2 ^ width) : value ≤ alignUp width value (2 ^ k) := by
  have hdiv := Nat.div_add_mod (value + 2 ^ k - 1) (2 ^ k)
  have hmod := Nat.mod_lt (value + 2 ^ k - 1) (Nat.two_pow_pos k)
  rw [alignUp_eq h, mul_comm]
  omega

theorem alignUp_lt (h : value + 2 ^ k - 1 < 2 ^ width) :
    alignUp width value (2 ^ k) < value + 2 ^ k := by
  have hone : 0 < 2 ^ k := Nat.two_pow_pos k
  have hle := Nat.div_mul_le_self (value + 2 ^ k - 1) (2 ^ k)
  rw [alignUp_eq h]
  omega

/-- The rounded value is the least multiple. -/
theorem alignUp_le (h : value + 2 ^ k - 1 < 2 ^ width) (hdvd : 2 ^ k ∣ bound)
    (hle : value ≤ bound) : alignUp width value (2 ^ k) ≤ bound := by
  obtain ⟨quotient, rfl⟩ := hdvd
  have hlt := alignUp_lt h
  obtain ⟨rounded, hrounded⟩ := dvd_alignUp h
  rw [hrounded] at hlt ⊢
  have hquotient : rounded < quotient + 1 := by
    apply lt_of_mul_lt_mul_left _ (Nat.zero_le (2 ^ k))
    rw [mul_add, mul_one]
    omega
  exact Nat.mul_le_mul_left _ (Nat.lt_succ_iff.mp hquotient)

theorem alignUp_of_dvd (h : value + 2 ^ k - 1 < 2 ^ width) (hdvd : 2 ^ k ∣ value) :
    alignUp width value (2 ^ k) = value :=
  le_antisymm (alignUp_le h hdvd le_rfl) (le_alignUp h)

/-- The least multiple of the alignment that is not below the value. -/
def roundUp (value alignment : ℕ) : ℕ := (value + alignment - 1) / alignment * alignment

theorem dvd_roundUp (value alignment : ℕ) : alignment ∣ roundUp value alignment :=
  Nat.dvd_mul_left _ _

theorem le_roundUp {alignment : ℕ} (h : 0 < alignment) : value ≤ roundUp value alignment := by
  have hdiv := Nat.div_add_mod (value + alignment - 1) alignment
  have hmod := Nat.mod_lt (value + alignment - 1) h
  rw [roundUp, mul_comm]
  omega

theorem roundUp_lt {alignment : ℕ} (h : 0 < alignment) :
    roundUp value alignment < value + alignment := by
  have hle := Nat.div_mul_le_self (value + alignment - 1) alignment
  rw [roundUp]
  omega

/-- A rounded value that fits comes of a sum that fits. -/
theorem alignUp_eq_roundUp (hk : k ≤ width) (h : roundUp value (2 ^ k) < 2 ^ width) :
    value + 2 ^ k - 1 < 2 ^ width ∧ alignUp width value (2 ^ k) = roundUp value (2 ^ k) := by
  have hsum : value + 2 ^ k - 1 < 2 ^ width := by
    by_contra hlarge
    have hquotient : 2 ^ (width - k) ≤ (value + 2 ^ k - 1) / 2 ^ k := by
      rw [Nat.le_div_iff_mul_le (Nat.two_pow_pos k), ← pow_add, Nat.sub_add_cancel hk]
      exact not_lt.mp hlarge
    have hproduct : 2 ^ width ≤ roundUp value (2 ^ k) := by
      calc 2 ^ width = 2 ^ (width - k) * 2 ^ k := by rw [← pow_add, Nat.sub_add_cancel hk]
        _ ≤ roundUp value (2 ^ k) := Nat.mul_le_mul_right _ hquotient
    exact hproduct.not_gt h
  exact ⟨hsum, alignUp_eq hsum⟩

end Vodka.Foundation.Alignment
