import Mathlib.Tactic
import Mathlib.Data.BitVec

/-!
# Fields of words

A field of a word is a number of bits from a position on. Two values packed
into one word are read back from their fields, and replacing the bits of a mask
replaces the fields that the mask covers.
-/

namespace Vodka.Foundation.BitFields

variable {w : ℕ}

def field (word : BitVec w) (start width : ℕ) : ℕ := (word.extractLsb' start width).toNat

/-- One value above another one. -/
def pack (high low : BitVec w) (start : ℕ) : BitVec w := high <<< start ||| low

/-- The word with the bits of the mask replaced. -/
def replace (word mask value : BitVec w) : BitVec w := word &&& ~~~mask ||| value

variable {high low word mask value : BitVec w} {start width : ℕ}

theorem field_eq (word : BitVec w) (start width : ℕ) :
    field word start width = word.toNat / 2 ^ start % 2 ^ width := by
  rw [field, BitVec.extractLsb'_toNat, Nat.shiftRight_eq_div_pow]

/-- A field of one bit. -/
theorem field_one_iff (word : BitVec w) (start : ℕ) :
    field word start 1 = 1 ↔ word.getLsbD start = true := by
  rw [field_eq, BitVec.getLsbD, Nat.testBit_eq_decide_div_mod_eq, decide_eq_true_eq, pow_one]

/-- A field of two bits that is 1. -/
theorem field_two_iff (word : BitVec w) (start : ℕ) :
    field word start 2 = 1 ↔
      word.getLsbD start = true ∧ word.getLsbD (start + 1) = false := by
  rw [field_eq, BitVec.getLsbD, BitVec.getLsbD, Nat.testBit_eq_decide_div_mod_eq,
    Nat.testBit_eq_decide_div_mod_eq, pow_succ 2 start, ← Nat.div_div_eq_div_mul,
    decide_eq_true_eq, decide_eq_false_iff_not]
  omega

theorem getLsbD_replace (word mask value : BitVec w) (i : ℕ) :
    (replace word mask value).getLsbD i =
      (value.getLsbD i || word.getLsbD i && !mask.getLsbD i) := by
  by_cases hi : i < w
  · rw [replace, BitVec.getLsbD_or, BitVec.getLsbD_and, BitVec.getLsbD_not, decide_eq_true hi,
      Bool.true_and, Bool.or_comm]
  · simp only [BitVec.getLsbD_of_ge _ _ (Nat.le_of_not_lt hi), Bool.false_and, Bool.or_false]

theorem toNat_pack (hlow : low.toNat < 2 ^ start) (hhigh : high.toNat * 2 ^ start < 2 ^ w) :
    (pack high low start).toNat = high.toNat * 2 ^ start + low.toNat := by
  rw [pack, BitVec.toNat_or, BitVec.toNat_shiftLeft, Nat.shiftLeft_eq, Nat.mod_eq_of_lt hhigh,
    ← Nat.shiftLeft_eq, Nat.shiftLeft_add_eq_or_of_lt hlow]

theorem field_pack_high (hlow : low.toNat < 2 ^ start) (hhigh : high.toNat * 2 ^ start < 2 ^ w)
    (hwidth : high.toNat < 2 ^ width) : field (pack high low start) start width = high.toNat := by
  rw [field_eq, toNat_pack hlow hhigh, Nat.add_comm, Nat.add_mul_div_right _ _ (by positivity),
    Nat.div_eq_of_lt hlow, Nat.zero_add, Nat.mod_eq_of_lt hwidth]

theorem field_pack_low (hlow : low.toNat < 2 ^ start) (hhigh : high.toNat * 2 ^ start < 2 ^ w)
    (hwidth : width ≤ start) : field (pack high low start) 0 width = low.toNat % 2 ^ width := by
  obtain ⟨rest, rfl⟩ := Nat.exists_eq_add_of_le hwidth
  rw [field_eq, toNat_pack hlow hhigh, pow_zero, Nat.div_one, pow_add,
    show high.toNat * (2 ^ width * 2 ^ rest) = 2 ^ width * (high.toNat * 2 ^ rest) by ring,
    Nat.mul_add_mod]

/-- A field that the mask covers is the one of the new value. -/
theorem field_replace (hmask : ∀ i < width, mask.getLsbD (start + i) = true) :
    field (replace word mask value) start width = field value start width := by
  unfold field replace
  congr 1
  apply BitVec.eq_of_getLsbD_eq
  intro i hi
  simp only [BitVec.getLsbD_extractLsb', BitVec.getLsbD_or, BitVec.getLsbD_and, BitVec.getLsbD_not,
    hmask i hi, Bool.not_true, Bool.and_false, Bool.false_or]

end Vodka.Foundation.BitFields
