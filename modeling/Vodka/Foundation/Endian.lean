import Mathlib.Tactic

/-!
# Byte orders

The little-endian and big-endian bytes of a number in a fixed width, the
numbers that such bytes stand for, and the byte swap between the two orders.
-/

namespace Vodka.Foundation.Endian

/-- The `width` least significant bytes, lowest first. -/
def littleEndian : ℕ → ℕ → List UInt8
  | 0, _ => []
  | width + 1, value => UInt8.ofNat value :: littleEndian width (value / 256)

def bigEndian (width value : ℕ) : List UInt8 := (littleEndian width value).reverse

def ofLittleEndian : List UInt8 → ℕ
  | [] => 0
  | byte :: rest => byte.toNat + 256 * ofLittleEndian rest

def ofBigEndian (bytes : List UInt8) : ℕ := ofLittleEndian bytes.reverse

/-- The number whose little-endian bytes are the big-endian ones of the value. -/
def byteSwap (width value : ℕ) : ℕ := ofLittleEndian (bigEndian width value)

@[simp]
theorem length_littleEndian (width value : ℕ) : (littleEndian width value).length = width := by
  induction width generalizing value with
  | zero => rfl
  | succ width ih => simp [littleEndian, ih]

@[simp]
theorem length_bigEndian (width value : ℕ) : (bigEndian width value).length = width := by
  simp [bigEndian]

theorem ofLittleEndian_littleEndian (width value : ℕ) :
    ofLittleEndian (littleEndian width value) = value % 256 ^ width := by
  induction width generalizing value with
  | zero => simp [littleEndian, ofLittleEndian, Nat.mod_one]
  | succ width ih =>
    have hbyte : (UInt8.ofNat value).toNat = value % 256 := UInt8.toNat_ofNat'
    rw [littleEndian, ofLittleEndian, ih, hbyte, pow_succ', Nat.mod_mul]

theorem littleEndian_ofLittleEndian (bytes : List UInt8) :
    littleEndian bytes.length (ofLittleEndian bytes) = bytes := by
  induction bytes with
  | nil => rfl
  | cons byte rest ih =>
    have hbyte : byte.toNat < 256 := byte.toNat_lt
    have hdiv : (byte.toNat + 256 * ofLittleEndian rest) / 256 = ofLittleEndian rest := by omega
    have hlow : UInt8.ofNat (byte.toNat + 256 * ofLittleEndian rest) = byte := by
      apply UInt8.toNat_inj.mp
      rw [UInt8.toNat_ofNat']
      omega
    rw [List.length_cons, ofLittleEndian, littleEndian, hdiv, ih, hlow]

theorem ofBigEndian_bigEndian (width value : ℕ) :
    ofBigEndian (bigEndian width value) = value % 256 ^ width := by
  rw [ofBigEndian, bigEndian, List.reverse_reverse, ofLittleEndian_littleEndian]

/-- Storing a swapped number in one order is storing the number in the other. -/
theorem littleEndian_byteSwap (width value : ℕ) :
    littleEndian width (byteSwap width value) = bigEndian width value := by
  have hbytes := littleEndian_ofLittleEndian (bigEndian width value)
  rwa [length_bigEndian] at hbytes

/-- The low bytes of a sum are those of its low part, the others those of its high part. -/
theorem littleEndian_add {low : ℕ} (front rest high : ℕ) (h : low < 256 ^ front) :
    littleEndian (front + rest) (low + 256 ^ front * high) =
      littleEndian front low ++ littleEndian rest high := by
  induction front generalizing low with
  | zero =>
    have hzero : low = 0 := by simpa using h
    simp [hzero, littleEndian]
  | succ front ih =>
    rw [pow_succ'] at h
    have hbyte : UInt8.ofNat (low + 256 ^ (front + 1) * high) = UInt8.ofNat low := by
      apply UInt8.toNat_inj.mp
      rw [UInt8.toNat_ofNat', UInt8.toNat_ofNat', pow_succ', mul_assoc, Nat.add_mul_mod_self_left]
    have hdiv : (low + 256 ^ (front + 1) * high) / 256 = low / 256 + 256 ^ front * high := by
      rw [pow_succ', mul_assoc, Nat.add_mul_div_left _ _ (by decide)]
    rw [Nat.succ_add, littleEndian, littleEndian, hbyte, hdiv, ih (Nat.div_lt_of_lt_mul h),
      List.cons_append]

theorem ofLittleEndian_lt (bytes : List UInt8) : ofLittleEndian bytes < 256 ^ bytes.length := by
  induction bytes with
  | nil => simp [ofLittleEndian]
  | cons byte rest ih =>
    have hbyte : byte.toNat < 256 := byte.toNat_lt
    rw [ofLittleEndian, List.length_cons, pow_succ]
    omega

@[simp]
theorem ofLittleEndian_replicate_zero (width : ℕ) :
    ofLittleEndian (List.replicate width 0) = 0 := by
  induction width with
  | zero => rfl
  | succ width ih => simp [List.replicate_succ, ofLittleEndian, ih]

theorem byteSwap_lt (width value : ℕ) : byteSwap width value < 256 ^ width := by
  have hlt := ofLittleEndian_lt (bigEndian width value)
  rwa [length_bigEndian] at hlt

theorem byteSwap_byteSwap {width value : ℕ} (h : value < 256 ^ width) :
    byteSwap width (byteSwap width value) = value := by
  calc byteSwap width (byteSwap width value)
      = ofLittleEndian (bigEndian width value).reverse := by
        rw [byteSwap, bigEndian, littleEndian_byteSwap]
    _ = ofBigEndian (bigEndian width value) := rfl
    _ = value := by rw [ofBigEndian_bigEndian, Nat.mod_eq_of_lt h]

end Vodka.Foundation.Endian
