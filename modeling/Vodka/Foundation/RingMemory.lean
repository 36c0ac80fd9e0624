import Mathlib.Data.BitVec
import Vodka.Foundation.ByteMemory

/-!
# Byte memories behind an address bus

Addresses are words of fixed width and wrap around. Seen from a base address,
such a memory is a byte memory over offsets, and a store that does not run past
the end of the ring is a write at its offset. Copies of equally long runs,
one after the other, act independently as long as none of them touches the
source or the destination of another.
-/

namespace Vodka.Foundation.RingMemory

variable {w : ℕ}

abbrev Memory (w : ℕ) := BitVec w → UInt8

/-- The memory with the bytes stored from the address on. -/
def store (memory : Memory w) (address : BitVec w) (bytes : List UInt8) : Memory w :=
  fun other ↦ bytes.getD (other - address).toNat (memory other)

def load (memory : Memory w) (address : BitVec w) (count : ℕ) : List UInt8 :=
  (List.range count).map fun k ↦ memory (address + BitVec.ofNat w k)

/-- The memory by offsets from a base address. -/
def view (memory : Memory w) (base : BitVec w) : ByteMemory.Memory :=
  fun k ↦ memory (base + BitVec.ofNat w k)

variable {memory : Memory w} {address base other : BitVec w} {bytes : List UInt8} {j k count : ℕ}

@[simp]
theorem length_load : (load memory address count).length = count := by
  simp [load]

theorem toNat_offset (base : BitVec w) (hk : k < 2 ^ w) :
    (base + BitVec.ofNat w k - base).toNat = k := by
  rw [add_sub_cancel_left, BitVec.toNat_ofNat, Nat.mod_eq_of_lt hk]

/-- Every address is an offset from the base. -/
theorem offset_toNat (base address : BitVec w) :
    base + BitVec.ofNat w (address - base).toNat = address := by
  rw [BitVec.ofNat_toNat, BitVec.setWidth_eq, add_sub_cancel]

theorem store_of_outside (h : bytes.length ≤ (other - address).toNat) :
    store memory address bytes other = memory other :=
  List.getD_eq_default _ _ h

theorem store_of_inside (hk : k < bytes.length) (hfits : bytes.length ≤ 2 ^ w) :
    store memory address bytes (address + BitVec.ofNat w k) = bytes[k] := by
  rw [store, toNat_offset address (hk.trans_le hfits), List.getD_eq_getElem _ _ hk]

/-- The distance of one offset behind another, around the ring if need be. -/
theorem toNat_offset_sub (base : BitVec w) (hj : j < 2 ^ w) (hk : k < 2 ^ w) :
    (base + BitVec.ofNat w k - (base + BitVec.ofNat w j)).toNat =
      if j ≤ k then k - j else 2 ^ w + k - j := by
  have hoffset : base + BitVec.ofNat w k - (base + BitVec.ofNat w j) =
      BitVec.ofNat w k - BitVec.ofNat w j := by
    ring
  rw [hoffset, BitVec.toNat_sub, BitVec.toNat_ofNat, BitVec.toNat_ofNat, Nat.mod_eq_of_lt hk,
    Nat.mod_eq_of_lt hj]
  split_ifs with hle
  · rw [show 2 ^ w - j + k = k - j + 2 ^ w by omega, Nat.add_mod_right,
      Nat.mod_eq_of_lt (by omega)]
  · rw [Nat.mod_eq_of_lt (by omega)]
    omega

/-- A store that ends inside the ring is a write at its offset. -/
theorem view_store (hend : j + bytes.length ≤ 2 ^ w) (hk : k < 2 ^ w) :
    view (store memory (base + BitVec.ofNat w j) bytes) base k =
      ByteMemory.write (view memory base) j bytes k := by
  rcases Nat.eq_zero_or_pos bytes.length with hnil | hpos
  · rw [List.length_eq_zero_iff.mp hnil]
    simp [view, store, ByteMemory.write]
  · simp only [view, store, ByteMemory.write]
    rw [toNat_offset_sub base (by omega) hk]
    split_ifs with hle
    · rfl
    · exact List.getD_eq_default _ _ (by omega)

/-- Copying a run from the second address of the entry to the first. -/
def copy (count : ℕ) (memory : Memory w) (entry : BitVec w × BitVec w) : Memory w :=
  store memory entry.1 (load memory entry.2 count)

variable {entries before after : List (BitVec w × BitVec w)} {entry : BitVec w × BitVec w}

/-- An address in no destination keeps its byte. -/
theorem foldl_copy_of_outside (h : ∀ entry ∈ entries, count ≤ (other - entry.1).toNat) :
    entries.foldl (copy count) memory other = memory other := by
  induction entries generalizing memory with
  | nil => rfl
  | cons entry entries ih =>
    rw [List.forall_mem_cons] at h
    calc (entry :: entries).foldl (copy count) memory other
        = entries.foldl (copy count) (copy count memory entry) other := rfl
      _ = copy count memory entry other := ih h.2
      _ = memory other := store_of_outside (by simpa using h.1)

/-- A copy brings over the byte of the start when no earlier one has written to its source and
no later one writes to its destination. -/
theorem foldl_copy_of_inside (hfits : count ≤ 2 ^ w) (hk : k < count)
    (hsource : ∀ other ∈ before, count ≤ (entry.2 + BitVec.ofNat w k - other.1).toNat)
    (hkept : ∀ other ∈ after, count ≤ (entry.1 + BitVec.ofNat w k - other.1).toNat) :
    (before ++ entry :: after).foldl (copy count) memory (entry.1 + BitVec.ofNat w k) =
      memory (entry.2 + BitVec.ofNat w k) := by
  have hlength : (load (before.foldl (copy count) memory) entry.2 count).length = count :=
    length_load
  rw [List.foldl_append, List.foldl_cons, foldl_copy_of_outside hkept, copy,
    store_of_inside (by rwa [hlength]) (by rwa [hlength])]
  calc (load (before.foldl (copy count) memory) entry.2 count)[k]
      = before.foldl (copy count) memory (entry.2 + BitVec.ofNat w k) := by simp [load]
    _ = memory (entry.2 + BitVec.ofNat w k) := foldl_copy_of_outside hsource

/-- The memory with the bytes of a run of addresses that does not wrap. -/
def overlay (memory : Memory w) (start count : ℕ) (content : ℕ → UInt8) : Memory w :=
  fun address ↦
    if start ≤ address.toNat ∧ address.toNat < start + count then content (address.toNat - start)
    else memory address

variable {start : ℕ} {content : ℕ → UInt8}

@[simp]
theorem overlay_zero (memory : Memory w) (start : ℕ) (content : ℕ → UInt8) :
    overlay memory start 0 content = memory := by
  funext address
  exact if_neg (by omega)

/-- Storing the next bytes extends the run. -/
theorem store_overlay {n : ℕ} (hend : start + count + n ≤ 2 ^ w)
    (haddress : address.toNat = start + count) :
    store (overlay memory start count content) address
        ((List.range n).map fun i ↦ content (count + i)) =
      overlay memory start (count + n) content := by
  funext other
  have hlt := other.isLt
  have hsub : (other - address).toNat =
      if start + count ≤ other.toNat then other.toNat - (start + count)
      else 2 ^ w + other.toNat - (start + count) := by
    rw [BitVec.toNat_sub, haddress]
    split_ifs with hle
    · rw [show 2 ^ w - (start + count) + other.toNat = other.toNat - (start + count) + 2 ^ w by
        omega, Nat.add_mod_right, Nat.mod_eq_of_lt (by omega)]
    · rw [Nat.mod_eq_of_lt (by omega)]
      omega
  by_cases hin : start + count ≤ other.toNat ∧ other.toNat < start + count + n
  · have hi : (other - address).toNat <
        ((List.range n).map fun i ↦ content (count + i)).length := by
      rw [hsub, if_pos hin.1, List.length_map, List.length_range]
      omega
    rw [store, List.getD_eq_getElem _ _ hi, List.getElem_map, List.getElem_range, overlay,
      if_pos (by omega), hsub, if_pos hin.1]
    congr 1
    omega
  · have hi : ((List.range n).map fun i ↦ content (count + i)).length ≤
        (other - address).toNat := by
      rw [hsub, List.length_map, List.length_range]
      split_ifs <;> omega
    rw [store, List.getD_eq_default _ _ hi]
    unfold overlay
    split_ifs with hold hnew hnew
    · rfl
    · omega
    · omega
    · rfl

end Vodka.Foundation.RingMemory
