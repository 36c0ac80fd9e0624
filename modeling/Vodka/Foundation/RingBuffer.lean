import Mathlib.Tactic

/-!
# Ring buffers

Element number `i` of an unbounded sequence is stored at slot `i` modulo the
size of the ring. A memory holds the elements from `first` on when each of them
is in its slot. Storing one more element keeps those in the ring as long as
there are fewer than `size` of them, and dropping the first ones keeps the rest.
-/

namespace Vodka.Foundation.RingBuffer

variable {α : Type*}

/-- The address of element `i`. -/
def slot (base size i : ℕ) : ℕ := base + i % size

/-- The elements of the sequence from `first` on are in their slots. -/
def Holds (base size : ℕ) (mem : ℕ → α) (items : List α) (first : ℕ) : Prop :=
  ∀ i item, first ≤ i → items[i]? = some item → mem (slot base size i) = item

section Slot

variable (base : ℕ) {size i j : ℕ}

theorem le_slot : base ≤ slot base size i := Nat.le_add_right _ _

theorem slot_lt (h : 0 < size) : slot base size i < base + size :=
  Nat.add_lt_add_left (Nat.mod_lt i h) base

/-- The address after a slot is the next slot or the end of the ring. -/
theorem slot_succ (h : 0 < size) :
    slot base size (i + 1) =
      if base + size ≤ slot base size i + 1 then base else slot base size i + 1 := by
  have hmod := Nat.mod_lt i h
  unfold slot
  split_ifs with hend
  · have hlast : i % size + 1 = size := by omega
    rw [Nat.add_mod_eq_add_mod_right 1 (Nat.mod_mod i size).symm, hlast, Nat.mod_self, Nat.add_zero]
  · have hinner : i % size + 1 < size := by omega
    rw [Nat.add_mod_eq_add_mod_right 1 (Nat.mod_mod i size).symm, Nat.mod_eq_of_lt hinner,
      Nat.add_assoc]

/-- Elements less than a ring apart have different slots. -/
theorem slot_ne (hlt : i < j) (hnear : j < i + size) : slot base size i ≠ slot base size j := by
  intro heq
  have hmod : i ≡ j [MOD size] := Nat.add_left_cancel heq
  have hdvd : size ∣ j - i := (Nat.modEq_iff_dvd' hlt.le).mp hmod
  have hle : size ≤ j - i := Nat.le_of_dvd (Nat.sub_pos_of_lt hlt) hdvd
  omega

end Slot

variable {base size first later : ℕ} {mem : ℕ → α} {items : List α}

theorem Holds.nil : Holds base size mem [] first := by
  intro i item _ hitem
  simp at hitem

/-- Dropping elements from the front keeps the rest. -/
theorem Holds.drop (h : Holds base size mem items first) (hle : first ≤ later) :
    Holds base size mem items later :=
  fun i item hi hitem ↦ h i item (hle.trans hi) hitem

/-- A ring that is not full has room for one more element. -/
theorem Holds.push (h : Holds base size mem items first) (hroom : items.length < first + size)
    (value : α) :
    Holds base size (Function.update mem (slot base size items.length) value) (items ++ [value])
      first := by
  intro i item hi hitem
  rcases Nat.lt_trichotomy i items.length with hlt | rfl | hgt
  · rw [List.getElem?_append_left hlt] at hitem
    rw [Function.update_of_ne (slot_ne base hlt (by omega))]
    exact h i item hi hitem
  · rw [List.getElem?_concat_length, Option.some.injEq] at hitem
    rw [Function.update_self, hitem]
  · have hnone : (items ++ [value])[i]? = none := List.getElem?_eq_none (by simpa using hgt)
    simp [hnone] at hitem

end Vodka.Foundation.RingBuffer
