import Mathlib.Data.List.GetD
import Mathlib.Tactic

/-!
# Byte memories

A memory gives every address a byte. Writing a run of bytes changes the
addresses of the run and no other, and reading the run back gives the bytes.
A log of writes in order leaves what it does not touch.
-/

namespace Vodka.Foundation.ByteMemory

abbrev Memory := ℕ → UInt8

/-- The memory with the bytes stored from the offset on. -/
def write (memory : Memory) (offset : ℕ) (bytes : List UInt8) : Memory :=
  fun address ↦
    if offset ≤ address then bytes.getD (address - offset) (memory address) else memory address

def read (memory : Memory) (offset count : ℕ) : List UInt8 :=
  (List.range count).map fun i ↦ memory (offset + i)

@[simp]
theorem length_read (memory : Memory) (offset count : ℕ) :
    (read memory offset count).length = count := by
  simp [read]

theorem read_eq_iff {memory : Memory} {offset : ℕ} {bytes : List UInt8} :
    read memory offset bytes.length = bytes ↔
      ∀ i (h : i < bytes.length), memory (offset + i) = bytes[i] := by
  rw [List.ext_getElem_iff]
  simp [read]

theorem read_congr {memory other : Memory} {offset count : ℕ}
    (h : ∀ address, offset ≤ address → address < offset + count →
      memory address = other address) :
    read memory offset count = read other offset count := by
  apply List.map_congr_left
  intro i hi
  rw [List.mem_range] at hi
  exact h (offset + i) (Nat.le_add_right _ _) (Nat.add_lt_add_left hi offset)

theorem read_eq_replicate {memory : Memory} {offset count : ℕ} {byte : UInt8}
    (h : ∀ address, offset ≤ address → address < offset + count → memory address = byte) :
    read memory offset count = List.replicate count byte := by
  rw [List.eq_replicate_iff]
  refine ⟨length_read _ _ _, ?_⟩
  intro value hvalue
  obtain ⟨i, hi, rfl⟩ := List.mem_map.mp hvalue
  rw [List.mem_range] at hi
  exact h (offset + i) (Nat.le_add_right _ _) (Nat.add_lt_add_left hi offset)

/-- A run splits where one wants. -/
theorem read_add (memory : Memory) (offset front rest : ℕ) :
    read memory offset (front + rest) =
      read memory offset front ++ read memory (offset + front) rest := by
  unfold read
  rw [List.range_add, List.map_append, List.map_map]
  simp [Function.comp_def, Nat.add_assoc]

section Write

variable {memory : Memory} {offset : ℕ} {bytes : List UInt8}

/-- A write leaves the addresses outside of its run. -/
theorem write_of_outside {address : ℕ}
    (h : address < offset ∨ offset + bytes.length ≤ address) :
    write memory offset bytes address = memory address := by
  unfold write
  split_ifs with hle
  · have hbehind : bytes.length ≤ address - offset := by omega
    rw [List.getD_eq_default _ _ hbehind]
  · rfl

theorem write_of_inside {i : ℕ} (h : i < bytes.length) :
    write memory offset bytes (offset + i) = bytes[i] := by
  unfold write
  rw [if_pos (Nat.le_add_right _ _), Nat.add_sub_cancel_left, List.getD_eq_getElem _ _ h]

theorem read_write_self : read (write memory offset bytes) offset bytes.length = bytes :=
  read_eq_iff.mpr fun _ hi ↦ write_of_inside hi

/-- Reading a run that a write does not touch. -/
theorem read_write_of_disjoint {start count : ℕ}
    (h : start + count ≤ offset ∨ offset + bytes.length ≤ start) :
    read (write memory offset bytes) start count = read memory start count := by
  apply read_congr
  intro address hstart hend
  apply write_of_outside
  omega

/-- A written run is read back in two pieces. -/
theorem read_write_append (memory : Memory) (offset : ℕ) (front rest : List UInt8) :
    read (write memory offset (front ++ rest)) offset front.length = front ∧
      read (write memory offset (front ++ rest)) (offset + front.length) rest.length = rest := by
  apply List.append_inj _ (length_read _ _ _)
  rw [← read_add, ← List.length_append]
  exact read_write_self

/-- Writing again over the middle of a run. -/
theorem read_write_patch (memory : Memory) (offset : ℕ) (front : List UInt8)
    {old patch : List UInt8}
    (rest : List UInt8) (h : old.length = patch.length) :
    read (write (write memory offset (front ++ (old ++ rest))) (offset + front.length) patch)
      offset (front.length + (patch.length + rest.length)) = front ++ (patch ++ rest) := by
  obtain ⟨hfront, hbehind⟩ := read_write_append memory offset front (old ++ rest)
  rw [List.length_append, read_add] at hbehind
  have hrest := (List.append_inj hbehind (length_read _ _ _)).2
  rw [read_add, read_add]
  congr 1
  · rw [read_write_of_disjoint (.inl le_rfl)]
    exact hfront
  · congr 1
    · exact read_write_self
    · rw [read_write_of_disjoint (.inr le_rfl), ← h]
      exact hrest

end Write

/-- The memory after all writes of a log. -/
def writeAll (memory : Memory) (log : List (ℕ × List UInt8)) : Memory :=
  log.foldl (fun memory entry ↦ write memory entry.1 entry.2) memory

theorem writeAll_append (memory : Memory) (log rest : List (ℕ × List UInt8)) :
    writeAll memory (log ++ rest) = writeAll (writeAll memory log) rest :=
  List.foldl_append

/-- An address that no write touches keeps its byte. -/
theorem writeAll_of_outside {memory : Memory} {log : List (ℕ × List UInt8)} {address : ℕ}
    (h : ∀ entry ∈ log, address < entry.1 ∨ entry.1 + entry.2.length ≤ address) :
    writeAll memory log address = memory address := by
  induction log generalizing memory with
  | nil => rfl
  | cons entry log ih =>
    rw [List.forall_mem_cons] at h
    calc writeAll memory (entry :: log) address
        = writeAll (write memory entry.1 entry.2) log address := rfl
      _ = write memory entry.1 entry.2 address := ih h.2
      _ = memory address := write_of_outside h.1

/-- What an address holds after a log depends on what it held before, and on nothing else. -/
theorem writeAll_congr {memory other : Memory} {log : List (ℕ × List UInt8)} {address : ℕ}
    (h : memory address = other address) :
    writeAll memory log address = writeAll other log address := by
  induction log generalizing memory other with
  | nil => exact h
  | cons entry log ih =>
    apply ih
    unfold write
    dsimp only
    rw [h]

/-- Writes that do not touch an address can be left out. -/
theorem writeAll_filter {α : Type*} {memory : Memory} {items : List α} {entry : α → ℕ × List UInt8}
    {keep : α → Bool} {address : ℕ}
    (h : ∀ item ∈ items, keep item = false →
      address < (entry item).1 ∨ (entry item).1 + (entry item).2.length ≤ address) :
    writeAll memory ((items.filter keep).map entry) address =
      writeAll memory (items.map entry) address := by
  induction items generalizing memory with
  | nil => rfl
  | cons item items ih =>
    rw [List.forall_mem_cons] at h
    cases hkeep : keep item with
    | true =>
      rw [List.filter_cons_of_pos hkeep]
      exact ih h.2
    | false =>
      rw [List.filter_cons_of_neg (by simp [hkeep])]
      calc writeAll memory ((items.filter keep).map entry) address
          = writeAll memory (items.map entry) address := ih h.2
        _ = writeAll (write memory (entry item).1 (entry item).2) (items.map entry) address :=
          writeAll_congr (write_of_outside (h.1 hkeep)).symm

end Vodka.Foundation.ByteMemory
