import Mathlib.Data.List.ReduceOption
import Mathlib.Tactic

/-!
# Arrays of optional entries

An array with holes stands for the list of its entries. Filling a hole adds an
entry, clearing a slot takes one away, and new empty slots change nothing. When
the entries are distinct, each of them has one slot, and when there are fewer
entries than slots, some slot is free.
-/

namespace Vodka.Foundation.Slots

variable {α : Type*} {slots : List (Option α)} {i j : ℕ} {entry : α}

theorem mem_reduceOption_iff :
    entry ∈ slots.reduceOption ↔ ∃ i : ℕ, slots[i]? = some (some entry) := by
  rw [List.reduceOption_mem_iff, List.mem_iff_getElem?]

/-- A slot splits the array. -/
theorem exists_split {slot : Option α} (h : slots[i]? = some slot) :
    ∃ before after, slots = before ++ slot :: after ∧ before.length = i := by
  obtain ⟨hi, hget⟩ := List.getElem?_eq_some_iff.mp h
  refine ⟨slots.take i, slots.drop (i + 1), ?_, List.length_take_of_le hi.le⟩
  rw [← hget, List.getElem_cons_drop, List.take_append_drop]

/-- Writing a slot of a split array. -/
theorem set_split (before after : List (Option α)) (old new : Option α) :
    (before ++ old :: after).set before.length new = before ++ new :: after := by
  simp

theorem reduceOption_fill (h : slots[i]? = some none) (entry : α) :
    (slots.set i (some entry)).reduceOption.Perm (entry :: slots.reduceOption) := by
  obtain ⟨before, after, rfl, rfl⟩ := exists_split h
  rw [set_split, List.reduceOption_append, List.reduceOption_append, List.reduceOption_cons_of_some,
    List.reduceOption_cons_of_none]
  exact List.perm_middle

theorem reduceOption_clear (h : slots[i]? = some (some entry)) :
    slots.reduceOption.Perm (entry :: (slots.set i none).reduceOption) := by
  obtain ⟨before, after, rfl, rfl⟩ := exists_split h
  rw [set_split, List.reduceOption_append, List.reduceOption_append, List.reduceOption_cons_of_some,
    List.reduceOption_cons_of_none]
  exact List.perm_middle

theorem reduceOption_grow (slots : List (Option α)) (count : ℕ) :
    (slots ++ List.replicate count none).reduceOption = slots.reduceOption := by
  rw [List.reduceOption_append, List.reduceOption_replicate_none, List.append_nil]

theorem exists_free (h : slots.reduceOption.length < slots.length) :
    ∃ i : ℕ, slots[i]? = some none :=
  List.mem_iff_getElem?.mp (List.reduceOption_length_lt_iff.mp h)

/-- Distinct entries have one slot each. -/
theorem index_unique (hnodup : slots.reduceOption.Nodup) (hi : slots[i]? = some (some entry))
    (hj : slots[j]? = some (some entry)) : i = j := by
  obtain ⟨before, after, rfl, rfl⟩ := exists_split hi
  rw [List.reduceOption_append, List.reduceOption_cons_of_some, List.nodup_middle,
    List.nodup_cons, List.mem_append, not_or, mem_reduceOption_iff, mem_reduceOption_iff] at hnodup
  rcases lt_trichotomy before.length j with hlt | heq | hgt
  · rw [List.getElem?_append_right hlt.le, List.getElem?_cons, if_neg (by omega)] at hj
    exact absurd ⟨_, hj⟩ hnodup.1.2
  · exact heq
  · rw [List.getElem?_append_left hgt] at hj
    exact absurd ⟨_, hj⟩ hnodup.1.1

end Vodka.Foundation.Slots
