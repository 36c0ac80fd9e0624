import Mathlib.Tactic

/-!
# Sorting with an unspecified order of equal elements

The C library sorts an array by a comparison function and leaves the order of
elements that compare equal open, possibly another one on every call. A sorter
is any function with that contract. A sorted permutation of elements that an
irreflexive order relates pairwise is in that order.
-/

namespace Vodka.Foundation.Qsort

/-- A comparison function that orders its arguments by a linearly ordered key. -/
def ComparesBy {α κ : Type*} [LinearOrder κ] (compar : α → α → ℤ) (key : α → κ) : Prop :=
  ∀ a b, compar a b ≤ 0 ↔ key a ≤ key b

/-- Any implementation of `qsort`. The first argument numbers the calls. -/
structure Sorter where
  sort : {α : Type} → ℕ → (α → α → ℤ) → List α → List α
  perm : ∀ {α : Type} (call : ℕ) (compar : α → α → ℤ) (items : List α),
    (sort call compar items).Perm items
  sorted : ∀ {α κ : Type} [LinearOrder κ] (call : ℕ) (compar : α → α → ℤ) (key : α → κ),
    ComparesBy compar key → ∀ items : List α,
      (sort call compar items).Pairwise fun a b ↦ key a ≤ key b

/-- Merge sort is an implementation. -/
def mergeSorter : Sorter where
  sort _ compar items := items.mergeSort fun a b ↦ decide (compar a b ≤ 0)
  perm _ compar items := List.mergeSort_perm items fun a b ↦ decide (compar a b ≤ 0)
  sorted _ compar key hkey items := by
    have hpairwise : (items.mergeSort fun a b ↦ decide (compar a b ≤ 0)).Pairwise
        fun a b ↦ decide (compar a b ≤ 0) = true := by
      apply List.pairwise_mergeSort
      · intro a b c hab hbc
        simp only [decide_eq_true_eq, hkey a b, hkey b c, hkey a c] at *
        exact hab.trans hbc
      · intro a b
        simp only [Bool.or_eq_true, decide_eq_true_eq, hkey a b, hkey b a]
        exact le_total _ _
    simpa only [decide_eq_true_eq, hkey _ _] using hpairwise

/-- Insertion sort is another one. It evaluates in the kernel. -/
def insertionSorter : Sorter where
  sort _ compar items := items.insertionSort fun a b ↦ compar a b ≤ 0
  perm _ compar items := List.perm_insertionSort (fun a b ↦ compar a b ≤ 0) items
  sorted _ compar key hkey items := by
    have htotal : Std.Total fun a b ↦ compar a b ≤ 0 := ⟨fun a b ↦ by
      rw [hkey, hkey]
      exact le_total _ _⟩
    have htrans : IsTrans _ fun a b ↦ compar a b ≤ 0 := ⟨fun a b c hab hbc ↦ by
      rw [hkey] at hab hbc ⊢
      exact hab.trans hbc⟩
    have hpairwise := List.pairwise_insertionSort (fun a b ↦ compar a b ≤ 0) items
    simpa only [hkey _ _] using hpairwise

/-- An implementation that needs a consistent comparison of the elements of the array only. -/
structure ArraySorter extends Sorter where
  sortedOn : ∀ {α κ : Type} [LinearOrder κ] (call : ℕ) (compar : α → α → ℤ) (key : α → κ)
    (items : List α), (∀ a ∈ items, ∀ b ∈ items, compar a b ≤ 0 ↔ key a ≤ key b) →
      (sort call compar items).Pairwise fun a b ↦ key a ≤ key b

/-- Insertion sort compares nothing but the elements. -/
def insertionArraySorter : ArraySorter where
  toSorter := insertionSorter
  sortedOn call compar key items hkey := by
    have htotal : Std.Total fun a b : { a // a ∈ items } ↦ compar a b ≤ 0 := ⟨fun a b ↦ by
      rw [hkey a a.2 b b.2, hkey b b.2 a a.2]
      exact le_total _ _⟩
    have htrans : IsTrans _ fun a b : { a // a ∈ items } ↦ compar a b ≤ 0 := ⟨fun a b c hab hbc ↦ by
      rw [hkey a a.2 b b.2] at hab
      rw [hkey b b.2 c c.2] at hbc
      rw [hkey a a.2 c c.2]
      exact hab.trans hbc⟩
    have hpairwise := List.pairwise_insertionSort
      (fun a b : { a // a ∈ items } ↦ compar a b ≤ 0) items.attach
    have hsame : (items.attach.insertionSort fun a b : { a // a ∈ items } ↦
        compar a b ≤ 0).map Subtype.val = items.insertionSort fun a b ↦ compar a b ≤ 0 := by
      rw [List.map_insertionSort (fun a b : { a // a ∈ items } ↦ compar a b ≤ 0)
        (fun a b ↦ compar a b ≤ 0) Subtype.val items.attach fun _ _ _ _ ↦ Iff.rfl,
        List.attach_map_subtype_val]
    change (items.insertionSort fun a b ↦ compar a b ≤ 0).Pairwise fun a b ↦ key a ≤ key b
    rw [← hsame, List.pairwise_map]
    apply hpairwise.imp
    rintro ⟨a, ha⟩ ⟨b, hb⟩ hle
    exact (hkey a ha b hb).mp hle

variable {α κ : Type} [LinearOrder κ] {compar : α → α → ℤ} {key : α → κ}

/-- Distinct elements in the order of their keys that are related one way or the other, by a
relation that implies a smaller key, are related in their order. -/
theorem pairwise_of_sorted {items : List α} (hsorted : items.Pairwise fun a b ↦ key a ≤ key b)
    (hnodup : items.Nodup) (relation : α → α → Prop)
    (hrelated : ∀ a ∈ items, ∀ b ∈ items, a ≠ b → relation a b ∨ relation b a)
    (hlt : ∀ a ∈ items, ∀ b ∈ items, relation a b → key a < key b) :
    items.Pairwise relation := by
  apply (hsorted.and hnodup).imp_of_mem
  rintro a b ha hb ⟨hle, hne⟩
  exact (hrelated a ha b hb hne).resolve_right fun hba ↦ (hlt b hb a ha hba).not_ge hle

/-- Such elements come out of the sorter related in their order. -/
theorem Sorter.pairwise (q : Sorter) (call : ℕ) (hkey : ComparesBy compar key) {items : List α}
    (hnodup : items.Nodup) (relation : α → α → Prop)
    (hrelated : ∀ a ∈ items, ∀ b ∈ items, a ≠ b → relation a b ∨ relation b a)
    (hlt : ∀ a ∈ items, ∀ b ∈ items, relation a b → key a < key b) :
    (q.sort call compar items).Pairwise relation := by
  have hperm := q.perm call compar items
  apply pairwise_of_sorted (q.sorted call compar key hkey items) (hperm.nodup_iff.mpr hnodup)
  · intro a ha b hb
    exact hrelated a (hperm.mem_iff.mp ha) b (hperm.mem_iff.mp hb)
  · intro a ha b hb
    exact hlt a (hperm.mem_iff.mp ha) b (hperm.mem_iff.mp hb)

end Vodka.Foundation.Qsort
