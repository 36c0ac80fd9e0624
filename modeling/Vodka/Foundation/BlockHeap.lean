import Mathlib.Tactic

/-!
# Heaps of blocks

A heap gives every block that it allocates a name that was never used before.
Reading, writing and freeing a block that is not allocated has no result. Cells
that a program owns on top of a base heap are disjoint from it, so that freeing
all of them leaves the base as it was.
-/

namespace Vodka.Foundation.BlockHeap

variable {B : Type*}

structure Heap (B : Type*) where
  next : ℕ
  block : ℕ → Option B
  unused : ∀ p, next ≤ p → block p = none

def Heap.empty : Heap B := ⟨0, fun _ ↦ none, fun _ _ ↦ rfl⟩

/-- A new block and the heap with it. -/
def alloc (heap : Heap B) (b : B) : ℕ × Heap B :=
  (heap.next,
    { next := heap.next + 1
      block := Function.update heap.block heap.next (some b)
      unused := fun p hp ↦ by
        rw [Function.update_of_ne (Nat.ne_of_gt (Nat.lt_of_succ_le hp))]
        exact heap.unused p (Nat.le_of_succ_le hp) })

/-- The heap with a block rewritten. -/
def store (heap : Heap B) (p : ℕ) (b : B) : Option (Heap B) :=
  if h : (heap.block p).isSome then
    some { heap with
      block := Function.update heap.block p (some b)
      unused := fun q hq ↦ by
        have hne : q ≠ p := fun heq ↦ by simp [heq ▸ heap.unused q hq] at h
        rw [Function.update_of_ne hne]
        exact heap.unused q hq }
  else none

def free (heap : Heap B) (p : ℕ) : Option (Heap B) :=
  if (heap.block p).isSome then
    some { heap with
      block := Function.update heap.block p none
      unused := fun q hq ↦ by
        by_cases hne : q = p
        · rw [hne, Function.update_self]
        · rw [Function.update_of_ne hne]
          exact heap.unused q hq }
  else none

/-- The heap is the base with the cells on top of it. -/
structure Holds (heap base : Heap B) (cells : List (ℕ × B)) : Prop where
  nodup : (cells.map Prod.fst).Nodup
  inside : ∀ cell ∈ cells, heap.block cell.1 = some cell.2
  outside : ∀ p, p ∉ cells.map Prod.fst → heap.block p = base.block p
  apart : ∀ p ∈ cells.map Prod.fst, base.block p = none

variable {heap base : Heap B} {cells : List (ℕ × B)} {p : ℕ} {b : B}

theorem Holds.nil (heap : Heap B) : Holds heap heap [] :=
  ⟨List.nodup_nil, fun _ h ↦ absurd h List.not_mem_nil, fun _ _ ↦ rfl,
    fun _ h ↦ absurd h List.not_mem_nil⟩

/-- What owns nothing has left the base as it was. -/
theorem Holds.block_eq (h : Holds heap base []) : heap.block = base.block :=
  funext fun p ↦ h.outside p List.not_mem_nil

theorem Holds.perm {others : List (ℕ × B)} (h : Holds heap base cells) (hperm : cells.Perm others) :
    Holds heap base others where
  nodup := (hperm.map Prod.fst).nodup_iff.1 h.nodup
  inside cell hcell := h.inside cell (hperm.mem_iff.2 hcell)
  outside p hp := h.outside p (mt (hperm.map Prod.fst).mem_iff.1 hp)
  apart p hp := h.apart p ((hperm.map Prod.fst).mem_iff.2 hp)

theorem Holds.load (h : Holds heap base cells) (hcell : (p, b) ∈ cells) : heap.block p = some b :=
  h.inside (p, b) hcell

theorem Holds.alloc (h : Holds heap base cells) (b : B) :
    Holds (alloc heap b).2 base ((heap.next, b) :: cells) := by
  have hnext : heap.block heap.next = none := heap.unused _ le_rfl
  have hfresh : heap.next ∉ cells.map Prod.fst := by
    intro hmem
    obtain ⟨cell, hcell, heq⟩ := List.mem_map.1 hmem
    have hsome := h.inside cell hcell
    rw [heq, hnext] at hsome
    exact absurd hsome (by simp)
  have hother {q : ℕ} (hq : q ≠ heap.next) : (BlockHeap.alloc heap b).2.block q = heap.block q :=
    Function.update_of_ne hq _ _
  refine ⟨List.nodup_cons.2 ⟨hfresh, h.nodup⟩, ?_, ?_, ?_⟩
  · rw [List.forall_mem_cons]
    refine ⟨Function.update_self _ _ _, fun cell hcell ↦ ?_⟩
    rw [hother fun heq ↦ hfresh (List.mem_map.2 ⟨cell, hcell, heq⟩)]
    exact h.inside cell hcell
  · intro q hq
    obtain ⟨hne, hrest⟩ := not_or.1 (mt List.mem_cons.2 hq)
    rw [hother hne]
    exact h.outside q hrest
  · rw [List.map_cons, List.forall_mem_cons]
    exact ⟨(h.outside _ hfresh).symm.trans hnext, h.apart⟩

theorem Holds.store (h : Holds heap base ((p, b) :: cells)) (value : B) :
    ∃ after, store heap p value = some after ∧ Holds after base ((p, value) :: cells) := by
  have hsome : (heap.block p).isSome := by
    rw [h.load List.mem_cons_self]
    rfl
  have hfresh := (List.nodup_cons.1 h.nodup).1
  refine ⟨_, dif_pos hsome, h.nodup, ?_, ?_, h.apart⟩
  · rw [List.forall_mem_cons]
    refine ⟨Function.update_self _ _ _, fun cell hcell ↦ ?_⟩
    have hne : cell.1 ≠ p := fun heq ↦ hfresh (List.mem_map.2 ⟨cell, hcell, heq⟩)
    exact (Function.update_of_ne hne _ _).trans (h.inside cell (List.mem_cons_of_mem _ hcell))
  · intro q hq
    have hne : q ≠ p := fun heq ↦ hq (heq ▸ List.mem_cons_self)
    exact (Function.update_of_ne hne _ _).trans (h.outside q hq)

theorem Holds.free (h : Holds heap base ((p, b) :: cells)) :
    ∃ after, free heap p = some after ∧ Holds after base cells := by
  have hsome : (heap.block p).isSome := by
    rw [h.load List.mem_cons_self]
    rfl
  obtain ⟨hfresh, hnodup⟩ := List.nodup_cons.1 h.nodup
  refine ⟨_, if_pos hsome, hnodup, fun cell hcell ↦ ?_, fun q hq ↦ ?_,
    fun q hq ↦ h.apart q (List.mem_cons_of_mem _ hq)⟩
  · have hne : cell.1 ≠ p := fun heq ↦ hfresh (List.mem_map.2 ⟨cell, hcell, heq⟩)
    exact (Function.update_of_ne hne _ _).trans (h.inside cell (List.mem_cons_of_mem _ hcell))
  · by_cases hne : q = p
    · subst hne
      exact (Function.update_self _ _ _).trans (h.apart q List.mem_cons_self).symm
    · refine (Function.update_of_ne hne _ _).trans (h.outside q fun hmem ↦ ?_)
      exact (List.mem_cons.1 hmem).elim hne hq

/-- A cell between others is rewritten. -/
theorem Holds.store_middle {front back : List (ℕ × B)}
    (h : Holds heap base (front ++ (p, b) :: back)) (value : B) :
    ∃ after, BlockHeap.store heap p value = some after ∧
      Holds after base (front ++ (p, value) :: back) := by
  obtain ⟨after, hafter, hcells⟩ := (h.perm List.perm_middle).store value
  exact ⟨after, hafter, hcells.perm List.perm_middle.symm⟩

theorem Holds.free_middle {front back : List (ℕ × B)}
    (h : Holds heap base (front ++ (p, b) :: back)) :
    ∃ after, BlockHeap.free heap p = some after ∧ Holds after base (front ++ back) :=
  (h.perm List.perm_middle).free

end Vodka.Foundation.BlockHeap
