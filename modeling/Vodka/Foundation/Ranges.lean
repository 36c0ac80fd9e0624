import Mathlib.Tactic

/-!
# Sorted range tables

A table of closed ranges in increasing order of their lower ends, scanned once
from the front: the scan stops at the first lower end that is not below the
wanted point, or at the last entry. It stops at a range around the point only
when the point is a lower end or lies behind all of them; at any other point it
stops at the range that comes next.
-/

namespace Vodka.Foundation.Ranges

/-- A nonempty table of ranges. Ranges may coincide, and the last one ends last. -/
structure RangeTable (α κ : Type*) [LinearOrder κ] where
  entries : List α
  lo : α → κ
  hi : α → κ
  last : α
  sorted : entries.Pairwise fun first second ↦ lo first ≤ lo second
  lo_le_hi : ∀ entry ∈ entries, lo entry ≤ hi entry
  last_eq : entries.getLast? = some last
  hi_le_last : ∀ entry ∈ entries, hi entry ≤ hi last

variable {α κ : Type*} [LinearOrder κ] (table : RangeTable α κ) (point : κ)

namespace RangeTable

/-- The range of the entry holds the point. -/
def Contains (entry : α) : Prop := table.lo entry ≤ point ∧ point ≤ table.hi entry

/-- Where the scan for the point stops. -/
def scan : α := (table.entries.find? fun entry ↦ decide (point ≤ table.lo entry)).getD table.last

/-- The point is a lower end, or no lower end is above it. -/
def Reached : Prop :=
  (∃ entry ∈ table.entries, table.lo entry = point) ∨
    ∀ entry ∈ table.entries, table.lo entry ≤ point

variable {table point}

theorem last_mem : table.last ∈ table.entries :=
  List.mem_of_getLast? table.last_eq

theorem scan_of_forall_lt (h : ∀ entry ∈ table.entries, table.lo entry < point) :
    table.scan point = table.last := by
  have hnone : table.entries.find? (fun entry ↦ decide (point ≤ table.lo entry)) = none := by
    rw [List.find?_eq_none]
    intro entry hentry
    simpa using h entry hentry
  rw [scan, hnone, Option.getD_none]

/-- As long as a lower end is not below the point, the scan stops at the least such one. -/
theorem scan_of_exists_le (h : ∃ entry ∈ table.entries, point ≤ table.lo entry) :
    table.scan point ∈ table.entries ∧ point ≤ table.lo (table.scan point) ∧
      ∀ entry ∈ table.entries, point ≤ table.lo entry →
        table.lo (table.scan point) ≤ table.lo entry := by
  cases hfound : table.entries.find? (fun entry ↦ decide (point ≤ table.lo entry)) with
  | none =>
    obtain ⟨entry, hentry, hle⟩ := h
    rw [List.find?_eq_none] at hfound
    exact absurd hle (by simpa using hfound entry hentry)
  | some stop =>
    have hscan : table.scan point = stop := by rw [scan, hfound, Option.getD_some]
    obtain ⟨hstop, before, after, hsplit, hbefore⟩ := List.find?_eq_some_iff_append.1 hfound
    have hmem : stop ∈ table.entries := by simp [hsplit]
    rw [hscan]
    refine ⟨hmem, by simpa using hstop, fun entry hentry hle ↦ ?_⟩
    have hsorted := table.sorted
    rw [hsplit, List.mem_append, List.mem_cons] at hentry
    rw [hsplit, List.pairwise_append, List.pairwise_cons] at hsorted
    rcases hentry with hentry | rfl | hentry
    · exact absurd hle (by simpa using hbefore entry hentry)
    · exact le_rfl
    · exact hsorted.2.1.1 entry hentry

theorem scan_mem : table.scan point ∈ table.entries := by
  by_cases h : ∃ entry ∈ table.entries, point ≤ table.lo entry
  · exact (scan_of_exists_le h).1
  · push Not at h
    rw [scan_of_forall_lt h]
    exact last_mem

/-- The scan overshoots unless the point is reached. -/
theorem lo_scan_le_iff : table.lo (table.scan point) ≤ point ↔ table.Reached point := by
  by_cases h : ∃ entry ∈ table.entries, point ≤ table.lo entry
  · obtain ⟨hmem, hle, hleast⟩ := scan_of_exists_le h
    constructor
    · intro hback
      exact .inl ⟨_, hmem, le_antisymm hback hle⟩
    · rintro (⟨entry, hentry, heq⟩ | hall)
      · exact (hleast entry hentry heq.ge).trans heq.le
      · exact hall _ hmem
  · push Not at h
    refine ⟨fun _ ↦ .inr fun entry hentry ↦ (h entry hentry).le, fun _ ↦ ?_⟩
    exact (h _ scan_mem).le

theorem le_hi_scan_of_lt (h : point < table.lo (table.scan point)) :
    point ≤ table.hi (table.scan point) :=
  h.le.trans (table.lo_le_hi _ scan_mem)

/-- At a reached point the scan finds a range around it when there is one. -/
theorem exists_contains_iff (h : table.Reached point) :
    (∃ entry ∈ table.entries, table.Contains point entry) ↔
      point ≤ table.hi (table.scan point) := by
  have hlo := lo_scan_le_iff.2 h
  refine ⟨?_, fun hhi ↦ ⟨_, scan_mem, hlo, hhi⟩⟩
  rintro ⟨entry, hentry, hcontains⟩
  by_cases hexists : ∃ entry ∈ table.entries, point ≤ table.lo entry
  · exact (scan_of_exists_le hexists).2.1.trans (table.lo_le_hi _ scan_mem)
  · push Not at hexists
    rw [scan_of_forall_lt hexists]
    exact hcontains.2.trans (table.hi_le_last entry hentry)

end RangeTable

end Vodka.Foundation.Ranges
