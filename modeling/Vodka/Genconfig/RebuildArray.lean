import Mathlib.Tactic
import Vodka.Genconfig.Substitution

/-!
# The rebuild loop over any array of records

The loop is taken on its own, over records that need not come from a scan: some
unused, the others spans of the line that do not intersect, with any values.
It leaves every piece of the line once, unless the first span starts the line,
has an empty value and touches the second one. Then the output is still empty
when the second record is reached, and the text in front of it is copied: the
text that was to be replaced.
-/

namespace Vodka.Genconfig.RebuildArray

open Replace Rebuild Substitution

variable {line : Bytes} {md : List MatchData}

/-- An array sorted by the ends of its records, those in use disjoint spans of the line with
their texts, and the values C strings. -/
structure MatchArray (line : Bytes) (md : List MatchData) : Prop where
  sorted : md.Pairwise fun first second ↦ first.fullE ≤ second.fullE
  inside : ∀ m ∈ md, m.fullE ≠ 0 → m.fullS < m.fullE ∧ m.fullE ≤ line.length
  disjoint : md.Pairwise fun first second ↦ first.fullE ≠ 0 → second.fullE ≠ 0 →
    first.fullE ≤ second.fullS ∨ second.fullE ≤ first.fullS
  full_eq : ∀ m ∈ md, m.fullE ≠ 0 → m.full = slice line m.fullS m.fullE
  nulFree : ∀ m ∈ md, ∀ value, m.value = some value → NUL ∉ value

/-- The records in use. -/
def live (md : List MatchData) : List MatchData := md.filter fun m ↦ m.fullE ≠ 0

/-- The string in `new_line` is the line with each span replaced once. -/
def Rebuilt (line : Bytes) (md : List MatchData) : Prop :=
  (rebuild line md []).map (terminate line) = some (splice line 0 (live md))

theorem mem_live {m : MatchData} : m ∈ live md ↔ m ∈ md ∧ m.fullE ≠ 0 := by
  simp [live]

theorem MatchArray.spans (h : MatchArray line md) : Spans line 0 (live md) := by
  have hinside : ∀ m ∈ live md, m.fullS < m.fullE ∧ m.fullE ≤ line.length := by
    intro m hm
    obtain ⟨hmem, hused⟩ := mem_live.mp hm
    exact h.inside m hmem hused
  have hdisjoint : (live md).Pairwise fun first second ↦
      first.fullE ≤ second.fullS ∨ second.fullE ≤ first.fullS := by
    refine (h.disjoint.filter _).imp_of_mem fun hfirst hsecond hapart ↦ ?_
    exact hapart (mem_live.mp hfirst).2 (mem_live.mp hsecond).2
  exact spans_of_pairwise (Nat.zero_le _) (fun _ _ ↦ Nat.zero_le _) hinside
    (pairwise_of_disjoint hinside (h.sorted.filter _) hdisjoint)

theorem MatchArray.nul_not_mem_written (h : MatchArray line md) (hline : NUL ∉ line)
    {m : MatchData} (hm : m ∈ live md) : NUL ∉ written m := by
  obtain ⟨hmem, hused⟩ := mem_live.mp hm
  cases hvalue : m.value with
  | none =>
    rw [written, hvalue, Option.getD_none, h.full_eq m hmem hused]
    exact not_mem_slice hline
  | some value =>
    rw [written, hvalue, Option.getD_some]
    exact h.nulFree m hmem value hvalue

/-- Skipping the first span leaves its text in the line. -/
theorem splice_ne_of_skipped {m second : MatchData} {rest : List MatchData}
    (hspans : Spans line 0 (m :: second :: rest)) (hempty : written m = [])
    (hstart : m.fullS = 0) (hnext : second.fullS = m.fullE) :
    splice line 0 (second :: rest) ≠ splice line 0 (m :: second :: rest) := by
  intro hsame
  have hend := hspans.2.2.le_length
  have hlt := hspans.2.1
  have hlength := congrArg List.length hsame
  simp only [splice, hempty, hstart, hnext, List.length_append, List.length_nil] at hlength
  rw [length_slice hend, length_slice (by omega), length_slice hend] at hlength
  omega

theorem rebuilt_live_iff (hline : NUL ∉ line) (h : MatchArray line md) :
    (rebuild line (live md) []).map (terminate line) = some (splice line 0 (live md)) ↔
      Started (live md) := by
  have hspans := h.spans
  have hwritten : ∀ m ∈ live md, NUL ∉ written m := fun _ ↦ h.nul_not_mem_written hline
  generalize live md = records at hspans hwritten
  constructor
  · intro hrebuilt
    cases records with
    | nil => trivial
    | cons m rest =>
      cases rest with
      | nil => trivial
      | cons second rest =>
        intro ⟨hstart, hempty, hnext⟩
        rw [terminate_rebuild_of_not_started hline hwritten hspans hstart hempty hnext] at hrebuilt
        exact splice_ne_of_skipped hspans hempty hstart hnext (Option.some.inj hrebuilt)
  · exact terminate_rebuild hline hwritten hspans

/-- **Rebuild loop.** Over every sorted array of disjoint spans, each piece of the line is output
exactly once unless the first span starts the line, is replaced by nothing and touches the
second. -/
theorem rebuilt_iff (line : Bytes) (md : List MatchData) (hline : NUL ∉ line)
    (h : MatchArray line md) : Rebuilt line md ↔ Started (live md) := by
  rw [Rebuilt, rebuild_filter h.sorted, ← rebuilt_live_iff hline h]
  rfl

/-- The line `ab` with both bytes as spans, the second one to be replaced by `c`. -/
def twoSpans (first : Option Bytes) : List MatchData :=
  [.zero, { fullS := 0, fullE := 1, full := [0x61], value := first },
    { fullS := 1, fullE := 2, full := [0x62], value := some [0x63] }]

theorem twoSpans_matchArray (first : Option Bytes) (hfirst : ∀ value, first = some value →
    NUL ∉ value) : MatchArray [0x61, 0x62] (twoSpans first) where
  sorted := by simp [twoSpans, MatchData.zero]
  inside := by simp [twoSpans, MatchData.zero]
  disjoint := by simp [twoSpans, MatchData.zero]
  full_eq := by simp [twoSpans, MatchData.zero, slice]
  nulFree := by
    have hsecond : ¬ NUL = 0x63 := by decide
    simpa [twoSpans, MatchData.zero] using ⟨hfirst, hsecond⟩

theorem rebuilt_iff_undefined :
    Rebuilt [0x61, 0x62] (twoSpans none) ↔ Started (live (twoSpans none)) :=
  rebuilt_iff _ _ (by decide) (twoSpans_matchArray none fun _ h ↦ absurd h (by simp))

/-- An empty value in front of a touching span: `ab` becomes `ac` instead of `c`. -/
theorem emptyValue_not_rebuilt :
    MatchArray [0x61, 0x62] (twoSpans (some [])) ∧ ¬ Rebuilt [0x61, 0x62] (twoSpans (some [])) :=
  ⟨twoSpans_matchArray (some []) (by simp), by unfold Rebuilt; decide⟩

end Vodka.Genconfig.RebuildArray
