import Mathlib.Tactic
import Vodka.Genconfig.Gaps

/-!
# The buffer for the new line

The buffer is allocated for the line, its terminator, and what the values are
longer than the references in total, where an undefined reference counts as
removed. The loop keeps undefined references, and its last gap brings the
terminator of the line before another one is stored. So a line with a reference
fits only if its defined references shrink it.
-/

namespace Vodka.Genconfig.Capacity

open Foundation.FlatRegex Foundation.Qsort Replace Scan Rebuild Substitution Exactness Gaps

variable {dict : Dictionary} {q : Sorter} {line newLine : Bytes} {m : MatchData}
  {records rest live : List MatchData}

def fullLen (m : MatchData) : ℕ := m.fullE - m.fullS

def nameLen (m : MatchData) : ℕ := m.nameE - m.nameS

def valueLen (m : MatchData) : ℕ := (m.value.getD []).length

/-- The fields of a record that `sum_match_data` adds up. -/
structure Sums where
  fullLen : ℕ
  nameLen : ℕ
  valueLen : ℕ

def sumMatchData (array : List MatchData) : Sums where
  fullLen := (array.map fullLen).sum
  nameLen := (array.map nameLen).sum
  valueLen := (array.map valueLen).sum

/-- The argument of `malloc`. -/
def newLineSize (line : Bytes) (md : List MatchData) : ℕ :=
  let sum := sumMatchData md
  line.length + 1 + (max ((sum.valueLen : ℤ) - sum.fullLen) 0).toNat

/-- The bytes of the buffer that are used once the loop has written `newLine`: `strcpy` stores the
line, otherwise a terminator is stored behind what is written. -/
def stored (line newLine : Bytes) : ℕ :=
  if newLine = [] then line.length + 1 else newLine.length + 1

/-- The loop ends, and the buffer holds what is stored. -/
structure Fits (dict : Dictionary) (q : Sorter) (line : Bytes) (md : List MatchData)
    (newLine : Bytes) : Prop where
  sorted : sortedMatchData dict q line = some md
  rebuilt : rebuild line md [] = some newLine
  room : stored line newLine ≤ newLineSize line md

/-- The loop copies the text of the span in spite of an empty value: it starts the line, and
another record follows at once. -/
def Kept (live : List MatchData) (m : MatchData) : Prop :=
  m.fullS = 0 ∧ written m = [] ∧ ∃ second ∈ live, second.fullS = m.fullE

instance : DecidableRel Kept := fun _ _ ↦ instDecidableAnd

/-- What a record adds to the length of the line. -/
def change (live : List MatchData) (m : MatchData) : ℤ :=
  if Kept live m then 0 else (written m).length - fullLen m

theorem change_of_pos (h : 0 < m.fullS) : change live m = (written m).length - fullLen m :=
  if_neg fun hkept ↦ h.ne' hkept.1

/-- Behind the first record nothing is kept. -/
theorem sum_change_rest (hspans : Spans line m.fullE rest) (hpos : 0 < m.fullE) :
    (rest.map (change live)).sum =
      (rest.map fun record ↦ ((written record).length : ℤ) - fullLen record).sum := by
  apply congrArg List.sum
  apply List.map_congr_left
  intro record hrecord
  have := (position_le_of_mem hspans hrecord).1
  exact change_of_pos (by omega)

theorem sum_natCast_sub (f g : MatchData → ℕ) (records : List MatchData) :
    (records.map fun record ↦ (f record : ℤ) - g record).sum =
      ((records.map f).sum : ℤ) - (records.map g).sum := by
  induction records with
  | nil => rfl
  | cons record rest ih =>
    simp only [List.map_cons, List.sum_cons, Nat.cast_add, ih]
    omega

/-- The length of the spliced line. -/
theorem length_splice_change (hspans : Spans line 0 records) :
    ((splice line 0 records).length : ℤ) = line.length +
      (records.map fun record ↦ ((written record).length : ℤ) - fullLen record).sum := by
  have hlength := length_splice hspans
  rw [sum_natCast_sub (fun record ↦ (written record).length) fullLen]
  change _ + _ + (records.map fullLen).sum = _ at hlength
  omega

/-- The loop writes the line with its changes and a terminator. -/
theorem rebuild_length (hline : NUL ∉ line)
    (hwritten : ∀ record ∈ m :: rest, NUL ∉ written record) (hspans : Spans line 0 (m :: rest)) :
    ∃ text, rebuild line (m :: rest) [] = some (text ++ [NUL]) ∧
      (text.length : ℤ) = line.length + ((m :: rest).map (change (m :: rest))).sum := by
  have hpos : 0 < m.fullE := by
    have := hspans.2.1
    omega
  rw [List.map_cons, List.sum_cons, sum_change_rest hspans.2.2 hpos]
  by_cases hkept : Kept (m :: rest) m
  · obtain ⟨hstart, hempty, second, hsecond, hnext⟩ := hkept
    have hlater : second ∈ rest := by
      apply List.mem_of_ne_of_mem _ hsecond
      rintro rfl
      omega
    obtain ⟨tail, rfl, htail⟩ := eq_cons_of_spans hspans.2.2 hlater hnext
    have hsecondSpans : Spans line 0 (second :: tail) :=
      ⟨Nat.zero_le _, hspans.2.2.2.1, htail⟩
    have hlength := length_splice_change hsecondSpans
    refine ⟨splice line 0 (second :: tail), ?_, ?_⟩
    · rw [rebuild_of_not_started hpos.ne' hstart hempty hnext]
      apply rebuild_eq_splice hline _ hsecondSpans (started_of_pos (by omega)) (by simp)
      exact fun record hrecord ↦ hwritten record (List.mem_cons_of_mem _ hrecord)
    · rw [change, if_pos ⟨hstart, hempty, second, hsecond, hnext⟩, Int.zero_add]
      exact hlength
  · have hstarted : Started (m :: rest) := by
      cases rest with
      | nil => trivial
      | cons second tail =>
        rintro ⟨hstart, hempty, hnext⟩
        exact hkept ⟨hstart, hempty, second, by simp, hnext⟩
    have hlength := length_splice_change hspans
    rw [List.map_cons, List.sum_cons] at hlength
    refine ⟨splice line 0 (m :: rest), ?_, ?_⟩
    · exact rebuild_eq_splice hline hwritten hspans hstarted (by simp)
    · rw [change, if_neg hkept]
      exact hlength

/-! ## When the new line fits -/

/-- An empty value of a reference at the start of the line, with another reference right behind
it. -/
def Stays (dict : Dictionary) (spans : List Span) (span : Span) : Prop :=
  span.start = 0 ∧ dict.get span.name = some [] ∧ ∃ next ∈ spans, next.start = span.stop

instance (dict : Dictionary) (spans : List Span) : DecidablePred (Stays dict spans) := fun _ ↦
  instDecidableAnd

/-- How much longer the value of a defined reference is. -/
def gain (dict : Dictionary) (spans : List Span) (span : Span) : ℤ :=
  if Stays dict spans span then 0
  else
    match dict.get span.name with
    | none => 0
    | some value => value.length - (span.stop - span.start : ℕ)

/-- There is no reference, or the line gets shorter. -/
def Shrinks (dict : Dictionary) (spans : List Span) : Prop :=
  spans = [] ∨ (spans.map (gain dict spans)).sum < 0

variable {hits : Form → List MatchData}

theorem kept_iff_stays (h : Recording line hits)
    (hperm : live.Perm ((Form.all.flatMap hits).map (valued dict)))
    (hm : m ∈ Form.all.flatMap hits) :
    Kept live (valued dict m) ↔ Stays dict ((Form.all.flatMap hits).map spanOf) (spanOf m) := by
  have hempty : written (valued dict m) = [] ↔ dict.get m.name = some [] := by
    obtain ⟨form, -, hm⟩ := List.mem_flatMap.1 hm
    have hinside := (h.hit form m hm).inside
    have hlength := (h.hit form m hm).length
    rw [written, valued]
    cases hvalue : dict.get m.name with
    | some value => simp
    | none =>
      simp only [Option.getD_none, reduceCtorEq, iff_false]
      intro hfull
      rw [hfull, List.length_nil] at hlength
      omega
  rw [Kept, Stays, hempty]
  simp only [hperm.mem_iff, List.mem_map, exists_exists_and_eq_and]
  rfl

theorem change_valued (h : Recording line hits)
    (hperm : live.Perm ((Form.all.flatMap hits).map (valued dict)))
    (hm : m ∈ Form.all.flatMap hits) :
    change live (valued dict m) = gain dict ((Form.all.flatMap hits).map spanOf) (spanOf m) := by
  rw [change, gain]
  by_cases hkept : Kept live (valued dict m)
  · rw [if_pos hkept, if_pos ((kept_iff_stays h hperm hm).1 hkept)]
  · rw [if_neg hkept, if_neg fun hstays ↦ hkept ((kept_iff_stays h hperm hm).2 hstays)]
    obtain ⟨form, -, hm⟩ := List.mem_flatMap.1 hm
    have hlength := (h.hit form m hm).length
    simp only [written, valued, spanOf, fullLen]
    cases hvalue : dict.get m.name with
    | some value => rfl
    | none => simp [hlength]

/-- What the values add, with undefined references removed, is no more than the gain. -/
theorem valueLen_sub_le_gain (dict : Dictionary) (spans : List Span) (m : MatchData) :
    (valueLen (valued dict m) : ℤ) - fullLen (valued dict m) ≤ gain dict spans (spanOf m) := by
  rw [gain]
  simp only [valueLen, valued, fullLen]
  by_cases hstays : Stays dict spans (spanOf m)
  · have hempty : dict.get m.name = some [] := hstays.2.1
    rw [if_pos hstays, hempty, Option.getD_some, List.length_nil]
    omega
  · rw [if_neg hstays]
    simp only [spanOf]
    cases dict.get m.name with
    | some value => exact le_rfl
    | none =>
      dsimp only [Option.getD_none, List.length_nil]
      omega

theorem sum_sortedMatchData {found : Form → List MatchData} {md : List MatchData}
    (hperm : md.Perm (Form.all.flatMap fun form ↦
      found form ++ List.replicate (MATCHES - (found form).length) MatchData.zero))
    (f : MatchData → ℕ) (hzero : f .zero = 0) :
    (md.map f).sum = ((Form.all.flatMap found).map f).sum := by
  rw [(hperm.map f).sum_eq]
  simp [Form.all, hzero]

theorem newLineSize_eq {md : List MatchData}
    (hperm : md.Perm (Form.all.flatMap fun form ↦ (hits form).map (valued dict) ++
      List.replicate (MATCHES - ((hits form).map (valued dict)).length) MatchData.zero)) :
    newLineSize line md = line.length + 1 + (max (((Form.all.flatMap hits).map fun m ↦
      (valueLen (valued dict m) : ℤ) - fullLen (valued dict m)).sum) 0).toNat := by
  have hvalues := sum_sortedMatchData hperm valueLen rfl
  have hfulls := sum_sortedMatchData hperm fullLen rfl
  rw [← List.map_flatMap, List.map_map] at hvalues hfulls
  have hsub := sum_natCast_sub (valueLen ∘ valued dict) (fullLen ∘ valued dict)
    (Form.all.flatMap hits)
  simp only [Function.comp_def] at hvalues hfulls hsub
  rw [newLineSize, sumMatchData, hvalues, hfulls, hsub]

/-- What is stored for records that follow each other. -/
theorem stored_eq (h : Recording line hits) (hline : NUL ∉ line)
    (hperm : live.Perm ((Form.all.flatMap hits).map (valued dict))) (hspans : Spans line 0 live) :
    ∃ newLine, rebuild line live [] = some newLine ∧ (stored line newLine : ℤ) =
      line.length + (if live = [] then 1 else 2) +
        (((Form.all.flatMap hits).map spanOf).map
          (gain dict ((Form.all.flatMap hits).map spanOf))).sum := by
  have hsum : (live.map (change live)).sum = (((Form.all.flatMap hits).map spanOf).map
      (gain dict ((Form.all.flatMap hits).map spanOf))).sum := by
    rw [(hperm.map (change live)).sum_eq, List.map_map, List.map_map]
    apply congrArg List.sum
    exact List.map_congr_left fun m hm ↦ change_valued h hperm hm
  rw [← hsum]
  cases live with
  | nil => exact ⟨[], rfl, rfl⟩
  | cons m rest =>
    have hwritten : ∀ record ∈ m :: rest, NUL ∉ written record := by
      intro record hrecord
      obtain ⟨base, hbase, rfl⟩ := List.mem_map.1 (hperm.mem_iff.1 hrecord)
      exact h.nul_not_mem_written hline hbase
    obtain ⟨text, hrebuild, hlength⟩ := rebuild_length hline hwritten hspans
    refine ⟨text ++ [NUL], hrebuild, ?_⟩
    rw [stored, if_neg (by simp), if_neg (List.cons_ne_nil _ _), List.length_append,
      List.length_singleton]
    push_cast
    omega

theorem room_iff_shrinks (h : Recording line hits) (hline : NUL ∉ line) {md : List MatchData}
    (hsorted : md.Pairwise fun first second ↦ first.fullE ≤ second.fullE)
    (hmd : md.Perm (Form.all.flatMap fun form ↦ (hits form).map (valued dict) ++
      List.replicate (MATCHES - ((hits form).map (valued dict)).length) MatchData.zero))
    (hperm : (md.filter fun m ↦ m.fullE ≠ 0).Perm ((Form.all.flatMap hits).map (valued dict)))
    (hspans : Spans line 0 (md.filter fun m ↦ m.fullE ≠ 0)) :
    ∃ newLine, rebuild line md [] = some newLine ∧ (stored line newLine ≤ newLineSize line md ↔
      Shrinks dict ((Form.all.flatMap hits).map spanOf)) := by
  obtain ⟨newLine, hrebuild, hstored⟩ := stored_eq h hline hperm hspans
  rw [← rebuild_filter hsorted] at hrebuild
  refine ⟨newLine, hrebuild, ?_⟩
  have hle : ((Form.all.flatMap hits).map fun m ↦
      (valueLen (valued dict m) : ℤ) - fullLen (valued dict m)).sum ≤
        (((Form.all.flatMap hits).map spanOf).map
          (gain dict ((Form.all.flatMap hits).map spanOf))).sum := by
    rw [List.map_map]
    apply List.sum_le_sum
    exact fun m _ ↦ valueLen_sub_le_gain dict _ m
  have hempty : (md.filter fun m ↦ m.fullE ≠ 0) = [] ↔
      (Form.all.flatMap hits).map spanOf = [] := by
    rw [← List.length_eq_zero_iff, hperm.length_eq, List.length_map, List.length_eq_zero_iff,
      List.map_eq_nil_iff]
  rw [newLineSize_eq hmd, Shrinks, ← hempty]
  by_cases hnil : (md.filter fun m ↦ m.fullE ≠ 0) = []
  · have hsum : (((Form.all.flatMap hits).map spanOf).map
        (gain dict ((Form.all.flatMap hits).map spanOf))).sum = 0 := by
      rw [hempty.1 hnil]
      rfl
    rw [if_pos hnil, hsum] at hstored
    exact ⟨fun _ ↦ Or.inl hnil, fun _ ↦ by omega⟩
  · rw [if_neg hnil] at hstored
    constructor
    · intro hroom
      right
      omega
    · intro hshrinks
      have := hshrinks.resolve_left hnil
      omega

/-- The new line fits exactly when the records can be rebuilt and it has no reference or gets
shorter. -/
theorem fits_iff (dict : Dictionary) (q : Sorter) (line : Bytes)
    (hlength : line.length < MAX_LINE_LENGTH) (hline : NUL ∉ line) :
    (∃ md newLine, Fits dict q line md newLine) ↔
      ∃ met, MeetsAll line met ∧ NotNested met ∧ Shrinks dict (Form.all.flatMap met) := by
  have hall {met : Form → List Span} {hits : Form → List MatchData}
      (hspans : ∀ form, (hits form).map spanOf = met form) :
      Form.all.flatMap met = (Form.all.flatMap hits).map spanOf := by
    rw [List.map_flatMap, funext hspans]
  constructor
  · rintro ⟨md, newLine, hmd, hrebuilt, hroom⟩
    obtain ⟨met, hmet⟩ := exists_met hmd
    obtain ⟨hits, h, hspansEq⟩ := hmet.exists_recording hlength
    obtain ⟨other, hother, hsorted, hperm, hlive, hinside⟩ := live_of_recording h dict q
    obtain rfl : other = md := Option.some.inj (hother.symm.trans hmd)
    have hspans : Spans line 0 (other.filter fun m ↦ m.fullE ≠ 0) := by
      rw [rebuild_filter hsorted] at hrebuilt
      exact spans_of_rebuild_all hinside hrebuilt
    obtain ⟨result, hresult, hiff⟩ := room_iff_shrinks h hline hsorted hperm hlive hspans
    obtain rfl : result = newLine := Option.some.inj (hresult.symm.trans hrebuilt)
    refine ⟨met, hmet, ?_, hall hspansEq ▸ hiff.1 hroom⟩
    exact (spans_iff_notNested hmet hspansEq (hsorted.filter _) hlive hinside).1 hspans
  · rintro ⟨met, hmet, hnot, hshrinks⟩
    obtain ⟨hits, h, hspansEq⟩ := hmet.exists_recording hlength
    obtain ⟨md, hmd, hsorted, hperm, hlive, hinside⟩ := live_of_recording h dict q
    have hspans := (spans_iff_notNested hmet hspansEq (hsorted.filter _) hlive hinside).2 hnot
    obtain ⟨newLine, hrebuilt, hiff⟩ := room_iff_shrinks h hline hsorted hperm hlive hspans
    exact ⟨md, newLine, hmd, hrebuilt, hiff.2 (hall hspansEq ▸ hshrinks)⟩

/-- Two short values shrink the line. -/
theorem fits_iff_two :
    (∃ md newLine, Fits allOne insertionSorter (bytes "@A@ $\x7bB\x7d\n") md newLine) ↔
      ∃ met, MeetsAll (bytes "@A@ $\x7bB\x7d\n") met ∧ NotNested met ∧
        Shrinks allOne (Form.all.flatMap met) :=
  fits_iff allOne insertionSorter (bytes "@A@ $\x7bB\x7d\n") (by decide) (by decide)

/-- An undefined reference takes no more room, but the terminator is stored twice. -/
theorem undefined_not_fits :
    ¬∃ md newLine, Fits .unset insertionSorter (bytes "@A@\n") md newLine := by
  rintro ⟨md, newLine, hmd, hrebuilt, hroom⟩
  have hsizes : (sortedMatchData .unset insertionSorter (bytes "@A@\n")).bind (fun md ↦
      (rebuild (bytes "@A@\n") md []).map fun newLine ↦
        (stored (bytes "@A@\n") newLine, newLineSize (bytes "@A@\n") md)) = some (6, 5) := by
    decide +kernel
  rw [hmd, Option.bind_some, hrebuilt, Option.map_some, Option.some.injEq, Prod.mk.injEq] at hsizes
  omega

end Vodka.Genconfig.Capacity
