import Mathlib.Tactic
import Vodka.Genconfig.Exactness

/-!
# The gaps between references

The rebuild loop copies the text between a record and the next one, in the order
of their ends. A length below zero would become a huge unsigned one. The records
of one form follow each other; those of different forms are found independently,
so that one reference may stand inside another. The lengths are right exactly
when no reference that a scan meets starts inside one of another form.
-/

namespace Vodka.Genconfig.Gaps

open Foundation.FlatRegex Foundation.Qsort Replace Scan Rebuild Substitution Exactness

variable {dict : Dictionary} {q : Sorter} {form : Form} {line : Bytes} {position tmpLine fuel : ℕ}
  {records out : List MatchData} {found : Match UInt8}

/-- A reference in a line. -/
structure Span where
  start : ℕ
  stop : ℕ
  name : Bytes
deriving DecidableEq

def spanOf (m : MatchData) : Span := ⟨m.fullS, m.fullE, m.name⟩

/-- The references met from a position on: the first one at or behind it, and those met from the
sum of the position and its end on. -/
inductive Met (form : Form) (line : Bytes) : ℕ → List Span → Prop
  | last {position : ℕ} (hnone : exec (variablePat form) (line.drop position) = none) :
      Met form line position []
  | next {position : ℕ} {found : Match UInt8} {rest : List Span}
      (hfound : exec (variablePat form) (line.drop position) = some found)
      (hinside : position + (found.stop + position) ≤ line.length)
      (hrest : Met form line (position + (found.stop + position)) rest) :
      Met form line position
        (⟨found.start + position, found.stop + position,
          slice (line.drop position) (found.so 1) (found.eo 1)⟩ :: rest)

theorem spanOf_recordOf (hfound : exec (variablePat form) (line.drop tmpLine) = some found) :
    spanOf (recordOf dict line tmpLine found) = ⟨found.start + tmpLine, found.stop + tmpLine,
      slice (line.drop tmpLine) (found.so 1) (found.eo 1)⟩ := by
  have hstop := start_lt_stop hfound
  rw [recordOf, initMatchData, if_neg (by dsimp only; omega)]
  rfl

/-- A scan that ends has stayed in the line. -/
theorem met_of_done
    (h : Replace.scanFrom dict (variablePat form) line fuel tmpLine records = .done out) :
    ∃ met, Met form line tmpLine met := by
  induction fuel generalizing tmpLine records with
  | zero => cases h
  | succ fuel ih =>
    obtain ⟨-, ⟨hnone, -⟩ | ⟨found, hfound, -, hrest⟩⟩ := scanFrom_done_cases h
    · exact ⟨[], Met.last hnone⟩
    · obtain ⟨met, hmet⟩ := ih hrest
      exact ⟨_, Met.next hfound (le_length_of_done hrest) hmet⟩

/-- In a short line the scan records what it meets. -/
theorem Met.scanFrom {met : List Span} (hmet : Met form line tmpLine met)
    (hline : line.length < MAX_LINE_LENGTH) (hinside : tmpLine ≤ line.length)
    (hdoubled : 2 ^ records.length ≤ tmpLine + 1) (hpos : 0 < fuel)
    (hfuel : line.length + 2 ≤ fuel + tmpLine) :
    ∃ new, Replace.scanFrom dict (variablePat form) line fuel tmpLine records =
      .done (records ++ new) ∧ new.map spanOf = met := by
  induction hmet generalizing fuel records with
  | @last position hnone =>
    obtain ⟨fuel, rfl⟩ := Nat.exists_eq_succ_of_ne_zero hpos.ne'
    exact ⟨[], by rw [scanFrom_none hinside hnone, List.append_nil], rfl⟩
  | @next position found rest hfound hnext hrest ih =>
    obtain ⟨fuel, rfl⟩ := Nat.exists_eq_succ_of_ne_zero hpos.ne'
    have hstop := start_lt_stop hfound
    have hroom : records.length < MATCHES := by
      apply (Nat.pow_lt_pow_iff_right Nat.one_lt_two).1
      calc 2 ^ records.length ≤ position + 1 := hdoubled
        _ ≤ MAX_LINE_LENGTH := by omega
        _ < 2 ^ MATCHES := by decide
    have hdoubledNext : 2 ^ (records ++ [recordOf dict line position found]).length ≤
        position + (found.stop + position) + 1 := by
      rw [List.length_append, List.length_singleton, Nat.pow_succ]
      omega
    have hmore : 0 < fuel := by omega
    obtain ⟨new, hscan, hnew⟩ := ih hnext hdoubledNext hmore (by omega)
    refine ⟨recordOf dict line position found :: new, ?_, ?_⟩
    · rw [scanFrom_found hinside hfound hroom.ne, hscan, List.append_assoc, List.singleton_append]
    · rw [List.map_cons, spanOf_recordOf hfound, hnew]

/-- The references of one form follow each other. -/
theorem Met.pairwise {met : List Span} (hmet : Met form line position met) :
    (∀ span ∈ met, position ≤ span.start ∧ span.start < span.stop) ∧
      met.Pairwise fun first second ↦ first.stop ≤ second.start := by
  induction hmet with
  | last hnone => exact ⟨fun _ h ↦ absurd h List.not_mem_nil, List.Pairwise.nil⟩
  | @next position found rest hfound hinside hrest ih =>
    obtain ⟨hbehind, hordered⟩ := ih
    have hstop := start_lt_stop hfound
    constructor
    · intro span hspan
      rcases List.mem_cons.1 hspan with rfl | hspan
      · exact ⟨Nat.le_add_left _ _, by dsimp only; omega⟩
      · have := hbehind span hspan
        omega
    · refine List.pairwise_cons.2 ⟨fun span hspan ↦ ?_, hordered⟩
      have := (hbehind span hspan).1
      dsimp only
      omega

/-- The scans stay in the line and meet these references. -/
def MeetsAll (line : Bytes) (met : Form → List Span) : Prop := ∀ form, Met form line 0 (met form)

theorem exists_met {md : List MatchData} (h : sortedMatchData dict q line = some md) :
    ∃ met, MeetsAll line met := by
  choose records hscan using scan_of_sortedMatchData h
  choose met hmet using fun form ↦ met_of_done (hscan form)
  exact ⟨met, hmet⟩

/-- The records of a short line in which the scans stay. -/
theorem MeetsAll.exists_recording {met : Form → List Span} (h : MeetsAll line met)
    (hline : line.length < MAX_LINE_LENGTH) :
    ∃ hits, Recording line hits ∧ ∀ form, (hits form).map spanOf = met form := by
  have hscan (form : Form) : ∃ new, scan .unset form line = .done new ∧
      new.map spanOf = met form := by
    exact (h form).scanFrom hline (Nat.zero_le _) le_rfl (Nat.succ_pos _) (Nat.le_add_right _ _)
  choose hits hdone hspans using hscan
  refine ⟨hits, ⟨hdone, fun form ↦ ?_⟩, hspans⟩
  exact hit_of_done (hdone form) fun _ hm ↦ absurd hm List.not_mem_nil

/-- One span ends before the other starts. -/
def Disjoint (first second : MatchData) : Prop :=
  first.fullE ≤ second.fullS ∨ second.fullE ≤ first.fullS

/-- No reference of one form starts inside one of another form. -/
def NotNested (met : Form → List Span) : Prop :=
  ∀ form other, form ≠ other → ∀ outer ∈ met form, ∀ inner ∈ met other,
    ¬(outer.start ≤ inner.start ∧ inner.start < outer.stop)

theorem disjoint_iff_notNested {met : Form → List Span} {hits : Form → List MatchData}
    (hmet : MeetsAll line met) (hspans : ∀ form, (hits form).map spanOf = met form) :
    (Form.all.flatMap hits).Pairwise Disjoint ↔ NotNested met := by
  have hnonempty (form : Form) (m : MatchData) (hm : m ∈ hits form) : m.fullS < m.fullE :=
    ((hmet form).pairwise.1 (spanOf m) (hspans form ▸ List.mem_map_of_mem hm)).2
  rw [List.pairwise_flatMap]
  constructor
  · rintro ⟨-, hforms⟩ form other hne outer houter inner hinner hnested
    rw [← hspans form] at houter
    rw [← hspans other] at hinner
    obtain ⟨first, hfirst, rfl⟩ := List.mem_map.1 houter
    obtain ⟨second, hsecond, rfl⟩ := List.mem_map.1 hinner
    have hsymm : Std.Symm fun form other : Form ↦
        ∀ first ∈ hits form, ∀ second ∈ hits other, Disjoint first second :=
      ⟨fun _ _ h first hfirst second hsecond ↦ (h second hsecond first hfirst).symm⟩
    have hdisjoint := hforms.forall (by cases form <;> decide) (by cases other <;> decide) hne
      first hfirst second hsecond
    have := hnonempty other second hsecond
    simp only [spanOf, Disjoint] at hnested hdisjoint
    omega
  · intro hnot
    constructor
    · intro form _
      have hordered := (hmet form).pairwise.2
      rw [← hspans form, List.pairwise_map] at hordered
      exact hordered.imp Or.inl
    · have hforms : Form.all.Pairwise (· ≠ ·) := by decide
      apply hforms.imp
      intro form other hne first hfirst second hsecond
      have hfirstMem := List.mem_map_of_mem (f := spanOf) hfirst
      have hsecondMem := List.mem_map_of_mem (f := spanOf) hsecond
      rw [hspans] at hfirstMem hsecondMem
      have houter := hnot form other hne _ hfirstMem _ hsecondMem
      have hinner := hnot other form hne.symm _ hsecondMem _ hfirstMem
      simp only [spanOf] at houter hinner
      rw [Disjoint]
      omega

/-- The sorted records in use are those of the scans, with the values of a dictionary. -/
theorem live_of_recording {hits : Form → List MatchData} (h : Recording line hits)
    (dict : Dictionary) (q : Sorter) :
    ∃ md, sortedMatchData dict q line = some md ∧
      (md.Pairwise fun first second ↦ first.fullE ≤ second.fullE) ∧
      md.Perm (Form.all.flatMap fun form ↦ (hits form).map (valued dict) ++
        List.replicate (MATCHES - ((hits form).map (valued dict)).length) MatchData.zero) ∧
      (md.filter fun m ↦ m.fullE ≠ 0).Perm ((Form.all.flatMap hits).map (valued dict)) ∧
      ∀ m ∈ md.filter fun m ↦ m.fullE ≠ 0, m.fullS < m.fullE ∧ m.fullE ≤ line.length := by
  obtain ⟨md, hmd, hsorted, hperm⟩ :=
    sortedMatchData_eq q fun form ↦ scanFrom_valued dict (h.scan form)
  have hlive := filter_sortedMatchData hperm (by
    intro form m hm
    obtain ⟨base, hbase, rfl⟩ := List.mem_map.1 hm
    exact Nat.ne_of_gt (Nat.zero_lt_of_lt (h.hit form base hbase).inside.1))
  rw [← List.map_flatMap] at hlive
  refine ⟨md, hmd, hsorted, hperm, hlive, fun m hm ↦ ?_⟩
  obtain ⟨base, hbase, rfl⟩ := List.mem_map.1 (hlive.mem_iff.1 hm)
  obtain ⟨form, -, hbase⟩ := List.mem_flatMap.1 hbase
  exact (h.hit form base hbase).inside

/-- Spans that follow each other do not intersect. -/
theorem disjoint_of_spans (hspans : Spans line position records) : records.Pairwise Disjoint := by
  induction records generalizing position with
  | nil => exact List.Pairwise.nil
  | cons m rest ih =>
    refine List.pairwise_cons.2 ⟨fun later hlater ↦ ?_, ih hspans.2.2⟩
    exact Or.inl (position_le_of_mem hspans.2.2 hlater).1

/-- The sorted records follow each other if no reference is nested in another one. -/
theorem spans_iff_notNested {met : Form → List Span} {hits : Form → List MatchData}
    {live : List MatchData} (hmet : MeetsAll line met)
    (hspans : ∀ form, (hits form).map spanOf = met form)
    (hsorted : live.Pairwise fun first second ↦ first.fullE ≤ second.fullE)
    (hlive : live.Perm ((Form.all.flatMap hits).map (valued dict)))
    (hinside : ∀ m ∈ live, m.fullS < m.fullE ∧ m.fullE ≤ line.length) :
    Spans line 0 live ↔ NotNested met := by
  have hpairwise : live.Pairwise Disjoint ↔ (Form.all.flatMap hits).Pairwise Disjoint := by
    rw [hlive.pairwise_iff fun h ↦ h.symm, List.pairwise_map]
    rfl
  rw [← disjoint_iff_notNested hmet hspans, ← hpairwise]
  constructor
  · exact disjoint_of_spans
  · intro hdisjoint
    apply spans_of_pairwise (Nat.zero_le _) (fun _ _ ↦ Nat.zero_le _) hinside
    exact pairwise_of_disjoint hinside hsorted hdisjoint

/-! ## The copied gaps -/

/-- The arguments of a `memcpy` from the line. -/
structure Gap where
  source : ℕ
  right : ℤ

/-- What the rebuild loop copies behind the records, in the order of the array. -/
def gaps (line : Bytes) : List MatchData → List Gap
  | [] => []
  | m :: rest =>
    if m.fullE = 0 then gaps line rest
    else ⟨m.fullE, (nextStart line rest : ℤ) - m.fullE⟩ :: gaps line rest

/-- The loop has a result exactly when no length is below zero. -/
theorem rebuild_isSome_iff (line : Bytes) (md : List MatchData) (newLine : Bytes) :
    (rebuild line md newLine).isSome ↔ ∀ gap ∈ gaps line md, 0 ≤ gap.right := by
  induction md generalizing newLine with
  | nil => simp [rebuild, gaps]
  | cons m rest ih =>
    rw [rebuild, gaps]
    by_cases hunused : m.fullE = 0
    · rw [if_pos hunused, if_pos hunused]
      exact ih newLine
    · rw [if_neg hunused, if_neg hunused, List.forall_mem_cons]
      dsimp only
      by_cases hnegative : nextStart line rest < m.fullE
      · rw [if_pos hnegative]
        simp only [Option.isSome_none, Bool.false_eq_true, false_iff, not_and]
        omega
      · rw [if_neg hnegative, ih]
        exact (and_iff_right (by omega)).symm

theorem gaps_filter {md : List MatchData}
    (hsorted : md.Pairwise fun first second ↦ first.fullE ≤ second.fullE) :
    gaps line md = gaps line (md.filter fun m ↦ m.fullE ≠ 0) := by
  induction md with
  | nil => rfl
  | cons m rest ih =>
    obtain ⟨hle, hrest⟩ := List.pairwise_cons.1 hsorted
    by_cases hzero : m.fullE = 0
    · rw [gaps, if_pos hzero, ih hrest, List.filter_cons_of_neg (by simpa using hzero)]
    · rw [filter_eq_self_of_sorted hsorted hzero]

/-- The gaps between records that follow each other lie in the line and its terminator. -/
theorem gaps_of_spans (hspans : Spans line position records) :
    ∀ gap ∈ gaps line records, 0 ≤ gap.right ∧ gap.source + gap.right ≤ line.length + 1 := by
  induction records generalizing position with
  | nil => exact fun _ h ↦ absurd h List.not_mem_nil
  | cons m rest ih =>
    obtain ⟨-, hlt, hrest⟩ := hspans
    rw [gaps, if_neg (by omega), List.forall_mem_cons]
    refine ⟨?_, ih hrest⟩
    have hend := hrest.le_length
    cases rest with
    | nil =>
      dsimp only [nextStart]
      omega
    | cons second rest =>
      have hnext := hrest.1
      have hlength := hrest.2.2.le_length
      have hsecond := hrest.2.1
      dsimp only [nextStart]
      omega

/-- The sorted records do not intersect, and every gap has a length and lies in the line. -/
structure GapsOk (dict : Dictionary) (q : Sorter) (line : Bytes) (md : List MatchData) : Prop where
  sorted : sortedMatchData dict q line = some md
  disjoint : (md.filter fun m ↦ m.fullE ≠ 0).Pairwise Disjoint
  inside : ∀ gap ∈ gaps line md, 0 ≤ gap.right ∧ gap.source + gap.right ≤ line.length + 1

/-- The gaps are right exactly when the scans stay in the line and no reference they meet starts
inside one of another form. -/
theorem gapsOk_iff (dict : Dictionary) (q : Sorter) (line : Bytes)
    (hline : line.length < MAX_LINE_LENGTH) :
    (∃ md, GapsOk dict q line md) ↔ ∃ met, MeetsAll line met ∧ NotNested met := by
  constructor
  · rintro ⟨md, hmd, hdisjoint, -⟩
    obtain ⟨met, hmet⟩ := exists_met hmd
    obtain ⟨hits, hrecording, hspans⟩ := hmet.exists_recording hline
    obtain ⟨other, hother, hsorted, -, hlive, hinside⟩ := live_of_recording hrecording dict q
    obtain rfl : other = md := Option.some.inj (hother.symm.trans hmd)
    refine ⟨met, hmet, (spans_iff_notNested hmet hspans (hsorted.filter _) hlive hinside).1 ?_⟩
    apply spans_of_pairwise (Nat.zero_le _) (fun _ _ ↦ Nat.zero_le _) hinside
    exact pairwise_of_disjoint hinside (hsorted.filter _) hdisjoint
  · rintro ⟨met, hmet, hnot⟩
    obtain ⟨hits, hrecording, hspans⟩ := hmet.exists_recording hline
    obtain ⟨md, hmd, hsorted, -, hlive, hinside⟩ := live_of_recording hrecording dict q
    have hlines := (spans_iff_notNested hmet hspans (hsorted.filter _) hlive hinside).2 hnot
    refine ⟨md, hmd, disjoint_of_spans hlines, ?_⟩
    rw [gaps_filter hsorted]
    exact gaps_of_spans hlines

/-- The variables of a line can be replaced under the same condition. -/
theorem exists_doReplaceVariable_iff (dict : Dictionary) (q : Sorter) (line : Bytes)
    (hline : line.length < MAX_LINE_LENGTH) :
    (∃ out, doReplaceVariable dict q line = some out) ↔
      ∃ met, MeetsAll line met ∧ NotNested met := by
  constructor
  · rintro ⟨out, hout⟩
    rw [doReplaceVariable_eq_bind] at hout
    obtain ⟨md, hmd, hout⟩ := Option.bind_eq_some_iff.1 hout
    obtain ⟨newLine, hrebuilt, -⟩ := Option.map_eq_some_iff.1 hout
    obtain ⟨met, hmet⟩ := exists_met hmd
    obtain ⟨hits, hrecording, hspans⟩ := hmet.exists_recording hline
    obtain ⟨other, hother, hsorted, -, hlive, hinside⟩ := live_of_recording hrecording dict q
    obtain rfl : other = md := Option.some.inj (hother.symm.trans hmd)
    rw [rebuild_filter hsorted] at hrebuilt
    refine ⟨met, hmet, (spans_iff_notNested hmet hspans (hsorted.filter _) hlive hinside).1 ?_⟩
    exact spans_of_rebuild_all hinside hrebuilt
  · intro hmet
    obtain ⟨md, hok⟩ := (gapsOk_iff dict q line hline).2 hmet
    have hrebuilt : (rebuild line md []).isSome :=
      (rebuild_isSome_iff line md []).2 fun gap hgap ↦ (hok.inside gap hgap).1
    obtain ⟨newLine, hnewLine⟩ := Option.isSome_iff_exists.1 hrebuilt
    refine ⟨terminate line newLine, ?_⟩
    rw [doReplaceVariable_eq_bind, hok.sorted, Option.bind_some, hnewLine, Option.map_some]

/-- References of three forms. -/
theorem gapsOk_iff_three :
    (∃ md, GapsOk allEmpty insertionSorter (bytes "@A@ $\x7bB\x7d $ENV\x7bC\x7d\n") md) ↔
      ∃ met, MeetsAll (bytes "@A@ $\x7bB\x7d $ENV\x7bC\x7d\n") met ∧ NotNested met :=
  gapsOk_iff allEmpty insertionSorter (bytes "@A@ $\x7bB\x7d $ENV\x7bC\x7d\n") (by decide)

/-- The braces end in front of the reference that they stand in, which starts at 0. -/
theorem nested_not_gapsOk : ¬∃ md, GapsOk .unset insertionSorter (bytes "@A$\x7bB\x7d@\n") md := by
  rintro ⟨md, hmd, -, hinside⟩
  have hgaps : (sortedMatchData .unset insertionSorter (bytes "@A$\x7bB\x7d@\n")).map
      (fun md ↦ (gaps (bytes "@A$\x7bB\x7d@\n") md).map Gap.right) = some [-6, 2] := by
    decide +kernel
  rw [hmd, Option.map_some, Option.some.injEq] at hgaps
  have hright : -6 ∈ (gaps (bytes "@A$\x7bB\x7d@\n") md).map Gap.right := by
    rw [hgaps]
    exact List.mem_cons_self
  obtain ⟨gap, hgap, hvalue⟩ := List.mem_map.1 hright
  have := (hinside gap hgap).1
  omega

end Vodka.Genconfig.Gaps
