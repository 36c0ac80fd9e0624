import Mathlib.Tactic
import Vodka.Genconfig.Replace

/-!
# The rebuild loop

Over records of spans that follow each other in a line, the loop copies what it
should: the text before the first span, the value of each record or its own
text, and the text up to the next span. Whether the text before the first span
is still to be copied is read off the first byte written so far, so the loop is
right only if the first record writes something or ends the line.
-/

namespace Vodka.Genconfig.Rebuild

open Foundation.Qsort Replace

variable {line newLine : Bytes} {m : MatchData} {records rest : List MatchData} {position : ℕ}

/-- Nonempty spans that follow each other from a position on and end in the line. -/
def Spans (line : Bytes) : ℕ → List MatchData → Prop
  | position, [] => position ≤ line.length
  | position, m :: rest => position ≤ m.fullS ∧ m.fullS < m.fullE ∧ Spans line m.fullE rest

/-- What a record writes. -/
def written (m : MatchData) : Bytes := m.value.getD m.full

/-- The line from a position on, with every span replaced. -/
def splice (line : Bytes) : ℕ → List MatchData → Bytes
  | position, [] => line.drop position
  | position, m :: rest => slice line position m.fullS ++ written m ++ splice line m.fullE rest

/-- The first record does not leave the output empty in front of another record. -/
def Started : List MatchData → Prop
  | first :: second :: _ => ¬(first.fullS = 0 ∧ written first = [] ∧ second.fullS = first.fullE)
  | _ => True

/-- Text in front of the first span is output in any case. -/
theorem started_of_pos (h : 0 < m.fullS) : Started (m :: rest) := by
  cases rest with
  | nil => trivial
  | cons second rest => exact fun hstart ↦ h.ne' hstart.1

theorem Spans.le_length (h : Spans line position records) : position ≤ line.length := by
  induction records generalizing position with
  | nil => exact h
  | cons m rest ih =>
    have := ih h.2.2
    have := h.1
    have := h.2.1
    omega

theorem slice_to_end (hposition : position ≤ line.length) :
    slice (line ++ [NUL]) position (line.length + 1) = line.drop position ++ [NUL] := by
  rw [slice, List.drop_append_of_le_length hposition]
  apply List.take_of_length_le
  simp only [List.length_append, List.length_drop, List.length_singleton]
  omega

theorem slice_append {s e : ℕ} (he : e ≤ line.length) (rest : Bytes) :
    slice (line ++ rest) s e = slice line s e := by
  rcases Nat.lt_or_ge e s with hlt | hge
  · rw [slice, slice, Nat.sub_eq_zero_of_le hlt.le, List.take_zero, List.take_zero]
  · rw [slice, slice, List.drop_append_of_le_length (hge.trans he), List.take_append_of_le_length]
    rw [List.length_drop]
    omega

theorem cmp_comparesBy : ComparesBy cmp MatchData.fullE := by
  intro a b
  change (a.fullE : ℤ) - b.fullE ≤ 0 ↔ a.fullE ≤ b.fullE
  omega

/-- No unused record comes behind one in use. -/
theorem filter_eq_self_of_sorted
    (hsorted : (m :: rest).Pairwise fun first second ↦ first.fullE ≤ second.fullE)
    (hused : m.fullE ≠ 0) : ((m :: rest).filter fun m ↦ m.fullE ≠ 0) = m :: rest := by
  rw [List.filter_eq_self]
  intro other hother
  apply decide_eq_true
  rcases List.mem_cons.1 hother with rfl | hother
  · exact hused
  · have := (List.pairwise_cons.1 hsorted).1 other hother
    omega

/-- Unused records are skipped. -/
theorem rebuild_filter (hsorted : records.Pairwise fun first second ↦ first.fullE ≤ second.fullE)
    (newLine : Bytes) : rebuild line records newLine =
      rebuild line (records.filter fun m ↦ m.fullE ≠ 0) newLine := by
  induction records generalizing newLine with
  | nil => rfl
  | cons m rest ih =>
    obtain ⟨hle, hrest⟩ := List.pairwise_cons.1 hsorted
    by_cases hzero : m.fullE = 0
    · rw [rebuild, if_pos hzero, ih hrest, List.filter_cons_of_neg (by simpa using hzero)]
    · rw [filter_eq_self_of_sorted hsorted hzero]

/-- From a record on, once something has been written. -/
theorem rebuild_of_written (hstart : m.fullE ≠ 0) (hspans : Spans line m.fullE rest)
    (hhead : newLine.headD NUL ≠ NUL) :
    rebuild line (m :: rest) newLine =
      some (newLine ++ written m ++ splice line m.fullE rest ++ [NUL]) := by
  induction rest generalizing m newLine with
  | nil =>
    have hend : m.fullE ≤ line.length := hspans
    rw [rebuild, if_neg hstart]
    dsimp only
    rw [if_neg hhead, nextStart, if_neg (by omega), slice_to_end hend, rebuild, splice]
    simp [written]
  | cons second rest ih =>
    have hend := hspans.2.2.le_length
    have hnext : ¬second.fullS < m.fullE := Nat.not_lt.2 hspans.1
    have hlt := hspans.2.1
    rw [rebuild, if_neg hstart]
    dsimp only
    rw [if_neg hhead, nextStart, if_neg hnext, slice_append (by omega) [NUL]]
    cases newLine with
    | nil => exact absurd rfl hhead
    | cons b newLine =>
      rw [ih (by omega) hspans.2.2 (by simpa using hhead), splice]
      simp [written]

theorem headD_ne_nul {text : Bytes} (hne : text ≠ []) (hnul : NUL ∉ text) :
    text.headD NUL ≠ NUL := by
  cases text with
  | nil => exact absurd rfl hne
  | cons b text =>
    rintro rfl
    exact hnul List.mem_cons_self

theorem not_mem_slice {s e : ℕ} (hline : NUL ∉ line) : NUL ∉ slice line s e := fun h ↦
  hline (List.mem_of_mem_drop (List.mem_of_mem_take h))

/-- The whole loop. -/
theorem rebuild_eq_splice (hline : NUL ∉ line) (hwritten : ∀ m ∈ records, NUL ∉ written m)
    (hspans : Spans line 0 records) (hstarted : Started records) (hne : records ≠ []) :
    rebuild line records [] = some (splice line 0 records ++ [NUL]) := by
  cases records with
  | nil => exact absurd rfl hne
  | cons m rest =>
    obtain ⟨-, hlt, hrest⟩ := hspans
    have htake : line.take m.fullS = slice line 0 m.fullS := by simp [slice]
    rw [rebuild, if_neg (by omega)]
    dsimp only
    rw [if_pos (show ([] : Bytes).headD NUL = NUL from rfl), List.nil_append, htake, splice,
      show m.value.getD m.full = written m from rfl]
    cases rest with
    | nil =>
      have hend : m.fullE ≤ line.length := hrest
      rw [nextStart, if_neg (by omega), slice_to_end hend, rebuild, splice]
      simp
    | cons second rest =>
      obtain ⟨hnext, hsecond, hspans⟩ := hrest
      have hend := hspans.le_length
      have hbytes : NUL ∉ slice line 0 m.fullS ++ written m ++ slice line m.fullE second.fullS := by
        simp only [List.mem_append, not_or]
        exact ⟨⟨not_mem_slice hline, hwritten m List.mem_cons_self⟩, not_mem_slice hline⟩
      have hnonempty :
          slice line 0 m.fullS ++ written m ++ slice line m.fullE second.fullS ≠ [] := by
        intro hempty
        simp only [List.append_eq_nil_iff] at hempty
        obtain ⟨⟨hleft, hvalue⟩, hgap⟩ := hempty
        apply hstarted
        have hleft := congrArg List.length hleft
        have hgap := congrArg List.length hgap
        rw [length_slice (by omega), List.length_nil] at hleft hgap
        exact ⟨by omega, hvalue, by omega⟩
      rw [nextStart, if_neg (by omega), slice_append (by omega) [NUL]]
      rw [rebuild_of_written (by omega) hspans (headD_ne_nul hnonempty hbytes), splice]
      simp

theorem cString_of_not_mem {text rest : Bytes} (h : NUL ∉ text) :
    cString (text ++ NUL :: rest) = text := by
  have hall : ∀ b ∈ text, (b != NUL) = true := by
    intro b hb
    simp only [bne_iff_ne]
    rintro rfl
    exact h hb
  rw [cString, List.takeWhile_append_of_pos hall]
  simp

theorem not_mem_splice (hline : NUL ∉ line) (hwritten : ∀ m ∈ records, NUL ∉ written m) :
    NUL ∉ splice line position records := by
  induction records generalizing position with
  | nil => exact fun h ↦ hline (List.mem_of_mem_drop h)
  | cons m rest ih =>
    rw [splice, List.mem_append, List.mem_append, not_or, not_or]
    exact ⟨⟨not_mem_slice hline, hwritten m List.mem_cons_self⟩,
      ih fun m hm ↦ hwritten m (List.mem_cons_of_mem _ hm)⟩

/-- What the line becomes. -/
theorem terminate_rebuild (hline : NUL ∉ line) (hwritten : ∀ m ∈ records, NUL ∉ written m)
    (hspans : Spans line 0 records) (hstarted : Started records) :
    (rebuild line records []).map (terminate line) = some (splice line 0 records) := by
  cases records with
  | nil => simp [rebuild, terminate, splice]
  | cons m rest =>
    rw [rebuild_eq_splice hline hwritten hspans hstarted (by simp), Option.map_some, terminate,
      if_neg (by simp), List.append_assoc, List.singleton_append,
      cString_of_not_mem (not_mem_splice hline hwritten)]

/-- The loop has a result only if every record ends in front of the next one. -/
theorem spans_of_rebuild {out : Bytes}
    (hinside : ∀ record ∈ m :: rest, record.fullS < record.fullE ∧ record.fullE ≤ line.length)
    (h : rebuild line (m :: rest) newLine = some out) : Spans line m.fullE rest := by
  induction rest generalizing m newLine with
  | nil => exact (hinside m List.mem_cons_self).2
  | cons second rest ih =>
    have hfirst := hinside m List.mem_cons_self
    rw [rebuild, if_neg (by omega)] at h
    dsimp only at h
    rw [nextStart] at h
    split_ifs at h with hnext hwritten
    all_goals
      have hrest := fun record hrecord ↦ hinside record (List.mem_cons_of_mem m hrecord)
      exact ⟨Nat.le_of_not_lt hnext, (hrest second List.mem_cons_self).1, ih hrest h⟩

theorem spans_of_rebuild_all {out : Bytes}
    (hinside : ∀ record ∈ records, record.fullS < record.fullE ∧ record.fullE ≤ line.length)
    (h : rebuild line records newLine = some out) : Spans line 0 records := by
  cases records with
  | nil => exact Nat.zero_le _
  | cons m rest =>
    exact ⟨Nat.zero_le _, (hinside m List.mem_cons_self).1, spans_of_rebuild hinside h⟩

/-- Every span is exchanged for what its record writes. -/
theorem length_splice (hspans : Spans line position records) :
    (splice line position records).length + position +
        (records.map fun m ↦ m.fullE - m.fullS).sum =
      line.length + (records.map fun m ↦ (written m).length).sum := by
  induction records generalizing position with
  | nil =>
    have hposition : position ≤ line.length := hspans
    simp only [splice, List.length_drop, List.map_nil, List.sum_nil]
    omega
  | cons m rest ih =>
    have hrest := ih hspans.2.2
    have hend := hspans.2.2.le_length
    obtain ⟨hle, hlt, -⟩ := hspans
    have hgap : (slice line position m.fullS).length = m.fullS - position :=
      length_slice (by omega)
    simp only [splice, List.length_append, List.map_cons, List.sum_cons, hgap]
    omega

theorem slice_append_drop {s e : ℕ} (h : s ≤ e) : slice line s e ++ line.drop e = line.drop s := by
  rw [slice, show line.drop e = (line.drop s).drop (e - s) by
    rw [List.drop_drop, Nat.add_sub_cancel' h], List.take_append_drop]

/-- A line that is kept by records of the lengths of their spans has every text in its place. -/
theorem written_eq_of_splice_eq (hspans : Spans line position records)
    (hlength : ∀ m ∈ records, (written m).length = m.fullE - m.fullS)
    (hkept : splice line position records = line.drop position) :
    ∀ m ∈ records, written m = slice line m.fullS m.fullE := by
  induction records generalizing position with
  | nil => exact fun m hm ↦ absurd hm List.not_mem_nil
  | cons m rest ih =>
    obtain ⟨hle, hlt, hrest⟩ := hspans
    have hend := hrest.le_length
    rw [splice, ← slice_append_drop hle, ← slice_append_drop hlt.le, List.append_assoc,
      List.append_cancel_left_eq] at hkept
    have hsplit := List.append_inj hkept (by
      rw [hlength m List.mem_cons_self, length_slice hend])
    intro record hrecord
    rcases List.mem_cons.1 hrecord with rfl | hrecord
    · exact hsplit.1
    · exact ih hrest (fun m hm ↦ hlength m (List.mem_cons_of_mem _ hm)) hsplit.2 record hrecord

/-- In front of another record, a record that leaves the output empty is skipped. -/
theorem rebuild_of_not_started {second : MatchData} (hused : m.fullE ≠ 0) (hstart : m.fullS = 0)
    (hempty : written m = []) (hnext : second.fullS = m.fullE) :
    rebuild line (m :: second :: rest) [] = rebuild line (second :: rest) [] := by
  rw [rebuild, if_neg hused]
  dsimp only
  rw [if_pos (show ([] : Bytes).headD NUL = NUL from rfl), hstart,
    show m.value.getD m.full = [] from hempty, nextStart, hnext, if_neg (lt_irrefl _), slice,
    Nat.sub_self]
  simp

/-- The text of its span is kept in the line. -/
theorem terminate_rebuild_of_not_started {second : MatchData} (hline : NUL ∉ line)
    (hwritten : ∀ record ∈ m :: second :: rest, NUL ∉ written record)
    (hspans : Spans line 0 (m :: second :: rest)) (hstart : m.fullS = 0) (hempty : written m = [])
    (hnext : second.fullS = m.fullE) :
    (rebuild line (m :: second :: rest) []).map (terminate line) =
      some (splice line 0 (second :: rest)) := by
  obtain ⟨-, hlt, hle, hsecond, hrest⟩ := hspans
  rw [rebuild_of_not_started (by omega) hstart hempty hnext]
  apply terminate_rebuild hline fun record hrecord ↦
    hwritten record (List.mem_cons_of_mem m hrecord)
  · exact ⟨Nat.zero_le _, hsecond, hrest⟩
  · exact started_of_pos (by omega)

/-! ## Rows -/

variable {dict : Dictionary}

/-- `match_data` behind `qsort`, as one array. -/
def sortedMatchData (dict : Dictionary) (q : Sorter) (line : Bytes) : Option (List MatchData) := do
  let rows ← Form.all.mapM fun form ↦ row dict form line
  return q.sort 0 cmp rows.flatten

theorem doReplaceVariable_eq_bind (dict : Dictionary) (q : Sorter) (line : Bytes) :
    doReplaceVariable dict q line = (sortedMatchData dict q line).bind fun md ↦
      (rebuild line md []).map (terminate line) := by
  rw [doReplaceVariable, sortedMatchData]
  cases Form.all.mapM fun form ↦ row dict form line with
  | none => rfl
  | some rows => cases hrebuild : rebuild line (q.sort 0 cmp rows.flatten) [] <;> simp [hrebuild]

/-- All four scans have ended if there is an array to sort. -/
theorem scan_of_sortedMatchData {q : Sorter} {md : List MatchData}
    (h : sortedMatchData dict q line = some md) (form : Form) :
    ∃ records, scan dict form line = .done records := by
  cases hrow : row dict form line with
  | none =>
    rw [sortedMatchData] at h
    obtain ⟨rows, hrows, -⟩ := Option.bind_eq_some_iff.1 h
    cases form <;> simp [Form.all, List.mapM_cons, hrow] at hrows
  | some records =>
    rw [row] at hrow
    cases hscan : scan dict form line with
    | done found => exact ⟨found, rfl⟩
    | pastEnd found | rowFull found | running found =>
      rw [hscan] at hrow
      cases hrow

/-- A substitution that has a result has ended all four scans. -/
theorem scan_of_doReplaceVariable {q : Sorter} {out : Bytes}
    (h : doReplaceVariable dict q line = some out) (form : Form) :
    ∃ records, scan dict form line = .done records := by
  rw [doReplaceVariable_eq_bind] at h
  obtain ⟨md, hmd, -⟩ := Option.bind_eq_some_iff.1 h
  exact scan_of_sortedMatchData hmd form

/-- The array of finished scans: their records, and unused ones. -/
theorem sortedMatchData_eq (q : Sorter) {found : Form → List MatchData}
    (hscan : ∀ form, scan dict form line = .done (found form)) :
    ∃ md, sortedMatchData dict q line = some md ∧
      (md.Pairwise fun first second ↦ first.fullE ≤ second.fullE) ∧
      md.Perm (Form.all.flatMap fun form ↦
        found form ++ List.replicate (MATCHES - (found form).length) MatchData.zero) := by
  have hrow (form : Form) : row dict form line =
      some (found form ++ List.replicate (MATCHES - (found form).length) MatchData.zero) := by
    rw [row, hscan]
  have hrows : (Form.all.mapM fun form ↦ row dict form line) = some (Form.all.map fun form ↦
      found form ++ List.replicate (MATCHES - (found form).length) MatchData.zero) := by
    simp only [Form.all, List.mapM_cons, List.mapM_nil, hrow]
    rfl
  refine ⟨_, by rw [sortedMatchData, hrows]; rfl, ?_, ?_⟩
  · exact q.sorted 0 cmp MatchData.fullE cmp_comparesBy _
  · exact q.perm 0 cmp _

/-- The records in use are those of the scans. -/
theorem filter_sortedMatchData {found : Form → List MatchData} {md : List MatchData}
    (hperm : md.Perm (Form.all.flatMap fun form ↦
      found form ++ List.replicate (MATCHES - (found form).length) MatchData.zero))
    (hused : ∀ form, ∀ m ∈ found form, m.fullE ≠ 0) :
    (md.filter fun m ↦ m.fullE ≠ 0).Perm (Form.all.flatMap found) := by
  have hlive (form : Form) :
      ((found form ++ List.replicate (MATCHES - (found form).length)
        MatchData.zero).filter fun m ↦ m.fullE ≠ 0) = found form := by
    rw [List.filter_append, List.filter_replicate_of_neg (by decide), List.append_nil,
      List.filter_eq_self]
    exact fun m hm ↦ decide_eq_true (hused form m hm)
  have hfilter := hperm.filter fun m ↦ m.fullE ≠ 0
  simpa only [Form.all, List.flatMap_cons, List.flatMap_nil, List.append_nil, List.filter_append,
    hlive] using hfilter

/-- The records of finished scans are rebuilt in the order of their ends. -/
theorem doReplaceVariable_eq (q : Sorter) {found : Form → List MatchData}
    (hscan : ∀ form, scan dict form line = .done (found form))
    (hused : ∀ form, ∀ m ∈ found form, m.fullE ≠ 0) :
    ∃ records, records.Perm (Form.all.flatMap found) ∧
      (records.Pairwise fun first second ↦ first.fullE ≤ second.fullE) ∧
      doReplaceVariable dict q line = (rebuild line records []).map (terminate line) := by
  obtain ⟨md, hmd, hsorted, hperm⟩ := sortedMatchData_eq q hscan
  refine ⟨md.filter fun m ↦ m.fullE ≠ 0, filter_sortedMatchData hperm hused, hsorted.filter _, ?_⟩
  rw [← rebuild_filter hsorted, doReplaceVariable_eq_bind, hmd, Option.bind_some]

end Vodka.Genconfig.Rebuild
