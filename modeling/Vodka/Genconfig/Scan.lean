import Mathlib.Tactic
import Vodka.Genconfig.Replace

/-!
# The scan for references

The scanning loop of one pattern adds the offset of the scan position to the
match before it cuts out the text, and advances by the sum. Both are right for
the first match only. The loop keeps what it promises exactly when every later
match is repeated the scan position's distance further right and no sum leads
behind the line. Scan positions at least double, which bounds the records of a
row by the length of the line.
-/

namespace Vodka.Genconfig.Scan

open Foundation.FlatRegex Replace

variable {dict : Dictionary} {form : Form} {line : Bytes} {tmpLine fuel : ℕ}
  {records out : List MatchData} {found : Match UInt8}

theorem Form.isgraph_closing (form : Form) : isgraph form.closing = true := by
  cases form <;> decide

theorem Form.opening_length_pos (form : Form) : 0 < form.opening.length := by
  cases form <;> decide

/-- A match is a nonempty name between its delimiters, and submatch 1 is the name. -/
theorem variablePat_exec {subject : Bytes} (h : exec (variablePat form) subject = some found) :
    ∃ name, found.words = [form.opening, name, [form.closing]] ∧ name ≠ [] ∧
      (∀ b ∈ name, isgraph b) ∧
      slice subject found.start found.stop = form.opening ++ name ++ [form.closing] ∧
      slice subject (found.so 1) (found.eo 1) = name ∧
      found.so 1 = found.start + form.opening.length ∧
      found.stop = found.start + form.opening.length + name.length + 1 := by
  obtain ⟨name, hwords, hne, hgraph, rest, hrest⟩ := bracketed_fits_iff.1 (exec_fits h).2
  have hlength : found.length = form.opening.length + name.length + 1 := by
    simp [Match.length, hwords, Nat.add_assoc]
  have hso : found.so 1 = found.start + form.opening.length := by simp [Match.so, hwords]
  have heo : found.eo 1 = found.start + form.opening.length + name.length := by
    simp [Match.eo, hwords, Nat.add_assoc]
  refine ⟨name, hwords, hne, hgraph, ?_, ?_, hso, by rw [Match.stop, hlength]; omega⟩
  · rw [slice, Match.stop, Nat.add_sub_cancel_left, exec_slice h, hwords]
    simp
  · rw [slice, hso, heo, Nat.add_sub_cancel_left, ← List.drop_drop, ← hrest]
    simp

/-- The record of a match that the loop finds at a scan position. -/
def recordOf (dict : Dictionary) (line : Bytes) (tmpLine : ℕ) (found : Match UInt8) : MatchData :=
  initMatchData dict ⟨found.start + tmpLine, found.stop + tmpLine⟩ ⟨found.so 1, found.eo 1⟩
    (line.drop tmpLine)

/-- The range and the name are right; the text is taken the scan position's distance behind the
match. -/
theorem recordOf_eq (dict : Dictionary)
    (h : exec (variablePat form) (line.drop tmpLine) = some found) :
    ∃ name, found.words = [form.opening, name, [form.closing]] ∧
      recordOf dict line tmpLine found =
        { fullS := found.start + tmpLine
          fullE := found.stop + tmpLine
          nameS := found.so 1
          nameE := found.eo 1
          full := slice line (tmpLine + (found.start + tmpLine)) (tmpLine + (found.stop + tmpLine))
          name := name
          value := dict.get name } ∧
      slice line (found.start + tmpLine) (found.stop + tmpLine) =
        form.opening ++ name ++ [form.closing] := by
  obtain ⟨name, hwords, -, -, hslice, hname, -, hstop⟩ := variablePat_exec h
  refine ⟨name, hwords, ?_, ?_⟩
  · rw [recordOf, initMatchData, if_neg (by dsimp only; omega)]
    dsimp only
    rw [hname, slice_drop]
    rfl
  · rw [Nat.add_comm found.start, Nat.add_comm found.stop, ← slice_drop]
    exact hslice

theorem stop_le (h : exec (variablePat form) (line.drop tmpLine) = some found)
    (hp : tmpLine ≤ line.length) : found.stop + tmpLine ≤ line.length := by
  have hstop := exec_stop_le h
  rw [List.length_drop] at hstop
  omega

theorem start_lt_stop {subject : Bytes} (h : exec (variablePat form) subject = some found) :
    found.start + 2 ≤ found.stop := by
  obtain ⟨name, -, -, -, -, -, -, hstop⟩ := variablePat_exec h
  have hopening := Form.opening_length_pos form
  omega

theorem scanFrom_found (hp : tmpLine ≤ line.length)
    (h : exec (variablePat form) (line.drop tmpLine) = some found)
    (hroom : records.length ≠ MATCHES) :
    scanFrom dict (variablePat form) line (fuel + 1) tmpLine records =
      scanFrom dict (variablePat form) line fuel (tmpLine + (found.stop + tmpLine))
        (records ++ [recordOf dict line tmpLine found]) := by
  rw [scanFrom, if_neg (Nat.not_lt.2 hp), h]
  dsimp only
  rw [if_neg hroom]
  rfl

theorem scanFrom_none (hp : tmpLine ≤ line.length)
    (h : exec (variablePat form) (line.drop tmpLine) = none) :
    scanFrom dict (variablePat form) line (fuel + 1) tmpLine records = .done records := by
  rw [scanFrom, if_neg (Nat.not_lt.2 hp), h]

/-- What a turn of a loop that ends at the last match has done. -/
theorem scanFrom_done_cases
    (h : scanFrom dict (variablePat form) line (fuel + 1) tmpLine records = .done out) :
    tmpLine ≤ line.length ∧
      ((exec (variablePat form) (line.drop tmpLine) = none ∧ out = records) ∨
        ∃ found, exec (variablePat form) (line.drop tmpLine) = some found ∧
          records.length ≠ MATCHES ∧
          scanFrom dict (variablePat form) line fuel (tmpLine + (found.stop + tmpLine))
            (records ++ [recordOf dict line tmpLine found]) = .done out) := by
  by_cases hp : line.length < tmpLine
  · rw [scanFrom, if_pos hp] at h
    cases h
  refine ⟨Nat.le_of_not_lt hp, ?_⟩
  cases hexec : exec (variablePat form) (line.drop tmpLine) with
  | none =>
    rw [scanFrom_none (Nat.le_of_not_lt hp) hexec] at h
    exact Or.inl ⟨rfl, (Scan.done.inj h).symm⟩
  | some found =>
    by_cases hroom : records.length = MATCHES
    · rw [scanFrom, if_neg hp, hexec] at h
      dsimp only at h
      rw [if_pos hroom] at h
      cases h
    · rw [scanFrom_found (Nat.le_of_not_lt hp) hexec hroom] at h
      exact Or.inr ⟨found, rfl, hroom, h⟩

/-- The loop always ends: every turn but the last advances. -/
theorem scanFrom_ends (hpos : 0 < fuel) (hfuel : line.length + 2 ≤ fuel + tmpLine) :
    scanFrom dict (variablePat form) line fuel tmpLine records ≠ .running out := by
  induction fuel generalizing tmpLine records with
  | zero => exact absurd hpos (lt_irrefl 0)
  | succ fuel ih =>
    by_cases hp : line.length < tmpLine
    · rw [scanFrom, if_pos hp]
      exact Scan.noConfusion
    have hp := Nat.le_of_not_lt hp
    cases hexec : exec (variablePat form) (line.drop tmpLine) with
    | none =>
      rw [scanFrom_none hp hexec]
      exact Scan.noConfusion
    | some found =>
      by_cases hroom : records.length = MATCHES
      · rw [scanFrom, if_neg (Nat.not_lt.2 hp), hexec]
        dsimp only
        rw [if_pos hroom]
        exact Scan.noConfusion
      · rw [scanFrom_found hp hexec hroom]
        have hstop := start_lt_stop hexec
        exact ih (by omega) (by omega)

theorem scan_ends (dict : Dictionary) (form : Form) (line : Bytes) (records : List MatchData) :
    scan dict form line ≠ .running records :=
  scanFrom_ends (Nat.succ_pos _) (by omega)

theorem scanFrom_records_isPrefix
    (h : scanFrom dict (variablePat form) line fuel tmpLine records = .done out) :
    records <+: out := by
  induction fuel generalizing tmpLine records with
  | zero => cases h
  | succ fuel ih =>
    obtain ⟨-, ⟨-, rfl⟩ | ⟨found, -, -, hrest⟩⟩ := scanFrom_done_cases h
    · exact List.prefix_rfl
    · exact (List.prefix_append _ _).trans (ih hrest)

theorem le_length_of_done
    (h : scanFrom dict (variablePat form) line fuel tmpLine records = .done out) :
    tmpLine ≤ line.length := by
  cases fuel with
  | zero => cases h
  | succ fuel => exact (scanFrom_done_cases h).1

/-- A record with the value that a dictionary has for its name. -/
def valued (dict : Dictionary) (m : MatchData) : MatchData := { m with value := dict.get m.name }

theorem recordOf_valued (dict : Dictionary)
    (h : exec (variablePat form) (line.drop tmpLine) = some found) :
    recordOf dict line tmpLine found = valued dict (recordOf .unset line tmpLine found) := by
  have hstop := start_lt_stop h
  have hne : ¬found.stop + tmpLine = 0 := by omega
  rw [recordOf, recordOf, initMatchData, initMatchData, if_neg hne, if_neg hne]
  rfl

/-- The scan depends on the dictionary in the values of the records only. -/
theorem scanFrom_valued (dict : Dictionary)
    (h : scanFrom .unset (variablePat form) line fuel tmpLine records = .done out) :
    scanFrom dict (variablePat form) line fuel tmpLine (records.map (valued dict)) =
      .done (out.map (valued dict)) := by
  induction fuel generalizing tmpLine records with
  | zero => cases h
  | succ fuel ih =>
    obtain ⟨hp, ⟨hnone, rfl⟩ | ⟨found, hfound, hroom, hrest⟩⟩ := scanFrom_done_cases h
    · exact scanFrom_none hp hnone
    · rw [scanFrom_found hp hfound (by rwa [List.length_map]), recordOf_valued dict hfound]
      have hnext := ih hrest
      rw [List.map_append, List.map_singleton] at hnext
      exact hnext

/-! ## What the loop promises -/

/-- The record has the text of its range, and the name is what its delimiters enclose. -/
structure Recorded (form : Form) (line : Bytes) (m : MatchData) : Prop where
  nonempty : m.fullS < m.fullE
  inside : m.fullE ≤ line.length
  full_eq : m.full = slice line m.fullS m.fullE
  delimited : m.full = form.opening ++ m.name ++ [form.closing]

/-- The scan ends inside the line, with correct records of matches that follow each other, and the
row holds them. -/
def ScanOk (dict : Dictionary) (form : Form) (line : Bytes) : Prop :=
  ∃ records, scan dict form line = .done records ∧ (∀ m ∈ records, Recorded form line m) ∧
    (records.Pairwise fun first second ↦ first.fullE ≤ second.fullS) ∧ records.length ≤ MATCHES

/-- From the position on, no match is found; or the first one is repeated the position's distance
further right, the sum of the position and its end is in the line, and so on from there. -/
inductive Steady (form : Form) (line : Bytes) : ℕ → Prop
  | last {position : ℕ} (hnone : exec (variablePat form) (line.drop position) = none) :
      Steady form line position
  | next {position : ℕ} {found : Match UInt8}
      (hfound : exec (variablePat form) (line.drop position) = some found)
      (hinside : position + (found.stop + position) ≤ line.length)
      (hrepeated : slice line (position + (found.start + position))
          (position + (found.stop + position)) =
        slice line (found.start + position) (found.stop + position))
      (hrest : Steady form line (position + (found.stop + position))) :
      Steady form line position

/-- What holds of the records at a scan position. -/
structure Scanned (form : Form) (line : Bytes) (tmpLine : ℕ) (records : List MatchData) : Prop where
  inside : tmpLine ≤ line.length
  recorded : ∀ m ∈ records, Recorded form line m
  ordered : records.Pairwise fun first second ↦ first.fullE ≤ second.fullS
  behind : ∀ m ∈ records, m.fullE ≤ tmpLine
  doubled : 2 ^ records.length ≤ tmpLine + 1

namespace Scanned

theorem start (form : Form) (line : Bytes) : Scanned form line 0 [] where
  inside := Nat.zero_le _
  recorded _ hm := absurd hm List.not_mem_nil
  ordered := List.Pairwise.nil
  behind _ hm := absurd hm List.not_mem_nil
  doubled := le_rfl

/-- A short line leaves room in the row. -/
theorem length_lt (h : Scanned form line tmpLine records)
    (hline : line.length < MAX_LINE_LENGTH) : records.length < MATCHES := by
  have hpow : 2 ^ records.length < 2 ^ MATCHES := by
    calc 2 ^ records.length ≤ tmpLine + 1 := h.doubled
      _ ≤ MAX_LINE_LENGTH := by have := h.inside; omega
      _ < 2 ^ MATCHES := by decide
  exact (Nat.pow_lt_pow_iff_right Nat.one_lt_two).1 hpow

/-- One turn of the loop at a repeated match. -/
theorem next (h : Scanned form line tmpLine records)
    (hfound : exec (variablePat form) (line.drop tmpLine) = some found)
    (hinside : tmpLine + (found.stop + tmpLine) ≤ line.length)
    (hrepeated : slice line (tmpLine + (found.start + tmpLine))
        (tmpLine + (found.stop + tmpLine)) =
      slice line (found.start + tmpLine) (found.stop + tmpLine)) :
    Scanned form line (tmpLine + (found.stop + tmpLine))
      (records ++ [recordOf dict line tmpLine found]) := by
  obtain ⟨name, -, hrecord, hdelimited⟩ := recordOf_eq dict hfound
  have hstop := start_lt_stop hfound
  have hnew : Recorded form line (recordOf dict line tmpLine found) := by
    rw [hrecord]
    exact {
      nonempty := by dsimp only; omega
      inside := by dsimp only; omega
      full_eq := hrepeated
      delimited := hrepeated.trans hdelimited }
  refine ⟨hinside, ?_, ?_, ?_, ?_⟩
  · intro m hm
    rcases List.mem_append.1 hm with hm | hm
    · exact h.recorded m hm
    · rw [List.mem_singleton.1 hm]
      exact hnew
  · rw [List.pairwise_append]
    refine ⟨h.ordered, List.pairwise_singleton _ _, fun m hm last hlast ↦ ?_⟩
    rw [List.mem_singleton.1 hlast, hrecord]
    dsimp only
    have := h.behind m hm
    omega
  · intro m hm
    rcases List.mem_append.1 hm with hm | hm
    · have := h.behind m hm
      omega
    · rw [List.mem_singleton.1 hm, hrecord]
      dsimp only
      omega
  · rw [List.length_append, List.length_singleton, Nat.pow_succ]
    have := h.doubled
    omega

end Scanned

/-- The whole loop on a line whose later matches are repeated. -/
theorem Steady.scanFrom (hsteady : Steady form line tmpLine)
    (hline : line.length < MAX_LINE_LENGTH) (h : Scanned form line tmpLine records)
    (hpos : 0 < fuel) (hfuel : line.length + 2 ≤ fuel + tmpLine) :
    ∃ out position, Replace.scanFrom dict (variablePat form) line fuel tmpLine records =
      .done out ∧ Scanned form line position out := by
  induction hsteady generalizing fuel records with
  | @last position hnone =>
    cases fuel with
    | zero => exact absurd hpos (lt_irrefl 0)
    | succ fuel => exact ⟨records, position, scanFrom_none h.inside hnone, h⟩
  | @next position found hfound hinside hrepeated hrest ih =>
    cases fuel with
    | zero => exact absurd hpos (lt_irrefl 0)
    | succ fuel =>
      have hstop := start_lt_stop hfound
      rw [scanFrom_found h.inside hfound (h.length_lt hline).ne]
      exact ih (h.next hfound hinside hrepeated) (by omega) (by omega)

theorem steady_of_done
    (h : Replace.scanFrom dict (variablePat form) line fuel tmpLine records = .done out)
    (hrecorded : ∀ m ∈ out, Recorded form line m) : Steady form line tmpLine := by
  induction fuel generalizing tmpLine records with
  | zero => cases h
  | succ fuel ih =>
    obtain ⟨-, ⟨hnone, -⟩ | ⟨found, hfound, -, hrest⟩⟩ := scanFrom_done_cases h
    · exact Steady.last hnone
    · have hsteady := ih hrest
      have hinside := le_length_of_done hrest
      have hmem : recordOf dict line tmpLine found ∈ out :=
        (scanFrom_records_isPrefix hrest).subset (by simp)
      have hfull := (hrecorded _ hmem).full_eq
      obtain ⟨name, -, hrecord, -⟩ := recordOf_eq dict hfound
      rw [hrecord] at hfull
      exact Steady.next hfound hinside hfull hsteady

/-- The scan keeps its promise exactly when the later matches are repeated and no position leads
behind the line. -/
theorem scanOk_iff (dict : Dictionary) (form : Form) (line : Bytes)
    (hline : line.length < MAX_LINE_LENGTH) : ScanOk dict form line ↔ Steady form line 0 := by
  constructor
  · rintro ⟨records, hdone, hrecorded, -, -⟩
    exact steady_of_done hdone hrecorded
  · intro hsteady
    have hfuel : line.length + 2 ≤ line.length + 2 + 0 := le_rfl
    obtain ⟨records, position, hdone, hscanned⟩ :=
      hsteady.scanFrom hline (Scanned.start form line) (Nat.succ_pos _) hfuel
    exact ⟨records, hdone, hscanned.recorded, hscanned.ordered, (hscanned.length_lt hline).le⟩

/-- The second reference is repeated where its text is looked for, and jumped over there. -/
theorem scanOk_iff_repeated :
    ScanOk .unset .at (bytes "@AAAA@ @B@   @B@\n") ↔ Steady .at (bytes "@AAAA@ @B@   @B@\n") 0 :=
  scanOk_iff .unset .at (bytes "@AAAA@ @B@   @B@\n") (by decide)

/-- Behind the second of two references the scan position leads out of the line. -/
theorem not_scanOk_two : ¬ScanOk .unset .at (bytes "@A@ @B@\n") := by
  rintro ⟨records, hdone, -⟩
  have hscan : scan .unset .at (bytes "@A@ @B@\n") = .pastEnd
      [{ fullE := 3, nameS := 1, nameE := 2, full := bytes "@A@", name := bytes "A" },
        { fullS := 4, fullE := 7, nameS := 2, nameE := 3, full := bytes "\n",
          name := bytes "B" }] := by
    decide
  rw [hscan] at hdone
  cases hdone

end Vodka.Genconfig.Scan
