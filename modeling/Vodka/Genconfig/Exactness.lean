import Mathlib.Tactic
import Vodka.Genconfig.Substitution

/-!
# Templates that are substituted for every dictionary

The conditions of a benign template are not only enough. If the substitution of
a template is right for every dictionary, values of different lengths tell how
often each name is recorded: as often as it is referenced. So every reference
is met where it stands, and nothing else; texts are in their places because the
line is kept when nothing is defined, and the first two references do not touch
at the start of the line because both may be empty.
-/

namespace Vodka.Genconfig.Exactness

open Foundation.FlatRegex Foundation.Qsort Replace Scan Rebuild Template Substitution

variable {form : Form} {line : Bytes} {tmpLine fuel : ℕ} {records out : List MatchData}
  {found : Match UInt8} {template : List Piece}

/-- What holds of every record of a finished scan. -/
structure Hit (form : Form) (line : Bytes) (m : MatchData) : Prop where
  inside : m.fullS < m.fullE ∧ m.fullE ≤ line.length
  length : m.full.length = m.fullE - m.fullS
  copied : ∃ s e, m.full = slice line s e
  text : slice line m.fullS m.fullE = reference form m.name

theorem hit_recordOf (hp : tmpLine ≤ line.length)
    (hfound : exec (variablePat form) (line.drop tmpLine) = some found)
    (hnext : tmpLine + (found.stop + tmpLine) ≤ line.length) :
    Hit form line (recordOf .unset line tmpLine found) := by
  obtain ⟨name, -, hrecord, hslice⟩ := recordOf_eq .unset hfound
  have hstop := start_lt_stop hfound
  rw [hrecord]
  exact {
    inside := ⟨by dsimp only; omega, stop_le hfound hp⟩
    length := by
      rw [length_slice hnext]
      dsimp only
      omega
    copied := ⟨_, _, rfl⟩
    text := hslice }

theorem hit_of_done (h : scanFrom .unset (variablePat form) line fuel tmpLine records = .done out)
    (hrecords : ∀ m ∈ records, Hit form line m) : ∀ m ∈ out, Hit form line m := by
  induction fuel generalizing tmpLine records with
  | zero => cases h
  | succ fuel ih =>
    obtain ⟨hp, ⟨-, rfl⟩ | ⟨found, hfound, -, hrest⟩⟩ := scanFrom_done_cases h
    · exact hrecords
    · apply ih hrest
      intro m hm
      rcases List.mem_append.1 hm with hm | hm
      · exact hrecords m hm
      · rw [List.mem_singleton.1 hm]
        exact hit_recordOf hp hfound (le_length_of_done hrest)

theorem countP_add_one_le {α : Type*} {p q : α → Prop} [DecidablePred p] [DecidablePred q]
    {items : List α} {a : α} (himp : ∀ item ∈ items, q item → p item) (ha : a ∈ items) (hp : p a)
    (hq : ¬q a) : (items.countP fun item ↦ q item) + 1 ≤ items.countP fun item ↦ p item := by
  obtain ⟨before, after, rfl⟩ := List.append_of_mem ha
  have hbefore : (before.countP fun item ↦ q item) ≤ before.countP fun item ↦ p item :=
    List.countP_mono_left fun item hitem h ↦ by
      simpa using himp item (by simp [hitem]) (by simpa using h)
  have hafter : (after.countP fun item ↦ q item) ≤ after.countP fun item ↦ p item :=
    List.countP_mono_left fun item hitem h ↦ by
      simpa using himp item (by simp [hitem]) (by simpa using h)
  simp only [List.countP_append, List.countP_cons, hp, hq, decide_true, decide_false, if_true,
    Bool.false_eq_true, if_false]
  omega

/-- The references of a form at or behind a position. -/
def Ahead (form : Form) (position : ℕ) (ref : Ref) : Prop := ref.form = form ∧ position ≤ ref.start

instance (form : Form) (position : ℕ) : DecidablePred (Ahead form position) := fun _ ↦
  instDecidableAnd

/-- The text of a recorded reference in the line. -/
theorem Hit.reference_isPrefix {m : MatchData} (h : Hit form line m) :
    reference form m.name <+: line.drop m.fullS := by
  rw [← h.text]
  exact List.take_prefix _ _

theorem Hit.length_reference {m : MatchData} (h : Hit form line m) :
    (reference form m.name).length = m.fullE - m.fullS := by
  rw [← h.text, length_slice h.inside.2]

/-- A scan that records words passes a reference with every record. -/
theorem length_le_of_done (hwell : WellFormed template)
    (hwords : ∀ m ∈ out, ∀ b ∈ m.name, isword b)
    (h : scanFrom .unset (variablePat form) (render template) fuel tmpLine records = .done out) :
    out.length ≤ records.length + (refs template).countP fun ref ↦ Ahead form tmpLine ref := by
  induction fuel generalizing tmpLine records with
  | zero => cases h
  | succ fuel ih =>
    obtain ⟨hp, ⟨-, rfl⟩ | ⟨found, hfound, -, hrest⟩⟩ := scanFrom_done_cases h
    · exact Nat.le_add_right _ _
    · have hle := ih hrest
      have hmem : recordOf .unset (render template) tmpLine found ∈ out :=
        (scanFrom_records_isPrefix hrest).subset (by simp)
      have hhit := hit_recordOf hp hfound (le_length_of_done hrest)
      obtain ⟨name, -, hrecord, -⟩ := recordOf_eq .unset hfound
      have hfullS : (recordOf .unset (render template) tmpLine found).fullS =
          found.start + tmpLine := by rw [hrecord]
      have hfullE : (recordOf .unset (render template) tmpLine found).fullE =
          found.stop + tmpLine := by rw [hrecord]
      have hlength := hhit.length_reference
      have hpassed : ∃ ref ∈ refs template, Ahead form tmpLine ref ∧
          ¬Ahead form (tmpLine + (found.stop + tmpLine)) ref := by
        have hstop := start_lt_stop hfound
        rcases ref_or_between hwell (hwords _ hmem) hhit.reference_isPrefix with
          ⟨ref, href, hform, hstart⟩ | ⟨-, -, next, hnext, -, hform, -, -, hlt, hnextStart⟩
        · refine ⟨ref, href, ⟨hform, by omega⟩, fun hahead ↦ ?_⟩
          have := hahead.2
          omega
        · refine ⟨next, hnext, ⟨hform, by omega⟩, fun hahead ↦ ?_⟩
          have := hahead.2
          omega
      obtain ⟨ref, href, hahead, hnot⟩ := hpassed
      have hcount := countP_add_one_le (fun ref _ ⟨hform, hle⟩ ↦ ⟨hform, by omega⟩) href hahead hnot
      rw [List.length_append, List.length_singleton] at hle
      omega

/-- What is found in front of the next reference is that reference, if a word is recorded. -/
theorem exec_eq_of_next (hwell : WellFormed template) {before rest : List Ref} {ref : Ref}
    (hsplit : refs template = before ++ ref :: rest)
    (hbefore : ∀ other ∈ before, other.form = ref.form → other.stop ≤ tmpLine)
    (hahead : tmpLine ≤ ref.start)
    (hfound : exec (variablePat ref.form) ((render template).drop tmpLine) = some found)
    (hword : ∀ name, found.words = [ref.form.opening, name, [ref.form.closing]] →
      ∀ b ∈ name, isword b) :
    found = ⟨ref.start - tmpLine, [ref.form.opening, ref.name, [ref.form.closing]]⟩ := by
  have href : ref ∈ refs template := by simp [hsplit]
  have hordered := refsFrom_pairwise 0 template
  rw [← refs, hsplit, List.pairwise_append, List.pairwise_cons] at hordered
  have hrest := hordered.2.1.1
  have hlt := ref.start_lt_stop
  have hrefName := name_of_mem hwell href
  have htext := text_isPrefix href
  rw [Nat.sub_zero] at htext
  obtain ⟨name, hwords, -, -, hslice, -, -, hstop⟩ := variablePat_exec hfound
  have hname := hword name hwords
  have hplace : reference ref.form name <+: (render template).drop (tmpLine + found.start) := by
    rw [← List.drop_drop, reference, ← hslice]
    exact List.take_prefix _ _
  have hle : tmpLine + found.start ≤ ref.start := by
    by_contra hgt
    rw [exec, if_neg (by exact Bool.false_ne_true), search_eq_some_iff] at hfound
    have hnone := hfound.2.2 (ref.start - tmpLine) (by omega)
    rw [List.drop_drop, Nat.add_sub_cancel' hahead] at hnone
    apply matchAt_eq_none_iff.1 hnone [ref.form.opening, ref.name, [ref.form.closing]]
    exact bracketed_fits_iff.2
      ⟨ref.name, rfl, hrefName.1, fun b hb ↦ isgraph_of_isword (hrefName.2 b hb), htext⟩
  have hge : ref.start ≤ tmpLine + found.start := by
    rcases ref_or_between hwell hname hplace with
      ⟨other, hother, hform, hstart⟩ | ⟨other, hother, -, -, hform, -, hstart, hinside, -⟩
    all_goals
      rw [← refs, hsplit, List.mem_append, List.mem_cons] at hother
      have hotherLt := other.start_lt_stop
      rcases hother with hother | rfl | hother
      · have := hbefore other hother hform
        omega
      · omega
      · have := hrest other hother
        omega
  have hstart : tmpLine + found.start = ref.start := Nat.le_antisymm hle hge
  rw [hstart] at hplace
  have hclosed : name = ref.name := by
    obtain ⟨after, hafter⟩ := htext
    rw [← hafter, Ref.text, reference, reference, List.append_assoc, List.append_assoc,
      List.append_assoc, List.prefix_append_right_inj, ← List.append_assoc] at hplace
    exact eq_of_closed (closing_not_mem ref.form hname) (closing_not_mem ref.form hrefName.2)
      hplace (List.prefix_append _ _)
  rcases found with ⟨start, words⟩
  dsimp only at hwords hstart
  rw [hwords, hclosed, ← hstart, Nat.add_sub_cancel_left]

/-- All references of a form in the list are met, each by itself. -/
structure AllMet (template : List Piece) (form : Form) (position : ℕ) (list : List Ref) : Prop where
  inside : ∀ visit ∈ visits form position list,
    visit.position + visit.ref.stop ≤ (render template).length
  met : ∀ ref ∈ list, ref.form = form → ref ∈ (visits form position list).map Visit.ref
  matched : ∀ ref ∈ list, ref.form = form →
    matchAt (variablePat form) ((render template).drop ref.start) =
      some [form.opening, ref.name, [form.closing]]

theorem visits_met {list : List Ref} {ref : Ref} (h : tmpLine ≤ ref.start) :
    visits ref.form tmpLine (ref :: list) =
      ⟨tmpLine, ref⟩ :: visits ref.form (tmpLine + ref.stop) list := by
  rw [visits, if_pos ⟨rfl, h⟩]

theorem visits_other {list : List Ref} {ref : Ref} (hform : ref.form ≠ form) :
    visits form tmpLine (ref :: list) = visits form tmpLine list := by
  rw [visits, if_neg fun hmet ↦ hform hmet.1]

theorem AllMet.cons_met {list : List Ref} {ref : Ref} (hstart : tmpLine ≤ ref.start)
    (hinside : tmpLine + ref.stop ≤ (render template).length)
    (hmatched : matchAt (variablePat ref.form) ((render template).drop ref.start) =
      some [ref.form.opening, ref.name, [ref.form.closing]])
    (h : AllMet template ref.form (tmpLine + ref.stop) list) :
    AllMet template ref.form tmpLine (ref :: list) := by
  constructor
  · rw [visits_met hstart]
    intro visit hvisit
    rcases List.mem_cons.1 hvisit with rfl | hvisit
    · exact hinside
    · exact h.inside visit hvisit
  · rw [visits_met hstart]
    intro other hother hform
    rcases List.mem_cons.1 hother with rfl | hother
    · exact List.mem_cons_self
    · exact List.mem_cons_of_mem _ (h.met other hother hform)
  · intro other hother hform
    rcases List.mem_cons.1 hother with rfl | hother
    · exact hmatched
    · exact h.matched other hother hform

theorem AllMet.cons_other {list : List Ref} {ref : Ref} (hother : ref.form ≠ form)
    (h : AllMet template form tmpLine list) : AllMet template form tmpLine (ref :: list) := by
  have hmem (item : Ref) (hitem : item ∈ ref :: list) (hform : item.form = form) :
      item ∈ list := by
    apply List.mem_of_ne_of_mem _ hitem
    rintro rfl
    exact hother hform
  constructor
  · rw [visits_other hother]
    exact h.inside
  · rw [visits_other hother]
    exact fun item hitem hform ↦ h.met item (hmem item hitem hform) hform
  · exact fun item hitem hform ↦ h.matched item (hmem item hitem hform) hform

/-- A scan that is to record as many words as there are references left has passed none of
them. -/
theorem le_start_of_done (hwell : WellFormed template)
    (hwords : ∀ m ∈ out, ∀ b ∈ m.name, isword b) {before list : List Ref}
    (hsplit : refs template = before ++ list)
    (hbefore : ∀ ref ∈ before, ref.form = form → ref.stop ≤ tmpLine)
    (hcount : out.length = records.length + list.countP fun ref ↦ ref.form = form)
    (h : scanFrom .unset (variablePat form) (render template) fuel tmpLine records = .done out) :
    ∀ ref ∈ list, ref.form = form → tmpLine ≤ ref.start := by
  intro ref href hform
  by_contra hle
  have hpassed : (before.countP fun ref ↦ Ahead form tmpLine ref) = 0 := by
    rw [List.countP_eq_zero]
    intro other hother hahead
    obtain ⟨hotherForm, hotherStart⟩ := of_decide_eq_true hahead
    have hlt := other.start_lt_stop
    have := hbefore other hother hotherForm
    omega
  have hfewer := countP_add_one_le (fun item _ hahead ↦ hahead.1) href hform
    fun hahead : Ahead form tmpLine ref ↦ hle hahead.2
  have hleft := length_le_of_done hwell hwords h
  rw [hsplit, List.countP_append, hpassed] at hleft
  omega

/-- What a scan that records words and is not at its end does at the next reference. -/
theorem next_of_done (hwell : WellFormed template)
    (hwords : ∀ m ∈ out, ∀ b ∈ m.name, isword b) {before rest : List Ref} {ref : Ref}
    (hsplit : refs template = before ++ ref :: rest)
    (hbefore : ∀ other ∈ before, other.form = ref.form → other.stop ≤ tmpLine)
    (hstart : tmpLine ≤ ref.start) (hmore : out ≠ records)
    (h : scanFrom .unset (variablePat ref.form) (render template) (fuel + 1) tmpLine records =
      .done out) :
    matchAt (variablePat ref.form) ((render template).drop ref.start) =
        some [ref.form.opening, ref.name, [ref.form.closing]] ∧
      scanFrom .unset (variablePat ref.form) (render template) fuel (tmpLine + ref.stop)
        (records ++ [recordFor .unset (render template) ⟨tmpLine, ref⟩]) = .done out := by
  obtain ⟨-, ⟨-, hend⟩ | ⟨found, hfound, -, hrest⟩⟩ := scanFrom_done_cases h
  · exact absurd hend hmore
  have hmem : recordOf .unset (render template) tmpLine found ∈ out :=
    (scanFrom_records_isPrefix hrest).subset (by simp)
  obtain ⟨name, hfoundWords, hrecord, -⟩ := recordOf_eq .unset hfound
  have hword : ∀ b ∈ name, isword b := by
    have hname := hwords _ hmem
    rwa [hrecord] at hname
  have hnext := exec_eq_of_next hwell hsplit hbefore hstart hfound (by
    intro other hother
    rw [hfoundWords] at hother
    have hname : name = other := by simpa using hother
    exact hname ▸ hword)
  have href : ref ∈ refs template := by simp [hsplit]
  rw [hnext] at hfound
  rw [hnext, stop_found hstart, recordOf_visit href hstart hfound] at hrest
  rw [exec, if_neg (by exact Bool.false_ne_true), search_eq_some_iff] at hfound
  have hmatch := hfound.2.1
  rw [List.drop_drop, Nat.add_sub_cancel' hstart] at hmatch
  exact ⟨hmatch, hrest⟩

/-- A scan that records as many words as there are references meets them all. -/
theorem allMet_of_done (hwell : WellFormed template)
    (hwords : ∀ m ∈ out, ∀ b ∈ m.name, isword b) {before list : List Ref}
    (hsplit : refs template = before ++ list)
    (hbefore : ∀ ref ∈ before, ref.form = form → ref.stop ≤ tmpLine)
    (hcount : out.length = records.length + list.countP fun ref ↦ ref.form = form)
    (h : scanFrom .unset (variablePat form) (render template) fuel tmpLine records = .done out) :
    out = records ++ (visits form tmpLine list).map (recordFor .unset (render template)) ∧
      AllMet template form tmpLine list := by
  induction list generalizing tmpLine records fuel before with
  | nil =>
    have hout : records = out :=
      (scanFrom_records_isPrefix h).eq_of_length (by simpa using hcount.symm)
    refine ⟨by simp [visits, hout], ?_, ?_, ?_⟩ <;> simp [visits]
  | cons ref rest ih =>
    have hsplitRest : refs template = (before ++ [ref]) ++ rest := by simp [hsplit]
    by_cases hform : ref.form = form
    · subst hform
      cases fuel with
      | zero => cases h
      | succ fuel =>
        have hstart := le_start_of_done hwell hwords hsplit hbefore hcount h ref
          List.mem_cons_self rfl
        rw [List.countP_cons_of_pos (by simp)] at hcount
        have hmore : out ≠ records := by
          rintro rfl
          omega
        obtain ⟨hmatched, hrest⟩ := next_of_done hwell hwords hsplit hbefore hstart hmore h
        have hbeforeNext : ∀ other ∈ before ++ [ref], other.form = ref.form →
            other.stop ≤ tmpLine + ref.stop := by
          intro other hother hotherForm
          rcases List.mem_append.1 hother with hother | hother
          · exact (hbefore other hother hotherForm).trans (Nat.le_add_right _ _)
          · rw [List.mem_singleton.1 hother]
            exact Nat.le_add_left _ _
        obtain ⟨hout, hall⟩ := ih hsplitRest hbeforeNext
          (by rw [List.length_append, List.length_singleton]; omega) hrest
        refine ⟨?_, hall.cons_met hstart (le_length_of_done hrest) hmatched⟩
        rw [hout, visits_met hstart, List.map_cons, List.append_assoc]
        rfl
    · have hbeforeRest : ∀ other ∈ before ++ [ref], other.form = form → other.stop ≤ tmpLine := by
        intro other hother hotherForm
        rcases List.mem_append.1 hother with hother | hother
        · exact hbefore other hother hotherForm
        · rw [List.mem_singleton.1 hother] at hotherForm
          exact absurd hotherForm hform
      rw [List.countP_cons_of_neg (by simpa using hform)] at hcount
      obtain ⟨hout, hall⟩ := ih hsplitRest hbeforeRest hcount h
      exact ⟨by rw [visits_other hform, hout], hall.cons_other hform⟩

/-! ## Values of different lengths -/

theorem length_expected (dict : Dictionary) (template : List Piece) (offset : ℕ) :
    (expected dict template).length +
        ((refsFrom offset template).map fun ref ↦ ref.text.length).sum =
      (render template).length +
        ((refsFrom offset template).map fun ref ↦
          ((dict.get ref.name).getD ref.text).length).sum := by
  induction template generalizing offset with
  | nil => rfl
  | cons piece rest ih =>
    rw [expected_cons, render_cons, List.length_append, List.length_append]
    cases piece with
    | text content =>
      have hrest := ih (offset + content.length)
      simp only [refsFrom, Piece.expected, Piece.render]
      omega
    | ref form name =>
      have hrest := ih (offset + (reference form name).length)
      have htext : Ref.text ⟨form, name, offset⟩ = reference form name := rfl
      simp only [refsFrom, Piece.expected, Piece.render, List.map_cons, List.sum_cons, htext]
      omega

/-- The records of the scans of a line in which no variable is defined. -/
structure Recording (line : Bytes) (found : Form → List MatchData) : Prop where
  scan : ∀ form, Replace.scan .unset form line = .done (found form)
  hit : ∀ form, ∀ m ∈ found form, Hit form line m

theorem exists_recording {q : Sorter} {result : Bytes}
    (h : doReplaceVariable .unset q line = some result) : ∃ found, Recording line found := by
  choose found hscan using scan_of_doReplaceVariable h
  exact ⟨found, hscan, fun form ↦ hit_of_done (hscan form) fun _ hm ↦ absurd hm List.not_mem_nil⟩

variable {hits : Form → List MatchData} {dict : Dictionary} {q : Sorter}

/-- Whatever the dictionary, the line is rebuilt from these records, if they do not intersect. -/
theorem Recording.rebuild_eq (h : Recording line hits) (dict : Dictionary) (q : Sorter)
    {result : Bytes} (hresult : doReplaceVariable dict q line = some result) :
    ∃ live, live.Perm ((Form.all.flatMap hits).map (valued dict)) ∧ Spans line 0 live ∧
      (rebuild line live []).map (terminate line) = some result := by
  have hscan (form : Form) :
      Replace.scan dict form line = .done ((hits form).map (valued dict)) :=
    scanFrom_valued dict (h.scan form)
  obtain ⟨live, hperm, -, heq⟩ := doReplaceVariable_eq q hscan (by
    intro form m hm
    obtain ⟨base, hbase, rfl⟩ := List.mem_map.1 hm
    have := (h.hit form base hbase).inside
    simp only [valued]
    omega)
  rw [← List.map_flatMap] at hperm
  rw [heq] at hresult
  refine ⟨live, hperm, ?_, hresult⟩
  have hinside (m : MatchData) (hm : m ∈ live) : m.fullS < m.fullE ∧ m.fullE ≤ line.length := by
    obtain ⟨base, hbase, rfl⟩ := List.mem_map.1 (hperm.mem_iff.1 hm)
    obtain ⟨form, -, hbase⟩ := List.mem_flatMap.1 hbase
    exact (h.hit form base hbase).inside
  obtain ⟨out, hout, -⟩ := Option.map_eq_some_iff.1 hresult
  exact spans_of_rebuild_all hinside hout

/-- The substitution yields the expected line. -/
def Substituted (dict : Dictionary) (q : Sorter) (template : List Piece) : Prop :=
  doReplaceVariable dict q (render template) = some (expected dict template)

theorem Recording.nul_not_mem_written (h : Recording line hits) (hline : NUL ∉ line) {m : MatchData}
    (hm : m ∈ Form.all.flatMap hits) : NUL ∉ written (valued dict m) := by
  obtain ⟨form, -, hm⟩ := List.mem_flatMap.1 hm
  obtain ⟨s, e, hcopied⟩ := (h.hit form m hm).copied
  rw [written, valued]
  cases hvalue : dict.get m.name with
  | some value => exact dict.nulFree _ _ hvalue
  | none =>
    rw [Option.getD_none, hcopied]
    exact not_mem_slice hline

theorem Recording.written_ne_nil (h : Recording line hits) (hdict : ∀ name, dict.get name ≠ some [])
    {m : MatchData} (hm : m ∈ Form.all.flatMap hits) : written (valued dict m) ≠ [] := by
  obtain ⟨form, -, hm⟩ := List.mem_flatMap.1 hm
  have hinside := (h.hit form m hm).inside
  have hlength := (h.hit form m hm).length
  rw [written, valued]
  cases hvalue : dict.get m.name with
  | some value =>
    rintro rfl
    exact hdict _ hvalue
  | none =>
    intro hempty
    rw [show m.full = [] from hempty, List.length_nil] at hlength
    omega

/-- Without empty values the rebuilt line is spliced. -/
theorem Recording.splice_eq (h : Recording (render template) hits) (hwell : WellFormed template)
    (hdict : ∀ name, dict.get name ≠ some []) (hsubstituted : Substituted dict q template) :
    ∃ live, live.Perm ((Form.all.flatMap hits).map (valued dict)) ∧
      Spans (render template) 0 live ∧
        splice (render template) 0 live = expected dict template := by
  have hline := nul_not_mem_render hwell
  obtain ⟨live, hperm, hspans, hresult⟩ := h.rebuild_eq dict q hsubstituted
  have hbase (m : MatchData) (hm : m ∈ live) :
      ∃ base ∈ Form.all.flatMap hits, valued dict base = m :=
    List.mem_map.1 (hperm.mem_iff.1 hm)
  have hwritten : ∀ m ∈ live, NUL ∉ written m := by
    intro m hm
    obtain ⟨base, hbase, rfl⟩ := hbase m hm
    exact h.nul_not_mem_written hline hbase
  have hstarted : Started live := by
    rcases hlive : live with _ | ⟨first, _ | ⟨second, rest⟩⟩
    · trivial
    · trivial
    · obtain ⟨base, hbase, rfl⟩ := hbase first (by simp [hlive])
      exact fun hempty ↦ h.written_ne_nil hdict hbase hempty.2.1
  rw [terminate_rebuild hline hwritten hspans hstarted] at hresult
  exact ⟨live, hperm, hspans, Option.some.inj hresult⟩

/-- What the values add to the line is the same over the references and over the records. -/
theorem Recording.balance (h : Recording (render template) hits) (hwell : WellFormed template)
    (hdict : ∀ name, dict.get name ≠ some []) (hsubstituted : Substituted dict q template) :
    ((refs template).map fun ref ↦ ((dict.get ref.name).getD ref.text).length).sum +
        ((Form.all.flatMap hits).map fun m ↦ m.fullE - m.fullS).sum =
      ((refs template).map fun ref ↦ ref.text.length).sum +
        ((Form.all.flatMap hits).map fun m ↦ ((dict.get m.name).getD m.full).length).sum := by
  obtain ⟨live, hperm, hspans, hsplice⟩ := h.splice_eq hwell hdict hsubstituted
  have hexpected := length_expected dict template 0
  have hlength := length_splice hspans
  have hwidths := (hperm.map fun m ↦ m.fullE - m.fullS).sum_eq
  have hvalues := (hperm.map fun m ↦ (written m).length).sum_eq
  rw [List.map_map] at hwidths hvalues
  rw [hsplice, hwidths, hvalues] at hlength
  rw [← refs] at hexpected
  simp only [Function.comp_def, written, valued] at hlength
  omega

/-- One variable is defined, with a value of the given length. -/
def marking (name : Bytes) (width : ℕ) : Dictionary where
  get other := if other = name then some (List.replicate width 0x61) else none
  nulFree other value h := by
    split_ifs at h
    cases h
    intro hmem
    exact absurd (List.eq_of_mem_replicate hmem) (by decide)

theorem marking_ne_nil (name : Bytes) (width : ℕ) (hwidth : 0 < width) (other : Bytes) :
    (marking name width).get other ≠ some [] := by
  rw [marking]
  dsimp only
  split_ifs
  · intro hempty
    have hlength := congrArg List.length (Option.some.inj hempty)
    rw [List.length_replicate, List.length_nil] at hlength
    omega
  · exact fun h ↦ by cases h

/-- A longer value counts its occurrences. -/
theorem sum_marking {α : Type*} (items : List α) (nameOf textOf : α → Bytes) (name : Bytes)
    (width : ℕ) :
    (items.map fun item ↦
        (((marking name (width + 1)).get (nameOf item)).getD (textOf item)).length).sum =
      (items.map fun item ↦
        (((marking name width).get (nameOf item)).getD (textOf item)).length).sum +
          (items.map nameOf).count name := by
  induction items with
  | nil => rfl
  | cons item rest ih =>
    have hitem : (((marking name (width + 1)).get (nameOf item)).getD (textOf item)).length =
        (((marking name width).get (nameOf item)).getD (textOf item)).length +
          if nameOf item = name then 1 else 0 := by
      simp only [marking]
      split_ifs <;> simp
    simp only [List.map_cons, List.sum_cons, List.count_cons, ih, hitem, beq_iff_eq]
    omega

/-- Names are recorded as often as they are referenced. -/
theorem Recording.names_perm (h : Recording (render template) hits) (hwell : WellFormed template)
    (hsubstituted : ∀ dict, Substituted dict q template) :
    ((Form.all.flatMap hits).map MatchData.name).Perm ((refs template).map Ref.name) := by
  rw [List.perm_iff_count]
  intro name
  have hone := h.balance hwell (marking_ne_nil name 1 Nat.one_pos) (hsubstituted (marking name 1))
  have htwo := h.balance hwell (marking_ne_nil name (1 + 1) Nat.two_pos)
    (hsubstituted (marking name (1 + 1)))
  have hreferenced := sum_marking (refs template) Ref.name Ref.text name 1
  have hrecorded := sum_marking (Form.all.flatMap hits) MatchData.name MatchData.full name 1
  omega

/-! ## The exact condition -/

theorem length_eq_sum_countP (list : List Ref) :
    list.length = (Form.all.map fun form ↦ list.countP fun ref ↦ ref.form = form).sum := by
  induction list with
  | nil => rfl
  | cons ref rest ih =>
    simp only [Form.all, List.map_cons, List.map_nil, List.sum_cons, List.sum_nil,
      List.length_cons, List.countP_cons] at ih ⊢
    cases ref.form <;> simp <;> omega

/-- All references are met, and what is recorded are the references. -/
theorem Recording.allMet (h : Recording (render template) hits) (hwell : WellFormed template)
    (hsubstituted : ∀ dict, Substituted dict q template) (form : Form) :
    hits form = (visits form 0 (refs template)).map (recordFor .unset (render template)) ∧
      AllMet template form 0 (refs template) := by
  have hnames := h.names_perm hwell hsubstituted
  have hmem (form : Form) : ∀ m ∈ hits form, m ∈ Form.all.flatMap hits := fun m hm ↦
    List.mem_flatMap.2 ⟨form, by cases form <;> decide, hm⟩
  have hwords (form : Form) : ∀ m ∈ hits form, ∀ b ∈ m.name, isword b := by
    intro m hm
    obtain ⟨ref, href, hname⟩ :=
      List.mem_map.1 (hnames.mem_iff.1 (List.mem_map_of_mem (hmem form m hm)))
    rw [← hname]
    exact (name_of_mem hwell href).2
  have hahead (form : Form) : ((refs template).countP fun ref ↦ Ahead form 0 ref) =
      (refs template).countP fun ref ↦ ref.form = form := by
    apply List.countP_congr
    intro ref _
    simp [Ahead]
  have hle (form : Form) :
      (hits form).length ≤ (refs template).countP fun ref ↦ ref.form = form := by
    have hpassed := length_le_of_done hwell (hwords form) (h.scan form)
    rwa [List.length_nil, Nat.zero_add, hahead] at hpassed
  have hlength : (Form.all.map fun form ↦ (hits form).length).sum =
      (Form.all.map fun form ↦ (refs template).countP fun ref ↦ ref.form = form).sum := by
    rw [← length_eq_sum_countP, ← List.length_flatMap, ← List.length_map MatchData.name,
      ← List.length_map Ref.name]
    exact hnames.length_eq
  have hcount : (hits form).length = (refs template).countP fun ref ↦ ref.form = form := by
    simp only [Form.all, List.map_cons, List.map_nil, List.sum_cons, List.sum_nil] at hlength
    have hat := hle .at
    have hbraces := hle .braces
    have hcache := hle .cache
    have henv := hle .env
    cases form <;> omega
  exact allMet_of_done hwell (hwords form) (List.nil_append _).symm
    (fun _ hmem ↦ absurd hmem List.not_mem_nil)
    (by rw [hcount, List.length_nil, Nat.zero_add]) (h.scan form)

/-- What stands behind a reference at its place closes no further reference of its form. -/
theorem closing_not_mem_of_matched {ref : Ref} (href : ref ∈ refs template)
    (hmatched : matchAt (variablePat ref.form) ((render template).drop ref.start) =
      some [ref.form.opening, ref.name, [ref.form.closing]])
    (hword : ∀ b ∈ ref.name, isword b) :
    ref.form.closing ∉ ((render template).drop ref.stop).takeWhile isgraph := by
  intro hclosing
  obtain ⟨before, after, hrun⟩ := List.append_of_mem hclosing
  have hfront : before ++ [ref.form.closing] <+: (render template).drop ref.stop := by
    apply List.IsPrefix.trans _ (List.takeWhile_prefix isgraph)
    rw [hrun]
    exact ⟨after, (List.append_cons _ _ _).symm⟩
  have hgraph : ∀ b ∈ before, isgraph b := by
    intro b hb
    have hmem : b ∈ ((render template).drop ref.stop).takeWhile isgraph := by
      rw [hrun]
      exact List.mem_append_left _ hb
    exact List.all_eq_true.1 List.all_takeWhile b hmem
  have hlonger : FitsAt (variablePat ref.form) ((render template).drop ref.start)
      [ref.form.opening, ref.name ++ ref.form.closing :: before, [ref.form.closing]] := by
    apply bracketed_fits_iff.2
    refine ⟨ref.name ++ ref.form.closing :: before, rfl, by simp, ?_, ?_⟩
    · intro b hb
      rcases List.mem_append.1 hb with hb | hb
      · exact isgraph_of_isword (hword b hb)
      · rcases List.mem_cons.1 hb with rfl | hb
        · exact Form.isgraph_closing _
        · exact hgraph b hb
    · have hwhole : (render template).drop ref.start =
          ref.text ++ (render template).drop ref.stop := by
        rw [← slice_ref href]
        exact (slice_append_drop ref.start_lt_stop.le).symm
      obtain ⟨more, hmore⟩ := hfront
      rw [hwhole, ← hmore]
      exact ⟨more, by simp [Ref.text, reference]⟩
  have hle := matchAt_longest hmatched hlonger
  simp at hle

/-- The record of a visit has the text of its reference if nothing defined is kept in the line. -/
theorem Recording.repeated (h : Recording (render template) hits) (hwell : WellFormed template)
    (hsubstituted : Substituted .unset q template) :
    ∀ m ∈ Form.all.flatMap hits, m.full = slice (render template) m.fullS m.fullE := by
  obtain ⟨live, hperm, hspans, hsplice⟩ := h.splice_eq hwell (fun _ ↦ by simp [Dictionary.unset])
    hsubstituted
  have hkept : expected .unset template = (render template).drop 0 := by
    rw [List.drop_zero, expected, render]
    apply congrArg fun f ↦ template.flatMap f
    funext piece
    cases piece <;> rfl
  have hlengths : ∀ m ∈ live, (written m).length = m.fullE - m.fullS := by
    intro m hm
    obtain ⟨base, hbase, rfl⟩ := List.mem_map.1 (hperm.mem_iff.1 hm)
    obtain ⟨form, -, hbase⟩ := List.mem_flatMap.1 hbase
    exact (h.hit form base hbase).length
  have hwritten := written_eq_of_splice_eq hspans hlengths (hsplice.trans hkept)
  intro m hm
  exact hwritten _ (hperm.mem_iff.2 (List.mem_map_of_mem hm))

theorem position_le_of_mem {position : ℕ} {live : List MatchData} {m : MatchData}
    (hspans : Spans line position live) (hm : m ∈ live) :
    position ≤ m.fullS ∧ m.fullS < m.fullE := by
  induction live generalizing position with
  | nil => exact absurd hm List.not_mem_nil
  | cons head rest ih =>
    obtain ⟨hle, hlt, hrest⟩ := hspans
    rcases List.mem_cons.1 hm with rfl | hm
    · exact ⟨hle, hlt⟩
    · obtain ⟨hbehind, hm⟩ := ih hrest hm
      exact ⟨by omega, hm⟩

/-- The record whose span starts at the position comes first. -/
theorem eq_cons_of_spans {position : ℕ} {live : List MatchData} {m : MatchData}
    (hspans : Spans line position live) (hm : m ∈ live) (hstart : m.fullS = position) :
    ∃ rest, live = m :: rest ∧ Spans line m.fullE rest := by
  cases live with
  | nil => exact absurd hm List.not_mem_nil
  | cons head rest =>
    obtain ⟨hle, hlt, hrest⟩ := hspans
    rcases List.mem_cons.1 hm with rfl | hm
    · exact ⟨rest, rfl, hrest⟩
    · have hbehind := (position_le_of_mem hrest hm).1
      omega

/-- Every variable is defined as empty. -/
def allEmpty : Dictionary where
  get _ := some []
  nulFree _ _ h := by
    cases h
    exact List.not_mem_nil

/-- The spans of all records are as long as the texts of all references. -/
theorem Recording.sum_spans (h : Recording (render template) hits) (hwell : WellFormed template)
    (hsubstituted : ∀ dict, Substituted dict q template) :
    ((Form.all.flatMap hits).map fun m ↦ m.fullE - m.fullS).sum =
      ((refs template).map fun ref ↦ ref.text.length).sum := by
  have hone (name : Bytes) : allOne.get name ≠ some [] := fun hnil ↦
    absurd (Option.some.inj hnil) (by decide)
  have hbalance := h.balance hwell hone (hsubstituted allOne)
  have hlength := (h.names_perm hwell hsubstituted).length_eq
  rw [List.length_map, List.length_map] at hlength
  simp only [allOne, Option.getD_some, List.map_const', List.sum_replicate, smul_eq_mul,
    hlength] at hbalance
  omega

/-- The first two records do not touch at the start of the line: otherwise the empty values leave
the text of the first reference there. -/
theorem Recording.not_touching (h : Recording (render template) hits) (hwell : WellFormed template)
    (hsubstituted : ∀ dict, Substituted dict q template) {first second : MatchData}
    (hfirst : first ∈ Form.all.flatMap hits) (hsecond : second ∈ Form.all.flatMap hits)
    (hstart : first.fullS = 0) : second.fullS ≠ first.fullE := by
  intro hnext
  have hline := nul_not_mem_render hwell
  obtain ⟨live, hperm, hspans, hresult⟩ := h.rebuild_eq allEmpty q (hsubstituted allEmpty)
  have hempty (base : MatchData) : written (valued allEmpty base) = [] := rfl
  have hlive (base : MatchData) (hbase : base ∈ Form.all.flatMap hits) :
      valued allEmpty base ∈ live := hperm.mem_iff.2 (List.mem_map_of_mem hbase)
  obtain ⟨tail, rfl, htail⟩ := eq_cons_of_spans hspans (hlive first hfirst) hstart
  have hlater : valued allEmpty second ∈ tail := by
    apply List.mem_of_ne_of_mem _ (hlive second hsecond)
    intro heq
    have hlt : first.fullS < first.fullE := hspans.2.1
    have hsame : (valued allEmpty second).fullS = (valued allEmpty first).fullS :=
      congrArg MatchData.fullS heq
    exact hlt.ne (hsame.symm.trans hnext)
  obtain ⟨rest, rfl, -⟩ := eq_cons_of_spans htail hlater hnext
  have hall : ∀ m ∈ valued allEmpty first :: valued allEmpty second :: rest, written m = [] := by
    intro m hm
    obtain ⟨base, -, rfl⟩ := List.mem_map.1 (hperm.mem_iff.1 hm)
    exact hempty base
  rw [terminate_rebuild_of_not_started hline (fun m hm ↦ by simp [hall m hm]) hspans hstart
    (hempty first) hnext] at hresult
  have hsame := h.sum_spans hwell hsubstituted
  have hwidths := (hperm.map fun m ↦ m.fullE - m.fullS).sum_eq
  have hexpected := length_expected allEmpty template 0
  obtain ⟨hle, hlt, hrest⟩ := hspans.2.2
  have hspansRest : Spans (render template) 0 (valued allEmpty second :: rest) :=
    ⟨Nat.zero_le _, hlt, hrest⟩
  have hlength := length_splice hspansRest
  have hnothing :
      ((valued allEmpty second :: rest).map fun m ↦ (written m).length).sum = 0 := by
    apply List.sum_eq_zero
    intro size hsize
    obtain ⟨m, hm, rfl⟩ := List.mem_map.1 hsize
    rw [hall m (List.mem_cons_of_mem _ hm), List.length_nil]
  have hfirstSpan : first.fullS < first.fullE := hspans.2.1
  have hvalues : ((refs template).map fun ref ↦
      ((allEmpty.get ref.name).getD ref.text).length).sum = 0 := by
    simp [allEmpty]
  have hspan : (valued allEmpty first).fullE - (valued allEmpty first).fullS =
      first.fullE - first.fullS := rfl
  rw [List.map_map, List.map_cons, List.sum_cons, hspan] at hwidths
  rw [← Option.some.inj hresult, ← refs, hvalues] at hexpected
  simp only [Function.comp_def, valued] at hwidths hsame hlength hnothing hexpected
  omega

/-- The conditions are met for every dictionary if the substitution is right for every one. -/
theorem benign_of_substituted (hwell : WellFormed template)
    (hsubstituted : ∀ dict, Substituted dict q template) (dict : Dictionary) :
    Benign dict template := by
  obtain ⟨hits, h⟩ := exists_recording (hsubstituted .unset)
  have hall := h.allMet hwell hsubstituted
  have hmet (visit : Visit) (hvisit : visit ∈ visited template) :
      recordFor .unset (render template) visit ∈ Form.all.flatMap hits := by
    obtain ⟨form, hform, hvisit⟩ := List.mem_flatMap.1 hvisit
    rw [List.mem_flatMap]
    refine ⟨form, hform, ?_⟩
    rw [(hall form).1]
    exact List.mem_map_of_mem hvisit
  refine ⟨⟨?replaced, ?skipped, ?started⟩, ?isolated, ?inside⟩
  case replaced =>
    intro visit hvisit
    refine Or.inr (Or.inr ?_)
    rw [← slice_ref (ref_mem_of_mem_visited hvisit)]
    exact h.repeated hwell (hsubstituted .unset) _ (hmet visit hvisit)
  case skipped =>
    intro ref href
    obtain ⟨visit, hvisit, href⟩ := List.mem_map.1 ((hall ref.form).2.met ref href rfl)
    refine Or.inl (List.mem_map.2 ⟨visit, ?_, href⟩)
    exact List.mem_flatMap.2 ⟨ref.form, by cases ref.form <;> decide, hvisit⟩
  case started =>
    intro first hfirst second hsecond hstart _
    exact h.not_touching hwell hsubstituted (hmet first hfirst) (hmet second hsecond) hstart
  case isolated =>
    have hclosed : ∀ ref ∈ refsFrom 0 template,
        ref.form.closing ∉ ((render template).drop (ref.stop - 0)).takeWhile isgraph :=
      fun ref href ↦ closing_not_mem_of_matched href ((hall ref.form).2.matched ref href rfl)
        (name_of_mem hwell href).2
    exact isolated_of_refs hclosed
  case inside =>
    intro visit hvisit
    obtain ⟨form, -, hvisit⟩ := List.mem_flatMap.1 hvisit
    exact (hall form).2.inside visit hvisit

/-- A benign template becomes the expected line, and the templates that do so for every dictionary
are those that are benign for every dictionary. -/
theorem substituted_iff (q : Sorter) (template : List Piece) (hwell : WellFormed template)
    (hlength : (render template).length < MAX_LINE_LENGTH) :
    (∀ dict, Benign dict template → Substituted dict q template) ∧
      ((∀ dict, Substituted dict q template) ↔ ∀ dict, Benign dict template) := by
  have hroom : (render template).length + 1 < 2 ^ MATCHES := by
    calc (render template).length + 1 ≤ MAX_LINE_LENGTH := hlength
      _ < 2 ^ MATCHES := by decide
  have henough (dict : Dictionary) (hbenign : Benign dict template) :
      Substituted dict q template := (hbenign.faithful hwell hroom).doReplaceVariable_render q
  refine ⟨henough, benign_of_substituted hwell, ?_⟩
  exact fun hbenign dict ↦ henough dict (hbenign dict)

theorem substituted_iff_two :
    doReplaceVariable allOne insertionSorter (bytes "@A@ $\x7bB\x7d\n") = some (bytes "1 1\n") :=
  (substituted_iff insertionSorter
    [.ref .at (bytes "A"), .text (bytes " "), .ref .braces (bytes "B"), .text (bytes "\n")]
    (by decide +kernel) (by decide +kernel)).1 allOne
    ⟨⟨by decide +kernel, by decide +kernel, by decide +kernel⟩, by decide +kernel,
      by decide +kernel⟩

/-- Three references of one form. -/
def threeReferences : List Piece :=
  [.ref .at (bytes "A"), .text (bytes " "), .ref .at (bytes "B"), .text (bytes " "),
    .ref .at (bytes "C")]

/-- Behind the second reference the scan goes on too far to meet the third: the line becomes
`1 1 @C@`. -/
theorem threeReferences_not_substituted :
    WellFormed threeReferences ∧ (render threeReferences).length < MAX_LINE_LENGTH ∧
      ¬Substituted allOne insertionSorter threeReferences := by
  rw [Substituted]
  decide +kernel

end Vodka.Genconfig.Exactness
