import Mathlib.Tactic
import Vodka.Genconfig.Rebuild
import Vodka.Genconfig.Template

/-!
# Variable substitution

On a template whose references are isolated, the scan for a form meets its
references in order, each at a scan position; the next position is the sum of
this one and the end of the reference. What is met is recorded, and the rebuilt
line is the expected one when nothing else would have to be replaced and every
record writes what it should.
-/

namespace Vodka.Genconfig.Substitution

open Foundation.FlatRegex Foundation.Qsort Replace Scan Rebuild Template

variable {dict : Dictionary} {form : Form} {template : List Piece} {position fuel : ℕ}
  {records : List MatchData} {ref : Ref}

/-- A reference, and the position from which the scan finds it. -/
structure Visit where
  position : ℕ
  ref : Ref
deriving DecidableEq

/-- The references of a form met from a position on. -/
def visits (form : Form) : ℕ → List Ref → List Visit
  | _, [] => []
  | position, ref :: rest =>
    if ref.form = form ∧ position ≤ ref.start then
      ⟨position, ref⟩ :: visits form (position + ref.stop) rest
    else visits form position rest

def visited (template : List Piece) : List Visit :=
  Form.all.flatMap fun form ↦ visits form 0 (refs template)

/-- The record of a reference that is met. -/
def recordFor (dict : Dictionary) (line : Bytes) (visit : Visit) : MatchData where
  fullS := visit.ref.start
  fullE := visit.ref.stop
  nameS := visit.ref.start - visit.position + visit.ref.form.opening.length
  nameE := visit.ref.start - visit.position + visit.ref.form.opening.length + visit.ref.name.length
  full := slice line (visit.position + visit.ref.start) (visit.position + visit.ref.stop)
  name := visit.ref.name
  value := dict.get visit.ref.name

theorem mem_visits {visit : Visit} {list : List Ref} (h : visit ∈ visits form position list) :
    visit.ref ∈ list ∧ visit.ref.form = form ∧ position ≤ visit.position ∧
      visit.position ≤ visit.ref.start := by
  induction list generalizing position with
  | nil => exact absurd h List.not_mem_nil
  | cons ref rest ih =>
    rw [visits] at h
    split_ifs at h with hmet
    · rcases List.mem_cons.1 h with rfl | h
      · exact ⟨List.mem_cons_self, hmet.1, le_rfl, hmet.2⟩
      · obtain ⟨hmem, hform, hle, hstart⟩ := ih h
        exact ⟨List.mem_cons_of_mem _ hmem, hform, by omega, hstart⟩
    · obtain ⟨hmem, hform, hle, hstart⟩ := ih h
      exact ⟨List.mem_cons_of_mem _ hmem, hform, hle, hstart⟩

theorem map_visits_sublist (form : Form) (position : ℕ) (list : List Ref) :
    ((visits form position list).map Visit.ref).Sublist list := by
  induction list generalizing position with
  | nil => exact List.Sublist.refl _
  | cons ref rest ih =>
    rw [visits]
    split_ifs
    · exact (ih _).cons_cons ref
    · exact (ih _).cons ref

/-- The first reference of its form at or behind a position is what the pattern finds there. -/
theorem exec_ref (hwell : WellFormed template) (hisolated : Isolated template)
    (href : ref ∈ refs template) (hposition : position ≤ ref.start)
    (hfirst : ∀ other ∈ refs template, other.form = ref.form → position ≤ other.start →
      ref.start ≤ other.start) :
    exec (variablePat ref.form) ((render template).drop position) =
      some ⟨ref.start - position, [ref.form.opening, ref.name, [ref.form.closing]]⟩ := by
  have hstop := stop_le_of_mem href
  have hlt := ref.start_lt_stop
  rw [exec, if_neg (by exact Bool.false_ne_true), search_eq_some_iff]
  dsimp only
  refine ⟨?_, ?_, fun place hplace ↦ ?_⟩
  · rw [List.length_drop]
    omega
  · have hmatch := matchAt_ref hwell hisolated href
    rw [Nat.sub_zero] at hmatch
    rw [List.drop_drop, Nat.add_sub_cancel' hposition, hmatch]
  · rw [List.drop_drop]
    apply matchAt_eq_none hwell hisolated
    intro other hother hform hstart
    have := hfirst other hother hform (by omega)
    omega

theorem exec_none (hwell : WellFormed template) (hisolated : Isolated template)
    (hnone : ∀ other ∈ refs template, other.form = form → other.start < position) :
    exec (variablePat form) ((render template).drop position) = none := by
  rw [exec, if_neg (by exact Bool.false_ne_true), search_eq_none_iff]
  intro place _
  rw [List.drop_drop]
  apply matchAt_eq_none hwell hisolated
  intro other hother hform hstart
  have := hnone other hother hform
  omega

/-- A reference found from a position ends where it ends in the line. -/
theorem stop_found (hposition : position ≤ ref.start) :
    (⟨ref.start - position, [ref.form.opening, ref.name, [ref.form.closing]]⟩ :
      Match UInt8).stop + position = ref.stop := by
  rw [Ref.stop, ref.length_text, Match.stop, Match.length]
  simp
  omega

theorem recordOf_visit (href : ref ∈ refs template) (hposition : position ≤ ref.start)
    (hfound : exec (variablePat ref.form) ((render template).drop position) =
      some ⟨ref.start - position, [ref.form.opening, ref.name, [ref.form.closing]]⟩) :
    recordOf dict (render template) position
        ⟨ref.start - position, [ref.form.opening, ref.name, [ref.form.closing]]⟩ =
      recordFor dict (render template) ⟨position, ref⟩ := by
  obtain ⟨name, -, hrecord, hslice⟩ := recordOf_eq dict hfound
  have hstart : ref.start - position + position = ref.start := Nat.sub_add_cancel hposition
  have hstop := stop_found hposition
  rw [hstart, hstop, slice_ref href, Ref.text, reference] at hslice
  have hname : ref.name = name := List.append_cancel_left (List.append_cancel_right hslice)
  rw [hrecord, recordFor, hstart, hstop, ← hname]
  simp [Match.so, Match.eo, Nat.add_assoc]

/-- The loop records what the scan meets in the rest of the references. -/
theorem scanFrom_visits (hwell : WellFormed template) (hisolated : Isolated template)
    (hlength : (render template).length + 1 < 2 ^ MATCHES) {list : List Ref}
    (hmem : ∀ ref ∈ list, ref ∈ refs template)
    (hahead : ∀ ref ∈ refs template, ref.form = form → position ≤ ref.start → ref ∈ list)
    (hordered : list.Pairwise fun first second ↦ first.stop ≤ second.start)
    (hinside : ∀ visit ∈ visits form position list,
      visit.position + visit.ref.stop ≤ (render template).length)
    (hposition : position ≤ (render template).length)
    (hdoubled : 2 ^ records.length ≤ position + 1)
    (hpos : 0 < fuel) (hfuel : (render template).length + 2 ≤ fuel + position) :
    scanFrom dict (variablePat form) (render template) fuel position records =
      .done (records ++ (visits form position list).map (recordFor dict (render template))) := by
  induction list generalizing position fuel records with
  | nil =>
    obtain ⟨fuel, rfl⟩ := Nat.exists_eq_succ_of_ne_zero hpos.ne'
    rw [visits, List.map_nil, List.append_nil]
    apply scanFrom_none hposition
    apply exec_none hwell hisolated
    intro other hother hform
    by_contra hle
    exact List.not_mem_nil (hahead other hother hform (Nat.le_of_not_lt hle))
  | cons ref rest ih =>
    obtain ⟨hbehind, hrest⟩ := List.pairwise_cons.1 hordered
    have href := hmem ref List.mem_cons_self
    have hmemRest : ∀ ref ∈ rest, ref ∈ refs template := fun ref hin ↦
      hmem ref (List.mem_cons_of_mem _ hin)
    by_cases hmet : ref.form = form ∧ position ≤ ref.start
    · obtain ⟨rfl, hstart⟩ := hmet
      obtain ⟨fuel, rfl⟩ := Nat.exists_eq_succ_of_ne_zero hpos.ne'
      rw [visits, if_pos ⟨rfl, hstart⟩] at hinside ⊢
      have hlt := ref.start_lt_stop
      have hnext := hinside ⟨position, ref⟩ List.mem_cons_self
      dsimp only at hnext
      have hfound := exec_ref hwell hisolated href hstart (by
        intro other hother hform hle
        rcases List.mem_cons.1 (hahead other hother hform hle) with rfl | hin
        · exact le_rfl
        · exact hlt.le.trans (hbehind other hin))
      have hroom : records.length < MATCHES := by
        apply (Nat.pow_lt_pow_iff_right Nat.one_lt_two).1
        omega
      rw [scanFrom_found hposition hfound hroom.ne, stop_found hstart,
        recordOf_visit href hstart hfound]
      rw [ih hmemRest]
      · rw [List.map_cons, List.append_assoc, List.singleton_append]
      · intro other hother hform hle
        rcases List.mem_cons.1 (hahead other hother hform (by omega)) with rfl | hin
        · omega
        · exact hin
      · exact hrest
      · exact fun visit hvisit ↦ hinside visit (List.mem_cons_of_mem _ hvisit)
      · exact hnext
      · rw [List.length_append, List.length_singleton, Nat.pow_succ]
        omega
      · omega
      · omega
    · rw [visits, if_neg hmet] at hinside ⊢
      apply ih hmemRest _ hrest hinside hposition hdoubled hpos hfuel
      intro other hother hform hle
      rcases List.mem_cons.1 (hahead other hother hform hle) with rfl | hin
      · exact absurd ⟨hform, hle⟩ hmet
      · exact hin

/-- The values suit what the scans meet. -/
structure Suited (dict : Dictionary) (template : List Piece) : Prop where
  /-- What is met behind the first reference of its form is defined, or its text is repeated. -/
  replaced : ∀ visit ∈ visited template, visit.position = 0 ∨ dict.get visit.ref.name ≠ none ∨
    slice (render template) (visit.position + visit.ref.start) (visit.position + visit.ref.stop) =
      visit.ref.text
  /-- What no scan meets is undefined. -/
  skipped : ∀ ref ∈ refs template,
    ref ∈ (visited template).map Visit.ref ∨ dict.get ref.name = none
  /-- The line does not start with an empty value in front of another reference that is met. -/
  started : ∀ first ∈ visited template, ∀ second ∈ visited template,
    first.ref.start = 0 → dict.get first.ref.name = some [] → second.ref.start ≠ first.ref.stop

/-- The conditions under which a template is substituted as it should be. -/
structure Benign (dict : Dictionary) (template : List Piece) : Prop
    extends Suited dict template where
  /-- No run of printable bytes closes a reference twice. -/
  isolated : Isolated template
  /-- No scan position leads out of the line. -/
  inside : ∀ visit ∈ visited template,
    visit.position + visit.ref.stop ≤ (render template).length

/-- The scans end in the line, and meet references of the template and nothing else. -/
structure Faithful (dict : Dictionary) (template : List Piece) : Prop
    extends Suited dict template where
  nulFree : NUL ∉ render template
  scanned : ∀ form, scan .unset form (render template) =
    .done ((visits form 0 (refs template)).map (recordFor .unset (render template)))

/-! ## Records in order -/

theorem spans_of_pairwise {line : Bytes} (hposition : position ≤ line.length)
    (hbehind : ∀ m ∈ records, position ≤ m.fullS)
    (hinside : ∀ m ∈ records, m.fullS < m.fullE ∧ m.fullE ≤ line.length)
    (hordered : records.Pairwise fun first second ↦ first.fullE ≤ second.fullS) :
    Spans line position records := by
  induction records generalizing position with
  | nil => exact hposition
  | cons m rest ih =>
    obtain ⟨hfirst, hrest⟩ := List.pairwise_cons.1 hordered
    have hm := hinside m List.mem_cons_self
    refine ⟨hbehind m List.mem_cons_self, hm.1, ih hm.2 hfirst ?_ hrest⟩
    exact fun other hother ↦ hinside other (List.mem_cons_of_mem _ hother)

/-- Records in the order of their ends follow each other if they do not intersect. -/
theorem pairwise_of_disjoint {line : Bytes}
    (hinside : ∀ m ∈ records, m.fullS < m.fullE ∧ m.fullE ≤ line.length)
    (hsorted : records.Pairwise fun first second ↦ first.fullE ≤ second.fullE)
    (hdisjoint : records.Pairwise fun first second ↦
      first.fullE ≤ second.fullS ∨ second.fullE ≤ first.fullS) :
    records.Pairwise fun first second ↦ first.fullE ≤ second.fullS := by
  apply (hsorted.and hdisjoint).imp_of_mem
  rintro first second hfirst hsecond ⟨hle, hdisjoint⟩
  have := hinside first hfirst
  have := hinside second hsecond
  omega

theorem splice_skip {line : Bytes} (width : ℕ)
    (hbehind : ∀ m ∈ records, position + width ≤ m.fullS) :
    splice line position records =
      slice line position (position + width) ++ splice line (position + width) records := by
  cases records with
  | nil =>
    rw [splice, splice, slice, Nat.add_sub_cancel_left, ← List.drop_drop, List.take_append_drop]
  | cons m rest =>
    have hm := hbehind m List.mem_cons_self
    rw [splice, splice, ← List.append_assoc, ← List.append_assoc]
    congr 2
    rw [slice, slice, slice, Nat.add_sub_cancel_left, ← List.drop_drop,
      show m.fullS - position = width + (m.fullS - (position + width)) by omega, List.take_add]

/-- A record with the place of a listed reference, that writes what the reference is to become. -/
def Replaces (dict : Dictionary) (list : List Ref) (m : MatchData) : Prop :=
  ∃ ref ∈ list, m.fullS = ref.start ∧ m.fullE = ref.stop ∧
    written m = (dict.get ref.name).getD ref.text

theorem Replaces.le_fullS {offset : ℕ} {m : MatchData}
    (h : Replaces dict (refsFrom offset template) m) : offset ≤ m.fullS := by
  obtain ⟨ref, href, hstart, -⟩ := h
  rw [hstart]
  exact le_start_of_mem href

/-- A record behind the first reference replaces a later one. -/
theorem Replaces.of_cons {list : List Ref} {m : MatchData} (h : Replaces dict (ref :: list) m)
    (hne : m.fullS ≠ ref.start) : Replaces dict list m := by
  obtain ⟨other, hother, hrecord⟩ := h
  rcases List.mem_cons.1 hother with rfl | hother
  · exact absurd hrecord.1 hne
  · exact ⟨other, hother, hrecord⟩

/-- The first record is that of the first reference, if there is one; the others are behind it. -/
theorem exists_cons_of_mem {list : List Ref} {m : MatchData}
    (hlist : ∀ other ∈ list, ref.stop ≤ other.start)
    (hordered : records.Pairwise fun first second ↦ first.fullE ≤ second.fullS)
    (hrecords : ∀ m ∈ records, Replaces dict (ref :: list) m) (hm : m ∈ records)
    (hstart : m.fullS = ref.start) :
    ∃ first tail, records = first :: tail ∧ first.fullS = ref.start ∧ first.fullE = ref.stop ∧
      written first = (dict.get ref.name).getD ref.text ∧
        ∀ other ∈ tail, ref.stop ≤ other.fullS := by
  cases records with
  | nil => exact absurd hm List.not_mem_nil
  | cons first tail =>
    obtain ⟨hbehind, -⟩ := List.pairwise_cons.1 hordered
    obtain ⟨other, hother, hfirstS, hfirstE, hwritten⟩ := hrecords first List.mem_cons_self
    have hlt := other.start_lt_stop
    rcases List.mem_cons.1 hother with rfl | hother
    · exact ⟨first, tail, rfl, hfirstS, hfirstE, hwritten, fun item hitem ↦
        hfirstE ▸ hbehind item hitem⟩
    · have hle := hlist other hother
      have hrefLt := ref.start_lt_stop
      rcases List.mem_cons.1 hm with rfl | hm
      · omega
      · have := hbehind m hm
        omega

/-- Spliced over the references that are recorded, the line of a template is the expected one. -/
theorem splice_eq_expected {line : Bytes} {offset : ℕ} (hline : line.drop offset = render template)
    (hordered : records.Pairwise fun first second ↦ first.fullE ≤ second.fullS)
    (hrecords : ∀ m ∈ records, Replaces dict (refsFrom offset template) m)
    (hskipped : ∀ ref ∈ refsFrom offset template,
      (∃ m ∈ records, m.fullS = ref.start) ∨ dict.get ref.name = none) :
    splice line offset records = expected dict template := by
  induction template generalizing offset records with
  | nil =>
    cases records with
    | nil => rw [splice, hline, render_nil, expected_nil]
    | cons m rest =>
      obtain ⟨ref, href, -⟩ := hrecords m List.mem_cons_self
      exact absurd href List.not_mem_nil
  | cons piece rest ih =>
    have hpiece : slice line offset (offset + piece.render.length) = piece.render := by
      rw [slice, hline, Nat.add_sub_cancel_left, render_cons, List.take_left]
    have hrest : line.drop (offset + piece.render.length) = render rest := by
      rw [← List.drop_drop, hline, render_cons, List.drop_left]
    cases piece with
    | text content =>
      have hrecords : ∀ m ∈ records,
          Replaces dict (refsFrom (offset + content.length) rest) m := hrecords
      rw [splice_skip content.length fun m hm ↦ (hrecords m hm).le_fullS, expected_cons]
      exact congrArg₂ (· ++ ·) hpiece (ih hrest hordered hrecords hskipped)
    | ref form name =>
      set head : Ref := ⟨form, name, offset⟩
      have hlist : ∀ other ∈ refsFrom head.stop rest, head.stop ≤ other.start :=
        fun _ hother ↦ le_start_of_mem hother
      by_cases hmet : ∃ m ∈ records, m.fullS = offset
      · obtain ⟨m, hm, hstart⟩ := hmet
        obtain ⟨first, tail, rfl, hfirstS, hfirstE, hwritten, hbehind⟩ :=
          exists_cons_of_mem hlist hordered hrecords hm hstart
        have hlt := head.start_lt_stop
        have hexpected : written first = Piece.expected dict (.ref form name) := hwritten
        have hlater : splice line head.stop tail = expected dict rest := by
          apply ih hrest (List.pairwise_cons.1 hordered).2
          · intro other hother
            have := hbehind other hother
            exact (hrecords other (List.mem_cons_of_mem _ hother)).of_cons
              (show other.fullS ≠ head.start by omega)
          · intro later hlaterMem
            refine (hskipped later (List.mem_cons_of_mem _ hlaterMem)).imp_left ?_
            rintro ⟨other, hother, hotherS⟩
            have := hlist later hlaterMem
            have hne : other ≠ first := by
              rintro rfl
              omega
            exact ⟨other, (List.mem_cons.1 hother).resolve_left hne, hotherS⟩
        rw [splice, show first.fullS = offset from hfirstS, slice, Nat.sub_self, List.take_zero,
          List.nil_append, hexpected, hfirstE, expected_cons, hlater]
      · have hne (m : MatchData) (hm : m ∈ records) : m.fullS ≠ offset := fun hstart ↦
          hmet ⟨m, hm, hstart⟩
        have hundefined : dict.get name = none := by
          apply (hskipped head List.mem_cons_self).resolve_left
          rintro ⟨m, hm, hstart⟩
          exact hne m hm hstart
        have hlater (m : MatchData) (hm : m ∈ records) :
            Replaces dict (refsFrom (offset + (reference form name).length) rest) m :=
          (hrecords m hm).of_cons (hne m hm)
        rw [splice_skip (reference form name).length fun m hm ↦ (hlater m hm).le_fullS,
          expected_cons, Piece.expected, hundefined, Option.getD_none]
        apply congrArg₂ (· ++ ·) hpiece
        exact ih hrest hordered hlater fun ref href ↦ hskipped ref (List.mem_cons_of_mem _ href)

theorem ref_mem_of_mem_visited {visit : Visit} (h : visit ∈ visited template) :
    visit.ref ∈ refs template := by
  obtain ⟨form, -, hvisit⟩ := List.mem_flatMap.1 h
  exact (mem_visits hvisit).1

/-- One reference ends before the other starts. -/
def Apart (first second : Ref) : Prop := first.stop ≤ second.start ∨ second.stop ≤ first.start

instance : Std.Symm Apart := ⟨fun _ _ h ↦ h.symm⟩

/-- No two references that are met intersect. -/
theorem visited_pairwise (template : List Piece) :
    (visited template).Pairwise fun first second ↦ Apart first.ref second.ref := by
  have hrefs : (refs template).Pairwise Apart := (refsFrom_pairwise 0 template).imp Or.inl
  rw [visited, List.pairwise_flatMap]
  constructor
  · intro form _
    have hmet := hrefs.sublist (map_visits_sublist form 0 (refs template))
    exact List.pairwise_map.1 hmet
  · have hforms : Form.all.Pairwise (· ≠ ·) := by decide
    apply hforms.imp
    intro form other hne first hfirst second hsecond
    obtain ⟨hfirstMem, rfl, -⟩ := mem_visits hfirst
    obtain ⟨hsecondMem, rfl, -⟩ := mem_visits hsecond
    apply hrefs.forall hfirstMem hsecondMem
    exact fun heq ↦ hne (congrArg Ref.form heq)

/-- A record writes what its reference is to be replaced by. -/
theorem Suited.written_recordFor (h : Suited dict template) {visit : Visit}
    (hvisit : visit ∈ visited template) :
    written (recordFor dict (render template) visit) =
      (dict.get visit.ref.name).getD visit.ref.text := by
  cases hvalue : dict.get visit.ref.name with
  | some value => simp [written, recordFor, hvalue]
  | none =>
    rw [written, recordFor, hvalue, Option.getD_none, Option.getD_none]
    rcases h.replaced visit hvisit with hzero | hdefined | hrepeated
    · rw [hzero, Nat.zero_add, Nat.zero_add]
      exact slice_ref (ref_mem_of_mem_visited hvisit)
    · exact absurd hvalue hdefined
    · exact hrepeated

/-- Records of references that are met leave no empty output in front of the second one. -/
theorem Suited.started_of_mem (h : Suited dict template) {live : List MatchData}
    (hmem : ∀ m ∈ live, ∃ visit ∈ visited template, recordFor dict (render template) visit = m) :
    Started live := by
  rcases hfirst : live with _ | ⟨first, _ | ⟨second, rest⟩⟩
  · trivial
  · trivial
  · obtain ⟨visit, hvisit, rfl⟩ := hmem first (by simp [hfirst])
    obtain ⟨other, hother, rfl⟩ := hmem second (by simp [hfirst])
    rintro ⟨hstart, hempty, hnext⟩
    refine h.started visit hvisit other hother hstart ?_ hnext
    rw [h.written_recordFor hvisit] at hempty
    cases hvalue : dict.get visit.ref.name with
    | none =>
      rw [hvalue, Option.getD_none] at hempty
      have hlength := visit.ref.length_text
      rw [hempty, List.length_nil] at hlength
      omega
    | some value =>
      rw [hvalue, Option.getD_some] at hempty
      rw [hempty]

theorem Faithful.scan_eq (h : Faithful dict template) (form : Form) :
    scan dict form (render template) =
      .done ((visits form 0 (refs template)).map (recordFor dict (render template))) := by
  have hvalued := scanFrom_valued dict (h.scanned form)
  rw [List.map_nil, List.map_map] at hvalued
  exact hvalued

theorem Faithful.nul_not_mem_written (h : Faithful dict template) {visit : Visit}
    (hvisit : visit ∈ visited template) :
    NUL ∉ written (recordFor dict (render template) visit) := by
  rw [h.written_recordFor hvisit]
  cases hvalue : dict.get visit.ref.name with
  | some value => exact dict.nulFree _ _ hvalue
  | none =>
    rw [Option.getD_none, ← slice_ref (ref_mem_of_mem_visited hvisit)]
    exact not_mem_slice h.nulFree

/-- Nothing is written but text of the template and values. -/
theorem nul_not_mem_expected (h : NUL ∉ render template) : NUL ∉ expected dict template := by
  intro hnul
  obtain ⟨piece, hpiece, hnul⟩ := List.mem_flatMap.1 hnul
  have hrender : NUL ∉ piece.render := fun hmem ↦ h (List.mem_flatMap.2 ⟨piece, hpiece, hmem⟩)
  cases piece with
  | text content => exact hrender hnul
  | ref form name =>
    cases hget : dict.get name with
    | none =>
      rw [Piece.expected, hget] at hnul
      exact hrender hnul
    | some value =>
      rw [Piece.expected, hget] at hnul
      exact dict.nulFree name value hget hnul

/-- The new line of a template that the scans meet: nothing is written if they meet no reference,
and else the terminator is written as well. -/
theorem Faithful.exists_rebuild (h : Faithful dict template) (q : Sorter) :
    ∃ md newLine, sortedMatchData dict q (render template) = some md ∧
      rebuild (render template) md [] = some newLine ∧
      (newLine = [] ∧ expected dict template = render template ∨
        visited template ≠ [] ∧ newLine = expected dict template ++ [NUL]) := by
  obtain ⟨md, hmd, hmdSorted, hmdPerm⟩ := sortedMatchData_eq q h.scan_eq
  have hperm := filter_sortedMatchData hmdPerm (by
    intro form m hm
    obtain ⟨visit, -, rfl⟩ := List.mem_map.1 hm
    exact Nat.ne_of_gt (Nat.zero_lt_of_lt visit.ref.start_lt_stop))
  rw [← List.map_flatMap, ← visited] at hperm
  have hsorted := hmdSorted.filter fun m ↦ m.fullE ≠ 0
  set live := md.filter fun m ↦ m.fullE ≠ 0 with hlive
  have hmem (m : MatchData) (hm : m ∈ live) :
      ∃ visit ∈ visited template, recordFor dict (render template) visit = m :=
    List.mem_map.1 (hperm.mem_iff.1 hm)
  have hinside (m : MatchData) (hm : m ∈ live) :
      m.fullS < m.fullE ∧ m.fullE ≤ (render template).length := by
    obtain ⟨visit, hvisit, rfl⟩ := hmem m hm
    have hstop := stop_le_of_mem (ref_mem_of_mem_visited hvisit)
    rw [Nat.zero_add] at hstop
    exact ⟨visit.ref.start_lt_stop, hstop⟩
  have hapart : live.Pairwise fun first second ↦
      first.fullE ≤ second.fullS ∨ second.fullE ≤ first.fullS := by
    rw [hperm.pairwise_iff fun h ↦ h.symm, List.pairwise_map]
    exact visited_pairwise template
  have hordered := pairwise_of_disjoint hinside hsorted hapart
  have hspans : Spans (render template) 0 live :=
    spans_of_pairwise (Nat.zero_le _) (fun _ _ ↦ Nat.zero_le _) hinside hordered
  have hwritten (m : MatchData) (hm : m ∈ live) : NUL ∉ written m := by
    obtain ⟨visit, hvisit, rfl⟩ := hmem m hm
    exact h.nul_not_mem_written hvisit
  have hsplice : splice (render template) 0 live = expected dict template := by
    apply splice_eq_expected rfl hordered
    · intro m hm
      obtain ⟨visit, hvisit, rfl⟩ := hmem m hm
      exact ⟨visit.ref, ref_mem_of_mem_visited hvisit, rfl, rfl,
        h.written_recordFor hvisit⟩
    · intro ref href
      apply (h.skipped ref href).imp_left
      intro hmet
      obtain ⟨visit, hvisit, rfl⟩ := List.mem_map.1 hmet
      exact ⟨_, hperm.mem_iff.2 (List.mem_map_of_mem hvisit), rfl⟩
  by_cases hnone : live = []
  · refine ⟨md, [], hmd, ?_, Or.inl ⟨rfl, ?_⟩⟩
    · rw [rebuild_filter hmdSorted, ← hlive, hnone, rebuild]
    · rw [← hsplice, hnone, splice, List.drop_zero]
  · have hvisited : visited template ≠ [] := by
      intro hvisited
      rw [hvisited] at hperm
      exact hnone hperm.eq_nil
    refine ⟨md, _, hmd, ?_, Or.inr ⟨hvisited, rfl⟩⟩
    rw [rebuild_filter hmdSorted, ← hlive, rebuild_eq_splice h.nulFree hwritten hspans
      (h.started_of_mem hmem) hnone, hsplice]

theorem terminate_of_rebuild {newLine : Bytes} (hnul : NUL ∉ render template)
    (h : newLine = [] ∧ expected dict template = render template ∨
      visited template ≠ [] ∧ newLine = expected dict template ++ [NUL]) :
    terminate (render template) newLine = expected dict template := by
  rcases h with ⟨rfl, hexpected⟩ | ⟨-, rfl⟩
  · rw [terminate, if_pos rfl, hexpected]
  · rw [terminate, if_neg (by simp), List.append_assoc, List.singleton_append,
      cString_of_not_mem (nul_not_mem_expected hnul)]

/-- The substitution of a template that the scans meet. -/
theorem Faithful.doReplaceVariable_render (h : Faithful dict template) (q : Sorter) :
    doReplaceVariable dict q (render template) = some (expected dict template) := by
  obtain ⟨md, newLine, hmd, hnewLine, hwritten⟩ := h.exists_rebuild q
  rw [doReplaceVariable_eq_bind, hmd, Option.bind_some, hnewLine, Option.map_some,
    terminate_of_rebuild h.nulFree hwritten]

/-! ## Benign templates -/

theorem nul_not_mem_render (hwell : WellFormed template) : NUL ∉ render template := by
  intro hnul
  obtain ⟨piece, hpiece, hnul⟩ := List.mem_flatMap.1 hnul
  have hform := hwell piece hpiece
  cases piece with
  | text content => exact (hform NUL hnul).2.2 rfl
  | ref form name =>
    obtain ⟨tail, htail, hbytes⟩ := Form.opening_eq form
    rw [Piece.render, reference, htail] at hnul
    simp only [List.mem_append, List.mem_cons, List.not_mem_nil, or_false] at hnul
    rcases hnul with ((hnul | hnul) | hnul) | hnul
    · cases form <;> exact absurd hnul (by decide)
    · exact (hbytes NUL hnul).2.2 rfl
    · exact (ne_of_isword (hform.2 NUL hnul)).2.2.2 rfl
    · cases form <;> exact absurd hnul (by decide)

/-- The scans meet the references of a benign template. -/
theorem Benign.faithful (hwell : WellFormed template) (h : Benign dict template)
    (hlength : (render template).length + 1 < 2 ^ MATCHES) : Faithful dict template where
  toSuited := h.toSuited
  nulFree := nul_not_mem_render hwell
  scanned form := by
    apply scanFrom_visits hwell h.isolated hlength
    · exact fun _ h ↦ h
    · exact fun _ h _ _ ↦ h
    · exact refsFrom_pairwise 0 template
    · intro visit hvisit
      apply h.inside visit
      cases form <;> simp [visited, Form.all, hvisit]
    · exact Nat.zero_le _
    · exact le_rfl
    · exact Nat.succ_pos _
    · exact le_rfl

/-- Every variable is defined as `1`. -/
def allOne : Dictionary where
  get _ := some (bytes "1")
  nulFree _ value h := by
    cases h
    decide

end Vodka.Genconfig.Substitution
