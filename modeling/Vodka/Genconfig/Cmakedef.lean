import Mathlib.Tactic
import Vodka.Genconfig.Lines

/-!
# Directive lines

A directive line is a number sign, the word `cmakedefine` or `cmakedefine01` and
a name, with white space around them. The submatches of the two expressions are
these words, because a run of white space or of printable bytes ends at one
place and the name takes as much as it can. From them follow what a directive
becomes and how many bytes of its buffer are used.
-/

namespace Vodka.Genconfig.Cmakedef

open Foundation.FlatRegex Replace Rebuild Lines

variable {dict : Dictionary} {line word : Bytes} {cls : UInt8 → Bool}

theorem isspace_eq_false_of_isgraph {b : UInt8} (h : isgraph b) : isspace b = false := by
  rw [Bool.eq_false_iff]
  simp only [isgraph, isspace, Bool.or_eq_true, Bool.and_eq_true, decide_eq_true_eq, beq_iff_eq,
    UInt8.le_iff_toNat_le, ← UInt8.toNat_inj, UInt8.reduceToNat, ne_eq] at h ⊢
  omega

/-- The words of a line around the one that makes it a directive. -/
structure Directive where
  indent : Bytes
  gap : Bytes
  sep : Bytes
  name : Bytes
  rest : Bytes
  indent_space : ∀ b ∈ indent, isspace b
  gap_space : ∀ b ∈ gap, isspace b
  sep_space : sep ≠ [] ∧ ∀ b ∈ sep, isspace b
  name_graph : name ≠ [] ∧ ∀ b ∈ name, isgraph b
  rest_behind : ∀ b ∈ rest.head?, isgraph b = false

namespace Directive

variable (d : Directive)

def words (word : Bytes) : List Bytes :=
  [d.indent, bytes "#", d.gap, word, d.sep, d.name, d.rest]

def text (word : Bytes) : Bytes := (d.words word).flatten

/-- The match of the whole line. -/
def found (word : Bytes) : Match UInt8 := ⟨0, d.words word⟩

theorem sep_head (rest : Bytes) : ∃ b tail, d.sep ++ rest = b :: tail ∧ isspace b := by
  obtain ⟨hne, hspace⟩ := d.sep_space
  obtain ⟨b, tail, hsep⟩ := List.exists_cons_of_ne_nil hne
  exact ⟨b, tail ++ rest, by rw [hsep, List.cons_append], hspace b (by simp [hsep])⟩

theorem name_head (rest : Bytes) : ∀ b ∈ (d.name ++ rest).head?, isspace b = false := by
  obtain ⟨hne, hgraph⟩ := d.name_graph
  obtain ⟨b, tail, hname⟩ := List.exists_cons_of_ne_nil hne
  rw [hname]
  intro other hother
  obtain rfl : b = other := by simpa using hother
  exact isspace_eq_false_of_isgraph (hgraph b (by simp [hname]))

end Directive

/-- Both patterns have this shape. -/
def directivePat (word : Bytes) (cls : UInt8 → Bool) : Regex UInt8 where
  items := [.many isspace, .lit (bytes "#"), .many isspace, .lit word,
    .plus isspace, .plus isgraph, .many cls]
  atStart := true
  atEnd := true

theorem cmakedefPat_eq : cmakedefPat = directivePat (bytes "cmakedefine") isany := rfl

theorem cmakedef01Pat_eq : cmakedef01Pat = directivePat (bytes "cmakedefine01") isspace := rfl

/-- What a directive pattern matches. -/
structure Fits (word : Bytes) (cls : UInt8 → Bool) (line a b c n r : Bytes) : Prop where
  a_space : ∀ x ∈ a, isspace x
  b_space : ∀ x ∈ b, isspace x
  c_space : c ≠ [] ∧ ∀ x ∈ c, isspace x
  n_graph : n ≠ [] ∧ ∀ x ∈ n, isgraph x
  r_cls : ∀ x ∈ r, cls x
  line_eq : line = [a, bytes "#", b, word, c, n, r].flatten

theorem fitsAt_iff {words : List Bytes} : FitsAt (directivePat word cls) line words ↔
    ∃ a b c n r, words = [a, bytes "#", b, word, c, n, r] ∧ Fits word cls line a b c n r := by
  constructor
  · rintro ⟨hparse, hfront, hreaches⟩
    have hline := hfront.eq_of_length (hreaches rfl)
    simp only [directivePat, Parse, List.forall₂_cons_left_iff, List.forall₂_nil_left_iff,
      Item.Accepts] at hparse
    obtain ⟨a, _, ha, ⟨_, _, rfl, ⟨b, _, hb, ⟨_, _, rfl, ⟨c, _, hc, ⟨n, _, hn, ⟨r, _, hr, rfl,
      rfl⟩, rfl⟩, rfl⟩, rfl⟩, rfl⟩, rfl⟩, rfl⟩ := hparse
    exact ⟨a, b, c, n, r, rfl, ha, hb, hc, hn, hr, hline.symm⟩
  · rintro ⟨a, b, c, n, r, rfl, ha, hb, hc, hn, hr, rfl⟩
    refine ⟨?_, List.prefix_rfl, fun _ ↦ rfl⟩
    simp only [directivePat, Parse, List.forall₂_cons, Item.Accepts, List.Forall₂.nil, true_and,
      and_true]
    exact ⟨ha, hb, hc, hn, hr⟩

theorem sharp_head (rest : Bytes) : ∀ x ∈ (bytes "#" ++ rest).head?, isspace x = false := by
  intro x hx
  obtain rfl : 0x23 = x := by simpa [bytes] using hx
  decide

/-- The words of a directive are those of every match, but for how long the name is. -/
theorem Fits.eq_words {d : Directive} {a b c n r : Bytes}
    (hword : ∀ rest, ∀ x ∈ (word ++ rest).head?, isspace x = false)
    (h : Fits word cls (d.text word) a b c n r) :
    a = d.indent ∧ b = d.gap ∧ c = d.sep ∧ n <+: d.name ∧ n ++ r = d.name ++ d.rest := by
  have hline := h.line_eq
  simp only [Directive.text, Directive.words, List.flatten_cons, List.flatten_nil,
    List.append_nil] at hline
  obtain ⟨hindent, hline⟩ := eq_of_run d.indent_space h.a_space (sharp_head _) (sharp_head _) hline
  obtain ⟨hgap, hline⟩ := eq_of_run d.gap_space h.b_space (hword _) (hword _)
    (List.append_cancel_left hline)
  have hn : ∀ x ∈ (n ++ r).head?, isspace x = false := by
    obtain ⟨x, tail, hname⟩ := List.exists_cons_of_ne_nil h.n_graph.1
    rw [hname]
    intro y hy
    obtain rfl : x = y := by simpa using hy
    exact isspace_eq_false_of_isgraph (h.n_graph.2 x (by simp [hname]))
  obtain ⟨hsep, hline⟩ := eq_of_run d.sep_space.2 h.c_space.2 (d.name_head _) hn
    (List.append_cancel_left hline)
  refine ⟨hindent.symm, hgap.symm, hsep.symm, ?_, hline.symm⟩
  rw [← takeWhile_run d.name_graph.2 d.rest_behind, prefix_takeWhile_iff, hline]
  exact ⟨h.n_graph.2, List.prefix_append _ _⟩

theorem fits_text (d : Directive) (hrest : ∀ x ∈ d.rest, cls x) :
    Fits word cls (d.text word) d.indent d.gap d.sep d.name d.rest :=
  ⟨d.indent_space, d.gap_space, d.sep_space, d.name_graph, hrest, rfl⟩

/-- The match of a directive. -/
theorem exec_text (d : Directive) (hword : ∀ rest, ∀ x ∈ (word ++ rest).head?, isspace x = false)
    (hrest : ∀ x ∈ d.rest, cls x) :
    exec (directivePat word cls) (d.text word) = some (d.found word) := by
  have hmatch : matchAt (directivePat word cls) (d.text word) = some (d.words word) := by
    apply matchAt_eq_of_preferred rfl
    · exact fitsAt_iff.2 ⟨_, _, _, _, _, rfl, fits_text d hrest⟩
    · intro words hwords hpreferred
      obtain ⟨a, b, c, n, r, rfl, hfits⟩ := fitsAt_iff.1 hwords
      obtain ⟨rfl, rfl, rfl, hname, hbehind⟩ := hfits.eq_words hword
      -- only the name may still differ, and it is not shorter than the other one
      have hnotLonger : ¬d.name.length < n.length := Nat.not_lt.2 hname.length_le
      simp only [Directive.words, Preferred, List.cons_lex_cons_iff, lt_irrefl, false_or,
        true_and, hnotLonger, List.not_lex_nil, and_false, or_false] at hpreferred
      obtain ⟨rfl, hlonger⟩ := hpreferred
      rw [List.append_cancel_left hbehind] at hlonger
      exact lt_irrefl _ hlonger
  rw [exec, if_pos (show (directivePat word cls).atStart = true from rfl), hmatch, Option.map_some]
  rfl

/-- A line that matches is a directive. -/
theorem exists_directive (h : exec (directivePat word cls) line ≠ none) :
    ∃ d : Directive, line = d.text word ∧ ∀ x ∈ d.rest, cls x := by
  obtain ⟨found, hfound⟩ := Option.ne_none_iff_exists'.1 h
  obtain ⟨-, hfits⟩ := exec_fits hfound
  have hstart : found.start = 0 := by
    rw [exec, if_pos (show (directivePat word cls).atStart = true from rfl)] at hfound
    obtain ⟨words, -, rfl⟩ := Option.map_eq_some_iff.1 hfound
    rfl
  rw [hstart, List.drop_zero] at hfits
  obtain ⟨a, b, c, n, r, -, hfits⟩ := fitsAt_iff.1 hfits
  have hbehind : ∀ x ∈ (r.dropWhile isgraph).head?, isgraph x = false := by
    intro x hx
    have hnot := List.head?_dropWhile_not isgraph r
    rw [Option.mem_def.1 hx] at hnot
    exact hnot
  refine ⟨⟨a, b, c, n ++ r.takeWhile isgraph, r.dropWhile isgraph, hfits.a_space, hfits.b_space,
    hfits.c_space, ⟨by simp [hfits.n_graph.1], ?_⟩, hbehind⟩, ?_, ?_⟩
  · intro x hx
    rcases List.mem_append.1 hx with hx | hx
    · exact hfits.n_graph.2 x hx
    · exact List.all_eq_true.1 List.all_takeWhile x hx
  · apply hfits.line_eq.trans
    simp only [Directive.text, Directive.words, List.flatten_cons, List.flatten_nil,
      List.append_nil, List.append_assoc,
      List.takeWhile_append_dropWhile]
  · exact fun x hx ↦ hfits.r_cls x ((List.dropWhile_sublist isgraph).subset hx)

theorem word_head (rest : Bytes) :
    (∀ x ∈ (bytes "cmakedefine" ++ rest).head?, isspace x = false) ∧
      ∀ x ∈ (bytes "cmakedefine01" ++ rest).head?, isspace x = false := by
  constructor <;>
  · intro x hx
    obtain rfl : 0x63 = x := by simpa [bytes] using hx
    decide

/-! ## What a line becomes -/

theorem not_mem_rest {d : Directive} (h : NUL ∉ d.text word) : ∀ b ∈ d.rest, isany b := by
  intro b hb
  rw [isany, bne_iff_ne]
  rintro rfl
  exact h (List.mem_flatten.2 ⟨d.rest, by simp [Directive.words], hb⟩)

/-- The submatches of a directive. -/
theorem submatches (d : Directive) (word : Bytes) :
    (d.text word).take ((d.found word).so 3) = d.indent ++ bytes "#" ++ d.gap ∧
      (d.text word).drop ((d.found word).eo 3) = d.sep ++ d.name ++ d.rest ∧
      slice (d.text word) ((d.found word).so 5) ((d.found word).eo 5) = d.name ∧
      (d.text word).drop ((d.found word).eo 5) = d.rest := by
  have hsplit (before after : List Bytes) (h : d.words word = before ++ after) :
      (d.text word).take (0 + before.flatten.length) = before.flatten ∧
        (d.text word).drop (0 + before.flatten.length) = after.flatten := by
    rw [Directive.text, h, List.flatten_append, Nat.zero_add]
    exact ⟨List.take_left, List.drop_left⟩
  refine ⟨?_, ?_, ?_, ?_⟩
  · exact (hsplit [d.indent, bytes "#", d.gap] [word, d.sep, d.name, d.rest] rfl).1.trans
      (by simp)
  · exact (hsplit [d.indent, bytes "#", d.gap, word] [d.sep, d.name, d.rest] rfl).2.trans
      (by simp)
  · have hname := (hsplit [d.indent, bytes "#", d.gap, word, d.sep] [d.name, d.rest] rfl).2
    have hlength : (d.found word).eo 5 - (d.found word).so 5 = d.name.length := by
      simp only [Directive.found, Match.so, Match.eo, Directive.words, List.take_succ_cons,
        List.take_zero, List.flatten_cons, List.flatten_nil, List.length_append, List.length_nil]
      omega
    rw [slice, hlength]
    exact (congrArg (List.take d.name.length) hname).trans (by simp)
  · exact (hsplit [d.indent, bytes "#", d.gap, word, d.sep, d.name] [d.rest] rfl).2.trans
      (by simp)

/-- Behind the longer word there is a digit where the shorter one ends. -/
theorem text_ne (d other : Directive) :
    d.text (bytes "cmakedefine") ≠ other.text (bytes "cmakedefine01") := by
  intro h
  have hsplit : bytes "cmakedefine01" = bytes "cmakedefine" ++ bytes "01" := by decide
  simp only [Directive.text, Directive.words, List.flatten_cons, hsplit, List.append_assoc] at h
  have hindent := eq_of_run d.indent_space other.indent_space (sharp_head _) (sharp_head _) h
  have hgap := eq_of_run d.gap_space other.gap_space (word_head _).1 (word_head _).1
    (List.append_cancel_left hindent.2)
  have hbehind := List.append_cancel_left hgap.2
  obtain ⟨b, tail, hsep, hspace⟩ := d.sep_head (d.name ++ (d.rest ++ [].flatten))
  rw [hsep] at hbehind
  obtain rfl : b = 0x30 := (List.cons.inj hbehind).1
  exact absurd hspace (by decide)

/-- The rules by which a line is translated. -/
structure Translated (dict : Dictionary) (line : Bytes) : Prop where
  define : ∀ d : Directive, line = d.text (bytes "cmakedefine") →
    doReplaceCmakedef dict line =
      if dict.get d.name = none then bytes "/* #undef " ++ d.name ++ bytes " */\n"
      else d.text (bytes "define")
  define01 : ∀ d : Directive, line = d.text (bytes "cmakedefine01") → (∀ b ∈ d.rest, isspace b) →
    doReplaceCmakedef dict line = bytes "#define " ++ d.name ++
      (if dict.get d.name = none then bytes " 0" else bytes " 1") ++ d.rest
  other : (∀ d : Directive, line ≠ d.text (bytes "cmakedefine")) →
    (∀ d : Directive, line = d.text (bytes "cmakedefine01") → ¬∀ b ∈ d.rest, isspace b) →
    doReplaceCmakedef dict line = line
  disjoint : ∀ d other : Directive, line = d.text (bytes "cmakedefine") →
    line ≠ other.text (bytes "cmakedefine01")

theorem exec_cmakedef (d : Directive) (hnul : NUL ∉ d.text (bytes "cmakedefine")) :
    exec cmakedefPat (d.text (bytes "cmakedefine")) = some (d.found (bytes "cmakedefine")) := by
  rw [cmakedefPat_eq]
  exact exec_text d (fun rest ↦ (word_head rest).1) (not_mem_rest hnul)

theorem exec_cmakedef_eq_none (h : ∀ d : Directive, line ≠ d.text (bytes "cmakedefine")) :
    exec cmakedefPat line = none := by
  rw [cmakedefPat_eq]
  by_contra hsome
  obtain ⟨d, hline, -⟩ := exists_directive hsome
  exact h d hline

theorem exec_cmakedef01 (d : Directive) (hrest : ∀ b ∈ d.rest, isspace b) :
    exec cmakedefPat (d.text (bytes "cmakedefine01")) = none ∧
      exec cmakedef01Pat (d.text (bytes "cmakedefine01")) =
        some (d.found (bytes "cmakedefine01")) := by
  refine ⟨exec_cmakedef_eq_none fun other h ↦ text_ne other d h.symm, ?_⟩
  rw [cmakedef01Pat_eq]
  exact exec_text d (fun rest ↦ (word_head rest).2) hrest

theorem exec_cmakedef01_eq_none (h : ∀ d : Directive, line = d.text (bytes "cmakedefine01") →
    ¬∀ b ∈ d.rest, isspace b) : exec cmakedef01Pat line = none := by
  rw [cmakedef01Pat_eq]
  by_contra hsome
  obtain ⟨d, hline, hrest⟩ := exists_directive hsome
  exact h d hline hrest

/-- Every C string is translated by the rules. -/
theorem translated (dict : Dictionary) (line : Bytes) (hnul : NUL ∉ line) :
    Translated dict line where
  define d hline := by
    subst hline
    obtain ⟨hfront, hbehind, hname, -⟩ := submatches d (bytes "cmakedefine")
    rw [doReplaceCmakedef, exec_cmakedef d hnul]
    dsimp only
    rw [hname, hfront, hbehind, getValue]
    cases hvalue : dict.get d.name with
    | none => rfl
    | some value => simp [Directive.text, Directive.words]
  define01 d hline hrest := by
    subst hline
    obtain ⟨-, -, hname, hbehind⟩ := submatches d (bytes "cmakedefine01")
    obtain ⟨hnone, hsome⟩ := exec_cmakedef01 d hrest
    rw [doReplaceCmakedef, hnone]
    dsimp only
    rw [hsome]
    dsimp only
    rw [hname, hbehind, getValue]
    cases hvalue : dict.get d.name with
    | none => rfl
    | some value => rfl
  other hdefine hdefine01 := by
    apply doReplaceCmakedef_of_noDirective
    exact ⟨exec_cmakedef_eq_none hdefine, exec_cmakedef01_eq_none hdefine01⟩
  disjoint d other hline := fun h ↦ text_ne d other (hline.symm.trans h)

theorem translated_undef : Translated .unset (bytes "#cmakedefine A b\n") :=
  translated .unset (bytes "#cmakedefine A b\n") (by decide)

/-- What is allocated, and how many bytes of it are used. -/
structure Allocation where
  size : ℕ
  stored : ℕ

/-- The buffer of each case; a line that is no directive is duplicated. -/
def allocation (dict : Dictionary) (line : Bytes) : Allocation :=
  match exec cmakedefPat line with
  | some found =>
    let nameLen := found.eo 5 - found.so 5
    match getValue dict (slice line (found.so 5) (found.eo 5)) with
    | some _ => ⟨line.length - 5, found.so 3 + 6 + (line.length - found.eo 3 + 1)⟩
    | none => ⟨nameLen + 14, 10 + nameLen + 5⟩
  | none =>
    match exec cmakedef01Pat line with
    | some found =>
      let nameLen := found.eo 5 - found.so 5
      ⟨line.length, 8 + nameLen + 2 + (line.length + 1 - found.eo 5)⟩
    | none => ⟨line.length + 1, line.length + 1⟩

/-- The bytes used are those of the result and its terminator. -/
theorem stored_eq (dict : Dictionary) (line : Bytes) :
    (allocation dict line).stored = (doReplaceCmakedef dict line).length + 1 := by
  rw [allocation, doReplaceCmakedef]
  cases hdefine : exec cmakedefPat line with
  | some found =>
    have hso := (found.so_le_eo 3).trans (eo_le_length hdefine 3)
    have hname := length_slice (eo_le_length hdefine 5) (s := found.so 5)
    dsimp only
    cases getValue dict (slice line (found.so 5) (found.eo 5)) with
    | some value =>
      simp only [List.length_append, List.length_take, List.length_drop,
        show (bytes "define").length = 6 from rfl]
      omega
    | none =>
      simp only [List.length_append, hname, show (bytes "/* #undef ").length = 10 from rfl,
        show (bytes " */\n").length = 4 from rfl]
  | none =>
    cases hdefine01 : exec cmakedef01Pat line with
    | some found =>
      have heo := eo_le_length hdefine01 5
      have hname := length_slice heo (s := found.so 5)
      dsimp only
      cases getValue dict (slice line (found.so 5) (found.eo 5)) with
      | some value | none =>
        simp only [List.length_append, List.length_drop, hname,
          show (bytes "#define ").length = 8 from rfl, show (bytes " 1").length = 2 from rfl,
          show (bytes " 0").length = 2 from rfl]
        omega
    | none => rfl

/-- Where the submatches are. -/
theorem offsets (d : Directive) (word : Bytes) :
    (d.found word).eo 3 = (d.found word).so 3 + word.length ∧
      (d.found word).so 5 = (d.found word).eo 3 + d.sep.length ∧
      (d.found word).eo 5 = (d.found word).so 5 + d.name.length ∧
      0 < (d.found word).so 3 ∧ (d.found word).eo 5 ≤ (d.text word).length := by
  simp only [Directive.found, Match.so, Match.eo, Directive.words, Directive.text,
    List.take_succ_cons, List.take_zero, List.flatten_cons, List.flatten_nil, List.length_append,
    List.length_nil, show (bytes "#").length = 1 from rfl]
  omega

/-- A directive of the first form is stored one byte behind its buffer. -/
theorem size_lt_stored (d : Directive) (hnul : NUL ∉ d.text (bytes "cmakedefine")) :
    (allocation dict (d.text (bytes "cmakedefine"))).size <
      (allocation dict (d.text (bytes "cmakedefine"))).stored := by
  obtain ⟨heo, hso, hname, hpos, hlength⟩ := offsets d (bytes "cmakedefine")
  have hword : (bytes "cmakedefine").length = 11 := rfl
  rw [allocation, exec_cmakedef d hnul]
  dsimp only
  cases getValue dict (slice (d.text (bytes "cmakedefine")) ((d.found (bytes "cmakedefine")).so 5)
    ((d.found (bytes "cmakedefine")).eo 5)) with
  | some value =>
    dsimp only
    omega
  | none =>
    dsimp only
    omega

/-- The buffer is large enough for every line but those of the first form. -/
theorem stored_le_iff (dict : Dictionary) (line : Bytes) (hnul : NUL ∉ line) :
    (allocation dict line).stored ≤ (allocation dict line).size ↔
      ∀ d : Directive, line ≠ d.text (bytes "cmakedefine") := by
  constructor
  · rintro hroom d rfl
    exact absurd hroom (Nat.not_le.2 (size_lt_stored d hnul))
  · intro hdefine
    rw [allocation, exec_cmakedef_eq_none hdefine]
    dsimp only
    by_cases hdefine01 : ∃ d : Directive, line = d.text (bytes "cmakedefine01") ∧
      ∀ b ∈ d.rest, isspace b
    · obtain ⟨d, rfl, hrest⟩ := hdefine01
      obtain ⟨heo, hso, hname, hpos, hlength⟩ := offsets d (bytes "cmakedefine01")
      have hword : (bytes "cmakedefine01").length = 13 := rfl
      rw [(exec_cmakedef01 d hrest).2]
      dsimp only
      omega
    · rw [exec_cmakedef01_eq_none fun d hline hrest ↦ hdefine01 ⟨d, hline, hrest⟩]

/-- A directive of the second form. -/
theorem stored_le_iff_define01 :
    (allocation .unset (bytes "#cmakedefine01 A\n")).stored ≤
        (allocation .unset (bytes "#cmakedefine01 A\n")).size ↔
      ∀ d : Directive, bytes "#cmakedefine01 A\n" ≠ d.text (bytes "cmakedefine") :=
  stored_le_iff .unset (bytes "#cmakedefine01 A\n") (by decide)

/-- The shortest buffer for an undefined name. -/
theorem undef_not_stored :
    ¬(allocation .unset (bytes "#cmakedefine A\n")).stored ≤
      (allocation .unset (bytes "#cmakedefine A\n")).size := by
  decide +kernel

end Vodka.Genconfig.Cmakedef
