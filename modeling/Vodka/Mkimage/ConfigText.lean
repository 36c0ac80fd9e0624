import Mathlib.Data.List.TakeWhile
import Mathlib.Tactic
import Vodka.Foundation.LineBuffer
import Vodka.Mkimage.Directives

/-!
# The configuration file as text

`build_conf` reads the file into a buffer with room for 255 bytes and drops
leading white space, comments and newlines from what it reads each time. A line
is handled as a whole exactly when, once the pieces of white space at its start
are passed over, it is one piece, or all its pieces are comments or white space.
Behind the first line that is rejected nothing is read.
-/

namespace Vodka.Mkimage.ConfigText

open Foundation.LineBuffer Foundation.Scanf Config Directives

def newline : UInt8 := 0x0a

/-- The size of `buffer` in `build_conf` -/
def BUFFER_SIZE : ℕ := 256

/-- A string up to its terminating NUL. -/
def cString (buffer : List UInt8) : List UInt8 := buffer.takeWhile fun b ↦ b != 0

/-- The loop body of `build_conf` up to the call of `parse_config_line`: the line, unless the body
continues before. -/
def configText (buffer : List UInt8) : Option (List UInt8) :=
  let line := ltrim (cString buffer)
  if line.head? = some 0x23 ∨ line = [] then none
  else if line.getLast? = some newline then some line.dropLast
  else some line

/-- `build_conf`, with the parser of a line. -/
def buildConf {σ : Type} (parseConfigLine : σ → List UInt8 → Except Failure σ) (state : σ)
    (fconf : List UInt8) : Except Failure σ :=
  (pieces newline (BUFFER_SIZE - 1) fconf).foldlM (fun state buffer ↦
    match configText buffer with
    | some line => parseConfigLine state line
    | none => pure state) state

theorem buildConf_eq {σ : Type} (parseConfigLine : σ → List UInt8 → Except Failure σ) (state : σ)
    (fconf : List UInt8) :
    buildConf parseConfigLine state fconf =
      ((pieces newline (BUFFER_SIZE - 1) fconf).filterMap configText).foldlM parseConfigLine
        state := by
  rw [List.foldlM_filterMap, buildConf]
  congr 1
  funext state buffer
  cases configText buffer <;> rfl

/-- Lines that are parsed without an error are directives that are applied without one. -/
theorem exists_directives_of_lines {allocates : ℕ → Bool}
    {files : String → Except ℤ (List UInt8)} {lines : List (List UInt8)} {state final : State}
    (h : lines.foldlM (parseConfigLine allocates files) state = .ok final) :
    ∃ directives : List Directive,
      directives.foldlM (applyDirective allocates files) state = .ok final := by
  induction lines generalizing state with
  | nil => exact ⟨[], h⟩
  | cons line lines ih =>
    rw [List.foldlM_cons] at h
    obtain ⟨next, hline, hrest⟩ := exists_of_bind_ok h
    obtain ⟨directive, -, happly⟩ := exists_of_bind_ok hline
    obtain ⟨directives, hdirectives⟩ := ih hrest
    refine ⟨directive :: directives, ?_⟩
    rw [List.foldlM_cons, happly]
    exact hdirectives

/-- A configuration that is built is built from directives. -/
theorem exists_directives {allocates : ℕ → Bool} {files : String → Except ℤ (List UInt8)}
    {fconf : List UInt8} {final : State}
    (h : buildConf (parseConfigLine allocates files) initialState fconf = .ok final) :
    ∃ directives, Config.buildConf allocates files directives = .ok final := by
  rw [buildConf_eq] at h
  exact exists_directives_of_lines h

/-- What is parsed of a whole line, if anything. -/
def lineText (line : List UInt8) : Option (List UInt8) :=
  let line := ltrim line
  if line.head? = some 0x23 ∨ line = [] then none else some line

/-- The lines of the file one by one. -/
def byLine {σ : Type} (parseConfigLine : σ → List UInt8 → Except Failure σ) (state : σ)
    (fconf : List UInt8) : Except Failure σ :=
  (fconf.splitOn newline).foldlM (fun state line ↦
    match lineText line with
    | some line => parseConfigLine state line
    | none => pure state) state

theorem byLine_eq {σ : Type} (parseConfigLine : σ → List UInt8 → Except Failure σ) (state : σ)
    (fconf : List UInt8) :
    byLine parseConfigLine state fconf =
      ((fconf.splitOn newline).filterMap lineText).foldlM parseConfigLine state := by
  rw [List.foldlM_filterMap, byLine]
  congr 1
  funext state line
  cases lineText line <;> rfl

/-- The lines up to the first one that is rejected. -/
def linesRead {σ : Type} (parseConfigLine : σ → List UInt8 → Except Failure σ) :
    σ → List (List UInt8) → List (List UInt8)
  | _, [] => []
  | state, line :: lines =>
    line :: match (lineText line).toList.foldlM parseConfigLine state with
      | .ok next => linesRead parseConfigLine next lines
      | .error _ => []

/-- White space or a comment. -/
def Skipped (piece : List UInt8) : Prop :=
  ltrim piece = [] ∨ (ltrim piece).head? = some 0x23

/-- Behind the pieces of white space at the start there is at most one piece, or nothing but white
space and comments. -/
def PiecesOk (parts : List (List UInt8)) : Prop :=
  (parts.dropWhile fun piece ↦ decide (ltrim piece = [])).length ≤ 1 ∨
    ∀ piece ∈ parts.dropWhile fun piece ↦ decide (ltrim piece = []), Skipped piece

/-- The condition on the pieces of 255 bytes of a line. -/
def LineOk (line : List UInt8) : Prop := PiecesOk (pieces newline (BUFFER_SIZE - 1) line)

instance : DecidablePred Skipped := fun _ ↦ inferInstanceAs (Decidable (_ ∨ _))

instance : DecidablePred PiecesOk := fun _ ↦ inferInstanceAs (Decidable (_ ∨ _))

instance : DecidablePred LineOk := fun line ↦
  inferInstanceAs (Decidable (PiecesOk (pieces newline (BUFFER_SIZE - 1) line)))

section Lines

variable {line piece rest : List UInt8} {parts : List (List UInt8)}

theorem lineText_eq_none_iff : lineText piece = none ↔ Skipped piece := by
  simp only [lineText, Skipped]
  split_ifs with h
  · exact iff_of_true rfl h.symm
  · exact iff_of_false (by simp) fun hskipped ↦ h hskipped.symm

theorem ltrim_append (h : ltrim piece ≠ []) (rest : List UInt8) :
    ltrim (piece ++ rest) = ltrim piece ++ rest := by
  induction piece with
  | nil => exact absurd rfl h
  | cons b piece ih =>
    by_cases hb : isSpace b = true
    · simp only [ltrim, List.cons_append, List.dropWhile_cons, hb, if_true] at ih h ⊢
      exact ih h
    · simp [ltrim, hb]

theorem ltrim_append_of_blank (h : ltrim piece = []) (rest : List UInt8) :
    ltrim (piece ++ rest) = ltrim rest := by
  apply List.dropWhile_append_of_pos
  exact fun b hb ↦ List.dropWhile_eq_nil_iff.mp h b hb

theorem lineText_append_of_blank (h : ltrim piece = []) (rest : List UInt8) :
    lineText (piece ++ rest) = lineText rest := by
  simp only [lineText, ltrim_append_of_blank h]

/-- A comment stays one when something follows. -/
theorem lineText_append_of_comment (h : (ltrim piece).head? = some 0x23) (rest : List UInt8) :
    lineText (piece ++ rest) = none := by
  have hne : ltrim piece ≠ [] := by
    intro hempty
    simp [hempty] at h
  rw [lineText_eq_none_iff, Skipped, ltrim_append hne, List.head?_append_of_ne_nil _ hne]
  exact .inr h

/-- Any other text is parsed with what follows. -/
theorem lineText_append_of_text (h : ¬ Skipped piece) (rest : List UInt8) :
    lineText (piece ++ rest) = some (ltrim piece ++ rest) := by
  obtain ⟨hne, hhead⟩ := not_or.mp h
  simp only [lineText, ltrim_append hne, List.head?_append_of_ne_nil _ hne]
  rw [if_neg]
  simp [hne, hhead]

/-- The pieces are handled like the line exactly in these cases. -/
theorem filterMap_lineText_eq_iff (hne : ∀ piece ∈ parts, piece ≠ []) :
    parts.filterMap lineText = (lineText parts.flatten).toList ↔ PiecesOk parts := by
  induction parts with
  | nil => simp [lineText, ltrim, PiecesOk]
  | cons piece parts ih =>
    have hparts : ∀ piece ∈ parts, piece ≠ [] := fun other hother ↦
      hne other (List.mem_cons_of_mem _ hother)
    by_cases hblank : ltrim piece = []
    · have hnone : lineText piece = none := lineText_eq_none_iff.mpr (.inl hblank)
      rw [List.filterMap_cons_none hnone, List.flatten_cons, lineText_append_of_blank hblank,
        ih hparts]
      simp [PiecesOk, hblank]
    · have hok : PiecesOk (piece :: parts) ↔
          parts = [] ∨ ∀ other ∈ piece :: parts, Skipped other := by
        simp [PiecesOk, hblank]
      rw [hok, List.flatten_cons]
      by_cases hskipped : Skipped piece
      · have hnone : lineText piece = none := lineText_eq_none_iff.mpr hskipped
        have hcomment := hskipped.resolve_left hblank
        rw [List.filterMap_cons_none hnone, lineText_append_of_comment hcomment,
          Option.toList_none, List.filterMap_eq_nil_iff]
        simp only [lineText_eq_none_iff, List.forall_mem_cons]
        constructor
        · exact fun h ↦ .inr ⟨hskipped, h⟩
        · rintro (rfl | ⟨-, h⟩)
          · simp
          · exact h
      · have hsome : lineText piece = some (ltrim piece) := by
          simpa using lineText_append_of_text hskipped []
        rw [List.filterMap_cons_some hsome, lineText_append_of_text hskipped, Option.toList_some]
        constructor
        · intro h
          obtain ⟨hhead, -⟩ := List.cons.inj h
          have hflatten : parts.flatten = [] := by
            simpa using hhead
          left
          by_contra hrest
          obtain ⟨other, others, rfl⟩ := List.exists_cons_of_ne_nil hrest
          exact hparts other List.mem_cons_self (List.append_eq_nil_iff.mp hflatten).1
        · rintro (rfl | h)
          · simp
          · exact absurd (h piece List.mem_cons_self) hskipped

/-- A line is handled at most once, and nothing of it is lost without a comment in front. -/
theorem length_lineText_le (parts : List (List UInt8)) :
    (lineText parts.flatten).toList.length ≤ (parts.filterMap lineText).length := by
  induction parts with
  | nil => simp [lineText, ltrim]
  | cons piece parts ih =>
    by_cases hblank : ltrim piece = []
    · have hnone : lineText piece = none := lineText_eq_none_iff.mpr (.inl hblank)
      rw [List.filterMap_cons_none hnone, List.flatten_cons, lineText_append_of_blank hblank]
      exact ih
    · by_cases hskipped : Skipped piece
      · rw [List.flatten_cons, lineText_append_of_comment (hskipped.resolve_left hblank)]
        exact Nat.zero_le _
      · have hsome : lineText piece = some (ltrim piece) := by
          simpa using lineText_append_of_text hskipped []
        rw [List.filterMap_cons_some hsome, List.flatten_cons, lineText_append_of_text hskipped,
          Option.toList_some]
        simp

/-! ## From the buffer to the lines -/

theorem cString_eq_self (h : (0 : UInt8) ∉ piece) : cString piece = piece := by
  apply List.takeWhile_eq_self_iff.mpr
  intro b hb
  rw [bne_iff_ne]
  rintro rfl
  exact h hb

theorem configText_of_not_mem (hnewline : newline ∉ piece) (hnul : (0 : UInt8) ∉ piece) :
    configText piece = lineText piece := by
  have hlast : (ltrim piece).getLast? ≠ some newline := fun hlast ↦
    hnewline ((List.dropWhile_suffix _).subset (List.mem_of_getLast? hlast))
  simp only [configText, lineText, cString_eq_self hnul, if_neg hlast]

/-- The newline at the end makes no difference. -/
theorem configText_append_newline (hnul : (0 : UInt8) ∉ piece) :
    configText (piece ++ [newline]) = lineText piece := by
  have hnul' : (0 : UInt8) ∉ piece ++ [newline] := by
    rw [List.mem_append, not_or]
    exact ⟨hnul, by decide⟩
  by_cases hblank : ltrim piece = []
  · have hempty : ltrim (piece ++ [newline]) = [] := by
      rw [ltrim_append_of_blank hblank]
      rfl
    simp only [configText, lineText, cString_eq_self hnul', hempty, hblank, or_true, if_true]
  · simp only [configText, lineText, cString_eq_self hnul', ltrim_append hblank,
      List.head?_append_of_ne_nil _ hblank]
    simp [hblank]

theorem room_pos : 0 < BUFFER_SIZE - 1 := by decide

theorem filterMap_configText_line (hnewline : newline ∉ line) (hnul : (0 : UInt8) ∉ line) :
    (pieces newline (BUFFER_SIZE - 1) (line ++ [newline])).filterMap configText =
      (pieces newline (BUFFER_SIZE - 1) line).filterMap lineText := by
  induction hlength : line.length using Nat.strong_induction_on generalizing line with
  | _ length ih =>
    rw [pieces_line room_pos hnewline]
    split_ifs with hfits
    · rw [pieces_nil, List.filterMap_cons, configText_append_newline hnul]
      by_cases hempty : line = []
      · subst hempty
        rfl
      · rw [pieces_of_not_mem room_pos hnewline hempty, List.take_of_length_le hfits.le,
          List.drop_of_length_le hfits.le, pieces_nil, List.filterMap_cons]
        rfl
    · have hempty : line ≠ [] := by
        rintro rfl
        exact hfits room_pos
      have hshorter : (line.drop (BUFFER_SIZE - 1)).length < length := by
        have hpos := room_pos
        rw [List.length_drop]
        omega
      have hhead : configText (line.take (BUFFER_SIZE - 1)) =
          lineText (line.take (BUFFER_SIZE - 1)) :=
        configText_of_not_mem (fun h ↦ hnewline (List.mem_of_mem_take h))
          fun h ↦ hnul (List.mem_of_mem_take h)
      rw [pieces_of_not_mem room_pos hnewline hempty, List.filterMap_cons, List.filterMap_cons,
        hhead, ih _ hshorter (fun h ↦ hnewline (List.mem_of_mem_drop h))
          (fun h ↦ hnul (List.mem_of_mem_drop h)) rfl]

end Lines

/-- What is parsed of a file is what is parsed of the pieces of its lines. -/
theorem filterMap_configText {fconf : List UInt8} (hnul : (0 : UInt8) ∉ fconf) :
    (pieces newline (BUFFER_SIZE - 1) fconf).filterMap configText =
      (fconf.splitOn newline).flatMap fun line ↦
        (pieces newline (BUFFER_SIZE - 1) line).filterMap lineText := by
  obtain ⟨lines, last, hsplit, hpieces, hlines⟩ :=
    pieces_splitOn newline room_pos fconf
  have hfree : ∀ line ∈ lines ++ [last], (0 : UInt8) ∉ line := fun line hline hmem ↦
    hnul ((hlines line hline).2 0 hmem)
  have hlast : (pieces newline (BUFFER_SIZE - 1) last).filterMap configText =
      (pieces newline (BUFFER_SIZE - 1) last).filterMap lineText := by
    apply List.filterMap_congr
    intro piece hpiece
    have hkept : ∀ b ∈ piece, b ∈ last := by
      intro b hb
      rw [← flatten_pieces newline room_pos last]
      exact List.mem_flatten.mpr ⟨piece, hpiece, hb⟩
    have hmem : last ∈ lines ++ [last] := by simp
    exact configText_of_not_mem (fun h ↦ (hlines last hmem).1 (hkept _ h))
      fun h ↦ hfree last hmem (hkept _ h)
  have hfirst : (lines.flatMap fun line ↦
        (pieces newline (BUFFER_SIZE - 1) (line ++ [newline])).filterMap configText) =
      lines.flatMap fun line ↦ (pieces newline (BUFFER_SIZE - 1) line).filterMap lineText := by
    apply List.flatMap_congr
    intro line hline
    have hmem : line ∈ lines ++ [last] := List.mem_append_left _ hline
    exact filterMap_configText_line (hlines line hmem).1 (hfree line hmem)
  rw [hsplit, hpieces, List.filterMap_append, List.filterMap_flatMap, hfirst, hlast,
    List.flatMap_append, List.flatMap_singleton]

section Blocks

variable {α β : Type} {f g : α → List β} {items : List α}

theorem length_flatMap_le (hle : ∀ a ∈ items, (g a).length ≤ (f a).length) :
    (items.flatMap g).length ≤ (items.flatMap f).length := by
  rw [List.length_flatMap, List.length_flatMap]
  exact List.sum_le_sum hle

/-- Lists joined from blocks of which none is shorter are equal block by block. -/
theorem eq_of_flatMap_eq (hle : ∀ a ∈ items, (g a).length ≤ (f a).length)
    (h : items.flatMap f = items.flatMap g) : ∀ a ∈ items, f a = g a := by
  induction items with
  | nil => simp
  | cons first items ih =>
    have hrest : ∀ a ∈ items, (g a).length ≤ (f a).length := fun a ha ↦
      hle a (List.mem_cons_of_mem _ ha)
    have hfirst := hle first List.mem_cons_self
    have hlength := congrArg List.length h
    have htail := length_flatMap_le hrest
    rw [List.flatMap_cons, List.flatMap_cons] at h
    rw [List.flatMap_cons, List.flatMap_cons, List.length_append, List.length_append] at hlength
    obtain ⟨hhead, hjoined⟩ := List.append_inj h (by omega)
    exact List.forall_mem_cons.mpr ⟨hhead, ih hrest hjoined⟩

end Blocks

/-- The pieces of a line are handled like the line exactly under the condition. -/
theorem filterMap_pieces_eq_iff (line : List UInt8) :
    (pieces newline (BUFFER_SIZE - 1) line).filterMap lineText = (lineText line).toList ↔
      LineOk line := by
  have hne : ∀ piece ∈ pieces newline (BUFFER_SIZE - 1) line, piece ≠ [] := fun _ hpiece ↦
    ne_nil_of_mem_pieces room_pos hpiece
  have hiff := filterMap_lineText_eq_iff hne
  rwa [flatten_pieces newline room_pos] at hiff

/-- The same texts are parsed exactly when every line is handled as a whole. -/
theorem texts_eq_iff {fconf : List UInt8} (hnul : (0 : UInt8) ∉ fconf) :
    (pieces newline (BUFFER_SIZE - 1) fconf).filterMap configText =
        (fconf.splitOn newline).filterMap lineText ↔
      ∀ line ∈ fconf.splitOn newline, LineOk line := by
  rw [filterMap_configText hnul, List.filterMap_eq_flatMap_toList]
  constructor
  · intro h line hmem
    refine (filterMap_pieces_eq_iff line).mp (eq_of_flatMap_eq ?_ h line hmem)
    intro other _
    have hle := length_lineText_le (pieces newline (BUFFER_SIZE - 1) other)
    rwa [flatten_pieces newline room_pos] at hle
  · intro h
    apply List.flatMap_congr
    exact fun line hmem ↦ (filterMap_pieces_eq_iff line).mpr (h line hmem)

/-- Only the lines that are read have to be handled as a whole. -/
theorem foldlM_pieces_eq {σ : Type} {parse : σ → List UInt8 → Except Failure σ} {state : σ}
    {lines : List (List UInt8)} (h : ∀ line ∈ linesRead parse state lines, LineOk line) :
    (lines.flatMap fun line ↦
        (pieces newline (BUFFER_SIZE - 1) line).filterMap lineText).foldlM parse state =
      (lines.flatMap fun line ↦ (lineText line).toList).foldlM parse state := by
  induction lines generalizing state with
  | nil => rfl
  | cons line lines ih =>
    have hline := (filterMap_pieces_eq_iff line).mpr (h line List.mem_cons_self)
    rw [List.flatMap_cons, List.flatMap_cons, List.foldlM_append, List.foldlM_append, hline]
    cases hparse : (lineText line).toList.foldlM parse state with
    | error failure => rfl
    | ok next =>
      apply ih
      intro other hother
      apply h other
      rw [linesRead, hparse]
      exact List.mem_cons_of_mem line hother

/-- A parser that only collects the lines. -/
def collect (lines : List (List UInt8)) (line : List UInt8) : Except Failure (List (List UInt8)) :=
  .ok (lines ++ [line])

theorem foldlM_collect (lines texts : List (List UInt8)) :
    texts.foldlM collect lines = .ok (lines ++ texts) := by
  induction texts generalizing lines with
  | nil => simp [pure, Except.pure]
  | cons text texts ih =>
    rw [List.foldlM_cons, collect]
    exact (ih _).trans (by simp)

/-- **Configuration lines.** If every line up to the first one that is rejected is handled as a
whole, `build_conf` does what the lines of the file do one by one; and with every parser of a line
it does so only if every line is handled as a whole. -/
theorem buildConf_eq_byLine_iff (fconf : List UInt8) (hnul : (0 : UInt8) ∉ fconf) :
    (∀ allocates files state,
        (∀ line ∈ linesRead (parseConfigLine allocates files) state (fconf.splitOn newline),
          LineOk line) →
        buildConf (parseConfigLine allocates files) state fconf =
          byLine (parseConfigLine allocates files) state fconf) ∧
      ((∀ (σ : Type) (parse : σ → List UInt8 → Except Failure σ) (state : σ),
          buildConf parse state fconf = byLine parse state fconf) ↔
        ∀ line ∈ fconf.splitOn newline, LineOk line) := by
  refine ⟨fun allocates files state h ↦ ?_, fun h ↦ ?_, fun h σ parse state ↦ ?_⟩
  · rw [buildConf_eq, byLine_eq, filterMap_configText hnul, List.filterMap_eq_flatMap_toList]
    exact foldlM_pieces_eq h
  · have hcollect := h _ collect []
    rw [buildConf_eq, byLine_eq, foldlM_collect, foldlM_collect] at hcollect
    exact (texts_eq_iff hnul).mp (Except.ok.inj hcollect)
  · rw [buildConf_eq, byLine_eq, (texts_eq_iff hnul).mpr h]

/-- A boot source that is not known, and a long comment that is never read. -/
def rejectedConf : List UInt8 :=
  ascii "# card\n BOOT_FROM nowhere\n#" ++ List.replicate 300 0x2d

theorem buildConf_eq_byLine_rejected :
    buildConf (parseConfigLine (fun _ ↦ true) fun _ ↦ .error 2) initialState rejectedConf =
      byLine (parseConfigLine (fun _ ↦ true) fun _ ↦ .error 2) initialState rejectedConf :=
  (buildConf_eq_byLine_iff _ (by decide +kernel)).1 _ _ _ (by decide +kernel)

/-- A comment of 259 bytes. -/
def longComment : List UInt8 := 0x23 :: (List.replicate 254 0x2d ++ ascii "BOOT")

/-- The end of a long comment is taken for a line. -/
theorem longComment_not_byLine :
    ¬ ∀ fconf : List UInt8, (0 : UInt8) ∉ fconf → ∀ allocates files,
      buildConf (parseConfigLine allocates files) initialState fconf =
        byLine (parseConfigLine allocates files) initialState fconf := by
  intro h
  have heq := h longComment (by decide +kernel) (fun _ ↦ true) fun _ ↦ .error 2
  have hpieces : (pieces newline (BUFFER_SIZE - 1) longComment).filterMap configText =
      [ascii "BOOT"] := by
    decide +kernel
  have hlines : (longComment.splitOn newline).filterMap lineText = [] := by
    decide +kernel
  rw [buildConf_eq, byLine_eq, hpieces, hlines] at heq
  cases heq

end Vodka.Mkimage.ConfigText
