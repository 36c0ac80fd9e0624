import Mathlib.Data.List.TakeWhile
import Mathlib.Tactic
import Vodka.Foundation.LineBuffer
import Vodka.Genconfig.Gaps

/-!
# The file as lines

The file is read into buffers of at most 1023 bytes that end at a newline, and
every buffer is processed on its own. A line that fits is one buffer; a longer
one is cut wherever the buffer is full. The output is that of whole lines if
the scans end inside every line and buffer, every long line is cut between the
references that are defined, the scans meet the same ones in the line and in its
buffers, and a buffer is a directive only if the line is. What the buffers for
the new lines can hold is left out here.
-/

namespace Vodka.Genconfig.Lines

open Foundation.FlatRegex Foundation.LineBuffer Foundation.Qsort
open Replace Scan Rebuild Template Substitution Exactness Gaps

variable {dict : Dictionary} {q : Sorter} {line rest : Bytes} {room fuel : ℕ}

/-- A newline at the end and nowhere else, and no NUL. -/
structure IsLine (line : Bytes) : Prop where
  terminated : ∃ content, line = content ++ [newline] ∧ newline ∉ content
  nulFree : NUL ∉ line

/-- The buffers that one line is read into. -/
def buffersOf (line : Bytes) : List Bytes := readLoop line.length line

/-- The reader of the tool is the general one with the room of its buffer. -/
theorem fgets_eq (room : ℕ) (input : Bytes) : fgets room input = readPiece newline room input := by
  induction input generalizing room with
  | nil => cases room <;> rfl
  | cons b input ih =>
    cases room with
    | zero => rfl
    | succ room =>
      rw [fgets, readPiece, ih]

theorem readLoop_eq (fuel : ℕ) (input : Bytes) :
    readLoop fuel input = readPieces newline (MAX_LINE_LENGTH - 1) fuel input := by
  induction fuel generalizing input with
  | zero => rfl
  | succ fuel ih =>
    cases input with
    | nil => rfl
    | cons b input => rw [readLoop, readPieces, fgets_eq, ih]

theorem buffersOf_eq (line : Bytes) :
    buffersOf line = pieces newline (MAX_LINE_LENGTH - 1) line :=
  readLoop_eq line.length line

theorem room_pos : 0 < MAX_LINE_LENGTH - 1 := by decide

/-- A file of lines is read line by line. -/
theorem readLoop_lines {lines : List Bytes} (hlines : ∀ line ∈ lines, IsLine line) :
    readLoop lines.flatten.length lines.flatten = lines.flatMap buffersOf := by
  induction lines with
  | nil => rfl
  | cons line lines ih =>
    obtain ⟨content, rfl, hcontent⟩ := (hlines line List.mem_cons_self).terminated
    have hflatten : ((content ++ [newline]) :: lines).flatten =
        content ++ newline :: lines.flatten := by simp
    have hrest : pieces newline (MAX_LINE_LENGTH - 1) lines.flatten = lines.flatMap buffersOf :=
      (readLoop_eq _ _).symm.trans (ih fun line hline ↦ hlines line (List.mem_cons_of_mem _ hline))
    calc readLoop ((content ++ [newline]) :: lines).flatten.length
          ((content ++ [newline]) :: lines).flatten
        = pieces newline (MAX_LINE_LENGTH - 1) (content ++ newline :: lines.flatten) := by
          rw [readLoop_eq, hflatten]
          rfl
      _ = buffersOf (content ++ [newline]) ++ lines.flatMap buffersOf := by
          rw [pieces_append room_pos hcontent, hrest, ← buffersOf_eq]
      _ = _ := List.flatMap_cons.symm

theorem buffersOf_of_fits (hline : IsLine line) (hfits : line.length < MAX_LINE_LENGTH) :
    buffersOf line = [line] := by
  obtain ⟨content, rfl, hcontent⟩ := hline.terminated
  rw [List.length_append, List.length_singleton] at hfits
  rw [buffersOf_eq, pieces_line room_pos hcontent, if_pos (by omega)]
  rfl

/-- Lines that fit are the buffers that the loop reads. -/
theorem readLoop_of_fits {lines : List Bytes} (hlines : ∀ line ∈ lines, IsLine line)
    (hfits : ∀ line ∈ lines, line.length < MAX_LINE_LENGTH) :
    readLoop lines.flatten.length lines.flatten = lines := by
  rw [readLoop_lines hlines]
  calc lines.flatMap buffersOf
      = lines.flatMap fun line ↦ [line] := List.flatMap_congr fun line hline ↦
        buffersOf_of_fits (hlines line hline) (hfits line hline)
    _ = lines := List.flatMap_singleton' lines

theorem flatten_buffersOf (line : Bytes) : (buffersOf line).flatten = line := by
  rw [buffersOf_eq, flatten_pieces newline room_pos]

theorem cString_eq_self (h : NUL ∉ line) : cString line = line := by
  apply List.takeWhile_eq_self_iff.2
  intro b hb
  rw [bne_iff_ne]
  rintro rfl
  exact h hb

theorem mapM_cString {buffers : List Bytes} (h : ∀ buffer ∈ buffers, NUL ∉ buffer) :
    (buffers.mapM fun buffer ↦ processLine dict q (cString buffer)) =
      buffers.mapM (processLine dict q) := by
  induction buffers with
  | nil => rfl
  | cons buffer buffers ih =>
    rw [List.mapM_cons, List.mapM_cons, cString_eq_self (h buffer List.mem_cons_self),
      ih fun other hother ↦ h other (List.mem_cons_of_mem _ hother)]

/-- There is an output, and it is the concatenation of what the whole lines become. -/
def Linewise (dict : Dictionary) (q : Sorter) (lines : List Bytes) : Prop :=
  ∃ outs, lines.mapM (processLine dict q) = some outs ∧
    main dict q lines.flatten = some outs.flatten

/-- The same for the buffers of one line. -/
def LineOk (dict : Dictionary) (q : Sorter) (line : Bytes) : Prop :=
  ∃ outs, (buffersOf line).mapM (processLine dict q) = some outs ∧
    processLine dict q line = some outs.flatten

theorem mapM_flatMap_of_lineOk {lines : List Bytes} (h : ∀ line ∈ lines, LineOk dict q line) :
    ∃ outs wholes, (lines.flatMap buffersOf).mapM (processLine dict q) = some outs ∧
      lines.mapM (processLine dict q) = some wholes ∧ outs.flatten = wholes.flatten := by
  induction lines with
  | nil => exact ⟨[], [], rfl, rfl, rfl⟩
  | cons line lines ih =>
    obtain ⟨first, hfirst, hline⟩ := h line List.mem_cons_self
    obtain ⟨outs, wholes, houts, hwholes, hsame⟩ :=
      ih fun line hline ↦ h line (List.mem_cons_of_mem _ hline)
    refine ⟨first ++ outs, first.flatten :: wholes, ?_, ?_, ?_⟩
    · rw [List.flatMap_cons, List.mapM_append, hfirst, houts]
      rfl
    · rw [List.mapM_cons, hline, hwholes]
      rfl
    · rw [List.flatten_append, List.flatten_cons, hsame]

theorem linewise_of_lineOk {lines : List Bytes} (hlines : ∀ line ∈ lines, IsLine line)
    (h : ∀ line ∈ lines, LineOk dict q line) : Linewise dict q lines := by
  obtain ⟨outs, wholes, houts, hwholes, hsame⟩ := mapM_flatMap_of_lineOk h
  refine ⟨wholes, hwholes, ?_⟩
  rw [main, readLoop_lines hlines, mapM_cString, houts, Option.map_some, hsame]
  intro buffer hbuffer hnul
  obtain ⟨line, hline, hbuffer⟩ := List.mem_flatMap.1 hbuffer
  apply (hlines line hline).nulFree
  rw [← flatten_buffersOf line]
  exact List.mem_flatten.2 ⟨buffer, hbuffer, hnul⟩

theorem lineOk_of_fits (hline : IsLine line) (hfits : line.length < MAX_LINE_LENGTH)
    {out : Bytes} (hout : processLine dict q line = some out) : LineOk dict q line := by
  refine ⟨[out], ?_, ?_⟩
  · rw [buffersOf_of_fits hline hfits, List.mapM_cons, hout]
    rfl
  · rw [List.flatten_singleton, hout]

/-- The scans stay in the line, and no reference that they meet starts inside one of another
form. -/
def ScansApart (line : Bytes) : Prop := ∃ met, MeetsAll line met ∧ NotNested met

theorem processLine_isSome_iff (dict : Dictionary) (q : Sorter)
    (hline : line.length < MAX_LINE_LENGTH) :
    (∃ out, processLine dict q line = some out) ↔ ScansApart line := by
  rw [ScansApart, ← exists_doReplaceVariable_iff dict q line hline]
  simp only [processLine, Option.map_eq_some_iff]
  constructor
  · rintro ⟨_, out, hout, -⟩
    exact ⟨out, hout⟩
  · rintro ⟨out, hout⟩
    exact ⟨_, out, hout, rfl⟩

/-- The text has neither form of a directive. -/
def NoDirective (text : Bytes) : Prop :=
  exec cmakedefPat text = none ∧ exec cmakedef01Pat text = none

/-- A text is a directive inside a line as it is by itself: neither is one, or both are with the
same words, and what is written for it keeps the rest of the line. -/
inductive DirectiveKept (dict : Dictionary) (before text after : Bytes) : Prop
  | none (hpart : NoDirective text) (hwhole : NoDirective (before ++ (text ++ after)))
  | define {found other : Match UInt8} (hpart : exec cmakedefPat text = some found)
      (hwhole : exec cmakedefPat (before ++ (text ++ after)) = some other)
      (hword : other.so 3 = before.length + found.so 3 ∧ other.eo 3 = before.length + found.eo 3)
      (hname : other.so 5 = before.length + found.so 5 ∧ other.eo 5 = before.length + found.eo 5)
      (hdefined : dict.get (slice text (found.so 5) (found.eo 5)) ≠ Option.none)
  | define01 {found other : Match UInt8} (hpart : exec cmakedefPat text = Option.none)
      (hpart01 : exec cmakedef01Pat text = some found)
      (hwhole : exec cmakedefPat (before ++ (text ++ after)) = Option.none)
      (hwhole01 : exec cmakedef01Pat (before ++ (text ++ after)) = some other)
      (hfirst : before = [])
      (hname : other.so 5 = found.so 5 ∧ other.eo 5 = found.eo 5)

theorem doReplaceCmakedef_of_noDirective {text : Bytes} (h : NoDirective text) :
    doReplaceCmakedef dict text = text := by
  rw [doReplaceCmakedef, h.1]
  dsimp only
  rw [h.2]

theorem slice_middle {text : Bytes} {s e : ℕ} (he : e ≤ text.length) (before after : Bytes) :
    slice (before ++ (text ++ after)) (before.length + s) (before.length + e) = slice text s e := by
  rw [← slice_drop, List.drop_left, slice_append he]

theorem eo_le_length {regex : Regex UInt8} {text : Bytes} {found : Match UInt8}
    (h : exec regex text = some found) (index : ℕ) : found.eo index ≤ text.length :=
  (found.eo_le_stop index).trans (exec_stop_le h)

theorem doReplaceCmakedef_define {text : Bytes} {found : Match UInt8}
    (h : exec cmakedefPat text = some found)
    (hdefined : dict.get (slice text (found.so 5) (found.eo 5)) ≠ none) :
    doReplaceCmakedef dict text =
      text.take (found.so 3) ++ bytes "define" ++ text.drop (found.eo 3) := by
  rw [doReplaceCmakedef, h]
  dsimp only
  rw [getValue]
  cases hvalue : dict.get (slice text (found.so 5) (found.eo 5)) with
  | none => exact absurd hvalue hdefined
  | some value => rfl

/-- What a directive inside a line becomes. -/
theorem DirectiveKept.doReplaceCmakedef {before text after : Bytes}
    (h : DirectiveKept dict before text after) :
    Replace.doReplaceCmakedef dict (before ++ (text ++ after)) =
      before ++ (Replace.doReplaceCmakedef dict text ++ after) := by
  cases h with
  | none hpart hwhole =>
    rw [doReplaceCmakedef_of_noDirective hpart, doReplaceCmakedef_of_noDirective hwhole]
  | @define found other hpart hwhole hword hname hdefined =>
    have heo := eo_le_length hpart 3
    have hso := (found.so_le_eo 3).trans heo
    have hsame : slice (before ++ (text ++ after)) (other.so 5) (other.eo 5) =
        slice text (found.so 5) (found.eo 5) := by
      rw [hname.1, hname.2]
      exact slice_middle (eo_le_length hpart 5) before after
    rw [doReplaceCmakedef_define hpart hdefined,
      doReplaceCmakedef_define hwhole (hsame ▸ hdefined), hword.1, hword.2,
      List.take_length_add_append, List.drop_length_add_append,
      List.take_append_of_le_length hso, List.drop_append_of_le_length heo]
    simp only [List.append_assoc]
  | @define01 found other hpart hpart01 hwhole hwhole01 hfirst hname =>
    subst hfirst
    rw [List.nil_append] at hwhole hwhole01 ⊢
    have heo := eo_le_length hpart01 5
    rw [List.nil_append, Replace.doReplaceCmakedef, hwhole, Replace.doReplaceCmakedef, hpart]
    dsimp only
    rw [hwhole01, hpart01]
    dsimp only
    rw [hname.1, hname.2, slice_append heo, List.drop_append_of_le_length heo]
    simp only [List.append_assoc]

/-! ## Lines that may be cut -/

/-- The references that are replaced. -/
def definedRefs (dict : Dictionary) (template : List Piece) : List Ref :=
  (refs template).filter fun ref ↦ (dict.get ref.name).isSome

/-- The line, and each of its buffers, is a text with references, and those that are defined are
the same at the same places. The scans meet them in the line and in the buffers, and a directive
in one of the buffers is kept in the line. -/
structure CutTemplate (dict : Dictionary) (line : Bytes) (whole : List Piece)
    (before : List (List Piece)) (part : List Piece) (after : List (List Piece)) : Prop where
  render_whole : render whole = line
  buffers : buffersOf line = (before ++ part :: after).map render
  defined : definedRefs dict whole = definedRefs dict (before ++ part :: after).flatten
  parts : ∀ other ∈ before ++ part :: after, Faithful dict other
  whole : Faithful dict whole
  directive : DirectiveKept dict (expected dict before.flatten) (expected dict part)
    (expected dict after.flatten)
  noDirective : ∀ other ∈ before ++ after, NoDirective (expected dict other)

/-- The line fits the buffer and the scans of it end, or cutting it does no harm. -/
def CutSafely (dict : Dictionary) (line : Bytes) : Prop :=
  line.length < MAX_LINE_LENGTH ∧ ScansApart line ∨
    ∃ whole before part after, CutTemplate dict line whole before part after

theorem mapM_of_some {α β : Type} {f : α → Option β} {g : α → β} {items : List α}
    (h : ∀ item ∈ items, f item = some (g item)) : items.mapM f = some (items.map g) := by
  induction items with
  | nil => rfl
  | cons item items ih =>
    rw [List.mapM_cons, h item List.mem_cons_self,
      ih fun other hother ↦ h other (List.mem_cons_of_mem _ hother)]
    rfl

theorem exists_of_mapM {α β : Type} {f : α → Option β} {items : List α} {outs : List β}
    (h : items.mapM f = some outs) {item : α} (hitem : item ∈ items) :
    ∃ out, f item = some out := by
  induction items generalizing outs with
  | nil => exact absurd hitem List.not_mem_nil
  | cons first items ih =>
    rw [List.mapM_cons] at h
    obtain ⟨out, hout, h⟩ := Option.bind_eq_some_iff.1 h
    obtain ⟨rest, hrest, -⟩ := Option.bind_eq_some_iff.1 h
    rcases List.mem_cons.1 hitem with rfl | hitem
    · exact ⟨out, hout⟩
    · exact ih hrest hitem

theorem expected_append (dict : Dictionary) (first second : List Piece) :
    expected dict (first ++ second) = expected dict first ++ expected dict second :=
  List.flatMap_append

theorem expected_flatten (dict : Dictionary) (parts : List (List Piece)) :
    expected dict parts.flatten = (parts.map (expected dict)).flatten := by
  induction parts with
  | nil => rfl
  | cons part parts ih =>
    rw [List.flatten_cons, List.map_cons, List.flatten_cons, ← ih, expected_append]

theorem render_flatten (parts : List (List Piece)) :
    render parts.flatten = (parts.map render).flatten := by
  induction parts with
  | nil => rfl
  | cons part parts ih =>
    rw [List.flatten_cons, List.map_cons, List.flatten_cons, ← ih, render, List.flatMap_append]
    rfl

/-- The record of a reference that is replaced. -/
def replacing (dict : Dictionary) (ref : Ref) : MatchData where
  fullS := ref.start
  fullE := ref.stop
  value := dict.get ref.name

/-- What a template is to become is a matter of its line and of the references that are
defined. -/
theorem expected_congr {first second : List Piece} (hrender : render first = render second)
    (hdefined : definedRefs dict first = definedRefs dict second) :
    expected dict first = expected dict second := by
  have hsplice (template : List Piece) :
      splice (render template) 0 ((definedRefs dict template).map (replacing dict)) =
        expected dict template := by
    apply splice_eq_expected rfl
    · rw [List.pairwise_map]
      exact (refsFrom_pairwise 0 template).sublist List.filter_sublist
    · intro m hm
      obtain ⟨ref, href, rfl⟩ := List.mem_map.1 hm
      obtain ⟨href, hsome⟩ := List.mem_filter.1 href
      obtain ⟨value, hvalue⟩ := Option.isSome_iff_exists.1 hsome
      refine ⟨ref, href, rfl, rfl, ?_⟩
      rw [written, replacing, hvalue, Option.getD_some, Option.getD_some]
    · intro ref href
      cases hvalue : dict.get ref.name with
      | none => exact Or.inr rfl
      | some value =>
        have hkept : ref ∈ definedRefs dict template :=
          List.mem_filter.2 ⟨href, by rw [hvalue]; rfl⟩
        exact Or.inl ⟨_, List.mem_map_of_mem hkept, rfl⟩
  rw [← hsplice first, hrender, hdefined, hsplice second]

/-- What a buffer or the line becomes. -/
theorem processLine_render {template : List Piece} (h : Faithful dict template) :
    processLine dict q (render template) =
      some (doReplaceCmakedef dict (expected dict template)) := by
  rw [processLine, h.doReplaceVariable_render q, Option.map_some]

theorem CutTemplate.lineOk {whole part : List Piece} {before after : List (List Piece)}
    (h : CutTemplate dict line whole before part after) : LineOk dict q line := by
  have hrender : render (before ++ part :: after).flatten = line := by
    rw [render_flatten, ← h.buffers, flatten_buffersOf line]
  have hexpected : expected dict whole = expected dict before.flatten ++
      (expected dict part ++ expected dict after.flatten) := by
    rw [expected_congr (h.render_whole.trans hrender.symm) h.defined, List.flatten_append,
      List.flatten_cons, expected_append, expected_append]
  have hbuffers : ((buffersOf line).mapM (processLine dict q)) =
      some ((before ++ part :: after).map fun other ↦
        doReplaceCmakedef dict (expected dict other)) := by
    rw [h.buffers, List.mapM_map]
    exact mapM_of_some fun other hother ↦ processLine_render (h.parts other hother)
  have hkept (parts : List (List Piece)) (hparts : ∀ other ∈ parts, other ∈ before ++ after) :
      (parts.map fun other ↦ doReplaceCmakedef dict (expected dict other)).flatten =
        expected dict parts.flatten := by
    rw [expected_flatten]
    apply congrArg List.flatten
    apply List.map_congr_left
    exact fun other hother ↦ doReplaceCmakedef_of_noDirective
      (h.noDirective other (hparts other hother))
  have hbefore := hkept before fun other hother ↦ List.mem_append_left _ hother
  have hafter := hkept after fun other hother ↦ List.mem_append_right _ hother
  refine ⟨_, hbuffers, ?_⟩
  rw [← h.render_whole, processLine_render h.whole, hexpected, List.map_append, List.map_cons,
    List.flatten_append, List.flatten_cons, hbefore, hafter, h.directive.doReplaceCmakedef]

/-- Nothing in the line is replaced, however it is cut. -/
structure Plain (line : Bytes) : Prop where
  noReference : ∀ form, exec (variablePat form) line = none
  noDirective : ∀ text ∈ line :: buffersOf line, NoDirective text

theorem refsFrom_text (offset : ℕ) (texts : List Bytes) :
    refsFrom offset (texts.map Piece.text) = [] := by
  induction texts generalizing offset with
  | nil => rfl
  | cons text texts ih => exact ih _

/-- A text without references is a template without references. -/
theorem faithful_text {texts : List Bytes} (hnul : NUL ∉ texts.flatten)
    (hnone : ∀ form, exec (variablePat form) texts.flatten = none) :
    Faithful dict (texts.map Piece.text) := by
  have hrender : render (texts.map Piece.text) = texts.flatten := by
    rw [render, List.flatMap_map, List.flatMap_def]
    exact congrArg List.flatten (List.map_id _)
  have hrefs : refs (texts.map Piece.text) = [] := refsFrom_text 0 texts
  have hvisited : visited (texts.map Piece.text) = [] := by
    rw [visited, hrefs]
    rfl
  refine ⟨⟨?_, ?_, ?_⟩, hrender ▸ hnul, fun form ↦ ?_⟩
  · simp [hvisited]
  · simp [hrefs]
  · simp [hvisited]
  · rw [hrender, hrefs]
    exact scanFrom_none (Nat.zero_le _) (hnone form)

theorem expected_text (dict : Dictionary) (texts : List Bytes) :
    expected dict (texts.map Piece.text) = texts.flatten := by
  rw [expected, List.flatMap_map, List.flatMap_def]
  exact congrArg List.flatten (List.map_id _)

/-- A long line in which nothing is replaced may be cut. -/
theorem Plain.cutSafely (hline : IsLine line) (h : Plain line) : CutSafely dict line := by
  obtain ⟨first, rest, hbuffers⟩ : ∃ first rest, buffersOf line = first :: rest := by
    obtain ⟨content, rfl, -⟩ := hline.terminated
    apply List.exists_cons_of_ne_nil
    intro hempty
    have hflatten := flatten_buffersOf (content ++ [newline])
    rw [hempty] at hflatten
    exact List.append_ne_nil_of_right_ne_nil content (List.cons_ne_nil _ _) hflatten.symm
  have hflatten : (first :: rest).flatten = line := hbuffers ▸ flatten_buffersOf line
  have hpart (texts : List Bytes) : (texts.map fun text ↦ [Piece.text text]).flatten =
      texts.map Piece.text := by
    rw [← List.flatMap_def, List.map_eq_flatMap]
  have hnul (buffer : Bytes) (hbuffer : buffer ∈ buffersOf line) : NUL ∉ buffer := fun hmem ↦
    hline.nulFree (flatten_buffersOf line ▸ List.mem_flatten.2 ⟨buffer, hbuffer, hmem⟩)
  have hnone (buffer : Bytes) (hbuffer : buffer ∈ buffersOf line) (form : Form) :
      exec (variablePat form) buffer = none := by
    obtain ⟨before, after, hsplit⟩ := List.append_of_mem hbuffer
    have hwhole := h.noReference form
    rw [← flatten_buffersOf line, hsplit, List.flatten_append, List.flatten_cons,
      ← List.append_assoc] at hwhole
    exact search_eq_none_of_append rfl _ buffer _ hwhole
  have hexpected (text : Bytes) : expected dict [.text text] = text := List.append_nil _
  have hwhole : ([] ++ [Piece.text first] :: rest.map fun text ↦ [Piece.text text]).flatten =
      (first :: rest).map Piece.text := hpart (first :: rest)
  have hrenderWhole : render ((first :: rest).map Piece.text) = line := by
    rw [render, List.flatMap_map, List.flatMap_def]
    exact (congrArg List.flatten (List.map_id _)).trans hflatten
  refine Or.inr ⟨(first :: rest).map .text, [], [.text first], rest.map fun text ↦ [.text text],
    hrenderWhole, ?_, congrArg _ hwhole.symm, ?_, ?_, ?_, ?_⟩
  · have hrender : (render ∘ fun text ↦ [Piece.text text]) = id := by
      funext text
      exact List.append_nil text
    rw [hbuffers, List.nil_append, List.map_cons, List.map_map, hrender, List.map_id]
    exact congrArg (· :: rest) (List.append_nil first).symm
  · intro other hother
    obtain ⟨buffer, hbuffer, rfl⟩ :
        ∃ buffer ∈ buffersOf line, [Piece.text buffer] = other := by
      rw [hbuffers]
      exact List.mem_map.1 hother
    have htext : [buffer].flatten = buffer := List.append_nil buffer
    have hfaithful : Faithful dict ([buffer].map Piece.text) := by
      apply faithful_text
      · rw [htext]
        exact hnul buffer hbuffer
      · rw [htext]
        exact hnone buffer hbuffer
    exact hfaithful
  · apply faithful_text
    · rw [hflatten]
      exact hline.nulFree
    · rw [hflatten]
      exact h.noReference
  · apply DirectiveKept.none
    · rw [hexpected]
      exact h.noDirective first (by simp [hbuffers])
    · have hnoDirective := h.noDirective line List.mem_cons_self
      rw [← hflatten] at hnoDirective
      rw [hpart, expected_text, hexpected]
      exact hnoDirective
  · intro other hother
    obtain ⟨buffer, hbuffer, rfl⟩ := List.mem_map.1 hother
    rw [hexpected]
    exact h.noDirective buffer (by simp [hbuffers, hbuffer])

/-- Lines that are cut safely are processed as whole lines. -/
theorem linewise_of_cutSafely (dict : Dictionary) (q : Sorter) (lines : List Bytes)
    (hlines : ∀ line ∈ lines, IsLine line) (hcut : ∀ line ∈ lines, CutSafely dict line) :
    Linewise dict q lines := by
  apply linewise_of_lineOk hlines
  intro line hline
  rcases hcut line hline with ⟨hfits, hscans⟩ | ⟨whole, before, part, after, hparts⟩
  · obtain ⟨out, hout⟩ := (processLine_isSome_iff dict q hfits).2 hscans
    exact lineOk_of_fits (hlines line hline) hfits hout
  · exact hparts.lineOk

/-- Where every line fits, the condition is exact. -/
theorem linewise_iff_of_fits (dict : Dictionary) (q : Sorter) {lines : List Bytes}
    (hlines : ∀ line ∈ lines, IsLine line) (hfits : ∀ line ∈ lines, line.length < MAX_LINE_LENGTH) :
    Linewise dict q lines ↔ ∀ line ∈ lines, ScansApart line := by
  constructor
  · rintro ⟨outs, houts, -⟩ line hline
    rw [← processLine_isSome_iff dict q (hfits line hline)]
    exact exists_of_mapM houts hline
  · intro hscans
    apply linewise_of_lineOk hlines
    intro line hline
    obtain ⟨out, hout⟩ := (processLine_isSome_iff dict q (hfits line hline)).2 (hscans line hline)
    exact lineOk_of_fits (hlines line hline) (hfits line hline) hout

/-- A line is checked by its last byte and the bytes before it. -/
theorem IsLine.of_append {content : Bytes} (hnewline : newline ∉ content) (hnul : NUL ∉ content) :
    IsLine (content ++ [newline]) where
  terminated := ⟨content, rfl, hnewline⟩
  nulFree := by
    rw [List.mem_append, not_or]
    exact ⟨hnul, by decide⟩

/-- Two references of different forms. -/
theorem scansApart_two : ScansApart (bytes "@A@ $\x7bB\x7d\n") := by
  refine ⟨fun
    | .at => [⟨0, 3, bytes "A"⟩]
    | .braces => [⟨4, 8, bytes "B"⟩]
    | _ => [], fun form ↦ ?_, ?_⟩
  · cases form with
    | «at» =>
      exact @Met.next .at _ 0 ⟨0, [bytes "@", bytes "A", bytes "@"]⟩ [] (by decide) (by decide)
        (Met.last (by decide))
    | braces =>
      exact @Met.next .braces _ 0 ⟨4, [bytes "$\x7b", bytes "B", bytes "\x7d"]⟩ [] (by decide)
        (by decide) (Met.last (by decide))
    | cache => exact Met.last (by decide)
    | env => exact Met.last (by decide)
  · intro form other hne outer houter inner hinner
    cases form <;> cases other <;> simp_all

/-- The second line is cut within a reference that is kept, in front of one that is replaced. -/
theorem linewise_of_cutSafely_long :
    Linewise (marking (bytes "A") 1) insertionSorter
      [bytes "@A@ $\x7bB\x7d\n", List.replicate 1021 0x61 ++ bytes "$\x7bZ\x7d @A@\n"] := by
  apply linewise_of_cutSafely
  · intro line hline
    simp only [List.mem_cons, List.not_mem_nil, or_false] at hline
    rcases hline with rfl | rfl
    · change IsLine (bytes "@A@ $\x7bB\x7d" ++ [newline])
      exact IsLine.of_append (by decide) (by decide)
    · rw [show bytes "$\x7bZ\x7d @A@\n" = bytes "$\x7bZ\x7d @A@" ++ [newline] from rfl,
        ← List.append_assoc]
      exact IsLine.of_append (by decide +kernel) (by decide +kernel)
  · intro line hline
    simp only [List.mem_cons, List.not_mem_nil, or_false] at hline
    rcases hline with rfl | rfl
    · exact Or.inl ⟨by decide, scansApart_two⟩
    · refine Or.inr ⟨[.text (List.replicate 1021 0x61), .ref .braces (bytes "Z"),
          .text (bytes " "), .ref .at (bytes "A"), .text (bytes "\n")], [],
        [.text (List.replicate 1021 0x61 ++ bytes "$\x7b")],
        [[.text (bytes "Z\x7d "), .ref .at (bytes "A"), .text (bytes "\n")]], ?_, ?_, ?_, ?_, ?_,
        ?_, ?_⟩
      · decide +kernel
      · decide +kernel
      · decide +kernel
      · intro part hpart
        simp only [List.nil_append, List.mem_cons, List.not_mem_nil, or_false] at hpart
        rcases hpart with rfl | rfl
        all_goals
          refine ⟨⟨by decide +kernel, by decide +kernel, by decide +kernel⟩, by decide +kernel, ?_⟩
          intro form
          cases form <;> decide +kernel
      · refine ⟨⟨by decide +kernel, by decide +kernel, by decide +kernel⟩, by decide +kernel, ?_⟩
        intro form
        cases form <;> decide +kernel
      · exact DirectiveKept.none ⟨by decide +kernel, by decide +kernel⟩
          ⟨by decide +kernel, by decide +kernel⟩
      · intro part hpart
        simp only [List.nil_append, List.mem_cons, List.not_mem_nil, or_false] at hpart
        rw [hpart]
        exact ⟨by decide +kernel, by decide +kernel⟩

/-- A reference that starts at byte 1021 of its line is cut in two and kept. -/
theorem straddling_not_linewise :
    ¬Linewise allOne insertionSorter [List.replicate 1021 0x61 ++ bytes "@A@\n"] := by
  rintro ⟨outs, houts, hmain⟩
  have hdiffer : main allOne insertionSorter
      [List.replicate 1021 0x61 ++ bytes "@A@\n"].flatten ≠
        ([List.replicate 1021 0x61 ++ bytes "@A@\n"].mapM
          (processLine allOne insertionSorter)).map List.flatten := by
    decide +kernel
  rw [hmain, houts] at hdiffer
  exact hdiffer rfl

end Vodka.Genconfig.Lines
