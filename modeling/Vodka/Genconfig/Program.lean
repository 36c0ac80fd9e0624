import Mathlib.Tactic
import Vodka.Genconfig.Capacity
import Vodka.Genconfig.Cmakedef
import Vodka.Genconfig.CommandLine

/-!
# The whole tool

A run of the tool opens its two files, takes the variables from the remaining
arguments and writes the configured text. The output file is truncated before
the arguments are looked at. A run in which a line is stored behind the end of
its buffer has no result. The variables of a run are the last values that the
arguments give; a template is configured with these, and only these matter for
the outcome. A text that has been configured once is left alone by another run.
-/

namespace Vodka.Genconfig.Program

open Foundation.FlatRegex Foundation.Qsort Replace Rebuild Template Substitution Capacity Lines
  Cmakedef VariableDict VariableMap CommandLine

/-- An argument, without its terminator. -/
abbrev CString := { text : Bytes // NUL ∉ text }

def texts (args : List CString) : List Bytes := args.map Subtype.val

/-- A name without content cannot be opened for reading. -/
structure Files where
  content : Bytes → Option Bytes
  writable : Bytes → Bool

def Files.write (files : Files) (name text : Bytes) : Files :=
  { files with content := Function.update files.content name (some text) }

theorem defineVariables_nulFree {args : List CString} {d : Dict Bytes}
    (h : defineVariables (texts args) = .ok d) (name value : Bytes)
    (hget : dictionaryGet d name none = some value) : NUL ∉ value := by
  have hargs : ∀ arg ∈ texts args, NUL ∉ arg := by
    simp only [texts, List.forall_mem_map]
    exact fun arg _ ↦ arg.2
  obtain ⟨dict, hdict⟩ := exists_dictionary h hargs
  exact dict.nulFree name value ((hdict name).trans hget)

/-- The two lines that a turn of the reading loop allocates hold what is stored in them. -/
def hasRoom (dict : Dictionary) (q : Sorter) (line : Bytes) : Bool :=
  ((sortedMatchData dict q line).bind fun md ↦ (rebuild line md []).map fun newLine ↦
    let replaced := allocation dict (terminate line newLine)
    decide (stored line newLine ≤ newLineSize line md ∧ replaced.stored ≤ replaced.size)).getD false

/-- The reading loop. A store behind the end of an allocated line has no result. -/
def configure (dict : Dictionary) (q : Sorter) (input : Bytes) : Option Bytes :=
  if (readLoop input.length input).all fun buffer ↦ hasRoom dict q (cString buffer) then
    main dict q input
  else none

inductive Exit
  | success
  | failure
deriving DecidableEq

/-- `main`: its exit status and the files behind it. A null pointer as a name has no result. -/
def program (q : Sorter) (files : Files) : List CString → Option (Exit × Files)
  | [] => none
  | [_] => some (.failure, files)
  | _ :: input :: rest =>
    if files.content input = none then some (.failure, files)
    else
      match rest with
      | [] => none
      | output :: args =>
        if files.writable output then
          let files := files.write output []
          match h : defineVariables (texts args) with
          | .error .usage => some (.failure, files)
          | .error .undefined => none
          | .ok d =>
            let dict : Dictionary := ⟨fun name ↦ dictionaryGet d name none,
              defineVariables_nulFree h⟩
            (configure dict q ((files.content input).getD [])).map fun text ↦
              (.success, files.write output text)
        else some (.failure, files)

variable {args : List CString}

/-- The value that the last argument for the name gives. -/
def lastValue (args : List CString) (name : Bytes) : Option Bytes :=
  ((args.filter fun arg ↦ nameOf arg.1 = name).getLast?).map fun arg ↦ valueOf arg.1

theorem nul_not_mem_valueOf (arg : CString) : NUL ∉ valueOf arg.1 := fun hnul ↦
  arg.2 ((List.dropWhile_sublist _).subset (List.mem_of_mem_tail hnul))

/-- The variables of a command line. -/
def lastValues (args : List CString) : Dictionary where
  get := lastValue args
  nulFree name value h := by
    obtain ⟨arg, -, rfl⟩ := Option.map_eq_some_iff.mp h
    exact nul_not_mem_valueOf arg

theorem lastSet_assignments (args : List CString) (name : Bytes) :
    lastSet ((texts args).map assignment) name = (lastValue args name).map some := by
  have hkey : ∀ arg : CString, (opKey (assignment arg.1) = name) ↔ nameOf arg.1 = name :=
    fun _ ↦ Iff.rfl
  rw [lastSet, lastValue, texts, List.map_map, List.filter_map, List.getLast?_map]
  simp only [Function.comp_def, hkey]
  cases (args.filter fun arg ↦ nameOf arg.1 = name).getLast? <;> rfl

/-- Every argument assigns, and the distinct names find room. -/
structure Accepted (args : List CString) : Prop where
  assigns : ∀ arg ∈ args, equals ∈ arg.1
  room : (names (texts args)).card ≤ SLOT_LIMIT

theorem takeWhile_texts (h : ∀ arg ∈ args, equals ∈ arg.1) :
    (texts args).takeWhile (fun arg ↦ equals ∈ arg) = texts args := by
  rw [List.takeWhile_eq_self_iff]
  simp only [texts, List.forall_mem_map]
  exact fun arg harg ↦ decide_eq_true (h arg harg)

theorem assignments_eq (h : ∀ arg ∈ args, equals ∈ arg.1) :
    assignments (texts args) = (texts args).map assignment := by
  rw [assignments, takeWhile_texts h]

theorem mem_names_iff_mem_map (h : ∀ arg ∈ args, equals ∈ arg.1) (name : Bytes) :
    name ∈ names (texts args) ↔ name ∈ args.map fun arg ↦ nameOf arg.1 := by
  rw [names, takeWhile_texts h, List.mem_toFinset, texts, List.map_map]
  rfl

/-- The dictionary of an accepted command line has its last values. -/
theorem Accepted.defineVariables (h : Accepted args) :
    ∃ d, VariableDict.defineVariables (texts args) = .ok d ∧
      ∀ name, dictionaryGet d name none = lastValue args name := by
  have hall : ∀ arg ∈ texts args, equals ∈ arg := by
    simp only [texts, List.forall_mem_map]
    exact h.assigns
  have hdefined := (defined_iff (texts args)).mpr h.room
  obtain ⟨d, hexec⟩ := Option.isSome_iff_exists.mp ((defined_iff_isSome (texts args)).mp hdefined)
  refine ⟨d, by rw [defineVariables_eq, hexec, Option.elim_some, if_pos hall], fun name ↦ ?_⟩
  rw [(represents_exec hexec).1.dictionaryGet_eq, assignments_eq h.assigns,
    lastSet_assignments]
  cases lastValue args name <;> rfl

/-- The run of an accepted command line. -/
theorem program_of_accepted (q : Sorter) (files : Files) (argv0 input output : CString)
    (hargs : Accepted args) :
    program q files (argv0 :: input :: output :: args) =
      if files.content input = none then some (.failure, files)
      else if files.writable output then
        (configure (lastValues args) q (((files.write output []).content input).getD [])).map
          fun text ↦ (.success, (files.write output []).write output text)
      else some (.failure, files) := by
  obtain ⟨d, hd, hget⟩ := hargs.defineVariables
  rw [program]
  split_ifs with hinput houtput
  · rfl
  · dsimp only
    split
    next herror => rw [hd] at herror; cases herror
    next herror => rw [hd] at herror; cases herror
    next other hother =>
      obtain rfl := Except.ok.inj (hd.symm.trans hother)
      have hdict : (⟨fun name ↦ dictionaryGet d name none, defineVariables_nulFree hother⟩ :
          Dictionary) = lastValues args := by
        rw [lastValues, Dictionary.mk.injEq]
        exact funext hget
      rw [hdict]
  · rfl

/-- With too many names there is no result once the files are open. -/
theorem program_of_not_room (q : Sorter) (files : Files) (argv0 input output : CString)
    (hroom : ¬ (names (texts args)).card ≤ SLOT_LIMIT) :
    program q files (argv0 :: input :: output :: args) =
      if files.content input = none then some (.failure, files)
      else if files.writable output then none else some (.failure, files) := by
  have hundefined : VariableDict.defineVariables (texts args) = .error .undefined := by
    have hnone : Foundation.Trace.exec step (dictionaryNew 64) (assignments (texts args)) =
        none := by
      rw [← Option.not_isSome_iff_eq_none, ← defined_iff_isSome, defined_iff]
      exact hroom
    rw [defineVariables_eq, hnone, Option.elim_none]
  rw [program]
  split_ifs with hinput houtput
  · rfl
  · dsimp only
    split
    next herror => rw [hundefined] at herror; cases herror
    next herror => rfl
    next other hother => rw [hundefined] at hother; cases hother
  · rfl

/-- The run whose files can be opened. -/
theorem program_eq (q : Sorter) {files : Files} (argv0 : CString) {input output : CString}
    {text : Bytes} (hargs : Accepted args) (hinput : files.content input = some text)
    (houtput : files.writable output) (hne : input ≠ output) :
    program q files (argv0 :: input :: output :: args) =
      (configure (lastValues args) q text).map fun text ↦
        (.success, files.write output text) := by
  have hkept : (files.write output []).content input = some text :=
    (Function.update_of_ne (fun h ↦ hne (Subtype.ext h)) _ _).trans hinput
  have hwrite (text : Bytes) :
      (files.write output []).write output text = files.write output text := by
    simp [Files.write]
  rw [program_of_accepted q files argv0 input output hargs, if_neg (by simp [hinput]),
    if_pos houtput, hkept]
  simp only [Option.getD_some, hwrite]

theorem mem_names_iff (h : ∀ arg ∈ args, equals ∈ arg.1) (name : Bytes) :
    name ∈ names (texts args) ↔ (lastValue args name).isSome := by
  rw [mem_names_iff_mem_map h, lastValue, Option.isSome_map, List.getLast?_isSome, ne_eq,
    List.filter_eq_nil_iff]
  simp

/-! ## What a template becomes -/

/-- What a line is to become, once its references are replaced. -/
inductive Means (dict : Dictionary) : Bytes → Bytes → Prop
  | define (d : Directive) (h : dict.get d.name ≠ none) :
      Means dict (d.text (bytes "cmakedefine")) (d.text (bytes "define"))
  | undef (d : Directive) (h : dict.get d.name = none) :
      Means dict (d.text (bytes "cmakedefine")) (bytes "/* #undef " ++ d.name ++ bytes " */\n")
  | one (d : Directive) (hrest : ∀ b ∈ d.rest, isspace b) (h : dict.get d.name ≠ none) :
      Means dict (d.text (bytes "cmakedefine01"))
        (bytes "#define " ++ d.name ++ bytes " 1" ++ d.rest)
  | zero (d : Directive) (hrest : ∀ b ∈ d.rest, isspace b) (h : dict.get d.name = none) :
      Means dict (d.text (bytes "cmakedefine01"))
        (bytes "#define " ++ d.name ++ bytes " 0" ++ d.rest)
  | other {line : Bytes} (hdefine : ∀ d : Directive, line ≠ d.text (bytes "cmakedefine"))
      (hdefine01 : ∀ d : Directive, line = d.text (bytes "cmakedefine01") →
        ¬ ∀ b ∈ d.rest, isspace b) : Means dict line line

/-- What the tool makes of a line is what the line means. -/
theorem means_doReplaceCmakedef (dict : Dictionary) {line : Bytes} (hnul : NUL ∉ line) :
    Means dict line (doReplaceCmakedef dict line) := by
  by_cases hdefine : ∃ d : Directive, line = d.text (bytes "cmakedefine")
  · obtain ⟨d, rfl⟩ := hdefine
    obtain ⟨hfront, hbehind, hname, -⟩ := submatches d (bytes "cmakedefine")
    rw [doReplaceCmakedef, exec_cmakedef d hnul]
    dsimp only
    rw [hname, hfront, hbehind, getValue]
    cases hvalue : dict.get d.name with
    | none => exact .undef d hvalue
    | some value =>
      have hset : dict.get d.name ≠ none := by simp [hvalue]
      simpa [Directive.text, Directive.words] using Means.define d hset
  · by_cases hdefine01 : ∃ d : Directive, line = d.text (bytes "cmakedefine01") ∧
        ∀ b ∈ d.rest, isspace b
    · obtain ⟨d, rfl, hrest⟩ := hdefine01
      obtain ⟨-, -, hname, hbehind⟩ := submatches d (bytes "cmakedefine01")
      obtain ⟨hnone, hsome⟩ := exec_cmakedef01 d hrest
      rw [doReplaceCmakedef, hnone]
      dsimp only
      rw [hsome]
      dsimp only
      rw [hname, hbehind, getValue]
      cases hvalue : dict.get d.name with
      | none => exact .zero d hrest hvalue
      | some value => exact .one d hrest (by simp [hvalue])
    · push Not at hdefine
      have hnone : ∀ d : Directive, line = d.text (bytes "cmakedefine01") →
          ¬ ∀ b ∈ d.rest, isspace b := fun d hline hrest ↦ hdefine01 ⟨d, hline, hrest⟩
      rw [doReplaceCmakedef_of_noDirective
        ⟨exec_cmakedef_eq_none hdefine, exec_cmakedef01_eq_none hnone⟩]
      exact .other hdefine hnone

/-- A template for one line: one newline at its end, and what the reading buffer and the scans ask
for. The line has no reference that is met, or it gets shorter, and it is no directive of the first
form, so that the new lines find room. -/
structure LineTemplate (dict : Dictionary) (template : List Piece) : Prop
    extends Benign dict template where
  wellFormed : WellFormed template
  isLine : IsLine (render template)
  fits : (render template).length < MAX_LINE_LENGTH
  shrinks : visited template = [] ∨ (expected dict template).length < (render template).length
  noDefine : ∀ d : Directive, expected dict template ≠ d.text (bytes "cmakedefine")

theorem LineTemplate.faithful {dict : Dictionary} {template : List Piece}
    (h : LineTemplate dict template) : Faithful dict template :=
  Benign.faithful h.wellFormed h.toBenign <|
    calc (render template).length + 1 ≤ MAX_LINE_LENGTH := h.fits
      _ < 2 ^ MATCHES := by decide

/-- The new lines of such a template find room. -/
theorem LineTemplate.hasRoom {dict : Dictionary} {template : List Piece}
    (h : LineTemplate dict template) (q : Sorter) : hasRoom dict q (render template) = true := by
  obtain ⟨md, newLine, hmd, hnewLine, hwritten⟩ := h.faithful.exists_rebuild q
  have hnul := h.isLine.nulFree
  have hsize : (render template).length + 1 ≤ newLineSize (render template) md :=
    Nat.le_add_right _ _
  have hstored : stored (render template) newLine ≤ (render template).length + 1 := by
    rcases hwritten with ⟨rfl, -⟩ | ⟨hvisited, rfl⟩
    · exact le_rfl
    · have hshorter := h.shrinks.resolve_left hvisited
      rw [stored, if_neg (by simp), List.length_append, List.length_singleton]
      omega
  rw [Program.hasRoom, hmd, Option.bind_some, hnewLine, Option.map_some, Option.getD_some,
    terminate_of_rebuild hnul hwritten]
  apply decide_eq_true
  exact ⟨hstored.trans hsize, (stored_le_iff dict _ (nul_not_mem_expected hnul)).mpr h.noDefine⟩

/-- Lines that fit the reading buffer are processed one by one. -/
theorem main_of_fits {dict : Dictionary} {q : Sorter} {lines outs : List Bytes}
    (hlines : ∀ line ∈ lines, IsLine line) (hfits : ∀ line ∈ lines, line.length < MAX_LINE_LENGTH)
    (houts : lines.mapM (processLine dict q) = some outs) :
    main dict q lines.flatten = some outs.flatten := by
  have hlinewise : Linewise dict q lines := linewise_of_lineOk hlines fun line hline ↦
    let ⟨_, hout⟩ := exists_of_mapM houts hline
    lineOk_of_fits (hlines line hline) (hfits line hline) hout
  obtain ⟨other, hother, hmain⟩ := hlinewise
  rwa [Option.some.inj (houts.symm.trans hother)]

/-- A file of line templates becomes the lines that they mean. -/
theorem configure_templates {dict : Dictionary} (q : Sorter) {templates : List (List Piece)}
    (h : ∀ template ∈ templates, LineTemplate dict template) :
    configure dict q (templates.map render).flatten =
      some (templates.map fun template ↦
        doReplaceCmakedef dict (expected dict template)).flatten := by
  have hlines : ∀ line ∈ templates.map render, IsLine line :=
    List.forall_mem_map.mpr fun template htemplate ↦ (h template htemplate).isLine
  have hfits : ∀ line ∈ templates.map render, line.length < MAX_LINE_LENGTH :=
    List.forall_mem_map.mpr fun template htemplate ↦ (h template htemplate).fits
  have hroom : ((templates.map render).all fun line ↦ hasRoom dict q (cString line)) = true := by
    rw [List.all_eq_true, List.forall_mem_map]
    intro template htemplate
    rw [cString_eq_self (h template htemplate).isLine.nulFree]
    exact (h template htemplate).hasRoom q
  rw [configure, readLoop_of_fits hlines hfits, if_pos hroom]
  apply main_of_fits hlines hfits
  rw [List.mapM_map]
  exact mapM_of_some fun template htemplate ↦ processLine_render (h template htemplate).faithful

theorem ne_text_of_exec {line : Bytes} (hnul : NUL ∉ line) (h : exec cmakedefPat line = none)
    (d : Directive) : line ≠ d.text (bytes "cmakedefine") := by
  rintro rfl
  rw [exec_cmakedef d hnul] at h
  cases h

/-- **What counts of the arguments.** A run that ends, with success or not, ends in the same way
with every other command line that gives each name the same last value. -/
theorem program_congr (q : Sorter) (files : Files) (argv0 input output : CString)
    {args other : List CString} (hargs : ∀ arg ∈ args, equals ∈ arg.1)
    (hother : ∀ arg ∈ other, equals ∈ arg.1)
    (hlast : ∀ name, lastValue args name = lastValue other name) {exit : Exit} {after : Files}
    (hrun : program q files (argv0 :: input :: output :: args) = some (exit, after)) :
    program q files (argv0 :: input :: output :: other) = some (exit, after) := by
  have hnames : names (texts args) = names (texts other) := by
    ext name
    rw [mem_names_iff hargs, mem_names_iff hother, hlast]
  rw [← hrun]
  by_cases hroom : (names (texts args)).card ≤ SLOT_LIMIT
  · have hdict : lastValues args = lastValues other := by
      rw [lastValues, lastValues, Dictionary.mk.injEq]
      exact funext hlast
    rw [program_of_accepted q files argv0 input output ⟨hargs, hroom⟩,
      program_of_accepted q files argv0 input output ⟨hother, hnames ▸ hroom⟩, hdict]
  · rw [program_of_not_room q files argv0 input output hroom,
      program_of_not_room q files argv0 input output (hnames ▸ hroom)]

/-- The order of arguments for different names does not matter. -/
theorem lastValue_perm {args other : List CString} (h : args.Perm other)
    (hnodup : (args.map fun arg ↦ nameOf arg.1).Nodup) (name : Bytes) :
    lastValue args name = lastValue other name := by
  have hperm := h.filter fun arg : CString ↦ nameOf arg.1 = name
  have hsame : (args.filter fun arg ↦ nameOf arg.1 = name).map (fun arg ↦ nameOf arg.1) =
      List.replicate (args.filter fun arg ↦ nameOf arg.1 = name).length name := by
    refine List.eq_replicate_iff.mpr ⟨List.length_map _, fun other hother ↦ ?_⟩
    obtain ⟨arg, harg, rfl⟩ := List.mem_map.mp hother
    exact of_decide_eq_true (List.mem_filter.mp harg).2
  have hfew : (args.filter fun arg ↦ nameOf arg.1 = name).length ≤ 1 := by
    rw [← List.nodup_replicate, ← hsame]
    exact hnodup.sublist (List.filter_sublist.map _)
  rw [lastValue, lastValue]
  cases hfilter : args.filter fun arg ↦ nameOf arg.1 = name with
  | nil =>
    rw [hfilter] at hperm
    rw [hperm.nil_eq]
  | cons arg rest =>
    rw [hfilter] at hperm hfew
    obtain rfl : rest = [] := by simpa using hfew
    rw [List.singleton_perm.mp hperm]

/-- A text that is an argument. -/
def setA : CString := ⟨bytes "A=1", by decide⟩

def setB : CString := ⟨bytes "B=", by decide⟩

/-- One file to read, and every file can be written. -/
def oneFile (name text : Bytes) : Files where
  content := Function.update (fun _ ↦ none) name (some text)
  writable _ := true

def fileIn : CString := ⟨bytes "a.in", by decide⟩

def fileOut : CString := ⟨bytes "a.h", by decide⟩

def fileNext : CString := ⟨bytes "b.h", by decide⟩

theorem accepted_setA : Accepted [setA] := ⟨by decide, by decide⟩

/-- The template for one line with one reference. -/
def oneReference : List (List Piece) :=
  [[.text (bytes "x "), .ref .at (bytes "A"), .text (bytes "\n")]]

/-- The files behind a run on the template. -/
def oneRun : Files := (oneFile fileIn.1 (bytes "x @A@\n")).write fileOut (bytes "x 1\n")

theorem program_oneReference :
    program insertionSorter (oneFile fileIn.1 (bytes "x @A@\n"))
        [fileIn, fileIn, fileOut, setA, setB] = some (.success, oneRun) := by
  have htemplate : ∀ template ∈ oneReference, LineTemplate (lastValues [setA, setB]) template := by
    rw [oneReference, List.forall_mem_singleton]
    refine ⟨⟨⟨by decide +kernel, by decide +kernel, by decide +kernel⟩, by decide +kernel,
      by decide +kernel⟩, by decide +kernel, ?_, by decide +kernel, by decide +kernel, ?_⟩
    · exact IsLine.of_append (by decide : newline ∉ bytes "x @A@") (by decide)
    · exact ne_text_of_exec (by decide +kernel) (by decide +kernel)
  have hinput : (oneFile fileIn.1 (bytes "x @A@\n")).content fileIn =
      some (oneReference.map render).flatten := rfl
  have htext : (oneReference.map fun template ↦ doReplaceCmakedef (lastValues [setA, setB])
      (expected (lastValues [setA, setB]) template)).flatten = bytes "x 1\n" := by
    decide +kernel
  rw [program_eq insertionSorter fileIn ⟨by decide, by decide⟩ hinput rfl (by decide),
    configure_templates insertionSorter htemplate, Option.map_some, htext, oneRun]

theorem program_congr_swapped :
    program insertionSorter (oneFile fileIn.1 (bytes "x @A@\n"))
      [fileIn, fileIn, fileOut, setB, setA] = some (.success, oneRun) :=
  program_congr insertionSorter _ fileIn fileIn fileOut (by decide) (by decide)
    (lastValue_perm (List.Perm.swap _ _ _) (by decide)) program_oneReference

/-- **The tool configures its template.** Every reference becomes the last value of its name, and
a directive of the second form what its name says; the output file holds the lines in order, and
no other file is written. -/
theorem program_configures (q : Sorter) {files : Files} (argv0 : CString) {input output : CString}
    {templates : List (List Piece)} (hargs : Accepted args)
    (hinput : files.content input = some (templates.map render).flatten)
    (houtput : files.writable output) (hne : input ≠ output)
    (htemplates : ∀ template ∈ templates, LineTemplate (lastValues args) template) :
    ∃ lines, List.Forall₂ (Means (lastValues args))
        (templates.map (expected (lastValues args))) lines ∧
      program q files (argv0 :: input :: output :: args) =
        some (.success, files.write output lines.flatten) := by
  refine ⟨templates.map fun template ↦
    doReplaceCmakedef (lastValues args) (expected (lastValues args) template), ?_, ?_⟩
  · rw [List.forall₂_map_left_iff, List.forall₂_map_right_iff, List.forall₂_same]
    intro template htemplate
    exact means_doReplaceCmakedef _
      (nul_not_mem_expected (htemplates template htemplate).isLine.nulFree)
  · rw [program_eq q argv0 hargs hinput houtput hne, configure_templates q htemplates,
      Option.map_some]

/-- A reference, and a directive for a name that is not set. -/
def twoLines : List (List Piece) :=
  [[.text (bytes "x "), .ref .at (bytes "A"), .text (bytes "\n")],
    [.text (bytes "#cmakedefine01 B\n")]]

theorem lineTemplate_twoLines :
    ∀ template ∈ twoLines, LineTemplate (lastValues [setA]) template := by
  simp only [twoLines, List.forall_mem_cons, List.not_mem_nil, false_implies, implies_true,
    and_true]
  refine ⟨⟨⟨⟨by decide +kernel, by decide +kernel, by decide +kernel⟩, by decide +kernel,
    by decide +kernel⟩, by decide +kernel, ?_, by decide +kernel, by decide +kernel, ?_⟩,
    ⟨⟨⟨by decide +kernel, by decide +kernel, by decide +kernel⟩, by decide +kernel,
    by decide +kernel⟩, by decide +kernel, ?_, by decide +kernel, by decide +kernel, ?_⟩⟩
  · exact IsLine.of_append (by decide : newline ∉ bytes "x @A@") (by decide)
  · exact ne_text_of_exec (by decide +kernel) (by decide +kernel)
  · exact IsLine.of_append (by decide : newline ∉ bytes "#cmakedefine01 B") (by decide)
  · exact ne_text_of_exec (by decide +kernel) (by decide +kernel)

theorem program_configures_twoLines :
    ∃ lines, List.Forall₂ (Means (lastValues [setA])) [bytes "x 1\n", bytes "#cmakedefine01 B\n"]
        lines ∧
      program insertionSorter (oneFile fileIn.1 (bytes "x @A@\n#cmakedefine01 B\n"))
          [fileIn, fileIn, fileOut, setA] =
        some (.success, (oneFile fileIn.1 (bytes "x @A@\n#cmakedefine01 B\n")).write fileOut
          lines.flatten) := by
  have hinput : (oneFile fileIn.1 (bytes "x @A@\n#cmakedefine01 B\n")).content fileIn =
      some (twoLines.map render).flatten := rfl
  exact program_configures insertionSorter fileIn accepted_setA hinput rfl (by decide)
    lineTemplate_twoLines

/-! ## Configuring once more -/

/-- Behind the number sign of a directive stands a `c`. -/
theorem not_directive {indent gap rest : Bytes} (hindent : ∀ b ∈ indent, isspace b)
    (hgap : ∀ b ∈ gap, isspace b) (hspace : ∀ b ∈ rest.head?, isspace b = false)
    (hc : rest.head? ≠ some 0x63) {word : Bytes} (hword : word.head? = some 0x63) (d : Directive) :
    indent ++ (bytes "#" ++ (gap ++ rest)) ≠ d.text word := by
  intro h
  simp only [Directive.text, Directive.words, List.flatten_cons] at h
  obtain ⟨tail, hsplit⟩ := List.head?_eq_some_iff.mp hword
  have hwordHead : ∀ after, ∀ b ∈ (word ++ after).head?, isspace b = false := by
    intro after b hb
    rw [hsplit, List.cons_append, List.head?_cons] at hb
    obtain rfl := Option.some.inj hb
    decide
  have hsharp := eq_of_run hindent d.indent_space (sharp_head _) (sharp_head _) h
  have hbehind := eq_of_run hgap d.gap_space hspace (hwordHead _)
    (List.append_cancel_left hsharp.2)
  apply hc
  rw [hbehind.2, hsplit]
  rfl

theorem noDirective_of_hash {indent gap rest : Bytes} (hindent : ∀ b ∈ indent, isspace b)
    (hgap : ∀ b ∈ gap, isspace b) (hspace : ∀ b ∈ rest.head?, isspace b = false)
    (hc : rest.head? ≠ some 0x63) : NoDirective (indent ++ (bytes "#" ++ (gap ++ rest))) :=
  ⟨exec_cmakedef_eq_none (not_directive hindent hgap hspace hc rfl),
    exec_cmakedef01_eq_none fun d hline ↦
      absurd hline (not_directive hindent hgap hspace hc rfl d)⟩

theorem noDirective_undef (name : Bytes) :
    NoDirective (bytes "/* #undef " ++ name ++ bytes " */\n") := by
  have hne : ∀ (d : Directive) (word : Bytes),
      bytes "/* #undef " ++ name ++ bytes " */\n" ≠ d.text word := by
    intro d word h
    simp only [Directive.text, Directive.words, List.flatten_cons] at h
    have hslash : ∀ b ∈ (bytes "/* #undef " ++ name ++ bytes " */\n").head?, isspace b = false := by
      intro b hb
      obtain rfl : 0x2f = b := by simpa [bytes] using hb
      decide
    have hline := eq_of_run (fun _ hb ↦ absurd hb List.not_mem_nil) d.indent_space hslash
      (sharp_head _) h
    have hhead := congrArg List.head? hline.2
    simp [bytes] at hhead
  exact ⟨exec_cmakedef_eq_none fun d ↦ hne d _,
    exec_cmakedef01_eq_none fun d hline ↦ absurd hline (hne d _)⟩

/-- No directive is written. -/
theorem Means.noDirective {dict : Dictionary} {line out : Bytes} (h : Means dict line out) :
    NoDirective out := by
  have hdefine : ∀ rest, NoDirective (bytes "#define " ++ rest) := by
    intro rest
    have hhead : (bytes "define " ++ rest).head? = some 0x64 := by simp [bytes]
    have hsplit : bytes "#define " ++ rest =
        [] ++ (bytes "#" ++ ([] ++ (bytes "define " ++ rest))) := by simp [bytes]
    rw [hsplit]
    apply noDirective_of_hash (by simp) (by simp)
    · rw [hhead]
      intro b hb
      obtain rfl := Option.some.inj hb
      decide
    · rw [hhead]
      decide
  cases h with
  | define d hget =>
    have hhead : (bytes "define" ++ (d.sep ++ (d.name ++ d.rest))).head? = some 0x64 := by
      simp [bytes]
    have hsplit : d.text (bytes "define") = d.indent ++ (bytes "#" ++ (d.gap ++
        (bytes "define" ++ (d.sep ++ (d.name ++ d.rest))))) := by
      simp [Directive.text, Directive.words]
    rw [hsplit]
    apply noDirective_of_hash d.indent_space d.gap_space
    · rw [hhead]
      intro b hb
      obtain rfl := Option.some.inj hb
      decide
    · rw [hhead]
      decide
  | undef d hget => exact noDirective_undef d.name
  | one d hrest hget =>
    rw [List.append_assoc, List.append_assoc]
    exact hdefine _
  | zero d hrest hget =>
    rw [List.append_assoc, List.append_assoc]
    exact hdefine _
  | other hdefine hdefine01 =>
    exact ⟨exec_cmakedef_eq_none hdefine, exec_cmakedef01_eq_none hdefine01⟩

theorem nul_not_mem_doReplaceVariable {dict : Dictionary} {q : Sorter} {line out : Bytes}
    (hline : NUL ∉ line) (h : doReplaceVariable dict q line = some out) : NUL ∉ out := by
  rw [doReplaceVariable_eq_bind] at h
  obtain ⟨md, -, h⟩ := Option.bind_eq_some_iff.mp h
  obtain ⟨newLine, -, rfl⟩ := Option.map_eq_some_iff.mp h
  unfold terminate
  split_ifs
  · exact hline
  · exact fun hnul ↦ by simpa using List.mem_takeWhile_imp hnul

/-- One line that fits the buffer and opens no reference. -/
structure Settled (line : Bytes) : Prop where
  isLine : IsLine line
  fits : line.length < MAX_LINE_LENGTH
  noSigil : 0x40 ∉ line ∧ 0x24 ∉ line

theorem Settled.lineTemplate {line : Bytes} (h : Settled line) (hdirective : NoDirective line)
    (dict : Dictionary) : LineTemplate dict [.text line] where
  replaced visit hvisit := absurd hvisit (by simp [visited, refs, refsFrom, visits])
  skipped ref href := absurd href (by simp [refs, refsFrom])
  started first hfirst := absurd hfirst (by simp [visited, refs, refsFrom, visits])
  isolated := trivial
  inside visit hvisit := absurd hvisit (by simp [visited, refs, refsFrom, visits])
  wellFormed := by
    intro piece hpiece
    obtain rfl := List.mem_singleton.mp hpiece
    intro b hb
    refine ⟨?_, ?_, ?_⟩ <;> rintro rfl
    exacts [h.noSigil.1 hb, h.noSigil.2 hb, h.isLine.nulFree hb]
  isLine := by simpa [Piece.render] using h.isLine
  fits := by simpa [Piece.render] using h.fits
  shrinks := Or.inl (by simp [visited, refs, refsFrom, visits])
  noDefine := by
    have hexpected : expected dict [.text line] = line := List.append_nil line
    rw [hexpected]
    exact ne_text_of_exec h.isLine.nulFree hdirective.1

theorem exists_of_mem_mapM {α β : Type} {f : α → Option β} {items : List α} {outs : List β}
    (h : items.mapM f = some outs) {out : β} (hout : out ∈ outs) :
    ∃ item ∈ items, f item = some out := by
  induction items generalizing outs with
  | nil =>
    obtain rfl := Option.some.inj h
    exact absurd hout List.not_mem_nil
  | cons item items ih =>
    rw [List.mapM_cons] at h
    obtain ⟨first, hfirst, h⟩ := Option.bind_eq_some_iff.mp h
    obtain ⟨rest, hrest, h⟩ := Option.bind_eq_some_iff.mp h
    obtain rfl := Option.some.inj h
    rcases List.mem_cons.mp hout with rfl | hout
    · exact ⟨item, List.mem_cons_self, hfirst⟩
    · obtain ⟨other, hother, hother'⟩ := ih hrest hout
      exact ⟨other, List.mem_cons_of_mem _ hother, hother'⟩

/-- A file whose lines were once written by the tool stays as it is. -/
theorem configure_settled {dict : Dictionary} {q : Sorter} {lines outs : List Bytes}
    (hlines : ∀ line ∈ lines, IsLine line) (houts : lines.mapM (processLine dict q) = some outs)
    (hsettled : ∀ out ∈ outs, Settled out) (dict' : Dictionary) (q' : Sorter) :
    configure dict' q' outs.flatten = some outs.flatten := by
  have hwritten : ∀ out ∈ outs, NoDirective out := by
    intro out hout
    obtain ⟨line, hline, hprocess⟩ := exists_of_mem_mapM houts hout
    obtain ⟨replaced, hreplaced, rfl⟩ := Option.map_eq_some_iff.mp hprocess
    exact (means_doReplaceCmakedef dict
      (nul_not_mem_doReplaceVariable (hlines line hline).nulFree hreplaced)).noDirective
  have htemplates : ∀ template ∈ outs.map (fun out ↦ [Piece.text out]),
      LineTemplate dict' template := by
    rw [List.forall_mem_map]
    exact fun out hout ↦ (hsettled out hout).lineTemplate (hwritten out hout) dict'
  have hmain := configure_templates q' htemplates
  simp only [List.map_map, Function.comp_def, render_cons, Piece.render, render_nil,
    List.append_nil, expected_cons, Piece.expected, expected_nil, List.map_id'] at hmain
  rw [hmain]
  congr 1
  refine congrArg List.flatten ?_
  calc (outs.map fun out ↦ doReplaceCmakedef dict' out)
      = outs.map id := List.map_congr_left fun out hout ↦
        doReplaceCmakedef_of_noDirective (hwritten out hout)
    _ = outs := List.map_id outs

/-- **Configuring once more.** When a run succeeds, and every line of its template fits the reading
buffer and becomes one such line without the bytes that open a reference, another run on the output
writes the same text, whatever its variables. -/
theorem program_again (q q' : Sorter) {files files' : Files} (argv0 : CString)
    {input output next : CString} {args other : List CString} {lines outs : List Bytes}
    (hargs : Accepted args) (hother : Accepted other)
    (hinput : files.content input = some lines.flatten)
    (hlines : ∀ line ∈ lines, IsLine line ∧ line.length < MAX_LINE_LENGTH)
    (houtput : files.writable output) (hne : input ≠ output)
    (hnext : files.writable next) (hneNext : output ≠ next)
    (houts : lines.mapM (processLine (lastValues args) q) = some outs)
    (hsettled : ∀ out ∈ outs, Settled out)
    (hrun : program q files (argv0 :: input :: output :: args) = some (.success, files')) :
    files'.content output = some outs.flatten ∧
      program q' files' (argv0 :: output :: next :: other) =
        some (.success, files'.write next outs.flatten) := by
  have hmain : main (lastValues args) q lines.flatten = some outs.flatten :=
    main_of_fits (fun line hline ↦ (hlines line hline).1) (fun line hline ↦ (hlines line hline).2)
      houts
  rw [program_eq q argv0 hargs hinput houtput hne] at hrun
  obtain ⟨text, htext, hfiles⟩ := Option.map_eq_some_iff.mp hrun
  obtain rfl : text = outs.flatten := by
    unfold configure at htext
    split_ifs at htext
    exact Option.some.inj (htext.symm.trans hmain)
  obtain rfl : files.write output outs.flatten = files' := congrArg Prod.snd hfiles
  have hwritten : (files.write output outs.flatten).content output = some outs.flatten :=
    Function.update_self _ _ _
  refine ⟨hwritten, ?_⟩
  rw [program_eq q' argv0 hother hwritten hnext hneNext, configure_settled
    (fun line hline ↦ (hlines line hline).1) houts hsettled, Option.map_some]

theorem program_again_reference :
    (oneRun.content fileOut = some (bytes "x 1\n")) ∧
      program insertionSorter oneRun [fileIn, fileOut, fileNext, setB] =
        some (.success, oneRun.write fileNext (bytes "x 1\n")) := by
  have hlines : ∀ line ∈ [bytes "x @A@\n"], IsLine line ∧ line.length < MAX_LINE_LENGTH := by
    rw [List.forall_mem_singleton]
    exact ⟨IsLine.of_append (by decide : newline ∉ bytes "x @A@") (by decide), by decide⟩
  have hsettled : ∀ out ∈ [bytes "x 1\n"], Settled out := by
    rw [List.forall_mem_singleton]
    exact ⟨IsLine.of_append (by decide : newline ∉ bytes "x 1") (by decide), by decide, by decide⟩
  exact program_again insertionSorter insertionSorter fileIn 
    ⟨by decide, by decide⟩ ⟨by decide, by decide⟩ rfl hlines rfl (by decide) rfl (by decide)
    (by decide +kernel) hsettled program_oneReference

end Vodka.Genconfig.Program
