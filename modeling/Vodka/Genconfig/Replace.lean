import Mathlib.Tactic
import Vodka.Foundation.FlatRegex
import Vodka.Foundation.Qsort

/-!
# The configure-file tool

The tool rewrites a template with a dictionary of variables: it reads the file
into buffers, replaces the variable references of each buffer and then a
`#cmakedefine` directive. Strings are lists of bytes without their terminating
NUL. Reading behind a terminator, a full row of records and a copy of negative
length have no result. Buffer capacities are left out, and the variables are
given by the dictionary that the command line has built.
-/

namespace Vodka.Genconfig.Replace

open Foundation.FlatRegex Foundation.Qsort

abbrev Bytes := List UInt8

/-- The bytes of an ASCII string of the source. -/
def bytes (text : String) : Bytes := text.toList.map fun c ↦ UInt8.ofNat c.toNat

def NUL : UInt8 := 0

def newline : UInt8 := 0x0a

/-- `[[:graph:]]` in the C locale -/
def isgraph (b : UInt8) : Bool := 0x21 ≤ b && b ≤ 0x7e

/-- `[[:space:]]` in the C locale -/
def isspace (b : UInt8) : Bool := b == 0x20 || (0x09 ≤ b && b ≤ 0x0d)

/-- The symbol `.` of an extended regular expression. -/
def isany (b : UInt8) : Bool := b != NUL

def MAX_LINE_LENGTH : ℕ := 1024

/-- `ARRAY_SIZE(matches)`, the records of one row of `match_data` -/
def MATCHES : ℕ := 16

/-- The forms of a variable reference, in the order of `variable_pat`. -/
inductive Form
  | at
  | braces
  | cache
  | env
deriving DecidableEq

namespace Form

def all : List Form := [.at, .braces, .cache, .env]

/-- The opening brace is written `\x7b`. -/
def opening : Form → Bytes
  | .at => bytes "@"
  | .braces => bytes "$\x7b"
  | .cache => bytes "$CACHE\x7b"
  | .env => bytes "$ENV\x7b"

def closing : Form → UInt8
  | .at => 0x40
  | _ => 0x7d

end Form

def variablePat (form : Form) : Regex UInt8 := bracketed form.opening isgraph form.closing

def cmakedefPat : Regex UInt8 where
  items := [.many isspace, .lit (bytes "#"), .many isspace, .lit (bytes "cmakedefine"),
    .plus isspace, .plus isgraph, .many isany]
  atStart := true
  atEnd := true

def cmakedef01Pat : Regex UInt8 where
  items := [.many isspace, .lit (bytes "#"), .many isspace, .lit (bytes "cmakedefine01"),
    .plus isspace, .plus isgraph, .many isspace]
  atStart := true
  atEnd := true

/-- Variables and their values, both C strings. -/
structure Dictionary where
  get : Bytes → Option Bytes
  nulFree : ∀ name value, get name = some value → NUL ∉ value

/-- No variable is defined. -/
def Dictionary.unset : Dictionary where
  get _ := none
  nulFree _ _ h := by cases h

structure Regmatch where
  rmSo : ℕ
  rmEo : ℕ

structure MatchData where
  fullS : ℕ := 0
  fullE : ℕ := 0
  nameS : ℕ := 0
  nameE : ℕ := 0
  full : Bytes := []
  name : Bytes := []
  value : Option Bytes := none
deriving DecidableEq

/-- A record as `memset` leaves it. -/
def MatchData.zero : MatchData := {}

/-- `strndup(text + s, e - s)` -/
def slice (text : Bytes) (s e : ℕ) : Bytes := (text.drop s).take (e - s)

theorem slice_drop (text : Bytes) (offset s e : ℕ) :
    slice (text.drop offset) s e = slice text (offset + s) (offset + e) := by
  rw [slice, slice, List.drop_drop, Nat.add_sub_add_left]

theorem length_slice {text : Bytes} {s e : ℕ} (h : e ≤ text.length) :
    (slice text s e).length = e - s := by
  rw [slice, List.length_take, List.length_drop]
  omega

variable (dict : Dictionary)

def getValue (name : Bytes) : Option Bytes := dict.get name

def initMatchData (regmatch0 regmatch1 : Regmatch) (line : Bytes) : MatchData :=
  if regmatch0.rmEo = 0 then .zero
  else
    let name := slice line regmatch1.rmSo regmatch1.rmEo
    { fullS := regmatch0.rmSo
      fullE := regmatch0.rmEo
      nameS := regmatch1.rmSo
      nameE := regmatch1.rmEo
      full := slice line regmatch0.rmSo regmatch0.rmEo
      name := name
      value := getValue dict name }

/-- How the scanning loop ends. -/
inductive Scan
  | done (records : List MatchData)
  | pastEnd (records : List MatchData)
  | rowFull (records : List MatchData)
  | running (records : List MatchData)
deriving DecidableEq

/-- The scanning loop from `tmpLine`, given as an offset in the line. The offset is added to the
range of the match, and the sum is what `tmp_line` advances by. -/
def scanFrom (regex : Regex UInt8) (line : Bytes) : ℕ → ℕ → List MatchData → Scan
  | 0, _, records => .running records
  | fuel + 1, tmpLine, records =>
    if line.length < tmpLine then .pastEnd records
    else
      match exec regex (line.drop tmpLine) with
      | none => .done records
      | some found =>
        if records.length = MATCHES then .rowFull records
        else
          let matches0 : Regmatch := ⟨found.start + tmpLine, found.stop + tmpLine⟩
          let matches1 : Regmatch := ⟨found.so 1, found.eo 1⟩
          let m := initMatchData dict matches0 matches1 (line.drop tmpLine)
          scanFrom regex line fuel (tmpLine + matches0.rmEo) (records ++ [m])

/-- The loop for one pattern. Every turn but the last advances. -/
def scan (form : Form) (line : Bytes) : Scan :=
  scanFrom dict (variablePat form) line (line.length + 2) 0 []

/-- One row of `match_data`, the unused records zero. -/
def row (form : Form) (line : Bytes) : Option (List MatchData) :=
  match scan dict form line with
  | .done records => some (records ++ List.replicate (MATCHES - records.length) .zero)
  | _ => none

def cmp (a b : MatchData) : ℤ := (a.fullE : ℤ) - b.fullE

/-- Up to where the gap behind a record is copied: behind the last one, the terminator as well. -/
def nextStart (line : Bytes) : List MatchData → ℕ
  | [] => line.length + 1
  | following :: _ => following.fullS

/-- The rebuild loop over the records, with what `new_line` holds so far. -/
def rebuild (line : Bytes) : List MatchData → Bytes → Option Bytes
  | [], newLine => some newLine
  | m :: rest, newLine =>
    if m.fullE = 0 then rebuild line rest newLine
    else
      let newLine :=
        if newLine.headD NUL = NUL then newLine ++ line.take m.fullS else newLine
      let newLine := newLine ++ m.value.getD m.full
      if nextStart line rest < m.fullE then none
      else rebuild line rest (newLine ++ slice (line ++ [NUL]) m.fullE (nextStart line rest))

/-- The C string at the start of a buffer. -/
def cString (buffer : Bytes) : Bytes := buffer.takeWhile fun b ↦ b != NUL

/-- What is returned once the loop has written `newLine`. -/
def terminate (line newLine : Bytes) : Bytes :=
  if newLine = [] then line else cString (newLine ++ [NUL])

def doReplaceVariable (q : Sorter) (line : Bytes) : Option Bytes := do
  let rows ← Form.all.mapM fun form ↦ row dict form line
  let newLine ← rebuild line (q.sort 0 cmp rows.flatten) []
  return terminate line newLine

def doReplaceCmakedef (line : Bytes) : Bytes :=
  match exec cmakedefPat line with
  | some found =>
    let name := slice line (found.so 5) (found.eo 5)
    match getValue dict name with
    | some _ => line.take (found.so 3) ++ bytes "define" ++ line.drop (found.eo 3)
    | none => bytes "/* #undef " ++ name ++ bytes " */\n"
  | none =>
    match exec cmakedef01Pat line with
    | some found =>
      let name := slice line (found.so 5) (found.eo 5)
      let value := match getValue dict name with
        | some _ => " 1"
        | none => " 0"
      bytes "#define " ++ name ++ bytes value ++ line.drop (found.eo 5)
    | none => line

/-- `fgets` with the given room: the buffer and what is left of the input. -/
def fgets : ℕ → Bytes → Bytes × Bytes
  | 0, input => ([], input)
  | _ + 1, [] => ([], [])
  | room + 1, b :: input =>
    if b = newline then ([b], input)
    else
      let after := fgets room input
      (b :: after.1, after.2)

/-- The buffers that the reading loop sees until `fgets` returns `NULL`. -/
def readLoop : ℕ → Bytes → List Bytes
  | 0, _ => []
  | _ + 1, [] => []
  | fuel + 1, b :: input =>
    let after := fgets (MAX_LINE_LENGTH - 1) (b :: input)
    after.1 :: readLoop fuel after.2

/-- One turn of the reading loop. -/
def processLine (q : Sorter) (line : Bytes) : Option Bytes :=
  (doReplaceVariable dict q line).map (doReplaceCmakedef dict)

/-- What `main` writes for an input file. -/
def main (q : Sorter) (input : Bytes) : Option Bytes :=
  ((readLoop input.length input).mapM fun buffer ↦ processLine dict q (cString buffer)).map
    List.flatten

end Vodka.Genconfig.Replace
