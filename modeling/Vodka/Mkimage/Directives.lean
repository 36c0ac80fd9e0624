import Mathlib.Tactic
import Vodka.Foundation.Scanf
import Vodka.Mkimage.Config

/-!
# Directives as text

The parsers of the configuration lines. A line is a string without its
terminating NUL. Each parser takes its arguments from the line with `sscanf` or
by comparing prefixes, and a token that does not fit in its buffer is an access
outside an array. Buffer sizes are those of hosts with pointers of eight bytes.
-/

namespace Vodka.Mkimage.Directives

open Foundation.Scanf Config

def POINTER_SIZE : ℕ := 8

def ltrim (s : List UInt8) : List UInt8 := s.dropWhile isSpace

/-- The complement of the set in `%[^ \t]`. -/
def isBlank (b : UInt8) : Bool := b == 0x20 || b == 0x09

/-- `%[^ \t]` -/
def wordFormat : Conversion := .text fun b ↦ !isBlank b

/-- `%*[^0]0x%x` -/
def numberFormat : List Conversion := [.skip fun b ↦ b != 0x30, .byte 0x30, .byte 0x78, .hex]

/-- What `sscanf` does with a token: it is stored with a NUL. -/
def storeToken (room : ℕ) (token : List UInt8) : Except Failure (List UInt8) :=
  if token.length + 1 ≤ room then .ok token else .error .outOfBounds

def dcdCmds : List (List UInt8 × DcdCmd) :=
  [(ascii "WRITE", .write),
   (ascii "CLEAR_MASK", .clearMask),
   (ascii "SET_MASK", .setMask),
   (ascii "CHECK_MASK_CLEAR", .checkMaskClear),
   (ascii "CHECK_MASK_SET", .checkMaskSet),
   (ascii "CHECK_NOT_MASK", .checkNotMask),
   (ascii "CHECK_NOT_CLEAR", .checkNotClear)]

/-- `sizeof(dcd_cmds) / 2`, the size of `cmd` -/
def dcdCmdSize : ℕ := dcdCmds.length * POINTER_SIZE / 2

/-- The loop over `dcd_cmds`. -/
def findDcdCmd (cmd : List UInt8) : DcdCmd :=
  dcdCmds.foldl (fun found entry ↦ if cmd = entry.1 then entry.2 else found) .invalid

def dcdFormat : List Conversion :=
  wordFormat :: (numberFormat ++ (numberFormat ++ (numberFormat ++ numberFormat)))

/-- `dcd->count` behind the scan: zero unless `sscanf` has stored five values. -/
def countOf : List Stored → BitVec 32
  | .number count :: _ => count
  | _ => 0

/-- The scan of `get_dcd_cmd_args`. -/
def scanDcdArgs (line : List UInt8) : Except Failure DcdArgs :=
  match sscanf dcdFormat line with
  | .text cmd :: numbers => do
    let cmd ← storeToken dcdCmdSize cmd
    match numbers with
    | .number nbytes :: .number addr :: .number value :: rest =>
      .ok
        { cmd := findDcdCmd cmd
          addr := addr
          value := value
          nbytes := nbytes
          count := countOf rest }
    | _ => .error (.error (-EINVAL))
  | _ => .error (.error (-EINVAL))

def getDcdCmdArgs (line : List UInt8) : Except Failure DcdArgs := do
  let dcd ← scanDcdArgs line
  checkDcdCmdArgs dcd

/-- `parse_boot_core`: the line starts with the name of a core. -/
def readBootCore (line : List UInt8) : Except Failure Directive :=
  if (ascii "m7").isPrefixOf line then .ok (.bootCore false)
  else if (ascii "a53").isPrefixOf line then .ok (.bootCore true)
  else .error (.error (-EINVAL))

/-- `parse_boot_cmd` -/
def readBootCmd (line : List UInt8) : Except Failure Directive :=
  if (ascii "qspi").isPrefixOf line then .ok (.bootFrom .qspi)
  else if (ascii "sd").isPrefixOf line then .ok (.bootFrom .sd)
  else if (ascii "emmc").isPrefixOf line then .ok (.bootFrom .emmc)
  else .error (.error (-EINVAL))

def pathOf (path : List UInt8) : String := String.ofList (path.map fun b ↦ Char.ofNat b.toNat)

/-- `"%[^"]"` -/
def hseFormat : List Conversion := [.byte 0x22, .text fun b ↦ b != 0x22, .byte 0x22]

/-- `parse_hse_cmd`: the buffer has the length of the line. -/
def readHseCmd (allocates : ℕ → Bool) (line : List UInt8) : Except Failure Directive :=
  let size := min line.length 256
  if allocates size then
    match sscanf hseFormat line with
    | .text path :: _ => (storeToken size path).map fun path ↦ .hseFw (pathOf path)
    | _ => .error (.error (-EINVAL))
  else .error (.error (-ENOMEM))

/-- `parse_dcd_cmd`; the checks follow with the command. -/
def readDcdCmd (line : List UInt8) : Except Failure Directive :=
  (scanDcdArgs line).map .dcd

/-- `parse_qspi_cmd` -/
def readQspiCmd (line : List UInt8) : Except Failure Directive :=
  .ok (.qspiParamsFile (pathOf line))

def dataFileCmds : List (List UInt8) := [ascii "SIZE"]

/-- `sizeof(data_file_cmds)`, the size of `cmd_str` -/
def dataFileCmdSize : ℕ := dataFileCmds.length * POINTER_SIZE

def dataFileFormat : List Conversion := wordFormat :: numberFormat

/-- `parse_data_file_cmd` -/
def readDataFileCmd (line : List UInt8) : Except Failure Directive :=
  match sscanf dataFileFormat line with
  | .text cmdStr :: numbers => do
    let cmdStr ← storeToken dataFileCmdSize cmdStr
    match numbers with
    | .number addr :: _ =>
      if cmdStr ∈ dataFileCmds then .ok (.dataFile addr) else .error (.error (-EINVAL))
    | _ => .error (.error (-EINVAL))
  | _ => .error (.error (-EINVAL))

/-- `parse_err051257` -/
def readErr051257 (_ : List UInt8) : Except Failure Directive := .ok .err051257Workaround

def parsers (allocates : ℕ → Bool) : List (List UInt8 × (List UInt8 → Except Failure Directive)) :=
  [(ascii "BOOT_CORE", readBootCore),
   (ascii "BOOT_FROM", readBootCmd),
   (ascii "HSE_FW", readHseCmd allocates),
   (ascii "DCD", readDcdCmd),
   (ascii "QSPI_PARAMS_FILE", readQspiCmd),
   (ascii "DATA_FILE", readDataFileCmd),
   (ascii "ERR051257_WORKAROUND", readErr051257)]

/-- The text part of `parse_config_line`. -/
def readDirective (allocates : ℕ → Bool) (line : List UInt8) : Except Failure Directive :=
  match (parsers allocates).find? fun parser ↦ parser.1.isPrefixOf line with
  | some (tag, parse) => parse (ltrim (line.drop tag.length))
  | none => .error (.error (-EINVAL))

def parseConfigLine (allocates : ℕ → Bool) (files : String → Except ℤ (List UInt8)) (state : State)
    (line : List UInt8) : Except Failure State := do
  let directive ← readDirective allocates line
  applyDirective allocates files state directive

end Vodka.Mkimage.Directives
