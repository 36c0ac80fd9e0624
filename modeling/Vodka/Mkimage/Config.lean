import Mathlib.Tactic
import Vodka.Foundation.Endian
import Vodka.Mkimage.DynOffsets

/-!
# Configuration of the boot image

The state that the lines of a configuration file build: the image configuration
with its growing array of DCD words, and the offset of the IVT in the layout. A
directive is one line split into its arguments. Files named by lines are given
by a function from paths to contents, and an allocator says which sizes it can
provide. Log output is left out.
-/

namespace Vodka.Mkimage.Config

open Foundation.Endian DynOffsets

def MBR_OFFSET : ℕ := 0x0

def MBR_SIZE : ℕ := 0x1000

def QSPI_IVT_OFFSET : ℕ := 0x0

def SD_IVT_OFFSET : ℕ := 0x1000

def QSPI_PARAMS_SIZE : ℕ := 0x200

def QSPI_PARAMS_OFFSET : ℕ := 0x200

def HSE_FW_MAX_SIZE : ℕ := 0x80000

def HSE_SYS_IMG_MAX_SIZE : ℕ := 0xc000

def DCD_HEADER : ℕ := 0x600000d2

def DCD_MAXIMUM_SIZE : ℕ := 8192

def DCD_WRITE_TAG : ℕ := 0xcc

def DCD_CHECK_TAG : ℕ := 0xcf

/-- `sizeof(struct ivt)` -/
def IVT_SIZE : ℕ := 256

/-- `sizeof(struct application_boot_code)` -/
def APP_CODE_SIZE : ℕ := 64

def EXIT_FAILURE : ℤ := 1

def EINVAL : ℤ := 22

def ENOMEM : ℤ := 12

/-- The components of `struct program_image`. -/
inductive Part
  | mbrReserved
  | ivt
  | qspiParams
  | dcd
  | hseFw
  | hseSysImg
  | appCode
  | code
  deriving DecidableEq

abbrev ProgramImage := Part → ImageComp

/-- The static `image_layout`. -/
def initialLayout : ProgramImage
  | .mbrReserved => ⟨MBR_OFFSET, MBR_SIZE, 0, 0⟩
  | .ivt => ⟨0, IVT_SIZE, 0, 0⟩
  | .qspiParams => ⟨QSPI_PARAMS_OFFSET, QSPI_PARAMS_SIZE, 0, 0⟩
  | .dcd => ⟨AUTO_OFFSET, DCD_MAXIMUM_SIZE, 0, 0⟩
  | .hseFw => ⟨AUTO_OFFSET, HSE_FW_MAX_SIZE, 0, 0⟩
  | .hseSysImg => ⟨AUTO_OFFSET, HSE_SYS_IMG_MAX_SIZE, 0, 0⟩
  | .appCode => ⟨AUTO_OFFSET, APP_CODE_SIZE, 0, 0⟩
  | .code => ⟨AUTO_OFFSET, 0, 0, 8⟩

/-- `iconfig.dcd`: the allocated block, if any, as words that are none while indeterminate, and
the sizes in bytes. -/
structure DcdArray where
  data : Option (List (Option ℕ))
  size : ℕ
  allocatedSize : ℕ
  deriving DecidableEq

/-- `struct image_config`. A mapped file is its contents. -/
structure ImageConfig where
  dcd : DcdArray
  qspiParams : List UInt8
  dataFileSize : ℕ
  hseEnable : Bool
  hseFw : List UInt8
  flashBoot : Bool
  a53Boot : Bool
  err051257 : Bool
  deriving DecidableEq

/-- The static `iconfig`. -/
def initialConfig : ImageConfig where
  dcd := ⟨none, 0, 0⟩
  qspiParams := []
  dataFileSize := 0
  hseEnable := false
  hseFw := []
  flashBoot := false
  a53Boot := true
  err051257 := false

structure State where
  iconfig : ImageConfig
  imageLayout : ProgramImage

def initialState : State := ⟨initialConfig, initialLayout⟩

/-- What ends a function early: an error it returns, the exit of the program, or an access outside
an array or through a null pointer. -/
inductive Failure
  | error (errno : ℤ)
  | exit (status : ℤ)
  | outOfBounds
  deriving DecidableEq

/-- The value of a computation that goes on. -/
theorem exists_of_bind_ok {α β : Type} {result : Except Failure α} {rest : α → Except Failure β}
    {value : β} (h : result.bind rest = .ok value) :
    ∃ first, result = .ok first ∧ rest first = .ok value := by
  cases result with
  | error failure => exact absurd h (by simp [Except.bind])
  | ok first => exact ⟨first, rfl, h⟩

inductive DcdCmd
  | write
  | clearMask
  | setMask
  | checkMaskClear
  | checkMaskSet
  | checkNotMask
  | checkNotClear
  | invalid
  deriving DecidableEq

/-- `struct dcd_args`, with its 32-bit members. -/
structure DcdArgs where
  cmd : DcdCmd
  addr : BitVec 32
  value : BitVec 32
  nbytes : BitVec 32
  count : BitVec 32
  deriving DecidableEq

/-- The checks of `get_dcd_cmd_args` behind the scan of the line. -/
def checkDcdCmdArgs (dcd : DcdArgs) : Except Failure DcdArgs :=
  if dcd.cmd = .invalid then .error (.error (-EINVAL))
  else if dcd.nbytes ≠ 1 ∧ dcd.nbytes ≠ 2 ∧ dcd.nbytes ≠ 4 then .error (.error (-EINVAL))
  else .ok dcd

/-- `realloc` on the block of words: the old words, then indeterminate ones. -/
def reallocWords (block : List (Option ℕ)) (bytes : ℕ) : List (Option ℕ) :=
  block.take (bytes / 4) ++ List.replicate (bytes / 4 - block.length) none

/-- `push_to_dcd_array`. The allocator tells whether it can provide a size. -/
def pushToDcdArray (allocates : ℕ → Bool) (data : ℕ) (dcd : DcdArray) : Except Failure DcdArray :=
  let grown : Except Failure DcdArray :=
    if dcd.allocatedSize ≤ dcd.size + 4 then
      let allocatedSize := if dcd.allocatedSize = 0 then 2 * 4 else dcd.allocatedSize * 2
      if allocates allocatedSize then
        .ok { dcd with
          data := some (reallocWords (dcd.data.getD []) allocatedSize)
          allocatedSize := allocatedSize }
      else .error (.error (-ENOMEM))
    else .ok dcd
  grown.bind fun dcd ↦
    let elem := dcd.size / 4
    match dcd.data with
    | some block =>
      if elem < block.length then
        .ok { dcd with data := some (block.set elem (some data)), size := dcd.size + 4 }
      else .error .outOfBounds
    | none => .error .outOfBounds

/-- `DCD_COMMAND_HEADER` -/
def dcdCommandHeader (tag len params : ℕ) : ℕ :=
  (tag ||| byteSwap 2 len <<< 8 ||| params <<< 24) % 2 ^ 32

/-- `DCD_PARAMS` -/
def dcdParams (set mask : Bool) (len : ℕ) : ℕ :=
  len &&& 0x7 ||| (if set then 1 <<< 4 else 0) ||| if mask then 1 <<< 3 else 0

/-- `DCD_WRITE_HEADER` -/
def dcdWriteHeader (n params : ℕ) : ℕ := dcdCommandHeader DCD_WRITE_TAG (4 + n * 8) params

/-- `DCD_CHECK_HEADER` -/
def dcdCheckHeader (params : ℕ) : ℕ := dcdCommandHeader DCD_CHECK_TAG 16 params

/-- `DCD_CHECK_HEADER_NO_COUNT` -/
def dcdCheckHeaderNoCount (params : ℕ) : ℕ := dcdCommandHeader DCD_CHECK_TAG 12 params

/-- The switch of `add_to_dcd`: `write`, `mask` and `set`. -/
def dcdCmdFlags : DcdCmd → Option (Bool × Bool × Bool)
  | .write => some (true, false, false)
  | .checkMaskClear => some (false, false, false)
  | .checkMaskSet => some (false, false, true)
  | .clearMask => some (true, true, false)
  | .checkNotMask => some (false, true, false)
  | .setMask => some (true, true, true)
  | .checkNotClear => some (false, true, true)
  | .invalid => none

def addToDcd (allocates : ℕ → Bool) (dcdArg : DcdArgs) (dcd : DcdArray) :
    Except Failure DcdArray := do
  let started : Except Failure DcdArray :=
    if dcd.data.isNone then pushToDcdArray allocates DCD_HEADER dcd else .ok dcd
  let dcd ← started
  match dcdCmdFlags dcdArg.cmd with
  | none => .error (.error (-EINVAL))
  | some (write, mask, set) =>
    let params := dcdParams set mask dcdArg.nbytes.toNat
    let header :=
      if write then dcdWriteHeader 1 params
      else if dcdArg.count ≠ 0 then dcdCheckHeader params
      else dcdCheckHeaderNoCount params
    let dcd ← pushToDcdArray allocates header dcd
    let dcd ← pushToDcdArray allocates (byteSwap 4 dcdArg.addr.toNat) dcd
    let dcd ← pushToDcdArray allocates (byteSwap 4 dcdArg.value.toNat) dcd
    if !write && decide (dcdArg.count ≠ 0) then
      pushToDcdArray allocates (byteSwap 4 dcdArg.count.toNat) dcd
    else .ok dcd

inductive BootType
  | qspi
  | sd
  | emmc
  deriving DecidableEq

/-- One line of the configuration file with its arguments. -/
inductive Directive
  | bootCore (a53 : Bool)
  | bootFrom (boot : BootType)
  | hseFw (path : String)
  | dcd (args : DcdArgs)
  | qspiParamsFile (path : String)
  | dataFile (size : BitVec 32)
  | err051257Workaround
  deriving DecidableEq

/-- `map_file`. An empty file cannot be mapped. -/
def mapFile (files : String → Except ℤ (List UInt8)) (path : String) :
    Except Failure (List UInt8) :=
  match files path with
  | .error errno => .error (.error (-errno))
  | .ok [] => .error (.error (-EINVAL))
  | .ok data => .ok data

def parseBootCore (a53 : Bool) (state : State) : State :=
  { state with iconfig := { state.iconfig with a53Boot := a53 } }

/-- `parse_boot_cmd`. Only `qspi` touches `flash_boot`. -/
def parseBootCmd (boot : BootType) (state : State) : State :=
  if boot = .qspi then
    { iconfig := { state.iconfig with flashBoot := true }
      imageLayout := setOffset state.imageLayout .ivt QSPI_IVT_OFFSET }
  else { state with imageLayout := setOffset state.imageLayout .ivt SD_IVT_OFFSET }

def parseHseCmd (files : String → Except ℤ (List UInt8)) (path : String) (state : State) :
    Except Failure State := do
  let fwData ← mapFile files path
  pure { state with iconfig := { state.iconfig with hseEnable := true, hseFw := fwData } }

def parseDcdCmd (allocates : ℕ → Bool) (args : DcdArgs) (state : State) :
    Except Failure State := do
  let args ← checkDcdCmdArgs args
  let dcd ← addToDcd allocates args state.iconfig.dcd
  pure { state with iconfig := { state.iconfig with dcd := dcd } }

def parseQspiCmd (files : String → Except ℤ (List UInt8)) (path : String) (state : State) :
    Except Failure State := do
  let qspiParams ← mapFile files path
  pure { state with iconfig := { state.iconfig with qspiParams := qspiParams } }

def parseDataFileCmd (size : BitVec 32) (state : State) : State :=
  { state with iconfig := { state.iconfig with dataFileSize := size.toNat } }

def parseErr051257 (state : State) : State :=
  { state with iconfig := { state.iconfig with err051257 := true } }

def applyDirective (allocates : ℕ → Bool) (files : String → Except ℤ (List UInt8))
    (state : State) : Directive → Except Failure State
  | .bootCore a53 => .ok (parseBootCore a53 state)
  | .bootFrom boot => .ok (parseBootCmd boot state)
  | .hseFw path => parseHseCmd files path state
  | .dcd args => parseDcdCmd allocates args state
  | .qspiParamsFile path => parseQspiCmd files path state
  | .dataFile size => .ok (parseDataFileCmd size state)
  | .err051257Workaround => .ok (parseErr051257 state)

/-- `build_conf` on the directives of a file: the first failing one ends it. -/
def buildConf (allocates : ℕ → Bool) (files : String → Except ℤ (List UInt8))
    (directives : List Directive) : Except Failure State :=
  directives.foldlM (applyDirective allocates files) initialState

end Vodka.Mkimage.Config
