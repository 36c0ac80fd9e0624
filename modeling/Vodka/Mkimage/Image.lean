import Mathlib.Tactic
import Vodka.Mkimage.Header

/-!
# Writing and reading an image

The tool writes a cleared header and the payload, fills in the header, and can
read it back with `-l`. The reader finds the IVT at one of two places, follows
the pointers in it, and prints what it finds. The whole file is mapped here; the
program maps as many bytes as the payload has.
-/

namespace Vodka.Mkimage.Image

open Foundation.Alignment Foundation.ByteMemory Foundation.Endian Foundation.Qsort
open DynOffsets Config DcdArray Layout Accepted Header

def BOOT_TARGET_MASK : ℕ := 0x3

/-- The result of `write` on a regular file, which takes at most `0x7ffff000` bytes and refuses a
count that is not a signed size. -/
def writeResult (count : ℕ) : ℤ := if count < 2 ^ 63 then min count 0x7ffff000 else -1

/-- `copy_file`: the bytes appended to the image. The size of the file is taken as an `int`. -/
def copyFile (payload : List UInt8) (pad : ℤ) : Except Failure (List UInt8) :=
  if payload = [] then .error (.exit EXIT_FAILURE)
  else
    let size := (BitVec.ofNat 32 payload.length).toInt
    let written := writeResult (size % 2 ^ 64).toNat
    if written ≠ size then .error (.exit EXIT_FAILURE)
    else
      let tail := size.tmod 4
      let padding :=
        if pad = 1 ∧ tail ≠ 0 then (4 - tail).toNat else if pad > 1 then pad.toNat else 0
      .ok (payload.take written.toNat ++ List.replicate padding 0)

/-- `s32cc_vrec_header`. It returns no padding. -/
def vrecHeader (allocates : ℕ → Bool) (files : String → Except ℤ (List UInt8))
    (directives : List Directive) (sorter : Sorter) :
    Except Failure (State × ProgramImage × ℕ) :=
  match buildConf allocates files directives with
  | .error (.error errno) => .error (.exit errno)
  | .error failure => .error failure
  | .ok state =>
    (buildLayout sorter state.iconfig state.imageLayout).map fun result ↦ (state, result)

/-- The part of `main` that makes an image: the file and its length. -/
def createImage (allocates : ℕ → Bool) (files : String → Except ℤ (List UInt8))
    (directives : List Directive) (sorter : Sorter) (payload : List UInt8)
    (toolParams : ToolParams) : Except Failure (Memory × ℕ) := do
  let (state, layout, size) ← vrecHeader allocates files directives sorter
  let headerSize := size % 2 ^ 32
  let copied ← copyFile payload 0
  let (stores, result) := setHeader state.iconfig layout payload.length toolParams
  let _ ← result
  pure (writeAll (imageFile headerSize copied) (writes stores), headerSize + copied.length)

/-- A field of a packed structure. -/
def readField (memory : Memory) (offset width : ℕ) : ℕ := ofLittleEndian (read memory offset width)

def isIvtHeader (memory : Memory) (ptr : ℕ) : Bool :=
  decide (readField memory ptr 1 = IVT_TAG) &&
    decide (readField memory (ptr + 3) 1 = IVT_VERSION) &&
    decide (readField memory (ptr + 1) 2 = byteSwap 2 IVT_SIZE)

/-- `get_ivt_from_raw_blob`: the place of the IVT and `qspi_ivt`. -/
def getIvtFromRawBlob (memory : Memory) (size : ℤ) : Option (ℕ × Bool) :=
  if size < QSPI_IVT_OFFSET + IVT_SIZE then none
  else if isIvtHeader memory QSPI_IVT_OFFSET then some (QSPI_IVT_OFFSET, true)
  else if size < SD_IVT_OFFSET + IVT_SIZE then none
  else if isIvtHeader memory SD_IVT_OFFSET then some (SD_IVT_OFFSET, false)
  else none

/-- `s32cc_verify_header`, called with the size of the file for its `int`. -/
def verifyHeader (memory : Memory) (imageSize : ℕ) : ℤ :=
  if (getIvtFromRawBlob memory (BitVec.ofNat 32 imageSize).toInt).isNone then -1 else 0

/-- `struct layout_comp`, all zero when nothing is printed. -/
structure LayoutComp where
  offset : ℕ
  size : ℕ
  deriving DecidableEq

/-- What `s32cc_print_header` prints, apart from the order of the lines. -/
structure Printed where
  ivt : LayoutComp
  qspi : LayoutComp
  dcd : LayoutComp
  hseFw : LayoutComp
  hseImg : LayoutComp
  appHdr : LayoutComp
  app : LayoutComp
  bootTarget : ℕ
  qspiBoot : Bool
  loadAddress : ℕ
  entryPoint : ℕ
  deriving DecidableEq

/-- `s32cc_print_header` -/
def printHeader (memory : Memory) : Option Printed :=
  (getIvtFromRawBlob memory (SD_IVT_OFFSET + IVT_SIZE)).map fun (ivt, qspiBoot) ↦
    let dcdPointer := readField memory (ivt + 16) 4
    let hseFirmwarePointer := readField memory (ivt + 24) 4
    let hseSysImgPointer := readField memory (ivt + 52) 4
    let app := readField memory (ivt + 32) 4
    { ivt := ⟨ivt, IVT_SIZE⟩
      qspi := if qspiBoot then ⟨QSPI_PARAMS_OFFSET, QSPI_PARAMS_SIZE⟩ else ⟨0, 0⟩
      dcd :=
        if dcdPointer ≠ 0 then
          ⟨dcdPointer, byteSwap 2 (readField memory (dcdPointer + DCD_HEADER_LENGTH_OFFSET) 2)⟩
        else ⟨0, 0⟩
      hseFw := if hseFirmwarePointer ≠ 0 then ⟨hseFirmwarePointer, 0⟩ else ⟨0, 0⟩
      hseImg := if hseSysImgPointer ≠ 0 then ⟨hseSysImgPointer, HSE_SYS_IMG_MAX_SIZE⟩ else ⟨0, 0⟩
      appHdr := ⟨app, APP_CODE_SIZE⟩
      app := ⟨(app + APP_CODE_SIZE) % 2 ^ 32, readField memory (app + 12) 4⟩
      bootTarget := readField memory (ivt + 40) 4 &&& BOOT_TARGET_MASK
      qspiBoot := qspiBoot
      loadAddress := readField memory (app + 4) 4
      entryPoint := readField memory (app + 8) 4 }

/-- The size of the code that the configuration or the payload gives. -/
def codeSize (iconfig : ImageConfig) (payload : List UInt8) : ℕ :=
  if iconfig.dataFileSize ≠ 0 then iconfig.dataFileSize else payload.length

/-- What the configuration, the layout and the command line set, with the length of the code. -/
def expectedPrint (iconfig : ImageConfig) (layout : ProgramImage) (boot : BootType)
    (toolParams : ToolParams) (length : ℕ) : Printed where
  ivt := ⟨(layout .ivt).offset, IVT_SIZE⟩
  qspi := if boot = .qspi then ⟨(layout .qspiParams).offset, (layout .qspiParams).size⟩ else ⟨0, 0⟩
  dcd := if iconfig.dcd.size = 0 then ⟨0, 0⟩ else ⟨(layout .dcd).offset, iconfig.dcd.size⟩
  hseFw := if iconfig.hseEnable then ⟨(layout .hseFw).offset, 0⟩ else ⟨0, 0⟩
  hseImg :=
    if iconfig.hseEnable then ⟨(layout .hseSysImg).offset, (layout .hseSysImg).size⟩ else ⟨0, 0⟩
  appHdr := ⟨(layout .appCode).offset, (layout .appCode).size⟩
  app := ⟨(layout .code).offset, length⟩
  bootTarget := if iconfig.a53Boot then BCW_BOOT_TARGET_A53_0 else BCW_BOOT_TARGET_M7_0
  qspiBoot := decide (boot = .qspi)
  loadAddress := toolParams.addr.toNat
  entryPoint := toolParams.ep.toNat

/-- The image is accepted, its IVT is where the layout put it, and what is printed is what was
set, with the size of the code up to a multiple of 512. -/
structure Agrees (iconfig : ImageConfig) (layout : ProgramImage) (boot : BootType)
    (toolParams : ToolParams) (payload : List UInt8) (image : Memory × ℕ) : Prop where
  verified : verifyHeader image.1 image.2 = 0
  found : getIvtFromRawBlob image.1 (BitVec.ofNat 32 image.2).toInt =
    some ((layout .ivt).offset, decide (boot = .qspi))
  printed : printHeader image.1 = some (expectedPrint iconfig layout boot toolParams
    ((codeSize iconfig payload + 511) / 512 * 512))

/-- A stored field is read back. -/
theorem readField_write (memory : Memory) (offset width value : ℕ) :
    readField (write memory offset (littleEndian width value)) offset width =
      value % 256 ^ width := by
  have hread : read (write memory offset (littleEndian width value)) offset
      (littleEndian width value).length = littleEndian width value := read_write_self
  rw [length_littleEndian] at hread
  rw [readField, hread, ofLittleEndian_littleEndian]

/-- Another field keeps its value. -/
theorem readField_write_of_disjoint {memory : Memory} {offset width start count value : ℕ}
    (h : start + count ≤ offset ∨ offset + width ≤ start) :
    readField (write memory offset (littleEndian width value)) start count =
      readField memory start count := by
  unfold readField
  rw [read_write_of_disjoint]
  rwa [length_littleEndian]

/-- The header is cleared before it is filled in. -/
theorem readField_imageFile {headerSize offset width : ℕ} (payload : List UInt8)
    (h : offset + width ≤ headerSize) :
    readField (imageFile headerSize payload) offset width = 0 := by
  have hzero : read (imageFile headerSize payload) offset width = List.replicate width 0 := by
    apply read_eq_replicate
    intro address _ hend
    exact write_of_outside (.inl (by omega))
  rw [readField, hzero, ofLittleEndian_replicate_zero]

variable {iconfig : ImageConfig} {layout : ProgramImage} {toolParams : ToolParams} {stSize : ℕ}

/-- The fields of the IVT after its stores. -/
theorem readField_ivtStores (iconfig : ImageConfig) (layout : ProgramImage) (memory : Memory) :
    let after := writeAll memory (writes (ivtStores iconfig layout))
    let ivt := (layout .ivt).offset
    isIvtHeader after ivt = true ∧
      readField after (ivt + 16) 4 = (if iconfig.dcd.data.isSome then
        (layout .dcd).offset % 256 ^ 4 else readField memory (ivt + 16) 4) ∧
      readField after (ivt + 24) 4 = (if iconfig.hseEnable then
        (layout .hseFw).offset % 256 ^ 4 else readField memory (ivt + 24) 4) ∧
      readField after (ivt + 32) 4 = (layout .appCode).offset % 256 ^ 4 ∧
      readField after (ivt + 40) 4 =
        (if iconfig.a53Boot then BCW_BOOT_TARGET_A53_0 else BCW_BOOT_TARGET_M7_0) % 256 ^ 4 ∧
      readField after (ivt + 52) 4 = (if iconfig.hseEnable then
        (layout .hseSysImg).offset % 256 ^ 4 else readField memory (ivt + 52) 4) := by
  unfold ivtStores isIvtHeader
  cases iconfig.dcd.data.isSome <;> cases iconfig.hseEnable <;>
    simp (disch := omega) [writes, writeAll, storeField, readField_write,
      readField_write_of_disjoint] <;> decide

/-- The fields of the application header after its stores. -/
theorem readField_appStores (iconfig : ImageConfig) (layout : ProgramImage) (stSize : ℕ)
    (toolParams : ToolParams) (memory : Memory) :
    let after := writeAll memory
      (writes (appTagStores layout ++ appCodeStores iconfig layout stSize toolParams))
    let app := (layout .appCode).offset
    readField after (app + 4) 4 = toolParams.addr.toNat ∧
      readField after (app + 8) 4 = toolParams.ep.toNat ∧
      readField after (app + 12) 4 = alignUp 32 (codeLength iconfig stSize) 512 % 256 ^ 4 := by
  have haddr : toolParams.addr.toNat % 256 ^ 4 = toolParams.addr.toNat :=
    Nat.mod_eq_of_lt toolParams.addr.isLt
  have hep : toolParams.ep.toNat % 256 ^ 4 = toolParams.ep.toNat :=
    Nat.mod_eq_of_lt toolParams.ep.isLt
  unfold appTagStores appCodeStores
  simp (disch := omega) only [writes, writeAll, storeField, List.cons_append, List.nil_append,
    List.map_cons, List.map_nil, List.foldl_cons, List.foldl_nil, readField_write,
    readField_write_of_disjoint, haddr, hep, and_self]

theorem readField_dcdStores (memory : Memory) (hdata : iconfig.dcd.data.isSome) :
    readField (writeAll memory (writes (dcdStores iconfig layout)))
        ((layout .dcd).offset + DCD_HEADER_LENGTH_OFFSET) 2 = byteSwap 2 iconfig.dcd.size := by
  have hswap : byteSwap 2 iconfig.dcd.size % 256 ^ 2 = byteSwap 2 iconfig.dcd.size :=
    Nat.mod_eq_of_lt (byteSwap_lt 2 _)
  unfold dcdStores
  rw [if_pos hdata]
  simp only [writes, writeAll, storeField, List.map_cons, List.map_nil, List.foldl_cons,
    List.foldl_nil, readField_write, hswap]

/-! ## The written file -/

/-- The number of bytes that `copy_file` appends. -/
def copiedLength (payload : List UInt8) : ℕ := (BitVec.ofNat 32 payload.length).toInt.toNat

/-- A size as an `int` is not longer than the file. -/
theorem copiedLength_le (payload : List UInt8) : copiedLength payload ≤ payload.length := by
  have hmod : payload.length % 2 ^ 32 ≤ payload.length := Nat.mod_le _ _
  unfold copiedLength
  rw [BitVec.toInt_eq_toNat_cond, BitVec.toNat_ofNat]
  split_ifs <;> omega

/-- What `write` reports is the count, or it refuses a negative one. -/
theorem writeResult_eq {size : ℤ} (hlow : -2 ^ 31 ≤ size) (hhigh : size < 2 ^ 31)
    (h : writeResult (size % 2 ^ 64).toNat = size) :
    size.toNat ≤ 0x7ffff000 := by
  rcases lt_or_ge size 0 with hnegative | hpositive
  · rw [Int.toNat_of_nonpos hnegative.le]
    exact Nat.zero_le _
  · have hcount : (size % 2 ^ 64).toNat = size.toNat := by omega
    unfold writeResult at h
    rw [hcount, if_pos (by omega)] at h
    omega

theorem length_of_copyFile {payload copied : List UInt8} (h : copyFile payload 0 = .ok copied) :
    copied.length = copiedLength payload ∧ copiedLength payload ≤ 0x7ffff000 := by
  unfold copyFile at h
  dsimp only at h
  split_ifs at h with hempty hwritten hpad htail
  · exact absurd hpad.1 (by decide)
  · exact absurd htail (by decide)
  · have hsize := not_not.mp hwritten
    have hlow : -2 ^ 31 ≤ (BitVec.ofNat 32 payload.length).toInt := BitVec.le_toInt _
    have hhigh : (BitVec.ofNat 32 payload.length).toInt < 2 ^ 31 := BitVec.toInt_lt
    have hcopied : copied = payload.take (copiedLength payload) := by
      rw [hsize, Except.ok.injEq, List.replicate_zero, List.append_nil] at h
      exact h.symm
    rw [hcopied, List.length_take, Nat.min_eq_left (copiedLength_le payload)]
    exact ⟨rfl, writeResult_eq hlow hhigh hsize⟩

section Created

variable {allocates : ℕ → Bool} {files : String → Except ℤ (List UInt8)}
  {directives : List Directive} {boot : BootType} {sorter : Sorter} {state : State}
  {headerSize : ℕ} {payload : List UInt8} {image : Memory × ℕ}

/-- What a run without a fatal error has written. -/
theorem createImage_ok
    (h : AcceptedConf allocates files directives boot sorter state layout headerSize)
    (hcreate : createImage allocates files directives sorter payload toolParams = .ok image) :
    ∃ copied after, copied.length = copiedLength payload ∧ copiedLength payload ≤ 0x7ffff000 ∧
      (setHeader state.iconfig layout payload.length toolParams).2 = .ok after ∧
      image = (writeAll (imageFile headerSize copied)
        (writes (setHeader state.iconfig layout payload.length toolParams).1),
        headerSize + copied.length) := by
  have hvrec : vrecHeader allocates files directives sorter = .ok (state, layout, headerSize) := by
    unfold vrecHeader
    rw [h.conf]
    dsimp only
    rw [h.layout]
    rfl
  have hheader : headerSize % 2 ^ 32 = headerSize :=
    Nat.mod_eq_of_lt (h.headerSize_le.trans_lt (by decide))
  unfold createImage at hcreate
  rw [hvrec] at hcreate
  obtain ⟨made, hmade, hrest⟩ := exists_of_bind_ok hcreate
  rw [← Except.ok.inj hmade] at hrest
  obtain ⟨copied, hcopied, hrest⟩ := exists_of_bind_ok hrest
  obtain ⟨after, hafter, hrest⟩ := exists_of_bind_ok hrest
  rw [hheader] at hrest
  obtain ⟨hlength, hbound⟩ := length_of_copyFile hcopied
  exact ⟨copied, after, hlength, hbound, hafter, (Except.ok.inj hrest).symm⟩

/-- Components in front of the code end where the header ends or before. -/
theorem finish_le_headerSize
    (h : AcceptedConf allocates files directives boot sorter state layout headerSize) {part : Part}
    (hpart : some part ∈ layoutParts state.iconfig ∨ part = .appCode) :
    (layout part).offset + (layout part).size ≤ headerSize := by
  have hglued := h.layoutOk.glued.1
  rcases hpart with hpart | rfl
  · have hlast := h.layoutOk.last part hpart
    omega
  · exact hglued.ge

/-- No component behind the MBR area and the IVT starts at 0, so that its pointer is not taken for a
missing one. -/
theorem offset_ne_zero
    (h : AcceptedConf allocates files directives boot sorter state layout headerSize) {part : Part}
    (hpart : Present state.iconfig part) (hsize : 0 < (layout part).size) (hivt : part ≠ .ivt)
    (hmbr : part ≠ .mbrReserved) : (layout part).offset ≠ 0 := by
  have hoffset := ivt_offset_eq h
  by_cases hboot : boot = .qspi
  · have hivtSize : (layout .ivt).size = IVT_SIZE := h.size_eq .ivt
    have hdisjoint := h.layoutOk.disjoint part .ivt hpart
      (.inl ((mem_layoutParts _ .ivt).mpr trivial)) hivt
    rw [hoffset, if_pos hboot, hivtSize] at hdisjoint
    unfold QSPI_IVT_OFFSET IVT_SIZE at hdisjoint
    omega
  · obtain ⟨hmbrPart, hmbrOffset⟩ := (fixed_offset_eq h).1 hboot
    have hmbrSize : (layout .mbrReserved).size = MBR_SIZE := h.size_eq .mbrReserved
    have hdisjoint := h.layoutOk.disjoint part .mbrReserved hpart (.inl hmbrPart) hmbr
    rw [hmbrOffset, hmbrSize] at hdisjoint
    unfold MBR_SIZE at hdisjoint
    omega

/-! ## Reading back -/

section Reading

variable (copied : List UInt8) {after : ProgramImage}
  (h : AcceptedConf allocates files directives boot sorter state layout headerSize)
  (hafter : (setHeader state.iconfig layout stSize toolParams).2 = .ok after)

include h hafter

/-- A field of the image is one of its component alone. -/
theorem readField_part {part : Part}
    (hqspi : part = .ivt ∨ (boot = .qspi → state.iconfig.qspiParams.length ≤ QSPI_PARAMS_SIZE))
    (hpart : Present state.iconfig part) (field width : ℕ)
    (hfield : field + width ≤ (layout part).size) :
    readField (writeAll (imageFile headerSize copied)
        (writes (setHeader state.iconfig layout stSize toolParams).1))
        ((layout part).offset + field) width =
      readField (writeAll (imageFile headerSize copied)
        (writes (partStores state.iconfig layout stSize toolParams part)))
        ((layout part).offset + field) width := by
  rw [readField, read_setHeader h (hqspi.imp_right fun hlength hboot _ ↦ hlength hboot) hpart _
    hfield, filter_setHeader_of_ok hafter, readField]

/-- The reader finds the IVT where the layout put it. -/
theorem getIvtFromRawBlob_eq {size : ℤ} (hsize : (layout .ivt).offset + IVT_SIZE ≤ size) :
    getIvtFromRawBlob (writeAll (imageFile headerSize copied)
        (writes (setHeader state.iconfig layout stSize toolParams).1)) size =
      some ((layout .ivt).offset, decide (boot = .qspi)) := by
  have hivtSize : (layout .ivt).size = IVT_SIZE := h.size_eq .ivt
  have hpart : Present state.iconfig .ivt := .inl ((mem_layoutParts _ .ivt).mpr trivial)
  have hheader : isIvtHeader (writeAll (imageFile headerSize copied)
      (writes (setHeader state.iconfig layout stSize toolParams).1)) (layout .ivt).offset =
        true := by
    have htag := readField_part copied h hafter (.inl rfl) hpart 0 1
      (by rw [hivtSize]; decide)
    have hversion := readField_part copied h hafter (.inl rfl) hpart 3 1
      (by rw [hivtSize]; decide)
    have hlength := readField_part copied h hafter (.inl rfl) hpart 1 2
      (by rw [hivtSize]; decide)
    rw [Nat.add_zero] at htag
    rw [isIvtHeader, htag, hversion, hlength]
    exact (readField_ivtStores state.iconfig layout (imageFile headerSize copied)).1
  have hoffset := ivt_offset_eq h
  unfold getIvtFromRawBlob
  by_cases hboot : boot = .qspi
  · rw [if_pos hboot] at hoffset
    rw [hoffset] at hheader hsize ⊢
    rw [if_neg (not_lt.mpr hsize), if_pos hheader]
    simp [hboot]
  · rw [if_neg hboot] at hoffset
    obtain ⟨hmbrPart, hmbrOffset⟩ := (fixed_offset_eq h).1 hboot
    have hmbrSize : (layout .mbrReserved).size = MBR_SIZE := h.size_eq .mbrReserved
    have hinside := finish_le_headerSize h (.inl hmbrPart)
    rw [hmbrOffset, hmbrSize] at hinside
    unfold MBR_SIZE at hinside
    -- Nothing is stored in the MBR area, which the header leaves cleared.
    have hzero : readField (writeAll (imageFile headerSize copied)
        (writes (setHeader state.iconfig layout stSize toolParams).1)) 0 1 = 0 := by
      have hkept := readField_part copied h hafter (.inr fun hflash ↦ absurd hflash hboot)
        (.inl hmbrPart) 0 1
        (by rw [hmbrSize]; decide)
      rw [hmbrOffset] at hkept
      exact hkept.trans (readField_imageFile copied (by omega))
    have hnot : isIvtHeader (writeAll (imageFile headerSize copied)
        (writes (setHeader state.iconfig layout stSize toolParams).1)) QSPI_IVT_OFFSET =
          false := by
      unfold isIvtHeader QSPI_IVT_OFFSET
      rw [hzero]
      rfl
    rw [hoffset] at hheader hsize ⊢
    have hlong : ¬ size < (QSPI_IVT_OFFSET : ℤ) + IVT_SIZE := by
      unfold SD_IVT_OFFSET at hsize
      unfold QSPI_IVT_OFFSET
      push_cast at hsize ⊢
      omega
    rw [if_neg hlong, hnot, if_neg (by simp), if_neg (not_lt.mpr hsize), if_pos hheader]
    simp [hboot]

/-- The pointers and the boot target in the IVT of the image. -/
theorem readField_ivt :
    let image := writeAll (imageFile headerSize copied)
      (writes (setHeader state.iconfig layout stSize toolParams).1)
    let ivt := (layout .ivt).offset
    readField image (ivt + 16) 4 =
        (if state.iconfig.dcd.data.isSome then (layout .dcd).offset else 0) ∧
      readField image (ivt + 24) 4 =
        (if state.iconfig.hseEnable then (layout .hseFw).offset else 0) ∧
      readField image (ivt + 32) 4 = (layout .appCode).offset ∧
      readField image (ivt + 40) 4 =
        (if state.iconfig.a53Boot then BCW_BOOT_TARGET_A53_0 else BCW_BOOT_TARGET_M7_0) ∧
      readField image (ivt + 52) 4 =
        (if state.iconfig.hseEnable then (layout .hseSysImg).offset else 0) := by
  have hivtSize : (layout .ivt).size = IVT_SIZE := h.size_eq .ivt
  have hpart : Present state.iconfig .ivt := .inl ((mem_layoutParts _ .ivt).mpr trivial)
  have hinside := finish_le_headerSize h (.inl ((mem_layoutParts _ .ivt).mpr trivial))
  have hheaderSize := h.headerSize_le
  have hfits (part : Part) (hin : some part ∈ layoutParts state.iconfig ∨ part = .appCode) :
      (layout part).offset % 256 ^ 4 = (layout part).offset := by
    have hend := finish_le_headerSize h hin
    exact Nat.mod_eq_of_lt (by omega)
  rw [hivtSize] at hinside
  unfold IVT_SIZE at hinside
  have hfield (field : ℕ) (hle : field + 4 ≤ 256) :=
    readField_part copied h hafter (.inl rfl) hpart field 4 (by rw [hivtSize]; exact hle)
  have hzero (field : ℕ) (hle : field + 4 ≤ 256) :
      readField (imageFile headerSize copied) ((layout .ivt).offset + field) 4 = 0 :=
    readField_imageFile copied (by omega)
  obtain ⟨-, hdcd, hhseFw, happ, hboot, hhseSysImg⟩ :=
    readField_ivtStores state.iconfig layout (imageFile headerSize copied)
  have hhse (hhseEnable : state.iconfig.hseEnable = true) :
      (layout .hseFw).offset % 256 ^ 4 = (layout .hseFw).offset ∧
        (layout .hseSysImg).offset % 256 ^ 4 = (layout .hseSysImg).offset :=
    ⟨hfits .hseFw (.inl ((mem_layoutParts _ .hseFw).mpr hhseEnable)),
      hfits .hseSysImg (.inl ((mem_layoutParts _ .hseSysImg).mpr hhseEnable))⟩
  refine ⟨?dcd, ?hseFw, ?app, ?boot, ?hseSysImg⟩
  case dcd =>
    rw [hfield 16 (by decide), partStores, hdcd, hzero 16 (by decide)]
    split_ifs with hdata
    · exact hfits .dcd (.inl (h.laidOut.dcd_mem_layoutParts hdata))
    · rfl
  case hseFw =>
    rw [hfield 24 (by decide), partStores, hhseFw, hzero 24 (by decide)]
    split_ifs with hhseEnable
    · exact (hhse hhseEnable).1
    · rfl
  case app =>
    rw [hfield 32 (by decide), partStores, happ, hfits .appCode (.inr rfl)]
  case boot =>
    rw [hfield 40 (by decide), partStores, hboot]
    split_ifs <;> rfl
  case hseSysImg =>
    rw [hfield 52 (by decide), partStores, hhseSysImg, hzero 52 (by decide)]
    split_ifs with hhseEnable
    · exact (hhse hhseEnable).2
    · rfl

/-- The length of the DCD that its pointer leads to. -/
theorem readField_dcd
    (hqspi : boot = .qspi → state.iconfig.qspiParams.length ≤ QSPI_PARAMS_SIZE)
    (hdata : state.iconfig.dcd.data.isSome) :
    byteSwap 2 (readField (writeAll (imageFile headerSize copied)
        (writes (setHeader state.iconfig layout stSize toolParams).1))
        ((layout .dcd).offset + DCD_HEADER_LENGTH_OFFSET) 2) = state.iconfig.dcd.size := by
  obtain ⟨words, hwords⟩ := (stateOk_of_buildConf h.conf).dcd
  have hsize : (layout .dcd).size = state.iconfig.dcd.size := h.size_eq .dcd
  have hfour := four_le_size hwords hdata
  have hle := h.partsInput.dcd_le
  unfold DCD_MAXIMUM_SIZE at hle
  rw [readField_part copied h hafter (.inr hqspi) (.inl (h.laidOut.dcd_mem_layoutParts hdata)) _ 2
    (by rw [hsize]; unfold DCD_HEADER_LENGTH_OFFSET; omega), partStores,
    readField_dcdStores _ hdata, byteSwap_byteSwap]
  omega

omit h hafter in
/-- A pointer that is zero when there is no component, and only then. -/
theorem pointerComp {present : Bool} {offset : ℕ} (size : ℕ) (hoffset : present → offset ≠ 0) :
    (if (if present then offset else 0) ≠ 0 then
        (⟨if present then offset else 0, size⟩ : LayoutComp) else ⟨0, 0⟩) =
      if present then ⟨offset, size⟩ else ⟨0, 0⟩ := by
  cases present with
  | false => rfl
  | true => simp [hoffset rfl]

/-- What is printed is what was set, apart from the length of the code, which is rounded in 32
bits. -/
theorem printHeader_eq
    (hqspi : boot = .qspi → state.iconfig.qspiParams.length ≤ QSPI_PARAMS_SIZE) :
    printHeader (writeAll (imageFile headerSize copied)
        (writes (setHeader state.iconfig layout stSize toolParams).1)) =
      some (expectedPrint state.iconfig layout boot toolParams
        (alignUp 32 (codeLength state.iconfig stSize) 512 % 256 ^ 4)) := by
  have hglued := h.layoutOk.glued
  have hheaderSize := h.headerSize_le
  have happSize : (layout .appCode).size = APP_CODE_SIZE := h.size_eq .appCode
  have happ (field : ℕ) (hle : field + 4 ≤ 64) :=
    readField_part copied h hafter (.inr hqspi) (.inr (.inl rfl)) field 4
      (by rw [happSize]; exact hle)
  obtain ⟨hdcd, hhseFw, happPointer, hboot, hhseSysImg⟩ := readField_ivt copied h hafter
  obtain ⟨haddr, hep, hcode⟩ := readField_appStores state.iconfig layout stSize toolParams
    (imageFile headerSize copied)
  have hdcdLength := readField_dcd copied h hafter hqspi
  have hivt : getIvtFromRawBlob (writeAll (imageFile headerSize copied)
      (writes (setHeader state.iconfig layout stSize toolParams).1)) (SD_IVT_OFFSET + IVT_SIZE) =
      some ((layout .ivt).offset, decide (boot = .qspi)) := by
    apply getIvtFromRawBlob_eq copied h hafter
    rw [ivt_offset_eq h]
    split_ifs <;> decide
  set image := writeAll (imageFile headerSize copied)
    (writes (setHeader state.iconfig layout stSize toolParams).1) with himage
  have hdcdComp : (if (if state.iconfig.dcd.data.isSome then (layout .dcd).offset else 0) ≠ 0 then
      (⟨if state.iconfig.dcd.data.isSome then (layout .dcd).offset else 0,
        byteSwap 2 (readField image ((if state.iconfig.dcd.data.isSome then
          (layout .dcd).offset else 0) + DCD_HEADER_LENGTH_OFFSET) 2)⟩ : LayoutComp)
      else ⟨0, 0⟩) = if state.iconfig.dcd.size = 0 then ⟨0, 0⟩
        else ⟨(layout .dcd).offset, state.iconfig.dcd.size⟩ := by
    obtain ⟨words, hwords⟩ := (stateOk_of_buildConf h.conf).dcd
    by_cases hdata : state.iconfig.dcd.data.isSome
    · have hne := hwords.isSome_iff.mp hdata
      have hsize : (layout .dcd).size = state.iconfig.dcd.size := h.size_eq .dcd
      have hoffset : (layout .dcd).offset ≠ 0 :=
        offset_ne_zero h (.inl (h.laidOut.dcd_mem_layoutParts hdata)) (by omega) (by decide)
          (by decide)
      rw [if_pos hdata, if_pos hoffset, if_neg hne, hdcdLength hdata]
    · have hzero := not_not.mp fun hne ↦ hdata (hwords.isSome_iff.mpr hne)
      simp [hdata, hzero]
  have hhsePart (hhseEnable : state.iconfig.hseEnable = true) :
      (layout .hseFw).offset ≠ 0 ∧ (layout .hseSysImg).offset ≠ 0 := by
    have hsizes := h.layoutInput.hseFw
    rw [if_pos hhseEnable] at hsizes
    have hfwSize : (layout .hseFw).size = state.iconfig.hseFw.length := h.size_eq .hseFw
    have himgSize : (layout .hseSysImg).size = HSE_SYS_IMG_MAX_SIZE := h.size_eq .hseSysImg
    exact ⟨offset_ne_zero h (.inl ((mem_layoutParts _ .hseFw).mpr hhseEnable)) (by omega)
        (by decide) (by decide),
      offset_ne_zero h (.inl ((mem_layoutParts _ .hseSysImg).mpr hhseEnable))
        (by rw [himgSize]; decide) (by decide) (by decide)⟩
  have hqspiComp : (if decide (boot = .qspi) = true then
      (⟨QSPI_PARAMS_OFFSET, QSPI_PARAMS_SIZE⟩ : LayoutComp) else ⟨0, 0⟩) =
      if boot = .qspi then ⟨(layout .qspiParams).offset, (layout .qspiParams).size⟩
      else ⟨0, 0⟩ := by
    by_cases hflash : boot = .qspi
    · have hqspiSize : (layout .qspiParams).size = QSPI_PARAMS_SIZE := h.size_eq .qspiParams
      rw [if_pos hflash, ((fixed_offset_eq h).2 hflash).2, hqspiSize]
      simp [hflash]
    · simp [hflash]
  have hcodeOffset : ((layout .appCode).offset + APP_CODE_SIZE) % 2 ^ 32 =
      (layout .code).offset := by
    rw [hglued.2, hglued.1, happSize]
    apply Nat.mod_eq_of_lt
    rw [hglued.1, happSize] at hheaderSize
    omega
  have htarget : (if state.iconfig.a53Boot then BCW_BOOT_TARGET_A53_0 else BCW_BOOT_TARGET_M7_0) &&&
      BOOT_TARGET_MASK =
      if state.iconfig.a53Boot then BCW_BOOT_TARGET_A53_0 else BCW_BOOT_TARGET_M7_0 := by
    split_ifs <;> rfl
  unfold printHeader
  rw [hivt]
  simp only [Option.map_some, hdcd, hhseFw, happPointer, hboot, hhseSysImg, hdcdComp, hqspiComp,
    hcodeOffset, htarget, happ 4 (by decide), happ 8 (by decide), happ 12 (by decide), partStores,
    haddr, hep, hcode, pointerComp _ fun hhseEnable ↦ (hhsePart hhseEnable).1,
    pointerComp _ fun hhseEnable ↦ (hhsePart hhseEnable).2, expectedPrint, happSize,
    show (layout .hseSysImg).size = HSE_SYS_IMG_MAX_SIZE from h.size_eq .hseSysImg]

end Reading

/-- The rounded length is the length of the code unless rounding leaves 32 bits. -/
theorem codeLength_eq_iff (iconfig : ImageConfig) (payload : List UInt8) :
    alignUp 32 (codeLength iconfig payload.length) 512 % 256 ^ 4 =
        (codeSize iconfig payload + 511) / 512 * 512 ↔
      codeSize iconfig payload + 511 < 2 ^ 32 := by
  constructor
  · intro heq
    have hlt : (codeSize iconfig payload + 511) / 512 * 512 < 256 ^ 4 := by
      rw [← heq]
      exact Nat.mod_lt _ (by decide)
    omega
  · intro hfits
    have hlength : codeLength iconfig payload.length = codeSize iconfig payload := by
      unfold codeLength codeSize at *
      split_ifs at hfits ⊢
      · rfl
      · exact Nat.mod_eq_of_lt (by omega)
    have hround : alignUp 32 (codeSize iconfig payload) (2 ^ 9) =
        (codeSize iconfig payload + 2 ^ 9 - 1) / 2 ^ 9 * 2 ^ 9 := alignUp_eq (by omega)
    have hword : (codeSize iconfig payload + 2 ^ 9 - 1) / 2 ^ 9 * 2 ^ 9 < 256 ^ 4 := by omega
    calc alignUp 32 (codeLength iconfig payload.length) 512 % 256 ^ 4
        = alignUp 32 (codeSize iconfig payload) (2 ^ 9) % 256 ^ 4 := by
          rw [hlength]
          rfl
      _ = (codeSize iconfig payload + 2 ^ 9 - 1) / 2 ^ 9 * 2 ^ 9 := by
          rw [hround, Nat.mod_eq_of_lt hword]
      _ = (codeSize iconfig payload + 511) / 512 * 512 := rfl

theorem expectedPrint_inj {iconfig : ImageConfig} {length other : ℕ} :
    expectedPrint iconfig layout boot toolParams length =
      expectedPrint iconfig layout boot toolParams other ↔ length = other := by
  constructor
  · intro heq
    exact congrArg (fun printed : Printed ↦ printed.app.size) heq
  · rintro rfl
    rfl

/-- A run of the tool on an accepted configuration that reports no fatal error, whose mapping covers
the header. An entry point below the load address is a fatal error. -/
structure CreatedImage (allocates : ℕ → Bool) (files : String → Except ℤ (List UInt8))
    (directives : List Directive) (boot : BootType) (sorter : Sorter) (state : State)
    (layout : ProgramImage) (headerSize : ℕ) (payload : List UInt8) (toolParams : ToolParams)
    (image : Memory × ℕ) : Prop where
  accepted : AcceptedConf allocates files directives boot sorter state layout headerSize
  qspiParams : state.iconfig.qspiParams.length ≤ QSPI_PARAMS_SIZE
  mapped : headerSize ≤ (payload.length + 4095) / 4096 * 4096
  created : createImage allocates files directives sorter payload toolParams = .ok image

theorem ivt_le_headerSize
    (h : AcceptedConf allocates files directives boot sorter state layout headerSize) :
    (layout .ivt).offset + IVT_SIZE ≤ headerSize := by
  have hivtSize : (layout .ivt).size = IVT_SIZE := h.size_eq .ivt
  rw [← hivtSize]
  exact finish_le_headerSize h (.inl ((mem_layoutParts _ .ivt).mpr trivial))

/-- A file of 2 GiB or more has a negative size for the reader. -/
theorem toInt_imageSize {size : ℕ} (hsize : size < 2 ^ 32) :
    (BitVec.ofNat 32 size).toInt = if size < 2 ^ 31 then (size : ℤ) else size - 2 ^ 32 := by
  rw [BitVec.toInt_eq_toNat_cond, BitVec.toNat_ofNat, Nat.mod_eq_of_lt hsize]
  split_ifs <;> omega

theorem lt_of_verified
    (h : CreatedImage allocates files directives boot sorter state layout headerSize payload
      toolParams image) (hverified : verifyHeader image.1 image.2 = 0) :
    headerSize + copiedLength payload < 2 ^ 31 := by
  obtain ⟨copied, after, hlength, hbound, -, rfl⟩ := createImage_ok h.accepted h.created
  have hheaderSize := h.accepted.headerSize_le
  by_contra hlong
  have hnegative : (BitVec.ofNat 32 (headerSize + copied.length)).toInt <
      QSPI_IVT_OFFSET + IVT_SIZE := by
    rw [toInt_imageSize (by omega), if_neg (by omega)]
    unfold QSPI_IVT_OFFSET IVT_SIZE
    omega
  unfold verifyHeader getIvtFromRawBlob at hverified
  rw [if_pos hnegative] at hverified
  exact absurd hverified (by decide)

/-- **Agreement.** What is read back agrees with what was written if and only if the file is
shorter than 2 GiB and the size of the code can be rounded up in 32 bits. -/
theorem agrees_iff
    (h : CreatedImage allocates files directives boot sorter state layout headerSize payload
      toolParams image) :
    Agrees state.iconfig layout boot toolParams payload image ↔
      headerSize + copiedLength payload < 2 ^ 31 ∧
        codeSize state.iconfig payload + 511 < 2 ^ 32 := by
  have hverified := lt_of_verified h
  have hheaderSize := h.accepted.headerSize_le
  have hivt := ivt_le_headerSize h.accepted
  obtain ⟨copied, after, hlength, hbound, hafter, rfl⟩ := createImage_ok h.accepted h.created
  have hprinted := printHeader_eq copied h.accepted hafter fun _ ↦ h.qspiParams
  constructor
  · intro hagrees
    have heq := hagrees.printed
    rw [hprinted, Option.some.injEq, expectedPrint_inj, codeLength_eq_iff] at heq
    exact ⟨hverified hagrees.verified, heq⟩
  · rintro ⟨hshort, hcode⟩
    have hfound : getIvtFromRawBlob (writeAll (imageFile headerSize copied) (writes
        (setHeader state.iconfig layout payload.length toolParams).1))
        (BitVec.ofNat 32 (headerSize + copied.length)).toInt =
          some ((layout .ivt).offset, decide (boot = .qspi)) := by
      apply getIvtFromRawBlob_eq copied h.accepted hafter
      rw [toInt_imageSize (by omega), if_pos (by omega)]
      push_cast
      omega
    constructor
    · unfold verifyHeader
      rw [hfound]
      rfl
    · exact hfound
    · rw [hprinted, (codeLength_eq_iff _ payload).mpr hcode]

/-- A payload that one `write` takes is copied whole. -/
theorem copyFile_of_le (hne : payload ≠ []) (hlength : payload.length ≤ 0x7ffff000) :
    copyFile payload 0 = .ok payload := by
  have hsize : (BitVec.ofNat 32 payload.length).toInt = payload.length := by
    rw [toInt_imageSize (by omega), if_pos (by omega)]
  have hcount : ((payload.length : ℤ) % 2 ^ 64).toNat = payload.length := by omega
  have hwritten : writeResult payload.length = payload.length := by
    unfold writeResult
    rw [if_pos (by omega)]
    omega
  unfold copyFile
  dsimp only
  rw [if_neg hne, hsize, hcount, hwritten, if_neg (by simp), if_neg (by simp), if_neg (by simp)]
  simp

theorem exists_createImage
    (h : AcceptedConf allocates files directives boot sorter state layout headerSize)
    (hne : payload ≠ []) (hlength : payload.length ≤ 0x7ffff000)
    (hcompletes : Completes state.iconfig payload.length toolParams) :
    ∃ image, createImage allocates files directives sorter payload toolParams = .ok image := by
  have hvrec : vrecHeader allocates files directives sorter = .ok (state, layout, headerSize) := by
    unfold vrecHeader
    rw [h.conf]
    dsimp only
    rw [h.layout]
    rfl
  obtain ⟨after, hafter⟩ := (setHeader_ok_iff layout _ _ h.partsInput.dcd_le).mpr hcompletes
  have hmake : createImage allocates files directives sorter payload toolParams =
      (setHeader state.iconfig layout payload.length toolParams).2.bind fun _ ↦
        .ok (writeAll (imageFile (headerSize % 2 ^ 32) payload)
          (writes (setHeader state.iconfig layout payload.length toolParams).1),
          headerSize % 2 ^ 32 + payload.length) := by
    unfold createImage
    rw [hvrec, copyFile_of_le hne hlength]
    rfl
  rw [hmake, hafter]
  exact ⟨_, rfl⟩

theorem exists_createdImage (toolParams : ToolParams)
    (h : AcceptedConf allocates files directives boot sorter state layout headerSize)
    (hqspi : state.iconfig.qspiParams = []) (hlong : 0x700000 ≤ payload.length)
    (hlength : payload.length ≤ 0x7ffff000)
    (hcompletes : Completes state.iconfig payload.length toolParams) :
    ∃ image, CreatedImage allocates files directives boot sorter state layout headerSize payload
      toolParams image := by
  have hheaderSize := h.headerSize_le
  have hne : payload ≠ [] := List.ne_nil_of_length_pos (by omega)
  obtain ⟨image, hcreate⟩ := exists_createImage h hne hlength hcompletes
  exact ⟨image, h, by simp [hqspi], by omega, hcreate⟩

end Created

/-- A configuration for SD with nothing else. -/
def sdState : State := parseBootCmd .sd initialState

theorem sdState_accepted (files : String → Except ℤ (List UInt8)) (sorter : Sorter) :
    ∃ layout headerSize,
      AcceptedConf (fun _ ↦ true) files [.bootFrom .sd] .sd sorter sdState layout headerSize := by
  have hconf : buildConf (fun _ ↦ true) files [.bootFrom .sd] = .ok sdState := rfl
  obtain ⟨layout, headerSize, h⟩ := exists_laidOut hconf (Nat.zero_le _) (Nat.zero_le _)
    (by decide) sorter
  exact ⟨layout, headerSize, hconf, rfl, h.layout⟩

/-- An address behind the reserved ranges. -/
def freeParams : ToolParams := ⟨0x34080000, 0x34080000⟩

/-- The payload that makes a file of 2 GiB and a little more. -/
def longPayload : List UInt8 := List.replicate 0x7ffff000 0

/-- The reader refuses the file that the tool has written. -/
theorem longPayload_not_agrees : ∃ layout headerSize image,
    CreatedImage (fun _ ↦ true) (fun _ ↦ .error 2) [.bootFrom .sd] .sd mergeSorter sdState layout
        headerSize longPayload freeParams image ∧
      ¬ Agrees sdState.iconfig layout .sd freeParams longPayload image := by
  have hlength : longPayload.length = 0x7ffff000 := List.length_replicate
  obtain ⟨layout, headerSize, haccepted⟩ := sdState_accepted (fun _ ↦ .error 2) mergeSorter
  obtain ⟨image, hcreated⟩ := exists_createdImage freeParams haccepted rfl
    (show 0x700000 ≤ longPayload.length by rw [hlength]; decide) hlength.le
    (by rw [hlength]; decide)
  refine ⟨layout, headerSize, image, hcreated, fun hagrees ↦ ?_⟩
  have hshort := lt_of_verified hcreated hagrees.verified
  have hivt := ivt_le_headerSize hcreated.accepted
  have hcopied : copiedLength longPayload = 0x7ffff000 := by
    unfold copiedLength
    rw [hlength]
    decide
  rw [ivt_offset_eq hcreated.accepted, if_neg (by decide)] at hivt
  unfold SD_IVT_OFFSET at hivt
  omega

def shortPayload : List UInt8 := List.replicate 0x700000 0

/-- A payload of 7 MiB with all components in front. -/
theorem exists_shortPayload (boot : BootType) (sorter : Sorter) : ∃ layout headerSize image,
    CreatedImage (fun _ ↦ true) equippedFiles (equippedDirectives boot) boot sorter
      (equippedState boot) layout headerSize shortPayload freeParams image := by
  have hlength : shortPayload.length = 0x700000 := List.length_replicate
  obtain ⟨layout, headerSize, haccepted⟩ := equippedState_accepted boot sorter
  obtain ⟨image, hcreated⟩ := exists_createdImage freeParams haccepted rfl
    hlength.ge (show shortPayload.length ≤ 0x7ffff000 by rw [hlength]; decide)
    (by rw [hlength]; cases boot <;> decide)
  exact ⟨layout, headerSize, image, hcreated⟩

theorem agrees_iff_shortPayload : ∃ layout headerSize image,
    (Agrees (equippedState .sd).iconfig layout .sd freeParams shortPayload image ↔
      headerSize + copiedLength shortPayload < 2 ^ 31 ∧
        codeSize (equippedState .sd).iconfig shortPayload + 511 < 2 ^ 32) := by
  obtain ⟨layout, headerSize, image, hcreated⟩ := exists_shortPayload .sd mergeSorter
  exact ⟨layout, headerSize, image, agrees_iff hcreated⟩

end Vodka.Mkimage.Image
