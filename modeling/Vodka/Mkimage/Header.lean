import Mathlib.Tactic
import Vodka.Foundation.ByteMemory
import Vodka.Mkimage.Accepted

/-!
# Filling in the header

`s32cc_set_header` stores the components into the mapping of the image, one
after the other, and may end the program in between. A run is the list of its
stores, each on behalf of one component, and how it ended. All stores lie inside
their components except for the QSPI parameters, which are copied whole.
-/

namespace Vodka.Mkimage.Header

open Foundation.Alignment Foundation.ByteMemory Foundation.Endian Foundation.Qsort
open DynOffsets Config DcdArray Layout Accepted

def IVT_VERSION : ℕ := 0x60

def IVT_TAG : ℕ := 0xd1

def APPLICATION_BOOT_CODE_TAG : ℕ := 0xd5

def APPLICATION_BOOT_CODE_VERSION : ℕ := 0x60

def DCD_HEADER_LENGTH_OFFSET : ℕ := 1

def BCW_BOOT_TARGET_M7_0 : ℕ := 0

def BCW_BOOT_TARGET_A53_0 : ℕ := 1

/-- One store to the mapping on behalf of a component. -/
structure Store where
  part : Part
  offset : ℕ
  bytes : List UInt8
  deriving DecidableEq

/-- `addr` and `ep` of `struct image_tool_params`. -/
structure ToolParams where
  addr : BitVec 32
  ep : BitVec 32

/-- The stores as writes of bytes. -/
def writes (stores : List Store) : List (ℕ × List UInt8) :=
  stores.map fun store ↦ (store.offset, store.bytes)

/-- A store to a field of a packed structure. -/
def storeField (layout : ProgramImage) (part : Part) (field width value : ℕ) : Store :=
  ⟨part, (layout part).offset + field, littleEndian width value⟩

/-- The size that `get_dcd_data` returns. -/
def getDcdDataSize (iconfig : ImageConfig) : ℕ :=
  if iconfig.dcd.data.isSome then iconfig.dcd.size else 0

/-- The bytes of the words from the start of the array. -/
def dcdBytes (dcd : DcdArray) : List UInt8 :=
  ((dcd.data.getD []).take (dcd.size / 4)).flatMap fun word ↦ littleEndian 4 (word.getD 0)

/-- The DCD: its words, then its length over the one of the header word. -/
def dcdStores (iconfig : ImageConfig) (layout : ProgramImage) : List Store :=
  if iconfig.dcd.data.isSome then
    [⟨.dcd, (layout .dcd).offset, dcdBytes iconfig.dcd⟩,
      storeField layout .dcd DCD_HEADER_LENGTH_OFFSET 2 (byteSwap 2 iconfig.dcd.size)]
  else []

/-- The fields of `struct ivt`. -/
def ivtStores (iconfig : ImageConfig) (layout : ProgramImage) : List Store :=
  [storeField layout .ivt 0 1 IVT_TAG, storeField layout .ivt 1 2 (byteSwap 2 IVT_SIZE),
    storeField layout .ivt 3 1 IVT_VERSION] ++
  (if iconfig.dcd.data.isSome then [storeField layout .ivt 16 4 (layout .dcd).offset] else []) ++
  [storeField layout .ivt 40 4
      (if iconfig.a53Boot then BCW_BOOT_TARGET_A53_0 else BCW_BOOT_TARGET_M7_0),
    storeField layout .ivt 32 4 (layout .appCode).offset] ++
  if iconfig.hseEnable then
    [storeField layout .ivt 24 4 (layout .hseFw).offset,
      storeField layout .ivt 52 4 (layout .hseSysImg).offset]
  else []

/-- The fields of `struct application_boot_code` in front of the check of the entry point. -/
def appTagStores (layout : ProgramImage) : List Store :=
  [storeField layout .appCode 0 1 APPLICATION_BOOT_CODE_TAG,
    storeField layout .appCode 3 1 APPLICATION_BOOT_CODE_VERSION]

/-- The code length before it is rounded. -/
def codeLength (iconfig : ImageConfig) (stSize : ℕ) : ℕ :=
  if iconfig.dataFileSize ≠ 0 then iconfig.dataFileSize else stSize % 2 ^ 32

/-- The fields of `struct application_boot_code` behind the check. -/
def appCodeStores (iconfig : ImageConfig) (layout : ProgramImage) (stSize : ℕ)
    (toolParams : ToolParams) : List Store :=
  [storeField layout .appCode 12 4 (codeLength iconfig stSize),
    storeField layout .appCode 12 4 (alignUp 32 (codeLength iconfig stSize) 512),
    storeField layout .appCode 4 4 toolParams.addr.toNat,
    storeField layout .appCode 8 4 toolParams.ep.toNat]

/-- `s32cc_set_qspi_params` -/
def qspiParamsStores (iconfig : ImageConfig) (layout : ProgramImage) : List Store :=
  if iconfig.flashBoot then [⟨.qspiParams, (layout .qspiParams).offset, iconfig.qspiParams⟩] else []

/-- `s32cc_set_hse_fw` -/
def hseFwStores (iconfig : ImageConfig) (layout : ProgramImage) : List Store :=
  if iconfig.hseEnable then [⟨.hseFw, (layout .hseFw).offset, iconfig.hseFw⟩] else []

def reservedSram : List (ℕ × ℕ) := [(0x34002000, 0x34002fff), (0x34008000, 0x34079c00)]

/-- The test of `enforce_reserved_ranges`, with the length as a signed number. -/
def inReservedRanges (imageStart : BitVec 32) (imageLength : ℕ) : Bool :=
  let imageEnd := ((imageStart.toNat + (BitVec.ofNat 32 imageLength).toInt) % 2 ^ 64).toNat
  reservedSram.any fun range ↦
    decide (imageStart.toNat < range.2) && decide (imageEnd > range.1)

/-- `s32cc_set_header`: its stores, and the layout or how the program ended. -/
def setHeader (iconfig : ImageConfig) (layout : ProgramImage) (stSize : ℕ)
    (toolParams : ToolParams) : List Store × Except Failure ProgramImage :=
  if getDcdDataSize iconfig > DCD_MAXIMUM_SIZE then ([], .error (.exit EXIT_FAILURE))
  else
    let stores := dcdStores iconfig layout ++ ivtStores iconfig layout ++ appTagStores layout
    if toolParams.ep < toolParams.addr then (stores, .error (.exit 1))
    else
      let stores := stores ++ appCodeStores iconfig layout stSize toolParams
      if !iconfig.flashBoot &&
          inReservedRanges toolParams.addr (alignUp 32 (codeLength iconfig stSize) 512) then
        (stores, .error (.exit EXIT_FAILURE))
      else
        let codeSize := (stSize + 2 * 2 ^ 64 - (layout .appCode).offset - (layout .appCode).size) %
          2 ^ 64
        (stores ++ qspiParamsStores iconfig layout ++ hseFwStores iconfig layout,
          .ok (Function.update layout .code { layout .code with size := codeSize }))

/-- The checks that a run passes to come to the end: the entry point is not below the load address,
and an image that is not for flash keeps clear of the reserved ranges. -/
def Completes (iconfig : ImageConfig) (stSize : ℕ) (toolParams : ToolParams) : Prop :=
  toolParams.addr ≤ toolParams.ep ∧ (iconfig.flashBoot = true ∨
    inReservedRanges toolParams.addr (alignUp 32 (codeLength iconfig stSize) 512) = false)

instance (iconfig : ImageConfig) (stSize : ℕ) (toolParams : ToolParams) :
    Decidable (Completes iconfig stSize toolParams) :=
  inferInstanceAs (Decidable (_ ∧ _))

/-! ## Isolation -/

/-- All bytes of the store lie inside the range of its component. -/
def Own (layout : ProgramImage) (store : Store) : Prop :=
  ∀ i < store.bytes.length, (layout store.part).offset ≤ store.offset + i ∧
    store.offset + i < (layout store.part).offset + (layout store.part).size

/-- The image in front of `s32cc_set_header`: the cleared header and the payload. -/
def imageFile (headerSize : ℕ) (payload : List UInt8) : Memory :=
  write (fun _ ↦ 0) headerSize payload

/-- The stores touch their own components only, and the payload stays. -/
structure Isolated (iconfig : ImageConfig) (layout : ProgramImage) (headerSize : ℕ)
    (payload : List UInt8) (stores : List Store) : Prop where
  own : ∀ store ∈ stores, Own layout store
  apart : ∀ store ∈ stores, ∀ part, Present iconfig part → part ≠ store.part →
    ∀ i < store.bytes.length, store.offset + i < (layout part).offset ∨
      (layout part).offset + (layout part).size ≤ store.offset + i
  payload : read (writeAll (imageFile headerSize payload) (writes stores))
    (layout .code).offset payload.length = payload

variable {iconfig : ImageConfig} {layout : ProgramImage} {toolParams : ToolParams} {stSize : ℕ}

theorem own_storeField {part : Part} {field width : ℕ} (value : ℕ)
    (h : field + width ≤ (layout part).size) :
    Own layout (storeField layout part field width value) := by
  intro i hi
  simp only [storeField, length_littleEndian] at hi ⊢
  omega

theorem length_flatMap_littleEndian (words : List ℕ) :
    (words.flatMap (littleEndian 4)).length = 4 * words.length := by
  induction words with
  | nil => rfl
  | cons word words ih =>
    rw [List.flatMap_cons, List.length_append, ih, length_littleEndian, List.length_cons]
    omega

/-- The bytes of an array are those of its words. -/
theorem dcdBytes_eq {dcd : DcdArray} {words : List ℕ} (h : Holds dcd words) :
    dcdBytes dcd = words.flatMap (littleEndian 4) := by
  have hcount : dcd.size / 4 = words.length := by
    rw [h.size]
    omega
  rw [dcdBytes, hcount, h.stored, List.flatMap_map]
  rfl

theorem length_dcdBytes {dcd : DcdArray} {words : List ℕ} (h : Holds dcd words) :
    (dcdBytes dcd).length = dcd.size := by
  rw [dcdBytes_eq h, length_flatMap_littleEndian, h.size]

/-- An allocated array holds a word. -/
theorem four_le_size {dcd : DcdArray} {words : List ℕ} (h : Holds dcd words)
    (hdata : dcd.data.isSome) : 4 ≤ dcd.size := by
  have hne := h.isSome_iff.mp hdata
  have hsize := h.size
  omega

/-- The stores of a run, block by block. The QSPI parameters are copied only behind the check of
the entry point. -/
theorem mem_setHeader {store : Store} (h : store ∈ (setHeader iconfig layout stSize toolParams).1) :
    store ∈ dcdStores iconfig layout ∨ store ∈ ivtStores iconfig layout ∨
      (store ∈ appTagStores layout ∨ store ∈ appCodeStores iconfig layout stSize toolParams) ∨
      store ∈ qspiParamsStores iconfig layout ∧ toolParams.addr ≤ toolParams.ep ∨
      store ∈ hseFwStores iconfig layout := by
  unfold setHeader at h
  dsimp only at h
  split_ifs at h with hdcd hentry hreserved
  · simp at h
  · simp only [List.mem_append] at h
    tauto
  · simp only [List.mem_append] at h
    tauto
  · have hle : toolParams.addr ≤ toolParams.ep := BitVec.not_lt.mp hentry
    simp only [List.mem_append] at h
    tauto

theorem getDcdDataSize_le (hdcd : iconfig.dcd.size ≤ DCD_MAXIMUM_SIZE) :
    ¬getDcdDataSize iconfig > DCD_MAXIMUM_SIZE := by
  unfold getDcdDataSize
  split_ifs <;> omega

theorem setHeader_ok_iff (layout : ProgramImage) (stSize : ℕ) (toolParams : ToolParams)
    (hdcd : iconfig.dcd.size ≤ DCD_MAXIMUM_SIZE) :
    (∃ after, (setHeader iconfig layout stSize toolParams).2 = .ok after) ↔
      Completes iconfig stSize toolParams := by
  unfold setHeader Completes
  dsimp only
  rw [if_neg (getDcdDataSize_le hdcd)]
  split_ifs with hentry hreserved
  · have hnot : ¬ toolParams.addr ≤ toolParams.ep := BitVec.not_le.mpr hentry
    simp [hnot]
  · rw [Bool.and_eq_true, Bool.not_eq_true'] at hreserved
    simp [hreserved.1, hreserved.2]
  · rw [Bool.and_eq_true, Bool.not_eq_true', not_and_or, Bool.not_eq_false,
      Bool.not_eq_true] at hreserved
    exact ⟨fun _ ↦ ⟨BitVec.not_lt.mp hentry, hreserved⟩, fun _ ↦ ⟨_, rfl⟩⟩

/-- The stores of a run, up to the check that ends it. -/
theorem setHeader_stores (hdcd : iconfig.dcd.size ≤ DCD_MAXIMUM_SIZE) :
    (setHeader iconfig layout stSize toolParams).1 =
      dcdStores iconfig layout ++ (ivtStores iconfig layout ++ (appTagStores layout ++
        if toolParams.ep < toolParams.addr then []
        else appCodeStores iconfig layout stSize toolParams ++
          if Completes iconfig stSize toolParams then
            qspiParamsStores iconfig layout ++ hseFwStores iconfig layout
          else [])) := by
  have hok := setHeader_ok_iff layout stSize toolParams hdcd
  unfold setHeader at hok ⊢
  dsimp only at hok ⊢
  rw [if_neg (getDcdDataSize_le hdcd)] at hok ⊢
  split_ifs at hok ⊢ with hentry hreserved hcompletes hcompletes
  · simp
  · simp [hcompletes] at hok
  · simp
  · simp
  · simp [hcompletes] at hok

/-- A flash image whose entry point is not below the load address gets its QSPI parameters. -/
theorem qspiParamsStores_subset (hdcd : iconfig.dcd.size ≤ DCD_MAXIMUM_SIZE)
    (hflashBoot : iconfig.flashBoot = true) (hentry : toolParams.addr ≤ toolParams.ep) :
    qspiParamsStores iconfig layout ⊆ (setHeader iconfig layout stSize toolParams).1 := by
  intro store hstore
  unfold setHeader
  dsimp only
  rw [if_neg (getDcdDataSize_le hdcd), if_neg (BitVec.not_lt.mpr hentry),
    if_neg (by simp [hflashBoot])]
  simp only [List.mem_append]
  tauto

/-- Stores to the IVT go to its fields. -/
theorem mem_ivtStores {store : Store} (h : store ∈ ivtStores iconfig layout) :
    ∃ field width value, store = storeField layout .ivt field width value ∧
      field + width ≤ IVT_SIZE := by
  simp only [ivtStores, List.mem_append, List.mem_cons, List.not_mem_nil, or_false] at h
  rcases h with ((((rfl | rfl | rfl) | hdcd) | (rfl | rfl)) | hhse)
  · exact ⟨_, _, _, rfl, by decide⟩
  · exact ⟨_, _, _, rfl, by decide⟩
  · exact ⟨_, _, _, rfl, by decide⟩
  · split_ifs at hdcd
    · exact ⟨_, _, _, List.mem_singleton.mp hdcd, by decide⟩
    · exact absurd hdcd List.not_mem_nil
  · exact ⟨_, _, _, rfl, by decide⟩
  · exact ⟨_, _, _, rfl, by decide⟩
  · split_ifs at hhse
    · rw [List.mem_cons, List.mem_singleton] at hhse
      rcases hhse with rfl | rfl
      · exact ⟨_, _, _, rfl, by decide⟩
      · exact ⟨_, _, _, rfl, by decide⟩
    · exact absurd hhse List.not_mem_nil

/-- Stores to the application header go to its fields. -/
theorem mem_appStores {store : Store}
    (h : store ∈ appTagStores layout ∨ store ∈ appCodeStores iconfig layout stSize toolParams) :
    ∃ field width value, store = storeField layout .appCode field width value ∧
      field + width ≤ APP_CODE_SIZE := by
  simp only [appTagStores, appCodeStores, List.mem_cons, List.not_mem_nil, or_false] at h
  rcases h with (rfl | rfl) | (rfl | rfl | rfl | rfl)
  all_goals exact ⟨_, _, _, rfl, by decide⟩

theorem own_dcdStores {words : List ℕ} (h : Holds iconfig.dcd words)
    (hsize : (layout .dcd).size = iconfig.dcd.size) :
    ∀ store ∈ dcdStores iconfig layout, Own layout store := by
  intro store hstore
  unfold dcdStores at hstore
  split_ifs at hstore with hdata
  · rw [List.mem_cons, List.mem_singleton] at hstore
    have hlength := length_dcdBytes h
    have hfour := four_le_size h hdata
    rcases hstore with rfl | rfl
    · intro i hi
      dsimp only at hi ⊢
      omega
    · exact own_storeField _ (by rw [hsize]; unfold DCD_HEADER_LENGTH_OFFSET; omega)
  · simp at hstore

/-- The stores on behalf of a component in a run that comes to the end. -/
def partStores (iconfig : ImageConfig) (layout : ProgramImage) (stSize : ℕ)
    (toolParams : ToolParams) : Part → List Store
  | .dcd => dcdStores iconfig layout
  | .ivt => ivtStores iconfig layout
  | .appCode => appTagStores layout ++ appCodeStores iconfig layout stSize toolParams
  | .qspiParams => qspiParamsStores iconfig layout
  | .hseFw => hseFwStores iconfig layout
  | _ => []

theorem part_of_mem_partStores {part : Part} {store : Store}
    (h : store ∈ partStores iconfig layout stSize toolParams part) : store.part = part := by
  cases part with
  | dcd =>
    unfold partStores dcdStores at h
    split_ifs at h
    · rw [List.mem_cons, List.mem_singleton] at h
      rcases h with rfl | rfl <;> rfl
    · exact absurd h List.not_mem_nil
  | ivt =>
    obtain ⟨field, width, value, rfl, -⟩ := mem_ivtStores h
    rfl
  | appCode =>
    obtain ⟨field, width, value, rfl, -⟩ := mem_appStores (List.mem_append.mp h)
    rfl
  | qspiParams =>
    unfold partStores qspiParamsStores at h
    split_ifs at h
    · rw [List.mem_singleton.mp h]
    · exact absurd h List.not_mem_nil
  | hseFw =>
    unfold partStores hseFwStores at h
    split_ifs at h
    · rw [List.mem_singleton.mp h]
    · exact absurd h List.not_mem_nil
  | mbrReserved | hseSysImg | code => exact absurd h List.not_mem_nil

/-- What is stored besides the IVT and the QSPI parameters belongs to components with the automatic
offset. -/
theorem automatic_of_mem {store : Store}
    (h : store ∈ (setHeader iconfig layout stSize toolParams).1) (hivt : store.part ≠ .ivt)
    (hqspi : store.part ≠ .qspiParams) :
    store.part ≠ .code ∧ (initialLayout store.part).offset = AUTO_OFFSET := by
  have hpart : store.part = .dcd ∨ store.part = .appCode ∨ store.part = .hseFw := by
    rcases mem_setHeader h with hdcd | hmem | happ | ⟨hmem, -⟩ | hhse
    · exact .inl (part_of_mem_partStores (show store ∈ partStores iconfig layout stSize toolParams
        .dcd from hdcd))
    · exact absurd (part_of_mem_partStores (show store ∈ partStores iconfig layout stSize toolParams
        .ivt from hmem)) hivt
    · exact .inr (.inl (part_of_mem_partStores (show store ∈ partStores iconfig layout stSize
        toolParams .appCode from List.mem_append.mpr happ)))
    · exact absurd (part_of_mem_partStores (show store ∈ partStores iconfig layout stSize toolParams
        .qspiParams from hmem)) hqspi
    · exact .inr (.inr (part_of_mem_partStores (show store ∈ partStores iconfig layout stSize
        toolParams .hseFw from hhse)))
  rcases hpart with hpart | hpart | hpart <;>
  · rw [hpart]
    exact ⟨by decide, rfl⟩

theorem filter_partStores (part : Part) (keep : Part → Bool) :
    (partStores iconfig layout stSize toolParams part).filter (fun store ↦ keep store.part) =
      if keep part then partStores iconfig layout stSize toolParams part else [] := by
  split_ifs with hkeep
  · rw [List.filter_eq_self]
    intro store hstore
    rw [part_of_mem_partStores hstore, hkeep]
  · rw [List.filter_eq_nil_iff]
    intro store hstore
    rwa [part_of_mem_partStores hstore]

/-- A run that comes to the end has stored all components, and its entry point is not below the
load address. -/
theorem setHeader_of_ok {after : ProgramImage}
    (h : (setHeader iconfig layout stSize toolParams).2 = .ok after) :
    (setHeader iconfig layout stSize toolParams).1 =
        [Part.dcd, .ivt, .appCode, .qspiParams, .hseFw].flatMap
          (partStores iconfig layout stSize toolParams) ∧
      toolParams.addr ≤ toolParams.ep := by
  unfold setHeader at h ⊢
  dsimp only at h ⊢
  split_ifs at h with hdcd hentry hreserved
  rw [if_neg hdcd, if_neg hentry, if_neg hreserved]
  exact ⟨by simp [partStores], BitVec.not_lt.mp hentry⟩

/-- What is left of such a run when only the stores of some components are kept. -/
theorem filter_setHeader_parts {after : ProgramImage}
    (h : (setHeader iconfig layout stSize toolParams).2 = .ok after) (keep : Part → Bool) :
    (setHeader iconfig layout stSize toolParams).1.filter (fun store ↦ keep store.part) =
      ([Part.dcd, .ivt, .appCode, .qspiParams, .hseFw].filter keep).flatMap
        (partStores iconfig layout stSize toolParams) := by
  rw [(setHeader_of_ok h).1, List.filter_flatMap]
  simp only [filter_partStores]
  generalize [Part.dcd, .ivt, .appCode, .qspiParams, .hseFw] = parts
  induction parts with
  | nil => rfl
  | cons part parts ih =>
    rw [List.flatMap_cons, ih]
    cases hkeep : keep part with
    | true => rw [List.filter_cons_of_pos hkeep, List.flatMap_cons, if_pos rfl]
    | false => rw [List.filter_cons_of_neg (by simp [hkeep]), if_neg (by simp), List.nil_append]

theorem filter_setHeader_of_ok {after : ProgramImage}
    (h : (setHeader iconfig layout stSize toolParams).2 = .ok after) (part : Part) :
    (setHeader iconfig layout stSize toolParams).1.filter (fun store ↦ store.part = part) =
      partStores iconfig layout stSize toolParams part := by
  rw [filter_setHeader_parts h fun other ↦ decide (other = part)]
  cases part <;> simp [partStores]

/-- Whatever the checks say, the components in front of the application header are stored. -/
theorem filter_setHeader (layout : ProgramImage) (stSize : ℕ) (toolParams : ToolParams)
    (hdcd : iconfig.dcd.size ≤ DCD_MAXIMUM_SIZE) {part : Part} (happ : part ≠ .appCode)
    (hqspi : part ≠ .qspiParams) (hhse : part ≠ .hseFw) :
    (setHeader iconfig layout stSize toolParams).1.filter (fun store ↦ store.part = part) =
      partStores iconfig layout stSize toolParams part := by
  have hfilter (other : Part) :
      (partStores iconfig layout stSize toolParams other).filter (fun store ↦ store.part = part) =
        if other = part then partStores iconfig layout stSize toolParams other else [] := by
    rw [filter_partStores other fun part' ↦ decide (part' = part)]
    simp only [decide_eq_true_eq]
  have hfirst : (dcdStores iconfig layout).filter (fun store ↦ store.part = part) =
      if Part.dcd = part then dcdStores iconfig layout else [] := hfilter .dcd
  have hivt : (ivtStores iconfig layout).filter (fun store ↦ store.part = part) =
      if Part.ivt = part then ivtStores iconfig layout else [] := hfilter .ivt
  have hheader : (appTagStores layout ++ appCodeStores iconfig layout stSize toolParams).filter
      (fun store ↦ store.part = part) = [] := (hfilter .appCode).trans (if_neg happ.symm)
  have hparams : (qspiParamsStores iconfig layout).filter (fun store ↦ store.part = part) = [] :=
    (hfilter .qspiParams).trans (if_neg hqspi.symm)
  have hfw : (hseFwStores iconfig layout).filter (fun store ↦ store.part = part) = [] :=
    (hfilter .hseFw).trans (if_neg hhse.symm)
  rw [List.filter_append, List.append_eq_nil_iff] at hheader
  have hrest : (if toolParams.ep < toolParams.addr then []
      else appCodeStores iconfig layout stSize toolParams ++
        if Completes iconfig stSize toolParams then
          qspiParamsStores iconfig layout ++ hseFwStores iconfig layout
        else []).filter (fun store ↦ store.part = part) = [] := by
    split_ifs
    · rfl
    · rw [List.filter_append, List.filter_append, hheader.2, hparams, hfw]
      rfl
    · rw [List.append_nil, hheader.2]
  rw [setHeader_stores hdcd, List.filter_append, List.filter_append, List.filter_append, hfirst,
    hivt, hheader.1, hrest]
  cases part with
  | appCode => exact absurd rfl happ
  | qspiParams => exact absurd rfl hqspi
  | hseFw => exact absurd rfl hhse
  | dcd => exact List.append_nil _
  | ivt => exact List.append_nil _
  | mbrReserved | hseSysImg | code => rfl

section Accepted

variable {allocates : ℕ → Bool} {files : String → Except ℤ (List UInt8)}
  {directives : List Directive} {boot : BootType} {sorter : Sorter} {state : State}
  {headerSize : ℕ}

/-- A component that is stored is part of the image, in front of the code. -/
theorem present_of_mem (h : LaidOut allocates files directives sorter state layout headerSize)
    {store : Store}
    (hstore : store ∈ (setHeader state.iconfig layout stSize toolParams).1) :
    some store.part ∈ layoutParts state.iconfig ∨ store.part = .appCode := by
  rcases mem_setHeader hstore with hdcd | hivt | happ | ⟨hqspi, -⟩ | hhse
  · left
    unfold dcdStores at hdcd
    split_ifs at hdcd with hdata
    · have hpart : store.part = .dcd := by
        rw [List.mem_cons, List.mem_singleton] at hdcd
        rcases hdcd with rfl | rfl <;> rfl
      rw [hpart]
      exact h.dcd_mem_layoutParts hdata
    · exact absurd hdcd List.not_mem_nil
  · left
    obtain ⟨field, width, value, rfl, -⟩ := mem_ivtStores hivt
    exact (mem_layoutParts _ .ivt).mpr trivial
  · right
    obtain ⟨field, width, value, rfl, -⟩ := mem_appStores happ
    rfl
  · left
    unfold qspiParamsStores at hqspi
    split_ifs at hqspi with hflashBoot
    · rw [List.mem_singleton.mp hqspi]
      exact (mem_layoutParts _ .qspiParams).mpr hflashBoot
    · exact absurd hqspi List.not_mem_nil
  · left
    unfold hseFwStores at hhse
    split_ifs at hhse with hhseEnable
    · rw [List.mem_singleton.mp hhse]
      exact (mem_layoutParts _ .hseFw).mpr hhseEnable
    · exact absurd hhse List.not_mem_nil

theorem ivt_offset_eq
    (h : AcceptedConf allocates files directives boot sorter state layout headerSize) :
    (layout .ivt).offset = if boot = .qspi then QSPI_IVT_OFFSET else SD_IVT_OFFSET := by
  have hbefore : (state.imageLayout .ivt).offset =
      if boot = .qspi then QSPI_IVT_OFFSET else SD_IVT_OFFSET := by
    rw [h.layoutInput.layout, setOffset_self]
  rw [h.layoutOk.fixed .ivt (.inl ((mem_layoutParts _ .ivt).mpr trivial)) _, hbefore]
  rw [hbefore]
  split_ifs <;> decide

theorem fixed_offset_eq
    (h : AcceptedConf allocates files directives boot sorter state layout headerSize) :
    (boot ≠ .qspi → some Part.mbrReserved ∈ layoutParts state.iconfig ∧
        (layout .mbrReserved).offset = 0) ∧
      (boot = .qspi → some Part.qspiParams ∈ layoutParts state.iconfig ∧
        (layout .qspiParams).offset = QSPI_PARAMS_OFFSET) := by
  have hbefore := h.partsInput.offset_eq
  constructor
  · intro hboot
    have hpart : some Part.mbrReserved ∈ layoutParts state.iconfig :=
      (mem_layoutParts _ .mbrReserved).mpr (by simp [h.layoutInput.flashBoot, hboot])
    refine ⟨hpart, ?_⟩
    rw [h.layoutOk.fixed .mbrReserved (.inl hpart)]
    · exact hbefore .mbrReserved
    · rw [hbefore .mbrReserved]
      exact (show (0 : ℕ) ≠ AUTO_OFFSET by decide)
  · intro hboot
    have hpart : some Part.qspiParams ∈ layoutParts state.iconfig :=
      (mem_layoutParts _ .qspiParams).mpr (by simp [h.layoutInput.flashBoot, hboot])
    refine ⟨hpart, ?_⟩
    rw [h.layoutOk.fixed .qspiParams (.inl hpart)]
    · exact hbefore .qspiParams
    · rw [hbefore .qspiParams]
      exact (show (0x200 : ℕ) ≠ AUTO_OFFSET by decide)

/-- Every store but the one of the QSPI parameters is inside its component by the sizes of the
layout alone. -/
theorem own_of_mem (h : LaidOut allocates files directives sorter state layout headerSize)
    {store : Store} (hstore : store ∈ (setHeader state.iconfig layout stSize toolParams).1)
    (hqspi : store.part = .qspiParams → state.iconfig.flashBoot = true →
      toolParams.addr ≤ toolParams.ep → state.iconfig.qspiParams.length ≤ QSPI_PARAMS_SIZE) :
    Own layout store := by
  obtain ⟨words, hwords⟩ := h.stateOk.dcd
  have hsize := h.size_eq
  have happSize : (layout .appCode).size = APP_CODE_SIZE := hsize .appCode
  rcases mem_setHeader hstore with hdcd | hivt | happ | ⟨hqspiStore, hentry⟩ | hhse
  · exact own_dcdStores hwords (hsize .dcd) store hdcd
  · obtain ⟨field, width, value, rfl, hfield⟩ := mem_ivtStores hivt
    have hivtSize : (layout .ivt).size = IVT_SIZE := hsize .ivt
    exact own_storeField value (hivtSize ▸ hfield)
  · obtain ⟨field, width, value, rfl, hfield⟩ := mem_appStores happ
    exact own_storeField value (happSize ▸ hfield)
  · unfold qspiParamsStores at hqspiStore
    split_ifs at hqspiStore with hflashBoot
    · have hqspiSize : (layout .qspiParams).size = QSPI_PARAMS_SIZE := hsize .qspiParams
      rw [List.mem_singleton.mp hqspiStore] at hqspi ⊢
      have hlength := hqspi rfl hflashBoot hentry
      intro i hi
      dsimp only at hi ⊢
      omega
    · exact absurd hqspiStore List.not_mem_nil
  · unfold hseFwStores at hhse
    split_ifs at hhse
    · have hhseSize : (layout .hseFw).size = state.iconfig.hseFw.length := hsize .hseFw
      rw [List.mem_singleton.mp hhse]
      intro i hi
      dsimp only at hi ⊢
      omega
    · exact absurd hhse List.not_mem_nil

theorem qspiParams_le_of_isolated
    (h : AcceptedConf allocates files directives boot sorter state layout headerSize)
    {payload : List UInt8}
    (hisolated : Isolated state.iconfig layout headerSize payload
      (setHeader state.iconfig layout payload.length toolParams).1)
    (hboot : boot = .qspi) (hentry : toolParams.addr ≤ toolParams.ep) :
    state.iconfig.qspiParams.length ≤ QSPI_PARAMS_SIZE := by
  have hflashBoot : state.iconfig.flashBoot = true := by simp [h.layoutInput.flashBoot, hboot]
  have hqspiSize : (layout .qspiParams).size = QSPI_PARAMS_SIZE := h.size_eq .qspiParams
  have hmem : (⟨.qspiParams, (layout .qspiParams).offset, state.iconfig.qspiParams⟩ : Store) ∈
      (setHeader state.iconfig layout payload.length toolParams).1 := by
    apply qspiParamsStores_subset h.partsInput.dcd_le hflashBoot hentry
    simp [qspiParamsStores, hflashBoot]
  by_contra hlonger
  have hbyte := (hisolated.own _ hmem QSPI_PARAMS_SIZE (not_le.mp hlonger)).2
  dsimp only at hbyte
  omega

/-- The store of the QSPI parameters. -/
theorem eq_of_part_qspiParams
    (h : LaidOut allocates files directives sorter state layout headerSize)
    {store : Store} (hstore : store ∈ (setHeader state.iconfig layout stSize toolParams).1)
    (hpart : store.part = .qspiParams) :
    state.iconfig.flashBoot = true ∧ toolParams.addr ≤ toolParams.ep ∧
      store = ⟨.qspiParams, QSPI_PARAMS_OFFSET, state.iconfig.qspiParams⟩ := by
  have hnot {part : Part} (hne : part ≠ .qspiParams)
      (hmem : store ∈ partStores state.iconfig layout stSize toolParams part) : False :=
    hne ((part_of_mem_partStores hmem).symm.trans hpart)
  rcases mem_setHeader hstore with hdcd | hivt | happ | ⟨hqspi, hentry⟩ | hhse
  · exact (hnot (by decide) (show store ∈ partStores _ _ _ _ .dcd from hdcd)).elim
  · exact (hnot (by decide) (show store ∈ partStores _ _ _ _ .ivt from hivt)).elim
  · exact (hnot (by decide)
      (show store ∈ partStores _ _ _ _ .appCode from List.mem_append.mpr happ)).elim
  · unfold qspiParamsStores at hqspi
    split_ifs at hqspi with hflashBoot
    · rw [h.qspiParams_offset hflashBoot] at hqspi
      exact ⟨hflashBoot, hentry, List.mem_singleton.mp hqspi⟩
    · exact absurd hqspi List.not_mem_nil
  · exact (hnot (by decide) (show store ∈ partStores _ _ _ _ .hseFw from hhse)).elim

/-- What is stored on behalf of other components does not show in the range of a component. QSPI
parameters that are too long start behind the IVT. -/
theorem read_setHeader
    (h : AcceptedConf allocates files directives boot sorter state layout headerSize) {part : Part}
    (hqspi : part = .ivt ∨ (boot = .qspi → toolParams.addr ≤ toolParams.ep →
      state.iconfig.qspiParams.length ≤ QSPI_PARAMS_SIZE))
    (hpart : Present state.iconfig part) (memory : Memory) {field width : ℕ}
    (hfield : field + width ≤ (layout part).size) :
    read (writeAll memory (writes (setHeader state.iconfig layout stSize toolParams).1))
        ((layout part).offset + field) width =
      read (writeAll memory (writes ((setHeader state.iconfig layout stSize toolParams).1.filter
        fun store ↦ store.part = part))) ((layout part).offset + field) width := by
  apply read_congr
  intro address hstart hend
  symm
  apply writeAll_filter
  intro store hstore hother
  have hne : part ≠ store.part := fun heq ↦ by simp [heq] at hother
  have hpresent : Present state.iconfig store.part :=
    (present_of_mem h.laidOut hstore).imp_right .inl
  dsimp only
  by_cases hbehind : store.part = .qspiParams ∧ part = .ivt
  · obtain ⟨hstorePart, rfl⟩ := hbehind
    obtain ⟨hflashBoot, -, rfl⟩ := eq_of_part_qspiParams h.laidOut hstore hstorePart
    have hivtSize : (layout .ivt).size = IVT_SIZE := h.size_eq .ivt
    rw [ivt_offset_eq h, if_pos (h.flashBoot_iff.mp hflashBoot)] at hend
    rw [hivtSize] at hfield
    have hbound : QSPI_IVT_OFFSET + IVT_SIZE ≤ QSPI_PARAMS_OFFSET := by decide
    left
    dsimp only
    omega
  have hown := own_of_mem h.laidOut hstore fun hstorePart hflashBoot ↦
    hqspi.resolve_left (fun hivt ↦ hbehind ⟨hstorePart, hivt⟩) (h.flashBoot_iff.mp hflashBoot)
  rcases Nat.eq_zero_or_pos store.bytes.length with hempty | hpositive
  · omega
  · have hfirst := hown 0 hpositive
    have hlast := hown (store.bytes.length - 1) (by omega)
    rcases h.layoutOk.disjoint part store.part hpart hpresent hne with hbefore | hbehind
    · omega
    · omega

/-- **Isolation.** The stores stay inside their components if and only if the QSPI parameters
that a flash image gets fit their component. -/
theorem isolated_iff
    (h : AcceptedConf allocates files directives boot sorter state layout headerSize)
    (toolParams : ToolParams) (payload : List UInt8) :
    Isolated state.iconfig layout headerSize payload
        (setHeader state.iconfig layout payload.length toolParams).1 ↔
      (boot = .qspi → toolParams.addr ≤ toolParams.ep →
        state.iconfig.qspiParams.length ≤ QSPI_PARAMS_SIZE) := by
  have hlayout := h.layoutOk
  constructor
  · intro hisolated hboot hentry
    exact qspiParams_le_of_isolated h hisolated hboot hentry
  · intro hqspi
    have hown (store : Store)
        (hstore : store ∈ (setHeader state.iconfig layout payload.length toolParams).1) :
        Own layout store :=
      own_of_mem h.laidOut hstore fun _ hflashBoot ↦ hqspi (h.flashBoot_iff.mp hflashBoot)
    refine ⟨hown, ?apart, ?payload⟩
    case apart =>
      intro store hstore part hpart hne i hi
      have hpresent : Present state.iconfig store.part :=
        (present_of_mem h.laidOut hstore).imp_right .inl
      have hrange := hown store hstore i hi
      rcases hlayout.disjoint part store.part hpart hpresent hne with hbefore | hbehind
      · right
        omega
      · left
        omega
    case payload =>
      have hcode : (layout .code).offset = headerSize := hlayout.glued.2
      rw [hcode]
      calc read (writeAll (imageFile headerSize payload) (writes
              (setHeader state.iconfig layout payload.length toolParams).1)) headerSize
              payload.length
          = read (imageFile headerSize payload) headerSize payload.length := by
            apply read_congr
            intro address hstart _
            apply writeAll_of_outside
            intro entry hentry
            obtain ⟨store, hstore, rfl⟩ := List.mem_map.mp hentry
            rcases Nat.eq_zero_or_pos store.bytes.length with hempty | hpositive
            · dsimp only
              omega
            · right
              have hrange := hown store hstore (store.bytes.length - 1) (by omega)
              have hbelow : (layout store.part).offset + (layout store.part).size ≤ headerSize := by
                rcases present_of_mem h.laidOut hstore with hpart | happ
                · have hlast := hlayout.last store.part hpart
                  have hglued := hlayout.glued.1
                  omega
                · rw [happ]
                  exact hlayout.glued.1.ge
              dsimp only
              omega
        _ = payload := read_write_self

end Accepted

/-- The only file is one byte longer than the area of the QSPI parameters. -/
def longFiles (_ : String) : Except ℤ (List UInt8) := .ok (List.replicate (QSPI_PARAMS_SIZE + 1) 0)

def longDirectives : List Directive := [.bootFrom .qspi, .qspiParamsFile "qspi.bin"]

def longState : State where
  iconfig := { initialConfig with
    flashBoot := true
    qspiParams := List.replicate (QSPI_PARAMS_SIZE + 1) 0 }
  imageLayout := setOffset initialLayout .ivt QSPI_IVT_OFFSET

theorem longDirectives_accepted : ∃ layout headerSize,
    AcceptedConf (fun _ ↦ true) longFiles longDirectives .qspi mergeSorter longState layout
      headerSize := by
  have hconf : buildConf (fun _ ↦ true) longFiles longDirectives = .ok longState := rfl
  obtain ⟨layout, headerSize, h⟩ := exists_laidOut hconf (Nat.zero_le _) (Nat.zero_le _)
    (fun _ ↦ rfl) mergeSorter
  exact ⟨layout, headerSize, hconf, rfl, h.layout⟩

/-- The QSPI parameters run over the end of their area. -/
theorem long_qspiParams_not_isolated : ∃ layout headerSize,
    AcceptedConf (fun _ ↦ true) longFiles longDirectives .qspi mergeSorter longState layout
        headerSize ∧
      ¬ Isolated longState.iconfig layout headerSize [0]
        (setHeader longState.iconfig layout 1 ⟨0, 0⟩).1 := by
  obtain ⟨layout, headerSize, haccepted⟩ := longDirectives_accepted
  refine ⟨layout, headerSize, haccepted, fun hisolated ↦ ?_⟩
  have hlength : (List.replicate (QSPI_PARAMS_SIZE + 1) (0 : UInt8)).length ≤ QSPI_PARAMS_SIZE :=
    qspiParams_le_of_isolated haccepted hisolated rfl (by decide)
  rw [List.length_replicate] at hlength
  omega

/-- Without an entry point below the load address the longer file is all that matters. -/
theorem isolated_iff_longDirectives : ∃ layout headerSize,
    (Isolated longState.iconfig layout headerSize [0]
        (setHeader longState.iconfig layout [(0 : UInt8)].length ⟨0, 0⟩).1 ↔
      (BootType.qspi = .qspi → (0 : BitVec 32) ≤ 0 →
        longState.iconfig.qspiParams.length ≤ QSPI_PARAMS_SIZE)) := by
  obtain ⟨layout, headerSize, haccepted⟩ := longDirectives_accepted
  exact ⟨layout, headerSize, isolated_iff haccepted ⟨0, 0⟩ [0]⟩

end Vodka.Mkimage.Header
