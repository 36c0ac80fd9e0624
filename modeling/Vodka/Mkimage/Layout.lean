import Mathlib.Data.List.ReduceOption
import Mathlib.Tactic
import Vodka.Mkimage.Config

/-!
# Layout of the boot image

`s32g2xx_build_layout` sets the sizes, alignments and paddings of the
components, places those with the automatic offset, and puts the application
header behind all of them and the code behind the header. Its result does not
depend on how `qsort` orders equal offsets in any of the properties proved
here: components are apart, fixed ones stay, the others are aligned and padded,
and the payload appended to the header starts at the code.
-/

namespace Vodka.Mkimage.Layout

open Foundation.Alignment Foundation.Qsort DynOffsets Config

def BOOTROM_QSPI_ALIGNMENT : ℕ := 0x8

def BOOTROM_SD_ALIGNMENT : ℕ := 0x200

def SZ_1K : ℕ := 0x400

def applyErr051257Workaround (iconfig : ImageConfig) : Bool :=
  iconfig.err051257 && iconfig.flashBoot

def getPadding (iconfig : ImageConfig) : ℕ :=
  if applyErr051257Workaround iconfig then SZ_1K else 0

/-- `set_padding` -/
def setPadding (iconfig : ImageConfig) (parts : List (Option Part)) (layout : ProgramImage) :
    ProgramImage :=
  fun part ↦
    if some part ∈ parts then { layout part with padding := getPadding iconfig } else layout part

def getImageQspiParams (iconfig : ImageConfig) : Option Part :=
  if iconfig.flashBoot then some .qspiParams else none

def getImageHseFw (iconfig : ImageConfig) : Option Part :=
  if iconfig.hseEnable then some .hseFw else none

def getImageHseSysImg (iconfig : ImageConfig) : Option Part :=
  if iconfig.hseEnable then some .hseSysImg else none

def getImageMbr (iconfig : ImageConfig) : Option Part :=
  if !iconfig.flashBoot then some .mbrReserved else none

def getImageDcd (iconfig : ImageConfig) : Option Part :=
  if iconfig.dcd.size = 0 then none else some .dcd

/-- The array `parts` of `s32g2xx_build_layout`. -/
def layoutParts (iconfig : ImageConfig) : List (Option Part) :=
  [getImageMbr iconfig, getImageQspiParams iconfig, some .ivt, getImageDcd iconfig,
    getImageHseFw iconfig, getImageHseSysImg iconfig]

def setHeadersSize (iconfig : ImageConfig) (layout : ProgramImage) :
    Except Failure ProgramImage :=
  let layout := Function.update layout .dcd { layout .dcd with size := iconfig.dcd.size }
  if (layout .dcd).size > DCD_MAXIMUM_SIZE then .error (.exit EXIT_FAILURE)
  else
    let layout := Function.update layout .hseFw { layout .hseFw with size := iconfig.hseFw.length }
    if (layout .hseFw).size > HSE_FW_MAX_SIZE then .error (.exit EXIT_FAILURE)
    else .ok layout

/-- The alignment that the boot ROM asks for. -/
def bootAlignment (iconfig : ImageConfig) : ℕ :=
  if iconfig.flashBoot then BOOTROM_QSPI_ALIGNMENT else BOOTROM_SD_ALIGNMENT

def setHeadersAlignment (iconfig : ImageConfig) (layout : ProgramImage) : ProgramImage
  | .dcd => { layout .dcd with alignment := bootAlignment iconfig }
  | .hseFw => { layout .hseFw with alignment := bootAlignment iconfig }
  | .hseSysImg => { layout .hseSysImg with alignment := bootAlignment iconfig }
  | .appCode => { layout .appCode with alignment := bootAlignment iconfig }
  | part => layout part

/-- `s32g2xx_build_layout`: the layout and the size of the header, which `calloc` clears. -/
def buildLayout (sorter : Sorter) (iconfig : ImageConfig) (layout : ProgramImage) :
    Except Failure (ProgramImage × ℕ) := do
  let parts := layoutParts iconfig
  let lastComp := parts.length - 1
  let layout ← setHeadersSize iconfig layout
  let layout := setHeadersAlignment iconfig layout
  let layout := setPadding iconfig parts layout
  let (layout, parts) := computeDynOffsets sorter layout parts
  match parts[lastComp]? with
  | some (some last) =>
    let layout := placeAfter layout last .appCode
    let layout := placeAfter layout .appCode .code
    pure (layout, ((layout .appCode).offset + (layout .appCode).size) % 2 ^ 64)
  | _ => .error .outOfBounds

/-! ## Properties -/

/-- The components of the image: those placed by the allocator, the application header and the
code. -/
def Present (iconfig : ImageConfig) (part : Part) : Prop :=
  some part ∈ layoutParts iconfig ∨ part = .appCode ∨ part = .code

/-- What the layout guarantees, given the layout before. -/
structure LayoutOk (iconfig : ImageConfig) (before after : ProgramImage) (headerSize : ℕ) :
    Prop where
  disjoint : ∀ first second, Present iconfig first → Present iconfig second → first ≠ second →
    (after first).offset + (after first).size ≤ (after second).offset ∨
      (after second).offset + (after second).size ≤ (after first).offset
  fixed : ∀ part, Present iconfig part → (before part).offset ≠ AUTO_OFFSET →
    (after part).offset = (before part).offset
  placed : ∀ part, Present iconfig part → part ≠ .code → (before part).offset = AUTO_OFFSET →
    bootAlignment iconfig ∣ (after part).offset ∧
      ∀ other, Present iconfig other → other ≠ part →
        (after other).offset ≤ (after part).offset →
          (after other).offset + (after other).size + getPadding iconfig ≤ (after part).offset
  last : ∀ part, some part ∈ layoutParts iconfig →
    (after part).offset + (after part).size ≤ (after .appCode).offset
  glued : headerSize = (after .appCode).offset + (after .appCode).size ∧
    (after .code).offset = headerSize
  sizes : ∀ part, (after part).size =
    if part = .dcd then iconfig.dcd.size
    else if part = .hseFw then iconfig.hseFw.length else (before part).size

/-- What remains of it when fixed components overlap: they stay, and everything else starts behind
the first bytes of the image. -/
structure LayoutRanged (iconfig : ImageConfig) (before after : ProgramImage) (headerSize : ℕ) :
    Prop where
  fixed : ∀ part, some part ∈ layoutParts iconfig → (before part).offset ≠ AUTO_OFFSET →
    (after part).offset = (before part).offset
  behind : ∀ part, Present iconfig part → part ≠ .code → (before part).offset = AUTO_OFFSET →
    IVT_SIZE ≤ (after part).offset
  header : headerSize = (after .appCode).offset + (after .appCode).size
  sizes : ∀ part, (after part).size =
    if part = .dcd then iconfig.dcd.size
    else if part = .hseFw then iconfig.hseFw.length else (before part).size

/-- A configuration with one boot source and admissible sizes: the state after one `BOOT_FROM`
line. -/
structure LayoutInput (state : State) (boot : BootType) : Prop where
  flashBoot : state.iconfig.flashBoot = decide (boot = .qspi)
  layout : state.imageLayout =
    setOffset initialLayout .ivt (if boot = .qspi then QSPI_IVT_OFFSET else SD_IVT_OFFSET)
  dcd : state.iconfig.dcd.size = 0 ∨
    4 ≤ state.iconfig.dcd.size ∧ state.iconfig.dcd.size ≤ DCD_MAXIMUM_SIZE
  hseFw : if state.iconfig.hseEnable then
      1 ≤ state.iconfig.hseFw.length ∧ state.iconfig.hseFw.length ≤ HSE_FW_MAX_SIZE
    else state.iconfig.hseFw = []

/-- Admissible sizes and a place for the IVT: the state after any lines. -/
structure PartsInput (state : State) (ivtOffset : ℕ) : Prop where
  layout : state.imageLayout = setOffset initialLayout .ivt ivtOffset
  ivt : ivtOffset = QSPI_IVT_OFFSET ∨ ivtOffset = SD_IVT_OFFSET
  dcd : state.iconfig.dcd.size = 0 ∨
    4 ≤ state.iconfig.dcd.size ∧ state.iconfig.dcd.size ≤ DCD_MAXIMUM_SIZE
  hseFw : if state.iconfig.hseEnable then
      1 ≤ state.iconfig.hseFw.length ∧ state.iconfig.hseFw.length ≤ HSE_FW_MAX_SIZE
    else state.iconfig.hseFw = []

theorem mem_layoutParts (iconfig : ImageConfig) (part : Part) :
    some part ∈ layoutParts iconfig ↔
      match part with
      | .mbrReserved => iconfig.flashBoot = false
      | .qspiParams => iconfig.flashBoot = true
      | .ivt => True
      | .dcd => iconfig.dcd.size ≠ 0
      | .hseFw => iconfig.hseEnable = true
      | .hseSysImg => iconfig.hseEnable = true
      | _ => False := by
  unfold layoutParts getImageMbr getImageQspiParams getImageDcd getImageHseFw getImageHseSysImg
  cases part <;> cases iconfig.flashBoot <;> cases iconfig.hseEnable <;>
    by_cases hdcd : iconfig.dcd.size = 0 <;> simp [hdcd]

theorem nodup_layoutParts (iconfig : ImageConfig) : (layoutParts iconfig).reduceOption.Nodup := by
  unfold layoutParts getImageMbr getImageQspiParams getImageDcd getImageHseFw getImageHseSysImg
  cases iconfig.flashBoot <;> cases iconfig.hseEnable <;>
    by_cases hdcd : iconfig.dcd.size = 0 <;> simp [hdcd, List.reduceOption]

/-! ## Placement of the parts -/

/-- The layout that the allocator gets when no size is too large. -/
def preparedLayout (iconfig : ImageConfig) (layout : ProgramImage) : ProgramImage :=
  setPadding iconfig (layoutParts iconfig) (setHeadersAlignment iconfig
    (Function.update (Function.update layout .dcd { layout .dcd with size := iconfig.dcd.size })
      .hseFw { layout .hseFw with size := iconfig.hseFw.length }))

theorem setHeadersSize_eq (iconfig : ImageConfig) (layout : ProgramImage)
    (hdcd : iconfig.dcd.size ≤ DCD_MAXIMUM_SIZE) (hhseFw : iconfig.hseFw.length ≤ HSE_FW_MAX_SIZE) :
    setHeadersSize iconfig layout =
      .ok (Function.update (Function.update layout .dcd
        { layout .dcd with size := iconfig.dcd.size })
        .hseFw { layout .hseFw with size := iconfig.hseFw.length }) := by
  simp [setHeadersSize, hdcd.not_gt, hhseFw.not_gt]

theorem preparedLayout_offset (iconfig : ImageConfig) (layout : ProgramImage) (part : Part) :
    (preparedLayout iconfig layout part).offset = (layout part).offset := by
  unfold preparedLayout setPadding
  split_ifs <;> cases part <;> simp [setHeadersAlignment]

theorem preparedLayout_size (iconfig : ImageConfig) (layout : ProgramImage) (part : Part) :
    (preparedLayout iconfig layout part).size =
      if part = .dcd then iconfig.dcd.size
      else if part = .hseFw then iconfig.hseFw.length else (layout part).size := by
  unfold preparedLayout setPadding
  split_ifs <;> cases part <;> simp_all [setHeadersAlignment]

theorem preparedLayout_padding (iconfig : ImageConfig) (layout : ProgramImage) {part : Part}
    (h : some part ∈ layoutParts iconfig) :
    (preparedLayout iconfig layout part).padding = getPadding iconfig := by
  simp [preparedLayout, setPadding, h]

theorem preparedLayout_alignment (iconfig : ImageConfig) (layout : ProgramImage) (part : Part) :
    (preparedLayout iconfig layout part).alignment =
      match part with
      | .dcd | .hseFw | .hseSysImg | .appCode => bootAlignment iconfig
      | part => (layout part).alignment := by
  unfold preparedLayout setPadding
  split_ifs <;> cases part <;> simp [setHeadersAlignment]

theorem getPadding_le (iconfig : ImageConfig) : getPadding iconfig ≤ SZ_1K := by
  unfold getPadding
  split_ifs <;> simp

theorem getPadding_of_sd {iconfig : ImageConfig} (h : iconfig.flashBoot = false) :
    getPadding iconfig = 0 := by
  simp [getPadding, applyErr051257Workaround, h]

/-- The exponent of the alignment. -/
def alignmentBits (iconfig : ImageConfig) : ℕ := if iconfig.flashBoot then 3 else 9

theorem bootAlignment_eq (iconfig : ImageConfig) :
    bootAlignment iconfig = 2 ^ alignmentBits iconfig := by
  unfold bootAlignment alignmentBits
  split_ifs <;> rfl

theorem three_le_alignmentBits (iconfig : ImageConfig) : 3 ≤ alignmentBits iconfig := by
  unfold alignmentBits
  split_ifs <;> decide

section Input

variable {state : State} {boot : BootType} {ivtOffset : ℕ}

/-- The offsets before the placement. -/
theorem PartsInput.offset_eq (h : PartsInput state ivtOffset) (part : Part) :
    (state.imageLayout part).offset =
      match part with
      | .mbrReserved => 0
      | .ivt => ivtOffset
      | .qspiParams => 0x200
      | _ => AUTO_OFFSET := by
  rw [h.layout]
  cases part <;> simp [setOffset, initialLayout, MBR_OFFSET, QSPI_PARAMS_OFFSET]

theorem PartsInput.size_eq (h : PartsInput state ivtOffset) (part : Part) :
    (state.imageLayout part).size = (initialLayout part).size := by
  rw [h.layout, setOffset_size]

theorem PartsInput.preparedPadding_of_not_mem (h : PartsInput state ivtOffset) {part : Part}
    (hpart : some part ∉ layoutParts state.iconfig) :
    (preparedLayout state.iconfig state.imageLayout part).padding = 0 := by
  unfold preparedLayout setPadding
  rw [if_neg hpart, h.layout]
  cases part <;> simp [setHeadersAlignment, setOffset, initialLayout]

theorem PartsInput.dcd_le (h : PartsInput state ivtOffset) :
    state.iconfig.dcd.size ≤ DCD_MAXIMUM_SIZE := by
  rcases h.dcd with hzero | hbounds
  · simp [hzero]
  · exact hbounds.2

theorem PartsInput.hseFw_le (h : PartsInput state ivtOffset) :
    state.iconfig.hseFw.length ≤ HSE_FW_MAX_SIZE := by
  have hhseFw := h.hseFw
  split_ifs at hhseFw
  · exact hhseFw.2
  · simp [hhseFw]

/-- The sizes that the allocator gets. -/
theorem PartsInput.preparedSize_eq (h : PartsInput state ivtOffset) (part : Part) :
    (preparedLayout state.iconfig state.imageLayout part).size =
      match part with
      | .dcd => state.iconfig.dcd.size
      | .hseFw => state.iconfig.hseFw.length
      | part => (initialLayout part).size := by
  rw [preparedLayout_size, h.size_eq]
  cases part <;> simp

theorem PartsInput.preparedSize_le (h : PartsInput state ivtOffset) (part : Part) :
    (preparedLayout state.iconfig state.imageLayout part).size ≤ 0x80000 := by
  have hdcd := h.dcd_le
  have hhseFw := h.hseFw_le
  unfold DCD_MAXIMUM_SIZE at hdcd
  unfold HSE_FW_MAX_SIZE at hhseFw
  rw [h.preparedSize_eq]
  cases part <;> simp [initialLayout, MBR_SIZE, IVT_SIZE, QSPI_PARAMS_SIZE, HSE_SYS_IMG_MAX_SIZE,
    APP_CODE_SIZE] <;> omega

theorem PartsInput.preparedSize_pos (h : PartsInput state ivtOffset) {part : Part}
    (hpart : some part ∈ layoutParts state.iconfig) :
    0 < (preparedLayout state.iconfig state.imageLayout part).size := by
  have hhseFw := h.hseFw
  rw [mem_layoutParts] at hpart
  rw [h.preparedSize_eq]
  cases part with
  | dcd => exact Nat.pos_of_ne_zero hpart
  | hseFw =>
    simp only [hpart, if_true] at hhseFw
    exact hhseFw.1
  | appCode => exact hpart.elim
  | code => exact hpart.elim
  | mbrReserved => exact Nat.succ_pos _
  | ivt => exact Nat.succ_pos _
  | qspiParams => exact Nat.succ_pos _
  | hseSysImg => exact Nat.succ_pos _

/-- Only the MBR area, the IVT and the QSPI parameters have a fixed place. -/
theorem PartsInput.fixed_cases (h : PartsInput state ivtOffset) {part : Part}
    (hpart : some part ∈ layoutParts state.iconfig)
    (hfixed : Fixed (preparedLayout state.iconfig state.imageLayout) part) :
    part = .ivt ∨ part = .mbrReserved ∧ state.iconfig.flashBoot = false ∨
      part = .qspiParams ∧ state.iconfig.flashBoot = true := by
  rw [mem_layoutParts] at hpart
  rw [Fixed, preparedLayout_offset, h.offset_eq] at hfixed
  cases part <;> simp_all

theorem PartsInput.demand_le (h : PartsInput state ivtOffset) :
    demand (preparedLayout state.iconfig state.imageLayout) (alignmentBits state.iconfig)
      (layoutParts state.iconfig).reduceOption ≤ 6 * 0x100000 := by
  have hterm : ∀ part ∈ (layoutParts state.iconfig).reduceOption,
      (preparedLayout state.iconfig state.imageLayout part).size +
        (preparedLayout state.iconfig state.imageLayout part).padding +
        2 ^ alignmentBits state.iconfig ≤ 0x100000 := by
    intro part hpart
    rw [List.reduceOption_mem_iff] at hpart
    have hsize := h.preparedSize_le part
    have hpadding := getPadding_le state.iconfig
    rw [preparedLayout_padding _ _ hpart, ← bootAlignment_eq]
    unfold SZ_1K at hpadding
    unfold bootAlignment BOOTROM_QSPI_ALIGNMENT BOOTROM_SD_ALIGNMENT
    split_ifs <;> omega
  have hlength : (layoutParts state.iconfig).reduceOption.length ≤ 6 :=
    List.reduceOption_length_le _
  calc demand (preparedLayout state.iconfig state.imageLayout) (alignmentBits state.iconfig)
        (layoutParts state.iconfig).reduceOption
      ≤ (layoutParts state.iconfig).reduceOption.length • 0x100000 := by
        have hsum := List.sum_le_card_nsmul
          ((layoutParts state.iconfig).reduceOption.map fun part ↦
            (preparedLayout state.iconfig state.imageLayout part).size +
              (preparedLayout state.iconfig state.imageLayout part).padding +
              2 ^ alignmentBits state.iconfig) 0x100000
          (List.forall_mem_map.mpr hterm)
        rwa [List.length_map] at hsum
    _ ≤ 6 * 0x100000 := by
        rw [smul_eq_mul]
        exact Nat.mul_le_mul_right _ hlength

theorem PartsInput.ivt_cases (h : PartsInput state ivtOffset) :
    ivtOffset = 0 ∨ ivtOffset = 0x1000 := h.ivt

/-- Behind the MBR area the IVT starts where that ends. -/
theorem PartsInput.before_ivt_of_sd (h : PartsInput state ivtOffset)
    (hboot : state.iconfig.flashBoot = false) (hivt : ivtOffset = SD_IVT_OFFSET) :
    Before (preparedLayout state.iconfig state.imageLayout) (alignmentBits state.iconfig)
      (preparedLayout state.iconfig state.imageLayout) .mbrReserved .ivt := by
  have hmbr := preparedLayout_padding state.iconfig state.imageLayout
    ((mem_layoutParts _ .mbrReserved).mpr hboot)
  unfold Before
  rw [hmbr, getPadding_of_sd hboot, preparedLayout_offset, preparedLayout_offset, h.offset_eq,
    h.offset_eq, h.preparedSize_eq]
  simp [hivt, initialLayout, MBR_SIZE, SD_IVT_OFFSET]

/-- For flash the IVT and the QSPI parameters have fixed places. In front of the parameters the
padding of the IVT may be missing. -/
theorem PartsInput.apart_qspiParams_of_flash (h : PartsInput state ivtOffset)
    (hboot : state.iconfig.flashBoot = true) :
    Before (preparedLayout state.iconfig state.imageLayout) (alignmentBits state.iconfig)
        (preparedLayout state.iconfig state.imageLayout) .ivt .qspiParams ∨
      Before (preparedLayout state.iconfig state.imageLayout) (alignmentBits state.iconfig)
        (preparedLayout state.iconfig state.imageLayout) .qspiParams .ivt := by
  have hivt := preparedLayout_padding state.iconfig state.imageLayout
    ((mem_layoutParts _ .ivt).mpr trivial)
  have hqspi := preparedLayout_padding state.iconfig state.imageLayout
    ((mem_layoutParts _ .qspiParams).mpr hboot)
  have hpadding := getPadding_le state.iconfig
  unfold SZ_1K at hpadding
  unfold Before Fixed
  simp only [hivt, hqspi, preparedLayout_offset, h.offset_eq, h.preparedSize_eq, initialLayout,
    IVT_SIZE, QSPI_PARAMS_SIZE, alignmentBits, hboot, if_true]
  rcases h.ivt_cases with rfl | rfl
  · exact .inl ⟨by omega, .inr ⟨by decide, by decide, by omega⟩⟩
  · exact .inr ⟨by omega, .inl (by omega)⟩

/-- The components with the automatic offset have the alignment of the boot ROM. -/
theorem PartsInput.alignment (h : PartsInput state ivtOffset) {part : Part}
    (hpart : some part ∈ layoutParts state.iconfig)
    (hfree : ¬ Fixed (preparedLayout state.iconfig state.imageLayout) part) :
    (preparedLayout state.iconfig state.imageLayout part).alignment =
      2 ^ alignmentBits state.iconfig := by
  rw [Fixed, preparedLayout_offset, h.offset_eq, not_not] at hfree
  rw [← bootAlignment_eq, preparedLayout_alignment]
  cases part with
  | mbrReserved =>
    have hfalse : (0 : ℕ) = AUTO_OFFSET := hfree
    exact absurd hfalse (by decide)
  | qspiParams =>
    have hfalse : (0x200 : ℕ) = AUTO_OFFSET := hfree
    exact absurd hfalse (by decide)
  | ivt =>
    have hauto : ivtOffset = AUTO_OFFSET := hfree
    rcases h.ivt_cases with rfl | rfl <;> exact absurd hauto (by decide)
  | dcd => rfl
  | hseFw => rfl
  | hseSysImg => rfl
  | appCode => rfl
  | code => exact absurd ((mem_layoutParts _ _).mp hpart) id

/-- The fixed components are in the first two pages. -/
theorem PartsInput.bounded (h : PartsInput state ivtOffset) {part : Part}
    (hpart : some part ∈ layoutParts state.iconfig)
    (hfixed : Fixed (preparedLayout state.iconfig state.imageLayout) part) :
    (preparedLayout state.iconfig state.imageLayout part).offset +
      (preparedLayout state.iconfig state.imageLayout part).size +
      (preparedLayout state.iconfig state.imageLayout part).padding ≤ 0x2000 := by
  have hpadding := getPadding_le state.iconfig
  rw [preparedLayout_padding _ _ hpart, preparedLayout_offset, h.offset_eq, h.preparedSize_eq]
  unfold SZ_1K at hpadding
  rcases h.fixed_cases hpart hfixed with rfl | ⟨rfl, -⟩ | ⟨rfl, -⟩
  · have hivt := h.ivt_cases
    simp only [initialLayout, IVT_SIZE]
    omega
  · simp only [initialLayout, MBR_SIZE]
    omega
  · simp only [initialLayout, QSPI_PARAMS_SIZE]
    omega

/-- The MBR area and an IVT at the start of the image overlap. With the IVT elsewhere, or without
that area, everything can be placed apart. -/
theorem PartsInput.placeable (h : PartsInput state ivtOffset)
    (hapart : ivtOffset = QSPI_IVT_OFFSET → state.iconfig.flashBoot = true) :
    Placeable (alignmentBits state.iconfig) 0x2000
      (preparedLayout state.iconfig state.imageLayout) (layoutParts state.iconfig) where
  nodup := nodup_layoutParts state.iconfig
  nonempty part hpart := h.preparedSize_pos (List.reduceOption_mem_iff.mp hpart)
  aligned part hpart hfixed := by
    rw [preparedLayout_offset, h.offset_eq]
    rcases h.fixed_cases (List.reduceOption_mem_iff.mp hpart) hfixed with
      rfl | ⟨rfl, -⟩ | ⟨rfl, hflash⟩
    · rcases h.ivt_cases with rfl | rfl
      · exact dvd_zero _
      · cases hflash : state.iconfig.flashBoot <;> simp [alignmentBits, hflash]
    · simp
    · simp [alignmentBits, hflash]
  alignment part hpart hfree := h.alignment (List.reduceOption_mem_iff.mp hpart) hfree
  bounded part hpart hfixed := h.bounded (List.reduceOption_mem_iff.mp hpart) hfixed
  apart first hfirst second hsecond hfirstFixed hsecondFixed hne := by
    rw [List.reduceOption_mem_iff] at hfirst hsecond
    have hbehind (hboot : state.iconfig.flashBoot = false) : ivtOffset = SD_IVT_OFFSET :=
      h.ivt.resolve_left fun hivt ↦ by simp [hapart hivt] at hboot
    rcases h.fixed_cases hfirst hfirstFixed with rfl | ⟨rfl, hboot⟩ | ⟨rfl, hboot⟩
    · rcases h.fixed_cases hsecond hsecondFixed with rfl | ⟨rfl, hboot⟩ | ⟨rfl, hboot⟩
      · exact absurd rfl hne
      · exact .inr (h.before_ivt_of_sd hboot (hbehind hboot))
      · exact h.apart_qspiParams_of_flash hboot
    · rcases h.fixed_cases hsecond hsecondFixed with rfl | ⟨rfl, -⟩ | ⟨rfl, hother⟩
      · exact .inl (h.before_ivt_of_sd hboot (hbehind hboot))
      · exact absurd rfl hne
      · exact absurd (hboot.symm.trans hother) (by decide)
    · rcases h.fixed_cases hsecond hsecondFixed with rfl | ⟨rfl, hother⟩ | ⟨rfl, -⟩
      · exact (h.apart_qspiParams_of_flash hboot).symm
      · exact absurd (hother.symm.trans hboot) (by decide)
      · exact absurd rfl hne
  room := by
    have hdemand := h.demand_le
    unfold AUTO_OFFSET
    omega

/-- The entry of the array behind its null entries and all other components. -/
theorem getElem?_nulls_append {nulls : List (Option Part)} {front : List Part} {last : Part}
    {count : ℕ} (h : nulls.length + (front ++ [last]).length = count) :
    (nulls ++ (front ++ [last]).map some)[count - 1]? = some (some last) := by
  have hindex : count - 1 = (nulls ++ front.map some).length := by
    simp only [List.length_append, List.length_map, List.length_singleton] at h ⊢
    omega
  rw [List.map_append, ← List.append_assoc, hindex]
  exact List.getElem?_concat_length

/-- The layout succeeds: it places the parts, the application header behind them, and the code
where the header ends. -/
theorem PartsInput.buildLayout_eq (h : PartsInput state ivtOffset)
    (hapart : ivtOffset = QSPI_IVT_OFFSET → state.iconfig.flashBoot = true) (sorter : Sorter) :
    ∃ bound order comps, order.Perm (layoutParts state.iconfig).reduceOption ∧
      Placed (preparedLayout state.iconfig state.imageLayout) (alignmentBits state.iconfig)
        bound comps (order ++ [.appCode]) ∧ bound ≤ 0x700000 ∧
      buildLayout sorter state.iconfig state.imageLayout =
        .ok (setOffset comps .code ((comps .appCode).offset + APP_CODE_SIZE),
          (comps .appCode).offset + APP_CODE_SIZE) := by
  obtain ⟨bound, nulls, order, hentries, hlength, -, hperm, hplaced, hbound⟩ :=
    computeDynOffsets_placed sorter (h.placeable hapart)
  set result := computeDynOffsets sorter (preparedLayout state.iconfig state.imageLayout)
    (layoutParts state.iconfig) with hresult
  have hdemand := h.demand_le
  have hmem (part : Part) : part ∈ order ↔ some part ∈ layoutParts state.iconfig :=
    hperm.mem_iff.trans List.reduceOption_mem_iff
  have hnew : Part.appCode ∉ order := fun hin ↦ (mem_layoutParts _ _).mp ((hmem _).mp hin)
  have hbits : 2 ^ alignmentBits state.iconfig ≤ 0x200 := by
    unfold alignmentBits
    split_ifs <;> decide
  have hivt : Part.ivt ∈ order := (hmem .ivt).mpr ((mem_layoutParts _ .ivt).mpr trivial)
  obtain ⟨front, last, rfl⟩ := (List.eq_nil_or_concat' order).resolve_left (List.ne_nil_of_mem hivt)
  have hlast : (front ++ [last]).getLast? = some last := List.getLast?_concat
  have hentry : result.2[(layoutParts state.iconfig).length - 1]? = some (some last) := by
    rw [hentries]
    exact getElem?_nulls_append hlength
  have halignment : (preparedLayout state.iconfig state.imageLayout .appCode).alignment =
      2 ^ alignmentBits state.iconfig := by
    rw [preparedLayout_alignment]
    exact bootAlignment_eq state.iconfig
  obtain ⟨offset, happ, haligned, hafter, hnear, -⟩ := hplaced.placeAfter_eq
    (List.mem_append_right front List.mem_cons_self) halignment (by omega)
  have hlastBounded := hplaced.bounded last (List.mem_append_right front List.mem_cons_self)
  have hsize : (preparedLayout state.iconfig state.imageLayout .appCode).size = APP_CODE_SIZE :=
    h.preparedSize_eq .appCode
  have hpadding : (preparedLayout state.iconfig state.imageLayout .appCode).padding = 0 :=
    h.preparedPadding_of_not_mem fun hin ↦ (mem_layoutParts _ .appCode).mp hin
  have hbehind : Placed (preparedLayout state.iconfig state.imageLayout)
      (alignmentBits state.iconfig) 0x700000 (setOffset result.1 .appCode offset)
      (front ++ [last] ++ [.appCode]) := by
    apply hplaced.insert hnew _ _ _ haligned _ (List.Perm.refl _)
    · exact hplaced.before_append hnew fun other hother ↦
        (hplaced.finish_le_last hlast other hother).trans hafter
    · rw [Fixed, preparedLayout_offset, h.offset_eq]
      simp
    · rw [hsize]
      decide
    · omega
    · rw [hsize, hpadding]
      unfold APP_CODE_SIZE
      omega
  have hcode : placeAfter (setOffset result.1 .appCode offset) .appCode .code =
      setOffset (setOffset result.1 .appCode offset) .code (offset + APP_CODE_SIZE) := by
    have halignment : (setOffset result.1 .appCode offset .code).alignment = 2 ^ 3 := by
      rw [hbehind.alignment_eq, preparedLayout_alignment, h.layout]
      rfl
    have hfinish : (setOffset result.1 .appCode offset .appCode).finish =
        offset + APP_CODE_SIZE := by
      rw [hbehind.finish_eq (List.mem_append_right _ List.mem_cons_self) (by decide),
        hbehind.size_eq, hbehind.padding_eq, hsize, hpadding, setOffset_self]
      rfl
    have hmultiple : 2 ^ 3 ∣ offset + APP_CODE_SIZE :=
      dvd_add ((pow_dvd_pow 2 (three_le_alignmentBits state.iconfig)).trans haligned) (by decide)
    unfold placeAfter
    dsimp only
    rw [halignment, hfinish, if_pos (by decide), alignUp_of_dvd _ hmultiple]
    unfold APP_CODE_SIZE
    omega
  refine ⟨0x700000, front ++ [last], setOffset result.1 .appCode offset, hperm, hbehind, le_rfl, ?_⟩
  have hheader : (offset + APP_CODE_SIZE) % 2 ^ 64 = offset + APP_CODE_SIZE :=
    Nat.mod_eq_of_lt (by unfold APP_CODE_SIZE; omega)
  have hstored : (setOffset (setOffset result.1 .appCode offset) .code (offset + APP_CODE_SIZE)
      .appCode).offset = offset := by
    rw [setOffset_of_ne _ _ (by decide), setOffset_self]
  have hstoredSize : (setOffset (setOffset result.1 .appCode offset) .code
      (offset + APP_CODE_SIZE) .appCode).size = APP_CODE_SIZE := by
    rw [setOffset_size, hbehind.size_eq, hsize]
  unfold buildLayout
  rw [setHeadersSize_eq _ _ h.dcd_le h.hseFw_le]
  change (match result.2[(layoutParts state.iconfig).length - 1]? with
    | some (some last) => _
    | _ => _) = _
  rw [hentry]
  change Except.ok (placeAfter (placeAfter result.1 last .appCode) .appCode .code,
    ((placeAfter (placeAfter result.1 last .appCode) .appCode .code .appCode).offset +
      (placeAfter (placeAfter result.1 last .appCode) .appCode .code .appCode).size) % 2 ^ 64) = _
  rw [happ, hcode, hstored, hstoredSize, hheader, setOffset_self]

/-- Everything present but the code is placed. -/
theorem Present.mem_order {part : Part} (hpart : Present state.iconfig part) {order : List Part}
    (hperm : order.Perm (layoutParts state.iconfig).reduceOption) (hne : part ≠ .code) :
    part ∈ order ++ [.appCode] := by
  rcases hpart with hpart | rfl | rfl
  · exact List.mem_append_left _
      ((hperm.mem_iff.trans List.reduceOption_mem_iff).mpr hpart)
  · exact List.mem_append_right _ List.mem_cons_self
  · exact absurd rfl hne

theorem PartsInput.appCodeSize_eq (h : PartsInput state ivtOffset) {bound : ℕ} {order : List Part}
    {comps : ProgramImage}
    (hplaced : Placed (preparedLayout state.iconfig state.imageLayout)
      (alignmentBits state.iconfig) bound comps (order ++ [.appCode])) :
    (comps .appCode).size = APP_CODE_SIZE := by
  rw [hplaced.size_eq, h.preparedSize_eq]
  rfl

/-- Everything but the code ends, with its padding, where the code starts or before. -/
theorem PartsInput.finish_le_code (h : PartsInput state ivtOffset) {bound : ℕ} {order : List Part}
    {comps : ProgramImage}
    (hplaced : Placed (preparedLayout state.iconfig state.imageLayout)
      (alignmentBits state.iconfig) bound comps (order ++ [.appCode]))
    {part : Part} (hpart : part ∈ order ++ [.appCode]) :
    (comps part).offset + (comps part).size + (comps part).padding ≤
      (comps .appCode).offset + APP_CODE_SIZE := by
  have happPadding : (comps .appCode).padding = 0 := by
    rw [hplaced.padding_eq]
    exact h.preparedPadding_of_not_mem fun hin ↦ (mem_layoutParts _ .appCode).mp hin
  have hle := hplaced.finish_le_last List.getLast?_concat part hpart
  rwa [h.appCodeSize_eq hplaced, happPadding] at hle

/-- Components placed in order, the application header last, and the code behind it satisfy
the layout's properties. -/
theorem PartsInput.layoutOk (h : PartsInput state ivtOffset) {bound : ℕ} {order : List Part}
    {comps : ProgramImage} (hperm : order.Perm (layoutParts state.iconfig).reduceOption)
    (hplaced : Placed (preparedLayout state.iconfig state.imageLayout)
      (alignmentBits state.iconfig) bound comps (order ++ [.appCode])) :
    LayoutOk state.iconfig state.imageLayout
      (setOffset comps .code ((comps .appCode).offset + APP_CODE_SIZE))
      ((comps .appCode).offset + APP_CODE_SIZE) := by
  have hmem (part : Part) : part ∈ order ↔ some part ∈ layoutParts state.iconfig :=
    hperm.mem_iff.trans List.reduceOption_mem_iff
  have hpresent (part : Part) (hpart : Present state.iconfig part) (hne : part ≠ .code) :
      part ∈ order ++ [.appCode] :=
    hpart.mem_order hperm hne
  have hkept (part : Part) (hne : part ≠ .code) :
      setOffset comps .code ((comps .appCode).offset + APP_CODE_SIZE) part = comps part :=
    setOffset_of_ne comps _ hne
  have happSize : (comps .appCode).size = APP_CODE_SIZE := h.appCodeSize_eq hplaced
  have hfinish (part : Part) (hpart : part ∈ order ++ [.appCode]) :
      (comps part).offset + (comps part).size + (comps part).padding ≤
        (comps .appCode).offset + APP_CODE_SIZE :=
    h.finish_le_code hplaced hpart
  have hnonempty (part : Part) (hpart : part ∈ order ++ [.appCode]) : 0 < (comps part).size := by
    rw [hplaced.size_eq]
    exact hplaced.nonempty part hpart
  have hsizes (part : Part) : (comps part).size = if part = .dcd then state.iconfig.dcd.size
      else if part = .hseFw then state.iconfig.hseFw.length
      else (state.imageLayout part).size := by
    rw [hplaced.size_eq, preparedLayout_size]
  refine ⟨?disjoint, ?fixed, ?placed, ?last, ⟨?header, by simp⟩, ?sizes⟩
  case disjoint =>
    intro first second hfirst hsecond hne
    rcases eq_or_ne first .code with rfl | hfirstCode
    · have hend := hfinish second (hpresent second hsecond hne.symm)
      rw [hkept second hne.symm, setOffset_self]
      right
      dsimp only
      omega
    · rcases eq_or_ne second .code with rfl | hsecondCode
      · have hend := hfinish first (hpresent first hfirst hfirstCode)
        rw [hkept first hfirstCode, setOffset_self]
        left
        dsimp only
        omega
      · rw [hkept first hfirstCode, hkept second hsecondCode]
        exact (hplaced.related (hpresent first hfirst hfirstCode)
          (hpresent second hsecond hsecondCode) hne).imp (fun hbefore ↦ hbefore.1)
          fun hbefore ↦ hbefore.1
  case fixed =>
    intro part _ hfixed
    have hne : part ≠ .code := by
      rintro rfl
      exact hfixed (h.offset_eq .code)
    rw [hkept part hne, hplaced.fixed part, preparedLayout_offset]
    rwa [Fixed, preparedLayout_offset]
  case placed =>
    intro part hpart hcode hauto
    have hin := hpresent part hpart hcode
    have hpositive := hnonempty part hin
    have hend := hfinish part hin
    have hnotFixed : ¬ Fixed (preparedLayout state.iconfig state.imageLayout) part := by
      rwa [Fixed, preparedLayout_offset, not_not]
    rw [hkept part hcode]
    constructor
    · rw [bootAlignment_eq]
      exact hplaced.aligned part hin
    · intro other hother hne hle
      rcases eq_or_ne other .code with rfl | hotherCode
      · rw [setOffset_self] at hle
        dsimp only at hle
        omega
      · rw [hkept other hotherCode] at hle ⊢
        rcases hplaced.related (hpresent other hother hotherCode) hin hne with hbefore | hbehind
        · have hpadded := hbefore.2.resolve_right fun hboth ↦ hnotFixed hboth.2.1
          rcases hother with hother | rfl | rfl
          · rwa [hplaced.padding_eq, preparedLayout_padding _ _ hother] at hpadded
          · have hstart := hbefore.1
            rw [happSize] at hstart
            omega
          · exact absurd rfl hotherCode
        · have hstart := hbehind.1
          omega
  case last =>
    intro part hpart
    have hne : part ≠ .code := by
      rintro rfl
      exact (mem_layoutParts _ .code).mp hpart
    have hbefore := hplaced.before
    rw [List.pairwise_append] at hbefore
    rw [hkept part hne, hkept .appCode (by decide)]
    exact (hbefore.2.2 part ((hmem part).mpr hpart) .appCode List.mem_cons_self).1
  case header =>
    rw [hkept .appCode (by decide), happSize]
  case sizes =>
    intro part
    rw [setOffset_size, hsizes part]

/-- A layout that succeeds puts the application header and the code behind the last component of
the array. -/
theorem exists_last_of_buildLayout {sorter : Sorter} {iconfig : ImageConfig}
    {before after : ProgramImage} {headerSize : ℕ}
    (h : buildLayout sorter iconfig before = .ok (after, headerSize)) :
    ∃ last, some last ∈
        (computeDynOffsets sorter (preparedLayout iconfig before) (layoutParts iconfig)).2 ∧
      after = placeAfter (placeAfter (computeDynOffsets sorter (preparedLayout iconfig before)
        (layoutParts iconfig)).1 last .appCode) .appCode .code ∧
      headerSize = ((after .appCode).offset + (after .appCode).size) % 2 ^ 64 := by
  obtain ⟨sized, hsized, hrest⟩ := exists_of_bind_ok h
  unfold setHeadersSize at hsized
  dsimp only at hsized
  split_ifs at hsized
  obtain rfl := Except.ok.inj hsized
  dsimp only at hrest
  split at hrest
  · rename_i last hlast
    have hpair := Except.ok.inj hrest
    rw [Prod.mk.injEq] at hpair
    obtain ⟨rfl, rfl⟩ := hpair
    exact ⟨last, List.mem_of_getElem? hlast, rfl, rfl⟩
  · cases hrest

/-- Where everything is placed, whatever fixed components overlap. -/
theorem PartsInput.layoutRanged (h : PartsInput state ivtOffset) {sorter : Sorter}
    {after : ProgramImage} {headerSize : ℕ}
    (hbuild : buildLayout sorter state.iconfig state.imageLayout = .ok (after, headerSize)) :
    LayoutRanged state.iconfig state.imageLayout after headerSize := by
  have hends : ∀ part ∈ (layoutParts state.iconfig).reduceOption,
      Fixed (preparedLayout state.iconfig state.imageLayout) part →
        IVT_SIZE ≤ (preparedLayout state.iconfig state.imageLayout part).offset +
            (preparedLayout state.iconfig state.imageLayout part).size +
            (preparedLayout state.iconfig state.imageLayout part).padding ∧
          (preparedLayout state.iconfig state.imageLayout part).offset +
            (preparedLayout state.iconfig state.imageLayout part).size +
            (preparedLayout state.iconfig state.imageLayout part).padding ≤ 0x2000 := by
    intro part hpart hfixed
    rw [List.reduceOption_mem_iff] at hpart
    refine ⟨?_, h.bounded hpart hfixed⟩
    rw [preparedLayout_offset, h.offset_eq, h.preparedSize_eq]
    rcases h.fixed_cases hpart hfixed with rfl | ⟨rfl, -⟩ | ⟨rfl, -⟩
    · simp only [initialLayout]
      omega
    · simp only [initialLayout, MBR_SIZE, IVT_SIZE]
      omega
    · simp only [initialLayout, QSPI_PARAMS_SIZE, IVT_SIZE]
      omega
  have hivt : Part.ivt ∈ (layoutParts state.iconfig).reduceOption :=
    List.reduceOption_mem_iff.mpr ((mem_layoutParts _ .ivt).mpr trivial)
  have hivtFixed : Fixed (preparedLayout state.iconfig state.imageLayout) .ivt := by
    rw [Fixed, preparedLayout_offset, h.offset_eq]
    rcases h.ivt_cases with rfl | rfl <;> decide
  have hdemand := h.demand_le
  obtain ⟨bound, nulls, order, hentries, hnulls, hperm, hranged, hbound⟩ :=
    computeDynOffsets_ranged sorter (nodup_layoutParts state.iconfig) ⟨.ivt, hivt, hivtFixed⟩ hends
      (fun part hpart hfree ↦ h.alignment (List.reduceOption_mem_iff.mp hpart) hfree)
      (by unfold AUTO_OFFSET; omega)
  obtain ⟨last, hlast, hafter, hheader⟩ := exists_last_of_buildLayout hbuild
  set comps := (computeDynOffsets sorter (preparedLayout state.iconfig state.imageLayout)
    (layoutParts state.iconfig)).1
  have hmem (part : Part) : part ∈ order ↔ some part ∈ layoutParts state.iconfig :=
    hperm.mem_iff.trans List.reduceOption_mem_iff
  have hlastMem : last ∈ order := by
    rw [hentries, List.mem_append, List.mem_map] at hlast
    rcases hlast with hnull | ⟨part, hpart, heq⟩
    · exact absurd (hnulls _ hnull) (Option.some_ne_none last)
    · exact Option.some.inj heq ▸ hpart
  have hbits : 2 ^ alignmentBits state.iconfig ≤ 0x200 := by
    unfold alignmentBits
    split_ifs <;> decide
  have halignment : (preparedLayout state.iconfig state.imageLayout .appCode).alignment =
      2 ^ alignmentBits state.iconfig := by
    rw [preparedLayout_alignment]
    exact bootAlignment_eq state.iconfig
  obtain ⟨offset, happ, -, hlow, hnear⟩ := hranged.placeAfter_eq hlastMem halignment (by omega)
  have hkept (part : Part) (hne : part ≠ .appCode) (hcode : part ≠ .code) :
      after part = comps part := by
    rw [hafter, happ, placeAfter, setOffset_of_ne _ _ hcode, setOffset_of_ne _ _ hne]
  have happOffset : (after .appCode).offset = offset := by
    rw [hafter, happ, placeAfter, setOffset_of_ne _ _ (by decide), setOffset_self]
  have hsizes (part : Part) : (after part).size = if part = .dcd then state.iconfig.dcd.size
      else if part = .hseFw then state.iconfig.hseFw.length
      else (state.imageLayout part).size := by
    rw [hafter, happ, placeAfter, setOffset_size, setOffset_size, hranged.size_eq,
      preparedLayout_size]
  have happSize : (after .appCode).size = APP_CODE_SIZE := by
    rw [hsizes, h.size_eq]
    rfl
  refine ⟨fun part hpart hfixed ↦ ?fixed, fun part hpart hcode hauto ↦ ?behind, ?header, hsizes⟩
  case fixed =>
    have hne : part ≠ .appCode := by
      rintro rfl
      exact (mem_layoutParts _ .appCode).mp hpart
    have hcode : part ≠ .code := by
      rintro rfl
      exact (mem_layoutParts _ .code).mp hpart
    rw [hkept part hne hcode, hranged.fixed part, preparedLayout_offset]
    rwa [Fixed, preparedLayout_offset]
  case behind =>
    rcases hpart with hpart | rfl | rfl
    · have hne : part ≠ .appCode := by
        rintro rfl
        exact (mem_layoutParts _ .appCode).mp hpart
      rw [hkept part hne hcode]
      apply hranged.starts part ((hmem part).mpr hpart)
      rwa [Fixed, preparedLayout_offset, not_not]
    · rwa [happOffset]
    · exact absurd rfl hcode
  case header =>
    rw [hheader, happSize, happOffset]
    exact Nat.mod_eq_of_lt (by unfold APP_CODE_SIZE; omega)

theorem LayoutInput.partsInput (h : LayoutInput state boot) :
    PartsInput state (if boot = .qspi then QSPI_IVT_OFFSET else SD_IVT_OFFSET) where
  layout := h.layout
  ivt := by split_ifs <;> simp
  dcd := h.dcd
  hseFw := h.hseFw

theorem LayoutInput.apart (h : LayoutInput state boot)
    (hivt : (if boot = .qspi then QSPI_IVT_OFFSET else SD_IVT_OFFSET) = QSPI_IVT_OFFSET) :
    state.iconfig.flashBoot = true := by
  rw [h.flashBoot, decide_eq_true_iff]
  by_contra hboot
  rw [if_neg hboot] at hivt
  exact absurd hivt (by decide)

/-- **Layout.** With one boot source and admissible sizes the layout succeeds with these
properties, whatever order `qsort` gives to equal offsets. -/
theorem buildLayout_ok (sorter : Sorter) (h : LayoutInput state boot) :
    ∃ after headerSize,
      buildLayout sorter state.iconfig state.imageLayout = .ok (after, headerSize) ∧
        LayoutOk state.iconfig state.imageLayout after headerSize := by
  obtain ⟨bound, order, comps, hperm, hplaced, -, hbuild⟩ :=
    h.partsInput.buildLayout_eq h.apart sorter
  exact ⟨_, _, hbuild, h.partsInput.layoutOk hperm hplaced⟩

end Input

/-- One write in the DCD, three bytes of HSE firmware, and the workaround. -/
def equippedState (boot : BootType) : State where
  iconfig := { initialConfig with
    dcd := ⟨some ([0x600000d2, 0x040c00cc, 0x04c00740, 0x01000000].map some ++
      List.replicate 4 none), 16, 32⟩
    hseEnable := true
    hseFw := [0x48, 0x53, 0x45]
    flashBoot := decide (boot = .qspi)
    err051257 := true }
  imageLayout := setOffset initialLayout .ivt
    (if boot = .qspi then QSPI_IVT_OFFSET else SD_IVT_OFFSET)

/-- The layout of a flash image with all components. -/
theorem buildLayout_ok_qspi : ∃ after headerSize,
    buildLayout mergeSorter (equippedState .qspi).iconfig (equippedState .qspi).imageLayout =
        .ok (after, headerSize) ∧
      LayoutOk (equippedState .qspi).iconfig (equippedState .qspi).imageLayout after headerSize :=
  buildLayout_ok mergeSorter (show LayoutInput (equippedState .qspi) .qspi from
    ⟨rfl, rfl, .inr (by decide), by decide⟩)

end Vodka.Mkimage.Layout
