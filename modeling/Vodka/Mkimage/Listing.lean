import Mathlib.Tactic
import Vodka.Foundation.Hexadecimal
import Vodka.Mkimage.Image

/-!
# The listing of an image

`s32cc_print_header` sorts seven entries by their offsets and prints those that
are not empty, then the boot core, the place of the IVT and the addresses. The
comparison is a difference of 32-bit offsets as a signed number, so that it
orders only offsets that lie together. The listing of an image that the tool has
made shows every component but the MBR area once, in the order of the file and
without overlaps, whatever `qsort` does with equal offsets.
-/

namespace Vodka.Mkimage.Listing

open Foundation.Alignment Foundation.ByteMemory Foundation.Hexadecimal Foundation.Qsort
open Foundation.Scanf
open DynOffsets Config Layout Accepted Header Image

/-- The entries, in the order of the array `comps`. -/
inductive Line
  | ivt
  | qspi
  | dcd
  | hseFw
  | hseImg
  | appHdr
  | app
  deriving DecidableEq

abbrev Entry := Line × LayoutComp

def lineDesc : Line → List UInt8
  | .ivt => ascii "IVT:                      "
  | .qspi => ascii "QSPI Parameters:          "
  | .dcd => ascii "DCD:                      "
  | .hseFw => ascii "HSE Firmware:             "
  | .hseImg => ascii "HSE SYS Image:            "
  | .appHdr => ascii "AppBootCode Header:       "
  | .app => ascii "Application:              "

def comp (printed : Printed) : Line → LayoutComp
  | .ivt => printed.ivt
  | .qspi => printed.qspi
  | .dcd => printed.dcd
  | .hseFw => printed.hseFw
  | .hseImg => printed.hseImg
  | .appHdr => printed.appHdr
  | .app => printed.app

/-- The array `comps`. -/
def comps (printed : Printed) : List Entry :=
  [(.ivt, printed.ivt), (.qspi, printed.qspi), (.dcd, printed.dcd), (.hseFw, printed.hseFw),
    (.hseImg, printed.hseImg), (.appHdr, printed.appHdr), (.app, printed.app)]

theorem mem_comps (printed : Printed) (entry : Entry) :
    entry ∈ comps printed ↔ entry.2 = comp printed entry.1 := by
  obtain ⟨line, value⟩ := entry
  cases line <;> simp [comps, comp]

/-- `layout_comparator` -/
def layoutComparator (entry1 entry2 : Entry) : ℤ :=
  (BitVec.ofNat 32 entry1.2.offset - BitVec.ofNat 32 entry2.2.offset).toInt

/-- The entries that `print_layout` prints. -/
def shown (entry : Entry) : Bool := !(entry.2.offset == 0 && entry.2.size == 0)

def layoutLines (q : ArraySorter) (printed : Printed) : List Entry :=
  (q.sort 0 layoutComparator (comps printed)).filter shown

/-- A line of `print_layout`. -/
def entryText (entry : Entry) : List UInt8 :=
  ascii "      " ++ lineDesc entry.1 ++ ascii "Offset: 0x" ++ hexDigits entry.2.offset ++
    ascii "\t\t" ++
    (if entry.2.size ≠ 0 then ascii "Size: 0x" ++ hexDigits entry.2.size else []) ++ ascii "\n"

def bootCoreText (bootTarget : ℕ) : List UInt8 :=
  if bootTarget = BCW_BOOT_TARGET_A53_0 then ascii "A53_0\n"
  else if bootTarget = BCW_BOOT_TARGET_M7_0 then ascii "M7_0\n"
  else ascii "Unknown (" ++ ascii (toString bootTarget) ++ ascii ")\n"

/-- What `s32cc_print_header` writes to the standard output. -/
def headerText (q : ArraySorter) (printed : Printed) : List UInt8 :=
  (layoutLines q printed).flatMap entryText ++
    ascii "  Boot Core:\t" ++ bootCoreText printed.bootTarget ++
    ascii "  IVT Location:\t" ++ (if printed.qspiBoot then ascii "QSPI\n" else ascii "SD/eMMC\n") ++
    ascii "  Load address:\t0x" ++ hexDigits printed.loadAddress ++
    ascii "\n  Entry point:\t0x" ++ hexDigits printed.entryPoint ++ ascii "\n"

theorem layoutComparator_le_iff {entry1 entry2 : Entry} (h1 : entry1.2.offset < 2 ^ 31)
    (h2 : entry2.2.offset < 2 ^ 31) :
    layoutComparator entry1 entry2 ≤ 0 ↔ entry1.2.offset ≤ entry2.2.offset := by
  have hdiff : (BitVec.ofNat 32 entry1.2.offset - BitVec.ofNat 32 entry2.2.offset).toNat =
      (2 ^ 32 - entry2.2.offset + entry1.2.offset) % 2 ^ 32 := by
    have hmod1 : entry1.2.offset % 2 ^ 32 = entry1.2.offset := Nat.mod_eq_of_lt (by omega)
    have hmod2 : entry2.2.offset % 2 ^ 32 = entry2.2.offset := Nat.mod_eq_of_lt (by omega)
    rw [BitVec.toNat_sub, BitVec.toNat_ofNat, BitVec.toNat_ofNat, hmod1, hmod2]
  rw [layoutComparator, BitVec.toInt_eq_toNat_cond, hdiff]
  split_ifs <;> omega

/-- Offsets of less than 2 GiB are listed in order. -/
theorem sorted_layoutLines (q : ArraySorter) {printed : Printed}
    (h : ∀ entry ∈ comps printed, entry.2.offset < 2 ^ 31) :
    (layoutLines q printed).Pairwise fun entry1 entry2 ↦ entry1.2.offset ≤ entry2.2.offset := by
  have hsorted := q.sortedOn 0 layoutComparator (fun entry ↦ entry.2.offset) (comps printed)
    fun entry1 h1 entry2 h2 ↦ layoutComparator_le_iff (h entry1 h1) (h entry2 h2)
  exact hsorted.filter _

theorem perm_layoutLines (q : ArraySorter) (printed : Printed) :
    (layoutLines q printed).Perm ((comps printed).filter shown) :=
  (q.perm 0 layoutComparator (comps printed)).filter _

theorem nodup_layoutLines (q : ArraySorter) (printed : Printed) :
    (layoutLines q printed).Nodup := by
  have hnodup : (comps printed).Nodup := by
    apply List.Nodup.of_map Prod.fst
    simp [comps]
  exact (perm_layoutLines q printed).nodup_iff.mpr (hnodup.filter _)

/-! ## Created images -/

def Line.part : Line → Part
  | .ivt => .ivt
  | .qspi => .qspiParams
  | .dcd => .dcd
  | .hseFw => .hseFw
  | .hseImg => .hseSysImg
  | .appHdr => .appCode
  | .app => .code

/-- The size in the listing: none for the firmware, and the rounded length for the code. -/
def lineSize (layout : ProgramImage) (length : ℕ) : Line → ℕ
  | .hseFw => 0
  | .app => length
  | line => (layout line.part).size

/-- The listing of a layout: its components where they are, one behind the other. -/
structure Lists (iconfig : ImageConfig) (layout : ProgramImage) (length : ℕ)
    (entries : List Entry) : Prop where
  nodup : entries.Nodup
  mem_iff : ∀ entry, entry ∈ entries ↔ Present iconfig entry.1.part ∧
    entry.2 = ⟨(layout entry.1.part).offset, lineSize layout length entry.1⟩
  ordered : entries.Pairwise fun entry1 entry2 ↦ entry1.2.offset < entry2.2.offset ∧
    entry1.2.offset + entry1.2.size ≤ entry2.2.offset

/-- A layout has one listing. -/
theorem Lists.unique {iconfig : ImageConfig} {layout : ProgramImage} {length : ℕ}
    {entries others : List Entry} (h : Lists iconfig layout length entries)
    (hothers : Lists iconfig layout length others) : entries = others := by
  have hperm : entries.Perm others := by
    rw [List.perm_ext_iff_of_nodup h.nodup hothers.nodup]
    exact fun entry ↦ (h.mem_iff entry).trans (hothers.mem_iff entry).symm
  apply hperm.eq_of_pairwise _ h.ordered hothers.ordered
  rintro entry1 entry2 - - ⟨hlt, -⟩ ⟨hgt, -⟩
  omega

section Created

variable {allocates : ℕ → Bool} {files : String → Except ℤ (List UInt8)}
  {directives : List Directive} {boot : BootType} {sorter : Sorter} {state : State}
  {layout : ProgramImage} {headerSize : ℕ} {payload : List UInt8} {toolParams : ToolParams}
  {image : Memory × ℕ} {length : ℕ}

theorem present_part_iff (iconfig : ImageConfig) (line : Line) :
    Present iconfig line.part ↔
      match line with
      | .qspi => iconfig.flashBoot = true
      | .dcd => iconfig.dcd.size ≠ 0
      | .hseFw | .hseImg => iconfig.hseEnable = true
      | .ivt | .appHdr | .app => True := by
  unfold Present
  rw [mem_layoutParts]
  cases line <;> simp [Line.part]

/-- The entry of a line: empty without its component, and not empty with it. -/
theorem comp_expectedPrint
    (h : AcceptedConf allocates files directives boot sorter state layout headerSize)
    (toolParams : ToolParams) (length : ℕ) (line : Line) :
    Present state.iconfig line.part ∧
        comp (expectedPrint state.iconfig layout boot toolParams length) line =
          ⟨(layout line.part).offset, lineSize layout length line⟩ ∧
        ((layout line.part).offset ≠ 0 ∨ lineSize layout length line ≠ 0) ∨
      ¬ Present state.iconfig line.part ∧
        comp (expectedPrint state.iconfig layout boot toolParams length) line = ⟨0, 0⟩ := by
  rw [present_part_iff]
  cases line with
  | ivt =>
    have hsize : lineSize layout length .ivt = IVT_SIZE := h.size_eq .ivt
    rw [hsize]
    exact .inl ⟨trivial, rfl, .inr (by decide)⟩
  | qspi =>
    have hsize : lineSize layout length .qspi = QSPI_PARAMS_SIZE := h.size_eq .qspiParams
    have hpositive : QSPI_PARAMS_SIZE ≠ 0 := by decide
    dsimp only
    rw [h.layoutInput.flashBoot, comp, expectedPrint]
    dsimp only
    by_cases hboot : boot = .qspi
    · rw [if_pos hboot]
      exact .inl ⟨decide_eq_true hboot, rfl, .inr (hsize ▸ hpositive)⟩
    · rw [if_neg hboot]
      exact .inr ⟨by simpa using hboot, rfl⟩
  | dcd =>
    have hsize : lineSize layout length .dcd = state.iconfig.dcd.size := h.size_eq .dcd
    rw [hsize, comp, expectedPrint]
    dsimp only
    by_cases hdcd : state.iconfig.dcd.size = 0
    · rw [if_pos hdcd]
      exact .inr ⟨not_not.mpr hdcd, rfl⟩
    · rw [if_neg hdcd]
      exact .inl ⟨hdcd, rfl, .inr hdcd⟩
  | hseFw =>
    have hsize : (layout .hseFw).size = state.iconfig.hseFw.length := h.size_eq .hseFw
    have hbounds := h.layoutInput.hseFw
    rw [comp, expectedPrint]
    dsimp only
    by_cases henable : state.iconfig.hseEnable = true
    · rw [if_pos henable] at hbounds ⊢
      have hpresent : Present state.iconfig .hseFw := .inl ((mem_layoutParts _ .hseFw).mpr henable)
      have hpositive : 0 < (layout .hseFw).size := by omega
      exact .inl ⟨henable, rfl,
        .inl (offset_ne_zero h hpresent hpositive (by decide) (by decide))⟩
    · rw [if_neg henable]
      exact .inr ⟨henable, rfl⟩
  | hseImg =>
    have hsize : lineSize layout length .hseImg = HSE_SYS_IMG_MAX_SIZE := h.size_eq .hseSysImg
    have hpositive : HSE_SYS_IMG_MAX_SIZE ≠ 0 := by decide
    rw [comp, expectedPrint]
    dsimp only
    by_cases henable : state.iconfig.hseEnable = true
    · rw [if_pos henable]
      exact .inl ⟨henable, rfl, .inr (hsize ▸ hpositive)⟩
    · rw [if_neg henable]
      exact .inr ⟨henable, rfl⟩
  | appHdr =>
    have hsize : lineSize layout length .appHdr = APP_CODE_SIZE := h.size_eq .appCode
    have hpositive : APP_CODE_SIZE ≠ 0 := by decide
    exact .inl ⟨trivial, rfl, .inr (hsize ▸ hpositive)⟩
  | app =>
    have hsize : (layout .appCode).size = APP_CODE_SIZE := h.size_eq .appCode
    have hglued := h.layoutOk.glued
    have hpositive : 0 < APP_CODE_SIZE := by decide
    exact .inl ⟨trivial, rfl, .inl (by rw [Line.part]; omega)⟩

/-- The entries that are shown are those of the components of the image. -/
theorem mem_shown_iff
    (h : AcceptedConf allocates files directives boot sorter state layout headerSize)
    (toolParams : ToolParams) (length : ℕ) (entry : Entry) :
    entry ∈ (comps (expectedPrint state.iconfig layout boot toolParams length)).filter shown ↔
      Present state.iconfig entry.1.part ∧
        entry.2 = ⟨(layout entry.1.part).offset, lineSize layout length entry.1⟩ := by
  rw [List.mem_filter, mem_comps]
  rcases comp_expectedPrint h toolParams length entry.1 with
    ⟨hpresent, hcomp, hne⟩ | ⟨hpresent, hcomp⟩
  · rw [hcomp, and_iff_right hpresent, and_iff_left_iff_imp]
    intro hentry
    rw [shown, hentry]
    simpa [-not_and, not_and_or] using hne
  · rw [hcomp]
    constructor
    · rintro ⟨hentry, hshown⟩
      rw [shown, hentry] at hshown
      exact absurd hshown (by decide)
    · exact fun hentry ↦ absurd hentry.1 hpresent

/-- A component in front of the code is not empty and ends where the code starts or before. -/
theorem before_code
    (h : AcceptedConf allocates files directives boot sorter state layout headerSize) {line : Line}
    (hpresent : Present state.iconfig line.part) (happ : line ≠ .app) :
    0 < (layout line.part).size ∧
      (layout line.part).offset + (layout line.part).size ≤ (layout .code).offset := by
  have hpart : some line.part ∈ layoutParts state.iconfig ∨ line.part = .appCode := by
    rcases hpresent with hpart | hpart | hcode
    · exact .inl hpart
    · exact .inr hpart
    · cases line <;> first | exact absurd rfl happ | cases hcode
  rw [h.layoutOk.glued.2]
  refine ⟨?_, finish_le_headerSize h hpart⟩
  rcases hpart with hpart | hpart
  · have hpositive := h.partsInput.preparedSize_pos hpart
    rw [preparedLayout_size, h.partsInput.size_eq] at hpositive
    rwa [h.size_eq]
  · have hsize : (layout .appCode).size = APP_CODE_SIZE := h.size_eq .appCode
    rw [hpart, hsize]
    decide

theorem lineSize_le (layout : ProgramImage) (length : ℕ) {line : Line} (h : line ≠ .app) :
    lineSize layout length line ≤ (layout line.part).size := by
  cases line with
  | hseFw => exact Nat.zero_le _
  | app => exact absurd rfl h
  | ivt | qspi | dcd | hseImg | appHdr => exact le_rfl

/-- Of two lines, the one with the smaller offset ends where the other one starts or before. -/
theorem apart
    (h : AcceptedConf allocates files directives boot sorter state layout headerSize)
    (length : ℕ) {line other : Line} (hline : Present state.iconfig line.part)
    (hother : Present state.iconfig other.part) (hne : line ≠ other)
    (hle : (layout line.part).offset ≤ (layout other.part).offset) :
    (layout line.part).offset < (layout other.part).offset ∧
      (layout line.part).offset + lineSize layout length line ≤ (layout other.part).offset := by
  have hparts : line.part ≠ other.part := by
    intro hparts
    cases line <;> cases other <;> first | exact absurd rfl hne | cases hparts
  by_cases happ : line = .app
  · -- The code is behind every other component.
    subst happ
    obtain ⟨hpositive, hend⟩ := before_code h hother (Ne.symm hne)
    have hcode : (layout .code).offset ≤ (layout other.part).offset := hle
    omega
  · obtain ⟨hpositive, -⟩ := before_code h hline happ
    have hsize := lineSize_le layout length happ
    have hdisjoint := h.layoutOk.disjoint _ _ hline hother hparts
    have hotherPositive : other = .app ∨ 0 < (layout other.part).size := by
      by_cases hotherApp : other = .app
      · exact .inl hotherApp
      · exact .inr (before_code h hother hotherApp).1
    rcases hotherPositive with rfl | hotherPositive
    · have hend := (before_code h hline happ).2
      have hcode : (layout Line.app.part).offset = (layout .code).offset := rfl
      omega
    · omega

/-- What the layout sets is listed in order, by whatever implementation of `qsort`. -/
theorem lists_layoutLines (q : ArraySorter)
    (h : AcceptedConf allocates files directives boot sorter state layout headerSize)
    (toolParams : ToolParams) (length : ℕ) :
    Lists state.iconfig layout length
      (layoutLines q (expectedPrint state.iconfig layout boot toolParams length)) := by
  have hmem (entry : Entry) : entry ∈ layoutLines q
        (expectedPrint state.iconfig layout boot toolParams length) ↔
      Present state.iconfig entry.1.part ∧
        entry.2 = ⟨(layout entry.1.part).offset, lineSize layout length entry.1⟩ :=
    (perm_layoutLines q _).mem_iff.trans (mem_shown_iff h toolParams length entry)
  refine ⟨nodup_layoutLines q _, hmem, ?_⟩
  have hnear : ∀ entry ∈ comps (expectedPrint state.iconfig layout boot toolParams length),
      entry.2.offset < 2 ^ 31 := by
    intro entry hentry
    have hheaderSize := h.headerSize_le
    have hcode := h.layoutOk.glued.2
    rw [mem_comps] at hentry
    rcases comp_expectedPrint h toolParams length entry.1 with ⟨hpresent, hcomp, -⟩ | ⟨-, hcomp⟩
    · rw [hentry, hcomp]
      dsimp only
      by_cases happ : entry.1 = .app
      · rw [happ, Line.part]
        omega
      · have hend := (before_code h hpresent happ).2
        omega
    · rw [hentry, hcomp]
      decide
  apply ((sorted_layoutLines q hnear).and (nodup_layoutLines q _)).imp_of_mem
  rintro ⟨line, value⟩ ⟨other, otherValue⟩ hline hother ⟨hle, hne⟩
  obtain ⟨hpresent, hvalue⟩ := (hmem _).mp hline
  obtain ⟨hotherPresent, hotherValue⟩ := (hmem _).mp hother
  dsimp only at hpresent hvalue hotherPresent hotherValue
  subst hvalue hotherValue
  exact apart h length hpresent hotherPresent (fun hsame ↦ hne (hsame ▸ rfl)) hle

/-- **The listing of an image.** Every component but the MBR area is listed once, where it is in the
file, one behind the other, and the code with its length up to a multiple of 512. -/
theorem lists_created (q : ArraySorter)
    (h : CreatedImage allocates files directives boot sorter state layout headerSize payload
      toolParams image) (hcode : codeSize state.iconfig payload + 511 < 2 ^ 32) :
    ∃ printed, printHeader image.1 = some printed ∧
      Lists state.iconfig layout ((codeSize state.iconfig payload + 511) / 512 * 512)
        (layoutLines q printed) := by
  obtain ⟨copied, after, -, -, hafter, rfl⟩ := createImage_ok h.accepted h.created
  have hprinted := printHeader_eq copied h.accepted hafter fun _ ↦ h.qspiParams
  rw [(codeLength_eq_iff _ payload).mpr hcode] at hprinted
  exact ⟨_, hprinted, lists_layoutLines q h.accepted toolParams _⟩

end Created

/-- A flash image with all components. -/
theorem lists_created_shortPayload : ∃ layout headerSize image printed,
    CreatedImage (fun _ ↦ true) equippedFiles (equippedDirectives .qspi) .qspi mergeSorter
        (equippedState .qspi) layout headerSize shortPayload freeParams image ∧
      printHeader image.1 = some printed ∧
      Lists (equippedState .qspi).iconfig layout 0x700000
        (layoutLines insertionArraySorter printed) := by
  have hlength : shortPayload.length = 0x700000 := List.length_replicate
  obtain ⟨layout, headerSize, image, hcreated⟩ := exists_shortPayload .qspi mergeSorter
  have hsize : codeSize (equippedState .qspi).iconfig shortPayload = 0x700000 := by
    rw [codeSize, if_neg (by decide), hlength]
  have hround : (0x700000 + 511) / 512 * 512 = 0x700000 := by decide
  obtain ⟨printed, hprinted, hlists⟩ := lists_created insertionArraySorter hcreated
    (by rw [hsize]; decide)
  rw [hsize, hround] at hlists
  exact ⟨layout, headerSize, image, printed, hcreated, hprinted, hlists⟩

end Vodka.Mkimage.Listing
