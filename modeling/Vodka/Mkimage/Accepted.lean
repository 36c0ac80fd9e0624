import Mathlib.Tactic
import Vodka.Mkimage.DcdArray
import Vodka.Mkimage.Layout

/-!
# Accepted configurations

A configuration is accepted when all of its lines are parsed and the layout
succeeds. What the lines leave behind is an invariant of the run over them. With
one boot source it is what the layout needs to keep the components apart. Lines
that disagree can leave a flash image with its IVT where SD images have it, and
without any line the IVT is on the MBR area.
-/

namespace Vodka.Mkimage.Accepted

open Foundation.Qsort DynOffsets Config DcdArray Layout

/-- The boot source that a line sets. -/
def bootFrom : Directive → Option BootType
  | .bootFrom boot => some boot
  | _ => none

/-- The place of the IVT behind the last boot source. -/
def ivtOffset : Option BootType → ℕ
  | none => QSPI_IVT_OFFSET
  | some boot => if boot = .qspi then QSPI_IVT_OFFSET else SD_IVT_OFFSET

/-- `flash_boot` and the layout after the `BOOT_FROM` lines so far. A `qspi` line stays in
`flash_boot`, so that two lines can contradict each other. -/
def BootOk (state : State) (boots : List BootType) : Prop :=
  state.iconfig.flashBoot = decide (BootType.qspi ∈ boots) ∧
    state.imageLayout = setOffset initialLayout .ivt (ivtOffset boots.getLast?)

/-- What the lines of a configuration leave behind. -/
structure StateOk (state : State) (boots : List BootType) : Prop where
  dcd : ∃ words, Holds state.iconfig.dcd words
  hseFw : if state.iconfig.hseEnable then 1 ≤ state.iconfig.hseFw.length
    else state.iconfig.hseFw = []
  dataFileSize : state.iconfig.dataFileSize < 2 ^ 32
  boot : BootOk state boots

variable {allocates : ℕ → Bool} {files : String → Except ℤ (List UInt8)}
  {directives : List Directive} {state next : State} {boot : BootType}

theorem stateOk_initialState : StateOk initialState [] where
  dcd := ⟨[], holds_empty⟩
  hseFw := rfl
  dataFileSize := by decide
  boot := by
    refine ⟨rfl, funext fun part ↦ ?_⟩
    cases part <;> rfl

/-- A mapped file is not empty. -/
theorem length_of_mapFile {path : String} {data : List UInt8}
    (h : mapFile files path = .ok data) : 1 ≤ data.length := by
  unfold mapFile at h
  cases hfile : files path with
  | error errno =>
    rw [hfile] at h
    exact absurd h (by simp)
  | ok contents =>
    rw [hfile] at h
    cases contents with
    | nil => exact absurd h (by simp)
    | cons byte rest =>
      have hdata : byte :: rest = data := Except.ok.inj h
      rw [← hdata, List.length_cons]
      exact Nat.le_add_left 1 _

theorem cmd_of_checkDcdCmdArgs {args checked : DcdArgs} (h : checkDcdCmdArgs args = .ok checked) :
    checked = args ∧ args.cmd ≠ .invalid := by
  unfold checkDcdCmdArgs at h
  split_ifs at h with hcmd
  exact ⟨(Except.ok.inj h).symm, hcmd⟩

/-- A line that sets no boot source leaves what the boot source lines have set. -/
theorem BootOk.of_eq {boots : List BootType} (h : BootOk state boots)
    (hflashBoot : next.iconfig.flashBoot = state.iconfig.flashBoot)
    (hlayout : next.imageLayout = state.imageLayout) : BootOk next boots := by
  unfold BootOk at h ⊢
  rwa [hflashBoot, hlayout]

theorem BootOk.bootFrom {boots : List BootType} (h : BootOk state boots) (boot : BootType) :
    BootOk (parseBootCmd boot state) (boots ++ [boot]) := by
  obtain ⟨hflashBoot, hlayout⟩ := h
  unfold BootOk parseBootCmd
  rw [List.getLast?_concat, hlayout]
  by_cases hboot : boot = .qspi
  · simp [hboot, ivtOffset, setOffset]
  · simp [hboot, Ne.symm hboot, ivtOffset, setOffset, hflashBoot]

theorem StateOk.applyDirective {boots : List BootType} (h : StateOk state boots)
    {directive : Directive} (hnext : applyDirective allocates files state directive = .ok next) :
    StateOk next (boots ++ (bootFrom directive).toList) := by
  have hnone {directive : Directive} (hdirective : bootFrom directive = none) :
      boots ++ (bootFrom directive).toList = boots := by simp [hdirective]
  cases directive with
  | bootCore a53 =>
    rw [← Except.ok.inj hnext]
    rw [hnone rfl]
    exact ⟨h.dcd, h.hseFw, h.dataFileSize, h.boot.of_eq rfl rfl⟩
  | bootFrom boot =>
    have hstate : parseBootCmd boot state = next := Except.ok.inj hnext
    have hkept : next.iconfig.dcd = state.iconfig.dcd ∧
        next.iconfig.hseEnable = state.iconfig.hseEnable ∧
        next.iconfig.hseFw = state.iconfig.hseFw ∧
        next.iconfig.dataFileSize = state.iconfig.dataFileSize := by
      rw [← hstate]
      unfold parseBootCmd
      split_ifs <;> exact ⟨rfl, rfl, rfl, rfl⟩
    obtain ⟨hdcd, hhseEnable, hhseFw, hdataFileSize⟩ := hkept
    constructor
    · rw [hdcd]
      exact h.dcd
    · rw [hhseEnable, hhseFw]
      exact h.hseFw
    · rw [hdataFileSize]
      exact h.dataFileSize
    · rw [← hstate]
      exact h.boot.bootFrom boot
  | hseFw path =>
    obtain ⟨fwData, hmap, hrest⟩ := exists_of_bind_ok hnext
    rw [← Except.ok.inj hrest]
    rw [hnone rfl]
    exact ⟨h.dcd, length_of_mapFile hmap, h.dataFileSize, h.boot.of_eq rfl rfl⟩
  | dcd args =>
    obtain ⟨checked, hcheck, hrest⟩ := exists_of_bind_ok hnext
    obtain ⟨dcd, hadd, hrest⟩ := exists_of_bind_ok hrest
    obtain ⟨rfl, hcmd⟩ := cmd_of_checkDcdCmdArgs hcheck
    obtain ⟨words, hwords⟩ := h.dcd
    rw [← Except.ok.inj hrest]
    have hdcd : ∃ words, Holds dcd words := by
      have hyields : Yields allocates (addToDcd allocates checked state.iconfig.dcd)
          (withHeader words ++ commandWords checked) := hwords.add hcmd
      rcases hyields with ⟨added, hok, hholds⟩ | ⟨hfails, -⟩
      · rw [hadd] at hok
        rw [Except.ok.inj hok]
        exact ⟨_, hholds⟩
      · rw [hadd] at hfails
        exact absurd hfails (by simp)
    rw [hnone rfl]
    exact ⟨hdcd, h.hseFw, h.dataFileSize, h.boot.of_eq rfl rfl⟩
  | qspiParamsFile path =>
    obtain ⟨qspiParams, hmap, hrest⟩ := exists_of_bind_ok hnext
    rw [← Except.ok.inj hrest]
    rw [hnone rfl]
    exact ⟨h.dcd, h.hseFw, h.dataFileSize, h.boot.of_eq rfl rfl⟩
  | dataFile size =>
    rw [← Except.ok.inj hnext]
    rw [hnone rfl]
    exact ⟨h.dcd, h.hseFw, size.isLt, h.boot.of_eq rfl rfl⟩
  | err051257Workaround =>
    rw [← Except.ok.inj hnext]
    rw [hnone rfl]
    exact ⟨h.dcd, h.hseFw, h.dataFileSize, h.boot.of_eq rfl rfl⟩

theorem StateOk.foldlM {boots : List BootType} (h : StateOk state boots)
    (hnext : directives.foldlM (Config.applyDirective allocates files) state = .ok next) :
    StateOk next (boots ++ directives.filterMap bootFrom) := by
  induction directives generalizing state boots with
  | nil =>
    rw [← Except.ok.inj hnext]
    simpa using h
  | cons directive directives ih =>
    rw [List.foldlM_cons] at hnext
    obtain ⟨first, hfirst, hrest⟩ := exists_of_bind_ok hnext
    have hok := ih (h.applyDirective hfirst) hrest
    cases hboot : bootFrom directive <;> simpa [hboot] using hok

theorem stateOk_of_buildConf (h : buildConf allocates files directives = .ok state) :
    StateOk state (directives.filterMap bootFrom) :=
  stateOk_initialState.foldlM h

/-- A configuration that the tool accepts. -/
structure LaidOut (allocates : ℕ → Bool) (files : String → Except ℤ (List UInt8))
    (directives : List Directive) (sorter : Sorter) (state : State) (layout : ProgramImage)
    (headerSize : ℕ) : Prop where
  conf : buildConf allocates files directives = .ok state
  layout : buildLayout sorter state.iconfig state.imageLayout = .ok (layout, headerSize)

/-- A configuration with one boot source that the tool accepts. -/
structure AcceptedConf (allocates : ℕ → Bool) (files : String → Except ℤ (List UInt8))
    (directives : List Directive) (boot : BootType) (sorter : Sorter) (state : State)
    (layout : ProgramImage) (headerSize : ℕ) : Prop where
  conf : buildConf allocates files directives = .ok state
  boot : directives.filterMap bootFrom = [boot]
  layout : buildLayout sorter state.iconfig state.imageLayout = .ok (layout, headerSize)

variable {sorter : Sorter} {layout : ProgramImage} {headerSize : ℕ}

theorem AcceptedConf.laidOut
    (h : AcceptedConf allocates files directives boot sorter state layout headerSize) :
    LaidOut allocates files directives sorter state layout headerSize :=
  ⟨h.conf, h.layout⟩

/-- A layout that succeeds has found no size too large. -/
theorem sizes_of_buildLayout {iconfig : ImageConfig} {before : ProgramImage}
    (h : buildLayout sorter iconfig before = .ok (layout, headerSize)) :
    iconfig.dcd.size ≤ DCD_MAXIMUM_SIZE ∧ iconfig.hseFw.length ≤ HSE_FW_MAX_SIZE := by
  obtain ⟨sized, hsized, -⟩ := exists_of_bind_ok h
  unfold setHeadersSize at hsized
  simp only [Function.update_self] at hsized
  split_ifs at hsized with hdcd hhseFw
  exact ⟨not_lt.mp hdcd, not_lt.mp hhseFw⟩

/-! ## Any boot sources -/

/-- What the lines leave behind is what the layout needs when no size is too large. -/
theorem partsInput_of_buildConf (h : buildConf allocates files directives = .ok state)
    (hdcdSize : state.iconfig.dcd.size ≤ DCD_MAXIMUM_SIZE)
    (hhseFwSize : state.iconfig.hseFw.length ≤ HSE_FW_MAX_SIZE) :
    PartsInput state (ivtOffset (directives.filterMap bootFrom).getLast?) := by
  have hstate := stateOk_of_buildConf h
  refine ⟨hstate.boot.2, ?ivt, ?dcd, ?hseFw⟩
  case ivt =>
    unfold ivtOffset
    split
    · exact .inl rfl
    · split_ifs <;> simp
  case dcd =>
    obtain ⟨words, hwords⟩ := hstate.dcd
    have hsize := hwords.size
    omega
  case hseFw =>
    have hhseFw := hstate.hseFw
    split_ifs at hhseFw ⊢
    · exact ⟨hhseFw, hhseFwSize⟩
    · exact hhseFw

theorem exists_laidOut (h : buildConf allocates files directives = .ok state)
    (hdcdSize : state.iconfig.dcd.size ≤ DCD_MAXIMUM_SIZE)
    (hhseFwSize : state.iconfig.hseFw.length ≤ HSE_FW_MAX_SIZE)
    (hapart : ivtOffset (directives.filterMap bootFrom).getLast? = QSPI_IVT_OFFSET →
      state.iconfig.flashBoot = true) (sorter : Sorter) :
    ∃ layout headerSize, LaidOut allocates files directives sorter state layout headerSize := by
  obtain ⟨bound, order, comps, -, -, -, hbuild⟩ :=
    (partsInput_of_buildConf h hdcdSize hhseFwSize).buildLayout_eq hapart sorter
  exact ⟨_, _, h, hbuild⟩

section Any

variable (h : LaidOut allocates files directives sorter state layout headerSize)

include h

theorem LaidOut.stateOk : StateOk state (directives.filterMap bootFrom) :=
  stateOk_of_buildConf h.conf

theorem LaidOut.partsInput :
    PartsInput state (ivtOffset (directives.filterMap bootFrom).getLast?) :=
  partsInput_of_buildConf h.conf (sizes_of_buildLayout h.layout).1 (sizes_of_buildLayout h.layout).2

theorem LaidOut.layoutRanged : LayoutRanged state.iconfig state.imageLayout layout headerSize :=
  h.partsInput.layoutRanged h.layout

theorem LaidOut.layoutOk
    (hapart : ivtOffset (directives.filterMap bootFrom).getLast? = QSPI_IVT_OFFSET →
      state.iconfig.flashBoot = true) :
    LayoutOk state.iconfig state.imageLayout layout headerSize := by
  obtain ⟨bound, order, comps, hperm, hplaced, -, hbuild⟩ :=
    h.partsInput.buildLayout_eq hapart sorter
  have hsame := Except.ok.inj (h.layout.symm.trans hbuild)
  rw [Prod.mk.injEq] at hsame
  rw [hsame.1, hsame.2]
  exact h.partsInput.layoutOk hperm hplaced

theorem LaidOut.size_eq (part : Part) :
    (layout part).size = if part = .dcd then state.iconfig.dcd.size
      else if part = .hseFw then state.iconfig.hseFw.length else (initialLayout part).size := by
  rw [h.layoutRanged.sizes, h.partsInput.size_eq]

theorem LaidOut.ivt_offset :
    (layout .ivt).offset = ivtOffset (directives.filterMap bootFrom).getLast? := by
  have hbefore := h.partsInput.offset_eq .ivt
  rw [h.layoutRanged.fixed .ivt ((mem_layoutParts _ .ivt).mpr trivial), hbefore]
  rw [hbefore]
  rcases h.partsInput.ivt_cases with hivt | hivt
  · rw [hivt]
    decide
  · rw [hivt]
    decide

theorem LaidOut.ivt_cases : (layout .ivt).offset = 0 ∨ (layout .ivt).offset = 0x1000 := by
  rw [h.ivt_offset]
  exact h.partsInput.ivt_cases

theorem LaidOut.qspiParams_offset (hflashBoot : state.iconfig.flashBoot = true) :
    (layout .qspiParams).offset = QSPI_PARAMS_OFFSET := by
  have hbefore := h.partsInput.offset_eq .qspiParams
  rw [h.layoutRanged.fixed .qspiParams ((mem_layoutParts _ .qspiParams).mpr hflashBoot), hbefore]
  · rfl
  · rw [hbefore]
    exact (show (0x200 : ℕ) ≠ AUTO_OFFSET by decide)

/-- A component with the automatic offset is behind the first bytes of the image and apart from
the IVT. -/
theorem LaidOut.apart {part : Part} (hpart : Present state.iconfig part) (hcode : part ≠ .code)
    (hauto : (initialLayout part).offset = AUTO_OFFSET) :
    IVT_SIZE ≤ (layout part).offset ∧
      ((layout .ivt).offset + IVT_SIZE ≤ (layout part).offset ∨
        (layout part).offset + (layout part).size ≤ (layout .ivt).offset) := by
  have hivtSize : (layout .ivt).size = IVT_SIZE := h.size_eq .ivt
  have hne : part ≠ .ivt := by
    rintro rfl
    exact absurd hauto (by decide)
  have hbefore : (state.imageLayout part).offset = AUTO_OFFSET := by
    rw [h.partsInput.layout, setOffset_of_ne _ _ hne, hauto]
  have hlow := h.layoutRanged.behind part hpart hcode hbefore
  refine ⟨hlow, ?_⟩
  by_cases hapart : ivtOffset (directives.filterMap bootFrom).getLast? = QSPI_IVT_OFFSET →
      state.iconfig.flashBoot = true
  · have hdisjoint := (h.layoutOk hapart).disjoint .ivt part
      (.inl ((mem_layoutParts _ .ivt).mpr trivial)) hpart hne.symm
    rwa [hivtSize] at hdisjoint
  · -- The IVT is at the start of the image, over the MBR area.
    have hstart := (Classical.not_imp.mp hapart).1
    rw [h.ivt_offset, hstart]
    left
    unfold QSPI_IVT_OFFSET
    omega

/-- The application header is behind the IVT. -/
theorem LaidOut.ivt_le_appCode :
    (layout .ivt).offset + IVT_SIZE ≤ (layout .appCode).offset := by
  have hivtSize : (layout .ivt).size = IVT_SIZE := h.size_eq .ivt
  have hpresent : Present state.iconfig .appCode := .inr (.inl rfl)
  obtain ⟨hlow, -⟩ := h.apart hpresent (by decide) rfl
  by_cases hapart : ivtOffset (directives.filterMap bootFrom).getLast? = QSPI_IVT_OFFSET →
      state.iconfig.flashBoot = true
  · have hlast := (h.layoutOk hapart).last .ivt ((mem_layoutParts _ .ivt).mpr trivial)
    rwa [hivtSize] at hlast
  · have hstart := (Classical.not_imp.mp hapart).1
    rw [h.ivt_offset, hstart]
    unfold QSPI_IVT_OFFSET
    omega

theorem LaidOut.dcd_mem_layoutParts (hdata : state.iconfig.dcd.data.isSome) :
    some Part.dcd ∈ layoutParts state.iconfig := by
  obtain ⟨words, hwords⟩ := h.stateOk.dcd
  exact (mem_layoutParts _ .dcd).mpr (hwords.isSome_iff.mp hdata)

end Any

/-! ## One boot source -/

theorem AcceptedConf.layoutInput
    (h : AcceptedConf allocates files directives boot sorter state layout headerSize) :
    LayoutInput state boot := by
  have hinput := h.laidOut.partsInput
  have hboot := h.laidOut.stateOk.boot
  rw [h.boot] at hinput hboot
  refine ⟨hboot.1.trans ?_, hboot.2, hinput.dcd, hinput.hseFw⟩
  simp [eq_comm]

theorem AcceptedConf.partsInput
    (h : AcceptedConf allocates files directives boot sorter state layout headerSize) :
    PartsInput state (if boot = .qspi then QSPI_IVT_OFFSET else SD_IVT_OFFSET) :=
  h.layoutInput.partsInput

theorem AcceptedConf.flashBoot_iff
    (h : AcceptedConf allocates files directives boot sorter state layout headerSize) :
    state.iconfig.flashBoot = true ↔ boot = .qspi := by
  rw [h.layoutInput.flashBoot, decide_eq_true_iff]

theorem AcceptedConf.layoutOk
    (h : AcceptedConf allocates files directives boot sorter state layout headerSize) :
    LayoutOk state.iconfig state.imageLayout layout headerSize := by
  apply h.laidOut.layoutOk
  rw [h.boot]
  exact h.layoutInput.apart

/-- The header is far below the end of a 32-bit offset. -/
theorem AcceptedConf.headerSize_le
    (h : AcceptedConf allocates files directives boot sorter state layout headerSize) :
    headerSize ≤ 0x700000 := by
  obtain ⟨bound, order, comps, -, hplaced, hbound, hbuild⟩ :=
    h.partsInput.buildLayout_eq h.layoutInput.apart sorter
  have hsame := Except.ok.inj (h.layout.symm.trans hbuild)
  rw [Prod.mk.injEq] at hsame
  have hsize : (comps .appCode).size = APP_CODE_SIZE := by
    rw [hplaced.size_eq]
    exact h.partsInput.preparedSize_eq .appCode
  have hend := hplaced.bounded .appCode (List.mem_append_right _ List.mem_cons_self)
  rw [hsize] at hend
  rw [hsame.2]
  omega

theorem AcceptedConf.size_eq
    (h : AcceptedConf allocates files directives boot sorter state layout headerSize)
    (part : Part) :
    (layout part).size = if part = .dcd then state.iconfig.dcd.size
      else if part = .hseFw then state.iconfig.hseFw.length else (initialLayout part).size :=
  h.laidOut.size_eq part

/-- One line of each kind that adds a component. -/
def equippedDirectives (boot : BootType) : List Directive :=
  [.bootFrom boot, .dcd ⟨.write, 0x4007c004, 1, 4, 0⟩, .hseFw "hse.bin", .err051257Workaround]

def equippedFiles (_ : String) : Except ℤ (List UInt8) := .ok [0x48, 0x53, 0x45]

theorem equippedState_accepted (boot : BootType) (sorter : Sorter) : ∃ layout headerSize,
    AcceptedConf (fun _ ↦ true) equippedFiles (equippedDirectives boot) boot sorter
      (equippedState boot) layout headerSize := by
  have hconf : buildConf (fun _ ↦ true) equippedFiles (equippedDirectives boot) =
      .ok (equippedState boot) := by
    cases boot <;> rfl
  obtain ⟨layout, headerSize, h⟩ := exists_laidOut hconf (by simp [equippedState, DCD_MAXIMUM_SIZE])
    (by simp [equippedState, HSE_FW_MAX_SIZE]) (by cases boot <;> decide) sorter
  exact ⟨layout, headerSize, hconf, rfl, h.layout⟩

end Vodka.Mkimage.Accepted
