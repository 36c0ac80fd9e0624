import Mathlib.Tactic
import Vodka.Mkimage.Accepted

/-!
# What a configuration file means

The lines of a file set what their last one says, except that the DCD lines add
up and that a `qspi` boot source is never taken back: `parse_boot_cmd` sets
`flash_boot` but does not clear it, and without a boot source the IVT is where a
flash image has it. The settings of a file are compared with the state that the
lines build.
-/

namespace Vodka.Mkimage.ConfigState

open Foundation.Qsort DynOffsets Config DcdArray Layout Accepted

def bootCore : Directive → Option Bool
  | .bootCore a53 => some a53
  | _ => none

def hseFw : Directive → Option String
  | .hseFw path => some path
  | _ => none

def dcdArgs : Directive → Option DcdArgs
  | .dcd args => some args
  | _ => none

def qspiParamsFile : Directive → Option String
  | .qspiParamsFile path => some path
  | _ => none

def dataFile : Directive → Option (BitVec 32)
  | .dataFile size => some size
  | _ => none

/-- What the last line of a kind says. -/
def last {α : Type} (kind : Directive → Option α) (directives : List Directive) : Option α :=
  (directives.filterMap kind).getLast?

theorem last_append {α : Type} (kind : Directive → Option α) (directives : List Directive)
    (directive : Directive) :
    last kind (directives ++ [directive]) = (kind directive).or (last kind directives) := by
  cases h : kind directive <;> simp [last, h]

/-- What a file asks for. -/
@[ext]
structure Settings where
  bootCore : Option Bool
  boot : Option BootType
  qspiSeen : Bool
  hseFw : Option String
  dcd : List DcdArgs
  qspiParams : Option String
  dataFileSize : Option (BitVec 32)
  err051257 : Bool

def settings (directives : List Directive) : Settings where
  bootCore := last bootCore directives
  boot := last bootFrom directives
  qspiSeen := decide (Directive.bootFrom .qspi ∈ directives)
  hseFw := last hseFw directives
  dcd := directives.filterMap dcdArgs
  qspiParams := last qspiParamsFile directives
  dataFileSize := last dataFile directives
  err051257 := decide (Directive.err051257Workaround ∈ directives)

/-- One more line. -/
def Settings.add (settings : Settings) : Directive → Settings
  | .bootCore a53 => { settings with bootCore := some a53 }
  | .bootFrom boot =>
    { settings with boot := some boot, qspiSeen := settings.qspiSeen || decide (boot = .qspi) }
  | .hseFw path => { settings with hseFw := some path }
  | .dcd args => { settings with dcd := settings.dcd ++ [args] }
  | .qspiParamsFile path => { settings with qspiParams := some path }
  | .dataFile size => { settings with dataFileSize := some size }
  | .err051257Workaround => { settings with err051257 := true }

theorem settings_append (directives : List Directive) (directive : Directive) :
    settings (directives ++ [directive]) = (settings directives).add directive := by
  cases directive with
  | bootFrom boot => cases boot <;>
      ext1 <;> simp [settings, Settings.add, last_append, bootCore, bootFrom, hseFw, dcdArgs,
        qspiParamsFile, dataFile]
  | _ => ext1 <;> simp [settings, Settings.add, last_append, bootCore, bootFrom, hseFw, dcdArgs,
      qspiParamsFile, dataFile]

/-- The contents of the file that the last line of a kind names. -/
def MapsTo (files : String → Except ℤ (List UInt8)) (path : Option String) (data : List UInt8) :
    Prop :=
  match path with
  | none => data = []
  | some path => mapFile files path = .ok data

/-- The layout with the IVT where the last boot source puts it. -/
def bootLayout : Option BootType → ProgramImage
  | none => initialLayout
  | some boot =>
    setOffset initialLayout .ivt (if boot = .qspi then QSPI_IVT_OFFSET else SD_IVT_OFFSET)

/-- The state that lines with these settings build. -/
structure Built (allocates : ℕ → Bool) (files : String → Except ℤ (List UInt8)) (state : State)
    (settings : Settings) : Prop where
  bootCore : state.iconfig.a53Boot = settings.bootCore.getD true
  flashBoot : state.iconfig.flashBoot = settings.qspiSeen
  layout : state.imageLayout = bootLayout settings.boot
  hseEnable : state.iconfig.hseEnable = settings.hseFw.isSome
  hseFw : MapsTo files settings.hseFw state.iconfig.hseFw
  qspiParams : MapsTo files settings.qspiParams state.iconfig.qspiParams
  dataFileSize : state.iconfig.dataFileSize = (settings.dataFileSize.getD 0).toNat
  err051257 : state.iconfig.err051257 = settings.err051257
  dcd : settings.dcd.foldlM (fun dcd args ↦ addToDcd allocates args dcd) ⟨none, 0, 0⟩ =
    .ok state.iconfig.dcd
  commands : ∀ args ∈ settings.dcd, args.cmd ≠ .invalid

variable {allocates : ℕ → Bool} {files : String → Except ℤ (List UInt8)}
  {directives other : List Directive} {state next otherState : State} {asked : Settings}

theorem built_initialState : Built allocates files initialState (settings []) where
  bootCore := rfl
  flashBoot := rfl
  layout := rfl
  hseEnable := rfl
  hseFw := rfl
  qspiParams := rfl
  dataFileSize := rfl
  err051257 := rfl
  dcd := rfl
  commands := by simp [settings]

theorem setOffset_bootLayout (boot : Option BootType) (offset : ℕ) :
    setOffset (bootLayout boot) .ivt offset = setOffset initialLayout .ivt offset := by
  cases boot with
  | none => rfl
  | some boot => simp [bootLayout, setOffset]

theorem Built.bootFrom (h : Built allocates files state asked) (boot : BootType) :
    Built allocates files (parseBootCmd boot state) (asked.add (.bootFrom boot)) := by
  unfold parseBootCmd
  by_cases hboot : boot = .qspi
  · rw [if_pos hboot]
    exact { h with
      flashBoot := by simp [Settings.add, hboot]
      layout := by rw [h.layout, setOffset_bootLayout]; simp [Settings.add, bootLayout, hboot] }
  · rw [if_neg hboot]
    exact { h with
      flashBoot := by simp [Settings.add, hboot, h.flashBoot]
      layout := by
        dsimp only
        rw [h.layout, setOffset_bootLayout]
        simp [Settings.add, bootLayout, hboot] }

theorem Built.applyDirective (h : Built allocates files state asked) {directive : Directive}
    (hnext : applyDirective allocates files state directive = .ok next) :
    Built allocates files next (asked.add directive) := by
  cases directive with
  | bootCore a53 =>
    obtain rfl := Except.ok.inj hnext
    exact { h with bootCore := rfl }
  | bootFrom boot =>
    obtain rfl := Except.ok.inj hnext
    exact h.bootFrom boot
  | hseFw path =>
    obtain ⟨fwData, hmap, hrest⟩ := exists_of_bind_ok hnext
    obtain rfl := Except.ok.inj hrest
    exact { h with hseEnable := rfl, hseFw := hmap }
  | dcd args =>
    obtain ⟨checked, hcheck, hrest⟩ := exists_of_bind_ok hnext
    obtain ⟨dcd, hadd, hrest⟩ := exists_of_bind_ok hrest
    obtain ⟨rfl, hcmd⟩ := cmd_of_checkDcdCmdArgs hcheck
    obtain rfl := Except.ok.inj hrest
    exact { h with
      dcd := by
        simp only [Settings.add]
        rw [List.foldlM_append, h.dcd]
        change (addToDcd allocates checked state.iconfig.dcd >>= fun dcd ↦ pure dcd) = .ok dcd
        rw [hadd]
        rfl
      commands := by
        intro args hargs
        rcases List.mem_append.1 hargs with hargs | hargs
        · exact h.commands args hargs
        · rw [List.mem_singleton.1 hargs]
          exact hcmd }
  | qspiParamsFile path =>
    obtain ⟨qspiParams, hmap, hrest⟩ := exists_of_bind_ok hnext
    obtain rfl := Except.ok.inj hrest
    exact { h with qspiParams := hmap }
  | dataFile size =>
    obtain rfl := Except.ok.inj hnext
    exact { h with dataFileSize := rfl }
  | err051257Workaround =>
    obtain rfl := Except.ok.inj hnext
    exact { h with err051257 := rfl }

theorem Built.foldlM (h : Built allocates files state (settings directives))
    (hnext : other.foldlM (Config.applyDirective allocates files) state = .ok next) :
    Built allocates files next (settings (directives ++ other)) := by
  induction other generalizing state directives with
  | nil =>
    rw [← Except.ok.inj hnext, List.append_nil]
    exact h
  | cons directive other ih =>
    rw [List.foldlM_cons] at hnext
    obtain ⟨first, hfirst, hrest⟩ := exists_of_bind_ok hnext
    have hstep := h.applyDirective hfirst
    rw [← settings_append] at hstep
    rw [List.append_cons]
    exact ih hstep hrest

theorem built_of_buildConf (h : buildConf allocates files directives = .ok state) :
    Built allocates files state (settings directives) :=
  built_initialState.foldlM h

theorem MapsTo.unique {path : Option String} {data otherData : List UInt8}
    (h : MapsTo files path data) (hother : MapsTo files path otherData) : data = otherData := by
  cases path with
  | none => exact Eq.trans h (Eq.symm hother)
  | some path => exact Except.ok.inj ((Eq.symm h).trans hother)

/-- The settings determine the state. -/
theorem Built.unique (h : Built allocates files state asked)
    (hother : Built allocates files otherState asked) : otherState = state := by
  obtain ⟨⟨dcd, qspiParams, dataFileSize, hseEnable, hseFw, flashBoot, a53Boot, err051257⟩,
    imageLayout⟩ := state
  obtain ⟨⟨dcd', qspiParams', dataFileSize', hseEnable', hseFw', flashBoot', a53Boot', err051257'⟩,
    imageLayout'⟩ := otherState
  have hdcd := Except.ok.inj (hother.dcd.symm.trans h.dcd)
  have hqspiParams := hother.qspiParams.unique h.qspiParams
  have hhseFw := hother.hseFw.unique h.hseFw
  have hbootCore := hother.bootCore.trans h.bootCore.symm
  have hflashBoot := hother.flashBoot.trans h.flashBoot.symm
  have hlayout := hother.layout.trans h.layout.symm
  have hhseEnable := hother.hseEnable.trans h.hseEnable.symm
  have hdataFileSize := hother.dataFileSize.trans h.dataFileSize.symm
  have herr051257 := hother.err051257.trans h.err051257.symm
  dsimp only at *
  subst_vars
  rfl

/-! ## Coherence -/

/-- The same lines in another order, with the DCD lines in their order and the last line of each
other kind still the last. -/
structure Reordered (directives other : List Directive) : Prop where
  perm : other.Perm directives
  dcd : other.filterMap dcdArgs = directives.filterMap dcdArgs
  bootCore : last ConfigState.bootCore other = last ConfigState.bootCore directives
  boot : last bootFrom other = last bootFrom directives
  hseFw : last ConfigState.hseFw other = last ConfigState.hseFw directives
  qspiParams : last qspiParamsFile other = last qspiParamsFile directives
  dataFile : last ConfigState.dataFile other = last ConfigState.dataFile directives

theorem Reordered.settings_eq (h : Reordered directives other) :
    settings other = settings directives := by
  ext1
  · exact h.bootCore
  · exact h.boot
  · simp [settings, h.perm.mem_iff]
  · exact h.hseFw
  · exact h.dcd
  · exact h.qspiParams
  · exact h.dataFile
  · simp [settings, h.perm.mem_iff]

/-- The boot device and the place of the IVT agree with each other and with the last boot source,
and everything else is what the last line of its kind says. -/
structure Coherent (directives : List Directive) (state : State) : Prop where
  flash : state.iconfig.flashBoot = true ↔ (state.imageLayout .ivt).offset = QSPI_IVT_OFFSET
  sd : state.iconfig.flashBoot = false ↔ (state.imageLayout .ivt).offset = SD_IVT_OFFSET
  boot : ∀ boot, last bootFrom directives = some boot →
    state.iconfig.flashBoot = decide (boot = .qspi) ∧ (state.imageLayout .ivt).offset =
      if boot = .qspi then QSPI_IVT_OFFSET else SD_IVT_OFFSET
  bootCore : state.iconfig.a53Boot = (last bootCore directives).getD true
  dataFileSize : state.iconfig.dataFileSize = ((last dataFile directives).getD 0).toNat
  err051257 : state.iconfig.err051257 = decide (Directive.err051257Workaround ∈ directives)
  dcd : Holds state.iconfig.dcd (if directives.filterMap dcdArgs = [] then []
    else DCD_HEADER :: (directives.filterMap dcdArgs).flatMap commandWords)

/-- The state is coherent, and reordering the lines gives the same state and layout. -/
def ConfOk (allocates : ℕ → Bool) (files : String → Except ℤ (List UInt8))
    (directives : List Directive) (state : State) : Prop :=
  Coherent directives state ∧
    ∀ other otherState, Reordered directives other →
      buildConf allocates files other = .ok otherState →
      otherState = state ∧ ∀ sorter, buildLayout sorter otherState.iconfig otherState.imageLayout =
        buildLayout sorter state.iconfig state.imageLayout

theorem Built.holds (h : Built allocates files state asked) :
    Holds state.iconfig.dcd (if asked.dcd = [] then []
      else DCD_HEADER :: asked.dcd.flatMap commandWords) := by
  have hdcd := h.dcd
  split_ifs with hempty
  · rw [hempty] at hdcd
    rw [← Except.ok.inj hdcd]
    exact holds_empty
  · have hyields : Yields allocates _ (DCD_HEADER :: asked.dcd.flatMap commandWords) :=
      addAll_yields hempty h.commands
    rcases hyields with ⟨dcd, hok, hholds⟩ | ⟨hfails, -⟩
    · rw [hdcd] at hok
      rw [Except.ok.inj hok]
      exact hholds
    · rw [hdcd] at hfails
      exact absurd hfails (by simp)

/-- Reordering never matters. -/
theorem reordered_state (h : buildConf allocates files directives = .ok state)
    (hreordered : Reordered directives other)
    (hother : buildConf allocates files other = .ok otherState) : otherState = state := by
  have hbuilt := built_of_buildConf hother
  rw [hreordered.settings_eq] at hbuilt
  exact (built_of_buildConf h).unique hbuilt

theorem offset_bootLayout (boot : BootType) :
    (bootLayout (some boot) .ivt).offset =
      if boot = .qspi then QSPI_IVT_OFFSET else SD_IVT_OFFSET :=
  rfl

theorem mem_of_last_bootFrom {boot : BootType} (h : last bootFrom directives = some boot) :
    Directive.bootFrom boot ∈ directives := by
  obtain ⟨directive, hmem, hboot⟩ := List.mem_filterMap.1 (List.mem_of_getLast? h)
  cases directive with
  | bootFrom other =>
    obtain rfl := Option.some.inj hboot
    exact hmem
  | _ => exact absurd hboot (by simp [bootFrom])

theorem last_bootFrom_of_mem {boot : BootType} (h : Directive.bootFrom boot ∈ directives) :
    last bootFrom directives ≠ none := by
  have hmem : boot ∈ directives.filterMap bootFrom := List.mem_filterMap.2 ⟨_, h, rfl⟩
  rw [last, ne_eq, List.getLast?_eq_none_iff]
  exact List.ne_nil_of_mem hmem

/-- With a boot source and no earlier `qspi` line the two halves of the state agree. -/
theorem coherent_of_boot (h : buildConf allocates files directives = .ok state) {boot : BootType}
    (hlast : last bootFrom directives = some boot)
    (hflash : state.iconfig.flashBoot = decide (boot = .qspi)) : Coherent directives state := by
  have hbuilt := built_of_buildConf h
  have hoffset : (state.imageLayout .ivt).offset =
      if boot = .qspi then QSPI_IVT_OFFSET else SD_IVT_OFFSET := by
    have hlayout : state.imageLayout = bootLayout (last bootFrom directives) := hbuilt.layout
    rw [hlayout, hlast, offset_bootLayout]
  exact {
    flash := by
      rw [hflash, hoffset]
      by_cases hboot : boot = .qspi <;> simp [hboot, QSPI_IVT_OFFSET, SD_IVT_OFFSET]
    sd := by
      rw [hflash, hoffset]
      by_cases hboot : boot = .qspi <;> simp [hboot, QSPI_IVT_OFFSET, SD_IVT_OFFSET]
    boot := by
      intro other hother
      obtain rfl := Option.some.inj (hlast.symm.trans hother)
      exact ⟨hflash, hoffset⟩
    bootCore := hbuilt.bootCore
    dataFileSize := hbuilt.dataFileSize
    err051257 := hbuilt.err051257
    dcd := hbuilt.holds }

/-- The state is coherent exactly when there is a boot source and a `qspi` line, if there is one,
is the last of them. -/
theorem confOk_iff (allocates : ℕ → Bool) (files : String → Except ℤ (List UInt8))
    (directives : List Directive) (state : State)
    (h : buildConf allocates files directives = .ok state) :
    ConfOk allocates files directives state ↔
      ∃ boot, last bootFrom directives = some boot ∧
        (boot = .qspi ∨ Directive.bootFrom .qspi ∉ directives) := by
  have hbuilt := built_of_buildConf h
  have hseen : state.iconfig.flashBoot = decide (Directive.bootFrom .qspi ∈ directives) :=
    hbuilt.flashBoot
  constructor
  · rintro ⟨hcoherent, -⟩
    cases hlast : last bootFrom directives with
    | none =>
      have hlayout : state.imageLayout = bootLayout (last bootFrom directives) := hbuilt.layout
      have hflash : state.iconfig.flashBoot = true := by
        rw [hcoherent.flash, hlayout, hlast]
        rfl
      rw [hseen, decide_eq_true_iff] at hflash
      exact absurd hlast (last_bootFrom_of_mem hflash)
    | some boot =>
      refine ⟨boot, rfl, or_iff_not_imp_left.2 fun hboot hmem ↦ ?_⟩
      have hflash := (hcoherent.boot boot hlast).1
      rw [hseen] at hflash
      simp [hboot, hmem] at hflash
  · rintro ⟨boot, hlast, hboot⟩
    have hflash : state.iconfig.flashBoot = decide (boot = .qspi) := by
      rw [hseen]
      rcases hboot with rfl | hboot
      · simp [mem_of_last_bootFrom hlast]
      · have hne : boot ≠ .qspi := by
          rintro rfl
          exact hboot (mem_of_last_bootFrom hlast)
        simp [hboot, hne]
    refine ⟨coherent_of_boot h hlast hflash, fun other otherState hreordered hother ↦ ?_⟩
    have hsame := reordered_state h hreordered hother
    exact ⟨hsame, fun sorter ↦ by rw [hsame]⟩

/-- A file system with one file. -/
def exampleFiles (path : String) : Except ℤ (List UInt8) :=
  if path = "fw.bin" then .ok [0x5a] else .error 2

/-- A configuration for the memory card that names its boot source twice. -/
def sdTwice : List Directive :=
  [.bootFrom .emmc, .hseFw "fw.bin", .dataFile 4096#32, .bootFrom .sd]

theorem confOk_iff_sdTwice :
    ∃ state, buildConf (fun _ ↦ true) exampleFiles sdTwice = .ok state ∧
      (ConfOk (fun _ ↦ true) exampleFiles sdTwice state ↔
        ∃ boot, last bootFrom sdTwice = some boot ∧
          (boot = .qspi ∨ Directive.bootFrom .qspi ∉ sdTwice)) :=
  ⟨_, rfl, confOk_iff (fun _ ↦ true) exampleFiles sdTwice _ rfl⟩

/-- A `qspi` line before the last one leaves a flash image with the IVT of a card image, and
without a boot source a card image has the IVT of a flash image. -/
theorem not_confOk_of_earlier_qspi :
    (∃ state, buildConf (fun _ ↦ true) exampleFiles [.bootFrom .qspi, .bootFrom .sd] = .ok state ∧
      ¬ ConfOk (fun _ ↦ true) exampleFiles [.bootFrom .qspi, .bootFrom .sd] state) ∧
    ∃ state, buildConf (fun _ ↦ true) exampleFiles [] = .ok state ∧
      ¬ ConfOk (fun _ ↦ true) exampleFiles [] state := by
  refine ⟨⟨_, rfl, ?_⟩, ⟨_, rfl, ?_⟩⟩
  · rintro ⟨hcoherent, -⟩
    exact absurd (hcoherent.flash.1 rfl) (by decide)
  · rintro ⟨hcoherent, -⟩
    exact absurd (hcoherent.flash.2 rfl) (by decide)

end Vodka.Mkimage.ConfigState
