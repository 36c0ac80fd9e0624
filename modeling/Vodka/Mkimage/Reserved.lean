import Mathlib.Tactic
import Vodka.Mkimage.Mapping

/-!
# Reserved ranges of the SRAM

An image that is loaded by the boot ROM must not cover the ranges that the ROM
uses itself. The length is rounded up in 32 bits and passed to the test as a
signed number, and the test takes the ranges without their last byte. Each of
the three shows at its limit only. Without a boot source the components overlap,
and the HSE firmware may be copied over the length.
-/

namespace Vodka.Mkimage.Reserved

open Foundation.Alignment Foundation.ByteMemory Foundation.Endian Foundation.Qsort
open DynOffsets Config Layout Accepted Header Image Mapping

/-- No byte of the image is in a reserved range, the last byte of the range included. -/
def Clear (addr length : ℕ) : Prop :=
  ∀ range ∈ reservedSram, ∀ byte, addr ≤ byte → byte < addr + length →
    ¬(range.1 ≤ byte ∧ byte ≤ range.2)

/-- What the stored code length and the load address have to satisfy. -/
structure LoadOk (iconfig : ImageConfig) (payload : List UInt8) (addr : BitVec 32)
    (length : ℕ) : Prop where
  multiple : 512 ∣ length
  enough : codeSize iconfig payload ≤ length
  clear : Clear addr.toNat length

/-- The program ends before the image is complete. -/
def Exits (iconfig : ImageConfig) (payload : List UInt8) (toolParams : ToolParams) : Prop :=
  toolParams.ep < toolParams.addr ∨
    inReservedRanges toolParams.addr (alignUp 32 (codeLength iconfig payload.length) 512) = true

/-- The size can be rounded up in 32 bits, the address is not the last byte of a range, and a size
that is negative when it is rounded comes with an address behind the ranges. -/
structure Limits (size addr : ℕ) : Prop where
  rounds : size + 511 < 2 ^ 32
  notLast : ∀ range ∈ reservedSram, addr ≠ range.2
  behind : 2 ^ 31 ≤ size + 511 → ∀ range ∈ reservedSram, range.2 < addr

/-- The copy of the HSE firmware reaches the field of the code length. -/
def Covered (iconfig : ImageConfig) (layout : ProgramImage) : Prop :=
  iconfig.hseEnable = true ∧ (layout .hseFw).offset < (layout .appCode).offset + 16 ∧
    (layout .appCode).offset + 12 < (layout .hseFw).offset + iconfig.hseFw.length

/-- The field of the code length with the rounded length in it and the HSE firmware over it. -/
def coveredLength (iconfig : ImageConfig) (layout : ProgramImage) (stSize : ℕ) : ℕ :=
  readField (writeAll (fun _ ↦ 0) (writes
    (storeField layout .appCode 12 4 (alignUp 32 (codeLength iconfig stSize) 512) ::
      hseFwStores iconfig layout))) ((layout .appCode).offset + 12) 4

/-- What a length out of the HSE firmware has to satisfy, which no check has seen. -/
structure CoveredLimits (size addr length : ℕ) : Prop where
  multiple : 512 ∣ length
  enough : size ≤ length
  apart : ∀ range ∈ reservedSram, range.2 < addr ∨ addr + length ≤ range.1

/-- A nonempty image is clear of the ranges if it starts behind them or ends in front. -/
theorem clear_iff {addr length : ℕ} (hlength : 0 < length) :
    Clear addr length ↔ ∀ range ∈ reservedSram, range.2 < addr ∨ addr + length ≤ range.1 := by
  have hranges : ∀ range ∈ reservedSram, range.1 ≤ range.2 := by decide
  constructor
  · intro hclear range hrange
    by_contra hmeets
    have hordered := hranges range hrange
    exact hclear range hrange (max addr range.1) (le_max_left _ _) (by omega) (by omega)
  · intro hapart range hrange byte hfirst hlast hinside
    have := hapart range hrange
    omega

/-- The test for a length that is not negative as a signed number. -/
theorem not_inReservedRanges_iff {addr : BitVec 32} {length : ℕ} (hlength : length < 2 ^ 31) :
    inReservedRanges addr length = false ↔
      ∀ range ∈ reservedSram, range.2 ≤ addr.toNat ∨ addr.toNat + length ≤ range.1 := by
  have haddr := addr.isLt
  have hend : ((addr.toNat + (BitVec.ofNat 32 length).toInt) % 2 ^ 64).toNat =
      addr.toNat + length := by
    rw [toInt_imageSize (by omega), if_pos hlength]
    omega
  unfold inReservedRanges
  rw [hend, List.any_eq_false]
  apply forall₂_congr
  intro range _
  simp only [Bool.and_eq_true, decide_eq_true_eq, not_and]
  omega

/-- For an image that passes the test, what the test leaves open is its last byte and its sign. -/
theorem clear_iff_of_not_inReservedRanges {addr : BitVec 32} {length : ℕ} (hpos : 0 < length)
    (hlength : length < 2 ^ 32) (h : inReservedRanges addr length = false) :
    Clear addr.toNat length ↔ (∀ range ∈ reservedSram, addr.toNat ≠ range.2) ∧
      (2 ^ 31 ≤ length → ∀ range ∈ reservedSram, range.2 < addr.toNat) := by
  have hranges : ∀ range ∈ reservedSram, range.1 ≤ range.2 ∧ range.2 < 2 ^ 31 := by decide
  rw [clear_iff hpos]
  rcases Nat.lt_or_ge length (2 ^ 31) with hsmall | hlarge
  · have hpassed := (not_inReservedRanges_iff hsmall).1 h
    constructor
    · intro hclear
      refine ⟨fun range hrange ↦ ?_, fun hnot ↦ absurd hnot (Nat.not_le.2 hsmall)⟩
      have := hclear range hrange
      have := hranges range hrange
      omega
    · rintro ⟨hnotLast, -⟩ range hrange
      have := hnotLast range hrange
      have := hpassed range hrange
      omega
  · constructor
    · intro hclear
      have hbehind : ∀ range ∈ reservedSram, range.2 < addr.toNat := by
        intro range hrange
        have := hclear range hrange
        have := hranges range hrange
        omega
      exact ⟨fun range hrange ↦ (hbehind range hrange).ne', fun _ ↦ hbehind⟩
    · rintro ⟨-, hbehind⟩ range hrange
      exact Or.inl (hbehind hlarge range hrange)

/-! ## The stored length -/

variable {iconfig : ImageConfig} {payload : List UInt8} {addr : BitVec 32}

/-- The length that is stored satisfies what it has to if and only if the limits are kept. -/
theorem loadOk_iff_limits (hsize : 0 < codeSize iconfig payload)
    (h : inReservedRanges addr (alignUp 32 (codeLength iconfig payload.length) 512) = false) :
    LoadOk iconfig payload addr (alignUp 32 (codeLength iconfig payload.length) 512 % 256 ^ 4) ↔
      Limits (codeSize iconfig payload) addr.toNat := by
  have hrounded := codeLength_eq_iff iconfig payload
  have hword : alignUp 32 (codeLength iconfig payload.length) 512 < 2 ^ 32 :=
    Nat.and_le_left.trans_lt (Nat.mod_lt _ (by decide))
  have hmod : alignUp 32 (codeLength iconfig payload.length) 512 % 256 ^ 4 =
      alignUp 32 (codeLength iconfig payload.length) 512 := Nat.mod_eq_of_lt hword
  rw [hmod] at hrounded ⊢
  constructor
  · rintro ⟨hmultiple, henough, hclear⟩
    have hrounds : codeSize iconfig payload + 511 < 2 ^ 32 := by omega
    have hlength := hrounded.2 hrounds
    rw [hlength] at hclear h
    have hclear := (clear_iff_of_not_inReservedRanges (by omega) (by omega) h).1 hclear
    exact ⟨hrounds, hclear.1, fun hlarge ↦ hclear.2 (by omega)⟩
  · rintro ⟨hrounds, hnotLast, hbehind⟩
    have hlength := hrounded.2 hrounds
    rw [hlength] at h ⊢
    refine ⟨Nat.dvd_mul_left _ _, by omega, ?_⟩
    apply (clear_iff_of_not_inReservedRanges (by omega) (by omega) h).2
    exact ⟨hnotLast, fun hlarge ↦ hbehind (by omega)⟩

theorem loadOk_iff_coveredLimits {length : ℕ} (hsize : 0 < codeSize iconfig payload) :
    LoadOk iconfig payload addr length ↔
      CoveredLimits (codeSize iconfig payload) addr.toNat length := by
  constructor
  · rintro ⟨hmultiple, henough, hclear⟩
    exact ⟨hmultiple, henough, (clear_iff (by omega)).mp hclear⟩
  · rintro ⟨hmultiple, henough, hapart⟩
    exact ⟨hmultiple, henough, (clear_iff (by omega)).mpr hapart⟩

section Any

variable {allocates : ℕ → Bool} {files : String → Except ℤ (List UInt8)}
  {directives : List Directive} {sorter : Sorter} {state : State}
  {layout : ProgramImage} {headerSize stSize : ℕ} {toolParams : ToolParams}

/-- Of the stores of a run that comes to the end, the rounded length and the HSE firmware are all
that the field of the code length shows. -/
theorem readField_codeLength (memory : Memory) (hflashBoot : iconfig.flashBoot = false)
    {after : ProgramImage} (hafter : (setHeader iconfig layout stSize toolParams).2 = .ok after) :
    readField (writeAll memory (writes (setHeader iconfig layout stSize toolParams).1))
        ((layout .appCode).offset + 12) 4 = coveredLength iconfig layout stSize := by
  have hsplit : writes (setHeader iconfig layout stSize toolParams).1 =
      writes (dcdStores iconfig layout ++ ivtStores iconfig layout) ++
        (writes (appTagStores layout ++ appCodeStores iconfig layout stSize toolParams) ++
          writes (hseFwStores iconfig layout)) := by
    rw [(setHeader_of_ok hafter).1]
    simp [writes, partStores, qspiParamsStores, hflashBoot]
  rw [hsplit, writeAll_append, writeAll_append]
  generalize writeAll memory _ = filled
  unfold coveredLength readField
  congr 1
  apply read_congr
  intro address hstart hend
  apply writeAll_congr
  have hlength : (littleEndian 4 (alignUp 32 (codeLength iconfig stSize) 512)).length = 4 :=
    length_littleEndian 4 _
  obtain ⟨i, hi, rfl⟩ : ∃ i < 4, address = (layout .appCode).offset + 12 + i :=
    ⟨address - ((layout .appCode).offset + 12), by omega, by omega⟩
  have hfield (memory : Memory) :=
    @write_of_inside memory ((layout .appCode).offset + 12) _ i (hlength.symm ▸ hi)
  simp only [writes, writeAll, appTagStores, appCodeStores, storeField, List.cons_append,
    List.nil_append, List.map_cons, List.map_nil, List.foldl_cons, List.foldl_nil]
  -- The address and the entry point are stored behind the length, into fields in front of it.
  rw [write_of_outside, write_of_outside, hfield, hfield]
  · rw [length_littleEndian]
    omega
  · rw [length_littleEndian]
    omega

/-- Where the firmware does not reach, the rounded length is what is stored. -/
theorem coveredLength_of_not_covered (hnot : ¬Covered iconfig layout) :
    coveredLength iconfig layout stSize =
      alignUp 32 (codeLength iconfig stSize) 512 % 256 ^ 4 := by
  have hstored := readField_write (fun _ ↦ 0) ((layout .appCode).offset + 12) 4
    (alignUp 32 (codeLength iconfig stSize) 512)
  rw [← hstored]
  unfold coveredLength readField
  congr 1
  apply read_congr
  intro address hstart hend
  change writeAll (write _ _ _) (writes (hseFwStores iconfig layout)) address = _
  apply writeAll_of_outside
  intro entry hentry
  obtain ⟨store, hstore, rfl⟩ := List.mem_map.mp hentry
  unfold hseFwStores at hstore
  split_ifs at hstore with henable
  · rw [List.mem_singleton.mp hstore]
    dsimp only
    by_contra hreached
    exact hnot ⟨henable, by omega, by omega⟩
  · exact absurd hstore List.not_mem_nil

/-- A configuration with a boot source places the firmware in front of the application header. -/
theorem not_covered (h : LaidOut allocates files directives sorter state layout headerSize)
    (hboot : directives.filterMap bootFrom ≠ []) : ¬Covered state.iconfig layout := by
  rintro ⟨henable, -, hreaches⟩
  have hapart : ivtOffset (directives.filterMap bootFrom).getLast? = QSPI_IVT_OFFSET →
      state.iconfig.flashBoot = true := by
    rw [List.getLast?_eq_some_getLast hboot, h.stateOk.boot.1]
    intro hfirst
    unfold ivtOffset at hfirst
    dsimp only at hfirst
    split_ifs at hfirst with hqspi
    · exact decide_eq_true (hqspi ▸ List.getLast_mem hboot)
    · exact absurd hfirst (by decide)
  have hlast := (h.layoutOk hapart).last .hseFw ((mem_layoutParts _ .hseFw).mpr henable)
  have hsize : (layout .hseFw).size = state.iconfig.hseFw.length := h.size_eq .hseFw
  omega

/-- **Reserved ranges.** What is stored keeps clear of the reserved ranges exactly when the program
ends early or the size and the load address keep the limits, or those for a length that the HSE
firmware has been copied over. -/
theorem loadOk_iff (h : LaidOut allocates files directives sorter state layout headerSize)
    (hflashBoot : state.iconfig.flashBoot = false) (toolParams : ToolParams)
    (hpayload : payload ≠ []) (copied : List UInt8) :
    (∀ after, (setHeader state.iconfig layout payload.length toolParams).2 = .ok after →
      LoadOk state.iconfig payload toolParams.addr (readField (writeAll
        (imageFile headerSize copied)
        (writes (setHeader state.iconfig layout payload.length toolParams).1))
        ((layout .appCode).offset + 12) 4)) ↔
      Exits state.iconfig payload toolParams ∨
        ¬Covered state.iconfig layout ∧
          Limits (codeSize state.iconfig payload) toolParams.addr.toNat ∨
        Covered state.iconfig layout ∧
          CoveredLimits (codeSize state.iconfig payload) toolParams.addr.toNat
            (coveredLength state.iconfig layout payload.length) := by
  have hsize : 0 < codeSize state.iconfig payload := by
    have hlength := List.length_pos_of_ne_nil hpayload
    unfold codeSize
    split_ifs <;> omega
  have hok := setHeader_ok_iff layout payload.length toolParams h.partsInput.dcd_le
  have hcompletes : Completes state.iconfig payload.length toolParams ↔
      ¬Exits state.iconfig payload toolParams := by
    unfold Completes Exits
    rw [not_or, BitVec.not_lt, Bool.not_eq_true, hflashBoot]
    simp
  by_cases hexits : Exits state.iconfig payload toolParams
  · constructor
    · exact fun _ ↦ Or.inl hexits
    · exact fun _ after hafter ↦ absurd hexits (hcompletes.mp (hok.mp ⟨after, hafter⟩))
  · obtain ⟨after, hafter⟩ := hok.mpr (hcompletes.mpr hexits)
    have hstored := readField_codeLength (imageFile headerSize copied) hflashBoot hafter
    have hreserved : inReservedRanges toolParams.addr
        (alignUp 32 (codeLength state.iconfig payload.length) 512) = false :=
      Bool.eq_false_iff.mpr fun htrue ↦ hexits (Or.inr htrue)
    have hload : LoadOk state.iconfig payload toolParams.addr
        (coveredLength state.iconfig layout payload.length) ↔
        ¬Covered state.iconfig layout ∧
            Limits (codeSize state.iconfig payload) toolParams.addr.toNat ∨
          Covered state.iconfig layout ∧
            CoveredLimits (codeSize state.iconfig payload) toolParams.addr.toNat
              (coveredLength state.iconfig layout payload.length) := by
      by_cases hcovered : Covered state.iconfig layout
      · simp [hcovered, loadOk_iff_coveredLimits hsize]
      · rw [coveredLength_of_not_covered hcovered, loadOk_iff_limits hsize hreserved]
        simp [hcovered]
    rw [hstored, hload]
    constructor
    · exact fun hlimits ↦ Or.inr (hlimits after hafter)
    · exact fun hcondition _ _ ↦ hcondition.resolve_left hexits

end Any

/-- Two lines for a boot source, with a component of each kind between them. -/
def severalDirectives : List Directive := equippedDirectives .emmc ++ [.bootFrom .sd]

/-- One byte more than a page, so that the mapping reaches the header of an image for SD. -/
def pagePayload : List UInt8 := List.replicate 4097 0

theorem length_pagePayload : pagePayload.length = 4097 := List.length_replicate

theorem pagePayload_ne_nil : pagePayload ≠ [] :=
  List.ne_nil_of_length_pos (by rw [length_pagePayload]; decide)

theorem loadOk_iff_several : ∃ state layout headerSize,
    LaidOut (fun _ ↦ true) equippedFiles severalDirectives mergeSorter state layout headerSize ∧
      ((∀ after, (setHeader state.iconfig layout pagePayload.length freeParams).2 = .ok after →
          LoadOk state.iconfig pagePayload freeParams.addr (readField (writeAll
            (imageFile headerSize pagePayload)
            (writes (setHeader state.iconfig layout pagePayload.length freeParams).1))
            ((layout .appCode).offset + 12) 4)) ↔
        Exits state.iconfig pagePayload freeParams ∨
          ¬Covered state.iconfig layout ∧
            Limits (codeSize state.iconfig pagePayload) freeParams.addr.toNat ∨
          Covered state.iconfig layout ∧
            CoveredLimits (codeSize state.iconfig pagePayload) freeParams.addr.toNat
              (coveredLength state.iconfig layout pagePayload.length)) := by
  have hconf : buildConf (fun _ ↦ true) equippedFiles severalDirectives =
      .ok (parseBootCmd .sd (equippedState .emmc)) := rfl
  obtain ⟨layout, headerSize, h⟩ := exists_laidOut hconf (by decide) (by decide) (by decide)
    mergeSorter
  exact ⟨_, layout, headerSize, h, loadOk_iff h rfl freeParams pagePayload_ne_nil pagePayload⟩

/-- The last byte of the first range, as load address and entry point. -/
def lastByteParams : ToolParams := ⟨0x34002fff, 0x34002fff⟩

/-- An image at the last byte of a range is written, with its header inside the mapping. -/
theorem last_not_loadOk : ∃ layout headerSize,
    LaidOut (fun _ ↦ true) (fun _ ↦ .error 2) [.bootFrom .sd] insertionSorter sdState layout
        headerSize ∧
      copyFile pagePayload 0 = .ok pagePayload ∧
      InMapping sdState.iconfig layout headerSize lastByteParams pagePayload pagePayload ∧
      ∃ after, (setHeader sdState.iconfig layout pagePayload.length lastByteParams).2 = .ok after ∧
        ¬LoadOk sdState.iconfig pagePayload lastByteParams.addr (readField (writeAll
          (imageFile headerSize pagePayload)
          (writes (setHeader sdState.iconfig layout pagePayload.length lastByteParams).1))
          ((layout .appCode).offset + 12) 4) := by
  have hcopy : copyFile pagePayload 0 = .ok pagePayload :=
    copyFile_of_le pagePayload_ne_nil (by rw [length_pagePayload]; decide)
  obtain ⟨layout, headerSize, haccepted, happ⟩ : ∃ layout headerSize,
      AcceptedConf (fun _ ↦ true) (fun _ ↦ .error 2) [.bootFrom .sd] .sd insertionSorter sdState
        layout headerSize ∧ (layout .appCode).offset = 0x1200 :=
    ⟨_, _, ⟨rfl, rfl, rfl⟩, rfl⟩
  refine ⟨layout, headerSize, haccepted.laidOut, hcopy, ?mapping, ?load⟩
  case mapping =>
    rw [inMapping_iff haccepted.laidOut lastByteParams hcopy, length_pagePayload,
      headerMapped_iff haccepted, happ]
    exact ⟨by decide, fun hboot ↦ absurd hboot (by decide)⟩
  case load =>
    have hcompletes : Completes sdState.iconfig pagePayload.length lastByteParams := by
      rw [length_pagePayload]
      decide
    obtain ⟨after, hafter⟩ := (setHeader_ok_iff layout pagePayload.length lastByteParams
      haccepted.partsInput.dcd_le).mpr hcompletes
    refine ⟨after, hafter, fun hload ↦ ?_⟩
    have hsize : codeSize sdState.iconfig pagePayload = 4097 := by
      rw [codeSize, if_neg (by decide), length_pagePayload]
    have henough := hload.enough
    have haddr : lastByteParams.addr.toNat = 0x34002fff := rfl
    exact hload.clear (0x34002000, 0x34002fff) (by decide) 0x34002fff haddr.le (by omega)
      (by decide)

end Vodka.Mkimage.Reserved
