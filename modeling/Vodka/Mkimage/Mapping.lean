import Mathlib.Tactic
import Vodka.Mkimage.PrintReads

/-!
# The mapping of the image

The tool maps as many bytes of the image as the payload has, in whole pages, and
fills in and prints the header through the mapping. The header is in front of
the payload, so nothing keeps it inside. What is stored ends where its component
does, or with the QSPI parameters, which are copied whole. What is printed is
behind the two pointers of the IVT, over which the QSPI parameters are copied
when lines of the configuration disagree about the boot source.
-/

namespace Vodka.Mkimage.Mapping

open Foundation.ByteMemory Foundation.Endian Foundation.Qsort
open DynOffsets Config DcdArray Layout Accepted Header Image PrintReads

/-- The bytes that `mmap` gives access to, for `map_len`. -/
def mapped (mapLen : ℕ) : ℕ := (mapLen + 4095) / 4096 * 4096

/-- Every byte of the stores is in front of the limit. -/
def EndsIn (limit : ℕ) (stores : List Store) : Prop :=
  ∀ store ∈ stores, ∀ i < store.bytes.length, store.offset + i < limit

/-- Every byte that is stored, and every byte that is read when the header has been filled in, is
in the mapping. -/
structure InMapping (iconfig : ImageConfig) (layout : ProgramImage) (headerSize : ℕ)
    (toolParams : ToolParams) (payload copied : List UInt8) : Prop where
  stores : EndsIn (mapped payload.length) (setHeader iconfig layout payload.length toolParams).1
  reads : ∀ after, (setHeader iconfig layout payload.length toolParams).2 = .ok after →
    ∀ access ∈ printReads (writeAll (imageFile headerSize copied)
      (writes (setHeader iconfig layout payload.length toolParams).1)),
      access.offset + access.width ≤ mapped payload.length

/-- The components are in the mapping as far as they are stored: the IVT and the application header
up to their last field, the others as long as what is copied. The entry point is checked before
most fields of the application header are stored, and both checks before the last copies. -/
structure StoresMapped (iconfig : ImageConfig) (layout : ProgramImage) (toolParams : ToolParams)
    (mapLen : ℕ) : Prop where
  dcd : iconfig.dcd.data.isSome → (layout .dcd).offset + iconfig.dcd.size ≤ mapped mapLen
  ivt : (layout .ivt).offset + (if iconfig.hseEnable then 56 else 44) ≤ mapped mapLen
  appCode : (layout .appCode).offset + (if toolParams.ep < toolParams.addr then 4 else 16) ≤
    mapped mapLen
  qspiParams : Completes iconfig mapLen toolParams → iconfig.flashBoot = true →
    (layout .qspiParams).offset + iconfig.qspiParams.length ≤ mapped mapLen
  hseFw : Completes iconfig mapLen toolParams → iconfig.hseEnable = true →
    (layout .hseFw).offset + iconfig.hseFw.length ≤ mapped mapLen

/-- The IVT of the layout, with the QSPI parameters of a flash image over it as far as they
reach. -/
def ivtMemory (iconfig : ImageConfig) (layout : ProgramImage) : Memory :=
  writeAll (fun _ ↦ 0) (writes (ivtStores iconfig layout ++ qspiParamsStores iconfig layout))

/-- The QSPI parameters reach the IVT, which is at the second place of an image for flash. -/
def Overlaid (iconfig : ImageConfig) (layout : ProgramImage) : Prop :=
  iconfig.flashBoot = true ∧ (layout .ivt).offset = SD_IVT_OFFSET ∧
    SD_IVT_OFFSET < QSPI_PARAMS_OFFSET + iconfig.qspiParams.length

/-- The stores are in the mapping. If the QSPI parameters reach the IVT and leave one to print, so
is what its pointers lead to. -/
structure HeaderMapped (iconfig : ImageConfig) (layout : ProgramImage) (toolParams : ToolParams)
    (mapLen : ℕ) : Prop extends StoresMapped iconfig layout toolParams mapLen where
  pointers : Overlaid iconfig layout → Completes iconfig mapLen toolParams → ∀ ivt qspiBoot,
    getIvtFromRawBlob (ivtMemory iconfig layout) (SD_IVT_OFFSET + IVT_SIZE) =
      some (ivt, qspiBoot) → PointersInside (ivtMemory iconfig layout) ivt (mapped mapLen)

variable {iconfig : ImageConfig} {layout : ProgramImage} {toolParams : ToolParams}
  {stSize limit mapLen : ℕ}

/-! ## Stores -/

@[simp]
theorem endsIn_nil : EndsIn limit [] := by
  simp [EndsIn]

@[simp]
theorem endsIn_cons {store : Store} {stores : List Store} :
    EndsIn limit (store :: stores) ↔
      (store.bytes.length = 0 ∨ store.offset + store.bytes.length ≤ limit) ∧
        EndsIn limit stores := by
  unfold EndsIn
  rw [List.forall_mem_cons]
  apply and_congr_left'
  constructor
  · intro hbytes
    by_contra hnot
    have hlast := hbytes (store.bytes.length - 1) (by omega)
    omega
  · intro hend i hi
    omega

@[simp]
theorem endsIn_append {stores others : List Store} :
    EndsIn limit (stores ++ others) ↔ EndsIn limit stores ∧ EndsIn limit others :=
  List.forall_mem_append

theorem endsIn_dcdStores {words : List ℕ} (h : Holds iconfig.dcd words) :
    EndsIn limit (dcdStores iconfig layout) ↔
      (iconfig.dcd.data.isSome → (layout .dcd).offset + iconfig.dcd.size ≤ limit) := by
  unfold dcdStores
  split_ifs with hdata
  · have hfour := four_le_size h hdata
    simp [hdata, storeField, length_dcdBytes h, DCD_HEADER_LENGTH_OFFSET]
    omega
  · simp [hdata]

theorem endsIn_ivtStores :
    EndsIn limit (ivtStores iconfig layout) ↔
      (layout .ivt).offset + (if iconfig.hseEnable then 56 else 44) ≤ limit := by
  unfold ivtStores
  cases iconfig.dcd.data.isSome <;> cases iconfig.hseEnable <;>
  · simp [storeField]
    omega

theorem endsIn_appStores :
    EndsIn limit (appTagStores layout ++ if toolParams.ep < toolParams.addr then []
      else appCodeStores iconfig layout stSize toolParams) ↔
      (layout .appCode).offset + (if toolParams.ep < toolParams.addr then 4 else 16) ≤ limit := by
  unfold appTagStores appCodeStores
  split_ifs <;>
  · simp [storeField]
    omega

theorem endsIn_qspiParamsStores
    (hlimit : iconfig.flashBoot = true → (layout .qspiParams).offset ≤ limit) :
    EndsIn limit (qspiParamsStores iconfig layout) ↔
      (iconfig.flashBoot = true →
        (layout .qspiParams).offset + iconfig.qspiParams.length ≤ limit) := by
  unfold qspiParamsStores
  split_ifs with hflashBoot
  · have hoffset := hlimit hflashBoot
    simp only [endsIn_cons, endsIn_nil, and_true, hflashBoot, forall_const]
    omega
  · simp [hflashBoot]

/-- The blocks of stores of a run. -/
theorem endsIn_setHeader_iff (hdcd : iconfig.dcd.size ≤ DCD_MAXIMUM_SIZE) :
    EndsIn limit (setHeader iconfig layout stSize toolParams).1 ↔
      EndsIn limit (dcdStores iconfig layout) ∧ EndsIn limit (ivtStores iconfig layout) ∧
        EndsIn limit (appTagStores layout ++ if toolParams.ep < toolParams.addr then []
          else appCodeStores iconfig layout stSize toolParams) ∧
        (Completes iconfig stSize toolParams → EndsIn limit (qspiParamsStores iconfig layout) ∧
          EndsIn limit (hseFwStores iconfig layout)) := by
  rw [setHeader_stores hdcd]
  by_cases hentry : toolParams.ep < toolParams.addr
  · have hnot : ¬ Completes iconfig stSize toolParams := fun hcompletes ↦
      absurd hcompletes.1 (BitVec.not_le.mpr hentry)
    simp [hentry, hnot]
  · by_cases hcompletes : Completes iconfig stSize toolParams
    · simp [hentry, hcompletes, and_assoc]
    · simp [hentry, hcompletes]

section Any

variable {allocates : ℕ → Bool} {files : String → Except ℤ (List UInt8)}
  {directives : List Directive} {sorter : Sorter} {state : State} {headerSize : ℕ}
  (h : LaidOut allocates files directives sorter state layout headerSize)

include h

theorem endsIn_setHeader (hpos : 0 < mapLen) :
    EndsIn (mapped mapLen) (setHeader state.iconfig layout mapLen toolParams).1 ↔
      StoresMapped state.iconfig layout toolParams mapLen := by
  obtain ⟨words, hwords⟩ := h.stateOk.dcd
  have hqspiLimit (hflashBoot : state.iconfig.flashBoot = true) :
      (layout .qspiParams).offset ≤ mapped mapLen := by
    rw [h.qspiParams_offset hflashBoot]
    unfold mapped QSPI_PARAMS_OFFSET
    omega
  have hhseFw : EndsIn (mapped mapLen) (hseFwStores state.iconfig layout) ↔
      (state.iconfig.hseEnable = true →
        (layout .hseFw).offset + state.iconfig.hseFw.length ≤ mapped mapLen) := by
    have hlength := h.stateOk.hseFw
    unfold hseFwStores
    split_ifs at hlength ⊢ with henable
    · simp only [endsIn_cons, endsIn_nil, and_true, henable, forall_const]
      omega
    · simp [henable]
  rw [endsIn_setHeader_iff h.partsInput.dcd_le, endsIn_dcdStores hwords, endsIn_ivtStores,
    endsIn_appStores, endsIn_qspiParamsStores hqspiLimit, hhseFw]
  constructor
  · rintro ⟨hdcd, hivt, happ, hcopies⟩
    exact ⟨hdcd, hivt, happ, fun hcompletes ↦ (hcopies hcompletes).1,
      fun hcompletes ↦ (hcopies hcompletes).2⟩
  · intro hmapped
    exact ⟨hmapped.dcd, hmapped.ivt, hmapped.appCode, fun hcompletes ↦
      ⟨hmapped.qspiParams hcompletes, hmapped.hseFw hcompletes⟩⟩

/-! ## Reads -/

/-- At the start of the image and in the IVT, nothing is stored on behalf of other components than
the IVT and the QSPI parameters. -/
theorem filled_eq_ivtMemory (copied : List UInt8) {after : ProgramImage}
    (hafter : (setHeader state.iconfig layout stSize toolParams).2 = .ok after) {address : ℕ}
    (haddress : address < IVT_SIZE ∨
      (layout .ivt).offset ≤ address ∧ address < (layout .ivt).offset + IVT_SIZE) :
    writeAll (imageFile headerSize copied)
        (writes (setHeader state.iconfig layout stSize toolParams).1) address =
      ivtMemory state.iconfig layout address := by
  have hheader := h.layoutRanged.header
  have hivt := h.ivt_le_appCode
  have hzero : imageFile headerSize copied address = 0 := write_of_outside (.inl (by omega))
  have hkept := filter_setHeader_parts hafter fun part ↦ decide (part = .ivt ∨ part = .qspiParams)
  have hstores : ∀ store ∈ (setHeader state.iconfig layout stSize toolParams).1,
      decide (store.part = .ivt ∨ store.part = .qspiParams) = false →
        address < store.offset ∨ store.offset + store.bytes.length ≤ address := by
    intro store hstore hother
    rw [decide_eq_false_iff_not, not_or] at hother
    have hown := own_of_mem h hstore fun hpart ↦ absurd hpart hother.2
    have hpresent : Present state.iconfig store.part := (present_of_mem h hstore).imp_right .inl
    obtain ⟨hlow, happart⟩ : IVT_SIZE ≤ (layout store.part).offset ∧
        ((layout .ivt).offset + IVT_SIZE ≤ (layout store.part).offset ∨
          (layout store.part).offset + (layout store.part).size ≤ (layout .ivt).offset) := by
      have hauto := automatic_of_mem hstore hother.1 hother.2
      exact h.apart hpresent hauto.1 hauto.2
    rcases Nat.eq_zero_or_pos store.bytes.length with hempty | hpositive
    · omega
    · have hfirst := hown 0 hpositive
      have hlast := hown (store.bytes.length - 1) (by omega)
      omega
  calc writeAll (imageFile headerSize copied)
        (writes (setHeader state.iconfig layout stSize toolParams).1) address
      = writeAll (imageFile headerSize copied) (writes
          ((setHeader state.iconfig layout stSize toolParams).1.filter fun store ↦
            decide (store.part = .ivt ∨ store.part = .qspiParams))) address :=
        (writeAll_filter hstores).symm
    _ = writeAll (imageFile headerSize copied)
          (writes (ivtStores state.iconfig layout ++ qspiParamsStores state.iconfig layout))
          address := by
        rw [hkept]
        simp [partStores]
    _ = ivtMemory state.iconfig layout address := writeAll_congr hzero

/-- Where the QSPI parameters do not reach, only the IVT is stored. -/
theorem ivtMemory_of_outside {address : ℕ}
    (houtside : state.iconfig.flashBoot = true → address < QSPI_PARAMS_OFFSET ∨
      QSPI_PARAMS_OFFSET + state.iconfig.qspiParams.length ≤ address) :
    ivtMemory state.iconfig layout address =
      writeAll (fun _ ↦ 0) (writes (ivtStores state.iconfig layout)) address := by
  unfold ivtMemory writes
  rw [List.map_append, writeAll_append]
  apply writeAll_of_outside
  intro entry hentry
  obtain ⟨store, hstore, rfl⟩ := List.mem_map.mp hentry
  unfold qspiParamsStores at hstore
  split_ifs at hstore with hflashBoot
  · rw [List.mem_singleton.mp hstore]
    dsimp only
    rw [h.qspiParams_offset hflashBoot]
    exact houtside hflashBoot
  · exact absurd hstore List.not_mem_nil

/-- The QSPI parameters are behind an IVT at the start, whose header is stored. -/
theorem isIvtHeader_ivtMemory (hstart : (layout .ivt).offset = QSPI_IVT_OFFSET) :
    isIvtHeader (ivtMemory state.iconfig layout) QSPI_IVT_OFFSET = true := by
  have hheader := (readField_ivtStores state.iconfig layout fun _ ↦ 0).1
  rw [hstart] at hheader
  rw [← hheader]
  apply isIvtHeader_congr
  intro access haccess
  have hread := (isIvtHeaderReads_bounds access haccess).2
  apply read_congr
  intro address _ hend
  apply ivtMemory_of_outside h
  intro _
  left
  unfold QSPI_IVT_OFFSET at hread
  unfold QSPI_PARAMS_OFFSET
  omega

/-- An image without an IVT at its start has it at the second place. -/
theorem ivt_offset_of_not_first (copied : List UInt8) {after : ProgramImage}
    (hafter : (setHeader state.iconfig layout stSize toolParams).2 = .ok after)
    (hnone : isIvtHeader (writeAll (imageFile headerSize copied)
      (writes (setHeader state.iconfig layout stSize toolParams).1)) QSPI_IVT_OFFSET = false) :
    (layout .ivt).offset = SD_IVT_OFFSET := by
  refine h.ivt_cases.resolve_left fun hstart ↦ ?_
  have hfilled : isIvtHeader (writeAll (imageFile headerSize copied)
      (writes (setHeader state.iconfig layout stSize toolParams).1)) QSPI_IVT_OFFSET =
      isIvtHeader (ivtMemory state.iconfig layout) QSPI_IVT_OFFSET := by
    apply isIvtHeader_congr
    intro access haccess
    have hread := (isIvtHeaderReads_bounds access haccess).2
    apply read_congr
    intro address _ hend
    apply filled_eq_ivtMemory h copied hafter
    unfold QSPI_IVT_OFFSET at hread
    unfold IVT_SIZE
    omega
  rw [hfilled, isIvtHeader_ivtMemory h hstart] at hnone
  exact absurd hnone (by decide)

/-- The reader searches the image as it would search the IVT and the QSPI parameters alone, which
are those of the image where an IVT is found. -/
theorem getIvt_filled_eq (copied : List UInt8) {after : ProgramImage}
    (hafter : (setHeader state.iconfig layout stSize toolParams).2 = .ok after) (size : ℤ) :
    getIvtFromRawBlob (writeAll (imageFile headerSize copied)
        (writes (setHeader state.iconfig layout stSize toolParams).1)) size =
      getIvtFromRawBlob (ivtMemory state.iconfig layout) size := by
  apply getIvt_congr
  intro access haccess
  apply read_congr
  intro address hstart hend
  apply filled_eq_ivtMemory h copied hafter
  rcases getIvtReads_cases haccess with hread | ⟨hnone, hlow, hread⟩
  · unfold QSPI_IVT_OFFSET at hread
    unfold IVT_SIZE
    omega
  · right
    rw [ivt_offset_of_not_first h copied hafter hnone]
    unfold IVT_SIZE
    omega

/-- When the stores are in the mapping, what is printed is if the pointers lead into it. -/
theorem printReads_le_iff (hmapped : StoresMapped state.iconfig layout toolParams mapLen)
    (hpos : 0 < mapLen) (copied : List UInt8) {after : ProgramImage}
    (hafter : (setHeader state.iconfig layout stSize toolParams).2 = .ok after) :
    (∀ access ∈ printReads (writeAll (imageFile headerSize copied)
        (writes (setHeader state.iconfig layout stSize toolParams).1)),
        access.offset + access.width ≤ mapped mapLen) ↔
      ∀ ivt qspiBoot, getIvtFromRawBlob (ivtMemory state.iconfig layout)
        (SD_IVT_OFFSET + IVT_SIZE) = some (ivt, qspiBoot) →
          PointersInside (ivtMemory state.iconfig layout) ivt (mapped mapLen) := by
  have hpages : 4096 ≤ mapped mapLen ∧ mapped mapLen % 4096 = 0 := by
    unfold mapped
    omega
  have hivtEnd : (layout .ivt).offset + 44 ≤ mapped mapLen := by
    have hend := hmapped.ivt
    split_ifs at hend <;> omega
  have hsame := getIvt_filled_eq h copied hafter (SD_IVT_OFFSET + IVT_SIZE)
  have hsearch : ∀ access ∈ getIvtReads (writeAll (imageFile headerSize copied)
      (writes (setHeader state.iconfig layout stSize toolParams).1)) (SD_IVT_OFFSET + IVT_SIZE),
      access.offset + access.width ≤ mapped mapLen := by
    intro access haccess
    rcases getIvtReads_cases haccess with hread | ⟨hnone, -, hread⟩
    · unfold QSPI_IVT_OFFSET at hread
      omega
    · rw [ivt_offset_of_not_first h copied hafter hnone] at hivtEnd
      omega
  unfold printReads
  rw [List.forall_mem_append, ← hsame]
  cases hfound : getIvtFromRawBlob (writeAll (imageFile headerSize copied)
      (writes (setHeader state.iconfig layout stSize toolParams).1)) (SD_IVT_OFFSET + IVT_SIZE) with
  | none => exact iff_of_true ⟨hsearch, by simp⟩ nofun
  | some found =>
    obtain ⟨ivt, qspiBoot⟩ := found
    -- The IVT that is found is at the start of the image or where the layout has it.
    have hplace : ivt = 0 ∨ ivt = (layout .ivt).offset ∧ ivt = SD_IVT_OFFSET := by
      rcases getIvt_cases hfound with ⟨-, hivt⟩ | ⟨hnone, hivt⟩
      · exact .inl hivt
      · exact .inr ⟨hivt.trans (ivt_offset_of_not_first h copied hafter hnone).symm, hivt⟩
    have hroom : ivt + 56 ≤ mapped mapLen := by
      unfold SD_IVT_OFFSET at hplace
      omega
    have hfield (field : ℕ) (hfield : field + 4 ≤ IVT_SIZE) :
        readField (writeAll (imageFile headerSize copied)
          (writes (setHeader state.iconfig layout stSize toolParams).1)) (ivt + field) 4 =
          readField (ivtMemory state.iconfig layout) (ivt + field) 4 := by
      unfold readField
      congr 1
      apply read_congr
      intro address hstart hend
      apply filled_eq_ivtMemory h copied hafter
      omega
    have hpointers : PointersInside (writeAll (imageFile headerSize copied)
        (writes (setHeader state.iconfig layout stSize toolParams).1)) ivt (mapped mapLen) ↔
        PointersInside (ivtMemory state.iconfig layout) ivt (mapped mapLen) := by
      unfold PointersInside
      rw [hfield 16 (by decide), hfield 32 (by decide)]
    dsimp only
    rw [fieldReads_le_iff hroom, hpointers]
    constructor
    · rintro ⟨-, hinside⟩ other otherBoot hother
      rw [Option.some.injEq, Prod.mk.injEq] at hother
      exact hother.1 ▸ hinside
    · exact fun hinside ↦ ⟨hsearch, hinside ivt qspiBoot rfl⟩

/-- An IVT that the QSPI parameters do not reach is the only one, and its pointers lead to
components that are stored. -/
theorem pointersInside_of_not_overlaid (hnot : ¬Overlaid state.iconfig layout)
    (hmapped : StoresMapped state.iconfig layout toolParams mapLen)
    (hcompletes : Completes state.iconfig mapLen toolParams) {ivt : ℕ} {qspiBoot : Bool}
    (hfound : getIvtFromRawBlob (ivtMemory state.iconfig layout) (SD_IVT_OFFSET + IVT_SIZE) =
      some (ivt, qspiBoot)) :
    PointersInside (ivtMemory state.iconfig layout) ivt (mapped mapLen) := by
  have hsame (address : ℕ) (haddress : address < QSPI_IVT_OFFSET + IVT_SIZE ∨
      (layout .ivt).offset ≤ address ∧ address < (layout .ivt).offset + IVT_SIZE) :
      ivtMemory state.iconfig layout address =
        writeAll (fun _ ↦ 0) (writes (ivtStores state.iconfig layout)) address := by
    have hplace := h.ivt_cases
    apply ivtMemory_of_outside h
    intro hflashBoot
    have hapart : ¬((layout .ivt).offset = SD_IVT_OFFSET ∧
        SD_IVT_OFFSET < QSPI_PARAMS_OFFSET + state.iconfig.qspiParams.length) :=
      fun hreaches ↦ hnot ⟨hflashBoot, hreaches⟩
    unfold QSPI_IVT_OFFSET SD_IVT_OFFSET IVT_SIZE QSPI_PARAMS_OFFSET at *
    omega
  obtain rfl : ivt = (layout .ivt).offset := by
    rcases getIvt_cases hfound with ⟨hfirst, hivt⟩ | ⟨hnone, hivt⟩
    · rw [hivt]
      by_contra hne
      -- The start of the image is clear when the IVT is at the second place.
      have hclear : ivtMemory state.iconfig layout QSPI_IVT_OFFSET = 0 := by
        rw [hsame _ (.inl (by decide))]
        apply writeAll_of_outside
        intro entry hentry
        obtain ⟨store, hstore, rfl⟩ := List.mem_map.mp hentry
        obtain ⟨field, width, value, rfl, -⟩ := mem_ivtStores hstore
        left
        exact Nat.lt_add_right field (Nat.pos_of_ne_zero (Ne.symm hne))
      have htag : readField (ivtMemory state.iconfig layout) QSPI_IVT_OFFSET 1 = 0 := by
        simp [readField, Foundation.ByteMemory.read, hclear, ofLittleEndian]
      simp [isIvtHeader, htag, IVT_TAG] at hfirst
    · rw [hivt]
      refine (h.ivt_cases.resolve_left fun hstart ↦ ?_).symm
      rw [isIvtHeader_ivtMemory h hstart] at hnone
      exact absurd hnone (by decide)
  have hfield (field : ℕ) (hfield : field + 4 ≤ IVT_SIZE) :
      readField (ivtMemory state.iconfig layout) ((layout .ivt).offset + field) 4 =
        readField (writeAll (fun _ ↦ 0) (writes (ivtStores state.iconfig layout)))
          ((layout .ivt).offset + field) 4 := by
    unfold readField
    congr 1
    apply read_congr
    intro address hstart hend
    apply hsame
    omega
  obtain ⟨-, hdcd, -, happ, -, -⟩ := readField_ivtStores state.iconfig layout fun _ ↦ 0
  unfold PointersInside
  rw [hfield 16 (by decide), hfield 32 (by decide), hdcd, happ]
  constructor
  · intro hpointer
    by_cases hdata : state.iconfig.dcd.data.isSome
    · obtain ⟨words, hwords⟩ := h.stateOk.dcd
      have hdcdEnd := hmapped.dcd hdata
      have hfour := four_le_size hwords hdata
      have hle := Nat.mod_le (layout .dcd).offset (256 ^ 4)
      rw [if_pos hdata]
      omega
    · rw [if_neg hdata] at hpointer
      exact absurd rfl hpointer
  · have happEnd := hmapped.appCode
    rw [if_neg (BitVec.not_lt.mpr hcompletes.1)] at happEnd
    have hle := Nat.mod_le (layout .appCode).offset (256 ^ 4)
    omega

/-- **Mapping.** The header is accessed inside the mapping exactly when the mapping reaches the ends
of what is stored and of what the pointers of the IVT lead to. -/
theorem inMapping_iff (toolParams : ToolParams) {payload copied : List UInt8}
    (hcopy : copyFile payload 0 = .ok copied) :
    InMapping state.iconfig layout headerSize toolParams payload copied ↔
      HeaderMapped state.iconfig layout toolParams payload.length := by
  have hpos : 0 < payload.length := by
    rw [List.length_pos_iff]
    rintro rfl
    exact absurd hcopy (by simp [copyFile])
  have hok := setHeader_ok_iff layout payload.length toolParams h.partsInput.dcd_le
  constructor
  · rintro ⟨hstores, hreads⟩
    have hmapped := (endsIn_setHeader h hpos).mp hstores
    refine { hmapped with pointers := fun _ hcompletes ↦ ?_ }
    obtain ⟨after, hafter⟩ := hok.mpr hcompletes
    exact (printReads_le_iff h hmapped hpos copied hafter).mp (hreads after hafter)
  · intro hmapped
    refine ⟨(endsIn_setHeader h hpos).mpr hmapped.toStoresMapped, fun after hafter ↦ ?_⟩
    have hcompletes := hok.mp ⟨after, hafter⟩
    apply (printReads_le_iff h hmapped.toStoresMapped hpos copied hafter).mpr
    intro ivt qspiBoot hfound
    by_cases hoverlaid : Overlaid state.iconfig layout
    · exact hmapped.pointers hoverlaid hcompletes ivt qspiBoot hfound
    · exact pointersInside_of_not_overlaid h hoverlaid hmapped.toStoresMapped hcompletes hfound

end Any

section Accepted

variable {allocates : ℕ → Bool} {files : String → Except ℤ (List UInt8)}
  {directives : List Directive} {boot : BootType} {sorter : Sorter} {state : State}
  {headerSize : ℕ}

/-- What is printed of a header that has been filled in is in front of the end of the fields of the
application header. -/
theorem printReads_le
    (h : AcceptedConf allocates files directives boot sorter state layout headerSize)
    (copied : List UInt8) {after : ProgramImage}
    (hafter : (setHeader state.iconfig layout stSize toolParams).2 = .ok after) :
    ∀ access ∈ printReads (writeAll (imageFile headerSize copied)
        (writes (setHeader state.iconfig layout stSize toolParams).1)),
      access.offset + access.width ≤ (layout .appCode).offset + 16 := by
  have hivtSize : (layout .ivt).size = IVT_SIZE := h.size_eq .ivt
  have hivtLast := h.layoutOk.last .ivt ((mem_layoutParts _ .ivt).mpr trivial)
  have hfound := getIvtFromRawBlob_eq copied h hafter
    (show ((layout .ivt).offset : ℤ) + IVT_SIZE ≤ SD_IVT_OFFSET + IVT_SIZE by
      rw [ivt_offset_eq h]
      split_ifs <;> decide)
  obtain ⟨hdcd, -, happ, -, -⟩ := readField_ivt copied h hafter
  intro access haccess
  rw [printReads, hfound, List.mem_append] at haccess
  rcases haccess with hsearch | hfield
  · have := getIvtReads_le hfound access hsearch
    omega
  · have hdcdEnd (hdata : state.iconfig.dcd.data.isSome) :
        (layout .dcd).offset + 4 ≤ (layout .appCode).offset := by
      obtain ⟨words, hwords⟩ := (stateOk_of_buildConf h.conf).dcd
      have hlast := h.layoutOk.last .dcd (h.laidOut.dcd_mem_layoutParts hdata)
      have hsize : (layout .dcd).size = state.iconfig.dcd.size := h.size_eq .dcd
      have hfour := four_le_size hwords hdata
      omega
    unfold IVT_SIZE at hivtSize
    simp only [fieldReads, hdcd, happ, List.mem_append, List.mem_cons, List.not_mem_nil,
      or_false] at hfield
    rcases hfield with (hpointers | hlength) | hfields
    · rcases hpointers with rfl | rfl <;>
      · dsimp only
        omega
    · by_cases hdata : state.iconfig.dcd.data.isSome
      · have hend := hdcdEnd hdata
        rw [if_pos hdata] at hlength
        split_ifs at hlength
        · rw [List.mem_singleton.mp hlength]
          dsimp only [DCD_HEADER_LENGTH_OFFSET]
          omega
        · exact absurd hlength List.not_mem_nil
      · rw [if_neg hdata, if_neg (not_not.mpr rfl)] at hlength
        exact absurd hlength List.not_mem_nil
    · rcases hfields with rfl | rfl | rfl | rfl | rfl | rfl <;>
      · dsimp only
        omega

/-- With one boot source the application header is the last component and the QSPI parameters do not
reach the IVT, so that its fields and the QSPI parameters are all that counts. -/
theorem headerMapped_iff
    (h : AcceptedConf allocates files directives boot sorter state layout headerSize) :
    HeaderMapped state.iconfig layout toolParams mapLen ↔
      (layout .appCode).offset + (if toolParams.ep < toolParams.addr then 4 else 16) ≤
          mapped mapLen ∧
        (boot = .qspi → toolParams.addr ≤ toolParams.ep →
          QSPI_PARAMS_OFFSET + state.iconfig.qspiParams.length ≤ mapped mapLen) := by
  have hnot : ¬Overlaid state.iconfig layout := by
    rintro ⟨hflashBoot, hivt, -⟩
    rw [ivt_offset_eq h, if_pos (h.flashBoot_iff.mp hflashBoot)] at hivt
    exact absurd hivt (by decide)
  have hqspi (hboot : boot = .qspi) := h.laidOut.qspiParams_offset (h.flashBoot_iff.mpr hboot)
  have hlast (part : Part) (hpart : some part ∈ layoutParts state.iconfig) :=
    h.layoutOk.last part hpart
  constructor
  · intro hmapped
    refine ⟨hmapped.appCode, fun hboot hentry ↦ ?_⟩
    have hflashBoot := h.flashBoot_iff.mpr hboot
    rw [← hqspi hboot]
    exact hmapped.qspiParams ⟨hentry, .inl hflashBoot⟩ hflashBoot
  · rintro ⟨happ, hcopy⟩
    have hend : (layout .appCode).offset ≤ mapped mapLen := by omega
    refine ⟨⟨fun hdata ↦ ?dcd, ?ivt, happ, fun hcompletes hflashBoot ↦ ?qspi,
      fun _ henable ↦ ?hseFw⟩, fun hoverlaid ↦ absurd hoverlaid hnot⟩
    case dcd =>
      have hsize : (layout .dcd).size = state.iconfig.dcd.size := h.size_eq .dcd
      have hdcd := hlast .dcd (h.laidOut.dcd_mem_layoutParts hdata)
      omega
    case ivt =>
      have hivt := h.laidOut.ivt_le_appCode
      unfold IVT_SIZE at hivt
      split_ifs <;> omega
    case qspi =>
      have hboot := h.flashBoot_iff.mp hflashBoot
      rw [hqspi hboot]
      exact hcopy hboot hcompletes.1
    case hseFw =>
      have hsize : (layout .hseFw).size = state.iconfig.hseFw.length := h.size_eq .hseFw
      have hhseFw := hlast .hseFw ((mem_layoutParts _ .hseFw).mpr henable)
      omega

end Accepted

theorem copyFile_byte : copyFile [0] 0 = .ok [0] := copyFile_of_le (by decide) (by decide)

/-- Two lines that disagree: a flash image with its IVT at the second page. -/
def disagreeingDirectives : List Directive :=
  [.bootFrom .qspi, .bootFrom .sd, .qspiParamsFile "qspi.bin"]

/-- QSPI parameters that reach the IVT and have one of their own there, with a pointer to the
application header far behind the image. -/
def overlaidParams : List UInt8 :=
  List.replicate 0xe00 0 ++ [0xd1, 0x01, 0x00, 0x60] ++ List.replicate 31 0 ++ [0xff]

def disagreeingState : State :=
  let state := parseBootCmd .sd (parseBootCmd .qspi initialState)
  { state with iconfig := { state.iconfig with qspiParams := overlaidParams } }

theorem inMapping_iff_disagreeing : ∃ layout headerSize,
    LaidOut (fun _ ↦ true) (fun _ ↦ .ok overlaidParams) disagreeingDirectives mergeSorter
        disagreeingState layout headerSize ∧
      (InMapping disagreeingState.iconfig layout headerSize freeParams [0] [0] ↔
        HeaderMapped disagreeingState.iconfig layout freeParams [(0 : UInt8)].length) := by
  have hconf : buildConf (fun _ ↦ true) (fun _ ↦ .ok overlaidParams) disagreeingDirectives =
      .ok disagreeingState := rfl
  obtain ⟨layout, headerSize, h⟩ := exists_laidOut hconf (Nat.zero_le _) (Nat.zero_le _)
    (by decide) mergeSorter
  exact ⟨layout, headerSize, h, inMapping_iff h freeParams copyFile_byte⟩

/-- The IVT of an image for SD is at the second page, and a payload of one byte maps the first. -/
theorem byte_not_inMapping : ∃ layout headerSize,
    LaidOut (fun _ ↦ true) (fun _ ↦ .error 2) [.bootFrom .sd] mergeSorter sdState layout
        headerSize ∧
      copyFile [0] 0 = .ok [0] ∧
      ¬InMapping sdState.iconfig layout headerSize freeParams [0] [0] := by
  obtain ⟨layout, headerSize, haccepted⟩ := sdState_accepted (fun _ ↦ .error 2) mergeSorter
  refine ⟨layout, headerSize, haccepted.laidOut, copyFile_byte, fun hmapping ↦ ?_⟩
  have hend := ((endsIn_setHeader haccepted.laidOut (by decide)).mp hmapping.stores).ivt
  have hpage : mapped [(0 : UInt8)].length = SD_IVT_OFFSET := by decide
  rw [ivt_offset_eq haccepted, if_neg (by decide), hpage] at hend
  split_ifs at hend <;> omega

end Vodka.Mkimage.Mapping
