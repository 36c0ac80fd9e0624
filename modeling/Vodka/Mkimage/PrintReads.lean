import Mathlib.Tactic
import Vodka.Mkimage.Image

/-!
# What listing an image reads

`-l` checks that the IVT is in the file and then prints without the size of the
file. The printer follows two pointers of the IVT, to the length field of the
DCD and to the application header. It stays in the file exactly when what the
two pointers lead to is in it. The reads are recorded beside the printed values,
and nothing else of the file changes what is printed.
-/

namespace Vodka.Mkimage.PrintReads

open Foundation.ByteMemory Foundation.Endian Config Header Image

/-- A read of some bytes at an offset. -/
structure Access where
  offset : ℕ
  width : ℕ
  deriving DecidableEq

/-- The fields of a header that `is_ivt_header` looks at before one of them is wrong. -/
def isIvtHeaderReads (memory : Memory) (ptr : ℕ) : List Access :=
  ⟨ptr, 1⟩ ::
    if readField memory ptr 1 ≠ IVT_TAG then []
    else ⟨ptr + 3, 1⟩ ::
      if readField memory (ptr + 3) 1 ≠ IVT_VERSION then [] else [⟨ptr + 1, 2⟩]

/-- `get_ivt_from_raw_blob` -/
def getIvtReads (memory : Memory) (size : ℤ) : List Access :=
  if size < QSPI_IVT_OFFSET + IVT_SIZE then []
  else isIvtHeaderReads memory QSPI_IVT_OFFSET ++
    if isIvtHeader memory QSPI_IVT_OFFSET then []
    else if size < SD_IVT_OFFSET + IVT_SIZE then []
    else isIvtHeaderReads memory SD_IVT_OFFSET

/-- The reads of `s32cc_print_header` behind the search for the IVT. -/
def fieldReads (memory : Memory) (ivt : ℕ) : List Access :=
  let dcdPointer := readField memory (ivt + 16) 4
  let app := readField memory (ivt + 32) 4
  [⟨ivt + 40, 4⟩, ⟨ivt + 16, 4⟩] ++
    (if dcdPointer ≠ 0 then [⟨dcdPointer + DCD_HEADER_LENGTH_OFFSET, 2⟩] else []) ++
    [⟨ivt + 24, 4⟩, ⟨ivt + 52, 4⟩, ⟨ivt + 32, 4⟩, ⟨app + 12, 4⟩, ⟨app + 4, 4⟩, ⟨app + 8, 4⟩]

/-- All bytes that `s32cc_print_header` reads. -/
def printReads (memory : Memory) : List Access :=
  getIvtReads memory (SD_IVT_OFFSET + IVT_SIZE) ++
    match getIvtFromRawBlob memory (SD_IVT_OFFSET + IVT_SIZE) with
    | none => []
    | some (ivt, _) => fieldReads memory ivt

/-- Two files have the same bytes where the access reads. -/
def Access.Same (memory other : Memory) (access : Access) : Prop :=
  read memory access.offset access.width = read other access.offset access.width

theorem Access.Same.readField_eq {memory other : Memory} {offset width : ℕ}
    (h : Access.Same memory other ⟨offset, width⟩) :
    readField memory offset width = readField other offset width := by
  rw [readField, readField, show read memory offset width = read other offset width from h]

variable {memory other : Memory}

theorem isIvtHeader_congr {ptr : ℕ}
    (h : ∀ access ∈ isIvtHeaderReads memory ptr, access.Same memory other) :
    isIvtHeader memory ptr = isIvtHeader other ptr := by
  have htag := (h ⟨ptr, 1⟩ List.mem_cons_self).readField_eq
  unfold isIvtHeader
  by_cases htagOk : readField memory ptr 1 = IVT_TAG
  · have hversion := (h ⟨ptr + 3, 1⟩ (by simp [isIvtHeaderReads, htagOk])).readField_eq
    by_cases hversionOk : readField memory (ptr + 3) 1 = IVT_VERSION
    · have hlength := (h ⟨ptr + 1, 2⟩
        (by simp [isIvtHeaderReads, htagOk, hversionOk])).readField_eq
      rw [htag, hversion, hlength]
    · simp [← hversion, hversionOk]
  · simp [← htag, htagOk]

theorem getIvt_congr {size : ℤ}
    (h : ∀ access ∈ getIvtReads memory size, access.Same memory other) :
    getIvtFromRawBlob memory size = getIvtFromRawBlob other size := by
  unfold getIvtReads at h
  unfold getIvtFromRawBlob
  by_cases hshort : size < QSPI_IVT_OFFSET + IVT_SIZE
  · rw [if_pos hshort, if_pos hshort]
  · rw [if_neg hshort, List.forall_mem_append] at h
    rw [if_neg hshort, if_neg hshort, ← isIvtHeader_congr h.1]
    by_cases hfirst : isIvtHeader memory QSPI_IVT_OFFSET = true
    · rw [if_pos hfirst, if_pos hfirst]
    · rw [if_neg hfirst] at h
      rw [if_neg hfirst, if_neg hfirst]
      by_cases hmiddle : size < SD_IVT_OFFSET + IVT_SIZE
      · rw [if_pos hmiddle, if_pos hmiddle]
      · rw [if_neg hmiddle] at h
        rw [if_neg hmiddle, if_neg hmiddle, ← isIvtHeader_congr h.2]

/-- The printed values depend on the recorded reads only. -/
theorem printHeader_congr
    (h : ∀ access ∈ printReads memory, access.Same memory other) :
    printHeader memory = printHeader other := by
  unfold printReads at h
  rw [List.forall_mem_append] at h
  have hivt := getIvt_congr h.1
  unfold printHeader
  rw [← hivt]
  cases hfound : getIvtFromRawBlob memory (SD_IVT_OFFSET + IVT_SIZE) with
  | none => rfl
  | some found =>
    obtain ⟨ivt, qspiBoot⟩ := found
    have hfields : ∀ access ∈ fieldReads memory ivt, access.Same memory other := by
      have hfields := h.2
      rwa [hfound] at hfields
    have hfield (offset width : ℕ) (hmem : ⟨offset, width⟩ ∈ fieldReads memory ivt) :
        readField memory offset width = readField other offset width :=
      (hfields _ hmem).readField_eq
    have hboot := hfield (ivt + 40) 4 (by simp [fieldReads])
    have hdcd := hfield (ivt + 16) 4 (by simp [fieldReads])
    have hhseFw := hfield (ivt + 24) 4 (by simp [fieldReads])
    have hhseSysImg := hfield (ivt + 52) 4 (by simp [fieldReads])
    have happ := hfield (ivt + 32) 4 (by simp [fieldReads])
    have hlength := hfield (readField memory (ivt + 32) 4 + 12) 4 (by simp [fieldReads])
    have hload := hfield (readField memory (ivt + 32) 4 + 4) 4 (by simp [fieldReads])
    have hentry := hfield (readField memory (ivt + 32) 4 + 8) 4 (by simp [fieldReads])
    simp only [Option.map_some, ← hboot, ← hdcd, ← hhseFw, ← hhseSysImg, ← happ, ← hlength,
      ← hload, ← hentry]
    by_cases hpointer : readField memory (ivt + 16) 4 = 0
    · simp [hpointer]
    · have hdcdLength := hfield
        (readField memory (ivt + 16) 4 + DCD_HEADER_LENGTH_OFFSET) 2
        (by simp [fieldReads, hpointer])
      rw [hdcdLength]

/-- Every byte that is read has an offset smaller than the size. -/
def Inside (memory : Memory) (size : ℕ) : Prop :=
  ∀ access ∈ printReads memory, access.offset + access.width ≤ size

/-- What the two pointers of the IVT lead to is in the file: the length field of the DCD, if there
is one, and the application header up to its length. -/
def PointersInside (memory : Memory) (ivt size : ℕ) : Prop :=
  (readField memory (ivt + 16) 4 ≠ 0 → readField memory (ivt + 16) 4 + 3 ≤ size) ∧
    readField memory (ivt + 32) 4 + 16 ≤ size

theorem isIvtHeaderReads_bounds {ptr : ℕ} : ∀ access ∈ isIvtHeaderReads memory ptr,
    ptr ≤ access.offset ∧ access.offset + access.width ≤ ptr + 4 := by
  unfold isIvtHeaderReads
  split_ifs <;> simp

/-- The search looks at the second place only when there is no IVT at the first. -/
theorem getIvtReads_cases {size : ℤ} {access : Access} (h : access ∈ getIvtReads memory size) :
    access.offset + access.width ≤ QSPI_IVT_OFFSET + 4 ∨
      isIvtHeader memory QSPI_IVT_OFFSET = false ∧ SD_IVT_OFFSET ≤ access.offset ∧
        access.offset + access.width ≤ SD_IVT_OFFSET + 4 := by
  unfold getIvtReads at h
  split_ifs at h with hshort hfirst hmiddle
  · exact absurd h List.not_mem_nil
  · rw [List.append_nil] at h
    exact .inl (isIvtHeaderReads_bounds access h).2
  · rw [List.append_nil] at h
    exact .inl (isIvtHeaderReads_bounds access h).2
  · rcases List.mem_append.mp h with hread | hread
    · exact .inl (isIvtHeaderReads_bounds access hread).2
    · exact .inr ⟨Bool.eq_false_iff.mpr hfirst, isIvtHeaderReads_bounds access hread⟩

theorem getIvt_cases {size : ℤ} {ivt : ℕ} {qspiBoot : Bool}
    (h : getIvtFromRawBlob memory size = some (ivt, qspiBoot)) :
    isIvtHeader memory QSPI_IVT_OFFSET = true ∧ ivt = QSPI_IVT_OFFSET ∨
      isIvtHeader memory QSPI_IVT_OFFSET = false ∧ ivt = SD_IVT_OFFSET := by
  unfold getIvtFromRawBlob at h
  split_ifs at h with hshort hfirst hmiddle hsecond
  · rw [Option.some.injEq, Prod.mk.injEq] at h
    exact .inl ⟨hfirst, h.1.symm⟩
  · rw [Option.some.injEq, Prod.mk.injEq] at h
    exact .inr ⟨Bool.eq_false_iff.mpr hfirst, h.1.symm⟩

/-- The search stays in front of the end of the IVT that it finds. -/
theorem getIvtReads_le {size : ℤ} {ivt : ℕ} {qspiBoot : Bool}
    (h : getIvtFromRawBlob memory size = some (ivt, qspiBoot)) :
    ∀ access ∈ getIvtReads memory size, access.offset + access.width ≤ ivt + IVT_SIZE := by
  intro access haccess
  have hroom : 4 ≤ IVT_SIZE := by decide
  have hlow : QSPI_IVT_OFFSET + 4 ≤ SD_IVT_OFFSET := by decide
  rcases getIvt_cases h with ⟨hfound, rfl⟩ | ⟨-, rfl⟩
  · rcases getIvtReads_cases haccess with hread | ⟨hnone, -⟩
    · omega
    · exact absurd (hfound.symm.trans hnone) (by decide)
  · rcases getIvtReads_cases haccess with hread | ⟨-, -, hread⟩
    · omega
    · omega

/-- What is read behind the search, when the pointers of the IVT themselves are in the file. -/
theorem fieldReads_le_iff {ivt size : ℕ} (hsize : ivt + 56 ≤ size) :
    (∀ access ∈ fieldReads memory ivt, access.offset + access.width ≤ size) ↔
      PointersInside memory ivt size := by
  unfold PointersInside fieldReads DCD_HEADER_LENGTH_OFFSET
  by_cases hpointer : readField memory (ivt + 16) 4 = 0
  · simp only [hpointer]
    simp
    omega
  · simp [hpointer]
    omega

/-- In a file that passes the check, the printer finds the IVT that the check has found. -/
theorem exists_ivt_of_verified {size : ℕ} (h : verifyHeader memory size = 0) :
    ∃ ivt qspiBoot, getIvtFromRawBlob memory (SD_IVT_OFFSET + IVT_SIZE) = some (ivt, qspiBoot) ∧
      ivt + IVT_SIZE ≤ size := by
  have hint : (BitVec.ofNat 32 size).toInt ≤ size := by
    have hmod : size % 2 ^ 32 ≤ size := Nat.mod_le _ _
    rw [BitVec.toInt_eq_toNat_cond, BitVec.toNat_ofNat]
    split_ifs <;> omega
  have hroom : ¬ ((SD_IVT_OFFSET + IVT_SIZE : ℤ) < QSPI_IVT_OFFSET + IVT_SIZE) := by decide
  have hmiddle : ¬ ((SD_IVT_OFFSET + IVT_SIZE : ℤ) < SD_IVT_OFFSET + IVT_SIZE) := by decide
  have hfound : getIvtFromRawBlob memory (BitVec.ofNat 32 size).toInt ≠ none := by
    intro hnone
    simp [verifyHeader, hnone] at h
  unfold getIvtFromRawBlob at hfound
  by_cases hshort : (BitVec.ofNat 32 size).toInt < QSPI_IVT_OFFSET + IVT_SIZE
  · exact absurd (if_pos hshort) hfound
  rw [if_neg hshort] at hfound
  unfold getIvtFromRawBlob
  rw [if_neg hroom]
  by_cases hfirst : isIvtHeader memory QSPI_IVT_OFFSET = true
  · rw [if_pos hfirst]
    refine ⟨_, _, rfl, ?_⟩
    unfold QSPI_IVT_OFFSET IVT_SIZE at *
    omega
  · rw [if_neg hfirst] at hfound
    rw [if_neg hfirst, if_neg hmiddle]
    by_cases hshort' : (BitVec.ofNat 32 size).toInt < SD_IVT_OFFSET + IVT_SIZE
    · exact absurd (if_pos hshort') hfound
    rw [if_neg hshort'] at hfound
    by_cases hsecond : isIvtHeader memory SD_IVT_OFFSET = true
    · rw [if_pos hsecond]
      refine ⟨_, _, rfl, ?_⟩
      unfold SD_IVT_OFFSET IVT_SIZE at *
      omega
    · exact absurd (if_neg hsecond) hfound

/-- Listing a file that passes the check stays inside it exactly when its two pointers do. -/
theorem inside_iff (memory : Memory) (size : ℕ) (h : verifyHeader memory size = 0) :
    Inside memory size ↔
      ∃ ivt qspiBoot, getIvtFromRawBlob memory (SD_IVT_OFFSET + IVT_SIZE) = some (ivt, qspiBoot) ∧
        PointersInside memory ivt size := by
  obtain ⟨ivt, qspiBoot, hivt, hsize⟩ := exists_ivt_of_verified h
  have hsearch := getIvtReads_le hivt
  have hreads : printReads memory =
      getIvtReads memory (SD_IVT_OFFSET + IVT_SIZE) ++ fieldReads memory ivt := by
    rw [printReads, hivt]
  have hfields := @fieldReads_le_iff memory ivt size (by unfold IVT_SIZE at hsize; omega)
  unfold Inside
  rw [hreads, List.forall_mem_append, hfields]
  constructor
  · rintro ⟨-, hpointers⟩
    exact ⟨ivt, qspiBoot, hivt, hpointers⟩
  · rintro ⟨other, otherBoot, hother, hpointers⟩
    rw [hivt, Option.some.injEq, Prod.mk.injEq] at hother
    rw [← hother.1] at hpointers
    exact ⟨fun access haccess ↦ (hsearch access haccess).trans hsize, hpointers⟩

/-- A file with an IVT at its start, all zero but for the header and the highest byte of the
pointer to the application header. -/
def craftedFile (high : UInt8) : Memory :=
  write (write (fun _ ↦ 0) 0 [0xd1, 0x01, 0x00, 0x60]) 35 [high]

theorem inside_iff_craftedFile :
    verifyHeader (craftedFile 0) 4096 = 0 ∧
      (Inside (craftedFile 0) 4096 ↔
        ∃ ivt qspiBoot, getIvtFromRawBlob (craftedFile 0) (SD_IVT_OFFSET + IVT_SIZE) =
          some (ivt, qspiBoot) ∧ PointersInside (craftedFile 0) ivt 4096) :=
  ⟨by decide, inside_iff (craftedFile 0) 4096 (by decide)⟩

/-- A pointer of 4 GiB less 16 MiB in a file of one IVT is followed. -/
theorem craftedFile_read_outside :
    verifyHeader (craftedFile 0xff) 256 = 0 ∧ ¬ Inside (craftedFile 0xff) 256 := by
  refine ⟨by decide, fun hinside ↦ ?_⟩
  exact absurd (hinside ⟨0xff000004, 4⟩ (by decide)) (by decide)

end Vodka.Mkimage.PrintReads
