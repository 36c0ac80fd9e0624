import Mathlib.Tactic
import Vodka.Mkimage.CommandLine
import Vodka.Mkimage.ConfigText
import Vodka.Mkimage.Listing
import Vodka.Mkimage.Mapping

/-!
# The image tool

A run of the tool on its command line and the files. It either lists an image or
makes one: the image file is truncated first, then the configuration is read,
the cleared header and the payload are written, and the header is filled in
through a mapping of as many bytes as the payload has. An access outside the
pages of the mapping has no result. A made image is listed with the text that
making it printed. An image whose header could not be finished is listed as well
when its IVT has been stored.
-/

namespace Vodka.Mkimage.Tool

open Foundation.Alignment Foundation.ByteMemory Foundation.LineBuffer Foundation.Qsort
open Foundation.Scanf
open DynOffsets Config DcdArray Layout Accepted Header Image PrintReads Mapping Directives
open ConfigText Listing CommandLine

/-- What the names lead to: the contents of a file or the error of opening it, and whether it can
be opened for writing. -/
structure Files where
  content : Word → Except ℤ (List UInt8)
  writable : Word → Bool

def Files.write (files : Files) (name : Word) (bytes : List UInt8) : Files :=
  { files with content := Function.update files.content name (.ok bytes) }

/-- The files that the lines of the configuration name. -/
def Files.byPath (files : Files) (path : String) : Except ℤ (List UInt8) :=
  files.content (ascii path)

/-- The bytes of a mapped file. Behind its end the last page is clear. -/
def fileMemory (bytes : List UInt8) : Memory := write (fun _ ↦ 0) 0 bytes

/-- How a run ends: its exit status, the files behind it, and what it has printed. -/
structure Run where
  status : ℤ
  files : Files
  stdout : List UInt8

/-- The end of `main` or of the program with a status, of which the caller gets the low byte. -/
def exitWith (files : Files) : Failure → Option Run
  | .error status => some ⟨status % 256, files, []⟩
  | .exit status => some ⟨status % 256, files, []⟩
  | .outOfBounds => none

def fail (files : Files) : Option Run := exitWith files (.exit EXIT_FAILURE)

/-- `s32cc_print_header` in a mapping that ends at the limit, and the successful exit behind it. -/
def printImage (q : ArraySorter) (files : Files) (memory : Memory) (limit : ℕ) : Option Run :=
  if ∀ access ∈ printReads memory, access.offset + access.width ≤ limit then
    some ⟨0, files, ((printHeader memory).map (headerText q)).getD []⟩
  else none

/-- `main` with `-l`. An empty file cannot be mapped. -/
def listImage (q : ArraySorter) (files : Files) (imagefile : Word) : Option Run :=
  match files.content imagefile with
  | .error _ => fail files
  | .ok bytes =>
    if bytes = [] then fail files
    else if verifyHeader (fileMemory bytes) bytes.length ≠ 0 then fail files
    else printImage q files (fileMemory bytes) (mapped bytes.length)

/-- The stores of `s32cc_set_header` in a mapping of the image that is as long as the data file, and
what follows them. -/
def fillHeader (q : ArraySorter) (files : Files) (toolParams : ToolParams) (imagefile : Word)
    (iconfig : ImageConfig) (layout : ProgramImage) (image : List UInt8) (mapLen : ℕ) :
    Option Run :=
  if mapLen = 0 then fail files
  else
    let limit := min (mapped mapLen) (mapped image.length)
    let (stores, result) := setHeader iconfig layout mapLen toolParams
    if ∀ store ∈ stores, ∀ i < store.bytes.length, store.offset + i < limit then
      let memory := writeAll (fileMemory image) (writes stores)
      let files := files.write imagefile (read memory 0 image.length)
      match result with
      | .error failure => exitWith files failure
      | .ok _ => printImage q files memory limit
    else none

/-- The bytes that `copy_file` has written when its `write` is short. -/
def partialCopy (payload : List UInt8) : List UInt8 :=
  payload.take (writeResult ((BitVec.ofNat 32 payload.length).toInt % 2 ^ 64).toNat).toNat

/-- `main` from the `write` of the cleared header on. The data file is looked at again each time. -/
def writeImage (q : ArraySorter) (files : Files) (toolParams : ToolParams)
    (datafile imagefile : Word) (iconfig : ImageConfig) (layout : ProgramImage)
    (headerSize : ℕ) : Option Run :=
  let header := List.replicate headerSize 0
  if writeResult headerSize ≠ headerSize then
    fail (files.write imagefile (header.take (writeResult headerSize).toNat))
  else
    let files := files.write imagefile header
    match files.content datafile with
    | .error _ => fail files
    | .ok payload =>
      match copyFile payload 0 with
      | .error _ => fail (files.write imagefile (header ++ partialCopy payload))
      | .ok copied =>
        let files := files.write imagefile (header ++ copied)
        match files.content datafile with
        | .error _ => fail files
        | .ok data =>
          fillHeader q files toolParams imagefile iconfig layout (header ++ copied) data.length

/-- `main` without `-l`, from the truncation of the image on. -/
def makeImage (q : ArraySorter) (allocates : ℕ → Bool) (files : Files) (params : Params)
    (imagefile : Word) : Option Run :=
  let files := files.write imagefile []
  match params.datafile with
  | none => fail files
  | some datafile =>
    match files.content datafile with
    | .error _ => fail files
    | .ok _ =>
      match files.content params.imagename with
      | .error _ => fail files
      | .ok fconf =>
        match ConfigText.buildConf (parseConfigLine allocates files.byPath) initialState fconf with
        | .error failure => exitWith files failure
        | .ok state =>
          match buildLayout q.toSorter state.iconfig state.imageLayout with
          | .error failure => exitWith files failure
          | .ok (layout, size) =>
            writeImage q files params.toToolParams datafile imagefile state.iconfig layout
              (size % 2 ^ 32)

/-- `main` -/
def main (q : ArraySorter) (allocates : ℕ → Bool) (files : Files) (args : List Word) :
    Option Run :=
  match readParams args with
  | .error failure => exitWith files failure
  | .ok params =>
    match params.imagefile with
    | none => fail files
    | some imagefile =>
      if params.lflag then listImage q files imagefile
      else if files.writable imagefile then makeImage q allocates files params imagefile
      else fail files

/-- The directives of the configuration text. -/
def directivesOf (allocates : ℕ → Bool) (fconf : List UInt8) : Except Failure (List Directive) :=
  ((pieces newline (BUFFER_SIZE - 1) fconf).filterMap configText).mapM (readDirective allocates)

section Conf

variable {allocates : ℕ → Bool} {files : String → Except ℤ (List UInt8)}

theorem foldlM_parseConfigLine {lines : List (List UInt8)} {directives : List Directive}
    {state : State} (h : lines.mapM (readDirective allocates) = .ok directives) :
    lines.foldlM (parseConfigLine allocates files) state =
      directives.foldlM (applyDirective allocates files) state := by
  induction lines generalizing directives state with
  | nil =>
    obtain rfl : [] = directives := Except.ok.inj h
    rfl
  | cons line lines ih =>
    rw [List.mapM_cons] at h
    obtain ⟨first, hfirst, h⟩ := exists_of_bind_ok h
    obtain ⟨rest, hrest, h⟩ := exists_of_bind_ok h
    obtain rfl : first :: rest = directives := Except.ok.inj h
    rw [List.foldlM_cons, List.foldlM_cons, parseConfigLine, hfirst]
    change (applyDirective allocates files state first >>= _) = _
    exact bind_congr fun next ↦ ih hrest

/-- A text whose directives can be read is handled like them. -/
theorem buildConf_directivesOf {fconf : List UInt8} {directives : List Directive}
    (h : directivesOf allocates fconf = .ok directives) :
    ConfigText.buildConf (parseConfigLine allocates files) initialState fconf =
      Config.buildConf allocates files directives := by
  rw [buildConf_eq, Config.buildConf]
  exact foldlM_parseConfigLine h

end Conf

/-! ## The image as memory -/

theorem fileMemory_append (headerSize : ℕ) (copied : List UInt8) :
    fileMemory (List.replicate headerSize 0 ++ copied) = imageFile headerSize copied := by
  funext address
  unfold fileMemory imageFile write
  rw [if_pos (Nat.zero_le _), Nat.sub_zero]
  by_cases hheader : address < headerSize
  · rw [if_neg (by omega), List.getD_append _ _ _ _ (by rwa [List.length_replicate]),
      List.getD_replicate _ hheader]
  · rw [if_pos (by omega), List.getD_append_right _ _ _ _ (by rw [List.length_replicate]; omega),
      List.length_replicate]

/-- A file that nothing is stored behind is its memory. -/
theorem fileMemory_read {memory : Memory} {size : ℕ}
    (h : ∀ address, size ≤ address → memory address = 0) :
    fileMemory (read memory 0 size) = memory := by
  funext address
  unfold fileMemory write
  rw [if_pos (Nat.zero_le _), Nat.sub_zero]
  by_cases hinside : address < size
  · rw [List.getD_eq_getElem _ _ (by rwa [length_read])]
    simp [Foundation.ByteMemory.read]
  · rw [List.getD_eq_default _ _ (by rw [length_read]; omega), h address (by omega)]

section Accepted

variable {allocates : ℕ → Bool} {files : String → Except ℤ (List UInt8)}
  {directives : List Directive} {boot : BootType} {sorter : Sorter} {state : State}
  {layout : ProgramImage} {headerSize stSize : ℕ} {toolParams : ToolParams}

/-- The memory when the program has filled in the header, or has ended in between. -/
def filled (iconfig : ImageConfig) (layout : ProgramImage) (headerSize : ℕ) (copied : List UInt8)
    (stSize : ℕ) (toolParams : ToolParams) : Memory :=
  writeAll (imageFile headerSize copied) (writes (setHeader iconfig layout stSize toolParams).1)

/-- Addresses that no check refuses. -/
def passingParams : ToolParams := ⟨0xffffffff, 0xffffffff⟩

theorem setHeader_passingParams
    (h : AcceptedConf allocates files directives boot sorter state layout headerSize)
    (stSize : ℕ) :
    ∃ after, (setHeader state.iconfig layout stSize passingParams).2 = .ok after := by
  apply (setHeader_ok_iff layout stSize passingParams h.partsInput.dcd_le).mpr
  exact ⟨BitVec.le_refl _, .inr (by simp [inReservedRanges, reservedSram, passingParams])⟩

/-- Up to the end of the IVT, the image is the one that all checks let pass. -/
theorem filled_eq_passingParams
    (h : AcceptedConf allocates files directives boot sorter state layout headerSize)
    (stSize : ℕ) (toolParams : ToolParams) (copied : List UInt8) {address : ℕ}
    (haddress : address < (layout .ivt).offset + IVT_SIZE) :
    filled state.iconfig layout headerSize copied stSize toolParams address =
      filled state.iconfig layout headerSize copied stSize passingParams address := by
  -- The address is in the IVT or in the MBR area in front of it.
  obtain ⟨part, hpart, hpresent, hqspi, hstart, hend⟩ :
      ∃ part, (part = .ivt ∨ part = .mbrReserved) ∧
      Present state.iconfig part ∧ (part = .ivt ∨ boot ≠ .qspi) ∧
      (layout part).offset ≤ address ∧ address < (layout part).offset + (layout part).size := by
    have hivtSize : (layout .ivt).size = IVT_SIZE := h.size_eq .ivt
    by_cases hinside : (layout .ivt).offset ≤ address
    · exact ⟨.ivt, .inl rfl, .inl ((mem_layoutParts _ .ivt).mpr trivial), .inl rfl, hinside,
        by omega⟩
    · have hoffset := ivt_offset_eq h
      have hboot : boot ≠ .qspi := by
        rintro rfl
        rw [if_pos rfl] at hoffset
        unfold QSPI_IVT_OFFSET at hoffset
        omega
      obtain ⟨hmbrPart, hmbrOffset⟩ := (fixed_offset_eq h).1 hboot
      have hmbrSize : (layout .mbrReserved).size = MBR_SIZE := h.size_eq .mbrReserved
      have hadjacent : SD_IVT_OFFSET = MBR_SIZE := rfl
      rw [if_neg hboot] at hoffset
      exact ⟨.mbrReserved, .inr rfl, .inl hmbrPart, .inr hboot, by omega, by omega⟩
  have hread (params : ToolParams) :
      read (filled state.iconfig layout headerSize copied stSize params)
          ((layout part).offset + (address - (layout part).offset)) 1 =
        read (writeAll (imageFile headerSize copied)
          (writes (partStores state.iconfig layout stSize params part)))
          ((layout part).offset + (address - (layout part).offset)) 1 := by
    rw [filled, read_setHeader h (hqspi.imp_right fun hboot hflash ↦ absurd hflash hboot) hpresent _
      (by omega)]
    rcases hpart with rfl | rfl
    · rw [filter_setHeader layout stSize params h.partsInput.dcd_le (by decide) (by decide)
        (by decide)]
    · rw [filter_setHeader layout stSize params h.partsInput.dcd_le (by decide) (by decide)
        (by decide)]
  have hsame : partStores state.iconfig layout stSize toolParams part =
      partStores state.iconfig layout stSize passingParams part := by
    rcases hpart with rfl | rfl <;> rfl
  have hbyte := (hread toolParams).trans ((hsame ▸ rfl : _ = _).trans (hread passingParams).symm)
  simpa [Foundation.ByteMemory.read, Nat.add_sub_cancel' hstart] using hbyte

/-- What the reader looks for is there, and what it reads stays in front of the payload. -/
theorem getIvt_filled
    (h : AcceptedConf allocates files directives boot sorter state layout headerSize)
    (stSize : ℕ) (toolParams : ToolParams) (copied : List UInt8) {size : ℤ}
    (hsize : (layout .ivt).offset + IVT_SIZE ≤ size) :
    getIvtFromRawBlob (filled state.iconfig layout headerSize copied stSize toolParams) size =
      some ((layout .ivt).offset, decide (boot = .qspi)) := by
  obtain ⟨after, hafter⟩ := setHeader_passingParams h stSize
  have hlast := getIvtFromRawBlob_eq copied h hafter hsize
  rw [← hlast]
  symm
  apply getIvt_congr
  intro access haccess
  have hle := getIvtReads_le hlast access haccess
  apply read_congr
  intro address _ hend
  exact (filled_eq_passingParams h stSize toolParams copied (by omega)).symm

theorem printReads_filled_le
    (h : AcceptedConf allocates files directives boot sorter state layout headerSize)
    (stSize : ℕ) (toolParams : ToolParams) (copied : List UInt8) :
    ∀ access ∈ printReads (filled state.iconfig layout headerSize copied stSize toolParams),
      access.offset + access.width ≤ (layout .appCode).offset + 16 := by
  obtain ⟨after, hafter⟩ := setHeader_passingParams h stSize
  have hlast := printReads_le h copied hafter
  have hsize : ((layout .ivt).offset : ℤ) + IVT_SIZE ≤ SD_IVT_OFFSET + IVT_SIZE := by
    rw [ivt_offset_eq h]
    split_ifs <;> decide
  have hfound := getIvt_filled h stSize toolParams copied hsize
  have hfoundLast := getIvtFromRawBlob_eq copied h hafter hsize
  have hpointer (field : ℕ) (hfield : field + 4 ≤ IVT_SIZE) :
      readField (filled state.iconfig layout headerSize copied stSize toolParams)
          ((layout .ivt).offset + field) 4 =
        readField (filled state.iconfig layout headerSize copied stSize passingParams)
          ((layout .ivt).offset + field) 4 := by
    unfold readField
    congr 1
    apply read_congr
    intro address _ hend
    exact filled_eq_passingParams h stSize toolParams copied (by omega)
  have hfields : fieldReads (filled state.iconfig layout headerSize copied stSize toolParams)
        (layout .ivt).offset =
      fieldReads (filled state.iconfig layout headerSize copied stSize passingParams)
        (layout .ivt).offset := by
    simp only [fieldReads, hpointer 16 (by decide), hpointer 32 (by decide)]
  have hivtEnd : (layout .ivt).offset + IVT_SIZE ≤ (layout .appCode).offset := by
    have hivtSize : (layout .ivt).size = IVT_SIZE := h.size_eq .ivt
    have hivtLast := h.layoutOk.last .ivt ((mem_layoutParts _ .ivt).mpr trivial)
    omega
  intro access haccess
  rw [printReads, hfound, List.mem_append] at haccess
  rcases haccess with hsearch | hfield
  · have hle := getIvtReads_le hfound access hsearch
    omega
  · apply hlast
    rw [printReads, hfoundLast, List.mem_append]
    right
    change access ∈
      fieldReads (filled state.iconfig layout headerSize copied stSize passingParams) _
    rw [← hfields]
    exact hfield

/-- Nothing is stored behind the header when the QSPI parameters fit. -/
theorem filled_of_le
    (h : AcceptedConf allocates files directives boot sorter state layout headerSize)
    (hqspi : state.iconfig.qspiParams.length ≤ QSPI_PARAMS_SIZE) (stSize : ℕ)
    (toolParams : ToolParams) (copied : List UInt8) {address : ℕ}
    (haddress : headerSize ≤ address) :
    filled state.iconfig layout headerSize copied stSize toolParams address =
      imageFile headerSize copied address := by
  apply writeAll_of_outside
  intro entry hentry
  obtain ⟨store, hstore, rfl⟩ := List.mem_map.mp hentry
  have hown := own_of_mem h.laidOut hstore fun _ _ _ ↦ hqspi
  have hend := finish_le_headerSize h (present_of_mem h.laidOut hstore)
  rcases Nat.eq_zero_or_pos store.bytes.length with hempty | hpositive
  · dsimp only
    omega
  · have hlast := hown (store.bytes.length - 1) (by omega)
    dsimp only
    omega

end Accepted

/-! ## A run that makes an image -/

/-- What a run finds that gets to filling in the header: its words, a configuration with one boot
source that is accepted, and a data file that is another file and maps as many bytes as the header
has. -/
structure Ready (q : ArraySorter) (allocates : ℕ → Bool) (files : Files) (args : List Word)
    (params : Params) (datafile imagefile : Word) (fconf : List UInt8)
    (directives : List Directive) (boot : BootType) (state : State) (layout : ProgramImage)
    (headerSize : ℕ) (payload : List UInt8) : Prop where
  spelled : readParams args = .ok params
  making : params.lflag = false
  dataArg : params.datafile = some datafile
  imageArg : params.imagefile = some imagefile
  writable : files.writable imagefile = true
  data_ne : datafile ≠ imagefile
  conf_ne : params.imagename ≠ imagefile
  data : files.content datafile = .ok payload
  conf : files.content params.imagename = .ok fconf
  readable : directivesOf allocates fconf = .ok directives
  accepted : AcceptedConf allocates (files.write imagefile []).byPath directives boot q.toSorter
    state layout headerSize
  qspiFits : state.iconfig.qspiParams.length ≤ QSPI_PARAMS_SIZE
  headerMapped : headerSize ≤ mapped payload.length

section Made

variable {q : ArraySorter} {allocates : ℕ → Bool} {files : Files} {args : List Word}
  {params : Params} {datafile imagefile : Word} {fconf : List UInt8}
  {directives : List Directive} {boot : BootType} {state : State} {layout : ProgramImage}
  {headerSize : ℕ} {payload copied : List UInt8} {run : Run}

theorem Files.content_write (files : Files) (name : Word) (bytes : List UInt8) :
    (files.write name bytes).content name = .ok bytes :=
  Function.update_self _ _ _

theorem Files.content_write_of_ne (files : Files) {name other : Word} (h : other ≠ name)
    (bytes : List UInt8) : (files.write name bytes).content other = files.content other :=
  Function.update_of_ne h _ _

@[simp]
theorem Files.write_write (files : Files) (name : Word) (bytes others : List UInt8) :
    (files.write name bytes).write name others = files.write name others := by
  simp [Files.write]

/-- The run up to the copy of the payload. -/
theorem Ready.main_eq (h : Ready q allocates files args params datafile imagefile fconf directives
    boot state layout headerSize payload) :
    main q allocates files args =
      match copyFile payload 0 with
      | .error _ => fail (files.write imagefile (List.replicate headerSize 0 ++
          partialCopy payload))
      | .ok copied => fillHeader q (files.write imagefile (List.replicate headerSize 0 ++ copied))
          params.toToolParams imagefile state.iconfig layout
          (List.replicate headerSize 0 ++ copied) payload.length := by
  have hheader := h.accepted.headerSize_le
  have hmod : headerSize % 2 ^ 32 = headerSize := Nat.mod_eq_of_lt (by omega)
  have hwritten : writeResult headerSize = headerSize := by
    unfold writeResult
    rw [if_pos (by omega)]
    omega
  have hdata (bytes : List UInt8) : (files.write imagefile bytes).content datafile = .ok payload :=
    (files.content_write_of_ne h.data_ne bytes).trans h.data
  have hconf : (files.write imagefile []).content params.imagename = .ok fconf :=
    (files.content_write_of_ne h.conf_ne []).trans h.conf
  have hwrite : writeImage q (files.write imagefile []) params.toToolParams datafile imagefile
      state.iconfig layout headerSize =
      match copyFile payload 0 with
      | .error _ => fail (files.write imagefile (List.replicate headerSize 0 ++
          partialCopy payload))
      | .ok copied => fillHeader q (files.write imagefile (List.replicate headerSize 0 ++ copied))
          params.toToolParams imagefile state.iconfig layout
          (List.replicate headerSize 0 ++ copied) payload.length := by
    simp only [writeImage, hwritten, Files.write_write, hdata, ne_eq, not_true_eq_false, if_false]
  rw [← hwrite, main, h.spelled]
  dsimp only
  rw [h.imageArg]
  dsimp only
  rw [h.making, if_neg (by simp), if_pos h.writable, makeImage, h.dataArg]
  dsimp only
  rw [hdata, hconf]
  dsimp only
  rw [buildConf_directivesOf h.readable, h.accepted.conf]
  dsimp only
  rw [h.accepted.layout]
  dsimp only
  rw [hmod]

/-- The image file behind a run whose payload is copied. -/
def imageBytes (params : Params) (state : State) (layout : ProgramImage) (headerSize : ℕ)
    (payload copied : List UInt8) : List UInt8 :=
  read (filled state.iconfig layout headerSize copied payload.length params.toToolParams) 0
    (headerSize + copied.length)

/-- The header is filled in whole or up to a check, in the mapping. -/
theorem Ready.fillHeader_eq (h : Ready q allocates files args params datafile imagefile fconf
    directives boot state layout headerSize payload) (hcopy : copyFile payload 0 = .ok copied)
    (before : Files) :
    fillHeader q before params.toToolParams imagefile state.iconfig layout
        (List.replicate headerSize 0 ++ copied) payload.length =
      match (setHeader state.iconfig layout payload.length params.toToolParams).2 with
      | .error failure => exitWith (before.write imagefile
          (imageBytes params state layout headerSize payload copied)) failure
      | .ok _ => some ⟨0, before.write imagefile
          (imageBytes params state layout headerSize payload copied),
          ((printHeader (filled state.iconfig layout headerSize copied payload.length
            params.toToolParams)).map (headerText q)).getD []⟩ := by
  have hne : payload.length ≠ 0 := by
    rw [ne_eq, List.length_eq_zero_iff]
    rintro rfl
    exact absurd hcopy (by simp [copyFile])
  have hlength : (List.replicate headerSize 0 ++ copied).length = headerSize + copied.length := by
    rw [List.length_append, List.length_replicate]
  have hlimit : headerSize ≤ min (mapped payload.length) (mapped (headerSize + copied.length)) := by
    have hmapped := h.headerMapped
    unfold mapped at hmapped ⊢
    omega
  have hstores : ∀ store ∈ (setHeader state.iconfig layout payload.length params.toToolParams).1,
      ∀ i < store.bytes.length,
        store.offset + i < min (mapped payload.length) (mapped (headerSize + copied.length)) := by
    intro store hstore i hi
    have hown := own_of_mem h.accepted.laidOut hstore (fun _ _ _ ↦ h.qspiFits) i hi
    have hend := finish_le_headerSize h.accepted (present_of_mem h.accepted.laidOut hstore)
    omega
  have hreads : ∀ access ∈ printReads (filled state.iconfig layout headerSize copied payload.length
      params.toToolParams), access.offset + access.width ≤
        min (mapped payload.length) (mapped (headerSize + copied.length)) := by
    intro access haccess
    have hle := printReads_filled_le h.accepted payload.length params.toToolParams copied access
      haccess
    have hend := finish_le_headerSize h.accepted (Or.inr (rfl : Part.appCode = .appCode))
    have hsize : (layout .appCode).size = APP_CODE_SIZE := h.accepted.size_eq .appCode
    have hroom : 16 ≤ APP_CODE_SIZE := by decide
    omega
  have hmemory : writeAll (fileMemory (List.replicate headerSize 0 ++ copied))
      (writes (setHeader state.iconfig layout payload.length params.toToolParams).1) =
      filled state.iconfig layout headerSize copied payload.length params.toToolParams := by
    rw [fileMemory_append, filled]
  rw [fillHeader, if_neg hne]
  dsimp only
  rw [hlength, if_pos hstores, hmemory]
  cases (setHeader state.iconfig layout payload.length params.toToolParams).2 with
  | error failure => rfl
  | ok after =>
    dsimp only
    rw [printImage, if_pos hreads]
    rfl

/-- A run that copies its payload ends with an image, whatever the checks say. -/
theorem Ready.main_of_copied (h : Ready q allocates files args params datafile imagefile fconf
    directives boot state layout headerSize payload) (hcopy : copyFile payload 0 = .ok copied) :
    main q allocates files args =
      match (setHeader state.iconfig layout payload.length params.toToolParams).2 with
      | .error failure => exitWith (files.write imagefile
          (imageBytes params state layout headerSize payload copied)) failure
      | .ok _ => some ⟨0, files.write imagefile
          (imageBytes params state layout headerSize payload copied),
          ((printHeader (filled state.iconfig layout headerSize copied payload.length
            params.toToolParams)).map (headerText q)).getD []⟩ := by
  rw [h.main_eq, hcopy]
  dsimp only
  rw [h.fillHeader_eq hcopy]
  simp only [Files.write_write]

/-- Nothing but the payload and zeros is behind the header. -/
theorem Ready.fileMemory_imageBytes (h : Ready q allocates files args params datafile imagefile
    fconf directives boot state layout headerSize payload) (copied : List UInt8) :
    fileMemory (imageBytes params state layout headerSize payload copied) =
      filled state.iconfig layout headerSize copied payload.length params.toToolParams := by
  apply fileMemory_read
  intro address haddress
  rw [filled_of_le h.accepted h.qspiFits _ _ _ (by omega), imageFile]
  exact write_of_outside (.inr haddress)

theorem Ready.drop_imageBytes (h : Ready q allocates files args params datafile imagefile
    fconf directives boot state layout headerSize payload) (copied : List UInt8) :
    (imageBytes params state layout headerSize payload copied).drop headerSize = copied := by
  have hbehind : read (filled state.iconfig layout headerSize copied payload.length
      params.toToolParams) (0 + headerSize) copied.length = copied := by
    rw [Nat.zero_add]
    calc read (filled state.iconfig layout headerSize copied payload.length
            params.toToolParams) headerSize copied.length
        = read (imageFile headerSize copied) headerSize copied.length :=
          read_congr fun address hstart _ ↦ filled_of_le h.accepted h.qspiFits _ _ _ hstart
      _ = copied := read_write_self
  rw [imageBytes, read_add, hbehind, List.drop_left' (length_read _ _ _)]

/-- The image is listed if and only if its size is an `int`. -/
theorem Ready.list_eq (h : Ready q allocates files args params datafile imagefile fconf
    directives boot state layout headerSize payload) (hcopy : copyFile payload 0 = .ok copied)
    (himage : IsOperand imagefile) (q' : ArraySorter) (allocates' : ℕ → Bool) :
    main q' allocates' (files.write imagefile
        (imageBytes params state layout headerSize payload copied)) (listArgs imagefile) =
      if headerSize + copiedLength payload < 2 ^ 31 then
        some ⟨0, files.write imagefile
          (imageBytes params state layout headerSize payload copied),
          ((printHeader (filled state.iconfig layout headerSize copied payload.length
            params.toToolParams)).map (headerText q')).getD []⟩
      else fail (files.write imagefile
        (imageBytes params state layout headerSize payload copied)) := by
  obtain ⟨hlength, hbound⟩ := length_of_copyFile hcopy
  have hheader := h.accepted.headerSize_le
  have hivt := ivt_le_headerSize h.accepted
  have hsize : (imageBytes params state layout headerSize payload copied).length =
      headerSize + copied.length := length_read _ _ _
  have hne : imageBytes params state layout headerSize payload copied ≠ [] := by
    have hpos : 0 < IVT_SIZE := by decide
    apply List.ne_nil_of_length_pos
    omega
  have hverify : verifyHeader (filled state.iconfig layout headerSize copied payload.length
      params.toToolParams) (headerSize + copied.length) =
        if headerSize + copiedLength payload < 2 ^ 31 then 0 else -1 := by
    rw [verifyHeader, toInt_imageSize (by omega), hlength]
    split_ifs with hshort hfound hfound
    · rw [getIvt_filled h.accepted payload.length params.toToolParams copied (by omega)] at hfound
      cases hfound
    · rfl
    · rfl
    · have hnegative : ((headerSize + copiedLength payload : ℕ) : ℤ) - 2 ^ 32 <
          QSPI_IVT_OFFSET + IVT_SIZE := by
        unfold QSPI_IVT_OFFSET IVT_SIZE
        omega
      rw [getIvtFromRawBlob, if_pos hnegative] at hfound
      exact absurd rfl hfound
  have hreads : ∀ access ∈ printReads (filled state.iconfig layout headerSize copied payload.length
      params.toToolParams), access.offset + access.width ≤ mapped (headerSize + copied.length) := by
    intro access haccess
    have hle := printReads_filled_le h.accepted payload.length params.toToolParams copied access
      haccess
    have hend := finish_le_headerSize h.accepted (Or.inr (rfl : Part.appCode = .appCode))
    have happSize : (layout .appCode).size = APP_CODE_SIZE := h.accepted.size_eq .appCode
    have hroom : 16 ≤ APP_CODE_SIZE := by decide
    unfold mapped
    omega
  rw [main, readParams_listArgs himage]
  dsimp only
  rw [if_pos rfl, listImage, Files.content_write]
  dsimp only
  rw [if_neg hne, h.fileMemory_imageBytes, hsize, hverify]
  by_cases hshort : headerSize + copiedLength payload < 2 ^ 31
  · rw [if_pos hshort, if_pos hshort, if_neg (by decide), printImage, if_pos hreads]
  · rw [if_neg hshort, if_neg hshort, if_pos (by decide)]

theorem setHeader_error {iconfig : ImageConfig} {toolParams : ToolParams} {stSize : ℕ}
    {failure : Failure} (h : (setHeader iconfig layout stSize toolParams).2 = .error failure) :
    failure = .exit EXIT_FAILURE := by
  unfold setHeader at h
  dsimp only at h
  split_ifs at h <;> exact (Except.error.inj h).symm

/-- **Refused images.** Once the payload is copied, the image is there whatever the checks of the
addresses say, with the payload behind the header. `-l` accepts it when its size is an `int`, also
when the run that made it has failed. -/
theorem listed_iff (h : Ready q allocates files args params datafile imagefile fconf directives boot
    state layout headerSize payload) (hcopy : copyFile payload 0 = .ok copied)
    (himage : IsOperand imagefile) (q' : ArraySorter) (allocates' : ℕ → Bool) :
    ∃ run bytes, main q allocates files args = some run ∧ run.files = files.write imagefile bytes ∧
      bytes.drop headerSize = copied ∧
      (run.status = 0 ↔ params.addr ≤ params.ep ∧ (state.iconfig.flashBoot = true ∨
        inReservedRanges params.addr (alignUp 32 (codeLength state.iconfig payload.length) 512) =
          false)) ∧
      ((∃ text, main q' allocates' run.files (listArgs imagefile) = some ⟨0, run.files, text⟩) ↔
        headerSize + copiedLength payload < 2 ^ 31) := by
  have hlisted : (∃ text, main q' allocates' (files.write imagefile
        (imageBytes params state layout headerSize payload copied)) (listArgs imagefile) =
      some ⟨0, files.write imagefile
        (imageBytes params state layout headerSize payload copied), text⟩) ↔
      headerSize + copiedLength payload < 2 ^ 31 := by
    rw [h.list_eq hcopy himage]
    split_ifs with hshort
    · exact iff_of_true ⟨_, rfl⟩ hshort
    · refine iff_of_false ?_ hshort
      rintro ⟨text, htext⟩
      exact absurd (congrArg Run.status (Option.some.inj htext)) (show EXIT_FAILURE ≠ 0 by decide)
  have hmain := h.main_of_copied hcopy
  have hchecks := setHeader_ok_iff layout payload.length params.toToolParams
    h.accepted.partsInput.dcd_le
  unfold Completes at hchecks
  cases hresult : (setHeader state.iconfig layout payload.length params.toToolParams).2 with
  | error failure =>
    rw [hresult] at hmain hchecks
    rw [setHeader_error hresult] at hmain
    refine ⟨_, _, hmain, rfl, h.drop_imageBytes copied, ?_, hlisted⟩
    rw [← hchecks]
    exact iff_of_false (show EXIT_FAILURE ≠ 0 by decide) (by simp)
  | ok after =>
    rw [hresult] at hmain hchecks
    refine ⟨_, _, hmain, rfl, h.drop_imageBytes copied, ?_, hlisted⟩
    rw [← hchecks]
    exact iff_of_true rfl ⟨after, rfl⟩

theorem eq_of_copyFile (hcopy : copyFile payload 0 = .ok copied)
    (hshort : payload.length < 2 ^ 31) :
    copied = payload := by
  obtain ⟨-, hbound⟩ := length_of_copyFile hcopy
  have hlength : copiedLength payload = payload.length := by
    rw [copiedLength, toInt_imageSize (by omega), if_pos hshort, Int.toNat_natCast]
  have hne : payload ≠ [] := by
    rintro rfl
    exact absurd hcopy (by simp [copyFile])
  rw [copyFile_of_le hne (hlength ▸ hbound)] at hcopy
  exact (Except.ok.inj hcopy).symm

/-- The text of an image does not depend on the implementation of `qsort`. -/
theorem headerText_eq {q q' : ArraySorter} {iconfig : ImageConfig} {length : ℕ} {printed : Printed}
    (h : Lists iconfig layout length (layoutLines q printed))
    (h' : Lists iconfig layout length (layoutLines q' printed)) :
    headerText q printed = headerText q' printed := by
  rw [headerText, headerText, h.unique h']

/-- What a made image is: the payload is behind the header, `-l` prints what making it has printed,
which lists the components in order, and the printed addresses make it again. -/
structure Made (q q' : ArraySorter) (allocates allocates' : ℕ → Bool) (files : Files)
    (params : Params) (datafile imagefile : Word) (state : State) (layout : ProgramImage)
    (headerSize : ℕ) (payload : List UInt8) (run : Run) : Prop where
  image : ∃ bytes, run.files = files.write imagefile bytes ∧ bytes.drop headerSize = payload
  listed : main q' allocates' run.files (listArgs imagefile) = some run
  printed : ∃ printed, run.stdout = headerText q printed ∧
    Lists state.iconfig layout ((codeSize state.iconfig payload + 511) / 512 * 512)
      (layoutLines q printed) ∧
    main q allocates files (createArgs ⟨BitVec.ofNat 32 printed.loadAddress,
      BitVec.ofNat 32 printed.entryPoint⟩ params.imagename datafile imagefile) = some run

/-- The same run from the words that spell its parameters. -/
theorem Ready.respell (h : Ready q allocates files args params datafile imagefile fconf directives
    boot state layout headerSize payload) (himage : IsOperand imagefile) :
    Ready q allocates files (createArgs params.toToolParams params.imagename datafile imagefile)
      { params with dflag := true, eflag := true, lflag := false, datafile := some datafile,
                    imagefile := some imagefile }
      datafile imagefile fconf directives boot state layout headerSize payload :=
  { h with
    spelled := readParams_createArgs params.toToolParams (imagename_ne_nil h.spelled h.making)
      himage
    making := rfl
    dataArg := rfl
    imageArg := rfl }

/-- **Making and listing.** -/
theorem made_of_success (h : Ready q allocates files args params datafile imagefile fconf directives
    boot state layout headerSize payload) (himage : IsOperand imagefile)
    (hrun : main q allocates files args = some run) (hstatus : run.status = 0)
    (hshort : headerSize + payload.length < 2 ^ 31)
    (hcode : codeSize state.iconfig payload + 511 < 2 ^ 32) (q' : ArraySorter)
    (allocates' : ℕ → Bool) :
    Made q q' allocates allocates' files params datafile imagefile state layout headerSize payload
      run := by
  cases hcopy : copyFile payload 0 with
  | error failure =>
    rw [h.main_eq, hcopy] at hrun
    rw [← Option.some.inj hrun] at hstatus
    exact absurd hstatus (show EXIT_FAILURE ≠ 0 by decide)
  | ok copied =>
    obtain rfl := eq_of_copyFile hcopy (by omega)
    have hmain := h.main_of_copied hcopy
    cases hafter : (setHeader state.iconfig layout copied.length params.toToolParams).2 with
    | error failure =>
      rw [hafter, setHeader_error hafter, hrun] at hmain
      rw [Option.some.inj hmain] at hstatus
      exact absurd hstatus (show EXIT_FAILURE ≠ 0 by decide)
    | ok after =>
      have hprinted := printHeader_eq copied h.accepted hafter fun _ ↦ h.qspiFits
      rw [(codeLength_eq_iff _ copied).mpr hcode, ← filled] at hprinted
      rw [hafter, hprinted, hrun] at hmain
      obtain rfl := Option.some.inj hmain
      have hlists (q : ArraySorter) := lists_layoutLines q h.accepted params.toToolParams
        ((codeSize state.iconfig copied + 511) / 512 * 512)
      have hcopied : copiedLength copied = copied.length := (length_of_copyFile hcopy).1.symm
      refine ⟨⟨_, rfl, h.drop_imageBytes copied⟩, ?_, _, rfl, hlists q, ?_⟩
      · rw [h.list_eq hcopy himage, hcopied, if_pos hshort, hprinted, Option.map_some,
          Option.map_some, headerText_eq (hlists q') (hlists q)]
      · have hsame : (⟨BitVec.ofNat 32 params.addr.toNat, BitVec.ofNat 32 params.ep.toNat⟩ :
            ToolParams) = params.toToolParams := by
          simp
        have hagain := (h.respell himage).main_of_copied hcopy
        rw [hafter] at hagain
        dsimp only at hagain
        rw [hprinted] at hagain
        exact (congrArg (fun toolParams ↦ main q allocates files
          (createArgs toolParams params.imagename datafile imagefile)) hsame).trans hagain

end Made

/-- A configuration for SD with all components. -/
def sdConf : List UInt8 :=
  ascii "BOOT_FROM sd\nDCD WRITE 0x4 0x4007c004 0x1\nHSE_FW \"hse.bin\"\nERR051257_WORKAROUND\n"

/-- The configuration, the HSE firmware, and a payload of 7 MiB. -/
def sdFiles : Files where
  content := Function.update (Function.update (Function.update (fun _ ↦ .error 2)
    (ascii "boot.cfg") (.ok sdConf)) (ascii "hse.bin") (equippedFiles "hse.bin"))
    (ascii "app.bin") (.ok shortPayload)
  writable _ := true

def sdParams (toolParams : ToolParams) : Params where
  toToolParams := toolParams
  dflag := true
  eflag := true
  lflag := false
  imagename := ascii "boot.cfg"
  datafile := some (ascii "app.bin")
  imagefile := some (ascii "app.img")

theorem sdReady (toolParams : ToolParams) : ∃ layout headerSize,
    Ready insertionArraySorter (fun _ ↦ true) sdFiles
      (createArgs toolParams (ascii "boot.cfg") (ascii "app.bin") (ascii "app.img"))
      (sdParams toolParams) (ascii "app.bin") (ascii "app.img") sdConf (equippedDirectives .sd)
      .sd (equippedState .sd) layout headerSize shortPayload := by
  have hconf : Config.buildConf (fun _ ↦ true) (sdFiles.write (ascii "app.img") []).byPath
      (equippedDirectives .sd) = .ok (equippedState .sd) := rfl
  obtain ⟨layout, headerSize, hlaidOut⟩ := exists_laidOut hconf (by decide) (by decide) (by decide)
    insertionSorter
  have haccepted : AcceptedConf (fun _ ↦ true) (sdFiles.write (ascii "app.img") []).byPath
      (equippedDirectives .sd) .sd insertionSorter (equippedState .sd) layout headerSize :=
    ⟨hconf, rfl, hlaidOut.layout⟩
  have hlength : shortPayload.length = 0x700000 := List.length_replicate
  have hmapped : mapped 0x700000 = 0x700000 := by decide
  have hreadable : directivesOf (fun _ ↦ true) sdConf = .ok (equippedDirectives .sd) := rfl
  exact ⟨layout, headerSize, readParams_createArgs toolParams (by decide) (.inl (by decide)), rfl,
    rfl, rfl, rfl, by decide, (by decide : ascii "boot.cfg" ≠ ascii "app.img"), rfl, rfl,
    hreadable, haccepted, Nat.zero_le _, hlength.symm ▸ hmapped.symm ▸ haccepted.headerSize_le⟩

theorem copy_shortPayload :
    copyFile shortPayload 0 = .ok shortPayload ∧ copiedLength shortPayload = 0x700000 := by
  have hlength : shortPayload.length = 0x700000 := List.length_replicate
  constructor
  · apply copyFile_of_le
    · apply List.ne_nil_of_length_pos
      rw [hlength]
      decide
    · rw [hlength]
      decide
  · rw [copiedLength, hlength]
    decide

/-- An entry point below the load address. -/
theorem listed_iff_refused : ∃ run, main insertionArraySorter (fun _ ↦ true) sdFiles
      (createArgs ⟨1, 0⟩ (ascii "boot.cfg") (ascii "app.bin") (ascii "app.img")) = some run ∧
    run.status ≠ 0 ∧ ∃ text, main insertionArraySorter (fun _ ↦ true) run.files
      (listArgs (ascii "app.img")) = some ⟨0, run.files, text⟩ := by
  obtain ⟨layout, headerSize, hready⟩ := sdReady ⟨1, 0⟩
  obtain ⟨run, bytes, hrun, -, -, hstatus, hlisted⟩ := listed_iff hready copy_shortPayload.1
    (.inl (by decide)) insertionArraySorter fun _ ↦ true
  have hheader := hready.accepted.headerSize_le
  refine ⟨run, hrun, fun hzero ↦ ?_, hlisted.mpr ?_⟩
  · have hentry : (1 : BitVec 32) ≤ 0 := (hstatus.mp hzero).1
    exact absurd hentry (by decide)
  · rw [copy_shortPayload.2]
    omega

theorem made_of_success_sd : ∃ layout headerSize run,
    Made insertionArraySorter insertionArraySorter (fun _ ↦ true) (fun _ ↦ true) sdFiles
      (sdParams freeParams) (ascii "app.bin") (ascii "app.img") (equippedState .sd) layout
      headerSize shortPayload run := by
  obtain ⟨layout, headerSize, hready⟩ := sdReady freeParams
  have hheader := hready.accepted.headerSize_le
  have hlength : shortPayload.length = 0x700000 := List.length_replicate
  have hcode : codeSize (equippedState .sd).iconfig shortPayload = 0x700000 := by
    rw [codeSize, if_neg (by decide), hlength]
  have hcompletes :
      Completes (equippedState .sd).iconfig shortPayload.length freeParams := by
    rw [hlength]
    decide
  obtain ⟨after, hafter⟩ := (setHeader_ok_iff layout shortPayload.length
    (sdParams freeParams).toToolParams hready.accepted.partsInput.dcd_le).mpr hcompletes
  have hmain := hready.main_of_copied copy_shortPayload.1
  rw [hafter] at hmain
  exact ⟨layout, headerSize, _, made_of_success hready (.inl (by decide)) hmain rfl
    (by rw [hlength]; omega) (by rw [hcode]; decide) insertionArraySorter fun _ ↦ true⟩

end Vodka.Mkimage.Tool
