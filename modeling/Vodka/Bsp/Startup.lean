import Mathlib.Tactic
import Vodka.Foundation.Endian
import Vodka.Foundation.Loop
import Vodka.Foundation.RingMemory
import Vodka.Bsp.Sdram
import Vodka.Syscall.Sbrk

/-!
# Static data after start

`Reset_Handler` fills the sections of the internal memory word by word before
constructors and `main` run. `bsp_init` then tests the external memory, which
overwrites all of it, and fills the sections there byte by byte. The linker script places the
sections by their sizes. Code between the two steps may write anywhere but to
the flash and the external memory. Cache maintenance does not change what the
processor reads and is left out.
-/

namespace Vodka.Bsp.Startup

open Foundation.Endian Foundation.Loop Foundation.RingMemory

open Syscall.Sbrk (HEAP_SIZE GRAM_SIZE)

def TTY_SIZE : ℕ := 0x1000

/-- `ALIGN` of the linker script. -/
def align (boundary address : ℕ) : ℕ := (address + boundary - 1) / boundary * boundary

/-- The sizes of the sections of initialised and zeroed data in both memories, and the powers of two
that the inputs of the zeroed sections are aligned to. -/
structure Sizes where
  dataIntDtcm : ℕ
  bssIntDtcm : ℕ
  bssIntDtcmPower : ℕ
  dataExtSdram : ℕ
  bssExtSdram : ℕ
  bssExtSdramPower : ℕ

namespace Sizes

variable (sizes : Sizes)

def sdataIntDtcm : ℕ := 0x20000000

def edataIntDtcm : ℕ := sdataIntDtcm + sizes.dataIntDtcm

def sbssIntDtcm : ℕ := align 4 (align (2 ^ sizes.bssIntDtcmPower) sizes.edataIntDtcm)

def ebssIntDtcm : ℕ := sizes.sbssIntDtcm + sizes.bssIntDtcm

def sttyIntDtcm : ℕ := align 16 sizes.ebssIntDtcm

def ettyIntDtcm : ℕ := sizes.sttyIntDtcm + TTY_SIZE

def sdataExtSdram : ℕ := 0xC0000000

def edataExtSdram : ℕ := sdataExtSdram + sizes.dataExtSdram

def sbssExtSdram : ℕ := align 4 (align (2 ^ sizes.bssExtSdramPower) sizes.edataExtSdram)

def ebssExtSdram : ℕ := sizes.sbssExtSdram + sizes.bssExtSdram

def sheapExtSdram : ℕ := align 16 sizes.ebssExtSdram

def eheapExtSdram : ℕ := sizes.sheapExtSdram + HEAP_SIZE

def sgram0ExtSdram : ℕ := align 128 sizes.eheapExtSdram

def egram0ExtSdram : ℕ := sizes.sgram0ExtSdram + GRAM_SIZE / 2

def sgram1ExtSdram : ℕ := align 128 sizes.egram0ExtSdram

def egram1ExtSdram : ℕ := sizes.sgram1ExtSdram + GRAM_SIZE / 2

end Sizes

def eextSdram : ℕ := 0xC2000000

/-- A program that the linker accepts: the sections are inside their regions, and the initial
values are in the flash. -/
structure Link extends Sizes where
  sidataIntDtcm : ℕ
  sidataExtSdram : ℕ
  int_dtcm : toSizes.ettyIntDtcm ≤ 0x20020000
  ext_sdram : toSizes.egram1ExtSdram ≤ eextSdram
  int_flash : 0x08000000 ≤ sidataIntDtcm
  images : sidataIntDtcm + dataIntDtcm ≤ sidataExtSdram
  int_flash_end : sidataExtSdram + dataExtSdram ≤ 0x08200000

def address (symbol : ℕ) : BitVec 32 := BitVec.ofNat 32 symbol

section Code

variable (turns : ℕ) (link : Link)

/-- `CopyDataInit` and `LoopCopyDataInit`, with the offset in `r3`. -/
def copyDataInit (memory : Memory 32) : Option (Memory 32 × BitVec 32) :=
  loop (fun (_, r3) ↦ decide (address Sizes.sdataIntDtcm + r3 < address link.edataIntDtcm))
    (fun (memory, r3) ↦ (store memory (address Sizes.sdataIntDtcm + r3)
      (load memory (address link.sidataIntDtcm + r3) 4), r3 + 4)) turns (memory, 0)

/-- `FillZerobss` and `LoopFillZerobss`, with the address in `r2`. -/
def fillZerobss (memory : Memory 32) : Option (Memory 32 × BitVec 32) :=
  loop (fun (_, r2) ↦ decide (r2 < address link.ebssIntDtcm))
    (fun (memory, r2) ↦ (store memory r2 (littleEndian 4 0), r2 + 4)) turns
    (memory, address link.sbssIntDtcm)

/-- `Reset_Handler` up to the static constructors. -/
def resetHandler (memory : Memory 32) : Option (Memory 32) :=
  (copyDataInit turns link memory).bind fun copied ↦
    (fillZerobss turns link copied.1).map Prod.fst

/-- The first loop of `bsp_sdram_test`. -/
def fillSdram (memory : Memory 32) : Option (Memory 32 × BitVec 32) :=
  loop (fun (_, i) ↦ decide (i < Sdram.EEXT_SDRAM))
    (fun (memory, i) ↦ (store memory i (littleEndian 4 (Sdram.pattern i).toNat), i + 4)) turns
    (memory, Sdram.SEXT_SDRAM)

/-- The second loop, which ends early with a message where a word is not the one written. -/
def checkSdram (memory : Memory 32) : Option (BitVec 32) :=
  loop (fun i ↦ decide (i < Sdram.EEXT_SDRAM ∧
    ofLittleEndian (load memory i 4) = (Sdram.pattern i).toNat)) (· + 4) turns Sdram.SEXT_SDRAM

/-- `bsp_sdram_test`: the memory, and whether the message is printed. -/
def bspSdramTest (memory : Memory 32) : Option (Memory 32 × Bool) :=
  (fillSdram turns memory).bind fun filled ↦
    (checkSdram turns filled.1).map fun i ↦ (filled.1, decide (i < Sdram.EEXT_SDRAM))

/-- The first loop of `bsp_earlyinit_crt0`, with `src` and `dst`. -/
def copyData (memory : Memory 32) : Option (Memory 32 × BitVec 32 × BitVec 32) :=
  loop (fun (_, _, dst) ↦ decide (dst < address link.edataExtSdram))
    (fun (memory, src, dst) ↦ (store memory dst (load memory src 1), src + 1, dst + 1)) turns
    (memory, address link.sidataExtSdram, address Sizes.sdataExtSdram)

/-- The second loop of `bsp_earlyinit_crt0`. -/
def zeroBss (memory : Memory 32) : Option (Memory 32 × BitVec 32) :=
  loop (fun (_, dst) ↦ decide (dst < address link.ebssExtSdram))
    (fun (memory, dst) ↦ (store memory dst [0], dst + 1)) turns
    (memory, address link.sbssExtSdram)

def bspEarlyinitCrt0 (memory : Memory 32) : Option (Memory 32) :=
  (copyData turns link memory).bind fun copied ↦ (zeroBss turns link copied.1).map Prod.fst

/-- The memory after the writes of the code in between. -/
def writes (early : List (BitVec 32 × UInt8)) (memory : Memory 32) : Memory 32 :=
  early.foldl (fun memory entry ↦ Function.update memory entry.1 entry.2) memory

/-- From `bsp_init`'s test of the memory on, behind `Reset_Handler` and the code in between. -/
def start (early : List (BitVec 32 × UInt8)) (memory : Memory 32) :
    Option (Memory 32 × Memory 32 × Bool) :=
  (resetHandler turns link memory).bind fun booted ↦
    (bspSdramTest turns (writes early booted)).bind fun tested ↦
      (bspEarlyinitCrt0 turns link tested.1).map fun final ↦ (booted, final, tested.2)

end Code

theorem toNat_address {symbol : ℕ} (h : symbol < 2 ^ 32) : (address symbol).toNat = symbol := by
  rw [address, BitVec.toNat_ofNat, Nat.mod_eq_of_lt h]

theorem address_add (symbol offset : ℕ) :
    address symbol + address offset = address (symbol + offset) := (BitVec.ofNat_add ..).symm

theorem address_lt_iff {symbol limit : ℕ} (h : symbol < 2 ^ 32) (hlimit : limit < 2 ^ 32) :
    address symbol < address limit ↔ symbol < limit := by
  rw [BitVec.lt_def, toNat_address h, toNat_address hlimit]

theorem align_spec {boundary : ℕ} (hpos : 0 < boundary) (symbol : ℕ) :
    symbol ≤ align boundary symbol ∧ align boundary symbol < symbol + boundary ∧
      align boundary symbol % boundary = 0 := by
  have hdiv := Nat.div_add_mod (symbol + boundary - 1) boundary
  have hmod := Nat.mod_lt (symbol + boundary - 1) hpos
  rw [align, Nat.mul_mod_left, Nat.mul_comm]
  omega

variable {memory : Memory 32} {link : Link} {turns : ℕ}

/-- Bytes loaded from outside a run are those of the memory. -/
theorem load_overlay {first count source width : ℕ} {content : ℕ → UInt8}
    (hfits : source + width ≤ 2 ^ 32)
    (houtside : source + width ≤ first ∨ first + count ≤ source) :
    load (overlay memory first count content) (address source) width =
      (List.range width).map fun i ↦ memory (address (source + i)) := by
  refine List.map_congr_left fun i hi ↦ ?_
  have hi : i < width := List.mem_range.mp hi
  have hat : (address (source + i)).toNat = source + i := toNat_address (by omega)
  change overlay memory first count content (address source + address i) = _
  rw [address_add, overlay, hat, if_neg (by omega)]

theorem load_overlay_inside {first count j width : ℕ} {content : ℕ → UInt8}
    (hfits : first + count ≤ 2 ^ 32) (hinside : j + width ≤ count) :
    load (overlay memory first count content) (address (first + j)) width =
      (List.range width).map fun i ↦ content (j + i) := by
  refine List.map_congr_left fun i hi ↦ ?_
  have hi : i < width := List.mem_range.mp hi
  have hat : (address (first + j + i)).toNat = first + j + i := toNat_address (by omega)
  change overlay memory first count content (address (first + j) + address i) = _
  rw [address_add, overlay, hat, if_pos (by omega)]
  congr 1
  omega

/-! ## The loops -/

/-- The initial values from an address of the flash on. -/
def image (memory : Memory 32) (source j : ℕ) : UInt8 := memory (address (source + j))

/-- The sections are where the script places them. -/
theorem Link.bounds (link : Link) :
    (link.edataIntDtcm ≤ link.sbssIntDtcm ∧ link.sbssIntDtcm % 4 = 0) ∧
      (link.ebssIntDtcm ≤ link.sttyIntDtcm ∧ link.sttyIntDtcm % 16 = 0) ∧
      (link.edataExtSdram ≤ link.sbssExtSdram ∧ link.ebssExtSdram ≤ eextSdram) ∧
      link.sttyIntDtcm ≤ 0x2001F000 := by
  have hinputs := align_spec (Nat.two_pow_pos link.bssIntDtcmPower) link.edataIntDtcm
  have hbss := align_spec (by decide : 0 < 4)
    (align (2 ^ link.bssIntDtcmPower) link.edataIntDtcm)
  have hextInputs := align_spec (Nat.two_pow_pos link.bssExtSdramPower) link.edataExtSdram
  have htty := align_spec (by decide : 0 < 16) link.ebssIntDtcm
  have hext := align_spec (by decide : 0 < 4)
    (align (2 ^ link.bssExtSdramPower) link.edataExtSdram)
  have hheap := align_spec (by decide : 0 < 16) link.ebssExtSdram
  have hgram0 := align_spec (by decide : 0 < 128) link.eheapExtSdram
  have hgram1 := align_spec (by decide : 0 < 128) link.egram0ExtSdram
  have hdtcm := link.int_dtcm
  have hsdram := link.ext_sdram
  simp only [Sizes.ettyIntDtcm, Sizes.egram1ExtSdram, Sizes.sgram1ExtSdram, Sizes.egram0ExtSdram,
    Sizes.sgram0ExtSdram, Sizes.eheapExtSdram, Sizes.sheapExtSdram, TTY_SIZE, HEAP_SIZE,
    Sizes.sttyIntDtcm, Sizes.sbssIntDtcm, Sizes.sbssExtSdram] at *
  omega

section Reset

variable (link : Link) (memory : Memory 32) (k : ℕ)

/-- The state before a turn of `CopyDataInit`. -/
def copied : Memory 32 × BitVec 32 :=
  (overlay memory Sizes.sdataIntDtcm (4 * k) (image memory link.sidataIntDtcm), address (4 * k))

/-- The state before a turn of `FillZerobss`. -/
def zeroed : Memory 32 × BitVec 32 :=
  (overlay memory link.sbssIntDtcm (4 * k) fun _ ↦ 0, address (link.sbssIntDtcm + 4 * k))

/-- A byte of the pattern of the test, by its distance from the start of the memory. -/
def patternByte (j : ℕ) : UInt8 :=
  (littleEndian 4 (Sdram.pattern (address (Sizes.sdataExtSdram + 4 * (j / 4)))).toNat).getD
    (j % 4) 0

/-- The state before a turn of the first loop of the test. -/
def filled : Memory 32 × BitVec 32 :=
  (overlay memory Sizes.sdataExtSdram (4 * k) patternByte, address (Sizes.sdataExtSdram + 4 * k))

/-- The state before a turn of the first loop of `bsp_earlyinit_crt0`. -/
def copiedExt : Memory 32 × BitVec 32 × BitVec 32 :=
  (overlay memory Sizes.sdataExtSdram k (image memory link.sidataExtSdram),
    address (link.sidataExtSdram + k), address (Sizes.sdataExtSdram + k))

/-- The state before a turn of the second loop of `bsp_earlyinit_crt0`. -/
def zeroedExt : Memory 32 × BitVec 32 :=
  (overlay memory link.sbssExtSdram k fun _ ↦ 0, address (link.sbssExtSdram + k))

end Reset

/-- The script gives the bounds that `sbrk` relies on. -/
def Link.heapBounds (link : Link) : Syscall.Sbrk.HeapBounds :=
  have hinputs := align_spec (Nat.two_pow_pos link.bssExtSdramPower) link.edataExtSdram
  have hext := align_spec (by decide : 0 < 4)
    (align (2 ^ link.bssExtSdramPower) link.edataExtSdram)
  have hheap := align_spec (by decide : 0 < 16) link.ebssExtSdram
  have hgram0 := align_spec (by decide : 0 < 128) link.eheapExtSdram
  have hgram1 := align_spec (by decide : 0 < 128) link.egram0ExtSdram
  have hfits : link.eheapExtSdram + GRAM_SIZE ≤ eextSdram := by
    have hsdram := link.ext_sdram
    have hgram : GRAM_SIZE = 2 * (GRAM_SIZE / 2) := rfl
    simp only [Sizes.egram1ExtSdram, Sizes.sgram1ExtSdram, Sizes.egram0ExtSdram,
      Sizes.sgram0ExtSdram] at *
    omega
  have hstart : Sizes.sdataExtSdram ≤ link.sheapExtSdram := by
    simp only [Sizes.sheapExtSdram, Sizes.ebssExtSdram, Sizes.sbssExtSdram,
      Sizes.edataExtSdram] at *
    omega
  have hhigh : link.eheapExtSdram = link.sheapExtSdram + HEAP_SIZE := rfl
  have hlast : eextSdram = 0xC2000000 := rfl
  have hlow : (address link.sheapExtSdram).toNat = link.sheapExtSdram := toNat_address (by omega)
  have htop : (address link.eheapExtSdram).toNat = link.eheapExtSdram := toNat_address (by omega)
  { heapLow := address link.sheapExtSdram
    heapHigh := address link.eheapExtSdram
    origin_le := by
      rw [hlow]
      exact hstart
    aligned := by
      rw [hlow]
      exact hheap.2.2
    high_eq := by rw [htop, hlow, hhigh]
    fits := by
      rw [htop]
      exact hfits }

/-- The words of initialised data, the last one with up to three bytes behind the section. -/
theorem copyDataInit_eq (hturns : 2 ^ 25 < turns) :
    copyDataInit turns link memory = some (copied link memory ((link.dataIntDtcm + 3) / 4)) := by
  have hbounds := link.bounds
  have hflash := link.int_flash
  have himages := link.images
  have hend := link.int_flash_end
  have hstart : Sizes.sdataIntDtcm = 0x20000000 := rfl
  have hdata : link.edataIntDtcm = Sizes.sdataIntDtcm + link.dataIntDtcm := rfl
  have hzero : copied link memory 0 = (memory, 0) := by
    rw [copied, Nat.mul_zero, overlay_zero]
    rfl
  have hcondition {k : ℕ} (hk : k ≤ (link.dataIntDtcm + 3) / 4) :
      address Sizes.sdataIntDtcm + address (4 * k) < address link.edataIntDtcm ↔
        k < (link.dataIntDtcm + 3) / 4 := by
    rw [address_add, address_lt_iff (by omega) (by omega)]
    omega
  rw [copyDataInit, ← hzero]
  refine loop_of_trace (copied link memory) (fun k hk ↦ ?_) (fun k hk ↦ ?_) ?_ (by omega)
  · exact decide_eq_true ((hcondition hk.le).mpr hk)
  · refine Prod.ext ?_ (address_add ..)
    simp only [copied, address_add]
    rw [load_overlay (by omega) (by omega)]
    have hword : ((List.range 4).map fun i ↦
        memory (address (link.sidataIntDtcm + 4 * k + i))) =
        (List.range 4).map fun i ↦ image memory link.sidataIntDtcm (4 * k + i) :=
      List.map_congr_left fun i _ ↦ by rw [image, Nat.add_assoc]
    rw [hword, store_overlay (by omega) (toNat_address (by omega))]
    rfl
  · exact decide_eq_false (mt (hcondition le_rfl).mp (Nat.lt_irrefl _))

theorem fillZerobss_eq (hturns : 2 ^ 25 < turns) :
    fillZerobss turns link memory = some (zeroed link memory ((link.bssIntDtcm + 3) / 4)) := by
  have hbounds := link.bounds
  have hstart : Sizes.sdataIntDtcm = 0x20000000 := rfl
  have hdata : link.edataIntDtcm = Sizes.sdataIntDtcm + link.dataIntDtcm := rfl
  have hbss : link.ebssIntDtcm = link.sbssIntDtcm + link.bssIntDtcm := rfl
  have hzero : zeroed link memory 0 = (memory, address link.sbssIntDtcm) := by
    rw [zeroed, Nat.mul_zero, overlay_zero, Nat.add_zero]
  have hcondition {k : ℕ} (hk : k ≤ (link.bssIntDtcm + 3) / 4) :
      address (link.sbssIntDtcm + 4 * k) < address link.ebssIntDtcm ↔
        k < (link.bssIntDtcm + 3) / 4 := by
    rw [address_lt_iff (by omega) (by omega)]
    omega
  rw [fillZerobss, ← hzero]
  refine loop_of_trace (zeroed link memory) (fun k hk ↦ ?_) (fun k hk ↦ ?_) ?_ (by omega)
  · exact decide_eq_true ((hcondition hk.le).mpr hk)
  · refine Prod.ext ?_ (address_add ..)
    have hword : littleEndian 4 0 = (List.range 4).map fun _ ↦ 0 := rfl
    simp only [zeroed]
    rw [hword]
    exact store_overlay (by omega) (toNat_address (by omega))
  · exact decide_eq_false (mt (hcondition le_rfl).mp (Nat.lt_irrefl _))

/-- A word of the pattern, byte by byte. -/
theorem littleEndian_pattern (k : ℕ) :
    littleEndian 4 (Sdram.pattern (address (Sizes.sdataExtSdram + 4 * k))).toNat =
      (List.range 4).map fun i ↦ patternByte (4 * k + i) := by
  have hword : ∀ i < 4, patternByte (4 * k + i) =
      (littleEndian 4 (Sdram.pattern (address (Sizes.sdataExtSdram + 4 * k))).toNat).getD i 0 := by
    intro i hi
    rw [patternByte, show (4 * k + i) / 4 = k by omega, show (4 * k + i) % 4 = i by omega]
  generalize (Sdram.pattern (address (Sizes.sdataExtSdram + 4 * k))).toNat = value at hword ⊢
  rw [List.map_congr_left fun i hi ↦ hword i (List.mem_range.mp hi)]
  rfl

/-- The loops of the test pass the words of the external memory. -/
theorem word_lt_iff {k : ℕ} (hk : k ≤ 2 ^ 23) :
    address (Sizes.sdataExtSdram + 4 * k) < Sdram.EEXT_SDRAM ↔ k < 2 ^ 23 := by
  have hstart : Sizes.sdataExtSdram = 0xC0000000 := rfl
  have hend : Sdram.EEXT_SDRAM = address 0xC2000000 := rfl
  rw [hend, address_lt_iff (by omega) (by omega)]
  omega

theorem fillSdram_eq (hturns : 2 ^ 25 < turns) :
    fillSdram turns memory = some (filled memory (2 ^ 23)) := by
  have hstart : Sizes.sdataExtSdram = 0xC0000000 := rfl
  have hzero : filled memory 0 = (memory, Sdram.SEXT_SDRAM) := by
    rw [filled, Nat.mul_zero, overlay_zero]
    rfl
  rw [fillSdram, ← hzero]
  refine loop_of_trace (filled memory) (fun k hk ↦ ?_) (fun k hk ↦ ?_) ?_ (by omega)
  · exact decide_eq_true ((word_lt_iff hk.le).mpr hk)
  · refine Prod.ext ?_ (address_add ..)
    simp only [filled]
    rw [littleEndian_pattern]
    exact store_overlay (by omega) (toNat_address (by omega))
  · exact decide_eq_false (mt (word_lt_iff le_rfl).mp (Nat.lt_irrefl _))

/-- Every word of the pattern is read back. -/
theorem load_filled {k : ℕ} (hk : k < 2 ^ 23) :
    ofLittleEndian (load (filled memory (2 ^ 23)).1 (address (Sizes.sdataExtSdram + 4 * k)) 4) =
      (Sdram.pattern (address (Sizes.sdataExtSdram + 4 * k))).toNat := by
  have hload : load (filled memory (2 ^ 23)).1 (address (Sizes.sdataExtSdram + 4 * k)) 4 =
      littleEndian 4 (Sdram.pattern (address (Sizes.sdataExtSdram + 4 * k))).toNat := by
    rw [littleEndian_pattern]
    exact load_overlay_inside (by decide) (by omega)
  have hlt : (Sdram.pattern (address (Sizes.sdataExtSdram + 4 * k))).toNat < 256 ^ 4 :=
    lt_of_lt_of_le (BitVec.isLt _) (by norm_num)
  rw [hload, ofLittleEndian_littleEndian, Nat.mod_eq_of_lt hlt]

/-- The test prints no message on a plain memory. -/
theorem bspSdramTest_eq (hturns : 2 ^ 25 < turns) :
    bspSdramTest turns memory = some ((filled memory (2 ^ 23)).1, false) := by
  have hcheck : checkSdram turns (filled memory (2 ^ 23)).1 =
      some (address (Sizes.sdataExtSdram + 4 * 2 ^ 23)) := by
    refine loop_of_trace (fun k ↦ address (Sizes.sdataExtSdram + 4 * k)) (fun k hk ↦ ?_)
      (fun k hk ↦ address_add ..) ?_ (by omega)
    · exact decide_eq_true ⟨(word_lt_iff hk.le).mpr hk, load_filled hk⟩
    · exact decide_eq_false fun h ↦ Nat.lt_irrefl _ ((word_lt_iff le_rfl).mp h.1)
  rw [bspSdramTest, fillSdram_eq hturns, Option.bind_some, hcheck]
  rfl

theorem copyData_eq (hturns : 2 ^ 25 < turns) :
    copyData turns link memory = some (copiedExt link memory link.dataExtSdram) := by
  have hbounds := link.bounds
  have himages := link.images
  have hend := link.int_flash_end
  have hstart : Sizes.sdataExtSdram = 0xC0000000 := rfl
  have hdata : link.edataExtSdram = Sizes.sdataExtSdram + link.dataExtSdram := rfl
  have hbss : link.ebssExtSdram = link.sbssExtSdram + link.bssExtSdram := rfl
  have hlast : eextSdram = 0xC2000000 := rfl
  have hzero : copiedExt link memory 0 =
      (memory, address link.sidataExtSdram, address Sizes.sdataExtSdram) := by
    rw [copiedExt, overlay_zero, Nat.add_zero, Nat.add_zero]
  have hcondition {k : ℕ} (hk : k ≤ link.dataExtSdram) :
      address (Sizes.sdataExtSdram + k) < address link.edataExtSdram ↔ k < link.dataExtSdram := by
    rw [address_lt_iff (by omega) (by omega)]
    omega
  rw [copyData, ← hzero]
  refine loop_of_trace (copiedExt link memory) (fun k hk ↦ ?_) (fun k hk ↦ ?_) ?_ (by omega)
  · exact decide_eq_true ((hcondition hk.le).mpr hk)
  · refine Prod.ext ?_ (Prod.ext (address_add _ 1) (address_add _ 1))
    simp only [copiedExt]
    rw [load_overlay (by omega) (by omega)]
    have hbyte : ((List.range 1).map fun i ↦ memory (address (link.sidataExtSdram + k + i))) =
        (List.range 1).map fun i ↦ image memory link.sidataExtSdram (k + i) :=
      List.map_congr_left fun i _ ↦ by rw [image, Nat.add_assoc]
    rw [hbyte, store_overlay (by omega) (toNat_address (by omega))]
  · exact decide_eq_false (mt (hcondition le_rfl).mp (Nat.lt_irrefl _))

theorem zeroBss_eq (hturns : 2 ^ 25 < turns) :
    zeroBss turns link memory = some (zeroedExt link memory link.bssExtSdram) := by
  have hbounds := link.bounds
  have hstart : Sizes.sdataExtSdram = 0xC0000000 := rfl
  have hdata : link.edataExtSdram = Sizes.sdataExtSdram + link.dataExtSdram := rfl
  have hbss : link.ebssExtSdram = link.sbssExtSdram + link.bssExtSdram := rfl
  have hlast : eextSdram = 0xC2000000 := rfl
  have hzero : zeroedExt link memory 0 = (memory, address link.sbssExtSdram) := by
    rw [zeroedExt, overlay_zero, Nat.add_zero]
  have hcondition {k : ℕ} (hk : k ≤ link.bssExtSdram) :
      address (link.sbssExtSdram + k) < address link.ebssExtSdram ↔ k < link.bssExtSdram := by
    rw [address_lt_iff (by omega) (by omega)]
    omega
  rw [zeroBss, ← hzero]
  refine loop_of_trace (zeroedExt link memory) (fun k hk ↦ ?_) (fun k hk ↦ ?_) ?_ (by omega)
  · exact decide_eq_true ((hcondition hk.le).mpr hk)
  · refine Prod.ext ?_ (address_add _ 1)
    have hbyte : ([0] : List UInt8) = (List.range 1).map fun _ ↦ 0 := rfl
    simp only [zeroedExt]
    rw [hbyte]
    exact store_overlay (by omega) (toNat_address (by omega))
  · exact decide_eq_false (mt (hcondition le_rfl).mp (Nat.lt_irrefl _))

/-! ## The whole start -/

/-- The value that an object of static storage duration starts from, by its address. -/
def initial (memory : Memory 32) (source sdata edata sbss ebss : ℕ) (a : BitVec 32) :
    Option UInt8 :=
  if sdata ≤ a.toNat ∧ a.toNat < edata then some (image memory source (a.toNat - sdata))
  else if sbss ≤ a.toNat ∧ a.toNat < ebss then some 0
  else none

/-- The address is of the flash or of the external memory. -/
def Reserved (a : BitVec 32) : Prop :=
  0x08000000 ≤ a.toNat ∧ a.toNat < 0x08200000 ∨
    Sizes.sdataExtSdram ≤ a.toNat ∧ a.toNat < eextSdram

instance (a : BitVec 32) : Decidable (Reserved a) := inferInstanceAs (Decidable (_ ∨ _))

/-- Static data has its initial values, in the internal memory before `main` and in the
external memory behind its test. Nothing else in the internal memory is touched, and the rest of
the external memory is left with the pattern of the test. -/
structure Initialised (link : Link) (early : List (BitVec 32 × UInt8))
    (memory booted final : Memory 32) : Prop where
  int : ∀ a value, initial memory link.sidataIntDtcm Sizes.sdataIntDtcm link.edataIntDtcm
    link.sbssIntDtcm link.ebssIntDtcm a = some value → booted a = value
  around : ∀ a, ¬ (Sizes.sdataIntDtcm ≤ a.toNat ∧ a.toNat < link.sttyIntDtcm) →
    booted a = memory a
  ext : ∀ a value, initial memory link.sidataExtSdram Sizes.sdataExtSdram link.edataExtSdram
    link.sbssExtSdram link.ebssExtSdram a = some value → final a = value
  rest : ∀ a, Sizes.sdataExtSdram ≤ a.toNat → a.toNat < eextSdram →
    initial memory link.sidataExtSdram Sizes.sdataExtSdram link.edataExtSdram
      link.sbssExtSdram link.ebssExtSdram a = none →
    final a = patternByte (a.toNat - Sizes.sdataExtSdram)
  kept : ∀ a, ¬ (Sizes.sdataExtSdram ≤ a.toNat ∧ a.toNat < eextSdram) →
    final a = writes early booted a

/-- The memory behind `Reset_Handler`. -/
def bootedMemory (link : Link) (memory : Memory 32) : Memory 32 :=
  (zeroed link (copied link memory ((link.dataIntDtcm + 3) / 4)).1
    ((link.bssIntDtcm + 3) / 4)).1

/-- The memory behind `bsp_earlyinit_crt0`. -/
def finalMemory (link : Link) (memory : Memory 32) : Memory 32 :=
  (zeroedExt link (copiedExt link (filled memory (2 ^ 23)).1 link.dataExtSdram).1
    link.bssExtSdram).1

theorem start_eq (hturns : 2 ^ 25 < turns) (early : List (BitVec 32 × UInt8)) :
    start turns link early memory = some (bootedMemory link memory,
      finalMemory link (writes early (bootedMemory link memory)), false) := by
  have hreset : resetHandler turns link memory = some (bootedMemory link memory) := by
    rw [resetHandler, copyDataInit_eq hturns, Option.bind_some, fillZerobss_eq hturns]
    rfl
  rw [start, hreset, Option.bind_some, bspSdramTest_eq hturns, Option.bind_some, bspEarlyinitCrt0,
    copyData_eq hturns, Option.bind_some, zeroBss_eq hturns]
  rfl

theorem writes_of_outside {early : List (BitVec 32 × UInt8)} {a : BitVec 32}
    (h : ∀ entry ∈ early, entry.1 ≠ a) : writes early memory a = memory a := by
  induction early generalizing memory with
  | nil => rfl
  | cons entry early ih =>
    rw [List.forall_mem_cons] at h
    calc writes (entry :: early) memory a
        = writes early (Function.update memory entry.1 entry.2) a := rfl
      _ = Function.update memory entry.1 entry.2 a := ih h.2
      _ = memory a := Function.update_of_ne h.1.symm _ _

theorem bootedMemory_apply (link : Link) (memory : Memory 32) (a : BitVec 32) :
    bootedMemory link memory a =
      if link.sbssIntDtcm ≤ a.toNat ∧
          a.toNat < link.sbssIntDtcm + 4 * ((link.bssIntDtcm + 3) / 4) then 0
      else if Sizes.sdataIntDtcm ≤ a.toNat ∧
          a.toNat < Sizes.sdataIntDtcm + 4 * ((link.dataIntDtcm + 3) / 4) then
        image memory link.sidataIntDtcm (a.toNat - Sizes.sdataIntDtcm)
      else memory a := rfl

theorem finalMemory_apply (link : Link) (memory : Memory 32) (a : BitVec 32) :
    finalMemory link memory a =
      if link.sbssExtSdram ≤ a.toNat ∧ a.toNat < link.ebssExtSdram then 0
      else if Sizes.sdataExtSdram ≤ a.toNat ∧ a.toNat < link.edataExtSdram then
        image (filled memory (2 ^ 23)).1 link.sidataExtSdram (a.toNat - Sizes.sdataExtSdram)
      else (filled memory (2 ^ 23)).1 a := rfl

theorem filled_apply (memory : Memory 32) (a : BitVec 32) :
    (filled memory (2 ^ 23)).1 a =
      if Sizes.sdataExtSdram ≤ a.toNat ∧ a.toNat < eextSdram then
        patternByte (a.toNat - Sizes.sdataExtSdram)
      else memory a := by
  have hend : Sizes.sdataExtSdram + 4 * 2 ^ 23 = eextSdram := by decide
  simp only [filled, overlay, hend]

/-- **Static data.** For every program that the linker accepts and every code in between, the
start returns, the test of the memory prints nothing, and all static data has its initial values:
the word copies of `Reset_Handler` run over the ends of their sections into padding only. -/
theorem start_initialised (link : Link) (early : List (BitVec 32 × UInt8))
    (hearly : ∀ entry ∈ early, ¬ Reserved entry.1) (memory : Memory 32)
    (hturns : 2 ^ 25 < turns) :
    ∃ booted final, start turns link early memory = some (booted, final, false) ∧
      Initialised link early memory booted final := by
  have hbounds := link.bounds
  have hflash := link.int_flash
  have himages := link.images
  have hend := link.int_flash_end
  have hstart : Sizes.sdataIntDtcm = 0x20000000 := rfl
  have hdata : link.edataIntDtcm = Sizes.sdataIntDtcm + link.dataIntDtcm := rfl
  have hbss : link.ebssIntDtcm = link.sbssIntDtcm + link.bssIntDtcm := rfl
  have hstartExt : Sizes.sdataExtSdram = 0xC0000000 := rfl
  have hdataExt : link.edataExtSdram = Sizes.sdataExtSdram + link.dataExtSdram := rfl
  have hbssExt : link.ebssExtSdram = link.sbssExtSdram + link.bssExtSdram := rfl
  have hlast : eextSdram = 0xC2000000 := rfl
  have haround (a : BitVec 32)
      (ha : ¬ (Sizes.sdataIntDtcm ≤ a.toNat ∧ a.toNat < link.sttyIntDtcm)) :
      bootedMemory link memory a = memory a := by
    rw [bootedMemory_apply, if_neg (by omega), if_neg (by omega)]
  refine ⟨_, _, start_eq hturns early, ⟨fun a value h ↦ ?_, haround, fun a value h ↦ ?_,
    fun a hfirst hlt h ↦ ?_, fun a ha ↦ ?_⟩⟩
  · unfold initial at h
    rw [bootedMemory_apply]
    split_ifs at h with hd hb
    · rw [if_neg (by omega), if_pos (by omega)]
      exact Option.some_injective _ h
    · rw [if_pos (by omega)]
      exact Option.some_injective _ h
  · unfold initial at h
    rw [finalMemory_apply]
    split_ifs at h with hd hb
    · rw [if_neg (by omega), if_pos hd]
      -- The image is read from the flash, which no step has written to.
      have hsource : (address (link.sidataExtSdram + (a.toNat - Sizes.sdataExtSdram))).toNat =
          link.sidataExtSdram + (a.toNat - Sizes.sdataExtSdram) := toNat_address (by omega)
      have hreserved : Reserved (address (link.sidataExtSdram + (a.toNat - Sizes.sdataExtSdram))) :=
        Or.inl (by omega)
      rw [image, filled_apply, if_neg (by omega),
        writes_of_outside fun entry hentry heq ↦ hearly entry hentry (heq ▸ hreserved),
        haround _ (by omega)]
      exact Option.some_injective _ h
    · rw [if_pos hb]
      exact Option.some_injective _ h
  · unfold initial at h
    split_ifs at h with hd hb
    rw [finalMemory_apply, if_neg hb, if_neg hd, filled_apply, if_pos ⟨hfirst, hlt⟩]
  · rw [finalMemory_apply, if_neg (by omega), if_neg (by omega), filled_apply, if_neg ha]

/-- A program with a few bytes of static data, the zeroed ones aligned to a cache line and to eight
bytes. -/
def smallLink : Link where
  dataIntDtcm := 6
  bssIntDtcm := 5
  bssIntDtcmPower := 5
  dataExtSdram := 3
  bssExtSdram := 10
  bssExtSdramPower := 3
  sidataIntDtcm := 0x08010000
  sidataExtSdram := 0x08010008
  int_dtcm := by decide
  ext_sdram := by decide
  int_flash := by decide
  images := by decide
  int_flash_end := by decide

theorem start_initialised_small :
    ∃ booted final, start (2 ^ 25 + 1) smallLink [(0x20000000, 9)] (fun _ ↦ 7) =
        some (booted, final, false) ∧
      (booted 0x20000005 = 7 ∧ booted 0x20000020 = 0) ∧ final 0x20000000 = 9 ∧
      final 0xC0000002 = 7 ∧ final 0xC0000008 = 0 := by
  have hearly : ¬Reserved 0x20000000 := by
    simp [Reserved, Sizes.sdataExtSdram]
  obtain ⟨booted, final, hstart, h⟩ :=
    start_initialised smallLink [(0x20000000, 9)] (List.forall_mem_singleton.2 hearly) (fun _ ↦ 7)
      (Nat.lt_succ_self (2 ^ 25))
  refine ⟨booted, final, hstart, ⟨h.int _ 7 (by decide), h.int _ 0 (by decide)⟩, ?_,
    h.ext _ 7 (by decide), h.ext _ 0 (by decide)⟩
  rw [h.kept _ (by decide)]
  rfl

end Vodka.Bsp.Startup
