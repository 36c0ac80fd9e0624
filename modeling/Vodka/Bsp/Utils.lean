import Mathlib.Tactic
import Vodka.Foundation.Ranges

/-!
# Looking up peripherals

`bsp_utils_get_periph` fills a descriptor from the table of peripherals, by an
address in the range of the peripheral or, without an address, by the name. The
search by address goes on until a base address is not below the wanted one, so
it finds the wanted peripheral at its base address and behind the last base of
the table, and its successor elsewhere. The search by name compares ten
characters, one less than the longest names have.
-/

namespace Vodka.Bsp.Utils

open Foundation.Ranges

def ENODEV : ℤ := 19

def EINVAL : ℤ := 22

/-- The clock functions that the buses name. -/
inductive GetFreq
  | halRccGetPclk1Freq
  | halRccGetPclk2Freq
  | halRccGetHclkFreq
  | halRccExGetD1Pclk1Freq
  | halRccExGetD3Pclk1Freq
  deriving DecidableEq

/-- `struct bsp_utils_bus_des` -/
structure BspUtilsBusDes where
  addrLo : ℕ
  addrHi : ℕ
  name : String
  getFreq : GetFreq
  deriving DecidableEq

/-- `struct bsp_utils_periph_des`: a name or a bus is none for a null pointer. -/
structure BspUtilsPeriphDes where
  addrLo : ℕ
  addrHi : ℕ
  name : Option String
  busDes : Option BspUtilsBusDes
  deriving DecidableEq

def apb1Des : BspUtilsBusDes := ⟨0x40000000, 0x4000D400, "apb1", .halRccGetPclk1Freq⟩

def apb2Des : BspUtilsBusDes := ⟨0x40010000, 0x40017800, "apb2", .halRccGetPclk2Freq⟩

def ahb1Des : BspUtilsBusDes := ⟨0x40020000, 0x400C0000, "ahb1", .halRccGetHclkFreq⟩

def ahb2Des : BspUtilsBusDes := ⟨0x48020000, 0x48022C00, "ahb2", .halRccGetHclkFreq⟩

def apb3Des : BspUtilsBusDes := ⟨0x50000000, 0x50004000, "apb3", .halRccExGetD1Pclk1Freq⟩

def ahb3Des : BspUtilsBusDes := ⟨0x51000000, 0x52009000, "ahb3", .halRccGetHclkFreq⟩

def apb4Des : BspUtilsBusDes := ⟨0x58000000, 0x58006C00, "apb4", .halRccExGetD3Pclk1Freq⟩

/-- An entry of the table of peripherals. -/
def periph (addrLo addrHi : ℕ) (name : String) (busDes : BspUtilsBusDes) : BspUtilsPeriphDes :=
  ⟨addrLo, addrHi, some name, some busDes⟩

/-- The last entry of the table. -/
def hsemDes : BspUtilsPeriphDes := periph 0x58026400 0x580267FF "HSEM" apb4Des

/-- `bsp_utils_periph_des` -/
def bspUtilsPeriphDes : List BspUtilsPeriphDes :=
  [ periph 0x40000000 0x400003FF "TIM2" apb1Des,
    periph 0x40000400 0x400007FF "TIM3" apb1Des,
    periph 0x40000800 0x40000BFF "TIM4" apb1Des,
    periph 0x40000C00 0x40000FFF "TIM5" apb1Des,
    periph 0x40001000 0x400013FF "TIM6" apb1Des,
    periph 0x40001400 0x400017FF "TIM7" apb1Des,
    periph 0x40001800 0x40001BFF "TIM12" apb1Des,
    periph 0x40001C00 0x40001FFF "TIM13" apb1Des,
    periph 0x40002000 0x400023FF "TIM14" apb1Des,
    periph 0x40002400 0x400027FF "LPTIM1" apb1Des,
    periph 0x40002C00 0x40002FFF "RESERVED" apb1Des,
    periph 0x40003800 0x40003BFF "SPI2" apb1Des,
    periph 0x40003C00 0x40003FFF "SPI3" apb1Des,
    periph 0x40004000 0x400043FF "SPDIFRX" apb1Des,
    periph 0x40004400 0x400047FF "USART2" apb1Des,
    periph 0x40004800 0x40004BFF "USART3" apb1Des,
    periph 0x40004C00 0x40004FFF "UART4" apb1Des,
    periph 0x40005000 0x400053FF "UART5" apb1Des,
    periph 0x40005400 0x400057FF "I2C1" apb1Des,
    periph 0x40005800 0x40005BFF "I2C2" apb1Des,
    periph 0x40005C00 0x40005FFF "I2C3" apb1Des,
    periph 0x40006C00 0x40006FFF "HDMI_CEC" apb1Des,
    periph 0x40007400 0x400077FF "DAC1" apb1Des,
    periph 0x40007800 0x40007BFF "UART7" apb1Des,
    periph 0x40007C00 0x40007FFF "UART8" apb1Des,
    periph 0x40008400 0x400087FF "CRS" apb1Des,
    periph 0x40008800 0x40008BFF "SWPMI" apb1Des,
    periph 0x40009000 0x400093FF "OPAMP" apb1Des,
    periph 0x40009400 0x400097FF "MDIOS" apb1Des,
    periph 0x4000A000 0x4000A3FF "FDCAN1" apb1Des,
    periph 0x4000A400 0x4000A7FF "FDCAN2" apb1Des,
    periph 0x4000A800 0x4000D3FF "FDCAN" apb1Des,
    periph 0x40010000 0x400103FF "TIM1" apb2Des,
    periph 0x40010400 0x400107FF "TIM8" apb2Des,
    periph 0x40011000 0x400113FF "USART1" apb2Des,
    periph 0x40011400 0x400117FF "USART6" apb2Des,
    periph 0x40013000 0x400133FF "SPI1" apb2Des,
    periph 0x40013400 0x400137FF "SPI4" apb2Des,
    periph 0x40014000 0x400143FF "TIM15" apb2Des,
    periph 0x40014400 0x400147FF "TIM16" apb2Des,
    periph 0x40014800 0x40014BFF "TIM17" apb2Des,
    periph 0x40015000 0x400153FF "SPI5" apb2Des,
    periph 0x40015800 0x40015BFF "SAI1" apb2Des,
    periph 0x40015C00 0x40015FFF "SAI2" apb2Des,
    periph 0x40016000 0x400163FF "SAI3" apb2Des,
    periph 0x40017000 0x400173FF "DFSDM1" apb2Des,
    periph 0x40017400 0x400177FF "HRT1M" apb2Des,
    periph 0x40020000 0x400203FF "DMA1" ahb1Des,
    periph 0x40020400 0x400207FF "DMA2" ahb1Des,
    periph 0x40020800 0x40020BFF "DMAMUX1" ahb1Des,
    periph 0x40022000 0x400223FF "ADC" ahb1Des,
    periph 0x40024400 0x400247FF "RESERVED" ahb1Des,
    periph 0x40028000 0x400293FF "MAC" ahb1Des,
    periph 0x40040000 0x4007FFFF "OTG_HS" ahb1Des,
    periph 0x40080000 0x400BFFFF "OTG_FS" ahb1Des,
    periph 0x48020000 0x480203FF "DCMI" ahb2Des,
    periph 0x48021000 0x480213FF "CRYPTO" ahb2Des,
    periph 0x48021400 0x480217FF "HASH" ahb2Des,
    periph 0x48021800 0x48021BFF "RNG" ahb2Des,
    periph 0x48022400 0x480227FF "SDMMC2" ahb2Des,
    periph 0x48022800 0x48022BFF "DLYB_SDMMC2" ahb2Des,
    periph 0x50000000 0x50000FFF "RESERVED" apb3Des,
    periph 0x50001000 0x50001FFF "LTDC" apb3Des,
    periph 0x50003000 0x50003FFF "WWDG1" apb3Des,
    periph 0x51000000 0x510FFFFF "GPV" ahb3Des,
    periph 0x52000000 0x52000FFF "MDMA" ahb3Des,
    periph 0x52001000 0x52001FFF "DMA2D" ahb3Des,
    periph 0x52002000 0x52002FFF "Flash" ahb3Des,
    periph 0x52003000 0x52003FFF "JPEG" ahb3Des,
    periph 0x52004000 0x52004FFF "FMC" ahb3Des,
    periph 0x52005000 0x52005FFF "QSPI" ahb3Des,
    periph 0x52006000 0x52006FFF "DLYB_QSPI" ahb3Des,
    periph 0x52007000 0x52007FFF "SDMMC1" ahb3Des,
    periph 0x52008000 0x52008FFF "DLYB_SDMMC1" ahb3Des,
    periph 0x58000000 0x580003FF "EXTI" apb4Des,
    periph 0x58000400 0x580007FF "SYSCFG" apb4Des,
    periph 0x58000C00 0x58000FFF "LPUART1" apb4Des,
    periph 0x58001400 0x580017FF "SPI6" apb4Des,
    periph 0x58001C00 0x58001FFF "I2C4" apb4Des,
    periph 0x58002400 0x580027FF "LPTIM2" apb4Des,
    periph 0x58002800 0x58002BFF "LPTIM3" apb4Des,
    periph 0x58002C00 0x58002FFF "LPTIM4" apb4Des,
    periph 0x58003000 0x580033FF "LPTIM5" apb4Des,
    periph 0x58003800 0x58003BFF "COMP1_COMP2" apb4Des,
    periph 0x58003C00 0x58003FFF "VREF" apb4Des,
    periph 0x58003C00 0x58003FFF "VREFBUF" apb4Des,
    periph 0x58004000 0x580043FF "RTC" apb4Des,
    periph 0x58004800 0x58004BFF "IWDG1" apb4Des,
    periph 0x58004C00 0x58004FFF "RESERVED" apb4Des,
    periph 0x58005400 0x580057FF "SAI4" apb4Des,
    periph 0x58006400 0x58006BFF "RESERVED" apb4Des,
    periph 0x58020000 0x580203FF "GPIOA" apb4Des,
    periph 0x58020400 0x580207FF "GPIOB" apb4Des,
    periph 0x58020800 0x58020BFF "GPIOC" apb4Des,
    periph 0x58020C00 0x58020FFF "GPIOD" apb4Des,
    periph 0x58021000 0x580213FF "GPIOE" apb4Des,
    periph 0x58021400 0x580217FF "GPIOF" apb4Des,
    periph 0x58021800 0x58021BFF "GPIOG" apb4Des,
    periph 0x58021C00 0x58021FFF "GPIOH" apb4Des,
    periph 0x58022000 0x580223FF "GPIOI" apb4Des,
    periph 0x58022400 0x580227FF "GPIOJ" apb4Des,
    periph 0x58022800 0x58022BFF "GPIOK" apb4Des,
    periph 0x58024400 0x580247FF "RCC" apb4Des,
    periph 0x58024800 0x58024BFF "PWR" apb4Des,
    periph 0x58024C00 0x58024FFF "CRC" apb4Des,
    periph 0x58025400 0x580257FF "BDMA" apb4Des,
    periph 0x58025800 0x58025BFF "DMAMUX2" apb4Des,
    periph 0x58026000 0x580263FF "ADC3" apb4Des,
    hsemDes]

/-- The search loop by address, with the entry that the loop has reached and the entries behind
it: `i--` goes back to the entry tested last. -/
def searchLoop (addr : ℕ) : BspUtilsPeriphDes → List BspUtilsPeriphDes → BspUtilsPeriphDes
  | entry, [] => entry
  | entry, next :: rest => if entry.addrLo < addr then searchLoop addr next rest else entry

/-- `strncmp`: whether the result is zero. -/
def strncmp : List Char → List Char → ℕ → Bool
  | _, _, 0 => true
  | [], [], _ + 1 => true
  | c :: first, d :: second, n + 1 => c == d && strncmp first second n
  | _, _, _ + 1 => false

/-- `name` compared with the name of a table entry. -/
def nameMatches (name : String) (entry : BspUtilsPeriphDes) : Bool :=
  strncmp (entry.name.getD "").toList name.toList 10

/-- The descriptor that `bsp_utils_get_periph` leaves, and its result: the pointer to the
descriptor or an error. -/
def bspUtilsGetPeriph (des : BspUtilsPeriphDes) : BspUtilsPeriphDes × Except ℤ Unit :=
  if des.addrLo ≠ 0 then
    let entry := searchLoop des.addrLo (bspUtilsPeriphDes.headD hsemDes) bspUtilsPeriphDes.tail
    if entry.addrHi < des.addrLo then (des, .error (-ENODEV))
    else (entry, .ok ())
  else
    match des.name with
    | none => (des, .error (-EINVAL))
    | some name =>
      match bspUtilsPeriphDes.find? (nameMatches name) with
      | none => (des, .error (-ENODEV))
      | some entry => (entry, .ok ())

/-! ## By address -/

def BspUtilsPeriphDes.Contains (entry : BspUtilsPeriphDes) (addr : ℕ) : Prop :=
  entry.addrLo ≤ addr ∧ addr ≤ entry.addrHi

instance (entry : BspUtilsPeriphDes) (addr : ℕ) : Decidable (entry.Contains addr) :=
  inferInstanceAs (Decidable (_ ∧ _))

/-- The table as sorted ranges. -/
def periphRanges : RangeTable BspUtilsPeriphDes ℕ where
  entries := bspUtilsPeriphDes
  lo := BspUtilsPeriphDes.addrLo
  hi := BspUtilsPeriphDes.addrHi
  last := hsemDes
  sorted := by decide
  lo_le_hi := by decide
  last_eq := by decide
  hi_le_last := by decide

theorem searchLoop_eq (addr : ℕ) (entry : BspUtilsPeriphDes) (rest : List BspUtilsPeriphDes) :
    searchLoop addr entry rest =
      ((entry :: rest).find? fun entry ↦ decide (addr ≤ entry.addrLo)).getD
        ((entry :: rest).getLast (List.cons_ne_nil entry rest)) := by
  induction rest generalizing entry with
  | nil => by_cases h : addr ≤ entry.addrLo <;> simp [searchLoop, h]
  | cons next rest ih =>
    by_cases h : addr ≤ entry.addrLo
    · simp [searchLoop, h]
    · have hstep : searchLoop addr entry (next :: rest) = searchLoop addr next rest :=
        if_pos (not_le.1 h)
      have hskip : (entry :: next :: rest).find? (fun entry ↦ decide (addr ≤ entry.addrLo)) =
          (next :: rest).find? fun entry ↦ decide (addr ≤ entry.addrLo) :=
        List.find?_cons_of_neg (by simpa using h)
      rw [hstep, ih next, hskip, List.getLast_cons_cons]

/-- The loop is the scan of the table. -/
theorem searchLoop_table (addr : ℕ) :
    searchLoop addr (bspUtilsPeriphDes.headD hsemDes) bspUtilsPeriphDes.tail =
      periphRanges.scan addr :=
  searchLoop_eq addr _ _

theorem bspUtilsGetPeriph_addr (des : BspUtilsPeriphDes) (haddr : des.addrLo ≠ 0) :
    bspUtilsGetPeriph des =
      if (periphRanges.scan des.addrLo).addrHi < des.addrLo then (des, .error (-ENODEV))
      else (periphRanges.scan des.addrLo, .ok ()) := by
  rw [bspUtilsGetPeriph, if_pos haddr, searchLoop_table]

/-- What the documentation of the lookup says about an address. -/
def AddrLookupOk (des : BspUtilsPeriphDes) : Prop :=
  let found := bspUtilsGetPeriph des
  ((∃ entry ∈ bspUtilsPeriphDes, entry.Contains des.addrLo) →
      found.2 = .ok () ∧ found.1 ∈ bspUtilsPeriphDes ∧ found.1.Contains des.addrLo) ∧
    ((¬ ∃ entry ∈ bspUtilsPeriphDes, entry.Contains des.addrLo) → found = (des, .error (-ENODEV)))

/-- The lookup by address is right exactly at the base addresses and from the last one on. -/
theorem addrLookupOk_iff (des : BspUtilsPeriphDes) (haddr : des.addrLo ≠ 0) :
    AddrLookupOk des ↔
      (∃ entry ∈ bspUtilsPeriphDes, entry.addrLo = des.addrLo) ∨
        ∀ entry ∈ bspUtilsPeriphDes, entry.addrLo ≤ des.addrLo := by
  have hreached : (periphRanges.scan des.addrLo).addrLo ≤ des.addrLo ↔
      (∃ entry ∈ bspUtilsPeriphDes, entry.addrLo = des.addrLo) ∨
        ∀ entry ∈ bspUtilsPeriphDes, entry.addrLo ≤ des.addrLo := periphRanges.lo_scan_le_iff
  have hmem : periphRanges.scan des.addrLo ∈ bspUtilsPeriphDes := periphRanges.scan_mem
  rw [← hreached]
  unfold AddrLookupOk
  rw [bspUtilsGetPeriph_addr des haddr]
  by_cases hlo : (periphRanges.scan des.addrLo).addrLo ≤ des.addrLo
  · have hexists := periphRanges.exists_contains_iff (periphRanges.lo_scan_le_iff.1 hlo)
    refine iff_of_true ?_ hlo
    by_cases hhi : (periphRanges.scan des.addrLo).addrHi < des.addrLo
    · rw [if_pos hhi]
      exact ⟨fun h ↦ absurd hhi (not_lt.2 (hexists.1 h)), fun _ ↦ rfl⟩
    · rw [if_neg hhi]
      exact ⟨fun _ ↦ ⟨rfl, hmem, hlo, not_lt.1 hhi⟩,
        fun h ↦ absurd (hexists.2 (not_lt.1 hhi)) h⟩
  · -- The next entry is found, and it is never the wanted one.
    have hhi : des.addrLo ≤ (periphRanges.scan des.addrLo).addrHi :=
      periphRanges.le_hi_scan_of_lt (not_le.1 hlo)
    refine iff_of_false ?_ hlo
    rw [if_neg (not_lt.2 hhi)]
    rintro ⟨hfound, hmissing⟩
    by_cases h : ∃ entry ∈ bspUtilsPeriphDes, entry.Contains des.addrLo
    · exact hlo (hfound h).2.2.1
    · simpa using congrArg Prod.snd (hmissing h)

theorem addrLookupOk_iff_dma1 :
    (⟨0x40020000, 0, none, none⟩ : BspUtilsPeriphDes).addrLo ≠ 0 ∧
      (AddrLookupOk ⟨0x40020000, 0, none, none⟩ ↔
        (∃ entry ∈ bspUtilsPeriphDes, entry.addrLo = 0x40020000) ∨
          ∀ entry ∈ bspUtilsPeriphDes, entry.addrLo ≤ 0x40020000) :=
  ⟨by decide, addrLookupOk_iff ⟨0x40020000, 0, none, none⟩ (by decide)⟩

/-- The second word of TIM2 is taken for TIM3. -/
theorem not_addrLookupOk_tim2 : ¬ AddrLookupOk ⟨0x40000004, 0, none, none⟩ := by
  rintro ⟨hfound, -⟩
  have hcontains := (hfound ⟨periph 0x40000000 0x400003FF "TIM2" apb1Des,
    by decide, by decide⟩).2.2
  exact absurd hcontains (by decide)

/-! ## By name -/

theorem strncmp_iff (first second : List Char) (n : ℕ) :
    strncmp first second n = true ↔ first.take n = second.take n := by
  induction n generalizing first second with
  | zero => simp [strncmp]
  | succ n ih =>
    cases first with
    | nil => cases second <;> simp [strncmp]
    | cons c first =>
      cases second with
      | nil => simp [strncmp]
      | cons d second => simp [strncmp, ih first second]

theorem nameMatches_iff (name : String) (entry : BspUtilsPeriphDes) :
    nameMatches name entry = true ↔
      (entry.name.getD "").toList.take 10 = name.toList.take 10 :=
  strncmp_iff _ _ 10

/-- What the documentation of the lookup says about a name. -/
def NameLookupOk (des : BspUtilsPeriphDes) (name : String) : Prop :=
  let found := bspUtilsGetPeriph des
  ((∃ entry ∈ bspUtilsPeriphDes, entry.name = some name) →
      found.2 = .ok () ∧ found.1 ∈ bspUtilsPeriphDes ∧ found.1.name = some name) ∧
    ((¬ ∃ entry ∈ bspUtilsPeriphDes, entry.name = some name) → found = (des, .error (-ENODEV)))

theorem bspUtilsGetPeriph_name (des : BspUtilsPeriphDes) (name : String) (haddr : des.addrLo = 0)
    (hname : des.name = some name) :
    bspUtilsGetPeriph des =
      match bspUtilsPeriphDes.find? (nameMatches name) with
      | none => (des, .error (-ENODEV))
      | some entry => (entry, .ok ()) := by
  rw [bspUtilsGetPeriph, if_neg (not_not.2 haddr), hname]

/-- A found entry is the right one exactly when it has the name that was asked for. -/
theorem nameLookupOk_of_find {des : BspUtilsPeriphDes} {name : String} {entry : BspUtilsPeriphDes}
    (haddr : des.addrLo = 0) (hname : des.name = some name)
    (hfind : bspUtilsPeriphDes.find? (nameMatches name) = some entry) :
    NameLookupOk des name ↔ entry.name = some name := by
  have hmem := List.mem_of_find?_eq_some hfind
  unfold NameLookupOk
  rw [bspUtilsGetPeriph_name des name haddr hname, hfind]
  constructor
  · rintro ⟨hfound, hmissing⟩
    by_cases h : ∃ entry ∈ bspUtilsPeriphDes, entry.name = some name
    · exact (hfound h).2.2
    · simpa using congrArg Prod.snd (hmissing h)
  · intro h
    exact ⟨fun _ ↦ ⟨rfl, hmem, h⟩, fun hmissing ↦ absurd ⟨entry, hmem, h⟩ hmissing⟩

theorem nameLookupOk_of_find_none {des : BspUtilsPeriphDes} {name : String}
    (haddr : des.addrLo = 0) (hname : des.name = some name)
    (hfind : bspUtilsPeriphDes.find? (nameMatches name) = none) : NameLookupOk des name := by
  unfold NameLookupOk
  rw [bspUtilsGetPeriph_name des name haddr hname, hfind]
  refine ⟨?_, fun _ ↦ rfl⟩
  rintro ⟨entry, hmem, hentry⟩
  have hmatch : nameMatches name entry = true := by simp [nameMatches_iff, hentry]
  exact absurd hmatch (List.find?_eq_none.1 hfind entry hmem)

/-- The search only sees the first ten characters. -/
theorem find_nameMatches_congr {name other : String}
    (h : name.toList.take 10 = other.toList.take 10) :
    bspUtilsPeriphDes.find? (nameMatches name) = bspUtilsPeriphDes.find? (nameMatches other) := by
  congr 1
  funext entry
  apply Bool.eq_iff_iff.2
  rw [nameMatches_iff, nameMatches_iff, h]

/-- A name of fewer than ten characters is compared to its end. -/
theorem eq_of_take_eq_of_short {name other : List Char} (hshort : other.length < 10)
    (h : other.take 10 = name.take 10) : other = name := by
  have hlength := congrArg List.length h
  simp only [List.length_take] at hlength
  rw [List.take_of_length_le hshort.le, List.take_of_length_le (by omega)] at h
  exact h

theorem short_or_ambiguous : ∀ entry ∈ bspUtilsPeriphDes,
    entry.name = some (entry.name.getD "") ∧
      ((entry.name.getD "").toList.length < 10 ∨
        (entry.name.getD "").toList.take 10 = "DLYB_SDMMC".toList ∨
        (entry.name.getD "").toList.take 10 = "COMP1_COMP".toList) := by
  decide +kernel

/-- Names that agree in ten characters with `seen` find the same entry. -/
theorem nameLookupOk_of_take_eq {des entry : BspUtilsPeriphDes} {name seen : String}
    (haddr : des.addrLo = 0) (hname : des.name = some name)
    (hfind : bspUtilsPeriphDes.find? (nameMatches seen) = some entry)
    (htake : name.toList.take 10 = seen.toList.take 10) :
    NameLookupOk des name ↔ entry.name = some name :=
  nameLookupOk_of_find haddr hname ((find_nameMatches_congr htake).trans hfind)

/-- The lookup by name is right except for names that differ from the name it finds only behind
the tenth character. -/
theorem nameLookupOk_iff (des : BspUtilsPeriphDes) (name : String) (haddr : des.addrLo = 0)
    (hname : des.name = some name) :
    NameLookupOk des name ↔
      (name.toList.take 10 = "DLYB_SDMMC".toList → name = "DLYB_SDMMC2") ∧
        (name.toList.take 10 = "COMP1_COMP".toList → name = "COMP1_COMP2") := by
  by_cases hsdmmc : name.toList.take 10 = "DLYB_SDMMC".toList
  · have hfind : bspUtilsPeriphDes.find? (nameMatches "DLYB_SDMMC") =
        some (periph 0x48022800 0x48022BFF "DLYB_SDMMC2" ahb2Des) := by decide
    rw [nameLookupOk_of_take_eq haddr hname hfind hsdmmc]
    constructor
    · intro h
      exact ⟨fun _ ↦ (Option.some.inj h).symm,
        fun hcomp ↦ absurd (hsdmmc.symm.trans hcomp) (by decide)⟩
    · intro h
      exact congrArg some (h.1 hsdmmc).symm
  · by_cases hcomp : name.toList.take 10 = "COMP1_COMP".toList
    · have hfind : bspUtilsPeriphDes.find? (nameMatches "COMP1_COMP") =
          some (periph 0x58003800 0x58003BFF "COMP1_COMP2" apb4Des) := by decide
      rw [nameLookupOk_of_take_eq haddr hname hfind hcomp]
      constructor
      · intro h
        exact ⟨fun hother ↦ absurd hother hsdmmc, fun _ ↦ (Option.some.inj h).symm⟩
      · intro h
        exact congrArg some (h.2 hcomp).symm
    · refine iff_of_true ?_ ⟨fun h ↦ absurd h hsdmmc, fun h ↦ absurd h hcomp⟩
      cases hfind : bspUtilsPeriphDes.find? (nameMatches name) with
      | none => exact nameLookupOk_of_find_none haddr hname hfind
      | some entry =>
        have hmatch := (nameMatches_iff name entry).1 (List.find?_some hfind)
        obtain ⟨hentry, hkind⟩ := short_or_ambiguous entry (List.mem_of_find?_eq_some hfind)
        rw [hmatch] at hkind
        have hshort := hkind.resolve_right (not_or.2 ⟨hsdmmc, hcomp⟩)
        have hsame : entry.name.getD "" = name :=
          String.toList_injective (eq_of_take_eq_of_short hshort hmatch)
        rw [nameLookupOk_of_find haddr hname hfind, hentry, hsame]

theorem nameLookupOk_iff_flash :
    NameLookupOk ⟨0, 0, some "Flash", none⟩ "Flash" ↔
      ("Flash".toList.take 10 = "DLYB_SDMMC".toList → "Flash" = "DLYB_SDMMC2") ∧
        ("Flash".toList.take 10 = "COMP1_COMP".toList → "Flash" = "COMP1_COMP2") :=
  nameLookupOk_iff ⟨0, 0, some "Flash", none⟩ "Flash" rfl rfl

/-- The delay block of one memory card interface is taken for that of the other. -/
theorem not_nameLookupOk_dlybSdmmc1 :
    ¬ NameLookupOk ⟨0, 0, some "DLYB_SDMMC1", none⟩ "DLYB_SDMMC1" := by
  rintro ⟨hfound, -⟩
  have hname := (hfound ⟨periph 0x52008000 0x52008FFF "DLYB_SDMMC1" ahb3Des,
    by decide, by decide⟩).2.2
  exact absurd hname (by decide)

end Vodka.Bsp.Utils
