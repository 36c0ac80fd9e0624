import Mathlib.Tactic
import Vodka.Bsp.Utils

/-!
# Peripheral clocks

`bsp_utils_periph_clk` looks a peripheral up and switches the clock that belongs
to its base address. An address inside a range reaches the next entry of the
table, so the clock that is switched is that of the next peripheral. The enable
bits of the RCC are a function from gates, and a HAL macro changes its gate
only.
-/

namespace Vodka.Bsp.PeriphClk

open Foundation.Ranges Utils

/-- The clock-enable bits. -/
inductive Gate
  | MDMA | TIM2 | TIM4 | TIM5 | TIM6 | TIM7 | TIM12 | TIM13 | TIM14 | LPTIM1 | SPI2 | SPI3
  | SPDIFRX | USART2 | USART3 | UART4 | UART5 | I2C1 | I2C2 | I2C3 | CEC | DAC12 | UART7 | UART8
  | CRS | SWPMI1 | OPAMP | MDIOS | FDCAN | TIM1 | TIM8 | USART1 | USART6 | SPI1 | SPI4 | TIM15
  | TIM16 | TIM17 | SPI5 | SAI1 | SAI2 | SAI3 | DFSDM1 | HRTIM1 | DMA1 | DMA2 | ADC12 | ETH1MAC
  | ETH1RX | ETH1TX | USB1_OTG_HS | USB2_OTG_FS | DCMI | RNG | SDMMC2 | LTDC | WWDG1 | DMA2D
  | JPGDECEN | FMC | QSPI | SDMMC1 | SYSCFG | LPUART1 | SPI6 | I2C4 | LPTIM2 | LPTIM3 | LPTIM4
  | LPTIM5 | COMP12 | VREF | RTC | SAI4 | GPIOA | GPIOB | GPIOC | GPIOD | GPIOE | GPIOF | GPIOG
  | GPIOH | GPIOI | GPIOJ | GPIOK | CRC | BDMA | ADC3 | HSEM | TIM3 | CRYP | HASH
  deriving DecidableEq

def PERIPH_BASE : ℕ := 0x40000000

def D2_APB1PERIPH_BASE : ℕ := PERIPH_BASE

def D2_APB2PERIPH_BASE : ℕ := PERIPH_BASE + 0x00010000

def D2_AHB1PERIPH_BASE : ℕ := PERIPH_BASE + 0x00020000

def D2_AHB2PERIPH_BASE : ℕ := PERIPH_BASE + 0x08020000

def D1_APB1PERIPH_BASE : ℕ := PERIPH_BASE + 0x10000000

def D1_AHB1PERIPH_BASE : ℕ := PERIPH_BASE + 0x12000000

def D3_APB1PERIPH_BASE : ℕ := PERIPH_BASE + 0x18000000

def D3_AHB1PERIPH_BASE : ℕ := PERIPH_BASE + 0x18020000

def DISABLE : ℕ := 0

def ENABLE : ℕ := 1

/-- `IS_FUNCTIONAL_STATE` -/
def isFunctionalState (state : ℕ) : Bool := state == DISABLE || state == ENABLE

/-- The cases of the switch, in their order. -/
def clkCases : List (ℕ × List Gate) :=
  [(D1_AHB1PERIPH_BASE + 0x0000, [.MDMA]), (D2_APB1PERIPH_BASE + 0x0000, [.TIM2]),
    (D2_APB1PERIPH_BASE + 0x0800, [.TIM4]), (D2_APB1PERIPH_BASE + 0x0C00, [.TIM5]),
    (D2_APB1PERIPH_BASE + 0x1000, [.TIM6]), (D2_APB1PERIPH_BASE + 0x1400, [.TIM7]),
    (D2_APB1PERIPH_BASE + 0x1800, [.TIM12]), (D2_APB1PERIPH_BASE + 0x1C00, [.TIM13]),
    (D2_APB1PERIPH_BASE + 0x2000, [.TIM14]), (D2_APB1PERIPH_BASE + 0x2400, [.LPTIM1]),
    (D2_APB1PERIPH_BASE + 0x3800, [.SPI2]), (D2_APB1PERIPH_BASE + 0x3C00, [.SPI3]),
    (D2_APB1PERIPH_BASE + 0x4000, [.SPDIFRX]), (D2_APB1PERIPH_BASE + 0x4400, [.USART2]),
    (D2_APB1PERIPH_BASE + 0x4800, [.USART3]), (D2_APB1PERIPH_BASE + 0x4C00, [.UART4]),
    (D2_APB1PERIPH_BASE + 0x5000, [.UART5]), (D2_APB1PERIPH_BASE + 0x5400, [.I2C1]),
    (D2_APB1PERIPH_BASE + 0x5800, [.I2C2]), (D2_APB1PERIPH_BASE + 0x5C00, [.I2C3]),
    (D2_APB1PERIPH_BASE + 0x6C00, [.CEC]), (D2_APB1PERIPH_BASE + 0x7400, [.DAC12]),
    (D2_APB1PERIPH_BASE + 0x7800, [.UART7]), (D2_APB1PERIPH_BASE + 0x7C00, [.UART8]),
    (D2_APB1PERIPH_BASE + 0x8400, [.CRS]), (D2_APB1PERIPH_BASE + 0x8800, [.SWPMI1]),
    (D2_APB1PERIPH_BASE + 0x9000, [.OPAMP]), (D2_APB1PERIPH_BASE + 0x9400, [.MDIOS]),
    (D2_APB1PERIPH_BASE + 0xA000, [.FDCAN]), (D2_APB1PERIPH_BASE + 0xA400, [.FDCAN]),
    (D2_APB2PERIPH_BASE + 0x0000, [.TIM1]), (D2_APB2PERIPH_BASE + 0x0400, [.TIM8]),
    (D2_APB2PERIPH_BASE + 0x1000, [.USART1]), (D2_APB2PERIPH_BASE + 0x1400, [.USART6]),
    (D2_APB2PERIPH_BASE + 0x3000, [.SPI1]), (D2_APB2PERIPH_BASE + 0x3400, [.SPI4]),
    (D2_APB2PERIPH_BASE + 0x4000, [.TIM15]), (D2_APB2PERIPH_BASE + 0x4400, [.TIM16]),
    (D2_APB2PERIPH_BASE + 0x4800, [.TIM17]), (D2_APB2PERIPH_BASE + 0x5000, [.SPI5]),
    (D2_APB2PERIPH_BASE + 0x5800, [.SAI1]), (D2_APB2PERIPH_BASE + 0x5C00, [.SAI2]),
    (D2_APB2PERIPH_BASE + 0x6000, [.SAI3]), (D2_APB2PERIPH_BASE + 0x7000, [.DFSDM1]),
    (D2_APB2PERIPH_BASE + 0x7400, [.HRTIM1]), (D2_AHB1PERIPH_BASE + 0x0000, [.DMA1]),
    (D2_AHB1PERIPH_BASE + 0x0400, [.DMA2]), (D2_AHB1PERIPH_BASE + 0x2000, [.ADC12]),
    (D2_AHB1PERIPH_BASE + 0x2100, [.ADC12]),
    (D2_AHB1PERIPH_BASE + 0x8000, [.ETH1MAC, .ETH1RX, .ETH1TX]), (0x40040000, [.USB1_OTG_HS]),
    (0x40080000, [.USB2_OTG_FS]), (D2_AHB2PERIPH_BASE + 0x0000, [.DCMI]),
    (D2_AHB2PERIPH_BASE + 0x1800, [.RNG]), (D2_AHB2PERIPH_BASE + 0x2400, [.SDMMC2]),
    (D2_AHB2PERIPH_BASE + 0x2800, [.SDMMC2]), (D1_APB1PERIPH_BASE + 0x1000, [.LTDC]),
    (D1_APB1PERIPH_BASE + 0x3000, [.WWDG1]), (D1_AHB1PERIPH_BASE + 0x1000, [.DMA2D]),
    (D1_AHB1PERIPH_BASE + 0x3000, [.JPGDECEN]), (D1_AHB1PERIPH_BASE + 0x4000, [.FMC]),
    (D1_AHB1PERIPH_BASE + 0x5000, [.QSPI]), (D1_AHB1PERIPH_BASE + 0x6000, [.QSPI]),
    (D1_AHB1PERIPH_BASE + 0x7000, [.SDMMC1]), (D1_AHB1PERIPH_BASE + 0x8000, [.SDMMC1]),
    (D3_APB1PERIPH_BASE + 0x0400, [.SYSCFG]), (D3_APB1PERIPH_BASE + 0x0C00, [.LPUART1]),
    (D3_APB1PERIPH_BASE + 0x1400, [.SPI6]), (D3_APB1PERIPH_BASE + 0x1C00, [.I2C4]),
    (D3_APB1PERIPH_BASE + 0x2400, [.LPTIM2]), (D3_APB1PERIPH_BASE + 0x2800, [.LPTIM3]),
    (D3_APB1PERIPH_BASE + 0x2C00, [.LPTIM4]), (D3_APB1PERIPH_BASE + 0x3000, [.LPTIM5]),
    (D3_APB1PERIPH_BASE + 0x3800, [.COMP12]), (D3_APB1PERIPH_BASE + 0x3C00, [.VREF]),
    (D3_APB1PERIPH_BASE + 0x4000, [.RTC]), (D3_APB1PERIPH_BASE + 0x5400, [.SAI4]),
    (D3_AHB1PERIPH_BASE + 0x0000, [.GPIOA]), (D3_AHB1PERIPH_BASE + 0x0400, [.GPIOB]),
    (D3_AHB1PERIPH_BASE + 0x0800, [.GPIOC]), (D3_AHB1PERIPH_BASE + 0x0C00, [.GPIOD]),
    (D3_AHB1PERIPH_BASE + 0x1000, [.GPIOE]), (D3_AHB1PERIPH_BASE + 0x1400, [.GPIOF]),
    (D3_AHB1PERIPH_BASE + 0x1800, [.GPIOG]), (D3_AHB1PERIPH_BASE + 0x1C00, [.GPIOH]),
    (D3_AHB1PERIPH_BASE + 0x2000, [.GPIOI]), (D3_AHB1PERIPH_BASE + 0x2400, [.GPIOJ]),
    (D3_AHB1PERIPH_BASE + 0x2800, [.GPIOK]), (D3_AHB1PERIPH_BASE + 0x4C00, [.CRC]),
    (D3_AHB1PERIPH_BASE + 0x5400, [.BDMA]), (D3_AHB1PERIPH_BASE + 0x6000, [.ADC3]),
    (D3_AHB1PERIPH_BASE + 0x6400, [.HSEM])]

/-- The macros for these gates, one after the other. -/
def setGates (gates : List Gate) (value : Bool) (rcc : Gate → Bool) : Gate → Bool :=
  gates.foldl (fun rcc gate ↦ Function.update rcc gate value) rcc

/-- The result, the descriptor and the enable bits that a call leaves. -/
structure ClkOutcome where
  res : ℤ
  des : BspUtilsPeriphDes
  rcc : Gate → Bool

def bspUtilsPeriphClk (des : BspUtilsPeriphDes) (state : ℕ) (rcc : Gate → Bool) : ClkOutcome :=
  let found := bspUtilsGetPeriph des
  if !isFunctionalState state then ⟨-EINVAL, found.1, rcc⟩
  else
    match found.2 with
    | .error _ => ⟨-ENODEV, found.1, rcc⟩
    | .ok () =>
      match clkCases.lookup found.1.addrLo with
      | none => ⟨-EINVAL, found.1, rcc⟩
      | some gates => ⟨0, found.1, setGates gates (state ≠ 0) rcc⟩

/-- The gates of the peripherals that have one, by their names in the table. -/
def periphGates : List (String × List Gate) :=
  [("TIM2", [.TIM2]), ("TIM3", [.TIM3]), ("TIM4", [.TIM4]), ("TIM5", [.TIM5]), ("TIM6", [.TIM6]),
    ("TIM7", [.TIM7]), ("TIM12", [.TIM12]), ("TIM13", [.TIM13]), ("TIM14", [.TIM14]),
    ("LPTIM1", [.LPTIM1]), ("SPI2", [.SPI2]), ("SPI3", [.SPI3]), ("SPDIFRX", [.SPDIFRX]),
    ("USART2", [.USART2]), ("USART3", [.USART3]), ("UART4", [.UART4]), ("UART5", [.UART5]),
    ("I2C1", [.I2C1]), ("I2C2", [.I2C2]), ("I2C3", [.I2C3]), ("HDMI_CEC", [.CEC]),
    ("DAC1", [.DAC12]), ("UART7", [.UART7]), ("UART8", [.UART8]), ("CRS", [.CRS]),
    ("SWPMI", [.SWPMI1]), ("OPAMP", [.OPAMP]), ("MDIOS", [.MDIOS]), ("FDCAN1", [.FDCAN]),
    ("FDCAN2", [.FDCAN]), ("FDCAN", [.FDCAN]), ("TIM1", [.TIM1]), ("TIM8", [.TIM8]),
    ("USART1", [.USART1]), ("USART6", [.USART6]), ("SPI1", [.SPI1]), ("SPI4", [.SPI4]),
    ("TIM15", [.TIM15]), ("TIM16", [.TIM16]), ("TIM17", [.TIM17]), ("SPI5", [.SPI5]),
    ("SAI1", [.SAI1]), ("SAI2", [.SAI2]), ("SAI3", [.SAI3]), ("DFSDM1", [.DFSDM1]),
    ("HRT1M", [.HRTIM1]), ("DMA1", [.DMA1]), ("DMA2", [.DMA2]), ("ADC", [.ADC12]),
    ("MAC", [.ETH1MAC, .ETH1RX, .ETH1TX]), ("OTG_HS", [.USB1_OTG_HS]), ("OTG_FS", [.USB2_OTG_FS]),
    ("DCMI", [.DCMI]), ("CRYPTO", [.CRYP]), ("HASH", [.HASH]), ("RNG", [.RNG]),
    ("SDMMC2", [.SDMMC2]), ("DLYB_SDMMC2", [.SDMMC2]), ("LTDC", [.LTDC]), ("WWDG1", [.WWDG1]),
    ("MDMA", [.MDMA]), ("DMA2D", [.DMA2D]), ("JPEG", [.JPGDECEN]), ("FMC", [.FMC]),
    ("QSPI", [.QSPI]), ("DLYB_QSPI", [.QSPI]), ("SDMMC1", [.SDMMC1]), ("DLYB_SDMMC1", [.SDMMC1]),
    ("SYSCFG", [.SYSCFG]), ("LPUART1", [.LPUART1]), ("SPI6", [.SPI6]), ("I2C4", [.I2C4]),
    ("LPTIM2", [.LPTIM2]), ("LPTIM3", [.LPTIM3]), ("LPTIM4", [.LPTIM4]), ("LPTIM5", [.LPTIM5]),
    ("COMP1_COMP2", [.COMP12]), ("VREF", [.VREF]), ("VREFBUF", [.VREF]), ("RTC", [.RTC]),
    ("SAI4", [.SAI4]), ("GPIOA", [.GPIOA]), ("GPIOB", [.GPIOB]), ("GPIOC", [.GPIOC]),
    ("GPIOD", [.GPIOD]), ("GPIOE", [.GPIOE]), ("GPIOF", [.GPIOF]), ("GPIOG", [.GPIOG]),
    ("GPIOH", [.GPIOH]), ("GPIOI", [.GPIOI]), ("GPIOJ", [.GPIOJ]), ("GPIOK", [.GPIOK]),
    ("CRC", [.CRC]), ("BDMA", [.BDMA]), ("ADC3", [.ADC3]), ("HSEM", [.HSEM])]

/-- The clock-enable bits of a peripheral. -/
def clockGates (entry : BspUtilsPeriphDes) : List Gate :=
  (periphGates.lookup (entry.name.getD "")).getD []

/-! ## What is switched -/

theorem setGates_apply (gates : List Gate) (value : Bool) (rcc : Gate → Bool) (gate : Gate) :
    setGates gates value rcc gate = if gate ∈ gates then value else rcc gate := by
  induction gates generalizing rcc with
  | nil => rfl
  | cons first gates ih =>
    rw [setGates, List.foldl_cons]
    refine (ih _).trans ?_
    by_cases hmem : gate ∈ gates
    · simp [hmem]
    · by_cases hfirst : gate = first <;> simp [hmem, hfirst]

/-- Switching some gates does for others what they need exactly when the gates in which the two
differ already had the value. -/
theorem setGates_switches_iff (gates wanted : List Gate) (value : Bool) (rcc : Gate → Bool) :
    ((∀ gate ∈ wanted, setGates gates value rcc gate = value) ∧
        ∀ gate, gate ∉ wanted → setGates gates value rcc gate = rcc gate) ↔
      ∀ gate, (gate ∈ wanted ↔ gate ∉ gates) → rcc gate = value := by
  simp only [setGates_apply]
  constructor
  · rintro ⟨hwanted, hother⟩ gate hdiffer
    by_cases hmem : gate ∈ gates
    · simpa [hmem] using (hother gate fun h ↦ hdiffer.1 h hmem).symm
    · simpa [hmem] using hwanted gate (hdiffer.2 hmem)
  · intro h
    constructor
    · intro gate hwanted
      by_cases hmem : gate ∈ gates
      · rw [if_pos hmem]
      · rw [if_neg hmem]
        exact h gate (iff_of_true hwanted hmem)
    · intro gate hother
      by_cases hmem : gate ∈ gates
      · rw [if_pos hmem]
        exact (h gate (iff_of_false hother (not_not.2 hmem))).symm
      · rw [if_neg hmem]

/-- The switch knows the gates of every peripheral that has a case. -/
theorem clkCases_eq_clockGates : ∀ entry ∈ bspUtilsPeriphDes,
    (clkCases.lookup entry.addrLo).getD (clockGates entry) = clockGates entry := by
  decide +kernel

/-- The gates of the peripheral, and no others, have the requested value after the call. -/
def Switches (entry : BspUtilsPeriphDes) (value : Bool) (before after : Gate → Bool) : Prop :=
  (∀ gate ∈ clockGates entry, after gate = value) ∧
    ∀ gate, gate ∉ clockGates entry → after gate = before gate

/-- The right gate is switched, or nothing is. -/
def ClkOk (des : BspUtilsPeriphDes) (state : ℕ) (rcc : Gate → Bool) : Prop :=
  let outcome := bspUtilsPeriphClk des state rcc
  (outcome.res = 0 →
      ∃ entry ∈ bspUtilsPeriphDes, entry.Contains des.addrLo ∧
        Switches entry (decide (state = ENABLE)) rcc outcome.rcc) ∧
    (outcome.res < 0 → outcome.rcc = rcc) ∧
    ((¬ ∃ entry ∈ bspUtilsPeriphDes, entry.Contains des.addrLo) → outcome.res < 0)

theorem isFunctionalState_of {state : ℕ} (h : state = DISABLE ∨ state = ENABLE) :
    isFunctionalState state = true := by
  rcases h with rfl | rfl <;> decide

/-- The value that the macros write is the requested one. -/
theorem decide_ne_zero_of {state : ℕ} (h : state = DISABLE ∨ state = ENABLE) :
    decide (state ≠ 0) = decide (state = ENABLE) := by
  rcases h with rfl | rfl <;> decide

/-- A call by address that finds nothing. -/
theorem bspUtilsPeriphClk_of_not_found {des : BspUtilsPeriphDes} {state : ℕ}
    (haddr : des.addrLo ≠ 0) (hstate : state = DISABLE ∨ state = ENABLE) (rcc : Gate → Bool)
    (h : (periphRanges.scan des.addrLo).addrHi < des.addrLo) :
    bspUtilsPeriphClk des state rcc = ⟨-ENODEV, des, rcc⟩ := by
  simp [bspUtilsPeriphClk, bspUtilsGetPeriph_addr des haddr, h, isFunctionalState_of hstate]

/-- A call by address that finds an entry switches the gates of that entry, if it has a case. -/
theorem bspUtilsPeriphClk_of_found {des : BspUtilsPeriphDes} {state : ℕ}
    (haddr : des.addrLo ≠ 0) (hstate : state = DISABLE ∨ state = ENABLE) (rcc : Gate → Bool)
    (h : des.addrLo ≤ (periphRanges.scan des.addrLo).addrHi) :
    bspUtilsPeriphClk des state rcc =
      let entry := periphRanges.scan des.addrLo
      if (clkCases.lookup entry.addrLo).isSome then
        ⟨0, entry, setGates (clockGates entry) (decide (state = ENABLE)) rcc⟩
      else ⟨-EINVAL, entry, rcc⟩ := by
  have hgates := clkCases_eq_clockGates _ (show periphRanges.scan des.addrLo ∈ bspUtilsPeriphDes
    from periphRanges.scan_mem)
  have hvalue := decide_ne_zero_of hstate
  unfold bspUtilsPeriphClk
  rw [bspUtilsGetPeriph_addr des haddr, if_neg (not_lt.2 h), isFunctionalState_of hstate]
  cases hcase : clkCases.lookup (periphRanges.scan des.addrLo).addrLo with
  | none => simp [hcase]
  | some gates =>
    rw [hcase, Option.getD_some] at hgates
    simp [hcase, ← hgates, ← hvalue]

/-- A call that fails is right when it has left the clocks alone. -/
theorem clkOk_of_neg {des : BspUtilsPeriphDes} {state : ℕ} {rcc : Gate → Bool}
    (hres : (bspUtilsPeriphClk des state rcc).res < 0)
    (hrcc : (bspUtilsPeriphClk des state rcc).rcc = rcc) : ClkOk des state rcc :=
  ⟨fun h ↦ absurd h hres.ne, fun _ ↦ hrcc, fun _ ↦ hres⟩

/-- A call that succeeds is right when it has switched a peripheral around the address. -/
theorem clkOk_of_zero {des : BspUtilsPeriphDes} {state : ℕ} {rcc : Gate → Bool}
    (hres : (bspUtilsPeriphClk des state rcc).res = 0) :
    ClkOk des state rcc ↔
      ∃ entry ∈ bspUtilsPeriphDes, entry.Contains des.addrLo ∧
        Switches entry (decide (state = ENABLE)) rcc (bspUtilsPeriphClk des state rcc).rcc := by
  constructor
  · intro h
    exact h.1 hres
  · rintro ⟨entry, hentry, hcontains, hswitches⟩
    exact ⟨fun _ ↦ ⟨entry, hentry, hcontains, hswitches⟩, fun h ↦ absurd hres h.ne,
      fun h ↦ absurd ⟨entry, hentry, hcontains⟩ h⟩

/-- The gate that is switched is the right one at the base addresses and from the last of them on,
where the next entry has no case, and where the gates in which a peripheral around the address
and the next entry differ already have the requested value. -/
theorem clkOk_iff (des : BspUtilsPeriphDes) (state : ℕ) (rcc : Gate → Bool)
    (haddr : des.addrLo ≠ 0) (hstate : state = DISABLE ∨ state = ENABLE) :
    ClkOk des state rcc ↔
      periphRanges.Reached des.addrLo ∨
        clkCases.lookup (periphRanges.scan des.addrLo).addrLo = none ∨
        ∃ entry ∈ bspUtilsPeriphDes, entry.Contains des.addrLo ∧
          ∀ gate, (gate ∈ clockGates entry ↔ gate ∉ clockGates (periphRanges.scan des.addrLo)) →
            rcc gate = decide (state = ENABLE) := by
  have hmem : periphRanges.scan des.addrLo ∈ bspUtilsPeriphDes := periphRanges.scan_mem
  have hreached : (periphRanges.scan des.addrLo).addrLo ≤ des.addrLo ↔
      periphRanges.Reached des.addrLo := periphRanges.lo_scan_le_iff
  by_cases hhi : (periphRanges.scan des.addrLo).addrHi < des.addrLo
  · have hcall := bspUtilsPeriphClk_of_not_found haddr hstate rcc hhi
    refine iff_of_true (clkOk_of_neg (hcall ▸ show -ENODEV < 0 by decide) (hcall ▸ rfl)) (.inl ?_)
    by_contra h
    exact absurd hhi (not_lt.2 (periphRanges.le_hi_scan_of_lt (not_le.1 (mt hreached.1 h))))
  have hcall := bspUtilsPeriphClk_of_found haddr hstate rcc (not_lt.1 hhi)
  dsimp only at hcall
  by_cases hcase : clkCases.lookup (periphRanges.scan des.addrLo).addrLo = none
  · rw [hcase, if_neg (by simp)] at hcall
    exact iff_of_true (clkOk_of_neg (hcall ▸ show -EINVAL < 0 by decide) (hcall ▸ rfl))
      (.inr (.inl hcase))
  · rw [if_pos (Option.isSome_iff_ne_none.2 hcase)] at hcall
    rw [clkOk_of_zero (hcall ▸ rfl), hcall]
    have hswitches (entry : BspUtilsPeriphDes) := setGates_switches_iff
      (clockGates (periphRanges.scan des.addrLo)) (clockGates entry) (decide (state = ENABLE)) rcc
    constructor
    · rintro ⟨entry, hentry, hcontains, h⟩
      exact .inr (.inr ⟨entry, hentry, hcontains, (hswitches entry).1 h⟩)
    · rintro (h | h | ⟨entry, hentry, hcontains, h⟩)
      · -- The found entry is around the address, and its own gates are switched.
        exact ⟨_, hmem, ⟨hreached.2 h, not_lt.1 hhi⟩,
          (hswitches _).2 fun gate hgate ↦ absurd hgate (by tauto)⟩
      · exact absurd h hcase
      · exact ⟨entry, hentry, hcontains, (hswitches entry).2 h⟩

theorem clkOk_iff_gpiob :
    ((⟨0x58020400, 0, none, none⟩ : BspUtilsPeriphDes).addrLo ≠ 0 ∧
        (ENABLE = DISABLE ∨ ENABLE = ENABLE)) ∧
      (ClkOk ⟨0x58020400, 0, none, none⟩ ENABLE (fun _ ↦ false) ↔
        periphRanges.Reached 0x58020400 ∨
          clkCases.lookup (periphRanges.scan 0x58020400).addrLo = none ∨
          ∃ entry ∈ bspUtilsPeriphDes, entry.Contains 0x58020400 ∧
            ∀ gate, (gate ∈ clockGates entry ↔
              gate ∉ clockGates (periphRanges.scan 0x58020400)) →
              false = decide (ENABLE = ENABLE)) :=
  ⟨⟨by decide, .inr rfl⟩,
    clkOk_iff ⟨0x58020400, 0, none, none⟩ ENABLE (fun _ ↦ false) (by decide) (.inr rfl)⟩

/-- Enabling the clock of a stream of DMA1 enables DMA2. -/
theorem not_clkOk_dma1Stream0 :
    ¬ ClkOk ⟨0x40020010, 0, none, none⟩ ENABLE (fun _ ↦ false) := by
  rintro ⟨hswitched, -⟩
  obtain ⟨entry, hentry, hcontains, hgates, -⟩ := hswitched (by decide)
  have hdma1 : ∀ entry ∈ bspUtilsPeriphDes, entry.Contains 0x40020010 →
      Gate.DMA1 ∈ clockGates entry := by decide
  exact absurd (hgates Gate.DMA1 (hdma1 entry hentry hcontains)) (by decide)

end Vodka.Bsp.PeriphClk
