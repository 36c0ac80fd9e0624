import Mathlib.Tactic
import Mathlib.Data.BitVec

/-!
# The SDRAM test

`bsp_sdram_test` writes the square of its address to every word of the external
memory and then reads all of them back. A memory that maps several words to one
cell keeps the square written last, so the test tells two words apart exactly
when their squares differ modulo 2^32.
-/

namespace Vodka.Bsp.Sdram

/-- The linker script's `_sext_sdram` and `_eext_sdram`. -/
def SEXT_SDRAM : BitVec 32 := 0xC0000000

def EEXT_SDRAM : BitVec 32 := 0xC0000000 + 0x2000000

/-- The addresses that both loops pass: `for (i = start; i < end; i++)`. -/
def window : List (BitVec 32) :=
  (List.range ((EEXT_SDRAM - SEXT_SDRAM).toNat / 4)).map fun k ↦
    SEXT_SDRAM + BitVec.ofNat 32 (4 * k)

def pattern (address : BitVec 32) : BitVec 32 := address * address

section Test

variable {Cell : Type*} [DecidableEq Cell]

/-- The first loop, over a memory whose words lie in the cells given. -/
def fill (cell : BitVec 32 → Cell) (addresses : List (BitVec 32)) (memory : Cell → BitVec 32) :
    Cell → BitVec 32 :=
  addresses.foldl (fun memory i ↦ Function.update memory (cell i) (pattern i)) memory

/-- `bsp_sdram_test`: the address at which the second loop reports a failure and stops. -/
def bspSdramTest (cell : BitVec 32 → Cell) (memory : Cell → BitVec 32) : Option (BitVec 32) :=
  let memory := fill cell window memory
  window.find? fun i ↦ memory (cell i) ≠ pattern i

variable {cell : BitVec 32 → Cell} {addresses : List (BitVec 32)} {memory : Cell → BitVec 32}

theorem fill_of_not_mem {c : Cell} (h : ∀ i ∈ addresses, cell i ≠ c) :
    fill cell addresses memory c = memory c := by
  induction addresses generalizing memory with
  | nil => rfl
  | cons first addresses ih =>
    rw [List.forall_mem_cons] at h
    calc fill cell (first :: addresses) memory c
        = fill cell addresses (Function.update memory (cell first) (pattern first)) c := rfl
      _ = Function.update memory (cell first) (pattern first) c := ih h.2
      _ = memory c := Function.update_of_ne h.1.symm _ _

/-- A cell holds the pattern of one of its words, the last one. -/
theorem exists_fill_eq (memory : Cell → BitVec 32) {c : Cell} (h : ∃ i ∈ addresses, cell i = c) :
    ∃ j ∈ addresses, cell j = c ∧ fill cell addresses memory c = pattern j := by
  induction addresses generalizing memory with
  | nil => simp at h
  | cons first addresses ih =>
    by_cases hlater : ∃ i ∈ addresses, cell i = c
    · obtain ⟨j, hj, hcell, hfill⟩ := ih _ hlater
      exact ⟨j, List.mem_cons_of_mem _ hj, hcell, hfill⟩
    · have hfirst : cell first = c := by simpa [hlater] using h
      have hkept : ∀ i ∈ addresses, cell i ≠ c := fun i hi heq ↦ hlater ⟨i, hi, heq⟩
      refine ⟨first, List.mem_cons_self, hfirst, ?_⟩
      calc fill cell (first :: addresses) memory c
          = fill cell addresses (Function.update memory (cell first) (pattern first)) c := rfl
        _ = Function.update memory (cell first) (pattern first) c := fill_of_not_mem hkept
        _ = pattern first := by rw [hfirst, Function.update_self]

/-- The test fails exactly when two words of the window share a cell but not a pattern. -/
theorem bspSdramTest_isSome_iff :
    (bspSdramTest cell memory).isSome ↔
      ∃ a ∈ window, ∃ b ∈ window, cell a = cell b ∧ pattern a ≠ pattern b := by
  simp only [bspSdramTest, List.find?_isSome, decide_eq_true_eq]
  constructor
  · intro ⟨a, ha, hread⟩
    obtain ⟨b, hb, hcell, hfill⟩ := exists_fill_eq memory ⟨a, ha, rfl⟩
    exact ⟨a, ha, b, hb, hcell.symm, fun heq ↦ hread (hfill.trans heq.symm)⟩
  · intro ⟨a, ha, b, hb, hcell, hpattern⟩
    by_cases hread : fill cell window memory (cell a) = pattern a
    · refine ⟨b, hb, fun hother ↦ hpattern ?_⟩
      rw [← hread, hcell, hother]
    · exact ⟨a, ha, hread⟩

end Test

/-- The cells of a memory that is correct except that two words are the same one. -/
def aliased (first second address : BitVec 32) : BitVec 32 :=
  if address = second then first else address

/-- A word of the window by its index. -/
def word (k : ℕ) : BitVec 32 := SEXT_SDRAM + BitVec.ofNat 32 (4 * k)

theorem mem_window {address : BitVec 32} : address ∈ window ↔ ∃ k < 2 ^ 23, word k = address := by
  have hwords : (EEXT_SDRAM - SEXT_SDRAM).toNat / 4 = 2 ^ 23 := by decide
  simp only [window, hwords, List.mem_map, List.mem_range]
  rfl

/-- Only the square of the index is left of the square of the address. -/
theorem pattern_word (k : ℕ) : pattern (word k) = BitVec.ofNat 32 (16 * (k * k)) := by
  have hsquare : SEXT_SDRAM * SEXT_SDRAM = 0 := by decide
  have hcross : 8 * SEXT_SDRAM = 0 := by decide
  calc pattern (word k)
      = (SEXT_SDRAM + 4 * BitVec.ofNat 32 k) * (SEXT_SDRAM + 4 * BitVec.ofNat 32 k) := by
        rw [pattern, word, BitVec.ofNat_mul]
        rfl
    _ = SEXT_SDRAM * SEXT_SDRAM + 8 * SEXT_SDRAM * BitVec.ofNat 32 k +
          16 * (BitVec.ofNat 32 k * BitVec.ofNat 32 k) := by ring
    _ = 16 * (BitVec.ofNat 32 k * BitVec.ofNat 32 k) := by
        rw [hsquare, hcross, zero_mul, zero_add, zero_add]
    _ = BitVec.ofNat 32 (16 * (k * k)) := by
        rw [BitVec.ofNat_mul, BitVec.ofNat_mul]
        rfl

theorem pattern_word_eq_iff (i j : ℕ) :
    pattern (word i) = pattern (word j) ↔ (2 ^ 28 : ℤ) ∣ (i - j) * (i + j) := by
  have hpatterns : pattern (word i) = pattern (word j) ↔
      16 * (i * i) ≡ 16 * (j * j) [MOD 2 ^ 32] := by
    rw [pattern_word, pattern_word, ← BitVec.toNat_inj, BitVec.toNat_ofNat, BitVec.toNat_ofNat]
    rfl
  have hmodulus : ((2 ^ 32 : ℕ) : ℤ) = 16 * 2 ^ 28 := by norm_num
  have hdifference : ((16 * (j * j) : ℕ) : ℤ) - ((16 * (i * i) : ℕ) : ℤ) =
      16 * -((i - j) * (i + j)) := by
    push_cast
    ring
  rw [hpatterns, Nat.modEq_iff_dvd, hmodulus, hdifference,
    mul_dvd_mul_iff_left (by norm_num : (16 : ℤ) ≠ 0), dvd_neg]

/-- Two words of one cell are noticed exactly when their patterns differ. -/
theorem aliased_isSome_iff {first second : BitVec 32} (hfirst : first ∈ window)
    (hsecond : second ∈ window) (memory : BitVec 32 → BitVec 32) :
    (bspSdramTest (aliased first second) memory).isSome ↔ pattern first ≠ pattern second := by
  rw [bspSdramTest_isSome_iff]
  constructor
  · intro ⟨a, _, b, _, hcell, hpattern⟩ hsame
    have hcells (address : BitVec 32) :
        pattern (aliased first second address) = pattern address := by
      unfold aliased
      split_ifs with heq
      · rw [heq, hsame]
      · rfl
    exact hpattern (by rw [← hcells a, hcell, hcells b])
  · intro hpattern
    have hne : first ≠ second := fun heq ↦ hpattern (heq ▸ rfl)
    refine ⟨first, hfirst, second, hsecond, ?_, hpattern⟩
    rw [aliased, aliased, if_neg hne, if_pos rfl]

/-- **SDRAM test.** For two words of the window that are one cell, the test reports a failure
exactly when the product of difference and sum of their indices is no multiple of 2^28. -/
theorem detected_iff (i j : ℕ) (hi : i < 2 ^ 23) (hj : j < 2 ^ 23)
    (memory : BitVec 32 → BitVec 32) :
    (bspSdramTest (aliased (word i) (word j)) memory).isSome ↔
      ¬ (2 ^ 28 : ℤ) ∣ (i - j) * (i + j) := by
  rw [aliased_isSome_iff (mem_window.mpr ⟨i, hi, rfl⟩) (mem_window.mpr ⟨j, hj, rfl⟩), ne_eq,
    pattern_word_eq_iff]

/-- Neighbouring words are told apart. -/
theorem detected_iff_neighbours :
    (bspSdramTest (aliased (word 0) (word 1)) fun _ ↦ 0).isSome ↔
      ¬ (2 ^ 28 : ℤ) ∣ ((0 : ℕ) - (1 : ℕ)) * ((0 : ℕ) + (1 : ℕ)) :=
  detected_iff 0 1 (by decide) (by decide) fun _ ↦ 0

/-- The words at 0xC0000000 and 0xC0010000 have the same pattern: the test passes. -/
theorem distance_2_16_not_detected :
    word 0 = 0xC0000000 ∧ word (2 ^ 14) = 0xC0010000 ∧
      ¬ (bspSdramTest (aliased (word 0) (word (2 ^ 14))) fun _ ↦ 0).isSome := by
  refine ⟨by decide, by decide, ?_⟩
  rw [aliased_isSome_iff (mem_window.mpr ⟨0, by decide, rfl⟩)
    (mem_window.mpr ⟨2 ^ 14, by decide, rfl⟩), not_not]
  decide

end Vodka.Bsp.Sdram
