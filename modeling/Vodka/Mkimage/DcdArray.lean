import Mathlib.Tactic
import Vodka.Mkimage.Config

/-!
# The growing array of DCD words

`push_to_dcd_array` doubles the array when the next word would fill it. The
invariant says which words the array holds and that they fit, so every push
stores inside the block. A command appends its own words, and the first one the
header of the DCD before them.
-/

namespace Vodka.Mkimage.DcdArray

open Foundation.Endian Config

/-- The array holds these words in front of its free room. -/
structure Holds (dcd : DcdArray) (words : List ℕ) : Prop where
  size : dcd.size = 4 * words.length
  allocated : dcd.allocatedSize = 4 * (dcd.data.getD []).length
  stored : (dcd.data.getD []).take words.length = words.map some
  null : dcd.data = none ↔ words = []

/-- The result of pushes: an array that holds the words, or the error of an allocation. -/
def Yields (allocates : ℕ → Bool) (result : Except Failure DcdArray) (words : List ℕ) : Prop :=
  (∃ next, result = .ok next ∧ Holds next words) ∨
    result = .error (.error (-ENOMEM)) ∧ ∃ bytes, allocates bytes = false

theorem holds_empty : Holds ⟨none, 0, 0⟩ [] := ⟨rfl, rfl, rfl, by simp⟩

variable {dcd : DcdArray} {words : List ℕ} {allocates : ℕ → Bool}

theorem Holds.length_le (h : Holds dcd words) : words.length ≤ (dcd.data.getD []).length := by
  have hlength := congrArg List.length h.stored
  rw [List.length_take, List.length_map] at hlength
  omega

/-- There is a block as soon as there is a word. -/
theorem Holds.isSome_iff (h : Holds dcd words) : dcd.data.isSome ↔ dcd.size ≠ 0 := by
  have hsize := h.size
  rw [Option.isSome_iff_ne_none, ne_eq, h.null, ← List.length_eq_zero_iff]
  omega

theorem Yields.bind {result : Except Failure DcdArray} {next : DcdArray → Except Failure DcdArray}
    {more : List ℕ} (h : Yields allocates result words)
    (hnext : ∀ dcd, Holds dcd words → Yields allocates (next dcd) more) :
    Yields allocates (result.bind next) more := by
  rcases h with ⟨dcd, rfl, hdcd⟩ | ⟨rfl, hfails⟩
  · exact hnext dcd hdcd
  · exact .inr ⟨rfl, hfails⟩

theorem Yields.ne_outOfBounds {result : Except Failure DcdArray}
    (h : Yields allocates result words) : result ≠ .error .outOfBounds := by
  rcases h with ⟨dcd, rfl, -⟩ | ⟨rfl, -⟩
  · simp
  · simp

/-- With an allocator that never fails there is an array. -/
theorem Yields.exists_ok {result : Except Failure DcdArray}
    (h : Yields (fun _ ↦ true) result words) : ∃ next, result = .ok next ∧ Holds next words := by
  apply h.resolve_right
  rintro ⟨-, bytes, hfails⟩
  exact Bool.noConfusion hfails

/-- Growing a block keeps its words. -/
theorem reallocWords_eq {block : List (Option ℕ)} {bytes : ℕ} (h : 4 * block.length ≤ bytes) :
    reallocWords block bytes = block ++ List.replicate (bytes / 4 - block.length) none := by
  have hlength : block.length ≤ bytes / 4 := by omega
  rw [reallocWords, List.take_of_length_le hlength]

/-- Storing the next word in a block with room for it. -/
theorem Holds.store (h : Holds dcd words) {block : List (Option ℕ)} {allocatedSize : ℕ} (data : ℕ)
    (hallocated : allocatedSize = 4 * block.length)
    (hstored : block.take words.length = words.map some) (hroom : words.length < block.length) :
    dcd.size / 4 < block.length ∧
      Holds ⟨some (block.set (dcd.size / 4) (some data)), dcd.size + 4, allocatedSize⟩
        (words ++ [data]) := by
  have hsize := h.size
  have helem : dcd.size / 4 = words.length := by omega
  rw [helem]
  refine ⟨hroom, ?size, ?allocated, ?stored, ?null⟩
  case size =>
    rw [List.length_append, List.length_singleton]
    dsimp only
    omega
  case allocated => simpa using hallocated
  case stored =>
    calc (block.set words.length (some data)).take (words ++ [data]).length
        = (block.set words.length (some data)).take words.length ++
            ((block.set words.length (some data))[words.length]?).toList := by
          rw [List.length_append, List.length_singleton, List.take_add_one]
      _ = words.map some ++ [some data] := by
          rw [List.take_set_of_le (Nat.le_refl _), hstored, List.getElem?_set_self hroom]
          rfl
      _ = (words ++ [data]).map some := by
          rw [List.map_append]
          rfl
  case null => simp

/-- A push appends its word inside the block, unless the allocation fails. -/
theorem Holds.push (h : Holds dcd words) (data : ℕ) :
    Yields allocates (pushToDcdArray allocates data dcd) (words ++ [data]) := by
  have hlength := h.length_le
  have hsize := h.size
  have hallocated := h.allocated
  unfold pushToDcdArray
  dsimp only
  by_cases hgrow : dcd.allocatedSize ≤ dcd.size + 4
  · rw [if_pos hgrow]
    set bytes := if dcd.allocatedSize = 0 then 2 * 4 else dcd.allocatedSize * 2 with hbytes
    have hmore : 4 * (dcd.data.getD []).length + 4 ≤ bytes ∧ 4 ∣ bytes := by
      rw [hbytes]
      split_ifs <;> omega
    have hblock : reallocWords (dcd.data.getD []) bytes = dcd.data.getD [] ++
        List.replicate (bytes / 4 - (dcd.data.getD []).length) none :=
      reallocWords_eq (by omega)
    have hgrown : (reallocWords (dcd.data.getD []) bytes).length = bytes / 4 := by
      rw [hblock, List.length_append, List.length_replicate]
      omega
    cases hallocates : allocates bytes with
    | false =>
      right
      exact ⟨rfl, bytes, hallocates⟩
    | true =>
      left
      have hstored : (reallocWords (dcd.data.getD []) bytes).take words.length =
          words.map some := by
        rw [hblock, List.take_append_of_le_length hlength, h.stored]
      obtain ⟨hroom, hholds⟩ := h.store data
        (show bytes = 4 * (reallocWords (dcd.data.getD []) bytes).length by omega) hstored
        (by omega)
      refine ⟨_, ?_, hholds⟩
      simp only [if_true, Except.bind, hroom]
  · rw [if_neg hgrow]
    left
    cases hdata : dcd.data with
    | none =>
      rw [hdata] at hallocated
      simp only [Option.getD_none, List.length_nil] at hallocated
      omega
    | some block =>
      have hstored := h.stored
      rw [hdata] at hallocated hstored
      rw [Option.getD_some] at hallocated hstored
      obtain ⟨hroom, hholds⟩ := h.store data hallocated hstored (by omega)
      refine ⟨_, ?_, hholds⟩
      simp only [Except.bind, hdata, hroom, if_true]

/-- The words of a command, with the flags `write`, `mask` and `set` of its kind. -/
def commandWords (dcdArg : DcdArgs) : List ℕ :=
  match dcdCmdFlags dcdArg.cmd with
  | none => []
  | some (write, mask, set) =>
    let params := dcdParams set mask dcdArg.nbytes.toNat
    let operands := [byteSwap 4 dcdArg.addr.toNat, byteSwap 4 dcdArg.value.toNat]
    if write then dcdWriteHeader 1 params :: operands
    else if dcdArg.count ≠ 0 then
      dcdCheckHeader params :: operands ++ [byteSwap 4 dcdArg.count.toNat]
    else dcdCheckHeaderNoCount params :: operands

/-- The words in front of the next command. -/
def withHeader (words : List ℕ) : List ℕ := if words = [] then [DCD_HEADER] else words

/-- A command appends its words, behind the header of the DCD if it is the first one. -/
theorem Holds.add (h : Holds dcd words) {dcdArg : DcdArgs} (hcmd : dcdArg.cmd ≠ .invalid) :
    Yields allocates (addToDcd allocates dcdArg dcd) (withHeader words ++ commandWords dcdArg) := by
  have hheader : Yields allocates
      (if dcd.data.isNone then pushToDcdArray allocates DCD_HEADER dcd else .ok dcd)
      (withHeader words) := by
    unfold withHeader
    cases hdata : dcd.data with
    | none =>
      have hempty : words = [] := h.null.mp hdata
      have hpush : Yields allocates (pushToDcdArray allocates DCD_HEADER dcd)
          (words ++ [DCD_HEADER]) := h.push DCD_HEADER
      simpa [hempty] using hpush
    | some block =>
      have hfull : words ≠ [] := fun hempty ↦ by simp [h.null.mpr hempty] at hdata
      rw [if_neg hfull]
      exact .inl ⟨dcd, rfl, h⟩
  have hflags : ∃ flags, dcdCmdFlags dcdArg.cmd = some flags := by
    cases hkind : dcdArg.cmd <;> simp_all [dcdCmdFlags]
  obtain ⟨⟨write, mask, set⟩, hflags⟩ := hflags
  unfold addToDcd
  apply hheader.bind
  intro dcd hdcd
  simp only [hflags]
  apply (hdcd.push _).bind
  intro dcd hdcd
  apply (hdcd.push _).bind
  intro dcd hdcd
  cases write with
  | true =>
    apply (hdcd.push _).bind
    intro dcd hdcd
    left
    refine ⟨dcd, rfl, ?_⟩
    simpa [commandWords, hflags] using hdcd
  | false =>
    by_cases hcount : dcdArg.count = 0#32
    · apply (hdcd.push _).bind
      intro dcd hdcd
      left
      refine ⟨dcd, by simp [hcount], ?_⟩
      simpa [commandWords, hflags, hcount] using hdcd
    · apply (hdcd.push _).bind
      intro dcd hdcd
      have hlast : Yields allocates
          (pushToDcdArray allocates (byteSwap 4 dcdArg.count.toNat) dcd) _ := hdcd.push _
      simpa [commandWords, hflags, hcount] using hlast

theorem Holds.addAll {args : List DcdArgs} (h : Holds dcd words) (hwords : words ≠ [])
    (hargs : ∀ dcdArg ∈ args, dcdArg.cmd ≠ .invalid) :
    Yields allocates (args.foldlM (fun dcd dcdArg ↦ addToDcd allocates dcdArg dcd) dcd)
      (words ++ args.flatMap commandWords) := by
  induction args generalizing dcd words with
  | nil =>
    left
    exact ⟨dcd, rfl, by simpa using h⟩
  | cons dcdArg args ih =>
    rw [List.forall_mem_cons] at hargs
    have hadd : Yields allocates (addToDcd allocates dcdArg dcd)
        (withHeader words ++ commandWords dcdArg) := h.add hargs.1
    have hsplit : words ++ (dcdArg :: args).flatMap commandWords =
        words ++ commandWords dcdArg ++ args.flatMap commandWords := by simp
    rw [withHeader, if_neg hwords] at hadd
    rw [List.foldlM_cons, hsplit]
    apply hadd.bind
    intro next hnext
    exact ih hnext (by simp [hwords]) hargs.2

/-- A sequence of commands leaves the header and the words of all of them. -/
theorem addAll_yields {args : List DcdArgs} (hne : args ≠ [])
    (hargs : ∀ dcdArg ∈ args, dcdArg.cmd ≠ .invalid) :
    Yields allocates
      (args.foldlM (fun dcd dcdArg ↦ addToDcd allocates dcdArg dcd) ⟨none, 0, 0⟩)
      (DCD_HEADER :: args.flatMap commandWords) := by
  cases args with
  | nil => exact absurd rfl hne
  | cons dcdArg args =>
    rw [List.forall_mem_cons] at hargs
    rw [List.foldlM_cons]
    apply (holds_empty.add hargs.1).bind
    intro next hnext
    have hrest : Yields allocates
        (args.foldlM (fun dcd dcdArg ↦ addToDcd allocates dcdArg dcd) next)
        (withHeader [] ++ commandWords dcdArg ++ args.flatMap commandWords) :=
      hnext.addAll (by simp [withHeader]) hargs.2
    simpa [withHeader] using hrest

end Vodka.Mkimage.DcdArray
