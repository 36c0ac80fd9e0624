import Mathlib.Tactic
import Vodka.Foundation.Trace

/-!
# The program break of the newlib heap

`sbrk` moves a break between two linker symbols and compares only the sum with
the upper one, in 32-bit pointer arithmetic. A run of calls keeps the break in
the heap exactly when no increment takes the break below the heap or past the
end of the address space, where the comparison does not see it.
-/

namespace Vodka.Syscall.Sbrk

open Foundation.Trace

/-- `HEAP_SIZE` of the linker script. -/
def HEAP_SIZE : ℕ := 0x1000000

/-- `GRAM_SIZE` of the linker script, placed behind the heap in the same region. -/
def GRAM_SIZE : ℕ := 0x600000

/-- The symbols `_sheap_ext_sdram` and `_eheap_ext_sdram` in the region `ext_sdram`. -/
structure HeapBounds where
  heapLow : BitVec 32
  heapHigh : BitVec 32
  origin_le : 0xc0000000 ≤ heapLow.toNat
  aligned : heapLow.toNat % 16 = 0
  high_eq : heapHigh.toNat = heapLow.toNat + HEAP_SIZE
  fits : heapHigh.toNat + GRAM_SIZE ≤ 0xc2000000

/-- Static data of the system calls: `heap_current` is NULL before the first call. -/
structure State where
  heapCurrent : BitVec 32 := 0#32
  errno : ℤ := 0
  yellowLed : Bool := false

def ENOMEM : ℤ := 12

/-- The source's `_sbrk`: the new state and the returned pointer. -/
def sbrk (bounds : HeapBounds) (state : State) (incr : BitVec 32) : State × BitVec 32 :=
  let heapCurrent := if state.heapCurrent = 0#32 then bounds.heapLow else state.heapCurrent
  let heapCurrentOld := heapCurrent
  if heapCurrent + incr > bounds.heapHigh then
    ({ heapCurrent := heapCurrent, errno := ENOMEM, yellowLed := true }, -1#32)
  else
    ({ state with heapCurrent := heapCurrent + incr }, heapCurrentOld)

/-- The break in effect, also before the first call has stored it. -/
def breakOf (bounds : HeapBounds) (state : State) : BitVec 32 :=
  if state.heapCurrent = 0#32 then bounds.heapLow else state.heapCurrent

def step (bounds : HeapBounds) (state : State) (incr : BitVec 32) : Option State :=
  some (sbrk bounds state incr).1

abbrev Call := Transition State (BitVec 32)

def Call.returned (bounds : HeapBounds) (call : Call) : BitVec 32 :=
  (sbrk bounds call.pre call.event).2

/-- The exact address an increment asks for, before any reduction modulo `2 ^ 32`. -/
def requested (bounds : HeapBounds) (state : State) (incr : BitVec 32) : ℤ :=
  (breakOf bounds state).toNat + incr.toInt

/-- The break is an address of the heap or its end. -/
def BreakInHeap (bounds : HeapBounds) (state : State) : Prop :=
  bounds.heapLow.toNat ≤ (breakOf bounds state).toNat ∧
    (breakOf bounds state).toNat ≤ bounds.heapHigh.toNat

instance (bounds : HeapBounds) (state : State) : Decidable (BreakInHeap bounds state) :=
  inferInstanceAs (Decidable (_ ∧ _))

/-- What one call owes: the break stays in the heap, a request outside the heap is refused,
a refusal moves nothing, and a granted request returns the previous break and moves it. -/
structure CallOk (bounds : HeapBounds) (call : Call) : Prop where
  break_in_heap : BreakInHeap bounds call.post
  refused : ¬ (bounds.heapLow.toNat ≤ requested bounds call.pre call.event ∧
      requested bounds call.pre call.event ≤ bounds.heapHigh.toNat) →
    call.returned bounds = -1#32
  unmoved : call.returned bounds = -1#32 → breakOf bounds call.post = breakOf bounds call.pre
  granted : call.returned bounds ≠ -1#32 →
    call.returned bounds = breakOf bounds call.pre ∧
      ((breakOf bounds call.post).toNat : ℤ) = requested bounds call.pre call.event

/-- A call that succeeds with a positive increment grants `[low, high)`. -/
def Grants (bounds : HeapBounds) (call : Call) (low high : ℤ) : Prop :=
  call.returned bounds ≠ -1#32 ∧ 0 < call.event.toInt ∧
    low = (call.returned bounds).toNat ∧ high = low + call.event.toInt

/-- Some call gave memory below `high` back. -/
def Released (bounds : HeapBounds) (calls : List Call) (high : ℤ) : Prop :=
  ∃ call ∈ calls, call.event.toInt < 0 ∧ ((breakOf bounds call.post).toNat : ℤ) < high

/-- Granted regions lie in the heap and, unless released meanwhile, do not overlap. -/
def GrantsDisjoint (bounds : HeapBounds) (calls : List Call) : Prop :=
  ∀ before first between second after, calls = before ++ first :: (between ++ second :: after) →
    ∀ low₁ high₁ low₂ high₂, Grants bounds first low₁ high₁ → Grants bounds second low₂ high₂ →
      (bounds.heapLow.toNat ≤ low₁ ∧ high₁ ≤ bounds.heapHigh.toNat) ∧
      (bounds.heapLow.toNat ≤ low₂ ∧ high₂ ≤ bounds.heapHigh.toNat) ∧
      (high₁ ≤ low₂ ∨ high₂ ≤ low₁ ∨ Released bounds between high₁)

/-- The comparison with `heap_high` sees every request between the heap's start and the
end of the address space. -/
def RequestSeen (bounds : HeapBounds) (state : State) (incr : BitVec 32) : Prop :=
  bounds.heapLow.toNat ≤ requested bounds state incr ∧ requested bounds state incr < 2 ^ 32

variable (bounds : HeapBounds)

/-- The numeric picture of the linker script. -/
theorem HeapBounds.range : 0xc0000000 ≤ bounds.heapLow.toNat ∧
    bounds.heapHigh.toNat = bounds.heapLow.toNat + 0x1000000 ∧
    bounds.heapHigh.toNat ≤ 0xc1a00000 := by
  have hhigh := bounds.high_eq
  have hfits := bounds.fits
  unfold HEAP_SIZE at hhigh
  unfold GRAM_SIZE at hfits
  exact ⟨bounds.origin_le, hhigh, by omega⟩

theorem breakOf_start : breakOf bounds {} = bounds.heapLow := by simp [breakOf]

theorem breakInHeap_start : BreakInHeap bounds {} := by
  have hrange := bounds.range
  rw [BreakInHeap, breakOf_start]
  omega

/-- A sum that the comparison rejects leaves the break where it was. -/
theorem sbrk_of_high_lt (state : State) (incr : BitVec 32)
    (h : bounds.heapHigh < breakOf bounds state + incr) :
    sbrk bounds state incr =
      ({ heapCurrent := breakOf bounds state, errno := ENOMEM, yellowLed := true }, -1#32) := by
  unfold breakOf at h ⊢
  simp only [sbrk, gt_iff_lt, h, if_true]

theorem sbrk_of_le_high (state : State) (incr : BitVec 32)
    (h : ¬ bounds.heapHigh < breakOf bounds state + incr) :
    sbrk bounds state incr =
      ({ state with heapCurrent := breakOf bounds state + incr }, breakOf bounds state) := by
  unfold breakOf at h ⊢
  simp only [sbrk, gt_iff_lt, h, if_false]

theorem breakOf_of_ne_zero {state : State} (h : state.heapCurrent.toNat ≠ 0) :
    breakOf bounds state = state.heapCurrent := by
  have hne : state.heapCurrent ≠ 0#32 := fun hzero ↦ h (by simp [hzero])
  simp [breakOf, hne]

/-- The 32-bit sum against the exact one: an increment wraps at most once. -/
theorem toNat_add_incr (pointer incr : BitVec 32) :
    ((pointer + incr).toNat : ℤ) = (pointer.toNat + incr.toInt) % 2 ^ 32 := by
  rw [BitVec.toNat_add, BitVec.toInt_eq_toNat_cond]
  split <;> omega

theorem toInt_bounds (incr : BitVec 32) : -2 ^ 31 ≤ incr.toInt ∧ incr.toInt < 2 ^ 31 := by
  have hle : -2 ^ 32 ≤ 2 * incr.toInt := BitVec.le_two_mul_toInt
  have hlt : 2 * incr.toInt < 2 ^ 32 := BitVec.two_mul_toInt_lt
  omega

/-- A request the comparison sees is not reduced by the 32-bit addition. -/
theorem sum_eq_requested {state : State} {incr : BitVec 32}
    (hseen : RequestSeen bounds state incr) :
    ((breakOf bounds state + incr).toNat : ℤ) = requested bounds state incr := by
  rw [toNat_add_incr]
  obtain ⟨hstart, hend⟩ := hseen
  unfold requested at hstart hend ⊢
  exact Int.emod_eq_of_lt (by omega) hend

/-- A request the comparison does not see ends below the heap. -/
theorem sum_lt_low {state : State} {incr : BitVec 32} (hbreak : BreakInHeap bounds state)
    (hunseen : ¬ RequestSeen bounds state incr) :
    (breakOf bounds state + incr).toNat < bounds.heapLow.toNat := by
  have hsum := toNat_add_incr (breakOf bounds state) incr
  have hincr := toInt_bounds incr
  have hrange := bounds.range
  obtain ⟨hlow, hle⟩ := hbreak
  unfold RequestSeen requested at hunseen
  rcases lt_or_ge (((breakOf bounds state).toNat : ℤ) + incr.toInt) (2 ^ 32) with hwrap | hwrap
  · rw [Int.emod_eq_of_lt (by omega) hwrap] at hsum
    omega
  · omega

theorem callOk_of_seen {state : State} {incr : BitVec 32} (hbreak : BreakInHeap bounds state)
    (hseen : RequestSeen bounds state incr) :
    CallOk bounds ⟨state, incr, (sbrk bounds state incr).1⟩ := by
  have hsum := sum_eq_requested bounds hseen
  have hrange := bounds.range
  obtain ⟨hlow, hle⟩ := hbreak
  obtain ⟨hstart, -⟩ := hseen
  by_cases hover : bounds.heapHigh < breakOf bounds state + incr
  · have hrefused := sbrk_of_high_lt bounds state incr hover
    have hreturned : Call.returned bounds ⟨state, incr, (sbrk bounds state incr).1⟩ = -1#32 :=
      congrArg Prod.snd hrefused
    have hkept : breakOf bounds (sbrk bounds state incr).1 = breakOf bounds state := by
      rw [hrefused]
      exact breakOf_of_ne_zero bounds (by dsimp only; omega)
    refine ⟨?_, fun _ ↦ hreturned, fun _ ↦ hkept, fun hgranted ↦ absurd hreturned hgranted⟩
    rw [BreakInHeap, hkept]
    exact ⟨hlow, hle⟩
  · have hserved := sbrk_of_le_high bounds state incr hover
    have hreturned : Call.returned bounds ⟨state, incr, (sbrk bounds state incr).1⟩ =
        breakOf bounds state := congrArg Prod.snd hserved
    have hmoved : breakOf bounds (sbrk bounds state incr).1 = breakOf bounds state + incr := by
      rw [hserved]
      exact breakOf_of_ne_zero bounds (by dsimp only; omega)
    rw [BitVec.lt_def] at hover
    refine ⟨?_, fun houtside ↦ absurd ⟨hstart, by dsimp only; omega⟩ houtside, ?_,
      fun _ ↦ ⟨hreturned, by rw [hmoved, hsum]⟩⟩
    · rw [BreakInHeap, hmoved]
      omega
    · intro hfailed
      rw [hreturned] at hfailed
      rw [hfailed] at hle
      norm_num at hle
      omega

theorem seen_of_callOk {state : State} {incr : BitVec 32} (hbreak : BreakInHeap bounds state)
    (hok : CallOk bounds ⟨state, incr, (sbrk bounds state incr).1⟩) :
    RequestSeen bounds state incr := by
  by_contra hunseen
  have hsum := sum_lt_low bounds hbreak hunseen
  have hrange := bounds.range
  have hserved := sbrk_of_le_high bounds state incr (by
    rw [BitVec.lt_def]
    omega)
  have hreturned : Call.returned bounds ⟨state, incr, (sbrk bounds state incr).1⟩ =
      breakOf bounds state := congrArg Prod.snd hserved
  -- The break after the call says nothing here: a sum of exactly 2 ^ 32 stores NULL, which
  -- the next call reads as "not yet initialised".
  have hrefused := hok.refused fun hinside ↦
    hunseen ⟨hinside.1, lt_of_le_of_lt hinside.2 (by omega)⟩
  have hle := hbreak.2
  rw [hreturned] at hrefused
  rw [hrefused] at hle
  norm_num at hle
  omega

theorem callOk_iff_seen {state : State} {incr : BitVec 32} (hbreak : BreakInHeap bounds state) :
    CallOk bounds ⟨state, incr, (sbrk bounds state incr).1⟩ ↔ RequestSeen bounds state incr :=
  ⟨seen_of_callOk bounds hbreak, callOk_of_seen bounds hbreak⟩

variable {bounds}

/-- The region of a grant lies between the breaks around the call. -/
theorem CallOk.grant_between {call : Call} (hok : CallOk bounds call) {low high : ℤ}
    (hgrant : Grants bounds call low high) :
    low = (breakOf bounds call.pre).toNat ∧ high = (breakOf bounds call.post).toNat ∧
      low < high := by
  obtain ⟨hsuccess, hpositive, hlow, hhigh⟩ := hgrant
  obtain ⟨hreturned, hmoved⟩ := hok.granted hsuccess
  rw [hreturned] at hlow
  unfold requested at hmoved
  exact ⟨hlow, by omega, by omega⟩

/-- A call that gives nothing below `high` back keeps the break at or above `high`. -/
theorem CallOk.keeps_above {call : Call} (hok : CallOk bounds call) {high : ℤ}
    (hkept : ¬ (call.event.toInt < 0 ∧ ((breakOf bounds call.post).toNat : ℤ) < high))
    (habove : high ≤ (breakOf bounds call.pre).toNat) :
    high ≤ (breakOf bounds call.post).toNat := by
  by_cases hsuccess : call.returned bounds = -1#32
  · rw [hok.unmoved hsuccess]
    exact habove
  · have hmoved := (hok.granted hsuccess).2
    unfold requested at hmoved
    omega

variable (bounds)

/-- Regions of two grants can only meet when the break came back in between. -/
theorem grantsDisjoint_of_callOk (calls : List (BitVec 32))
    (hok : ∀ call ∈ trace (step bounds) {} calls, CallOk bounds call)
    (hbreak : ∀ call ∈ trace (step bounds) {} calls, BreakInHeap bounds call.pre) :
    GrantsDisjoint bounds (trace (step bounds) {} calls) := by
  intro before first between second after hcalls low₁ high₁ low₂ high₂ hfirst hsecond
  have hmem₁ : first ∈ trace (step bounds) {} calls := by simp [hcalls]
  have hmem₂ : second ∈ trace (step bounds) {} calls := by simp [hcalls]
  obtain ⟨hlow₁, hhigh₁, -⟩ := (hok first hmem₁).grant_between hfirst
  obtain ⟨hlow₂, hhigh₂, -⟩ := (hok second hmem₂).grant_between hsecond
  have hinside₁ := (hok first hmem₁).break_in_heap
  have hinside₂ := (hok second hmem₂).break_in_heap
  have hstart₁ := hbreak first hmem₁
  have hstart₂ := hbreak second hmem₂
  unfold BreakInHeap at hinside₁ hinside₂ hstart₁ hstart₂
  refine ⟨⟨by omega, by omega⟩, ⟨by omega, by omega⟩, ?_⟩
  by_cases hreleased : Released bounds between high₁
  · exact .inr (.inr hreleased)
  have habove := fact_between (fun state ↦ high₁ ≤ (breakOf bounds state).toNat) hcalls
    hhigh₁.le fun call hcall ↦
      (hok call (by simp [hcalls, hcall])).keeps_above fun hback ↦ hreleased ⟨call, hcall, hback⟩
  exact .inl (hlow₂ ▸ habove)

/-- **Heap break.** Over any sequence of calls, every call keeps the break in the heap, refuses
what would leave it and returns the previous break, and granted regions are disjoint, exactly
when the comparison with `heap_high` sees every request. -/
theorem sbrk_heap_ok_iff (calls : List (BitVec 32)) :
    ((∀ call ∈ trace (step bounds) {} calls, CallOk bounds call) ∧
        GrantsDisjoint bounds (trace (step bounds) {} calls)) ↔
      ∀ call ∈ trace (step bounds) {} calls, RequestSeen bounds call.pre call.event := by
  have hpreserved : ∀ state incr next, BreakInHeap bounds state →
      step bounds state incr = some next → RequestSeen bounds state incr →
      BreakInHeap bounds next := by
    intro state incr next hbreak hstep hseen
    obtain rfl := Option.some.inj hstep
    exact (callOk_of_seen bounds hbreak hseen).break_in_heap
  have hcalls : (∀ call ∈ trace (step bounds) {} calls, CallOk bounds call) ↔
      ∀ call ∈ trace (step bounds) {} calls, RequestSeen bounds call.pre call.event := by
    refine forall_trace_iff (fun state _ ↦ BreakInHeap bounds state) (fun _ ↦ True)
      (fun state incr next _ hbreak hstep _ ↦ hpreserved state incr next hbreak hstep)
      ?_ (breakInHeap_start bounds) fun _ _ ↦ trivial
    intro state incr next _ hbreak hstep _
    obtain rfl := Option.some.inj hstep
    exact callOk_iff_seen bounds hbreak
  refine ⟨fun h ↦ hcalls.mp h.1, fun hseen ↦ ⟨hcalls.mpr hseen, ?_⟩⟩
  have hbreak := invariant_of_mem_trace _ _ hpreserved (breakInHeap_start bounds) hseen
  exact grantsDisjoint_of_callOk bounds calls (hcalls.mpr hseen) fun call hcall ↦
    (hbreak call hcall).1

/-- The heap of an image with 1 MiB of external data. -/
def exampleBounds : HeapBounds where
  heapLow := 0xc0100000#32
  heapHigh := 0xc1100000#32
  origin_le := by decide
  aligned := by decide
  high_eq := by decide
  fits := by decide

/-- Giving back one byte of an untouched heap takes the break below it, and asking for 1 GiB
takes it past the end of the address space: both calls succeed. -/
theorem sbrk_leaves_heap :
    ¬ (∀ call ∈ trace (step exampleBounds) {} [-1#32], CallOk exampleBounds call) ∧
      ¬ (∀ call ∈ trace (step exampleBounds) {} [0x40000000#32], CallOk exampleBounds call) := by
  constructor <;> intro hclaim
  · have hok := hclaim ⟨{}, -1#32, (sbrk exampleBounds {} (-1#32)).1⟩ (by simp [trace, step])
    exact absurd hok.break_in_heap (by decide)
  · have hok := hclaim ⟨{}, 0x40000000#32, (sbrk exampleBounds {} 0x40000000#32).1⟩
      (by simp [trace, step])
    exact absurd hok.break_in_heap (by decide)

end Vodka.Syscall.Sbrk
