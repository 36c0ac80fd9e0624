import Mathlib.Tactic
import Vodka.Bsp.TtyInit

/-!
# The interrupt cache of the TTY streams

`get_dma_irq` keeps the last interrupt found for either direction, for all
descriptors together. Over a history of calls the cache holds the interrupt of
one remembered stream in each direction, and a call that does not clear the
cache answers for that stream, whatever the descriptor says.
-/

namespace Vodka.Bsp.DmaIrqCache

open Tty TtyInit

/-- One call with the descriptor as it is at that time. -/
structure Query where
  des : BspTtyDes
  txRx : Bool
  clearCache : Bool

/-- The stream that the descriptor uses for the direction. -/
def Query.stream (query : Query) : ℕ := if query.txRx then query.des.dmaTx else query.des.dmaRx

/-- The static cache behind a history of calls. -/
def cacheAfter (queries : List Query) : Bool → ℤ :=
  queries.foldl (fun cache query ↦ (getDmaIrq query.des query.txRx query.clearCache cache).2)
    fun _ ↦ NonMaskableInt_IRQn

/-- The call behind that history answers as a lookup of the descriptor's stream does. -/
def Coherent (before : List Query) (query : Query) : Prop :=
  (getDmaIrq query.des query.txRx query.clearCache (cacheAfter before)).1 = streamIrq query.stream

/-- A call looks its stream up when it clears the cache or no stream is remembered. -/
def remember (known : Bool → Option ℕ) (query : Query) : Bool → Option ℕ :=
  if !query.clearCache && (known query.txRx).isSome then known
  else Function.update known query.txRx
    (if query.stream ∈ dmaTb.flatten then some query.stream else none)

/-- The stream of the last lookup in either direction, when it was found. -/
def remembered (queries : List Query) : Bool → Option ℕ :=
  queries.foldl remember fun _ ↦ none

theorem mem_zip_of_streamIrq {stream : ℕ} {line : ℤ} (h : streamIrq stream = some line) :
    (stream, line) ∈ dmaTb.flatten.zip dmaIrqTb.flatten := by
  obtain ⟨before, after, heq, -⟩ := List.lookup_eq_some_iff.mp h
  rw [heq]
  simp

/-- No stream has the interrupt that marks an empty cache. -/
theorem streamIrq_ne_nonMaskable {stream : ℕ} {line : ℤ} (h : streamIrq stream = some line) :
    line ≠ NonMaskableInt_IRQn := by
  have hlines : ∀ entry ∈ dmaTb.flatten.zip dmaIrqTb.flatten, entry.2 ≠ NonMaskableInt_IRQn := by
    decide
  exact hlines _ (mem_zip_of_streamIrq h)

/-- Each stream has its own interrupt. -/
theorem streamIrq_injective {stream other : ℕ} {line : ℤ} (h : streamIrq stream = some line)
    (hother : streamIrq other = some line) : stream = other := by
  have hlines : ∀ entry ∈ dmaTb.flatten.zip dmaIrqTb.flatten,
      ∀ second ∈ dmaTb.flatten.zip dmaIrqTb.flatten,
        entry.2 = second.2 → entry.1 = second.1 := by
    decide
  exact hlines _ (mem_zip_of_streamIrq h) _ (mem_zip_of_streamIrq hother) rfl

/-- The cache holds the interrupt of the stream that is known in each direction. -/
def Caches (cache : Bool → ℤ) (known : Bool → Option ℕ) : Prop :=
  ∀ txRx, match known txRx with
    | none => cache txRx = NonMaskableInt_IRQn
    | some stream => streamIrq stream = some (cache txRx)

theorem Caches.eq_nonMaskable_iff {cache : Bool → ℤ} {known : Bool → Option ℕ}
    (h : Caches cache known) (txRx : Bool) :
    cache txRx = NonMaskableInt_IRQn ↔ known txRx = none := by
  have hentry := h txRx
  cases hknown : known txRx with
  | none => simpa [hknown] using hentry
  | some stream =>
    simp only [hknown] at hentry
    simpa using streamIrq_ne_nonMaskable hentry

/-- What one call does: it answers from the cache, or looks its stream up and remembers it. -/
theorem Caches.getDmaIrq_cases {cache : Bool → ℤ} {known : Bool → Option ℕ}
    (h : Caches cache known) (query : Query) :
    (query.clearCache = false ∧ (known query.txRx).isSome ∧
        getDmaIrq query.des query.txRx query.clearCache cache = (some (cache query.txRx), cache)) ∨
      ((query.clearCache = true ∨ known query.txRx = none) ∧
        getDmaIrq query.des query.txRx query.clearCache cache =
          (streamIrq query.stream, Function.update cache query.txRx
            ((streamIrq query.stream).getD NonMaskableInt_IRQn))) := by
  have hempty := h.eq_nonMaskable_iff query.txRx
  by_cases hcached : query.clearCache = false ∧ (known query.txRx).isSome
  · refine .inl ⟨hcached.1, hcached.2, ?_⟩
    have hline : cache query.txRx ≠ NonMaskableInt_IRQn := fun hline ↦ by
      simp [hempty.mp hline] at hcached
    rw [hcached.1]
    exact getDmaIrq_of_cached _ _ _ hline
  · have hlookup : query.clearCache = true ∨ known query.txRx = none := by
      cases hclear : query.clearCache <;> simp_all
    refine .inr ⟨hlookup, ?_⟩
    have hskip :
        (!query.clearCache && decide (cache query.txRx ≠ NonMaskableInt_IRQn)) = false := by
      rcases hlookup with hclear | hnone
      · simp [hclear]
      · simp [hempty.mpr hnone]
    unfold getDmaIrq
    dsimp only
    rw [hskip]
    cases hirq : streamIrq query.stream <;>
      · unfold streamIrq Query.stream at hirq
        simp [hirq]

theorem Caches.preserved {cache : Bool → ℤ} {known : Bool → Option ℕ} (h : Caches cache known)
    (query : Query) :
    Caches (getDmaIrq query.des query.txRx query.clearCache cache).2 (remember known query) := by
  rcases h.getDmaIrq_cases query with ⟨hclear, hknown, hcall⟩ | ⟨hlookup, hcall⟩
  · rw [hcall, remember, hclear, hknown]
    exact h
  · have hremember : remember known query = Function.update known query.txRx
        (if query.stream ∈ dmaTb.flatten then some query.stream else none) := by
      refine if_neg fun hcached ↦ ?_
      rcases hlookup with hclear | hnone
      · simp [hclear] at hcached
      · simp [hnone] at hcached
    rw [hcall, hremember]
    intro txRx
    rcases eq_or_ne txRx query.txRx with rfl | hne
    · simp only [Function.update_self]
      have hfound := streamIrq_isSome_iff query.stream
      cases hirq : streamIrq query.stream with
      | none =>
        rw [hirq] at hfound
        rw [if_neg (hfound.not.mp (by simp))]
        rfl
      | some line =>
        rw [hirq] at hfound
        rw [if_pos (hfound.mp rfl)]
        exact hirq
    · simp only [Function.update_of_ne hne]
      exact h txRx

theorem caches_history (queries : List Query) :
    Caches (cacheAfter queries) (remembered queries) := by
  have hrun : ∀ (cache : Bool → ℤ) (known : Bool → Option ℕ), Caches cache known →
      Caches (queries.foldl
        (fun cache query ↦ (getDmaIrq query.des query.txRx query.clearCache cache).2) cache)
        (queries.foldl remember known) := by
    induction queries with
    | nil => exact fun _ _ h ↦ h
    | cons query queries ih => exact fun _ _ h ↦ ih _ _ (h.preserved query)
  exact hrun _ _ fun _ ↦ rfl

/-- **Interrupt cache.** Behind every history of calls, a call gives the answer of an uncached
lookup exactly when it clears the cache, or no stream is remembered for its direction, or the
descriptor still uses the one that is. -/
theorem coherent_iff (before : List Query) (query : Query) :
    Coherent before query ↔
      query.clearCache = true ∨ remembered before query.txRx = none ∨
        remembered before query.txRx = some query.stream := by
  have hcaches := caches_history before
  unfold Coherent
  rcases hcaches.getDmaIrq_cases query with ⟨hclear, hknown, hcall⟩ | ⟨hlookup, hcall⟩
  · obtain ⟨stream, hstream⟩ := Option.isSome_iff_exists.mp hknown
    have hline := hcaches query.txRx
    simp only [hstream] at hline
    rw [hcall, hclear, hstream]
    simp only [Bool.false_eq_true, false_or, reduceCtorEq, Option.some.injEq]
    constructor
    · exact fun hsame ↦ streamIrq_injective hline hsame.symm
    · exact fun hsame ↦ hsame ▸ hline.symm
  · rw [hcall]
    exact iff_of_true rfl (hlookup.imp_right .inl)

/-- A second descriptor on another stream. -/
def otherQuery : Query where
  des := { dmaTx := 0x40020040, dmaRx := 0x40020058, txRdPtr := 0, txWrPtr := 0 }
  txRx := true
  clearCache := false

/-- The transmit streams of two descriptors share the cache entry: the second one gets the
interrupt of the first. -/
theorem second_descriptor_not_coherent :
    ¬ Coherent [⟨setDefaultDes exampleRing none, true, false⟩] otherQuery := by
  unfold Coherent
  decide

end Vodka.Bsp.DmaIrqCache
