import Mathlib
import Vodka.Foundation.Trace
import Vodka.Mkimage.DynOffsets

/-!
# Placement of any components

Components may be placed anywhere as long as they are apart, and each automatic
one has an alignment of its own. The search compares a component, put behind
the left neighbour of a gap, with the two neighbours only. Where rounding puts
it behind the right neighbour as well, the test accepts the gap although the
component may reach into one of the next: that is the only way in which a
placement goes wrong.
-/

namespace Vodka.Mkimage.PlacementRuns

open DynOffsets Foundation.Alignment Foundation.Qsort Foundation.Trace

structure State (Part : Type) where
  comps : Part → ImageComp
  placed : List Part
  call : ℕ

section Steps

variable {Part : Type} [DecidableEq Part]

/-- One round of the loop over the components with automatic offset. -/
def placeStep (sorter : Sorter) (state : State Part) (part : Part) : State Part :=
  match state.placed.getLast? with
  | none => { state with comps := setOffset state.comps part 0, placed := [part] }
  | some last =>
    let comps := findSpot part state.comps state.placed
    if (comps part).offset ≠ AUTO_OFFSET then
      let compar := fun part1 part2 ↦ imagePartsComp comps (some part1) (some part2)
      { comps
        placed := sorter.sort state.call compar (state.placed ++ [part])
        call := state.call + 1 }
    else
      { state with
        comps := placeAfter comps last part
        placed := state.placed ++ [part] }

theorem placeParts_cons (sorter : Sorter) (state : State Part) (part : Part) (rest : List Part) :
    placeParts sorter state.call state.comps state.placed (part :: rest) =
      placeParts sorter (placeStep sorter state part).call (placeStep sorter state part).comps
        (placeStep sorter state part).placed rest := by
  rw [placeParts, placeStep]
  cases state.placed.getLast? with
  | none => rfl
  | some last =>
    dsimp only
    split_ifs <;> rfl

/-- The rounds with the states before them. -/
def rounds (sorter : Sorter) (state : State Part) (rest : List Part) :
    List (Transition (State Part) Part) :=
  trace (fun state part ↦ some (placeStep sorter state part)) state rest

theorem rounds_cons (sorter : Sorter) (state : State Part) (part : Part) (rest : List Part) :
    rounds sorter state (part :: rest) =
      ⟨state, part, placeStep sorter state part⟩ ::
        rounds sorter (placeStep sorter state part) rest :=
  trace_cons_of_some rfl

/-- The rounds of `s32_compute_dyn_offsets`. -/
def placements (sorter : Sorter) (comps : Part → ImageComp) (parts : List (Option Part)) :
    List (Transition (State Part) Part) :=
  let sorted := sorter.sort 0 (imagePartsComp comps) parts
  let entries := (sorted.dropWhile Option.isNone).reduceOption
  let isFixed := fun part ↦ decide ((comps part).offset ≠ AUTO_OFFSET)
  rounds sorter ⟨comps, entries.takeWhile isFixed, 1⟩ (entries.dropWhile isFixed)

end Steps

/-- The addresses of a component and its padding. -/
def extent (comp : ImageComp) : Set ℕ :=
  Set.Ico comp.offset (comp.offset + comp.size + comp.padding)

/-- The end of a component, rounded up to an alignment unless it is zero. -/
def roundedEnd (first : ImageComp) (alignment : ℕ) : ℕ :=
  let finish := first.offset + first.size + first.padding
  if alignment ≠ 0 then roundUp finish alignment else finish

/-- The component at the rounded end of another one. -/
def behind (first comp : ImageComp) : ImageComp :=
  { comp with offset := roundedEnd first comp.alignment }

variable {Part : Type} (comps : Part → ImageComp) (part : Part)

/-- No sum of a round overflows: not in the gaps that the search tries, nor behind the last
component if it comes to it. -/
def SumsFit : List Part → Prop
  | [] => (comps part).size + (comps part).padding < 2 ^ 64
  | [last] =>
    roundedEnd (comps last) (comps part).alignment + (comps part).size + (comps part).padding <
      2 ^ 64
  | first :: second :: rest =>
    roundedEnd (comps first) (comps part).alignment + (comps part).size + (comps part).padding <
        2 ^ 64 ∧
      (isInOverlap (behind (comps first) (comps part)) (comps second) = true →
        SumsFit (second :: rest))

/-- The first gap that the test accepts has its right neighbour in front of the rounded end of
the left one, and the component reaches into one that follows. -/
def JumpsInto : List Part → Prop
  | first :: second :: rest =>
    if isInOverlap (behind (comps first) (comps part)) (comps second) = true then
      JumpsInto (second :: rest)
    else (comps second).finish ≤ (behind (comps first) (comps part)).offset ∧
      ∃ third ∈ rest, ¬ Disjoint (extent (behind (comps first) (comps part))) (extent (comps third))
  | _ => False

def PowerOrZero (alignment : ℕ) : Prop := alignment = 0 ∨ ∃ k < 64, alignment = 2 ^ k

variable {comps part}

theorem finish_eq {comp : ImageComp} (h : comp.offset + comp.size + comp.padding < 2 ^ 64) :
    comp.finish = comp.offset + comp.size + comp.padding :=
  Nat.mod_eq_of_lt h

theorem dvd_roundedEnd (first : ImageComp) {alignment : ℕ} (h : alignment ≠ 0) :
    alignment ∣ roundedEnd first alignment := by
  rw [roundedEnd, if_pos h]
  exact dvd_roundUp _ _

theorem le_roundedEnd (first : ImageComp) (alignment : ℕ) :
    first.offset + first.size + first.padding ≤ roundedEnd first alignment := by
  unfold roundedEnd
  dsimp only
  split_ifs with h
  · exact le_roundUp (Nat.pos_of_ne_zero h)
  · exact le_rfl

/-- Where nothing overflows, `place_after` computes the rounded end. -/
theorem placeAfter_eq [DecidableEq Part] {first : Part}
    (halignment : PowerOrZero (comps part).alignment)
    (hfits : (comps first).offset + (comps first).size + (comps first).padding < 2 ^ 64)
    (hrounded : roundedEnd (comps first) (comps part).alignment < 2 ^ 64) :
    placeAfter comps first part =
      setOffset comps part (roundedEnd (comps first) (comps part).alignment) := by
  unfold placeAfter roundedEnd at *
  rw [finish_eq hfits]
  rcases halignment with hzero | ⟨k, hk, hpower⟩
  · simp [hzero]
  · have hspace : 2 ^ k ≠ 0 := (Nat.two_pow_pos k).ne'
    simp only [hpower, if_pos hspace] at *
    rw [(alignUp_eq_roundUp hk.le hrounded).2]

theorem disjoint_extent_iff {comp1 comp2 : ImageComp} :
    Disjoint (extent comp1) (extent comp2) ↔
      min (comp1.offset + comp1.size + comp1.padding)
          (comp2.offset + comp2.size + comp2.padding) ≤
        max comp1.offset comp2.offset :=
  Set.Ico_disjoint_Ico

instance (comp1 comp2 : ImageComp) : Decidable (Disjoint (extent comp1) (extent comp2)) :=
  decidable_of_iff _ disjoint_extent_iff.symm

instance SumsFit.decidable (comps : Part → ImageComp) (part : Part) :
    ∀ placed, Decidable (SumsFit comps part placed)
  | [] => inferInstanceAs (Decidable (_ < _))
  | [_] => inferInstanceAs (Decidable (_ < _))
  | _ :: second :: rest =>
    have := SumsFit.decidable comps part (second :: rest)
    inferInstanceAs (Decidable (_ < _ ∧ (_ → _)))

instance JumpsInto.decidable (comps : Part → ImageComp) (part : Part) :
    ∀ placed, Decidable (JumpsInto comps part placed)
  | [] => inferInstanceAs (Decidable False)
  | [_] => inferInstanceAs (Decidable False)
  | first :: second :: rest =>
    have := JumpsInto.decidable comps part (second :: rest)
    inferInstanceAs (Decidable
      (if isInOverlap (behind (comps first) (comps part)) (comps second) = true then
        JumpsInto comps part (second :: rest)
      else (comps second).finish ≤ (behind (comps first) (comps part)).offset ∧
        ∃ third ∈ rest,
          ¬ Disjoint (extent (behind (comps first) (comps part))) (extent (comps third))))

/-- The test of the source, where nothing overflows. -/
theorem isInOverlap_iff {comp1 comp2 : ImageComp}
    (h1 : comp1.offset + comp1.size + comp1.padding < 2 ^ 64)
    (h2 : comp2.offset + comp2.size + comp2.padding < 2 ^ 64) :
    isInOverlap comp1 comp2 = true ↔
      comp2.offset < comp1.offset + comp1.size + comp1.padding ∧
        comp1.offset < comp2.offset + comp2.size + comp2.padding := by
  simp [isInOverlap, finish_eq h1, finish_eq h2]

/-- Placed components in the order of their offsets, apart from each other. -/
structure InOrder (comps : Part → ImageComp) (placed : List Part) : Prop where
  sorted : placed.Pairwise fun part1 part2 ↦ (comps part1).offset ≤ (comps part2).offset
  fits : ∀ part ∈ placed,
    (comps part).offset + (comps part).size + (comps part).padding < 2 ^ 64
  disjoint : placed.Pairwise fun part1 part2 ↦
    Disjoint (extent (comps part1)) (extent (comps part2))

variable {placed : List Part}

theorem InOrder.tail {first : Part} (h : InOrder comps (first :: placed)) :
    InOrder comps placed where
  sorted := (List.pairwise_cons.mp h.sorted).2
  fits part hpart := h.fits part (List.mem_cons_of_mem _ hpart)
  disjoint := (List.pairwise_cons.mp h.disjoint).2

theorem InOrder.offset_le_finish (h : InOrder comps placed) (part : Part) (hpart : part ∈ placed) :
    (comps part).offset ≤ (comps part).finish := by
  rw [finish_eq (h.fits part hpart), add_assoc]
  exact Nat.le_add_right _ _

theorem InOrder.offset_le_of_mem {first other : Part} (h : InOrder comps (first :: placed))
    (hother : other ∈ first :: placed) : (comps first).offset ≤ (comps other).offset := by
  rcases List.mem_cons.mp hother with rfl | hother
  · exact le_rfl
  · exact (List.pairwise_cons.mp h.sorted).1 other hother

/-- The component at an offset is apart from what ends in front of it. -/
theorem disjoint_of_finish_le {first other : Part} (h : InOrder comps placed)
    (hother : other ∈ placed)
    (hle : (comps other).finish ≤ roundedEnd (comps first) (comps part).alignment) :
    Disjoint (extent (behind (comps first) (comps part))) (extent (comps other)) := by
  rw [finish_eq (h.fits other hother)] at hle
  rw [disjoint_extent_iff]
  exact (min_le_right _ _).trans (hle.trans (le_max_left _ _))

/-- A gap that the test rejects has its neighbours in order. -/
theorem InOrder.finish_le_of_overlap {first second : Part} {rest : List Part}
    (h : InOrder comps (first :: second :: rest))
    (hrounded : roundedEnd (comps first) (comps part).alignment + (comps part).size +
      (comps part).padding < 2 ^ 64)
    (hoverlap : isInOverlap (behind (comps first) (comps part)) (comps second) = true) :
    (comps first).finish ≤ (comps second).offset := by
  have hsecond := h.fits second (by simp)
  have hafter := le_roundedEnd (comps first) (comps part).alignment
  have hsorted := (List.pairwise_cons.mp h.sorted).1 second List.mem_cons_self
  have hdisjoint := (List.pairwise_cons.mp h.disjoint).1 second List.mem_cons_self
  rw [isInOverlap_iff hrounded hsecond] at hoverlap
  rw [disjoint_extent_iff] at hdisjoint
  rw [finish_eq (h.fits first List.mem_cons_self)]
  simp only [behind] at hoverlap
  omega

/-- An accepted gap goes wrong exactly where the component reaches behind its right neighbour. -/
theorem InOrder.jumps_iff {first second : Part} {rest : List Part}
    (h : InOrder comps (first :: second :: rest))
    (hrounded : roundedEnd (comps first) (comps part).alignment + (comps part).size +
      (comps part).padding < 2 ^ 64)
    (hfree : ¬ isInOverlap (behind (comps first) (comps part)) (comps second) = true) :
    ((comps second).finish ≤ (behind (comps first) (comps part)).offset ∧
        ∃ third ∈ rest,
          ¬ Disjoint (extent (behind (comps first) (comps part))) (extent (comps third))) ↔
      ∃ other ∈ first :: second :: rest,
        ¬ Disjoint (extent (behind (comps first) (comps part))) (extent (comps other)) := by
  have hsecond := h.fits second (by simp)
  have hafter := le_roundedEnd (comps first) (comps part).alignment
  have hfirst : Disjoint (extent (behind (comps first) (comps part))) (extent (comps first)) := by
    refine disjoint_of_finish_le h List.mem_cons_self ?_
    rwa [finish_eq (h.fits first List.mem_cons_self)]
  rw [isInOverlap_iff hrounded hsecond] at hfree
  simp only [List.exists_mem_cons_iff, hfirst, not_true_eq_false, false_or]
  rw [finish_eq hsecond]
  constructor
  · exact fun hjump ↦ .inr hjump.2
  · rintro (hmeets | ⟨third, hthird, hmeets⟩)
    · rw [disjoint_extent_iff] at hmeets
      simp only [behind] at hfree hmeets
      omega
    · refine ⟨?_, third, hthird, hmeets⟩
      have hsorted := (List.pairwise_cons.mp h.tail.sorted).1 third hthird
      rw [disjoint_extent_iff] at hmeets
      simp only [behind] at hfree hmeets ⊢
      omega

theorem roundedEnd_lt (first : ImageComp) {alignment room : ℕ} (hroom : 0 < room)
    (h : alignment ≤ room) :
    roundedEnd first alignment < first.offset + first.size + first.padding + room := by
  unfold roundedEnd
  dsimp only
  split_ifs with hzero
  · exact lt_of_lt_of_le (roundUp_lt (Nat.pos_of_ne_zero hzero)) (by omega)
  · omega

/-- Rounding does not reach over a component that is not smaller than the alignment. -/
theorem InOrder.not_jumpsInto (h : InOrder comps placed)
    (hlarge : ∀ other ∈ placed, 0 < (comps other).size + (comps other).padding ∧
      (comps part).alignment ≤ (comps other).size + (comps other).padding) :
    ¬ JumpsInto comps part placed := by
  induction placed with
  | nil => exact id
  | cons first rest ih =>
    cases rest with
    | nil => exact id
    | cons second rest =>
      rw [JumpsInto]
      split_ifs
      · exact ih h.tail fun other hother ↦ hlarge other (List.mem_cons_of_mem _ hother)
      · rintro ⟨hle, -⟩
        obtain ⟨hpos, hroom⟩ := hlarge second (by simp)
        have hnear := roundedEnd_lt (comps first) hpos hroom
        have hsorted := (List.pairwise_cons.mp h.sorted).1 second List.mem_cons_self
        have hdisjoint := (List.pairwise_cons.mp h.disjoint).1 second List.mem_cons_self
        rw [disjoint_extent_iff] at hdisjoint
        rw [finish_eq (h.fits second (by simp))] at hle
        simp only [behind] at hle
        omega

/-- The search leaves the component behind others that are in order up to the last one. -/
structure SearchFails [DecidableEq Part] (comps : Part → ImageComp) (part : Part)
    (placed : List Part) : Prop where
  spot_eq : findSpot part comps placed = comps
  stays : ¬ JumpsInto comps part placed
  finish_le_last : ∀ last, placed.getLast? = some last →
    ∀ other ∈ placed, (comps other).finish ≤ (comps last).finish
  room : ∀ last, placed.getLast? = some last →
    roundedEnd (comps last) (comps part).alignment + (comps part).size + (comps part).padding <
      2 ^ 64

/-- The search puts the component at the rounded end of a placed one, which is wrong exactly where
it jumps into another. -/
structure SearchFinds [DecidableEq Part] (comps : Part → ImageComp) (part : Part)
    (placed : List Part) (first : Part) : Prop where
  mem : first ∈ placed
  spot_eq : findSpot part comps placed =
    setOffset comps part (roundedEnd (comps first) (comps part).alignment)
  room : roundedEnd (comps first) (comps part).alignment + (comps part).size +
    (comps part).padding < 2 ^ 64
  jumps_iff : JumpsInto comps part placed ↔ ∃ other ∈ placed,
    ¬ Disjoint (extent (behind (comps first) (comps part))) (extent (comps other))

section Search

variable [DecidableEq Part] {first second : Part} {rest : List Part}

/-- The first gap of the search: passed over if rejected, and taken otherwise. -/
theorem findSpot_cons (h : InOrder comps (first :: second :: rest))
    (hnew : part ∉ first :: second :: rest) (hauto : (comps part).offset = AUTO_OFFSET)
    (halignment : PowerOrZero (comps part).alignment)
    (hrounded : roundedEnd (comps first) (comps part).alignment + (comps part).size +
      (comps part).padding < 2 ^ 64) :
    findSpot part comps (first :: second :: rest) =
      if isInOverlap (behind (comps first) (comps part)) (comps second) = true then
        findSpot part comps (second :: rest)
      else setOffset comps part (roundedEnd (comps first) (comps part).alignment) := by
  have hplace := placeAfter_eq halignment (h.fits first List.mem_cons_self) (by omega)
  have hself : setOffset comps part (roundedEnd (comps first) (comps part).alignment) part =
      behind (comps first) (comps part) := setOffset_self _ _ _
  have hreset := setOffset_placeAfter comps first part hauto
  have hbehind : ¬ isInOverlap (behind (comps first) (comps part)) (comps first) = true := by
    have hafter := le_roundedEnd (comps first) (comps part).alignment
    rw [isInOverlap_iff hrounded (h.fits first List.mem_cons_self)]
    simp only [behind]
    omega
  rw [hplace] at hreset
  rw [findSpot]
  simp only [hplace, hself, hreset, setOffset_of_mem comps _ hnew List.mem_cons_self,
    setOffset_of_mem comps _ hnew (List.mem_cons_of_mem _ List.mem_cons_self), if_neg hbehind]

theorem SearchFails.cons (h : InOrder comps (first :: second :: rest))
    (hspot : findSpot part comps (first :: second :: rest) = findSpot part comps (second :: rest))
    (hjumps : JumpsInto comps part (first :: second :: rest) ↔
      JumpsInto comps part (second :: rest))
    (hnext : (comps first).finish ≤ (comps second).offset)
    (hfails : SearchFails comps part (second :: rest)) :
    SearchFails comps part (first :: second :: rest) where
  spot_eq := hspot.trans hfails.spot_eq
  stays := fun hjump ↦ hfails.stays (hjumps.mp hjump)
  finish_le_last := by
    intro last hlast
    rw [List.getLast?_cons_cons] at hlast
    have hends := hfails.finish_le_last last hlast
    refine List.forall_mem_cons.mpr ⟨?_, hends⟩
    calc (comps first).finish ≤ (comps second).offset := hnext
      _ ≤ (comps second).finish := h.tail.offset_le_finish second List.mem_cons_self
      _ ≤ (comps last).finish := hends second List.mem_cons_self
  room := by
    intro last hlast
    rw [List.getLast?_cons_cons] at hlast
    exact hfails.room last hlast

theorem SearchFinds.cons {left : Part} (h : InOrder comps (first :: second :: rest))
    (hspot : findSpot part comps (first :: second :: rest) = findSpot part comps (second :: rest))
    (hjumps : JumpsInto comps part (first :: second :: rest) ↔
      JumpsInto comps part (second :: rest))
    (hnext : (comps first).finish ≤ (comps second).offset)
    (hfinds : SearchFinds comps part (second :: rest) left) :
    SearchFinds comps part (first :: second :: rest) left where
  mem := List.mem_cons_of_mem _ hfinds.mem
  spot_eq := hspot.trans hfinds.spot_eq
  room := hfinds.room
  jumps_iff := by
    have hclear : Disjoint (extent (behind (comps left) (comps part))) (extent (comps first)) := by
      refine disjoint_of_finish_le h List.mem_cons_self ?_
      calc (comps first).finish ≤ (comps second).offset := hnext
        _ ≤ (comps left).offset := h.tail.offset_le_of_mem hfinds.mem
        _ ≤ (comps left).finish := h.tail.offset_le_finish left hfinds.mem
        _ ≤ roundedEnd (comps left) (comps part).alignment := by
          rw [finish_eq (h.tail.fits left hfinds.mem)]
          exact le_roundedEnd _ _
    refine (hjumps.trans hfinds.jumps_iff).trans ⟨?_, ?_⟩
    · rintro ⟨other, hother, hmeets⟩
      exact ⟨other, List.mem_cons_of_mem _ hother, hmeets⟩
    · rintro ⟨other, hother, hmeets⟩
      refine ⟨other, (List.mem_cons.mp hother).resolve_left ?_, hmeets⟩
      rintro rfl
      exact hmeets hclear

/-- The search fails behind components that are all in order, or finds the rounded end of one of
them. -/
theorem findSpot_spec (h : InOrder comps placed) (hnew : part ∉ placed)
    (hauto : (comps part).offset = AUTO_OFFSET) (halignment : PowerOrZero (comps part).alignment)
    (hsums : SumsFit comps part placed) :
    SearchFails comps part placed ∨ ∃ first, SearchFinds comps part placed first := by
  induction placed with
  | nil => exact .inl ⟨rfl, id, by simp, by simp⟩
  | cons first rest ih =>
    cases rest with
    | nil =>
      refine .inl ⟨rfl, id, fun last hlast ↦ ?_, fun last hlast ↦ ?_⟩
      all_goals obtain rfl : first = last := by simpa using hlast
      · simp
      · exact hsums
    | cons second rest =>
      obtain ⟨hrounded, hlater⟩ := hsums
      have hspot := findSpot_cons h hnew hauto halignment hrounded
      by_cases hoverlap : isInOverlap (behind (comps first) (comps part)) (comps second) = true
      · -- The gap is rejected, so that the search goes on behind components in order.
        have hnext := h.finish_le_of_overlap hrounded hoverlap
        have hjumps : JumpsInto comps part (first :: second :: rest) ↔
            JumpsInto comps part (second :: rest) := by
          rw [JumpsInto, if_pos hoverlap]
        rw [if_pos hoverlap] at hspot
        have hrest : part ∉ second :: rest := fun hmem ↦ hnew (List.mem_cons_of_mem _ hmem)
        rcases ih h.tail hrest (hlater hoverlap) with hfails | ⟨left, hfinds⟩
        · exact .inl (hfails.cons h hspot hjumps hnext)
        · exact .inr ⟨left, hfinds.cons h hspot hjumps hnext⟩
      · rw [if_neg hoverlap] at hspot
        refine .inr ⟨first, List.mem_cons_self, hspot, hrounded, ?_⟩
        rw [JumpsInto, if_neg hoverlap]
        exact h.jumps_iff hrounded hoverlap

end Search

/-! ## The rounds -/

/-- An automatic component as it may be given. -/
structure Automatic (comp : ImageComp) : Prop where
  auto : comp.offset = AUTO_OFFSET
  size_pos : 0 < comp.size
  alignment : PowerOrZero comp.alignment

/-- The placed components are in order and the automatic ones aligned; the components in
`initial` are as they were given, and nothing else has changed. -/
structure Settled (initial comps : Part → ImageComp) (placed : List Part) : Prop where
  nodup : placed.Nodup
  inOrder : InOrder comps placed
  aligned : ∀ part ∈ placed, ¬ Fixed initial part → (initial part).alignment ≠ 0 →
    (initial part).alignment ∣ (comps part).offset
  frame : ∀ part, comps part = { initial part with offset := (comps part).offset }
  kept : ∀ part, Fixed initial part ∨ part ∉ placed →
    (comps part).offset = (initial part).offset

variable {initial : Part → ImageComp} {state : State Part}

theorem Settled.eq_initial (h : Settled initial comps placed) (hnew : part ∉ placed) :
    comps part = initial part := by
  rw [h.frame part, h.kept part (.inr hnew)]

variable [DecidableEq Part]

/-- A round has put the component at an aligned offset, in the order of the offsets; it goes wrong
exactly where the component jumps into another one. -/
structure Lands (initial : Part → ImageComp) (state next : State Part) (part : Part)
    (offset : ℕ) : Prop where
  comps_eq : next.comps = setOffset state.comps part offset
  perm : next.placed.Perm (state.placed ++ [part])
  sorted : next.placed.Pairwise fun part1 part2 ↦
    (setOffset state.comps part offset part1).offset ≤
      (setOffset state.comps part offset part2).offset
  aligned : (initial part).alignment ≠ 0 → (initial part).alignment ∣ offset
  fits : offset + (initial part).size + (initial part).padding < 2 ^ 64
  jumps_iff : JumpsInto state.comps part state.placed ↔ ∃ other ∈ state.placed,
    ¬ Disjoint (extent { initial part with offset }) (extent (state.comps other))

/-- The first component of all goes to the start. -/
theorem placeStep_start (sorter : Sorter) (hempty : state.placed = [])
    (hcomp : state.comps part = initial part) (hsums : SumsFit state.comps part state.placed) :
    Lands initial state (placeStep sorter state part) part 0 := by
  rw [hempty, SumsFit, hcomp] at hsums
  have hstep : placeStep sorter state part =
      { state with comps := setOffset state.comps part 0, placed := [part] } := by
    rw [placeStep, hempty]
    rfl
  rw [hstep]
  refine ⟨rfl, by simp [hempty], List.pairwise_singleton _ _, fun _ ↦ dvd_zero _, by omega, ?_⟩
  simp [hempty, JumpsInto]

/-- Where there is no gap, the component goes behind the last one. -/
theorem placeStep_behind (sorter : Sorter) (h : Settled initial state.comps state.placed)
    (hnew : part ∉ state.placed) (hpart : Automatic (initial part)) {last : Part}
    (hlast : state.placed.getLast? = some last)
    (hfails : SearchFails state.comps part state.placed) :
    Lands initial state (placeStep sorter state part) part
      (roundedEnd (state.comps last) (initial part).alignment) := by
  have hcomp := h.eq_initial hnew
  have hmem : last ∈ state.placed := List.mem_of_getLast? hlast
  have hrounded := hfails.room last hlast
  have hplace := placeAfter_eq (hcomp ▸ hpart.alignment) (h.inOrder.fits last hmem)
    (show roundedEnd (state.comps last) (state.comps part).alignment < 2 ^ 64 by omega)
  have hstep : placeStep sorter state part =
      { state with
        comps := placeAfter state.comps last part
        placed := state.placed ++ [part] } := by
    rw [placeStep, hlast]
    simp [hfails.spot_eq, hcomp, hpart.auto]
  have hafter (other : Part) (hother : other ∈ state.placed) :
      (state.comps other).finish ≤
        roundedEnd (state.comps last) (state.comps part).alignment := by
    refine (hfails.finish_le_last last hlast other hother).trans ?_
    rw [finish_eq (h.inOrder.fits last hmem)]
    exact le_roundedEnd _ _
  rw [hstep, ← hcomp]
  refine ⟨hplace, List.Perm.refl _, ?_, ?_, hcomp ▸ hrounded, iff_of_false hfails.stays ?_⟩
  · refine List.pairwise_append.mpr
      ⟨h.inOrder.sorted.imp_of_mem ?_, List.pairwise_singleton _ _, ?_⟩
    · intro part1 part2 h1 h2 hle
      rwa [setOffset_of_mem _ _ hnew h1, setOffset_of_mem _ _ hnew h2]
    · intro other hother new hlastNew
      rw [List.mem_singleton.mp hlastNew, setOffset_self, setOffset_of_mem _ _ hnew hother]
      exact (h.inOrder.offset_le_finish other hother).trans (hafter other hother)
  · rw [hcomp]
    exact dvd_roundedEnd _
  · rintro ⟨other, hother, hmeets⟩
    rw [← hcomp] at hmeets
    exact hmeets (disjoint_of_finish_le h.inOrder hother (hafter other hother))

/-- In a gap, sorting puts the component in its place. -/
theorem placeStep_gap (sorter : Sorter) (hcomp : state.comps part = initial part)
    (hpart : Automatic (initial part)) {last first : Part}
    (hlast : state.placed.getLast? = some last)
    (hfinds : SearchFinds state.comps part state.placed first) :
    Lands initial state (placeStep sorter state part) part
      (roundedEnd (state.comps first) (initial part).alignment) := by
  obtain ⟨-, hspot, hrounded, hjump⟩ := hfinds
  rw [hcomp] at hspot hrounded hjump
  have hfound : roundedEnd (state.comps first) (initial part).alignment ≠ AUTO_OFFSET := by
    have hpos := hpart.size_pos
    unfold AUTO_OFFSET
    omega
  have hstep : placeStep sorter state part =
      { comps := findSpot part state.comps state.placed
        placed := sorter.sort state.call (fun part1 part2 ↦
          imagePartsComp (findSpot part state.comps state.placed) (some part1) (some part2))
            (state.placed ++ [part])
        call := state.call + 1 } := by
    rw [placeStep, hlast]
    simp [hspot, hfound]
  rw [hstep, hspot]
  exact ⟨rfl, sorter.perm _ _ _, sorter.sorted _ _ _ (imagePartsComp_some_comparesBy _) _,
    dvd_roundedEnd _, hrounded, hjump⟩

theorem placeStep_lands (sorter : Sorter) (h : Settled initial state.comps state.placed)
    (hnew : part ∉ state.placed) (hpart : Automatic (initial part))
    (hsums : SumsFit state.comps part state.placed) :
    ∃ offset, Lands initial state (placeStep sorter state part) part offset := by
  have hcomp := h.eq_initial hnew
  cases hlast : state.placed.getLast? with
  | none => exact ⟨0, placeStep_start sorter (List.getLast?_eq_none_iff.mp hlast) hcomp hsums⟩
  | some last =>
    rcases findSpot_spec h.inOrder hnew (hcomp ▸ hpart.auto) (hcomp ▸ hpart.alignment) hsums with
      hfails | ⟨first, hfinds⟩
    · exact ⟨_, placeStep_behind sorter h hnew hpart hlast hfails⟩
    · exact ⟨_, placeStep_gap sorter hcomp hpart hlast hfinds⟩

/-- A component that comes to lie apart from the others keeps them settled. -/
theorem Settled.insert (h : Settled initial comps placed) (hnew : part ∉ placed)
    (hauto : ¬ Fixed initial part) {offset : ℕ} {order : List Part}
    (hperm : order.Perm (placed ++ [part]))
    (hsorted : order.Pairwise fun part1 part2 ↦
      (setOffset comps part offset part1).offset ≤ (setOffset comps part offset part2).offset)
    (haligned : (initial part).alignment ≠ 0 → (initial part).alignment ∣ offset)
    (hfits : offset + (initial part).size + (initial part).padding < 2 ^ 64)
    (hclear : ∀ other ∈ placed,
      Disjoint (extent { initial part with offset }) (extent (comps other))) :
    Settled initial (setOffset comps part offset) order := by
  have hcomp := h.eq_initial hnew
  have hself : setOffset comps part offset part = { initial part with offset } := by
    rw [setOffset_self, hcomp]
  have hkept (other : Part) (hother : other ∈ placed) :
      setOffset comps part offset other = comps other := setOffset_of_mem _ _ hnew hother
  have hforall {Fact : Part → Prop} (hold : ∀ other ∈ placed, Fact other) (hpart : Fact part) :
      ∀ other ∈ order, Fact other := by
    intro other hother
    rcases List.mem_append.mp (hperm.mem_iff.mp hother) with hother | hother
    · exact hold other hother
    · exact List.mem_singleton.mp hother ▸ hpart
  refine ⟨?_, ⟨hsorted, ?_, ?_⟩, ?_, ?_, ?_⟩
  · refine hperm.nodup_iff.mpr (List.nodup_append.mpr ⟨h.nodup, List.nodup_singleton part, ?_⟩)
    intro other hother _ hlast heq
    exact hnew (List.mem_singleton.mp hlast ▸ heq ▸ hother)
  · refine hforall (fun other hother ↦ ?_) (by rwa [hself])
    rw [hkept other hother]
    exact h.inOrder.fits other hother
  · refine (List.Perm.pairwise_iff (fun hdisjoint ↦ hdisjoint.symm) hperm).mpr ?_
    refine List.pairwise_append.mpr ⟨h.inOrder.disjoint.imp_of_mem ?_,
      List.pairwise_singleton _ _, ?_⟩
    · intro part1 part2 h1 h2 hdisjoint
      rwa [hkept part1 h1, hkept part2 h2]
    · intro other hother last hlast
      rw [List.mem_singleton.mp hlast, hself, hkept other hother]
      exact (hclear other hother).symm
  · refine hforall (fun other hother ↦ ?_) fun _ hne ↦ by rw [hself]; exact haligned hne
    rw [hkept other hother]
    exact h.aligned other hother
  · intro other
    rcases eq_or_ne other part with rfl | hne
    · rw [hself]
    · rw [setOffset_of_ne comps offset hne]
      exact h.frame other
  · intro other hother
    have hne : other ≠ part := by
      rintro rfl
      refine hother.elim hauto fun hout ↦ hout (hperm.mem_iff.mpr ?_)
      exact List.mem_append_right _ (List.mem_singleton_self _)
    rw [setOffset_of_ne comps offset hne]
    refine h.kept other (hother.imp_right fun hout hin ↦ hout (hperm.mem_iff.mpr ?_))
    exact List.mem_append_left _ hin

/-- A round that does not jump keeps the components settled. -/
theorem Settled.placeStep (sorter : Sorter) (h : Settled initial state.comps state.placed)
    (hnew : part ∉ state.placed) (hpart : Automatic (initial part))
    (hsums : SumsFit state.comps part state.placed)
    (hstays : ¬ JumpsInto state.comps part state.placed) (rest : List Part) :
    Settled initial (placeStep sorter state part).comps (placeStep sorter state part).placed ∧
      ((placeStep sorter state part).placed ++ rest).Perm (state.placed ++ part :: rest) := by
  obtain ⟨offset, hlands⟩ := placeStep_lands sorter h hnew hpart hsums
  constructor
  · rw [hlands.comps_eq]
    refine h.insert hnew (fun hfixed ↦ hfixed hpart.auto) hlands.perm hlands.sorted
      hlands.aligned hlands.fits ?_
    intro other hother
    by_contra hmeets
    exact hstays (hlands.jumps_iff.mpr ⟨other, hother, hmeets⟩)
  · simpa using hlands.perm.append_right rest

/-- The search moves no other component. -/
theorem findSpot_of_ne {other : Part} (hne : other ≠ part) (comps : Part → ImageComp)
    (placed : List Part) : findSpot part comps placed other = comps other := by
  have hplace (comps : Part → ImageComp) (first : Part) :
      placeAfter comps first part other = comps other := setOffset_of_ne _ _ hne
  induction placed generalizing comps with
  | nil => rfl
  | cons first rest ih =>
    cases rest with
    | nil => rfl
    | cons second rest =>
      rw [findSpot]
      split_ifs
      · rw [ih, setOffset_of_ne _ _ hne, hplace]
      · rw [ih, setOffset_of_ne _ _ hne, hplace]
      · exact hplace comps first

theorem placeStep_of_ne (sorter : Sorter) {other : Part} (hne : other ≠ part) :
    (placeStep sorter state part).comps other = state.comps other := by
  unfold placeStep
  split
  · exact setOffset_of_ne _ _ hne
  · dsimp only
    split_ifs
    · exact findSpot_of_ne hne _ _
    · exact (setOffset_of_ne _ _ hne).trans (findSpot_of_ne hne _ _)

/-- Components stay where they are while others are placed. -/
theorem placeParts_of_not_mem (sorter : Sorter) (state : State Part) {rest : List Part}
    {other : Part} (hother : other ∉ rest) :
    (placeParts sorter state.call state.comps state.placed rest).1 other =
      state.comps other := by
  induction rest generalizing state with
  | nil => rfl
  | cons part rest ih =>
    rw [List.mem_cons, not_or] at hother
    rw [placeParts_cons, ih _ hother.2, placeStep_of_ne sorter hother.1]

variable {rest : List Part}

/-- Rounds that do not jump into a component settle all of them. -/
theorem placeParts_settled (sorter : Sorter) (state : State Part)
    (h : Settled initial state.comps state.placed)
    (hrest : ∀ part ∈ rest, Automatic (initial part)) (hnodup : (state.placed ++ rest).Nodup)
    (hsums : ∀ round ∈ rounds sorter state rest,
      SumsFit round.pre.comps round.event round.pre.placed)
    (hjumps : ∀ round ∈ rounds sorter state rest,
      ¬ JumpsInto round.pre.comps round.event round.pre.placed) :
    Settled initial (placeParts sorter state.call state.comps state.placed rest).1
        (placeParts sorter state.call state.comps state.placed rest).2 ∧
      (placeParts sorter state.call state.comps state.placed rest).2.Perm
        (state.placed ++ rest) := by
  induction rest generalizing state with
  | nil => exact ⟨h, by simp [placeParts]⟩
  | cons part rest ih =>
    rw [rounds_cons, List.forall_mem_cons] at hsums hjumps
    obtain ⟨hpart, hlater⟩ := List.forall_mem_cons.mp hrest
    have hnew : part ∉ state.placed := not_mem_of_nodup hnodup
    obtain ⟨hnext, hmove⟩ := h.placeStep sorter hnew hpart hsums.1 hjumps.1 rest
    obtain ⟨hfinal, hfinalPerm⟩ := ih _ hnext hlater (hmove.nodup_iff.mpr hnodup) hsums.2 hjumps.2
    rw [placeParts_cons]
    exact ⟨hfinal, hfinalPerm.trans hmove⟩

/-- A round that jumps into a component leaves the two where they meet. -/
theorem not_jumpsInto_of_disjoint (sorter : Sorter) (state : State Part)
    (h : Settled initial state.comps state.placed)
    (hrest : ∀ part ∈ rest, Automatic (initial part)) (hnodup : (state.placed ++ rest).Nodup)
    (hsums : ∀ round ∈ rounds sorter state rest,
      SumsFit round.pre.comps round.event round.pre.placed)
    (hdisjoint : ∀ part1 ∈ state.placed ++ rest, ∀ part2 ∈ state.placed ++ rest, part1 ≠ part2 →
      Disjoint
        (extent ((placeParts sorter state.call state.comps state.placed rest).1 part1))
        (extent ((placeParts sorter state.call state.comps state.placed rest).1 part2))) :
    ∀ round ∈ rounds sorter state rest,
      ¬ JumpsInto round.pre.comps round.event round.pre.placed := by
  induction rest generalizing state with
  | nil => simp [rounds]
  | cons part rest ih =>
    rw [rounds_cons, List.forall_mem_cons] at hsums ⊢
    obtain ⟨hpart, hlater⟩ := List.forall_mem_cons.mp hrest
    obtain ⟨-, hnodupRest, happart⟩ := List.nodup_append.mp hnodup
    have hnew : part ∉ state.placed := not_mem_of_nodup hnodup
    rw [placeParts_cons] at hdisjoint
    have hstays : ¬ JumpsInto state.comps part state.placed := by
      intro hjumps
      obtain ⟨offset, hlands⟩ := placeStep_lands sorter h hnew hpart hsums.1
      obtain ⟨other, hother, hmeets⟩ := hlands.jumps_iff.mp hjumps
      have hne : part ≠ other := fun heq ↦ hnew (heq ▸ hother)
      have hout : other ∉ rest := fun hmem ↦
        happart other hother other (List.mem_cons_of_mem _ hmem) rfl
      have hclear := hdisjoint part (by simp) other (by simp [hother]) hne
      rw [placeParts_of_not_mem sorter _ (List.nodup_cons.mp hnodupRest).1,
        placeParts_of_not_mem sorter _ hout, hlands.comps_eq, setOffset_self,
        setOffset_of_ne _ _ hne.symm, h.eq_initial hnew] at hclear
      exact hmeets hclear
    obtain ⟨hnext, hmove⟩ := h.placeStep sorter hnew hpart hsums.1 hstays rest
    refine ⟨hstays, ih _ hnext hlater (hmove.nodup_iff.mpr hnodup) hsums.2 ?_⟩
    exact fun part1 h1 part2 h2 ↦ hdisjoint part1 (hmove.mem_iff.mp h1) part2 (hmove.mem_iff.mp h2)

/-- Where no component is smaller than an alignment, no round jumps. -/
theorem not_jumpsInto_of_large (sorter : Sorter) (state : State Part)
    (h : Settled initial state.comps state.placed)
    (hrest : ∀ part ∈ rest, Automatic (initial part)) (hnodup : (state.placed ++ rest).Nodup)
    (hsums : ∀ round ∈ rounds sorter state rest,
      SumsFit round.pre.comps round.event round.pre.placed)
    (hlarge : ∀ part ∈ rest, ∀ other ∈ state.placed ++ rest,
      0 < (initial other).size + (initial other).padding ∧
        (initial part).alignment ≤ (initial other).size + (initial other).padding) :
    ∀ round ∈ rounds sorter state rest,
      ¬ JumpsInto round.pre.comps round.event round.pre.placed := by
  induction rest generalizing state with
  | nil => simp [rounds]
  | cons part rest ih =>
    rw [rounds_cons, List.forall_mem_cons] at hsums ⊢
    obtain ⟨hpart, hlater⟩ := List.forall_mem_cons.mp hrest
    have hnew : part ∉ state.placed := not_mem_of_nodup hnodup
    have hstays : ¬ JumpsInto state.comps part state.placed := by
      refine h.inOrder.not_jumpsInto fun other hother ↦ ?_
      rw [h.frame other, h.eq_initial hnew]
      exact hlarge part List.mem_cons_self other (List.mem_append_left _ hother)
    obtain ⟨hnext, hmove⟩ := h.placeStep sorter hnew hpart hsums.1 hstays rest
    refine ⟨hstays, ih _ hnext hlater (hmove.nodup_iff.mpr hnodup) hsums.2 ?_⟩
    exact fun next hin other hother ↦
      hlarge next (List.mem_cons_of_mem _ hin) other (hmove.mem_iff.mp hother)

/-! ## The whole array -/

/-- An array of distinct components: the fixed ones are apart and end in the address space, the
automatic ones have any positive size and an alignment. -/
structure Admissible (comps : Part → ImageComp) (parts : List (Option Part)) : Prop where
  nodup : parts.reduceOption.Nodup
  fits : ∀ part ∈ parts.reduceOption, Fixed comps part →
    (comps part).offset + (comps part).size + (comps part).padding < 2 ^ 64
  disjoint : ∀ part1 ∈ parts.reduceOption, ∀ part2 ∈ parts.reduceOption, Fixed comps part1 →
    Fixed comps part2 → part1 ≠ part2 → Disjoint (extent (comps part1)) (extent (comps part2))
  size_pos : ∀ part ∈ parts.reduceOption, ¬ Fixed comps part → 0 < (comps part).size
  alignment : ∀ part ∈ parts.reduceOption, ¬ Fixed comps part → PowerOrZero (comps part).alignment

/-- Every automatic component has an aligned offset, all components are apart, the array is
sorted, and nothing else has changed. -/
structure Allocated (comps : Part → ImageComp) (parts : List (Option Part))
    (result : (Part → ImageComp) × List (Option Part)) : Prop where
  perm : result.2.Perm parts
  sorted : result.2.reduceOption.Pairwise fun part1 part2 ↦
    (result.1 part1).offset ≤ (result.1 part2).offset
  disjoint : ∀ part1 ∈ parts.reduceOption, ∀ part2 ∈ parts.reduceOption, part1 ≠ part2 →
    Disjoint (extent (result.1 part1)) (extent (result.1 part2))
  placed : ∀ part ∈ parts.reduceOption, (result.1 part).offset ≠ AUTO_OFFSET
  aligned : ∀ part ∈ parts.reduceOption, ¬ Fixed comps part → (comps part).alignment ≠ 0 →
    (comps part).alignment ∣ (result.1 part).offset
  fixed : ∀ part, Fixed comps part ∨ part ∉ parts.reduceOption → result.1 part = comps part
  frame : ∀ part, result.1 part = { comps part with offset := (result.1 part).offset }

section Array

variable {parts : List (Option Part)} (sorter : Sorter)

omit [DecidableEq Part] in
theorem Admissible.settled (h : Admissible comps parts) {front : List Part}
    (hnodup : front.Nodup) (hmem : ∀ part ∈ front, part ∈ parts.reduceOption ∧ Fixed comps part)
    (hsorted : front.Pairwise fun part1 part2 ↦ (comps part1).offset ≤ (comps part2).offset) :
    Settled comps comps front where
  nodup := hnodup
  inOrder :=
    { sorted := hsorted
      fits := fun part hpart ↦ h.fits part (hmem part hpart).1 (hmem part hpart).2
      disjoint := hnodup.pairwise_of_forall_ne fun part1 h1 part2 h2 hne ↦
        h.disjoint part1 (hmem part1 h1).1 part2 (hmem part2 h2).1 (hmem part1 h1).2
          (hmem part2 h2).2 hne }
  aligned part hpart hauto := absurd (hmem part hpart).2 hauto
  frame _ := rfl
  kept _ _ := rfl

/-- The loop starts behind the fixed components and has the automatic ones left. -/
theorem Admissible.start (h : Admissible comps parts) :
    ∃ nulls front rest, computeDynOffsets sorter comps parts =
        ((placeParts sorter 1 comps front rest).1,
          nulls ++ (placeParts sorter 1 comps front rest).2.map some) ∧
      placements sorter comps parts = rounds sorter ⟨comps, front, 1⟩ rest ∧
      (∀ entry ∈ nulls, entry = none) ∧ (nulls ++ (front ++ rest).map some).Perm parts ∧
      (front ++ rest).Perm parts.reduceOption ∧
      Settled comps comps front ∧ ∀ part ∈ rest, Automatic (comps part) := by
  obtain ⟨harray, hperm, hsorted⟩ := sort_split sorter comps parts rfl
  set entries := ((sorter.sort 0 (imagePartsComp comps) parts).dropWhile
    Option.isNone).reduceOption with hdef
  have hsplit : entries.takeWhile (fun part ↦ decide ((comps part).offset ≠ AUTO_OFFSET)) ++
      entries.dropWhile (fun part ↦ decide ((comps part).offset ≠ AUTO_OFFSET)) = entries :=
    List.takeWhile_append_dropWhile
  have hmem (part : Part) (hpart : part ∈ entries) : part ∈ parts.reduceOption :=
    hperm.mem_iff.mp hpart
  have hauto := not_fixed_of_mem_dropWhile hsorted fun part hpart hfixed ↦ by
    have hfits := h.fits part (hmem part hpart) hfixed
    unfold Fixed at hfixed
    unfold AUTO_OFFSET at *
    omega
  refine ⟨_, _, _, rfl, rfl, ?_, ?_, ?_, ?_, ?_⟩
  · exact fun entry hentry ↦ by simpa using List.mem_takeWhile_imp hentry
  · rw [hsplit, harray]
    exact sorter.perm 0 (imagePartsComp comps) parts
  · rwa [hsplit]
  · refine h.settled ?_ ?_ (hsorted.sublist (List.takeWhile_sublist _))
    · exact (hperm.nodup_iff.mpr h.nodup).sublist (List.takeWhile_sublist _)
    · intro part hpart
      exact ⟨hmem part ((List.takeWhile_sublist _).subset hpart),
        by simpa [Fixed] using List.mem_takeWhile_imp hpart⟩
  · intro part hpart
    have hin := hmem part ((List.dropWhile_sublist _).subset hpart)
    have hnot := hauto part hpart
    exact ⟨not_not.mp hnot, h.size_pos part hin hnot, h.alignment part hin hnot⟩

omit [DecidableEq Part] in
theorem reduceOption_nulls {nulls : List (Option Part)} (h : ∀ entry ∈ nulls, entry = none)
    (order : List Part) : (nulls ++ order.map some).reduceOption = order := by
  have hnulls : nulls.reduceOption = [] := by
    rw [List.eq_replicate_of_mem h, List.reduceOption_replicate_none]
  have horder : (order.map some).reduceOption = order := by
    simp [List.reduceOption, List.filterMap_map]
  rw [List.reduceOption_append, hnulls, horder, List.nil_append]

omit [DecidableEq Part] in
/-- Settled components behind the null entries are an allocated array. -/
theorem allocated_of_settled (h : Admissible comps parts) {nulls : List (Option Part)}
    (hnulls : ∀ entry ∈ nulls, entry = none) {final : Part → ImageComp} {order : List Part}
    (hfinal : Settled comps final order) (hperm : order.Perm parts.reduceOption)
    (harray : (nulls ++ order.map some).Perm parts) :
    Allocated comps parts (final, nulls ++ order.map some) where
  perm := harray
  sorted := by
    rw [reduceOption_nulls hnulls]
    exact hfinal.inOrder.sorted
  disjoint := by
    intro part1 h1 part2 h2 hne
    have hsymm : Std.Symm fun part1 part2 ↦
        Disjoint (extent (final part1)) (extent (final part2)) :=
      ⟨fun _ _ hdisjoint ↦ hdisjoint.symm⟩
    exact hfinal.inOrder.disjoint.forall (hperm.mem_iff.mpr h1) (hperm.mem_iff.mpr h2) hne
  placed := by
    intro part hpart
    by_cases hfixed : Fixed comps part
    · rwa [hfinal.kept part (.inl hfixed)]
    · have hfits := hfinal.inOrder.fits part (hperm.mem_iff.mpr hpart)
      have hsize := h.size_pos part hpart hfixed
      rw [hfinal.frame part] at hfits
      dsimp only at hfits ⊢
      unfold AUTO_OFFSET
      omega
  aligned part hpart := hfinal.aligned part (hperm.mem_iff.mpr hpart)
  fixed := by
    intro part hpart
    change final part = comps part
    rw [hfinal.frame part,
      hfinal.kept part (hpart.imp_right fun hout hin ↦ hout (hperm.mem_iff.mp hin))]
  frame := hfinal.frame

theorem allocated_of_rounds (h : Admissible comps parts)
    (hsums : ∀ round ∈ placements sorter comps parts,
      SumsFit round.pre.comps round.event round.pre.placed)
    (hjumps : ∀ round ∈ placements sorter comps parts,
      ¬ JumpsInto round.pre.comps round.event round.pre.placed) :
    Allocated comps parts (computeDynOffsets sorter comps parts) := by
  obtain ⟨nulls, front, rest, hresult, hrounds, hnulls, harray, hparts, hsettled, hrest⟩ :=
    h.start sorter
  rw [hrounds] at hsums hjumps
  rw [hresult]
  obtain ⟨hfinal, hperm⟩ := placeParts_settled sorter ⟨comps, front, 1⟩ hsettled hrest
    (hparts.nodup_iff.mpr h.nodup) hsums hjumps
  exact allocated_of_settled h hnulls hfinal (hperm.trans hparts)
    ((hperm.map some).append_left nulls |>.trans harray)

/-- An array without a component that is smaller than an alignment is allocated. -/
theorem allocated_of_large (h : Admissible comps parts)
    (hsums : ∀ round ∈ placements sorter comps parts,
      SumsFit round.pre.comps round.event round.pre.placed)
    (hlarge : ∀ part ∈ parts.reduceOption, ¬ Fixed comps part → ∀ other ∈ parts.reduceOption,
      0 < (comps other).size + (comps other).padding ∧
        (comps part).alignment ≤ (comps other).size + (comps other).padding) :
    Allocated comps parts (computeDynOffsets sorter comps parts) := by
  refine allocated_of_rounds sorter h hsums ?_
  obtain ⟨_, front, rest, -, hrounds, -, -, hparts, hsettled, hrest⟩ := h.start sorter
  rw [hrounds] at hsums ⊢
  refine not_jumpsInto_of_large sorter ⟨comps, front, 1⟩ hsettled hrest
    (hparts.nodup_iff.mpr h.nodup) hsums fun part hpart other hother ↦ ?_
  exact hlarge part (hparts.mem_iff.mp (List.mem_append_right _ hpart))
    (fun hfixed ↦ hfixed (hrest part hpart).auto) other (hparts.mem_iff.mp hother)

/-- **Placement in general.** Whatever order `qsort` gives to equal offsets, an admissible array
is allocated exactly when no round accepts a gap that the component jumps over into a later
component. -/
theorem allocated_iff (comps : Part → ImageComp) (parts : List (Option Part))
    (h : Admissible comps parts)
    (hsums : ∀ round ∈ placements sorter comps parts,
      SumsFit round.pre.comps round.event round.pre.placed) :
    Allocated comps parts (computeDynOffsets sorter comps parts) ↔
      ∀ round ∈ placements sorter comps parts,
        ¬ JumpsInto round.pre.comps round.event round.pre.placed := by
  refine ⟨fun hallocated ↦ ?_, allocated_of_rounds sorter h hsums⟩
  obtain ⟨_, front, rest, hresult, hrounds, -, -, hparts, hsettled, hrest⟩ := h.start sorter
  have hdisjoint := hallocated.disjoint
  rw [hresult] at hdisjoint
  rw [hrounds] at hsums ⊢
  refine not_jumpsInto_of_disjoint sorter ⟨comps, front, 1⟩ hsettled hrest
    (hparts.nodup_iff.mpr h.nodup) hsums fun part1 h1 part2 h2 hne ↦ ?_
  exact hdisjoint part1 (hparts.mem_iff.mp h1) part2 (hparts.mem_iff.mp h2) hne

end Array

/-- Two bytes at the start, a block of 16 bytes at 0x1000 and one to be placed with an
alignment. -/
def blocks (alignment : ℕ) : Fin 4 → ImageComp
  | 0 => { offset := 0, size := 1, padding := 0, alignment := 0 }
  | 1 => { offset := 1, size := 1, padding := 0, alignment := 0 }
  | 2 => { offset := 0x1000, size := 16, padding := 0, alignment := 0 }
  | 3 => { offset := AUTO_OFFSET, size := 16, padding := 0, alignment }

def blockArray : List (Option (Fin 4)) := [some 3, none, some 0, some 1, some 2]

theorem blocks_admissible {alignment : ℕ} (h : PowerOrZero alignment) :
    Admissible (blocks alignment) blockArray where
  nodup := by decide
  fits := by
    intro part _ hfixed
    fin_cases part
    · simp [blocks]
    · simp [blocks]
    · simp [blocks]
    · exact absurd rfl hfixed
  disjoint := by
    intro part1 _ part2 _ h1 h2 hne
    rw [disjoint_extent_iff]
    fin_cases part1 <;> fin_cases part2 <;> simp_all [blocks, Fixed]
  size_pos := by
    intro part _ _
    fin_cases part <;> simp [blocks]
  alignment := by
    intro part _ _
    fin_cases part
    · exact .inl rfl
    · exact .inl rfl
    · exact .inl rfl
    · exact h

/-- With an alignment of 4 the block goes between. -/
theorem blocks_allocated :
    Allocated (blocks 4) blockArray (computeDynOffsets insertionSorter (blocks 4) blockArray) :=
  (allocated_iff insertionSorter (blocks 4) blockArray
    (blocks_admissible (.inr ⟨2, by decide, rfl⟩)) (by decide +kernel)).mpr (by decide +kernel)

/-- With an alignment of 0x1000 it jumps over the second byte, into the block there. -/
theorem blocks_not_allocated :
    Admissible (blocks 0x1000) blockArray ∧
      (∀ round ∈ placements insertionSorter (blocks 0x1000) blockArray,
        SumsFit round.pre.comps round.event round.pre.placed) ∧
      ¬ Allocated (blocks 0x1000) blockArray
        (computeDynOffsets insertionSorter (blocks 0x1000) blockArray) := by
  refine ⟨blocks_admissible (.inr ⟨12, by decide, rfl⟩), by decide +kernel, fun h ↦ ?_⟩
  have hmeet : ¬ Disjoint
      (extent ((computeDynOffsets insertionSorter (blocks 0x1000) blockArray).1 2))
      (extent ((computeDynOffsets insertionSorter (blocks 0x1000) blockArray).1 3)) := by
    decide +kernel
  exact hmeet (h.disjoint 2 (by decide) 3 (by decide) (by decide))

end Vodka.Mkimage.PlacementRuns
