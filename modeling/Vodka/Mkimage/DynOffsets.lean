import Mathlib.Data.List.ReduceOption
import Mathlib.Data.List.TakeWhile
import Mathlib.Tactic
import Vodka.Foundation.Alignment
import Vodka.Foundation.Qsort

/-!
# Placement of image components

`s32_compute_dyn_offsets` sorts the components by offset and gives each one
with the automatic offset the first gap between two placed neighbours that
holds it with its padding, or the end. Components are named by the elements of
a type, since the source handles pointers to them; an array entry is none for a
null pointer. Offsets and sizes are of the 64-bit type `size_t`.
-/

namespace Vodka.Mkimage.DynOffsets

open Foundation.Alignment Foundation.Qsort

def AUTO_OFFSET : ℕ := 2 ^ 64 - 1

structure ImageComp where
  offset : ℕ
  size : ℕ
  padding : ℕ
  alignment : ℕ
  deriving DecidableEq

variable {Part : Type} [DecidableEq Part]

def imagePartsComp (comps : Part → ImageComp) : Option Part → Option Part → ℤ
  | none, none => 0
  | none, some _ => -1
  | some _, none => 1
  | some part1, some part2 =>
    if (comps part2).offset > (comps part1).offset then -1
    else if (comps part2).offset < (comps part1).offset then 1
    else 0

/-- The offset behind a component and its padding. -/
def ImageComp.finish (comp : ImageComp) : ℕ :=
  (comp.offset + comp.size + comp.padding) % 2 ^ 64

def isInOverlap (comp1 comp2 : ImageComp) : Bool :=
  decide (comp1.finish > comp2.offset) && decide (comp2.finish > comp1.offset)

def setOffset (comps : Part → ImageComp) (part : Part) (offset : ℕ) : Part → ImageComp :=
  Function.update comps part { comps part with offset := offset }

def placeAfter (comps : Part → ImageComp) (first second : Part) : Part → ImageComp :=
  let offset := (comps first).finish
  let offset :=
    if (comps second).alignment ≠ 0 then alignUp 64 offset (comps second).alignment else offset
  setOffset comps second offset

/-- The search for an empty spot between existing allocations: the first component of the list is
`parts[i - 1]`, the second is `parts[i]`. -/
def findSpot (part : Part) (comps : Part → ImageComp) : List Part → Part → ImageComp
  | first :: second :: rest =>
    let tried := placeAfter comps first part
    if isInOverlap (tried part) (tried second) then
      findSpot part (setOffset tried part AUTO_OFFSET) (second :: rest)
    else if isInOverlap (tried part) (tried first) then
      findSpot part (setOffset tried part AUTO_OFFSET) (second :: rest)
    else tried
  | _ => comps

/-- The loop over the components with automatic offset, behind those already placed. -/
def placeParts (sorter : Sorter) (call : ℕ) (comps : Part → ImageComp) (placed : List Part) :
    List Part → (Part → ImageComp) × List Part
  | [] => (comps, placed)
  | part :: rest =>
    match placed.getLast? with
    | none => placeParts sorter call (setOffset comps part 0) [part] rest
    | some last =>
      let comps := findSpot part comps placed
      if (comps part).offset ≠ AUTO_OFFSET then
        let compar := fun part1 part2 ↦ imagePartsComp comps (some part1) (some part2)
        placeParts sorter (call + 1) comps (sorter.sort call compar (placed ++ [part])) rest
      else placeParts sorter call (placeAfter comps last part) (placed ++ [part]) rest

/-- `s32_compute_dyn_offsets`: the components and the array it leaves. Sorting puts the null
entries first, so that there are none behind those skipped. -/
def computeDynOffsets (sorter : Sorter) (comps : Part → ImageComp) (parts : List (Option Part)) :
    (Part → ImageComp) × List (Option Part) :=
  let sorted := sorter.sort 0 (imagePartsComp comps) parts
  let entries := (sorted.dropWhile Option.isNone).reduceOption
  let isFixed := fun part ↦ decide ((comps part).offset ≠ AUTO_OFFSET)
  let placed := placeParts sorter 1 comps (entries.takeWhile isFixed) (entries.dropWhile isFixed)
  (placed.1, sorted.takeWhile Option.isNone ++ placed.2.map some)

/-- Null entries come before all offsets. -/
def offsetKey (comps : Part → ImageComp) : Option Part → WithBot ℕ
  | none => ⊥
  | some part => WithBot.some (comps part).offset

omit [DecidableEq Part] in
theorem imagePartsComp_comparesBy (comps : Part → ImageComp) :
    ComparesBy (imagePartsComp comps) (offsetKey comps) := by
  intro entry1 entry2
  cases entry1 <;> cases entry2 <;> simp only [imagePartsComp, offsetKey]
  · simp
  · simp
  · simp
  · rw [WithBot.coe_le_coe]
    split_ifs <;> omega

omit [DecidableEq Part] in
theorem imagePartsComp_some_comparesBy (comps : Part → ImageComp) :
    ComparesBy (fun part1 part2 ↦ imagePartsComp comps (some part1) (some part2))
      (fun part ↦ (comps part).offset) := by
  intro part1 part2
  simp only [imagePartsComp]
  split_ifs <;> omega

@[simp]
theorem setOffset_self (comps : Part → ImageComp) (part : Part) (offset : ℕ) :
    setOffset comps part offset part = { comps part with offset := offset } :=
  Function.update_self _ _ _

@[simp]
theorem setOffset_of_ne (comps : Part → ImageComp) {part other : Part} (offset : ℕ)
    (h : other ≠ part) : setOffset comps part offset other = comps other :=
  Function.update_of_ne h _ _

/-- Moving a component that is not placed moves no placed one. -/
theorem setOffset_of_mem (comps : Part → ImageComp) {part other : Part} {placed : List Part}
    (offset : ℕ) (hnew : part ∉ placed) (hother : other ∈ placed) :
    setOffset comps part offset other = comps other :=
  setOffset_of_ne comps offset fun heq ↦ hnew (heq ▸ hother)

omit [DecidableEq Part] in
theorem not_mem_of_nodup {part : Part} {placed rest : List Part}
    (h : (placed ++ part :: rest).Nodup) : part ∉ placed := fun hmem ↦
  (List.nodup_append.mp h).2.2 part hmem part List.mem_cons_self rfl

@[simp]
theorem setOffset_size (comps : Part → ImageComp) (part other : Part) (offset : ℕ) :
    (setOffset comps part offset other).size = (comps other).size := by
  rcases eq_or_ne other part with rfl | hne
  · rw [setOffset_self]
  · rw [setOffset_of_ne comps offset hne]

/-- Resetting a tried offset restores the component. -/
theorem setOffset_placeAfter (comps : Part → ImageComp) (first part : Part)
    (hauto : (comps part).offset = AUTO_OFFSET) :
    setOffset (placeAfter comps first part) part AUTO_OFFSET = comps := by
  funext other
  rcases eq_or_ne other part with rfl | hne
  · simp [placeAfter, ← hauto]
  · simp [placeAfter, hne]

/-- The search fails and changes nothing, or puts the component between two neighbours that it
does not overlap. -/
theorem findSpot_cases (part : Part) (comps : Part → ImageComp)
    (hauto : (comps part).offset = AUTO_OFFSET) (placed : List Part) (hnew : part ∉ placed) :
    findSpot part comps placed = comps ∨
      ∃ front first second rest, placed = front ++ first :: second :: rest ∧
        findSpot part comps placed = placeAfter comps first part ∧
        isInOverlap (placeAfter comps first part part) (comps second) = false := by
  induction placed with
  | nil => exact .inl rfl
  | cons first rest ih =>
    cases rest with
    | nil => exact .inl rfl
    | cons second rest =>
      have hrest : part ∉ second :: rest := fun hmem ↦ hnew (List.mem_cons_of_mem _ hmem)
      have hsecond : second ≠ part := fun heq ↦ hrest (heq ▸ List.mem_cons_self)
      have hkept : placeAfter comps first part second = comps second :=
        setOffset_of_ne comps _ hsecond
      have hlater : findSpot part comps (second :: rest) = comps ∨
          ∃ front first' second' rest', first :: second :: rest =
              front ++ first' :: second' :: rest' ∧
            findSpot part comps (second :: rest) = placeAfter comps first' part ∧
            isInOverlap (placeAfter comps first' part part) (comps second') = false := by
        apply (ih hrest).imp_right
        rintro ⟨front, first', second', rest', heq, hspot, hfree⟩
        exact ⟨first :: front, first', second', rest', by rw [heq, List.cons_append], hspot, hfree⟩
      simp only [findSpot, setOffset_placeAfter comps first part hauto, hkept]
      split_ifs with hoverlap
      · exact hlater
      · exact hlater
      · exact .inr ⟨[], first, second, rest, rfl, rfl, Bool.eq_false_iff.mpr hoverlap⟩

/-! ## Placement -/

section Placement

-- The components as they are given. All automatic ones have the alignment `2 ^ k`.
variable (initial : Part → ImageComp) (k : ℕ)

def Fixed (part : Part) : Prop := (initial part).offset ≠ AUTO_OFFSET

/-- The first component ends where the second starts or before, and so does its padding unless
both have a fixed place, whose padded ends are then further apart than the alignment. -/
def Before (comps : Part → ImageComp) (first second : Part) : Prop :=
  (comps first).offset + (comps first).size ≤ (comps second).offset ∧
    ((comps first).offset + (comps first).size + (comps first).padding ≤ (comps second).offset ∨
      Fixed initial first ∧ Fixed initial second ∧
        (comps first).offset + (comps first).size + (comps first).padding + 2 ^ k ≤
          (comps second).offset + (comps second).size + (comps second).padding)

/-- Only the offsets of placed components with the automatic offset have changed. -/
structure Moved (comps : Part → ImageComp) (placed : List Part) : Prop where
  frame : ∀ part, comps part = { initial part with offset := (comps part).offset }
  fixed : ∀ part, Fixed initial part → (comps part).offset = (initial part).offset
  pending : ∀ part, part ∉ placed → (comps part).offset = (initial part).offset

/-- The placed components are aligned, apart and in order, and nothing else has changed. -/
structure Placed (limit : ℕ) (comps : Part → ImageComp) (placed : List Part) : Prop
    extends Moved initial comps placed where
  nodup : placed.Nodup
  nonempty : ∀ part ∈ placed, 0 < (initial part).size
  aligned : ∀ part ∈ placed, 2 ^ k ∣ (comps part).offset
  bounded : ∀ part ∈ placed,
    (comps part).offset + (comps part).size + (comps part).padding ≤ limit
  before : placed.Pairwise (Before initial k comps)

/-- Whatever the order of the placed components and whether they overlap: they end, with their
padding, between two bounds, and those with the automatic offset also start above the lower one. -/
structure Ranged (low limit : ℕ) (comps : Part → ImageComp) (placed : List Part) : Prop
    extends Moved initial comps placed where
  ends : ∀ part ∈ placed,
    low ≤ (comps part).offset + (comps part).size + (comps part).padding ∧
      (comps part).offset + (comps part).size + (comps part).padding ≤ limit
  starts : ∀ part ∈ placed, ¬ Fixed initial part → low ≤ (comps part).offset

variable {initial : Part → ImageComp} {k limit : ℕ} {comps : Part → ImageComp}
  {placed : List Part} {part : Part}

omit [DecidableEq Part] in
theorem Before.finish_le {first second : Part} (h : Before initial k comps first second) :
    (comps first).offset + (comps first).size + (comps first).padding ≤
      (comps second).offset + (comps second).size + (comps second).padding := by
  have hspace : 0 < 2 ^ k := Nat.two_pow_pos k
  rcases h.2 with hpadded | ⟨-, -, hfixed⟩
  · omega
  · omega

omit [DecidableEq Part] in
/-- Any two placed components are in order one way or the other. -/
theorem Placed.related (h : Placed initial k limit comps placed) {first second : Part}
    (hfirst : first ∈ placed) (hsecond : second ∈ placed) (hne : first ≠ second) :
    Before initial k comps first second ∨ Before initial k comps second first := by
  have hsymm : Std.Symm fun first second ↦
      Before initial k comps first second ∨ Before initial k comps second first :=
    ⟨fun _ _ hrelated ↦ hrelated.symm⟩
  have hrelated : placed.Pairwise fun first second ↦
      Before initial k comps first second ∨ Before initial k comps second first :=
    h.before.imp Or.inl
  exact hrelated.forall hfirst hsecond hne

omit [DecidableEq Part] in
theorem Moved.size_eq (h : Moved initial comps placed) (part : Part) :
    (comps part).size = (initial part).size := by
  rw [h.frame part]

omit [DecidableEq Part] in
theorem Moved.padding_eq (h : Moved initial comps placed) (part : Part) :
    (comps part).padding = (initial part).padding := by
  rw [h.frame part]

omit [DecidableEq Part] in
theorem Moved.alignment_eq (h : Moved initial comps placed) (part : Part) :
    (comps part).alignment = (initial part).alignment := by
  rw [h.frame part]

/-- Placing one more component with the automatic offset. -/
theorem Moved.insert (h : Moved initial comps placed) (hauto : ¬ Fixed initial part) (offset : ℕ)
    {order : List Part} (hperm : order.Perm (placed ++ [part])) :
    Moved initial (setOffset comps part offset) order where
  frame other := by
    rcases eq_or_ne other part with rfl | hne
    · rw [setOffset_self, h.frame other]
    · rw [setOffset_of_ne comps offset hne]
      exact h.frame other
  fixed other hfixed := by
    have hne : other ≠ part := fun heq ↦ hauto (heq ▸ hfixed)
    rw [setOffset_of_ne comps offset hne]
    exact h.fixed other hfixed
  pending other hother := by
    have hnot : other ∉ placed ++ [part] := fun hin ↦ hother (hperm.mem_iff.mpr hin)
    rw [List.mem_append, List.mem_singleton, not_or] at hnot
    rw [setOffset_of_ne comps offset hnot.2]
    exact h.pending other hnot.1

omit [DecidableEq Part] in
theorem Placed.finish_eq (h : Placed initial k limit comps placed) (hpart : part ∈ placed)
    (hlimit : limit < 2 ^ 64) :
    (comps part).finish = (comps part).offset + (comps part).size + (comps part).padding :=
  Nat.mod_eq_of_lt ((h.bounded part hpart).trans_lt hlimit)

/-- A new component between or behind the placed ones is related to all of them. -/
theorem Placed.related_insert (h : Placed initial k limit comps placed) (hnew : part ∉ placed)
    {offset : ℕ}
    (hclear : ∀ other ∈ placed,
      (comps other).offset + (comps other).size + (comps other).padding ≤ offset ∨
        offset + (comps part).size + (comps part).padding ≤ (comps other).offset)
    {first second : Part} (hfirst : first ∈ placed ++ [part]) (hsecond : second ∈ placed ++ [part])
    (hne : first ≠ second) :
    Before initial k (setOffset comps part offset) first second ∨
      Before initial k (setOffset comps part offset) second first := by
  have hother (other : Part) (hmem : other ∈ placed) :
      Before initial k (setOffset comps part offset) other part ∨
        Before initial k (setOffset comps part offset) part other := by
    have hdistinct : other ≠ part := fun heq ↦ hnew (heq ▸ hmem)
    unfold Before
    rw [setOffset_self, setOffset_of_ne comps offset hdistinct]
    apply (hclear other hmem).imp
    · intro hbefore
      exact ⟨by dsimp only; omega, .inl hbefore⟩
    · intro hbehind
      exact ⟨by dsimp only; omega, .inl hbehind⟩
  rw [List.mem_append, List.mem_singleton] at hfirst hsecond
  rcases hfirst with hfirst | rfl
  · rcases hsecond with hsecond | rfl
    · have hkept := h.related hfirst hsecond hne
      unfold Before at hkept ⊢
      have hfirst' : first ≠ part := fun heq ↦ hnew (heq ▸ hfirst)
      have hsecond' : second ≠ part := fun heq ↦ hnew (heq ▸ hsecond)
      rwa [setOffset_of_ne comps offset hfirst', setOffset_of_ne comps offset hsecond']
    · exact hother first hfirst
  · rcases hsecond with hsecond | rfl
    · exact (hother second hsecond).symm
    · exact absurd rfl hne

/-- An order of the old components and a new one that are apart is placed. -/
theorem Placed.insert (h : Placed initial k limit comps placed) (hnew : part ∉ placed)
    (hauto : ¬ Fixed initial part) (hsize : 0 < (initial part).size) {offset bound : ℕ}
    (hlimit : limit ≤ bound) (haligned : 2 ^ k ∣ offset)
    (hbound : offset + (initial part).size + (initial part).padding ≤ bound) {order : List Part}
    (hperm : order.Perm (placed ++ [part]))
    (hbefore : order.Pairwise (Before initial k (setOffset comps part offset))) :
    Placed initial k bound (setOffset comps part offset) order := by
  have hmem (other : Part) (hother : other ∈ order) : other ∈ placed ∨ other = part := by
    simpa using hperm.mem_iff.mp hother
  have hkept (other : Part) (hother : other ∈ placed) :
      setOffset comps part offset other = comps other := setOffset_of_mem comps offset hnew hother
  exact {
    nodup := by
      apply hperm.nodup_iff.mpr
      rw [List.nodup_append]
      refine ⟨h.nodup, List.nodup_singleton part, fun first hfirst second hsecond ↦ ?_⟩
      rw [List.mem_singleton] at hsecond
      exact fun heq ↦ hnew (hsecond ▸ heq ▸ hfirst)
    nonempty := fun other hother ↦ by
      rcases hmem other hother with hold | rfl
      · exact h.nonempty other hold
      · exact hsize
    aligned := fun other hother ↦ by
      rcases hmem other hother with hold | rfl
      · rw [hkept other hold]
        exact h.aligned other hold
      · simpa using haligned
    bounded := fun other hother ↦ by
      rcases hmem other hother with hold | rfl
      · rw [hkept other hold]
        exact (h.bounded other hold).trans hlimit
      · rw [setOffset_self]
        dsimp only
        rw [h.size_eq, h.padding_eq]
        exact hbound
    before := hbefore
    toMoved := h.toMoved.insert hauto offset hperm }

/-- The offset that `place_after` tries behind a placed component. -/
theorem Placed.placeAfter_eq (h : Placed initial k limit comps placed) {last : Part}
    (hlast : last ∈ placed) (halignment : (initial part).alignment = 2 ^ k)
    (hlimit : limit + 2 ^ k < 2 ^ 64) :
    ∃ offset, placeAfter comps last part = setOffset comps part offset ∧ 2 ^ k ∣ offset ∧
      (comps last).offset + (comps last).size + (comps last).padding ≤ offset ∧
      offset < (comps last).offset + (comps last).size + (comps last).padding + 2 ^ k ∧
      ∀ bound, 2 ^ k ∣ bound →
        (comps last).offset + (comps last).size + (comps last).padding ≤ bound →
          offset ≤ bound := by
  have hspace : 0 < 2 ^ k := Nat.two_pow_pos k
  have hbounded := h.bounded last hlast
  have hround : (comps last).offset + (comps last).size + (comps last).padding + 2 ^ k - 1 <
      2 ^ 64 := by omega
  have hfinish := h.finish_eq hlast (by omega)
  refine ⟨_, ?_, dvd_alignUp hround, le_alignUp hround, alignUp_lt hround,
    fun _ ↦ alignUp_le hround⟩
  unfold placeAfter
  dsimp only
  rw [h.alignment_eq, halignment, if_pos hspace.ne', hfinish]

omit [DecidableEq Part] in
/-- What the gap search finds is clear of all placed components. -/
theorem Placed.clear_of_gap (h : Placed initial k limit comps placed) {front rest : List Part}
    {first second : Part} (hplaced : placed = front ++ first :: second :: rest) {offset : ℕ}
    (hlimit : limit < 2 ^ 64)
    (hnear : offset <
      (comps first).offset + (comps first).size + (comps first).padding + 2 ^ k)
    (hleast : (comps first).offset + (comps first).size + (comps first).padding ≤
      (comps second).offset → offset ≤ (comps second).offset)
    (hafter : (comps first).offset + (comps first).size + (comps first).padding ≤ offset)
    (hbound : offset + (comps part).size + (comps part).padding < 2 ^ 64)
    (hfree : isInOverlap { comps part with offset := offset } (comps second) = false) :
    ∀ other ∈ placed,
      (comps other).offset + (comps other).size + (comps other).padding ≤ offset ∨
        offset + (comps part).size + (comps part).padding ≤ (comps other).offset := by
  have hbefore := h.before
  have hsecond : second ∈ placed := by simp [hplaced]
  rw [hplaced, List.pairwise_append, List.pairwise_cons, List.pairwise_cons] at hbefore
  obtain ⟨-, ⟨hfirst, hrest, -⟩, hfront⟩ := hbefore
  have hnonempty : 0 < (comps second).size := by
    rw [h.size_eq]
    exact h.nonempty second hsecond
  -- The tried offset is before the padded end of the right neighbour, so that only its start
  -- can be clear of it.
  have hstart : offset <
      (comps second).offset + (comps second).size + (comps second).padding := by
    rcases (hfirst second List.mem_cons_self).2 with hpadded | ⟨-, -, hfixed⟩
    · have hle := hleast hpadded
      omega
    · omega
  have hclear : offset + (comps part).size + (comps part).padding ≤ (comps second).offset := by
    unfold isInOverlap at hfree
    rw [h.finish_eq hsecond hlimit, ImageComp.finish, Nat.mod_eq_of_lt hbound] at hfree
    simpa [hstart] using hfree
  intro other hother
  rw [hplaced, List.mem_append, List.mem_cons, List.mem_cons] at hother
  rcases hother with hother | rfl | rfl | hother
  · exact .inl (((hfront other hother first List.mem_cons_self).finish_le).trans hafter)
  · exact .inl hafter
  · exact .inr hclear
  · have hlater := (hrest other hother).1
    right
    omega

/-- The room that components still to be placed need at most. -/
def demand (initial : Part → ImageComp) (k : ℕ) (parts : List Part) : ℕ :=
  (parts.map fun part ↦ (initial part).size + (initial part).padding + 2 ^ k).sum

omit [DecidableEq Part] in
/-- The last placed component has the greatest padded end. -/
theorem Placed.finish_le_last (h : Placed initial k limit comps placed) {last : Part}
    (hlast : placed.getLast? = some last) :
    ∀ other ∈ placed, (comps other).offset + (comps other).size + (comps other).padding ≤
      (comps last).offset + (comps last).size + (comps last).padding := by
  obtain ⟨front, rfl⟩ := List.getLast?_eq_some_iff.mp hlast
  have hbefore := h.before
  rw [List.pairwise_append] at hbefore
  intro other hother
  rw [List.mem_append, List.mem_singleton] at hother
  rcases hother with hother | rfl
  · exact (hbefore.2.2 other hother last List.mem_cons_self).finish_le
  · exact le_rfl

theorem Placed.before_append (h : Placed initial k limit comps placed) (hnew : part ∉ placed)
    {offset : ℕ}
    (hclear : ∀ other ∈ placed,
      (comps other).offset + (comps other).size + (comps other).padding ≤ offset) :
    (placed ++ [part]).Pairwise (Before initial k (setOffset comps part offset)) := by
  have hkept (other : Part) (hother : other ∈ placed) :
      setOffset comps part offset other = comps other := setOffset_of_mem comps offset hnew hother
  rw [List.pairwise_append]
  refine ⟨h.before.imp_of_mem ?_, List.pairwise_singleton _ _, ?_⟩
  · intro first second hfirst hsecond hbefore
    unfold Before at hbefore ⊢
    rwa [hkept first hfirst, hkept second hsecond]
  · intro other hother last hlast
    rw [List.mem_singleton] at hlast
    have hend := hclear other hother
    unfold Before
    rw [hlast, hkept other hother, setOffset_self]
    exact ⟨by dsimp only; omega, .inl hend⟩

/-- Sorting puts a component that lies clear of those already placed where it belongs. -/
theorem Placed.sort_insert (h : Placed initial k limit comps placed) (sorter : Sorter) (call : ℕ)
    (hnew : part ∉ placed) (hsize : 0 < (initial part).size) (hnodup : (placed ++ [part]).Nodup)
    {offset : ℕ}
    (hclear : ∀ other ∈ placed,
      (comps other).offset + (comps other).size + (comps other).padding ≤ offset ∨
        offset + (comps part).size + (comps part).padding ≤ (comps other).offset) :
    (sorter.sort call (fun part1 part2 ↦
        imagePartsComp (setOffset comps part offset) (some part1) (some part2))
      (placed ++ [part])).Perm (placed ++ [part]) ∧
    (sorter.sort call (fun part1 part2 ↦
        imagePartsComp (setOffset comps part offset) (some part1) (some part2))
      (placed ++ [part])).Pairwise (Before initial k (setOffset comps part offset)) := by
  refine ⟨sorter.perm call _ _, sorter.pairwise call
    (imagePartsComp_some_comparesBy (setOffset comps part offset)) hnodup _ ?_ ?_⟩
  · exact fun first hfirst second hsecond hne ↦ h.related_insert hnew hclear hfirst hsecond hne
  · intro first hfirst second _ hbefore
    have hpositive : 0 < (setOffset comps part offset first).size := by
      rw [setOffset_size, h.size_eq]
      rw [List.mem_append, List.mem_singleton] at hfirst
      rcases hfirst with hold | rfl
      · exact h.nonempty first hold
      · exact hsize
    have hend := hbefore.1
    omega

/-- The loop places every automatic component and keeps those already placed apart. -/
theorem placeParts_placed (sorter : Sorter) {rest : List Part} (call : ℕ)
    (h : Placed initial k limit comps placed)
    (hrest : ∀ part ∈ rest, ¬ Fixed initial part ∧ (initial part).alignment = 2 ^ k ∧
      0 < (initial part).size)
    (hnodup : (placed ++ rest).Nodup) (hroom : limit + demand initial k rest < AUTO_OFFSET) :
    ∃ bound, Placed initial k bound (placeParts sorter call comps placed rest).1
        (placeParts sorter call comps placed rest).2 ∧
      (placeParts sorter call comps placed rest).2.Perm (placed ++ rest) ∧
      bound ≤ limit + demand initial k rest := by
  induction rest generalizing call comps placed limit with
  | nil => exact ⟨limit, h, by simp [placeParts], Nat.le_add_right _ _⟩
  | cons part rest ih =>
    obtain ⟨⟨hauto, halignment, hsize⟩, hlater⟩ := List.forall_mem_cons.mp hrest
    have hnew : part ∉ placed := not_mem_of_nodup hnodup
    have hdemand : demand initial k (part :: rest) =
        (initial part).size + (initial part).padding + 2 ^ k + demand initial k rest := by
      simp [demand]
    have hmove : (placed ++ [part] ++ rest).Perm (placed ++ part :: rest) := by simp
    have hoffset : (comps part).offset = AUTO_OFFSET := by
      rw [h.pending part hnew]
      exact not_not.mp hauto
    rw [hdemand] at hroom
    -- Every branch continues with a placed order of the old components and the new one.
    have hcontinue : ∀ {offset : ℕ} {order : List Part} (next : ℕ), 2 ^ k ∣ offset →
        offset < limit + 2 ^ k → order.Perm (placed ++ [part]) →
        order.Pairwise (Before initial k (setOffset comps part offset)) →
        ∃ bound, Placed initial k bound
            (placeParts sorter next (setOffset comps part offset) order rest).1
            (placeParts sorter next (setOffset comps part offset) order rest).2 ∧
          (placeParts sorter next (setOffset comps part offset) order rest).2.Perm
            (placed ++ part :: rest) ∧ bound ≤ limit + demand initial k (part :: rest) := by
      intro offset order next haligned hnear hperm hbefore
      have hplaced : Placed initial k
          (limit + ((initial part).size + (initial part).padding + 2 ^ k))
          (setOffset comps part offset) order :=
        h.insert hnew hauto hsize (by omega) haligned (by omega) hperm hbefore
      have hperm' : (order ++ rest).Perm (placed ++ part :: rest) :=
        (hperm.append_right rest).trans hmove
      obtain ⟨bound, hfinal, hfinalPerm, hbound⟩ := ih next hplaced hlater
        (hperm'.nodup_iff.mpr hnodup) (by omega)
      exact ⟨bound, hfinal, hfinalPerm.trans hperm', by omega⟩
    have hspace : 0 < 2 ^ k := Nat.two_pow_pos k
    have hlimit : limit + 2 ^ k < 2 ^ 64 := by
      unfold AUTO_OFFSET at hroom
      omega
    cases hlast : placed.getLast? with
    | none =>
      have hempty : placed = [] := List.getLast?_eq_none_iff.mp hlast
      subst hempty
      exact hcontinue call (Nat.dvd_zero _) (by omega) (List.Perm.refl _)
        (List.pairwise_singleton _ _)
    | some last =>
      have hmem : last ∈ placed := List.mem_of_getLast? hlast
      rcases findSpot_cases part comps hoffset placed hnew with
        hnone | ⟨front, first, second, behind, hplaced, hspot, hfree⟩
      · -- No gap: the component goes behind the last one.
        obtain ⟨offset, hplace, haligned, hafter, hnear, -⟩ :=
          h.placeAfter_eq hmem halignment hlimit
        have hlastBounded := h.bounded last hmem
        have hbefore := h.before_append hnew
          fun other hother ↦ (h.finish_le_last hlast other hother).trans hafter
        have hresult := hcontinue call haligned (by omega) (List.Perm.refl _) hbefore
        simpa only [placeParts, hlast, hnone, hoffset, ne_eq, not_true_eq_false, if_false, hplace]
          using hresult
      · -- A gap between two neighbours: sorting puts the component there.
        have hfirst : first ∈ placed := by simp [hplaced]
        have hsecond : second ∈ placed := by simp [hplaced]
        obtain ⟨offset, hplace, haligned, hafter, hnear, hleast⟩ :=
          h.placeAfter_eq hfirst halignment hlimit
        have hfirstBounded := h.bounded first hfirst
        rw [hplace, setOffset_self] at hfree
        have hclear := h.clear_of_gap hplaced (by omega) hnear
          (hleast _ (h.aligned second hsecond)) hafter
          (by
            rw [h.size_eq, h.padding_eq]
            unfold AUTO_OFFSET at hroom
            omega) hfree
        obtain ⟨hperm, hsorted⟩ := h.sort_insert sorter call hnew hsize
          (List.nodup_append.mp (hmove.nodup_iff.mpr hnodup)).1 hclear
        have hfound : offset ≠ AUTO_OFFSET := by
          unfold AUTO_OFFSET at *
          omega
        have hresult := hcontinue (call + 1) haligned (by omega) hperm hsorted
        have hoffset' : (setOffset comps part offset part).offset = offset := by simp
        simpa only [placeParts, hlast, hspot, hplace, hoffset', ne_eq, hfound, not_false_eq_true,
          if_true] using hresult

/-! ## Components that may overlap -/

theorem Ranged.insert {low : ℕ} (h : Ranged initial low limit comps placed) (hnew : part ∉ placed)
    (hauto : ¬ Fixed initial part) {offset bound : ℕ} (hlimit : limit ≤ bound)
    (hstart : low ≤ offset) (hbound : offset + (initial part).size + (initial part).padding ≤ bound)
    {order : List Part} (hperm : order.Perm (placed ++ [part])) :
    Ranged initial low bound (setOffset comps part offset) order := by
  have hmem (other : Part) (hother : other ∈ order) : other ∈ placed ∨ other = part := by
    simpa using hperm.mem_iff.mp hother
  refine { h.toMoved.insert hauto offset hperm with ends := ?_, starts := ?_ }
  · intro other hother
    rcases hmem other hother with hold | rfl
    · rw [setOffset_of_mem comps offset hnew hold]
      exact (h.ends other hold).imp_right hlimit.trans'
    · rw [setOffset_self]
      dsimp only
      rw [h.size_eq, h.padding_eq]
      omega
  · intro other hother hfree
    rcases hmem other hother with hold | rfl
    · rw [setOffset_of_mem comps offset hnew hold]
      exact h.starts other hold hfree
    · rw [setOffset_self]
      exact hstart

theorem Ranged.placeAfter_eq {low : ℕ} (h : Ranged initial low limit comps placed) {last : Part}
    (hlast : last ∈ placed) (halignment : (initial part).alignment = 2 ^ k)
    (hlimit : limit + 2 ^ k < 2 ^ 64) :
    ∃ offset, placeAfter comps last part = setOffset comps part offset ∧ 2 ^ k ∣ offset ∧
      low ≤ offset ∧ offset < limit + 2 ^ k := by
  have hspace : 0 < 2 ^ k := Nat.two_pow_pos k
  obtain ⟨hlow, hend⟩ := h.ends last hlast
  have hround : (comps last).offset + (comps last).size + (comps last).padding + 2 ^ k - 1 <
      2 ^ 64 := by omega
  have hfinish : (comps last).finish =
      (comps last).offset + (comps last).size + (comps last).padding :=
    Nat.mod_eq_of_lt (by omega)
  refine ⟨_, ?_, dvd_alignUp hround, hlow.trans (le_alignUp hround),
    (alignUp_lt hround).trans_le (Nat.add_le_add_right hend _)⟩
  unfold placeAfter
  dsimp only
  rw [h.alignment_eq, halignment, if_pos hspace.ne', hfinish]

/-- The loop puts every automatic component behind the end of another one. -/
theorem placeParts_ranged (sorter : Sorter) {low : ℕ} {rest : List Part} (call : ℕ)
    (h : Ranged initial low limit comps placed) (hplaced : placed ≠ [])
    (hrest : ∀ part ∈ rest, ¬ Fixed initial part ∧ (initial part).alignment = 2 ^ k)
    (hnodup : (placed ++ rest).Nodup) (hroom : limit + demand initial k rest < AUTO_OFFSET) :
    ∃ bound, Ranged initial low bound (placeParts sorter call comps placed rest).1
        (placeParts sorter call comps placed rest).2 ∧
      (placeParts sorter call comps placed rest).2.Perm (placed ++ rest) ∧
      bound ≤ limit + demand initial k rest := by
  induction rest generalizing call comps placed limit with
  | nil => exact ⟨limit, h, by simp [placeParts], Nat.le_add_right _ _⟩
  | cons part rest ih =>
    obtain ⟨⟨hauto, halignment⟩, hlater⟩ := List.forall_mem_cons.mp hrest
    have hnew : part ∉ placed := not_mem_of_nodup hnodup
    have hdemand : demand initial k (part :: rest) =
        (initial part).size + (initial part).padding + 2 ^ k + demand initial k rest := by
      simp [demand]
    have hoffset : (comps part).offset = AUTO_OFFSET := by
      rw [h.pending part hnew]
      exact not_not.mp hauto
    rw [hdemand] at hroom
    -- Every branch puts the component behind a placed one and continues with some order of all.
    have hcontinue : ∀ {first : Part} {order : List Part} (next : ℕ), first ∈ placed →
        order.Perm (placed ++ [part]) →
        ∃ bound, Ranged initial low bound
            (placeParts sorter next (placeAfter comps first part) order rest).1
            (placeParts sorter next (placeAfter comps first part) order rest).2 ∧
          (placeParts sorter next (placeAfter comps first part) order rest).2.Perm
            (placed ++ part :: rest) ∧ bound ≤ limit + demand initial k (part :: rest) := by
      intro first order next hfirst hperm
      obtain ⟨offset, hplace, -, hlow, hnear⟩ := h.placeAfter_eq hfirst halignment
        (by unfold AUTO_OFFSET at hroom; omega)
      have hranged : Ranged initial low
          (limit + ((initial part).size + (initial part).padding + 2 ^ k))
          (setOffset comps part offset) order :=
        h.insert hnew hauto (by omega) hlow (by omega) hperm
      have hperm' : (order ++ rest).Perm (placed ++ part :: rest) :=
        (hperm.append_right rest).trans (by simp)
      have hsome : order ≠ [] := List.ne_nil_of_mem
        (hperm.mem_iff.mpr (List.mem_append_right _ List.mem_cons_self))
      obtain ⟨bound, hfinal, hfinalPerm, hbound⟩ := ih next hranged hsome hlater
        (hperm'.nodup_iff.mpr hnodup) (by omega)
      rw [hplace]
      exact ⟨bound, hfinal, hfinalPerm.trans hperm', by omega⟩
    obtain ⟨front, last, rfl⟩ := (List.eq_nil_or_concat' placed).resolve_left hplaced
    have hlast : (front ++ [last]).getLast? = some last := List.getLast?_concat
    rcases findSpot_cases part comps hoffset (front ++ [last]) hnew with
      hnone | ⟨before, first, second, behind, hsplit, hspot, -⟩
    · -- No gap: the component goes behind the last one.
      have hresult := hcontinue call (List.mem_append_right front List.mem_cons_self)
        (List.Perm.refl _)
      simpa only [placeParts, hlast, hnone, hoffset, ne_eq, not_true_eq_false, if_false]
        using hresult
    · -- A gap between two neighbours, and sorting.
      have hfirst : first ∈ front ++ [last] := by simp [hsplit]
      obtain ⟨offset, hplace, -, -, hnear⟩ := h.placeAfter_eq hfirst halignment
        (by unfold AUTO_OFFSET at hroom; omega)
      have hfound : (placeAfter comps first part part).offset ≠ AUTO_OFFSET := by
        rw [hplace, setOffset_self]
        unfold AUTO_OFFSET at *
        dsimp only
        omega
      have hresult := hcontinue (call + 1) hfirst (sorter.perm call
        (fun part1 part2 ↦ imagePartsComp (placeAfter comps first part) (some part1) (some part2))
        (front ++ [last] ++ [part]))
      simpa only [placeParts, hlast, hspot, ne_eq, hfound, not_false_eq_true, if_true]
        using hresult

end Placement

/-! ## The whole array -/

/-- What the placement needs of the components of the array: they are distinct and not empty,
the fixed ones are aligned and apart, the automatic ones have the common alignment, and all of
them fit below the automatic offset. -/
structure Placeable (k limit : ℕ) (comps : Part → ImageComp) (parts : List (Option Part)) :
    Prop where
  nodup : parts.reduceOption.Nodup
  nonempty : ∀ part ∈ parts.reduceOption, 0 < (comps part).size
  aligned : ∀ part ∈ parts.reduceOption, Fixed comps part → 2 ^ k ∣ (comps part).offset
  alignment : ∀ part ∈ parts.reduceOption, ¬ Fixed comps part → (comps part).alignment = 2 ^ k
  bounded : ∀ part ∈ parts.reduceOption, Fixed comps part →
    (comps part).offset + (comps part).size + (comps part).padding ≤ limit
  apart : ∀ first ∈ parts.reduceOption, ∀ second ∈ parts.reduceOption,
    Fixed comps first → Fixed comps second → first ≠ second →
      Before comps k comps first second ∨ Before comps k comps second first
  room : limit + demand comps k parts.reduceOption < AUTO_OFFSET

omit [DecidableEq Part] in
/-- Skipping null entries skips no component. -/
theorem reduceOption_dropWhile_isNone (entries : List (Option Part)) :
    (entries.dropWhile Option.isNone).reduceOption = entries.reduceOption := by
  induction entries with
  | nil => rfl
  | cons entry rest ih =>
    cases entry with
    | none => exact ih
    | some part => rfl

omit [DecidableEq Part] in
theorem map_some_reduceOption {entries : List (Option Part)}
    (h : ∀ entry ∈ entries, entry.isSome) : entries.reduceOption.map some = entries := by
  induction entries with
  | nil => rfl
  | cons entry rest ih =>
    obtain ⟨hentry, hrest⟩ := List.forall_mem_cons.mp h
    obtain ⟨part, rfl⟩ := Option.isSome_iff_exists.mp hentry
    rw [List.reduceOption_cons_of_some, List.map_cons, ih hrest]

omit [DecidableEq Part] in
/-- Behind the null entries that are skipped, a sorted array has no other. -/
theorem ne_none_of_mem_dropWhile {comps : Part → ImageComp} {entries : List (Option Part)}
    (h : entries.Pairwise fun entry1 entry2 ↦ offsetKey comps entry1 ≤ offsetKey comps entry2) :
    ∀ entry ∈ entries.dropWhile Option.isNone, entry ≠ none := by
  induction entries with
  | nil => simp
  | cons entry rest ih =>
    rw [List.pairwise_cons] at h
    cases entry with
    | none => exact ih h.2
    | some part =>
      rintro other hother rfl
      rw [List.dropWhile_cons_of_neg (by simp), List.mem_cons] at hother
      have hle := h.1 none (hother.resolve_left (by simp))
      simp [offsetKey] at hle

omit [DecidableEq Part] in
/-- The offsets of the components of a sorted array are in order. -/
theorem sorted_reduceOption {comps : Part → ImageComp} {entries : List (Option Part)}
    (h : entries.Pairwise fun entry1 entry2 ↦ offsetKey comps entry1 ≤ offsetKey comps entry2) :
    entries.reduceOption.Pairwise fun part1 part2 ↦
      (comps part1).offset ≤ (comps part2).offset := by
  apply List.Pairwise.filterMap id _ h
  rintro _ _ hle part1 rfl part2 rfl
  simpa [offsetKey] using hle

omit [DecidableEq Part] in
/-- The sorted array is its null entries and behind them the components in the order of their
offsets. -/
theorem sort_split (sorter : Sorter) (comps : Part → ImageComp) (parts : List (Option Part))
    {sorted : List (Option Part)} (h : sorter.sort 0 (imagePartsComp comps) parts = sorted) :
    sorted.takeWhile Option.isNone ++
        ((sorted.dropWhile Option.isNone).reduceOption).map some = sorted ∧
      (sorted.dropWhile Option.isNone).reduceOption.Perm parts.reduceOption ∧
      (sorted.dropWhile Option.isNone).reduceOption.Pairwise fun part1 part2 ↦
        (comps part1).offset ≤ (comps part2).offset := by
  have hsorted := sorter.sorted 0 (imagePartsComp comps) (offsetKey comps)
    (imagePartsComp_comparesBy comps) parts
  have hperm := sorter.perm 0 (imagePartsComp comps) parts
  rw [h] at hsorted hperm
  refine ⟨?_, ?_, ?_⟩
  · have hsome : ∀ entry ∈ sorted.dropWhile Option.isNone, entry.isSome := fun entry hentry ↦
      Option.isSome_iff_ne_none.mpr (ne_none_of_mem_dropWhile hsorted entry hentry)
    calc sorted.takeWhile Option.isNone ++
          ((sorted.dropWhile Option.isNone).reduceOption).map some
        = sorted.takeWhile Option.isNone ++ sorted.dropWhile Option.isNone := by
          rw [map_some_reduceOption hsome]
      _ = sorted := List.takeWhile_append_dropWhile
  · rw [reduceOption_dropWhile_isNone]
    exact hperm.filterMap id
  · rw [reduceOption_dropWhile_isNone]
    exact sorted_reduceOption hsorted

omit [DecidableEq Part] in
/-- In sorted components the automatic ones are behind the fixed ones. -/
theorem not_fixed_of_mem_dropWhile {comps : Part → ImageComp} {entries : List Part}
    (hsorted : entries.Pairwise fun part1 part2 ↦ (comps part1).offset ≤ (comps part2).offset)
    (hbounded : ∀ part ∈ entries, Fixed comps part → (comps part).offset < AUTO_OFFSET) :
    ∀ part ∈ entries.dropWhile fun part ↦ decide ((comps part).offset ≠ AUTO_OFFSET),
      ¬ Fixed comps part := by
  induction entries with
  | nil => simp
  | cons first rest ih =>
    rw [List.pairwise_cons] at hsorted
    rw [List.forall_mem_cons] at hbounded
    by_cases hfirst : (comps first).offset = AUTO_OFFSET
    · rw [List.dropWhile_cons_of_neg (by simpa using hfirst)]
      intro part hpart hfixed
      rcases List.mem_cons.mp hpart with rfl | hpart
      · exact hfixed hfirst
      · have hle := hsorted.1 part hpart
        have hlt := hbounded.2 part hpart hfixed
        omega
    · rw [List.dropWhile_cons_of_pos (by simpa using hfirst)]
      exact ih hsorted.2 hbounded.2

omit [DecidableEq Part] in
/-- The fixed components in front of a sorted list are placed as they are. -/
theorem Placeable.placed {k limit : ℕ} {comps : Part → ImageComp} {parts : List (Option Part)}
    (h : Placeable k limit comps parts) {front : List Part} (hnodup : front.Nodup)
    (hmem : ∀ part ∈ front, part ∈ parts.reduceOption ∧ Fixed comps part)
    (hsorted : front.Pairwise fun part1 part2 ↦ (comps part1).offset ≤ (comps part2).offset) :
    Placed comps k limit comps front where
  nodup := hnodup
  nonempty part hpart := h.nonempty part (hmem part hpart).1
  aligned part hpart := h.aligned part (hmem part hpart).1 (hmem part hpart).2
  bounded part hpart := h.bounded part (hmem part hpart).1 (hmem part hpart).2
  before := by
    apply pairwise_of_sorted hsorted hnodup
    · intro first hfirst second hsecond hne
      exact h.apart first (hmem first hfirst).1 second (hmem second hsecond).1
        (hmem first hfirst).2 (hmem second hsecond).2 hne
    · intro first hfirst second hsecond hbefore
      have hsize := h.nonempty first (hmem first hfirst).1
      have hend := hbefore.1
      omega
  frame _ := rfl
  fixed _ _ := rfl
  pending _ _ := rfl

omit [DecidableEq Part] in
theorem demand_perm {k : ℕ} {comps : Part → ImageComp} {front rest parts : List Part}
    (h : (front ++ rest).Perm parts) : demand comps k rest ≤ demand comps k parts := by
  have hsum : demand comps k (front ++ rest) = demand comps k front + demand comps k rest := by
    simp [demand]
  have hsame : demand comps k (front ++ rest) = demand comps k parts := (h.map _).sum_eq
  omega

/-- The loop starts with the fixed components in order and goes over the others, and the array ends
as its null entries followed by what the loop leaves. -/
theorem computeDynOffsets_split (sorter : Sorter) {comps : Part → ImageComp}
    {parts : List (Option Part)}
    (hbounded : ∀ part ∈ parts.reduceOption, Fixed comps part →
      (comps part).offset < AUTO_OFFSET) :
    ∃ nulls front rest, (front ++ rest).Perm parts.reduceOption ∧
      (∀ part ∈ front, Fixed comps part) ∧ (∀ part ∈ rest, ¬ Fixed comps part) ∧
      front.Pairwise (fun part1 part2 ↦ (comps part1).offset ≤ (comps part2).offset) ∧
      (∀ entry ∈ nulls, entry = none) ∧ nulls.length + (front ++ rest).length = parts.length ∧
      computeDynOffsets sorter comps parts = ((placeParts sorter 1 comps front rest).1,
        nulls ++ (placeParts sorter 1 comps front rest).2.map some) := by
  obtain ⟨harray, hperm, hentries⟩ := sort_split sorter comps parts rfl
  set entries := ((sorter.sort 0 (imagePartsComp comps) parts).dropWhile
    Option.isNone).reduceOption with hdef
  have hsplit : entries.takeWhile (fun part ↦ decide ((comps part).offset ≠ AUTO_OFFSET)) ++
      entries.dropWhile (fun part ↦ decide ((comps part).offset ≠ AUTO_OFFSET)) = entries :=
    List.takeWhile_append_dropWhile
  refine ⟨_, _, _, hsplit ▸ hperm, fun part hpart ↦ ?_, ?_, ?_, fun entry hentry ↦ ?_, ?_, rfl⟩
  · simpa [Fixed] using List.mem_takeWhile_imp hpart
  · exact not_fixed_of_mem_dropWhile hentries fun part hpart ↦
      hbounded part (hperm.mem_iff.mp hpart)
  · exact hentries.sublist (List.takeWhile_sublist _)
  · simpa using List.mem_takeWhile_imp hentry
  · have hcount := congrArg List.length harray
    rw [List.length_append, List.length_map] at hcount
    rw [hsplit, hcount]
    exact (sorter.perm 0 (imagePartsComp comps) parts).length_eq

/-- **Placement.** Whatever order `qsort` gives to equal offsets, the array ends as its null
entries followed by all components, placed and in order. -/
theorem computeDynOffsets_placed (sorter : Sorter) {k limit : ℕ} {comps : Part → ImageComp}
    {parts : List (Option Part)} (h : Placeable k limit comps parts) :
    ∃ bound nulls order, (computeDynOffsets sorter comps parts).2 = nulls ++ order.map some ∧
      nulls.length + order.length = parts.length ∧ (∀ entry ∈ nulls, entry = none) ∧
      order.Perm parts.reduceOption ∧
      Placed comps k bound (computeDynOffsets sorter comps parts).1 order ∧
      bound ≤ limit + demand comps k parts.reduceOption := by
  have hroom := h.room
  obtain ⟨nulls, front, rest, hperm, hfront, hrest, hsorted, hnulls, hlength, hresult⟩ :=
    computeDynOffsets_split sorter fun part hpart hfixed ↦ by
      have hbounded := h.bounded part hpart hfixed
      omega
  have hnodup : (front ++ rest).Nodup := hperm.nodup_iff.mpr h.nodup
  have hmem (part : Part) (hpart : part ∈ front ++ rest) : part ∈ parts.reduceOption :=
    hperm.mem_iff.mp hpart
  have hdemand : demand comps k rest ≤ demand comps k parts.reduceOption := demand_perm hperm
  have hplaced := h.placed (List.nodup_append.mp hnodup).1
    (fun part hpart ↦ ⟨hmem part (List.mem_append_left _ hpart), hfront part hpart⟩) hsorted
  obtain ⟨bound, hfinal, hfinalPerm, hbound⟩ := placeParts_placed sorter 1 hplaced
    (fun part hpart ↦
      have hin := hmem part (List.mem_append_right _ hpart)
      ⟨hrest part hpart, h.alignment part hin (hrest part hpart), h.nonempty part hin⟩)
    hnodup (by omega)
  rw [hresult]
  exact ⟨bound, nulls, _, rfl, by rw [hfinalPerm.length_eq, hlength], hnulls,
    hfinalPerm.trans hperm, hfinal, by omega⟩

/-- What remains when the fixed components may overlap: everything is placed between the lowest
end of a fixed component and the sum of all sizes. -/
theorem computeDynOffsets_ranged (sorter : Sorter) {k low limit : ℕ} {comps : Part → ImageComp}
    {parts : List (Option Part)} (hnodup : parts.reduceOption.Nodup)
    (hfixed : ∃ part ∈ parts.reduceOption, Fixed comps part)
    (hends : ∀ part ∈ parts.reduceOption, Fixed comps part →
      low ≤ (comps part).offset + (comps part).size + (comps part).padding ∧
        (comps part).offset + (comps part).size + (comps part).padding ≤ limit)
    (halignment : ∀ part ∈ parts.reduceOption, ¬ Fixed comps part →
      (comps part).alignment = 2 ^ k)
    (hroom : limit + demand comps k parts.reduceOption < AUTO_OFFSET) :
    ∃ bound nulls order, (computeDynOffsets sorter comps parts).2 = nulls ++ order.map some ∧
      (∀ entry ∈ nulls, entry = none) ∧ order.Perm parts.reduceOption ∧
      Ranged comps low bound (computeDynOffsets sorter comps parts).1 order ∧
      bound ≤ limit + demand comps k parts.reduceOption := by
  obtain ⟨nulls, front, rest, hperm, hfront, hrest, -, hnulls, -, hresult⟩ :=
    computeDynOffsets_split sorter fun part hpart hpartFixed ↦ by
      have hend := (hends part hpart hpartFixed).2
      omega
  have hmem (part : Part) (hpart : part ∈ front ++ rest) : part ∈ parts.reduceOption :=
    hperm.mem_iff.mp hpart
  have hdemand : demand comps k rest ≤ demand comps k parts.reduceOption := demand_perm hperm
  have hsome : front ≠ [] := by
    rintro rfl
    obtain ⟨part, hpart, hpartFixed⟩ := hfixed
    exact hrest part (hperm.mem_iff.mpr hpart) hpartFixed
  have hranged : Ranged comps low limit comps front := by
    refine { frame := fun _ ↦ rfl, fixed := fun _ _ ↦ rfl, pending := fun _ _ ↦ rfl,
             ends := fun part hpart ↦ ?_, starts := fun part hpart hfree ↦ ?_ }
    · exact hends part (hmem part (List.mem_append_left _ hpart)) (hfront part hpart)
    · exact absurd (hfront part hpart) hfree
  obtain ⟨bound, hfinal, hfinalPerm, hbound⟩ := placeParts_ranged sorter 1 hranged hsome
    (fun part hpart ↦
      ⟨hrest part hpart, halignment part (hmem part (List.mem_append_right _ hpart))
        (hrest part hpart)⟩)
    (hperm.nodup_iff.mpr hnodup) (by omega)
  rw [hresult]
  exact ⟨bound, nulls, _, rfl, hnulls, hfinalPerm.trans hperm, hfinal, by omega⟩

end Vodka.Mkimage.DynOffsets
