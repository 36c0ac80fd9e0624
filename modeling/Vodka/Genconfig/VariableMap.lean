import Mathlib.Tactic
import Vodka.Foundation.Slots
import Vodka.Foundation.Trace
import Vodka.Genconfig.VariableDict

/-!
# The dictionary as a map

Whatever the hashes are and wherever holes were left, a dictionary is a map from
keys to values: distinct keys, one slot each, found by their hash and their
text. It keeps that as long as the arrays can grow. Their new size is computed
in `int`, so that a table of 2^27 slots or more cannot be doubled.
-/

namespace Vodka.Genconfig.VariableMap

open Foundation.Slots Foundation.Trace Replace VariableDict

variable {V : Type} {d : Dict V} {key : Bytes} {val : Option V}

def opKey : Op V → Bytes
  | .set key _ => key
  | .unset key => key

/-- The value of the last set of a key that no unset of it follows. -/
def lastSet (ops : List (Op V)) (key : Bytes) : Option (Option V) :=
  match (ops.filter fun op ↦ opKey op = key).getLast? with
  | some (.set _ val) => some val
  | _ => none

/-- The distinct keys that have a value. -/
def presentKeys (ops : List (Op V)) : Finset Bytes :=
  (ops.map opKey).toFinset.filter fun key ↦ (lastSet ops key).isSome

/-- What an operation does to a map. -/
def applyOp (m : Bytes → Option (Option V)) : Op V → Bytes → Option (Option V)
  | .set key val => Function.update m key (some val)
  | .unset key => Function.update m key none

theorem lastSet_concat (ops : List (Op V)) (op : Op V) :
    lastSet (ops ++ [op]) = applyOp (lastSet ops) op := by
  funext key
  by_cases hkey : opKey op = key
  · cases op <;> simp_all [lastSet, applyOp, opKey]
  · have hother : key ≠ opKey op := Ne.symm hkey
    cases op <;> simp_all [lastSet, applyOp, opKey, Function.update_of_ne]

theorem filter_opKey_eq_nil {ops : List (Op V)} (h : ∀ op ∈ ops, opKey op ≠ key) :
    (ops.filter fun op ↦ opKey op = key) = [] :=
  List.filter_eq_nil_iff.mpr fun op hop hkey ↦ h op hop (of_decide_eq_true hkey)

theorem lastSet_eq_none {ops : List (Op V)} (h : ∀ op ∈ ops, opKey op ≠ key) :
    lastSet ops key = none := by
  rw [lastSet, filter_opKey_eq_nil h]
  rfl

theorem mem_presentKeys {ops : List (Op V)} :
    key ∈ presentKeys ops ↔ (lastSet ops key).isSome := by
  rw [presentKeys, Finset.mem_filter, List.mem_toFinset, List.mem_map]
  refine ⟨fun h ↦ h.2, fun h ↦ ⟨?_, h⟩⟩
  by_contra hnone
  rw [lastSet_eq_none fun op hop hkey ↦ hnone ⟨op, hop, hkey⟩] at h
  cases h

/-- The arrays hold the map: the keys are distinct and counted, and every slot with a key holds
its hash and its value. -/
structure Represents (d : Dict V) (m : Bytes → Option (Option V)) : Prop where
  size_pos : 0 < d.size
  key_length : d.key.length = d.size
  val_length : d.val.length = d.size
  hash_length : d.hash.length = d.size
  nodup : d.key.reduceOption.Nodup
  n_eq : d.n = d.key.reduceOption.length
  hash_eq : ∀ (i : ℕ) (key : Bytes), d.key[i]? = some (some key) →
    d.hash[i]? = some (dictionaryHash key)
  val_eq : ∀ (i : ℕ) (key : Bytes), d.key[i]? = some (some key) → d.val[i]? = m key
  present : ∀ key, (m key).isSome → key ∈ d.key.reduceOption

variable {m : Bytes → Option (Option V)}

theorem represents_new (size : ℤ) : Represents (dictionaryNew size : Dict V) fun _ ↦ none := by
  have hslots (i : ℕ) (key : Bytes) :
      ¬ (dictionaryNew size : Dict V).key[i]? = some (some key) := by
    intro h
    have hmem := List.mem_of_getElem? h
    simp [dictionaryNew] at hmem
  refine ⟨?_, by simp [dictionaryNew], by simp [dictionaryNew], by simp [dictionaryNew], ?_, ?_,
    fun i key h ↦ absurd h (hslots i key), fun i key h ↦ absurd h (hslots i key),
    fun _ h ↦ absurd h (by simp)⟩
  · simp only [dictionaryNew, DICTMINSZ]
    split_ifs <;> omega
  · simp [dictionaryNew, List.reduceOption_replicate_none]
  · simp [dictionaryNew, List.reduceOption_replicate_none]

theorem Represents.n_le (h : Represents d m) : d.n ≤ d.size := by
  rw [h.n_eq, ← h.key_length]
  exact List.reduceOption_length_le _

theorem Represents.lt_size (h : Represents d m) {i : ℕ} {slot : Option Bytes}
    (hslot : d.key[i]? = some slot) : i < d.size :=
  h.key_length ▸ (List.getElem?_eq_some_iff.mp hslot).1

theorem Represents.mem_iff (h : Represents d m) (key : Bytes) :
    key ∈ d.key.reduceOption ↔ (m key).isSome := by
  refine ⟨fun hmem ↦ ?_, h.present key⟩
  obtain ⟨i, hi⟩ := mem_reduceOption_iff.mp hmem
  have hinside : i < d.val.length := h.val_length ▸ h.lt_size hi
  rw [← h.val_eq i key hi, List.getElem?_eq_getElem hinside]
  rfl

theorem Represents.eq_none (h : Represents d m) (hkey : key ∉ d.key.reduceOption) :
    m key = none := by
  rw [h.mem_iff] at hkey
  exact Option.not_isSome_iff_eq_none.mp hkey

theorem Represents.slotHolds_iff (h : Represents d m) (key : Bytes) (i : ℕ) :
    slotHolds d key i = true ↔ d.key[i]? = some (some key) := by
  unfold slotHolds
  cases hslot : d.key[i]? with
  | none => simp
  | some slot =>
    cases slot with
    | none => simp
    | some other =>
      simp only [h.hash_eq i other hslot, Bool.and_eq_true, beq_iff_eq, Option.some.injEq]
      constructor
      · exact fun hsame ↦ hsame.2.symm
      · rintro rfl
        exact ⟨rfl, rfl⟩

/-- The search by hash and text finds the one slot of a key. -/
theorem Represents.findSlot_eq_some (h : Represents d m) {i : ℕ}
    (hslot : d.key[i]? = some (some key)) : findSlot d key = some i := by
  have hi : i < d.size := h.lt_size hslot
  cases hfind : findSlot d key with
  | none =>
    have hnone := List.find?_eq_none.mp hfind i (List.mem_range.mpr hi)
    exact absurd ((h.slotHolds_iff key i).mpr hslot) hnone
  | some j =>
    have hj := (h.slotHolds_iff key j).mp (List.find?_some hfind)
    rw [index_unique h.nodup hj hslot]

theorem Represents.findSlot_eq_none (h : Represents d m) (hkey : key ∉ d.key.reduceOption) :
    findSlot d key = none := by
  refine List.find?_eq_none.mpr fun i _ hholds ↦ hkey ?_
  exact mem_reduceOption_iff.mpr ⟨i, (h.slotHolds_iff key i).mp hholds⟩

theorem Represents.dictionaryGet_eq (h : Represents d m) (key : Bytes) (default : Option V) :
    dictionaryGet d key default = (m key).getD default := by
  by_cases hmem : key ∈ d.key.reduceOption
  · obtain ⟨i, hi⟩ := mem_reduceOption_iff.mp hmem
    obtain ⟨val, hval⟩ := Option.isSome_iff_exists.mp ((h.mem_iff key).mp hmem)
    rw [dictionaryGet, h.findSlot_eq_some hi]
    dsimp only
    rw [h.val_eq i key hi, hval]
    rfl
  · rw [dictionaryGet, h.findSlot_eq_none hmem, h.eq_none hmem]
    rfl

/-! ## Operations -/

/-- The value of a present key is replaced in its slot. -/
theorem Represents.update (h : Represents d m) {i : ℕ} (hslot : d.key[i]? = some (some key))
    (val : Option V) :
    Represents { d with val := d.val.set i val } (Function.update m key (some val)) where
  size_pos := h.size_pos
  key_length := h.key_length
  val_length := by simp [h.val_length]
  hash_length := h.hash_length
  nodup := h.nodup
  n_eq := h.n_eq
  hash_eq := h.hash_eq
  val_eq := by
    intro j other hj
    by_cases hother : other = key
    · subst hother
      obtain rfl := index_unique h.nodup hslot hj
      have hinside : i < d.val.length := h.val_length ▸ h.lt_size hslot
      simp [hinside]
    · have hne : i ≠ j := by
        rintro rfl
        exact hother (by simpa [hslot] using hj.symm)
      rw [List.getElem?_set_ne hne, Function.update_of_ne hother]
      exact h.val_eq j other hj
  present := by
    intro other hsome
    by_cases hother : other = key
    · subst hother
      exact mem_reduceOption_iff.mpr ⟨i, hslot⟩
    · rw [Function.update_of_ne hother] at hsome
      exact h.present other hsome

/-- A key that is not present takes a free slot. -/
theorem Represents.fill (h : Represents d m) {i : ℕ} (hfree : d.key[i]? = some none)
    (hkey : key ∉ d.key.reduceOption) (val : Option V) :
    Represents
      { d with
        key := d.key.set i (some key)
        val := d.val.set i val
        hash := d.hash.set i (dictionaryHash key)
        n := d.n + 1 }
      (Function.update m key (some val)) := by
  have hperm := reduceOption_fill hfree key
  have hi : i < d.key.length := (List.getElem?_eq_some_iff.mp hfree).1
  have hval : i < d.val.length := by rwa [h.val_length, ← h.key_length]
  have hhash : i < d.hash.length := by rwa [h.hash_length, ← h.key_length]
  have hcases (j : ℕ) (other : Bytes) (hj : (d.key.set i (some key))[j]? = some (some other)) :
      (j = i ∧ other = key) ∨ (i ≠ j ∧ other ≠ key ∧ d.key[j]? = some (some other)) := by
    by_cases hij : i = j
    · subst hij
      rw [List.getElem?_set_self hi] at hj
      exact .inl ⟨rfl, by simpa using hj.symm⟩
    · rw [List.getElem?_set_ne hij] at hj
      refine .inr ⟨hij, ?_, hj⟩
      rintro rfl
      exact hkey (mem_reduceOption_iff.mpr ⟨j, hj⟩)
  refine ⟨h.size_pos, by simpa using h.key_length, by simpa using h.val_length,
    by simpa using h.hash_length, ?_, ?_, ?_, ?_, ?_⟩
  · exact hperm.nodup_iff.mpr (List.nodup_cons.mpr ⟨hkey, h.nodup⟩)
  · rw [hperm.length_eq, List.length_cons, h.n_eq]
  · intro j other hj
    rcases hcases j other hj with ⟨rfl, rfl⟩ | ⟨hij, -, hj⟩
    · exact List.getElem?_set_self hhash
    · rw [List.getElem?_set_ne hij]
      exact h.hash_eq j other hj
  · intro j other hj
    rcases hcases j other hj with ⟨rfl, rfl⟩ | ⟨hij, hother, hj⟩
    · rw [List.getElem?_set_self hval, Function.update_self]
    · rw [List.getElem?_set_ne hij, Function.update_of_ne hother]
      exact h.val_eq j other hj
  · intro other hsome
    rw [hperm.mem_iff, List.mem_cons]
    by_cases hother : other = key
    · exact .inl hother
    · rw [Function.update_of_ne hother] at hsome
      exact .inr (h.present other hsome)

/-- Unsetting a present key frees its slot. -/
theorem Represents.clear (h : Represents d m) {i : ℕ} (hslot : d.key[i]? = some (some key)) :
    Represents
      { d with
        key := d.key.set i none
        val := d.val.set i none
        hash := d.hash.set i 0
        n := d.n - 1 }
      (Function.update m key none) := by
  have hperm := reduceOption_clear hslot
  have hnodup := hperm.nodup_iff.mp h.nodup
  have hi : i < d.key.length := (List.getElem?_eq_some_iff.mp hslot).1
  have hcases (j : ℕ) (other : Bytes) (hj : (d.key.set i none)[j]? = some (some other)) :
      i ≠ j ∧ other ≠ key ∧ d.key[j]? = some (some other) := by
    have hij : i ≠ j := by
      rintro rfl
      simp [hi] at hj
    rw [List.getElem?_set_ne hij] at hj
    refine ⟨hij, ?_, hj⟩
    rintro rfl
    exact hij (index_unique h.nodup hslot hj)
  refine ⟨h.size_pos, by simpa using h.key_length, by simpa using h.val_length,
    by simpa using h.hash_length, (List.nodup_cons.mp hnodup).2, ?_, ?_, ?_, ?_⟩
  · have hlength := hperm.length_eq
    rw [List.length_cons] at hlength
    simp only [h.n_eq, hlength, Nat.add_sub_cancel]
  · intro j other hj
    obtain ⟨hij, -, hj⟩ := hcases j other hj
    rw [List.getElem?_set_ne hij]
    exact h.hash_eq j other hj
  · intro j other hj
    obtain ⟨hij, hother, hj⟩ := hcases j other hj
    rw [List.getElem?_set_ne hij, Function.update_of_ne hother]
    exact h.val_eq j other hj
  · intro other hsome
    have hother : other ≠ key := by
      rintro rfl
      simp at hsome
    rw [Function.update_of_ne hother] at hsome
    exact (List.mem_cons.mp (hperm.mem_iff.mp (h.present other hsome))).resolve_left hother

theorem Represents.dictionaryUnset (h : Represents d m) (key : Bytes) :
    Represents (dictionaryUnset d key) (Function.update m key none) := by
  unfold VariableDict.dictionaryUnset
  by_cases hmem : key ∈ d.key.reduceOption
  · obtain ⟨i, hi⟩ := mem_reduceOption_iff.mp hmem
    rw [h.findSlot_eq_some hi]
    exact h.clear hi
  · rw [h.findSlot_eq_none hmem]
    dsimp only
    rwa [← h.eq_none hmem, Function.update_eq_self]

theorem dictionaryUnset_size (d : Dict V) (key : Bytes) :
    (VariableDict.dictionaryUnset d key).size = d.size := by
  unfold VariableDict.dictionaryUnset
  split <;> rfl

/-- The number of slots below which the arrays can be doubled. -/
def SLOT_LIMIT : ℕ := 2 ^ 27

theorem memDouble_eq {α : Type} (zero : α) {elementSize : ℕ} {array : List α}
    (hsize : elementSize ≤ POINTER_SIZE) (hlimit : array.length < SLOT_LIMIT) :
    memDouble zero elementSize array = some (array ++ List.replicate array.length zero) := by
  refine if_neg (not_lt.mpr ?_)
  have hbytes : array.length * elementSize ≤ array.length * POINTER_SIZE :=
    Nat.mul_le_mul_left _ hsize
  simp only [POINTER_SIZE, SLOT_LIMIT, INT_MAX] at *
  omega

theorem memDouble_eq_none {α : Type} (zero : α) {array : List α}
    (hlimit : SLOT_LIMIT ≤ array.length) : memDouble zero POINTER_SIZE array = none := by
  refine if_pos ?_
  simp only [POINTER_SIZE, SLOT_LIMIT, INT_MAX] at *
  omega

/-- The dictionary with its arrays doubled. -/
def doubled (d : Dict V) : Dict V where
  n := d.n
  size := 2 * d.size
  val := d.val ++ List.replicate d.val.length none
  key := d.key ++ List.replicate d.key.length none
  hash := d.hash ++ List.replicate d.hash.length 0

/-- The new slots are free. -/
theorem Represents.doubled (h : Represents d m) : Represents (doubled d) m := by
  unfold VariableMap.doubled
  have hold (i : ℕ) (key : Bytes)
      (hi : (d.key ++ List.replicate d.key.length none)[i]? = some (some key)) :
      i < d.size ∧ d.key[i]? = some (some key) := by
    rcases Nat.lt_or_ge i d.key.length with hlt | hge
    · rw [List.getElem?_append_left hlt] at hi
      exact ⟨h.key_length ▸ hlt, hi⟩
    · rw [List.getElem?_append_right hge] at hi
      have hmem := List.mem_of_getElem? hi
      simp at hmem
  refine ⟨by have := h.size_pos; simp only; omega, ?_, ?_, ?_, ?_, ?_, ?_, ?_, ?_⟩
  · simp [h.key_length, Nat.two_mul]
  · simp [h.val_length, Nat.two_mul]
  · simp [h.hash_length, Nat.two_mul]
  · simpa [reduceOption_grow] using h.nodup
  · simpa [reduceOption_grow] using h.n_eq
  · intro i key hi
    obtain ⟨hlt, hi⟩ := hold i key hi
    rw [List.getElem?_append_left (h.hash_length ▸ hlt)]
    exact h.hash_eq i key hi
  · intro i key hi
    obtain ⟨hlt, hi⟩ := hold i key hi
    rw [List.getElem?_append_left (h.val_length ▸ hlt)]
    exact h.val_eq i key hi
  · intro key hsome
    simpa [reduceOption_grow] using h.present key hsome

theorem Represents.grow_cases (h : Represents d m) :
    (d.n < d.size ∧ grow d = some d) ∨
      (d.n = d.size ∧ d.size < SLOT_LIMIT ∧ grow d = some (VariableMap.doubled d)) ∨
      (d.n = d.size ∧ SLOT_LIMIT ≤ d.size ∧ grow d = none) := by
  rcases h.n_le.lt_or_eq with hlt | heq
  · exact .inl ⟨hlt, if_neg hlt.ne⟩
  refine .inr ?_
  rw [grow, if_pos heq]
  rcases Nat.lt_or_ge d.size SLOT_LIMIT with hlimit | hlimit
  · refine .inl ⟨heq, hlimit, ?_⟩
    rw [memDouble_eq none le_rfl (h.val_length ▸ hlimit),
      memDouble_eq none le_rfl (h.key_length ▸ hlimit),
      memDouble_eq 0 (by decide) (h.hash_length ▸ hlimit)]
    rfl
  · refine .inr ⟨heq, hlimit, ?_⟩
    rw [memDouble_eq_none none (h.val_length ▸ hlimit)]
    rfl

/-- The cyclic search ends in a free slot: each turn is one slot nearer to a given one. -/
theorem freeSlot_eq_some (hlength : d.key.length = d.size) {free : ℕ}
    (hfree : d.key[free]? = some none) {fuel i : ℕ} (hi : i < d.size)
    (hfuel : (if i ≤ free then free - i else d.size + free - i) < fuel) :
    ∃ found, freeSlot d fuel i = some found ∧ d.key[found]? = some none := by
  have hinside : free < d.size := hlength ▸ (List.getElem?_eq_some_iff.mp hfree).1
  induction fuel generalizing i with
  | zero => exact absurd hfuel (Nat.not_lt_zero _)
  | succ fuel ih =>
    have hget : ∃ slot, d.key[i]? = some slot :=
      ⟨_, List.getElem?_eq_getElem (hlength ▸ hi)⟩
    obtain ⟨slot, hslot⟩ := hget
    cases slot with
    | none => exact ⟨i, by simp [freeSlot, hslot], hslot⟩
    | some key =>
      have hne : i ≠ free := by
        rintro rfl
        simp [hslot] at hfree
      simp only [freeSlot, hslot]
      split_ifs at hfuel ⊢ <;> refine ih (by omega) ?_ <;> split_ifs <;> omega

theorem Represents.freeSlot (h : Represents d m) (hroom : d.n < d.size) :
    ∃ i, freeSlot d d.size d.n = some i ∧ d.key[i]? = some none := by
  have hhole : d.key.reduceOption.length < d.key.length := by
    rw [← h.n_eq, h.key_length]
    exact hroom
  obtain ⟨free, hfree⟩ := exists_free hhole
  have hinside : free < d.size := h.lt_size hfree
  exact freeSlot_eq_some h.key_length hfree hroom (by split_ifs <;> omega)

/-- The most slots that the arrays can come to. -/
def maxSlots (size : ℕ) : ℕ := (doubling 27) size
where
  /-- Doubled while below the limit. -/
  doubling : ℕ → ℕ → ℕ
    | 0, size => size
    | k + 1, size => if size < SLOT_LIMIT then doubling k (2 * size) else size

theorem doubling_succ {k size : ℕ} (h : SLOT_LIMIT ≤ size * 2 ^ k) :
    maxSlots.doubling (k + 1) size = maxSlots.doubling k size := by
  induction k generalizing size with
  | zero =>
    rw [pow_zero, mul_one] at h
    exact if_neg (not_lt.mpr h)
  | succ k ih =>
    have hnext : SLOT_LIMIT ≤ 2 * size * 2 ^ k := by
      rw [pow_succ] at h
      linarith
    calc maxSlots.doubling (k + 1 + 1) size
        = if size < SLOT_LIMIT then maxSlots.doubling (k + 1) (2 * size) else size := rfl
      _ = if size < SLOT_LIMIT then maxSlots.doubling k (2 * size) else size := by rw [ih hnext]
      _ = maxSlots.doubling (k + 1) size := rfl

theorem maxSlots_double {size : ℕ} (hpos : 0 < size) (hlimit : size < SLOT_LIMIT) :
    maxSlots (2 * size) = maxSlots size := by
  have hsize : SLOT_LIMIT ≤ 2 * size * 2 ^ 26 := by
    simp only [SLOT_LIMIT]
    omega
  calc maxSlots (2 * size) = maxSlots.doubling 26 (2 * size) := doubling_succ hsize
    _ = maxSlots size := (if_pos hlimit).symm

theorem maxSlots_of_limit {size : ℕ} (hlimit : SLOT_LIMIT ≤ size) : maxSlots size = size := by
  rw [maxSlots, maxSlots.doubling, if_neg (not_lt.mpr hlimit)]

theorem le_doubling (k size : ℕ) : size ≤ maxSlots.doubling k size := by
  induction k generalizing size with
  | zero => exact le_rfl
  | succ k ih =>
    rw [maxSlots.doubling]
    split_ifs
    · exact le_trans (by omega) (ih (2 * size))
    · exact le_rfl

theorem lt_maxSlots {size : ℕ} (hpos : 0 < size) (hlimit : size < SLOT_LIMIT) :
    size < maxSlots size := by
  rw [← maxSlots_double hpos hlimit]
  exact lt_of_lt_of_le (by omega) (le_doubling 27 (2 * size))

theorem maxSlots_new : maxSlots 128 = SLOT_LIMIT := by decide

/-- A new key is inserted as long as the arrays can hold one more, and has no result then. -/
theorem Represents.insertKey (h : Represents d m) (hkey : key ∉ d.key.reduceOption)
    (val : Option V) :
    (d.n < maxSlots d.size ∧ ∃ d', insertKey d key val = some d' ∧
        Represents d' (Function.update m key (some val)) ∧ maxSlots d'.size = maxSlots d.size) ∨
      (d.n = maxSlots d.size ∧ insertKey d key val = none) := by
  have hroom {e : Dict V} (he : Represents e m) (hn : e.n < e.size)
      (hsame : e.key.reduceOption = d.key.reduceOption) (hgrow : grow d = some e)
      (hmax : maxSlots e.size = maxSlots d.size) :
      ∃ d', VariableDict.insertKey d key val = some d' ∧
        Represents d' (Function.update m key (some val)) ∧
          maxSlots d'.size = maxSlots d.size := by
    obtain ⟨i, hi, hfree⟩ := he.freeSlot hn
    refine ⟨_, ?_, he.fill hfree (hsame ▸ hkey) val, hmax⟩
    rw [VariableDict.insertKey, hgrow]
    simp [hi]
  rcases h.grow_cases with ⟨hlt, hgrow⟩ | ⟨heq, hlimit, hgrow⟩ | ⟨heq, hlimit, hgrow⟩
  · refine .inl ⟨lt_of_lt_of_le hlt (le_doubling 27 _), hroom h hlt rfl hgrow rfl⟩
  · refine .inl ⟨by rw [heq]; exact lt_maxSlots h.size_pos hlimit, ?_⟩
    refine hroom h.doubled ?_ (reduceOption_grow _ _) hgrow
      (maxSlots_double h.size_pos hlimit)
    have hpos := h.size_pos
    simp only [VariableMap.doubled]
    omega
  · refine .inr ⟨(maxSlots_of_limit hlimit).symm ▸ heq, ?_⟩
    rw [VariableDict.insertKey, hgrow]
    rfl

theorem Represents.dictionarySet_of_mem (h : Represents d m) (hkey : key ∈ d.key.reduceOption)
    (val : Option V) :
    ∃ d', dictionarySet d key val = some (d', 0) ∧
      Represents d' (Function.update m key (some val)) ∧ d'.size = d.size := by
  obtain ⟨i, hi⟩ := mem_reduceOption_iff.mp hkey
  have hpos : 0 < d.n := by
    rw [h.n_eq]
    exact List.length_pos_of_mem hkey
  refine ⟨_, ?_, h.update hi val, rfl⟩
  rw [dictionarySet, if_pos hpos, h.findSlot_eq_some hi]

theorem Represents.dictionarySet_of_not_mem (h : Represents d m)
    (hkey : key ∉ d.key.reduceOption) (val : Option V) :
    dictionarySet d key val = (VariableDict.insertKey d key val).map fun d ↦ (d, 0) := by
  have hnone : (if 0 < d.n then findSlot d key else none) = none := by
    rw [h.findSlot_eq_none hkey, ite_self]
  rw [dictionarySet, hnone]

/-- One operation: the arrays hold the new map, or they are full and a key is new. -/
theorem Represents.step (h : Represents d m) (op : Op V) :
    (∃ d', step d op = some d' ∧ Represents d' (applyOp m op) ∧
        maxSlots d'.size = maxSlots d.size) ∨
      (∃ key val, op = .set key val ∧ m key = none ∧ d.n = maxSlots d.size ∧
        step d op = none) := by
  cases op with
  | unset key =>
    refine .inl ⟨_, rfl, h.dictionaryUnset key, ?_⟩
    rw [dictionaryUnset_size]
  | set key val =>
    by_cases hmem : key ∈ d.key.reduceOption
    · obtain ⟨d', hset, hd', hsize⟩ := h.dictionarySet_of_mem hmem val
      exact .inl ⟨d', by simp [VariableDict.step, hset], hd', by rw [hsize]⟩
    have hset := h.dictionarySet_of_not_mem hmem val
    rcases h.insertKey hmem val with ⟨-, d', hinsert, hd', hmax⟩ | ⟨hfull, hinsert⟩
    · exact .inl ⟨d', by simp [VariableDict.step, hset, hinsert], hd', hmax⟩
    · refine .inr ⟨key, val, rfl, h.eq_none hmem, hfull, ?_⟩
      simp [VariableDict.step, hset, hinsert]

/-! ## Runs -/

variable {ops : List (Op V)}

theorem Represents.card (h : Represents d (lastSet ops)) : (presentKeys ops).card = d.n := by
  have hkeys : presentKeys ops = d.key.reduceOption.toFinset := by
    ext key
    rw [mem_presentKeys, List.mem_toFinset, h.mem_iff]
  rw [hkeys, List.toFinset_card_of_nodup h.nodup, h.n_eq]

theorem presentKeys_set {val : Option V} (hkey : lastSet ops key = none) :
    (presentKeys (ops ++ [.set key val])).card = (presentKeys ops).card + 1 := by
  have hinsert : presentKeys (ops ++ [.set key val]) = insert key (presentKeys ops) := by
    ext other
    rw [Finset.mem_insert, mem_presentKeys, mem_presentKeys, lastSet_concat]
    by_cases hother : other = key
    · simp [applyOp, hother]
    · simp [applyOp, hother]
  rw [hinsert, Finset.card_insert_of_notMem]
  simp [mem_presentKeys, hkey]

/-- Whatever a run comes to, its arrays hold the map of its operations. -/
theorem represents_exec {size : ℤ} (h : exec step (dictionaryNew size) ops = some d) :
    Represents d (lastSet ops) ∧ maxSlots d.size = maxSlots (dictionaryNew size : Dict V).size := by
  induction ops using List.reverseRecOn generalizing d with
  | nil =>
    obtain rfl : dictionaryNew size = d := by simpa [exec] using h
    exact ⟨represents_new size, rfl⟩
  | append_singleton ops op ih =>
    rw [exec_concat] at h
    obtain ⟨before, hbefore, hstep⟩ := Option.bind_eq_some_iff.mp h
    obtain ⟨hrep, hmax⟩ := ih hbefore
    rw [lastSet_concat]
    rcases hrep.step op with ⟨d', hd', hrep', hmax'⟩ | ⟨_, _, -, -, -, hnone⟩
    · obtain rfl : d' = d := Option.some.inj (hd'.symm.trans hstep)
      exact ⟨hrep', hmax'.trans hmax⟩
    · exact absurd (hnone.symm.trans hstep) (by simp)

/-- A run goes through exactly when its keys always find room. -/
theorem exec_isSome_iff (size : ℤ) (ops : List (Op V)) :
    (exec step (dictionaryNew size) ops).isSome ↔
      ∀ before, before <+: ops →
        (presentKeys before).card ≤ maxSlots (dictionaryNew size : Dict V).size := by
  induction ops using List.reverseRecOn with
  | nil =>
    refine iff_of_true rfl fun before hbefore ↦ ?_
    rw [List.prefix_nil.mp hbefore]
    exact Nat.zero_le _
  | append_singleton ops op ih =>
    simp only [List.prefix_concat_iff, forall_eq_or_imp, ← ih]
    rw [exec_concat]
    cases hexec : exec step (dictionaryNew size) ops with
    | none => simp
    | some d =>
      obtain ⟨hrep, hmax⟩ := represents_exec hexec
      simp only [Option.isSome_some, and_true, Option.bind_some]
      rcases hrep.step op with ⟨d', hd', hrep', hmax'⟩ | ⟨key, val, rfl, hkey, hfull, hnone⟩
      · rw [← lastSet_concat] at hrep'
        refine iff_of_true (by rw [hd']; rfl) ?_
        rw [hrep'.card, ← hmax, ← hmax']
        exact hrep'.n_le.trans (le_doubling 27 _)
      · refine iff_of_false (by simp [hnone]) ?_
        rw [presentKeys_set hkey, hrep.card, hfull, hmax]
        omega

end Vodka.Genconfig.VariableMap
