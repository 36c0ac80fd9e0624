import Mathlib.Tactic
import Vodka.Foundation.BlockHeap
import Vodka.Foundation.Simulation
import Vodka.Genconfig.VariableMap

/-!
# The memory of the dictionary

The dictionary on a heap: the record, its three arrays and the copies of the
keys are blocks, and an access to a block that is freed or to an element
outside of an array has no result. Every operation does on the heap what it
does on slots, and owns a block for each key that is present. Values are not
owned, and allocations are taken to succeed.
-/

namespace Vodka.Genconfig.DictMemory

open Foundation.BlockHeap Foundation.Simulation Foundation.Slots Replace VariableDict VariableMap

/-- `struct _dictionary_` with the names of its arrays. -/
structure Fields where
  n : ℕ
  size : ℕ
  val : ℕ
  key : ℕ
  hash : ℕ

/-- What a block holds. The key of a slot is the name of its copy. -/
inductive Block (V : Type)
  | dictionary (fields : Fields)
  | val (array : List (Option V))
  | key (array : List (Option ℕ))
  | hash (array : List (BitVec 32))
  | text (bytes : Bytes)

variable {V : Type}

def fieldsAt (heap : Heap (Block V)) (p : ℕ) : Option Fields :=
  match heap.block p with
  | some (.dictionary fields) => some fields
  | _ => none

def valAt (heap : Heap (Block V)) (p : ℕ) : Option (List (Option V)) :=
  match heap.block p with
  | some (.val array) => some array
  | _ => none

def keyAt (heap : Heap (Block V)) (p : ℕ) : Option (List (Option ℕ)) :=
  match heap.block p with
  | some (.key array) => some array
  | _ => none

def hashAt (heap : Heap (Block V)) (p : ℕ) : Option (List (BitVec 32)) :=
  match heap.block p with
  | some (.hash array) => some array
  | _ => none

def textAt (heap : Heap (Block V)) (p : ℕ) : Option Bytes :=
  match heap.block p with
  | some (.text bytes) => some bytes
  | _ => none

/-- A write to an element of an array. -/
def storeElement {α : Type} (arrayAt : Heap (Block V) → ℕ → Option (List α))
    (block : List α → Block V) (heap : Heap (Block V)) (p i : ℕ) (value : α) :
    Option (Heap (Block V)) := do
  let array ← arrayAt heap p
  if i < array.length then store heap p (block (array.set i value)) else none

def dictionaryNew (heap : Heap (Block V)) (size : ℤ) : Option (ℕ × Heap (Block V)) :=
  let (d, heap) := alloc heap (.dictionary ⟨0, 0, 0, 0, 0⟩)
  let size := (if size < DICTMINSZ then DICTMINSZ else size).toNat
  let (val, heap) := alloc heap (.val (List.replicate size none))
  let (key, heap) := alloc heap (.key (List.replicate size none))
  let (hash, heap) := alloc heap (.hash (List.replicate size 0))
  (store heap d (.dictionary ⟨0, size, val, key, hash⟩)).map fun heap ↦ (d, heap)

/-- The body of a loop over the slots: whether the slot holds the key. -/
def slotHolds (heap : Heap (Block V)) (fields : Fields) (key : Bytes) (i : ℕ) : Option Bool := do
  let keys ← keyAt heap fields.key
  match ← keys[i]? with
  | none => some false
  | some p =>
    let hashes ← hashAt heap fields.hash
    let hash ← hashes[i]?
    if hash = dictionaryHash key then (textAt heap p).map fun other ↦ key == other else some false

/-- The loop from slot `i` on. -/
def findFrom (heap : Heap (Block V)) (fields : Fields) (key : Bytes) : ℕ → ℕ → Option (Option ℕ)
  | 0, _ => some none
  | rest + 1, i =>
    (slotHolds heap fields key i).bind fun found ↦
      if found then some (some i) else findFrom heap fields key rest (i + 1)

def dictionaryGet (heap : Heap (Block V)) (d : ℕ) (key : Bytes) (default : Option V) :
    Option (Option V) := do
  let fields ← fieldsAt heap d
  match ← findFrom heap fields key fields.size 0 with
  | some i =>
    let vals ← valAt heap fields.val
    vals[i]?
  | none => some default

/-- `mem_double`: the new array, and the heap without the old one. -/
def memDouble {α : Type} (zero : α) (elementSize : ℕ)
    (arrayAt : Heap (Block V) → ℕ → Option (List α)) (block : List α → Block V)
    (heap : Heap (Block V)) (p : ℕ) : Option (ℕ × Heap (Block V)) := do
  let array ← arrayAt heap p
  let content ← VariableDict.memDouble zero elementSize array
  let (newptr, heap) := alloc heap (block content)
  let heap ← free heap p
  some (newptr, heap)

def grow (heap : Heap (Block V)) (d : ℕ) (fields : Fields) : Option (Fields × Heap (Block V)) :=
  if fields.n = fields.size then do
    let (val, heap) ← memDouble none POINTER_SIZE valAt .val heap fields.val
    let (key, heap) ← memDouble none POINTER_SIZE keyAt .key heap fields.key
    let (hash, heap) ← memDouble 0 UNSIGNED_SIZE hashAt .hash heap fields.hash
    let fields := { fields with val, key, hash, size := 2 * fields.size }
    let heap ← store heap d (.dictionary fields)
    some (fields, heap)
  else some (fields, heap)

/-- The search for a free slot from `i` on. -/
def freeSlot (heap : Heap (Block V)) (fields : Fields) : ℕ → ℕ → Option ℕ
  | 0, _ => none
  | fuel + 1, i => do
    let keys ← keyAt heap fields.key
    match ← keys[i]? with
    | none => some i
    | some _ => freeSlot heap fields fuel (if i + 1 = fields.size then 0 else i + 1)

/-- A copy of the key is put into a free slot. -/
def fillSlot (heap : Heap (Block V)) (d : ℕ) (fields : Fields) (i : ℕ) (key : Bytes)
    (val : Option V) : Option (Heap (Block V)) := do
  let (copy, heap) := alloc heap (.text key)
  let heap ← storeElement keyAt .key heap fields.key i (some copy)
  let heap ← storeElement valAt .val heap fields.val i val
  let heap ← storeElement hashAt .hash heap fields.hash i (dictionaryHash key)
  store heap d (.dictionary { fields with n := fields.n + 1 })

/-- A new value: the arrays grow if need be. -/
def insertKey (heap : Heap (Block V)) (d : ℕ) (fields : Fields) (key : Bytes) (val : Option V) :
    Option (Heap (Block V)) := do
  let (fields, heap) ← grow heap d fields
  let i ← freeSlot heap fields fields.size fields.n
  fillSlot heap d fields i key val

/-- A dictionary that counts no key is not searched. -/
def findPresent (heap : Heap (Block V)) (fields : Fields) (key : Bytes) : Option (Option ℕ) :=
  if 0 < fields.n then findFrom heap fields key fields.size 0 else some none

def dictionarySet (heap : Heap (Block V)) (d : ℕ) (key : Bytes) (val : Option V) :
    Option (Heap (Block V) × ℤ) := do
  let fields ← fieldsAt heap d
  match ← findPresent heap fields key with
  | some i => (storeElement valAt .val heap fields.val i val).map fun heap ↦ (heap, 0)
  | none => (insertKey heap d fields key val).map fun heap ↦ (heap, 0)

/-- `free` of the key in a slot, which may be NULL. -/
def freeKey (heap : Heap (Block V)) (fields : Fields) (i : ℕ) : Option (Heap (Block V)) := do
  let keys ← keyAt heap fields.key
  match ← keys[i]? with
  | none => some heap
  | some p => free heap p

def clearSlot (heap : Heap (Block V)) (d : ℕ) (fields : Fields) (i : ℕ) :
    Option (Heap (Block V)) := do
  let heap ← freeKey heap fields i
  let heap ← storeElement keyAt .key heap fields.key i none
  let heap ← storeElement valAt .val heap fields.val i none
  let heap ← storeElement hashAt .hash heap fields.hash i 0
  store heap d (.dictionary { fields with n := fields.n - 1 })

def dictionaryUnset (heap : Heap (Block V)) (d : ℕ) (key : Bytes) : Option (Heap (Block V)) := do
  let fields ← fieldsAt heap d
  match ← findFrom heap fields key fields.size 0 with
  | some i => clearSlot heap d fields i
  | none => some heap

/-- The loop of `dictionary_del` from slot `i` on. -/
def freeKeys (fields : Fields) : ℕ → ℕ → Heap (Block V) → Option (Heap (Block V))
  | 0, _, heap => some heap
  | rest + 1, i, heap => (freeKey heap fields i).bind (freeKeys fields rest (i + 1))

def dictionaryDel (heap : Heap (Block V)) (d : ℕ) : Option (Heap (Block V)) := do
  let fields ← fieldsAt heap d
  let heap ← freeKeys fields fields.size 0 heap
  let heap ← free heap fields.val
  let heap ← free heap fields.key
  let heap ← free heap fields.hash
  free heap d

/-! ## Ownership -/

def copyCell (copy : ℕ × Bytes) : ℕ × Block V := (copy.1, .text copy.2)

/-- The copies of the keys. -/
def texts (slots : List (Option (ℕ × Bytes))) : List (ℕ × Block V) :=
  slots.reduceOption.map copyCell

/-- The blocks that stand for a dictionary. -/
def cells (d : ℕ) (dict : Dict V) (fields : Fields) (slots : List (Option (ℕ × Bytes))) :
    List (ℕ × Block V) :=
  (d, .dictionary fields) :: (fields.val, .val dict.val) ::
    (fields.key, .key (slots.map (Option.map Prod.fst))) :: (fields.hash, .hash dict.hash) ::
    texts slots

/-- The heap is the base with a dictionary on top of it. -/
structure Owns (heap base : Heap (Block V)) (d : ℕ) (dict : Dict V) (fields : Fields)
    (slots : List (Option (ℕ × Bytes))) : Prop where
  holds : Holds heap base (cells d dict fields slots)
  n_eq : fields.n = dict.n
  size_eq : fields.size = dict.size
  key_eq : dict.key = slots.map (Option.map Prod.snd)

variable {heap base : Heap (Block V)} {d : ℕ} {dict : Dict V} {fields : Fields}
  {slots : List (Option (ℕ × Bytes))} {m : Bytes → Option (Option V)}

theorem fieldsAt_of_block {p : ℕ} (h : heap.block p = some (.dictionary fields)) :
    fieldsAt heap p = some fields := by
  rw [fieldsAt, h]

theorem valAt_of_block {p : ℕ} {array : List (Option V)} (h : heap.block p = some (.val array)) :
    valAt heap p = some array := by
  rw [valAt, h]

theorem keyAt_of_block {p : ℕ} {array : List (Option ℕ)} (h : heap.block p = some (.key array)) :
    keyAt heap p = some array := by
  rw [keyAt, h]

theorem hashAt_of_block {p : ℕ} {array : List (BitVec 32)}
    (h : heap.block p = some (.hash array)) : hashAt heap p = some array := by
  rw [hashAt, h]

theorem textAt_of_block {p : ℕ} {bytes : Bytes} (h : heap.block p = some (.text bytes)) :
    textAt heap p = some bytes := by
  rw [textAt, h]

theorem Owns.fieldsAt (h : Owns heap base d dict fields slots) : fieldsAt heap d = some fields :=
  fieldsAt_of_block (h.holds.load List.mem_cons_self)

theorem Owns.valAt (h : Owns heap base d dict fields slots) :
    valAt heap fields.val = some dict.val :=
  valAt_of_block (h.holds.load (by simp [cells]))

theorem Owns.keyAt (h : Owns heap base d dict fields slots) :
    keyAt heap fields.key = some (slots.map (Option.map Prod.fst)) :=
  keyAt_of_block (h.holds.load (by simp [cells]))

theorem Owns.hashAt (h : Owns heap base d dict fields slots) :
    hashAt heap fields.hash = some dict.hash :=
  hashAt_of_block (h.holds.load (by simp [cells]))

theorem Owns.textAt (h : Owns heap base d dict fields slots) {i p : ℕ} {bytes : Bytes}
    (hslot : slots[i]? = some (some (p, bytes))) : textAt heap p = some bytes := by
  have hcopy : (p, bytes) ∈ slots.reduceOption := mem_reduceOption_iff.2 ⟨i, hslot⟩
  have hmem : (p, .text bytes) ∈ cells d dict fields slots := by
    simp only [cells, List.mem_cons]
    exact .inr (.inr (.inr (.inr (List.mem_map.2 ⟨(p, bytes), hcopy, rfl⟩))))
  exact textAt_of_block (h.holds.load hmem)

theorem Owns.slotHolds (h : Owns heap base d dict fields slots) (hdict : Represents dict m)
    (key : Bytes) {i : ℕ} (hi : i < dict.size) :
    slotHolds heap fields key i = some (VariableDict.slotHolds dict key i) := by
  have hlength : i < slots.length := by
    rw [← List.length_map (Option.map Prod.snd), ← h.key_eq, hdict.key_length]
    exact hi
  have hinside : i < dict.hash.length := hdict.hash_length ▸ hi
  have hhash : dict.hash[i]? = some dict.hash[i] := List.getElem?_eq_getElem hinside
  have hkey : dict.key[i]? = some (slots[i].map Prod.snd) := by
    rw [h.key_eq, List.getElem?_map, List.getElem?_eq_getElem hlength]
    rfl
  rw [DictMemory.slotHolds, VariableDict.slotHolds, h.keyAt, h.hashAt, hkey]
  simp only [Option.bind_eq_bind, Option.bind_some, List.getElem?_map,
    List.getElem?_eq_getElem hlength, Option.map_some]
  cases hslot : slots[i] with
  | none => rfl
  | some copy =>
    obtain ⟨p, bytes⟩ := copy
    have htext := h.textAt ((List.getElem?_eq_getElem hlength).trans (congrArg some hslot))
    simp only [Option.map_some, htext, hhash, Option.bind_some]
    by_cases hsame : dict.hash[i] = dictionaryHash key
    · simp [hsame]
    · simp [hsame]

theorem Owns.findFrom (h : Owns heap base d dict fields slots) (hdict : Represents dict m)
    (key : Bytes) {rest i : ℕ} (hi : i + rest ≤ dict.size) :
    findFrom heap fields key rest i =
      some ((List.range' i rest).find? (VariableDict.slotHolds dict key)) := by
  induction rest generalizing i with
  | zero => rfl
  | succ rest ih =>
    rw [DictMemory.findFrom, h.slotHolds hdict key (by omega), Option.bind_some, List.range'_succ,
      List.find?_cons, ih (by omega)]
    cases VariableDict.slotHolds dict key i <;> rfl

theorem Owns.findSlot (h : Owns heap base d dict fields slots) (hdict : Represents dict m)
    (key : Bytes) :
    DictMemory.findFrom heap fields key fields.size 0 = some (findSlot dict key) := by
  rw [h.size_eq, h.findFrom hdict key (Nat.zero_add _).le, VariableDict.findSlot,
    List.range_eq_range']

theorem Owns.dictionaryGet (h : Owns heap base d dict fields slots) (hdict : Represents dict m)
    (key : Bytes) (default : Option V) :
    dictionaryGet heap d key default = some ((m key).getD default) := by
  rw [← hdict.dictionaryGet_eq, DictMemory.dictionaryGet, h.fieldsAt]
  simp only [Option.bind_eq_bind, Option.bind_some, h.findSlot hdict key]
  rw [VariableDict.dictionaryGet]
  cases hfind : VariableDict.findSlot dict key with
  | none => rfl
  | some i =>
    have hi : i < dict.val.length := by
      rw [hdict.val_length]
      exact List.mem_range.1 (List.mem_of_find?_eq_some hfind)
    simp only [h.valAt, Option.bind_some, List.getElem?_eq_getElem hi, Option.getD_some]

theorem Owns.freeSlot (h : Owns heap base d dict fields slots) (fuel i : ℕ) :
    freeSlot heap fields fuel i = VariableDict.freeSlot dict fuel i := by
  induction fuel generalizing i with
  | zero => rfl
  | succ fuel ih =>
    rw [DictMemory.freeSlot, VariableDict.freeSlot, h.keyAt, h.key_eq]
    simp only [Option.bind_eq_bind, Option.bind_some, List.getElem?_map, ih, h.size_eq]
    cases slots[i]? with
    | none => rfl
    | some slot => cases slot <;> rfl

section Arrays

variable {α : Type} {arrayAt : Heap (Block V) → ℕ → Option (List α)} {block : List α → Block V}
  {front back : List (ℕ × Block V)} {p i : ℕ} {array : List α}

/-- A write inside of an owned array. -/
theorem storeElement_eq
    (hread : ∀ heap : Heap (Block V), heap.block p = some (block array) →
      arrayAt heap p = some array)
    (h : Holds heap base (front ++ (p, block array) :: back)) (hi : i < array.length) (value : α) :
    ∃ after, storeElement arrayAt block heap p i value = some after ∧
      Holds after base (front ++ (p, block (array.set i value)) :: back) := by
  obtain ⟨after, hafter, hcells⟩ := h.store_middle (block (array.set i value))
  refine ⟨after, ?_, hcells⟩
  rw [storeElement, hread heap (h.load (by simp))]
  simp only [Option.bind_eq_bind, Option.bind_some, if_pos hi, hafter]

/-- An owned array is replaced by its double. -/
theorem memDouble_eq
    (hread : ∀ heap : Heap (Block V), heap.block p = some (block array) →
      arrayAt heap p = some array)
    (h : Holds heap base (front ++ (p, block array) :: back)) {zero : α} {elementSize : ℕ}
    {content : List α} (hcontent : VariableDict.memDouble zero elementSize array = some content) :
    ∃ q after, memDouble zero elementSize arrayAt block heap p = some (q, after) ∧
      Holds after base (front ++ (q, block content) :: back) := by
  have hnew := h.alloc (block content)
  rw [← List.cons_append] at hnew
  obtain ⟨after, hafter, hcells⟩ := hnew.free_middle
  refine ⟨heap.next, after, ?_, hcells.perm List.perm_middle.symm⟩
  rw [memDouble, hread heap (h.load (by simp))]
  simp only [Option.bind_eq_bind, Option.bind_some, hcontent, hafter]
  rfl

end Arrays

/-! ## Operations -/

theorem texts_replicate (count : ℕ) : texts (V := V) (List.replicate count none) = [] := by
  rw [texts, List.reduceOption_replicate_none]
  rfl

theorem dictionaryNew_owns (base : Heap (Block V)) (size : ℤ) :
    ∃ d heap fields slots, dictionaryNew base size = some (d, heap) ∧
      Owns heap base d (VariableDict.dictionaryNew size) fields slots := by
  let count := (if size < DICTMINSZ then DICTMINSZ else size).toNat
  have hall := ((((Holds.nil base).alloc (.dictionary ⟨0, 0, 0, 0, 0⟩)).alloc
    (.val (List.replicate count none))).alloc (.key (List.replicate count none))).alloc
      (.hash (List.replicate count 0))
  obtain ⟨heap, hheap, hcells⟩ := (hall.perm (List.reverse_perm _).symm).store
    (.dictionary ⟨0, count, base.next + 1, base.next + 2, base.next + 3⟩)
  refine ⟨base.next, heap, ⟨0, count, base.next + 1, base.next + 2, base.next + 3⟩,
    List.replicate count none, ?_, ?_, rfl, rfl, ?_⟩
  · exact congrArg (Option.map fun heap ↦ (base.next, heap)) hheap
  · rw [cells, texts_replicate, List.map_replicate]
    exact hcells
  · rw [List.map_replicate]
    rfl

/-- The doubled arrays take the place of the old ones. -/
theorem Owns.grow (h : Owns heap base d dict fields slots) (hdict : Represents dict m)
    (hfull : dict.n = dict.size) (hlimit : dict.size < SLOT_LIMIT) :
    ∃ fields' heap' slots', grow heap d fields = some (fields', heap') ∧
      Owns heap' base d (doubled dict) fields' slots' := by
  have hlength : slots.length = dict.size := by
    rw [← hdict.key_length, h.key_eq, List.length_map]
  have hpointers : (slots.map (Option.map Prod.fst)).length < SLOT_LIMIT := by
    rw [List.length_map, hlength]
    exact hlimit
  have hhash : VariableDict.memDouble 0 UNSIGNED_SIZE dict.hash =
      some (dict.hash ++ List.replicate dict.hash.length 0) :=
    VariableMap.memDouble_eq 0 (by decide) (hdict.hash_length ▸ hlimit)
  obtain ⟨val, heap₁, hval, h₁⟩ := @memDouble_eq V heap base _ DictMemory.valAt .val
    [(d, .dictionary fields)] _ _ _ (fun _ ↦ valAt_of_block) h.holds _ _ _
    (VariableMap.memDouble_eq none le_rfl (hdict.val_length ▸ hlimit))
  obtain ⟨key, heap₂, hkey, h₂⟩ := @memDouble_eq V heap₁ base _ DictMemory.keyAt .key
    [(d, .dictionary fields), (val, _)] _ _ _ (fun _ ↦ keyAt_of_block) h₁ _ _ _
    (VariableMap.memDouble_eq none le_rfl hpointers)
  obtain ⟨hash, heap₃, hhash, h₃⟩ := @memDouble_eq V heap₂ base _ DictMemory.hashAt .hash
    [(d, .dictionary fields), (val, _), (key, _)] _ _ _ (fun _ ↦ hashAt_of_block) h₂ _ _ _ hhash
  obtain ⟨heap₄, hheap, h₄⟩ := h₃.store
    (.dictionary ⟨fields.n, 2 * fields.size, val, key, hash⟩)
  refine ⟨⟨fields.n, 2 * fields.size, val, key, hash⟩, heap₄,
    slots ++ List.replicate slots.length none, ?_, ?_, h.n_eq, ?_, ?_⟩
  · rw [DictMemory.grow, if_pos (by rw [h.n_eq, h.size_eq, hfull]), hval]
    simp only [Option.bind_eq_bind, Option.bind_some, hkey, hhash, hheap]
  · have htexts : texts (V := V) (slots ++ List.replicate slots.length none) = texts slots := by
      rw [texts, reduceOption_grow, texts]
    have hmap : (slots ++ List.replicate slots.length none).map (Option.map Prod.fst) =
        slots.map (Option.map Prod.fst) ++
          List.replicate (slots.map (Option.map Prod.fst)).length none := by
      rw [List.map_append, List.map_replicate, List.length_map]
      rfl
    rw [cells, htexts, hmap]
    exact h₄
  · exact congrArg (2 * ·) h.size_eq
  · rw [List.map_append, List.map_replicate, ← h.key_eq, ← List.length_map (Option.map Prod.snd),
      ← h.key_eq]
    rfl

theorem Owns.index_lt (h : Owns heap base d dict fields slots) (hdict : Represents dict m)
    {i : ℕ} {slot : Option Bytes} (hslot : dict.key[i]? = some slot) :
    i < slots.length ∧ i < dict.val.length ∧ i < dict.hash.length := by
  have hi := hdict.lt_size hslot
  refine ⟨?_, hdict.val_length ▸ hi, hdict.hash_length ▸ hi⟩
  rw [← List.length_map (Option.map Prod.snd), ← h.key_eq, hdict.key_length]
  exact hi

theorem Owns.slot_of_key (h : Owns heap base d dict fields slots) {i : ℕ} {slot : Option Bytes}
    (hslot : dict.key[i]? = some slot) :
    ∃ entry, slots[i]? = some entry ∧ entry.map Prod.snd = slot := by
  rw [h.key_eq, List.getElem?_map] at hslot
  exact Option.map_eq_some_iff.1 hslot

/-- The elements of a slot and the record are written. -/
theorem storeSlot_eq {back : List (ℕ × Block V)} {record : Block V} {vals : List (Option V)}
    {keys : List (Option ℕ)} {hashes : List (BitVec 32)} {i : ℕ}
    (h : Holds heap base ((d, record) :: (fields.val, .val vals) :: (fields.key, .key keys) ::
      (fields.hash, .hash hashes) :: back))
    (hval : i < vals.length) (hkey : i < keys.length) (hhash : i < hashes.length)
    (val : Option V) (copy : Option ℕ) (hash : BitVec 32) (fields' : Fields) :
    ∃ after,
      ((storeElement keyAt .key heap fields.key i copy).bind fun heap ↦
        (storeElement valAt .val heap fields.val i val).bind fun heap ↦
          (storeElement hashAt .hash heap fields.hash i hash).bind fun heap ↦
            store heap d (.dictionary fields')) = some after ∧
      Holds after base ((d, .dictionary fields') :: (fields.val, .val (vals.set i val)) ::
        (fields.key, .key (keys.set i copy)) :: (fields.hash, .hash (hashes.set i hash)) ::
          back) := by
  obtain ⟨heap₁, hstore₁, h₁⟩ := @storeElement_eq V heap base _ keyAt .key
    [(d, _), (fields.val, _)] _ _ i _ (fun _ ↦ keyAt_of_block) h hkey copy
  obtain ⟨heap₂, hstore₂, h₂⟩ := @storeElement_eq V heap₁ base _ valAt .val
    [(d, _)] _ _ i _ (fun _ ↦ valAt_of_block) h₁ hval val
  obtain ⟨heap₃, hstore₃, h₃⟩ := @storeElement_eq V heap₂ base _ hashAt .hash
    [(d, _), (fields.val, _), (fields.key, _)] _ _ i _ (fun _ ↦ hashAt_of_block) h₂ hhash hash
  obtain ⟨after, hafter, hcells⟩ := h₃.store (.dictionary fields')
  exact ⟨after, by rw [hstore₁, Option.bind_some, hstore₂, Option.bind_some, hstore₃,
    Option.bind_some, hafter], hcells⟩

theorem map_fst_set (slots : List (Option (ℕ × Bytes))) (i : ℕ) (entry : Option (ℕ × Bytes)) :
    (slots.set i entry).map (Option.map Prod.fst) =
      (slots.map (Option.map Prod.fst)).set i (entry.map Prod.fst) :=
  List.map_set

/-- A copy of the key is owned from now on. -/
theorem Owns.fillSlot (h : Owns heap base d dict fields slots) (hdict : Represents dict m) {i : ℕ}
    (hfree : dict.key[i]? = some none) (key : Bytes) (val : Option V) :
    ∃ after fields' slots', fillSlot heap d fields i key val = some after ∧
      Owns after base d
        { dict with
          key := dict.key.set i (some key)
          val := dict.val.set i val
          hash := dict.hash.set i (dictionaryHash key)
          n := dict.n + 1 } fields' slots' := by
  obtain ⟨hi, hval, hhash⟩ := h.index_lt hdict hfree
  obtain ⟨entry, hslot, hnone⟩ := h.slot_of_key hfree
  obtain rfl := Option.map_eq_none_iff.1 hnone
  let copy := heap.next
  have htexts : ((copy, .text key) :: texts (V := V) slots).Perm
      (texts (slots.set i (some (copy, key)))) :=
    ((reduceOption_fill hslot (copy, key)).map copyCell).symm
  have hnew := (h.holds.alloc (.text key)).perm
    ((@List.perm_middle _ _ [_, _, _, _] _).symm.trans
      ((((htexts.cons _).cons _).cons _).cons _))
  obtain ⟨after, hafter, hcells⟩ := storeSlot_eq hnew hval (by rwa [List.length_map]) hhash val
    (some copy) (dictionaryHash key) { fields with n := fields.n + 1 }
  refine ⟨after, { fields with n := fields.n + 1 }, slots.set i (some (copy, key)), hafter, ?_, ?_,
    h.size_eq, ?_⟩
  · rw [cells, map_fst_set]
    exact hcells
  · exact congrArg (· + 1) h.n_eq
  · rw [List.map_set, ← h.key_eq]
    rfl

/-- The copy of the key is given back. -/
theorem Owns.clearSlot (h : Owns heap base d dict fields slots) (hdict : Represents dict m) {i : ℕ}
    {key : Bytes} (hkey : dict.key[i]? = some (some key)) :
    ∃ after fields' slots', clearSlot heap d fields i = some after ∧
      Owns after base d
        { dict with
          key := dict.key.set i none
          val := dict.val.set i none
          hash := dict.hash.set i 0
          n := dict.n - 1 } fields' slots' := by
  obtain ⟨hi, hval, hhash⟩ := h.index_lt hdict hkey
  obtain ⟨entry, hslot, hsome⟩ := h.slot_of_key hkey
  obtain ⟨⟨copy, key⟩, rfl, rfl⟩ := Option.map_eq_some_iff.1 hsome
  have htexts : (texts (V := V) slots).Perm ((copy, .text key) :: texts (slots.set i none)) :=
    (reduceOption_clear hslot).map copyCell
  have hfront := h.holds.perm ((((htexts.cons _).cons _).cons _).cons _)
  obtain ⟨freed, hfree, hrest⟩ := @Holds.free_middle _ heap base copy _ [_, _, _, _] _ hfront
  have hfreed : freeKey heap fields i = some freed := by
    rw [freeKey, h.keyAt]
    simp only [Option.bind_eq_bind, Option.bind_some, List.getElem?_map, hslot, Option.map_some]
    exact hfree
  obtain ⟨after, hafter, hcells⟩ := storeSlot_eq hrest hval (by rwa [List.length_map]) hhash none
    none 0 { fields with n := fields.n - 1 }
  refine ⟨after, { fields with n := fields.n - 1 }, slots.set i none, ?_, ?_, ?_, h.size_eq, ?_⟩
  · rw [DictMemory.clearSlot, hfreed]
    exact hafter
  · rw [cells, map_fst_set]
    exact hcells
  · exact congrArg (· - 1) h.n_eq
  · rw [List.map_set, ← h.key_eq]
    rfl

theorem insertKey_of_grow {heap' : Heap (Block V)} {fields' : Fields} {i : ℕ}
    (hgrow : grow heap d fields = some (fields', heap'))
    (h : Owns heap' base d dict fields' slots) (hdict : Represents dict m)
    (hroom : dict.n < dict.size) (hi : VariableDict.freeSlot dict dict.size dict.n = some i)
    (key : Bytes) (val : Option V) :
    ∃ after fields'' slots'', insertKey heap d fields key val = some after ∧
      Owns after base d
        { dict with
          key := dict.key.set i (some key)
          val := dict.val.set i val
          hash := dict.hash.set i (dictionaryHash key)
          n := dict.n + 1 } fields'' slots'' := by
  obtain ⟨free, hfree, hempty⟩ := hdict.freeSlot hroom
  obtain rfl : free = i := Option.some.inj (hfree.symm.trans hi)
  obtain ⟨after, fields'', slots'', hafter, howns⟩ := h.fillSlot hdict hempty key val
  refine ⟨after, fields'', slots'', ?_, howns⟩
  rw [insertKey, hgrow]
  simp only [Option.bind_eq_bind, Option.bind_some, h.freeSlot, h.n_eq, h.size_eq, hi, hafter]

/-- A new key is inserted on the heap when it is on slots. -/
theorem Owns.insertKey (h : Owns heap base d dict fields slots) (hdict : Represents dict m)
    {key : Bytes} {val : Option V} {next : Dict V}
    (hinsert : VariableDict.insertKey dict key val = some next) :
    ∃ after fields' slots', insertKey heap d fields key val = some after ∧
      Owns after base d next fields' slots' := by
  obtain ⟨grown, hgrown, hrest⟩ := Option.bind_eq_some_iff.1 hinsert
  obtain ⟨i, hi, hnext⟩ := Option.bind_eq_some_iff.1 hrest
  obtain rfl := Option.some.inj hnext
  rcases hdict.grow_cases with ⟨hlt, hgrow⟩ | ⟨heq, hlimit, hgrow⟩ | ⟨-, -, hgrow⟩
  · obtain rfl : dict = grown := Option.some.inj (hgrow.symm.trans hgrown)
    have hsame : DictMemory.grow heap d fields = some (fields, heap) := by
      rw [DictMemory.grow, if_neg]
      rw [h.n_eq, h.size_eq]
      exact hlt.ne
    exact insertKey_of_grow hsame h hdict hlt hi key val
  · obtain rfl : doubled dict = grown := Option.some.inj (hgrow.symm.trans hgrown)
    obtain ⟨fields', heap', slots', hgrow', h'⟩ := h.grow hdict heq hlimit
    have hpos := hdict.size_pos
    have hroom : (doubled dict).n < (doubled dict).size := by
      simp only [doubled]
      omega
    exact insertKey_of_grow hgrow' h' hdict.doubled hroom hi key val
  · exact absurd (hgrow.symm.trans hgrown) (Option.some_ne_none _).symm

/-- What an operation does on slots it does on the heap. -/
theorem Owns.dictionarySet (h : Owns heap base d dict fields slots) (hdict : Represents dict m)
    {key : Bytes} {val : Option V} {next : Dict V}
    (hset : VariableDict.step dict (.set key val) = some next) :
    ∃ after fields' slots', dictionarySet heap d key val = some (after, 0) ∧
      Owns after base d next fields' slots' := by
  have hfound : findPresent heap fields key =
      some (if 0 < dict.n then VariableDict.findSlot dict key else none) := by
    rw [findPresent, h.findSlot hdict, h.n_eq]
    split_ifs <;> rfl
  rw [VariableDict.step, VariableDict.dictionarySet] at hset
  rw [DictMemory.dictionarySet, h.fieldsAt]
  simp only [Option.bind_eq_bind, Option.bind_some, hfound]
  cases hslot : if 0 < dict.n then VariableDict.findSlot dict key else none with
  | some i =>
    rw [hslot] at hset
    obtain rfl := Option.some.inj hset
    have hi : i < dict.val.length := by
      split_ifs at hslot
      rw [hdict.val_length]
      exact List.mem_range.1 (List.mem_of_find?_eq_some hslot)
    obtain ⟨after, hafter, hcells⟩ := @storeElement_eq V heap base _ DictMemory.valAt .val [(d, _)]
      _ _ i _ (fun _ ↦ valAt_of_block) h.holds hi val
    refine ⟨after, fields, slots, ?_, hcells, h.n_eq, h.size_eq, h.key_eq⟩
    simp only [hafter, Option.map_some]
  | none =>
    rw [hslot] at hset
    simp only [Option.map_map] at hset
    obtain ⟨inserted, hinserted, rfl⟩ := Option.map_eq_some_iff.1 hset
    obtain ⟨after, fields', slots', hafter, howns⟩ := h.insertKey hdict hinserted
    exact ⟨after, fields', slots', by rw [hafter]; rfl, howns⟩

theorem Owns.dictionaryUnset (h : Owns heap base d dict fields slots) (hdict : Represents dict m)
    (key : Bytes) :
    ∃ after fields' slots', dictionaryUnset heap d key = some after ∧
      Owns after base d (VariableDict.dictionaryUnset dict key) fields' slots' := by
  rw [DictMemory.dictionaryUnset, h.fieldsAt, VariableDict.dictionaryUnset]
  simp only [Option.bind_eq_bind, Option.bind_some, h.findSlot hdict]
  cases hslot : VariableDict.findSlot dict key with
  | none => exact ⟨heap, fields, slots, rfl, h⟩
  | some i =>
    have hkey := (hdict.slotHolds_iff key i).1 (List.find?_some hslot)
    exact h.clearSlot hdict hkey

/-- The loop of `dictionary_del` gives back the copies of the slots to come. -/
theorem freeKeys_eq {front : List (ℕ × Block V)} {passed rest : List (Option (ℕ × Bytes))}
    (hkey : (fields.key, .key ((passed ++ rest).map (Option.map Prod.fst))) ∈ front)
    (h : Holds heap base (front ++ texts rest)) :
    ∃ after, freeKeys fields rest.length passed.length heap = some after ∧
      Holds after base front := by
  induction rest generalizing heap passed with
  | nil => exact ⟨heap, rfl, by simpa [texts] using h⟩
  | cons slot rest ih =>
    have hread : keyAt heap fields.key =
        some ((passed ++ slot :: rest).map (Option.map Prod.fst)) :=
      keyAt_of_block (h.load (List.mem_append_left _ hkey))
    have hnext : (passed ++ [slot]) ++ rest = passed ++ slot :: rest := by simp
    have hlength : (passed ++ [slot]).length = passed.length + 1 := by simp
    have hslot : ((passed ++ slot :: rest).map (Option.map Prod.fst))[passed.length]? =
        some (slot.map Prod.fst) := by simp
    rw [← hnext] at hkey
    cases slot with
    | none =>
      have hfree : freeKey heap fields passed.length = some heap := by
        rw [freeKey, hread]
        simp only [Option.bind_eq_bind, Option.bind_some, hslot, Option.map_none]
      rw [List.length_cons, freeKeys, hfree, Option.bind_some, ← hlength]
      exact ih hkey h
    | some copy =>
      obtain ⟨heap', hheap, h'⟩ := (show Holds heap base
        (front ++ (copy.1, .text copy.2) :: texts rest) from h).free_middle
      have hfree : freeKey heap fields passed.length = some heap' := by
        rw [freeKey, hread]
        simp only [Option.bind_eq_bind, Option.bind_some, hslot, Option.map_some, hheap]
      rw [List.length_cons, freeKeys, hfree, Option.bind_some, ← hlength]
      exact ih hkey h'

/-- All blocks are given back. -/
theorem Owns.dictionaryDel (h : Owns heap base d dict fields slots) (hdict : Represents dict m) :
    ∃ after, dictionaryDel heap d = some after ∧ after.block = base.block := by
  have hlength : slots.length = fields.size := by
    rw [h.size_eq, ← hdict.key_length, h.key_eq, List.length_map]
  obtain ⟨heap₁, hkeys, h₁⟩ := @freeKeys_eq V heap base fields
    [(d, .dictionary fields), (fields.val, .val dict.val),
      (fields.key, .key (slots.map (Option.map Prod.fst))), (fields.hash, .hash dict.hash)]
    [] slots (by simp) h.holds
  obtain ⟨heap₂, hval, h₂⟩ := @Holds.free_middle _ heap₁ base fields.val _ [(d, _)] _ h₁
  obtain ⟨heap₃, hkey, h₃⟩ := @Holds.free_middle _ heap₂ base fields.key _ [(d, _)] _ h₂
  obtain ⟨heap₄, hhash, h₄⟩ := @Holds.free_middle _ heap₃ base fields.hash _ [(d, _)] _ h₃
  obtain ⟨after, hafter, hcells⟩ := h₄.free
  refine ⟨after, ?_, hcells.block_eq⟩
  rw [hlength] at hkeys
  rw [DictMemory.dictionaryDel, h.fieldsAt]
  simp only [Option.bind_eq_bind, Option.bind_some]
  rw [show ([] : List (Option (ℕ × Bytes))).length = 0 from rfl] at hkeys
  rw [hkeys, Option.bind_some, hval, Option.bind_some, hkey, Option.bind_some, hhash,
    Option.bind_some, hafter]

/-! ## Runs -/

inductive Call (V : Type)
  | set (key : Bytes) (val : Option V)
  | unset (key : Bytes)
  | get (key : Bytes) (default : Option V)

inductive Answer (V : Type)
  | nothing
  | result (code : ℤ)
  | value (val : Option V)

def step (d : ℕ) (heap : Heap (Block V)) : Call V → Option (Heap (Block V) × Answer V)
  | .set key val => (dictionarySet heap d key val).map fun set ↦ (set.1, .result set.2)
  | .unset key => (dictionaryUnset heap d key).map fun heap ↦ (heap, .nothing)
  | .get key default => (dictionaryGet heap d key default).map fun val ↦ (heap, .value val)

/-- The calls so far say which keys are present and with which values. A new key needs room. -/
def history (limit : ℕ) : Purpose (List (Op V)) (Call V) (Answer V) where
  Meant
    | ops, .set key _ => (lastSet ops key).isSome ∨ (presentKeys ops).card < limit
    | _, _ => True
  next
    | ops, .set key val => ops ++ [.set key val]
    | ops, .unset key => ops ++ [.unset key]
    | ops, .get _ _ => ops
  answer
    | _, .set _ _ => .result 0
    | _, .unset _ => .nothing
    | ops, .get key default => .value ((lastSet ops key).getD default)

/-- The heap holds a dictionary with the history on top of the base. -/
def Stored (base : Heap (Block V)) (d limit : ℕ) (heap : Heap (Block V)) (ops : List (Op V)) :
    Prop :=
  ∃ dict fields slots, Owns heap base d dict fields slots ∧ Represents dict (lastSet ops) ∧
    maxSlots dict.size = limit

theorem Stored.step {limit : ℕ} {ops : List (Op V)} (h : Stored base d limit heap ops)
    {call : Call V} (meant : (history limit).Meant ops call) :
    ∃ next, DictMemory.step d heap call = some (next, (history limit).answer ops call) ∧
      Stored base d limit next ((history limit).next ops call) := by
  obtain ⟨dict, fields, slots, howns, hdict, hlimit⟩ := h
  cases call with
  | set key val =>
    rcases hdict.step (.set key val) with
      ⟨next, hnext, hrep, hmax⟩ | ⟨key', val', hop, hnew, hfull, -⟩
    · obtain ⟨after, fields', slots', hafter, howns'⟩ := howns.dictionarySet hdict hnext
      refine ⟨after, by rw [DictMemory.step, hafter]; rfl, next, fields', slots', howns', ?_,
        hmax.trans hlimit⟩
      rw [← lastSet_concat] at hrep
      exact hrep
    · obtain ⟨rfl, rfl⟩ := Op.set.inj hop
      have hroom : (lastSet ops key).isSome ∨ (presentKeys ops).card < limit := meant
      rw [hnew, hdict.card, hfull, hlimit] at hroom
      exact absurd hroom (by simp)
  | unset key =>
    obtain ⟨after, fields', slots', hafter, howns'⟩ := howns.dictionaryUnset hdict key
    refine ⟨after, by rw [DictMemory.step, hafter]; rfl, _, fields', slots', howns', ?_, ?_⟩
    · have hrep := hdict.dictionaryUnset key
      rw [show Function.update (lastSet ops) key none = applyOp (lastSet ops) (.unset key) from rfl,
        ← lastSet_concat] at hrep
      exact hrep
    · rw [dictionaryUnset_size, hlimit]
  | get key default =>
    refine ⟨heap, ?_, dict, fields, slots, howns, hdict, hlimit⟩
    rw [DictMemory.step, howns.dictionaryGet hdict]
    rfl

theorem Owns.card {ops : List (Op V)} (h : Owns heap base d dict fields slots)
    (hdict : Represents dict (lastSet ops)) :
    (cells d dict fields slots).length = 4 + (presentKeys ops).card := by
  have hcount : (texts (V := V) slots).length = (presentKeys ops).card := by
    rw [hdict.card, hdict.n_eq, h.key_eq, List.reduceOption_map, List.length_map, texts,
      List.length_map]
  rw [cells, List.length_cons, List.length_cons, List.length_cons, List.length_cons, hcount]
  omega

/-- **Dictionary memory.** Over any run of calls that finds room for its keys, every access is to
an owned block, every get finds the last value set, the dictionary owns four blocks and one for
each present key, and `dictionary_del` leaves the heap as it was before `dictionary_new`. -/
theorem run_dictionary (base : Heap (Block V)) (size : ℤ) {calls : List (Call V)}
    (meant : (history (maxSlots (VariableDict.dictionaryNew size : Dict V).size)).MeantRun []
      calls) :
    ∃ d heap final owned cleared, dictionaryNew base size = some (d, heap) ∧
      run (step d) heap calls = some (final,
        (history (maxSlots (VariableDict.dictionaryNew size : Dict V).size)).answers [] calls) ∧
      Holds final base owned ∧ owned.length = 4 + (presentKeys ((history (maxSlots
        (VariableDict.dictionaryNew size : Dict V).size)).after [] calls)).card ∧
      dictionaryDel final d = some cleared ∧ cleared.block = base.block := by
  let limit := maxSlots (VariableDict.dictionaryNew size : Dict V).size
  obtain ⟨d, heap, fields, slots, hnew, howns⟩ := dictionaryNew_owns base size
  obtain ⟨final, hrun, dict, fields', slots', hfinal, hdict, -⟩ :=
    run_of_simulates (history limit) (step d) (fun heap ops _ ↦ Stored base d limit heap ops)
      (fun _ _ _ _ h meant ↦ h.step meant)
      ⟨_, fields, slots, howns, represents_new size, rfl⟩ meant
  obtain ⟨cleared, hdel, hcleared⟩ := hfinal.dictionaryDel hdict
  exact ⟨d, heap, final, _, cleared, hnew, hrun, hfinal.holds, hfinal.card hdict, hdel, hcleared⟩

/-- Two keys are set and one of them is unset, above a block of another owner. -/
theorem run_dictionary_twoKeys :
    let base : Heap (Block ℕ) := (alloc Heap.empty (.text [0x78])).2
    let calls : List (Call ℕ) :=
      [.set [0x61] (some 1), .set [0x62] (some 2), .unset [0x61], .get [0x61] (some 9),
        .get [0x62] none]
    ∃ d heap final cleared, dictionaryNew base 64 = some (d, heap) ∧
      run (step d) heap calls = some (final,
        [.result 0, .result 0, .nothing, .value (some 9), .value (some 2)]) ∧
      dictionaryDel final d = some cleared ∧ cleared.block = base.block := by
  intro base calls
  have hlimit : maxSlots (VariableDict.dictionaryNew 64 : Dict ℕ).size = SLOT_LIMIT := maxSlots_new
  have hroom (ops : List (Op ℕ)) (h : (presentKeys ops).card < 2) :
      (presentKeys ops).card < maxSlots (VariableDict.dictionaryNew 64 : Dict ℕ).size := by
    rw [hlimit]
    exact h.trans (by decide)
  obtain ⟨d, heap, final, owned, cleared, hnew, hrun, -, -, hdel, hcleared⟩ :=
    run_dictionary base 64 (show (history _).MeantRun [] calls from
      ⟨.inr (hroom [] (by decide)), .inr (hroom [.set [0x61] (some 1)] (by decide)), trivial,
        trivial, trivial, trivial⟩)
  exact ⟨d, heap, final, cleared, hnew, hrun, hdel, hcleared⟩

end Vodka.Genconfig.DictMemory
