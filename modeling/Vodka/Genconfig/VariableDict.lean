import Mathlib.Tactic
import Vodka.Foundation.Slots
import Vodka.Genconfig.Replace

/-!
# The dictionary of variables

A dictionary keeps three arrays of slots, for values, keys and hashes; a slot
without key is free. Keys are C strings without their terminator, values are
pointers, and allocations are taken to succeed. `mem_double` computes the new
size of an array in `int`: an overflow there has no result, and neither has a
search for a free slot that does not end.
-/

namespace Vodka.Genconfig.VariableDict

open Replace

def DICTMINSZ : ℤ := 128

def INT_MAX : ℕ := 2 ^ 31 - 1

/-- `sizeof` of a pointer and of `unsigned`. -/
def POINTER_SIZE : ℕ := 8

def UNSIGNED_SIZE : ℕ := 4

/-- `struct _dictionary_`; the null pointer is `none`. -/
structure Dict (V : Type) where
  n : ℕ
  size : ℕ
  val : List (Option V)
  key : List (Option Bytes)
  hash : List (BitVec 32)

/-- The length as an `int`. -/
def intLength (key : Bytes) : ℤ := (BitVec.ofNat 32 key.length).toInt

/-- The loop of `dictionary_hash`, over signed characters. -/
def hashStep (hash : BitVec 32) (c : UInt8) : BitVec 32 :=
  let hash := hash + c.toBitVec.signExtend 32
  let hash := hash + hash <<< 10
  hash ^^^ hash >>> 6

def dictionaryHash (key : Bytes) : BitVec 32 :=
  let hash := (key.take (intLength key).toNat).foldl hashStep 0
  let hash := hash + hash <<< 3
  let hash := hash ^^^ hash >>> 11
  hash + hash <<< 15

variable {V : Type}

def dictionaryNew (size : ℤ) : Dict V :=
  let size := (if size < DICTMINSZ then DICTMINSZ else size).toNat
  { n := 0
    size
    val := List.replicate size none
    key := List.replicate size none
    hash := List.replicate size 0 }

/-- The slot holds the key: equal hashes, then `strcmp`. -/
def slotHolds (d : Dict V) (key : Bytes) (i : ℕ) : Bool :=
  match d.key[i]? with
  | some (some other) => d.hash[i]? == some (dictionaryHash key) && key == other
  | _ => false

/-- `for (i=0 ; i<d->size ; i++)` up to the slot of the key. -/
def findSlot (d : Dict V) (key : Bytes) : Option ℕ :=
  (List.range d.size).find? (slotHolds d key)

def dictionaryGet (d : Dict V) (key : Bytes) (default : Option V) : Option V :=
  match findSlot d key with
  | some i => (d.val[i]?).getD none
  | none => default

/-- `mem_double`: the new half is zeroed. A size that does not fit its `int` argument has no
result either, since what comes of it is too short to be read where it is. -/
def memDouble {α : Type} (zero : α) (elementSize : ℕ) (array : List α) : Option (List α) :=
  if INT_MAX < 2 * (array.length * elementSize) then none
  else some (array ++ List.replicate array.length zero)

/-- The arrays are doubled when no slot is free. -/
def grow (d : Dict V) : Option (Dict V) :=
  if d.n = d.size then do
    let val ← memDouble none POINTER_SIZE d.val
    let key ← memDouble none POINTER_SIZE d.key
    let hash ← memDouble 0 UNSIGNED_SIZE d.hash
    return { d with val, key, hash, size := 2 * d.size }
  else some d

/-- The search for a free slot from `i` on; reading behind the array has no result. -/
def freeSlot (d : Dict V) : ℕ → ℕ → Option ℕ
  | 0, _ => none
  | fuel + 1, i =>
    match d.key[i]? with
    | none => none
    | some none => some i
    | some (some _) => freeSlot d fuel (if i + 1 = d.size then 0 else i + 1)

/-- A new value: the arrays grow if need be, and the key is put into a free slot. -/
def insertKey (d : Dict V) (key : Bytes) (val : Option V) : Option (Dict V) := do
  let d ← grow d
  let i ← freeSlot d d.size d.n
  return { d with
    key := d.key.set i (some key)
    val := d.val.set i val
    hash := d.hash.set i (dictionaryHash key)
    n := d.n + 1 }

def dictionarySet (d : Dict V) (key : Bytes) (val : Option V) : Option (Dict V × ℤ) :=
  match if 0 < d.n then findSlot d key else none with
  | some i => some ({ d with val := d.val.set i val }, 0)
  | none => (insertKey d key val).map fun d ↦ (d, 0)

def dictionaryUnset (d : Dict V) (key : Bytes) : Dict V :=
  match findSlot d key with
  | some i =>
    { d with
      key := d.key.set i none
      val := d.val.set i none
      hash := d.hash.set i 0
      n := d.n - 1 }
  | none => d

inductive Op (V : Type)
  | set (key : Bytes) (val : Option V)
  | unset (key : Bytes)

def step (d : Dict V) : Op V → Option (Dict V)
  | .set key val => (dictionarySet d key val).map Prod.fst
  | .unset key => some (dictionaryUnset d key)

def equals : UInt8 := 0x3d

/-- How the loop over the arguments ends early: with the usage message, or without result. -/
inductive Stop
  | usage
  | undefined
deriving DecidableEq

/-- One argument: `strchr` splits it at the first `=`. -/
def defineVariable (d : Dict Bytes) (arg : Bytes) : Except Stop (Dict Bytes) :=
  if equals ∈ arg then
    let name := arg.takeWhile fun b ↦ b != equals
    let value := (arg.dropWhile fun b ↦ b != equals).tail
    match dictionarySet d name (some value) with
    | some (d, _) => .ok d
    | none => .error .undefined
  else .error .usage

/-- The variables that `main` reads from `argv[3]` on. -/
def defineVariables (args : List Bytes) : Except Stop (Dict Bytes) :=
  args.foldlM defineVariable (dictionaryNew 64)

end Vodka.Genconfig.VariableDict
