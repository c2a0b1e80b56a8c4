import Mathlib.Data.List.Basic
import Mathlib.Data.List.Induction
import Mathlib.Data.Nat.ModEq

/-!
# Words, bytes and memory

A word is spelled by 32 bytes, the highest first.  Memory has a byte at each
position; what is written at a place is what is read there.
-/

namespace Evm

abbrev Byte := BitVec 8

abbrev Word := BitVec 256

section BigEndian

/-- The lowest bytes of a number, the highest of them first. -/
def bigEndian : Nat → Nat → List Byte
  | 0, _ => []
  | length + 1, value =>
      bigEndian length (value / 256) ++ [BitVec.ofNat 8 value]

/-- The number that bytes spell. -/
def spelled (bytes : List Byte) : Nat :=
  bytes.foldl (fun high byte => high * 256 + byte.toNat) 0

theorem spelled_append (bytes : List Byte) (byte : Byte) :
    spelled (bytes ++ [byte]) = spelled bytes * 256 + byte.toNat := by
  unfold spelled
  rw [List.foldl_append, List.foldl_cons, List.foldl_nil]

@[simp] theorem length_bigEndian (length value : Nat) :
    (bigEndian length value).length = length := by
  induction length generalizing value with
  | zero => rfl
  | succ length ih =>
      rw [bigEndian, List.length_append, ih, List.length_singleton]

theorem spelled_bigEndian (length value : Nat) :
    spelled (bigEndian length value) = value % 256 ^ length := by
  induction length generalizing value with
  | zero =>
      rw [pow_zero, Nat.mod_one]
      rfl
  | succ length ih =>
      have low : (BitVec.ofNat 8 value).toNat = value % 256 :=
        BitVec.toNat_ofNat value 8
      rw [bigEndian, spelled_append, ih, low, pow_succ', Nat.mod_mul, add_comm,
        mul_comm]

theorem bigEndian_spelled (bytes : List Byte) :
    bigEndian bytes.length (spelled bytes) = bytes := by
  induction bytes using List.reverseRecOn with
  | nil => rfl
  | append_singleton bytes byte ih =>
      have bound := byte.isLt
      have high : (spelled bytes * 256 + byte.toNat) / 256 = spelled bytes := by
        omega
      have low : BitVec.ofNat 8 (spelled bytes * 256 + byte.toNat) = byte := by
        apply BitVec.eq_of_toNat_eq
        rw [BitVec.toNat_ofNat]
        omega
      rw [List.length_append, List.length_singleton, bigEndian, spelled_append,
        high, low, ih]

end BigEndian

section Words

def wordBytes (word : Word) : List Byte := bigEndian 32 word.toNat

def ofBytes (bytes : List Byte) : Word := BitVec.ofNat 256 (spelled bytes)

@[simp] theorem length_wordBytes (word : Word) :
    (wordBytes word).length = 32 :=
  length_bigEndian 32 word.toNat

@[simp] theorem ofBytes_wordBytes (word : Word) :
    ofBytes (wordBytes word) = word := by
  apply BitVec.eq_of_toNat_eq
  rw [ofBytes, wordBytes, spelled_bigEndian, BitVec.toNat_ofNat]
  have bound := word.isLt
  omega

theorem wordBytes_ofBytes {bytes : List Byte} (whole : bytes.length = 32) :
    wordBytes (ofBytes bytes) = bytes := by
  have spells := bigEndian_spelled bytes
  have below : spelled bytes < 2 ^ 256 := by
    have reduced := spelled_bigEndian 32 (spelled bytes)
    rw [whole] at spells
    rw [spells] at reduced
    omega
  rw [wordBytes, ofBytes, BitVec.toNat_ofNat, Nat.mod_eq_of_lt below, ← whole]
  exact spells

end Words

section Data

/-- Data of which a word can give the length. -/
abbrev Data := {bytes : List Byte // bytes.length < 2 ^ 256}

namespace Data

def empty : Data := ⟨[], by decide⟩

def size (data : Data) : Word := BitVec.ofNat 256 data.val.length

/-- A slice, with zeros from the end of the data on. -/
def slice (data : Data) (offset length : Nat) : List Byte :=
  (List.range length).map fun i => (data.val[offset + i]?).getD 0

def ofWord (word : Word) : Data :=
  ⟨wordBytes word, by rw [length_wordBytes]; decide⟩

@[simp] theorem toNat_size (data : Data) :
    data.size.toNat = data.val.length := by
  rw [size, BitVec.toNat_ofNat, Nat.mod_eq_of_lt data.property]

theorem slice_zero_length (data : Data) :
    data.slice 0 data.val.length = data.val := by
  apply List.ext_getElem
  · simp [slice]
  · intro i _ inside
    simp [slice, List.getElem?_eq_getElem inside]

end Data

end Data

section Memory

abbrev Memory := Nat → Byte

namespace Memory

def zero : Memory := fun _ => 0

def read (memory : Memory) (offset length : Nat) : List Byte :=
  (List.range length).map fun i => memory (offset + i)

def write (memory : Memory) (offset : Nat) (bytes : List Byte) : Memory :=
  fun position =>
    if offset ≤ position then
      (bytes[position - offset]?).getD (memory position)
    else memory position

/-- A word is written over 32 bytes. -/
def writeWord (memory : Memory) (place word : Word) : Memory :=
  memory.write place.toNat (wordBytes word)

@[simp] theorem length_read (memory : Memory) (offset length : Nat) :
    (memory.read offset length).length = length := by
  simp [read]

theorem read_add (memory : Memory) (offset length more : Nat) :
    memory.read offset (length + more) =
      memory.read offset length ++ memory.read (offset + length) more := by
  unfold read
  rw [List.range_add, List.map_append, List.map_map]
  simp only [Function.comp_def, Nat.add_assoc]

theorem read_write_self (memory : Memory) (offset : Nat) (bytes : List Byte) :
    (memory.write offset bytes).read offset bytes.length = bytes := by
  apply List.ext_getElem
  · simp
  · intro i _ inside
    simp [read, write, List.getElem?_eq_getElem inside]

theorem read_write_of_le (memory : Memory) {offset place length : Nat}
    (bytes : List Byte) (before : place + length ≤ offset) :
    (memory.write offset bytes).read place length =
      memory.read place length := by
  unfold read
  apply List.map_congr_left
  intro i inside
  have below := List.mem_range.mp inside
  unfold write
  rw [if_neg (by omega)]

end Memory

/-- What a machine returns from its memory. -/
def Data.ofMemory (memory : Memory) (offset length : Word) : Data :=
  ⟨memory.read offset.toNat length.toNat, by
    rw [Memory.length_read]
    exact length.isLt⟩

end Memory

end Evm
