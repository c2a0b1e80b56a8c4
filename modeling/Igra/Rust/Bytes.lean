import Mathlib.Data.List.Infix
import Mathlib.Tactic.IntervalCases
import Mathlib.Data.List.Basic

/-!
# Byte strings and texts

Fixed-size arrays `[u8; N]`, little-endian integers, the `hex` codec and a
search in a text.

The codec is a third-party crate, `hex` 0.4, of which the source is not at
hand.  Its definitions follow what the crate documents: `encode` writes small
digits; `decode` reads the UTF-8 bytes of the text, takes digits of either case
and fails with `OddLength` for an odd number of bytes, and otherwise with
`InvalidHexCharacter` and the place of the first byte that is no digit.  From
that it follows that decoding is a left inverse of encoding.
-/

namespace Rust

/-- `[u8; length]`. -/
structure FixedBytes (length : Nat) where
  bytes : List UInt8
  size : bytes.length = length
deriving DecidableEq

namespace FixedBytes

variable {length : Nat}

@[ext] theorem ext {left right : FixedBytes length}
    (equal : left.bytes = right.bytes) : left = right := by
  cases left
  cases right
  simpa using equal

/-- `[0u8; length]`. -/
def zero (length : Nat) : FixedBytes length :=
  ⟨List.replicate length 0, List.length_replicate⟩

/-- `slice.try_into()`, which fails on any other length. -/
def ofList? (length : Nat) (bytes : List UInt8) : Option (FixedBytes length) :=
  if size : bytes.length = length then some ⟨bytes, size⟩ else none

@[simp] theorem ofList?_bytes (value : FixedBytes length) :
    ofList? length value.bytes = some value := by
  simp [ofList?, value.size]

/-- The bytes of arrays of one size, back to back, give the arrays. -/
theorem flatMap_bytes_injective (positive : 0 < length) :
    Function.Injective fun arrays : List (FixedBytes length) =>
      arrays.flatMap FixedBytes.bytes := by
  intro left right equal
  induction left generalizing right with
  | nil =>
      cases right with
      | nil => rfl
      | cons array rest =>
          have sizes := congrArg List.length equal
          simp [array.size] at sizes
          omega
  | cons array arrays ih =>
      cases right with
      | nil =>
          have sizes := congrArg List.length equal
          simp [array.size] at sizes
          omega
      | cons other others =>
          simp only [List.flatMap_cons] at equal
          obtain ⟨head, tail⟩ := List.append_inj equal
            (array.size.trans other.size.symm)
          rw [FixedBytes.ext head, ih tail]

end FixedBytes

/-- Byte strings back to back, with the length of each, give the strings. -/
theorem eq_of_flatMap_bytes {α : Type} {bytes : α → List UInt8}
    (injective : Function.Injective bytes) {left right : List α}
    (sizes : left.map (fun item => (bytes item).length) =
      right.map fun item => (bytes item).length)
    (equal : left.flatMap bytes = right.flatMap bytes) : left = right := by
  apply List.map_injective_iff.mpr injective
  rw [List.eq_iff_flatten_eq]
  simp only [List.map_map, Function.comp_def]
  exact ⟨equal, sizes⟩

section LittleEndian

/-- `value.to_le_bytes()` for an integer of `width` bytes. -/
def leBytes : Nat → Nat → List UInt8
  | 0, _ => []
  | width + 1, value => UInt8.ofNat value :: leBytes width (value / 256)

@[simp] theorem length_leBytes (width value : Nat) :
    (leBytes width value).length = width := by
  induction width generalizing value with
  | zero => rfl
  | succ width ih => simp [leBytes, ih]

theorem leBytes_injective {width left right : Nat}
    (leftFits : left < 256 ^ width) (rightFits : right < 256 ^ width)
    (equal : leBytes width left = leBytes width right) : left = right := by
  induction width generalizing left right with
  | zero =>
      rw [Nat.pow_zero] at leftFits rightFits
      omega
  | succ width ih =>
      rw [Nat.pow_succ] at leftFits rightFits
      obtain ⟨low, high⟩ := List.cons.inj equal
      have quotient := ih (Nat.div_lt_of_lt_mul (by omega))
        (Nat.div_lt_of_lt_mul (by omega)) high
      have remainder : left % 256 = right % 256 := by
        have values := congrArg UInt8.toNat low
        simpa using values
      omega

end LittleEndian

namespace Hex

/-- `hex::FromHexError`. -/
inductive FromHexError where
  | oddLength
  | invalidHexCharacter (character : UInt8) (index : Nat)
deriving DecidableEq

/-- The `Display` text of a decoding error. -/
def FromHexError.describe : FromHexError → String
  | .oddLength => "Odd number of digits"
  | .invalidHexCharacter character index =>
      s!"Invalid character {repr (Char.ofNat character.toNat)} at position {index}"

def hexDigit (nibble : Nat) : Char :=
  if nibble < 10 then Char.ofNat (48 + nibble) else Char.ofNat (87 + nibble)

/-- `hex::encode`. -/
def encode (bytes : List UInt8) : String :=
  String.ofList (bytes.flatMap fun byte =>
    [hexDigit (byte.toNat / 16), hexDigit (byte.toNat % 16)])

/-- The value of one digit, at its position in the text. -/
def digitValue (character : UInt8) (index : Nat) : Except FromHexError Nat :=
  let code := character.toNat
  if 48 ≤ code ∧ code ≤ 57 then .ok (code - 48)
  else if 65 ≤ code ∧ code ≤ 70 then .ok (code - 55)
  else if 97 ≤ code ∧ code ≤ 102 then .ok (code - 87)
  else .error (.invalidHexCharacter character index)

def decodePairs (index : Nat) :
    List UInt8 → Except FromHexError (List UInt8)
  | high :: low :: rest => do
      let highValue ← digitValue high index
      let lowValue ← digitValue low (index + 1)
      let bytes ← decodePairs (index + 2) rest
      pure (UInt8.ofNat (16 * highValue + lowValue) :: bytes)
  | _ => .ok []

/-- `hex::decode`. -/
def decode (text : String) : Except FromHexError (List UInt8) :=
  let characters := text.toByteArray.data.toList
  if characters.length % 2 ≠ 0 then .error .oddLength
  else decodePairs 0 characters

private theorem utf8EncodeChar_hexDigit {nibble : Nat} (bound : nibble < 16) :
    String.utf8EncodeChar (hexDigit nibble) =
      [UInt8.ofNat (hexDigit nibble).toNat] := by
  interval_cases nibble <;> rfl

private theorem digitValue_hexDigit {nibble : Nat} (bound : nibble < 16)
    (index : Nat) :
    digitValue (UInt8.ofNat (hexDigit nibble).toNat) index = .ok nibble := by
  interval_cases nibble <;> rfl

private theorem encode_characters (bytes : List UInt8) :
    (encode bytes).toByteArray.data.toList =
      bytes.flatMap fun byte =>
        [UInt8.ofNat (hexDigit (byte.toNat / 16)).toNat,
          UInt8.ofNat (hexDigit (byte.toNat % 16)).toNat] := by
  have ascii (byte : UInt8) :
      [hexDigit (byte.toNat / 16), hexDigit (byte.toNat % 16)].flatMap
          String.utf8EncodeChar =
        [UInt8.ofNat (hexDigit (byte.toNat / 16)).toNat,
          UInt8.ofNat (hexDigit (byte.toNat % 16)).toNat] := by
    have bound := byte.toNat_lt
    simp [utf8EncodeChar_hexDigit (show byte.toNat / 16 < 16 by omega),
      utf8EncodeChar_hexDigit (show byte.toNat % 16 < 16 by omega)]
  simp only [encode, String.toByteArray_ofList, List.utf8Encode,
    List.data_toByteArray, List.flatMap_assoc, ascii]

theorem utf8ByteSize_encode (bytes : List UInt8) :
    (encode bytes).utf8ByteSize = bytes.length * 2 := by
  have characters : (encode bytes).utf8ByteSize =
      (encode bytes).toByteArray.data.toList.length :=
    rfl
  simp [characters, encode_characters, List.length_flatMap]

private theorem decodePairs_digits (bytes : List UInt8) (index : Nat) :
    decodePairs index (bytes.flatMap fun byte =>
      [UInt8.ofNat (hexDigit (byte.toNat / 16)).toNat,
        UInt8.ofNat (hexDigit (byte.toNat % 16)).toNat]) = .ok bytes := by
  induction bytes generalizing index with
  | nil => rfl
  | cons byte bytes ih =>
      have bound := byte.toNat_lt
      have whole :
          UInt8.ofNat (16 * (byte.toNat / 16) + byte.toNat % 16) = byte := by
        rw [Nat.div_add_mod, UInt8.ofNat_toNat]
      simp only [List.flatMap_cons, List.cons_append, List.nil_append,
        decodePairs,
        digitValue_hexDigit (show byte.toNat / 16 < 16 by omega),
        digitValue_hexDigit (show byte.toNat % 16 < 16 by omega), ih,
        bind, Except.bind, pure, Except.pure, whole]

/-- Decoding is a left inverse of encoding. -/
@[simp] theorem decode_encode (bytes : List UInt8) :
    decode (encode bytes) = .ok bytes := by
  unfold decode
  simp only [encode_characters, decodePairs_digits]
  simp [List.length_flatMap]

theorem encode_injective : Function.Injective encode := by
  intro left right equal
  have decoded := congrArg decode equal
  rw [decode_encode, decode_encode] at decoded
  exact Except.ok.inj decoded

end Hex

/-- The characters of a text, one for each byte where that spells it.  They
evaluate in far fewer steps than `String.toList`. -/
def asciiChars (text : String) : List Char :=
  let characters := text.toByteArray.data.toList.map fun byte =>
    Char.ofNat byte.toNat
  if String.ofList characters = text then characters else text.toList

theorem asciiChars_eq (text : String) : asciiChars text = text.toList := by
  unfold asciiChars
  dsimp only
  split
  · rename_i spelled
    simpa using congrArg String.toList spelled
  · rfl

/-- `text.contains(pattern)`. -/
def textContains (text pattern : String) : Bool :=
  text.toList.tails.any fun suffix => pattern.toList.isPrefixOf suffix

theorem textContains_iff {text pattern : String} :
    textContains text pattern = true ↔ pattern.toList <:+: text.toList := by
  simp only [textContains, List.any_eq_true, List.mem_tails,
    List.isPrefixOf_iff_prefix, List.infix_iff_prefix_suffix]
  constructor
  · rintro ⟨suffix, ending, found⟩
    exact ⟨suffix, found, ending⟩
  · rintro ⟨suffix, found, ending⟩
    exact ⟨suffix, ending, found⟩

end Rust
