import Igra.Evm.Bytes

/-!
# Hexadecimal texts

Bytes are written with two digits each.  A number that fits in some bytes has,
behind the zeros that fill it up, the digits of its bytes.
-/

namespace Evm

section Reading

/-- The value of a hexadecimal digit, small or capital. -/
def hexDigit (digit : Char) : Option Nat :=
  if '0' ≤ digit ∧ digit ≤ '9' then some (digit.toNat - '0'.toNat)
  else if 'a' ≤ digit ∧ digit ≤ 'f' then some (digit.toNat - 'a'.toNat + 10)
  else if 'A' ≤ digit ∧ digit ≤ 'F' then some (digit.toNat - 'A'.toNat + 10)
  else none

def hexText (bytes : List Byte) : List Char :=
  bytes.flatMap fun byte =>
    [Nat.digitChar (byte.toNat / 16), Nat.digitChar (byte.toNat % 16)]

/-- Two digits for each byte, and none left. -/
def readHex : List Char → Option (List Byte)
  | [] => some []
  | [_] => none
  | high :: low :: rest => do
      let high ← hexDigit high
      let low ← hexDigit low
      let bytes ← readHex rest
      return BitVec.ofNat 8 (16 * high + low) :: bytes

theorem hexDigit_digitChar {digit : Nat} (small : digit < 16) :
    hexDigit digit.digitChar = some digit := by
  have every : ∀ digit : Fin 16,
      hexDigit digit.val.digitChar = some digit.val := by decide
  exact every ⟨digit, small⟩

/-- Bytes that were written are read again. -/
theorem readHex_hexText_append (bytes : List Byte) (rest : List Char) :
    readHex (hexText bytes ++ rest) = (readHex rest).map (bytes ++ ·) := by
  induction bytes with
  | nil => simp [hexText]
  | cons byte bytes ih =>
      have bound := byte.isLt
      have high := hexDigit_digitChar (show byte.toNat / 16 < 16 by omega)
      have low := hexDigit_digitChar (show byte.toNat % 16 < 16 by omega)
      have whole : BitVec.ofNat 8 (16 * (byte.toNat / 16) + byte.toNat % 16) =
          byte := by
        apply BitVec.eq_of_toNat_eq
        rw [BitVec.toNat_ofNat]
        omega
      have spelled : hexText (byte :: bytes) ++ rest =
          Nat.digitChar (byte.toNat / 16) :: Nat.digitChar (byte.toNat % 16) ::
            (hexText bytes ++ rest) := rfl
      rw [spelled, readHex, high, low, ih]
      cases readHex rest with
      | none => rfl
      | some later => simp [whole]

theorem readHex_hexText (bytes : List Byte) :
    readHex (hexText bytes) = some bytes := by
  have read := readHex_hexText_append bytes []
  simpa [readHex] using read

theorem length_of_readHex {text : List Char} {bytes : List Byte}
    (read : readHex text = some bytes) : text.length = 2 * bytes.length := by
  induction text using readHex.induct generalizing bytes with
  | case1 =>
      cases read
      rfl
  | case2 digit => cases read
  | case3 high low rest ih =>
      rw [readHex] at read
      simp only [Option.bind_eq_bind, Option.bind_eq_some_iff] at read
      obtain ⟨_, _, _, _, later, known, together⟩ := read
      cases together
      have shorter := ih known
      simp only [List.length_cons]
      omega

theorem hexText_append (bytes more : List Byte) :
    hexText (bytes ++ more) = hexText bytes ++ hexText more := by
  simp [hexText]

theorem hexText_flatMap {α : Type} (bytes : α → List Byte) (parts : List α) :
    hexText (parts.flatMap bytes) =
      parts.flatMap fun part => hexText (bytes part) := by
  simp [hexText, List.flatMap_assoc]

end Reading

section Numbers

/-- The lowest hexadecimal digits of a number. -/
def lowDigits : Nat → Nat → List Char
  | 0, _ => []
  | count + 1, value =>
      lowDigits count (value / 16) ++ [Nat.digitChar (value % 16)]

theorem lowDigits_zero (count : Nat) :
    lowDigits count 0 = List.replicate count '0' := by
  induction count with
  | zero => rfl
  | succ count ih =>
      rw [lowDigits, Nat.zero_div, ih, List.replicate_succ']
      rfl

/-- Zeros fill up the digits of a number. -/
theorem leftpad_toDigits {count value : Nat} (positive : 0 < count)
    (fits : value < 16 ^ count) :
    (Nat.toDigits 16 value).leftpad count '0' = lowDigits count value := by
  induction count generalizing value with
  | zero => omega
  | succ count ih =>
      by_cases small : value < 16
      · rw [Nat.toDigits_of_lt_base small, lowDigits, Nat.div_eq_of_lt small,
          Nat.mod_eq_of_lt small, lowDigits_zero]
        rfl
      · have large : 16 ≤ value := Nat.le_of_not_lt small
        have room : 0 < count := by
          rcases Nat.eq_zero_or_pos count with rfl | room
          · exact absurd fits (by omega)
          · exact room
        have below : value / 16 < 16 ^ count := by
          rw [pow_succ] at fits
          exact Nat.div_lt_of_lt_mul (by rwa [Nat.mul_comm])
        rw [Nat.toDigits_of_base_le (by omega) large, lowDigits,
          ← ih room below]
        simp [List.leftpad]

/-- The digits of the bytes of a number. -/
theorem hexText_bigEndian (length value : Nat) :
    hexText (bigEndian length value) = lowDigits (2 * length) value := by
  induction length generalizing value with
  | zero => rfl
  | succ length ih =>
      have byte : (BitVec.ofNat 8 value).toNat = value % 256 :=
        BitVec.toNat_ofNat value 8
      have high : value / 16 % 16 = value % 256 / 16 := by omega
      have low : value % 16 = value % 256 % 16 := by omega
      have rest : value / 16 / 16 = value / 256 := by omega
      rw [bigEndian, hexText_append, ih, Nat.mul_succ, lowDigits, lowDigits,
        rest, high, low, ← byte, List.append_assoc]
      rfl

theorem leftpad_eq_hexText {length value : Nat} (positive : 0 < length)
    (fits : value < 256 ^ length) :
    (Nat.toDigits 16 value).leftpad (length * 2) '0' =
      hexText (bigEndian length value) := by
  rw [hexText_bigEndian, Nat.mul_comm]
  apply leftpad_toDigits
  · omega
  · rw [pow_mul]
    exact fits

theorem spelled_lt (bytes : List Byte) :
    spelled bytes < 256 ^ bytes.length := by
  have reduced := spelled_bigEndian bytes.length (spelled bytes)
  rw [bigEndian_spelled] at reduced
  rw [reduced]
  exact Nat.mod_lt _ (Nat.pow_pos (by omega))

end Numbers

end Evm
