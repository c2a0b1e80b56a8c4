import Igra.Kaspa.Transaction

/-!
# The subnetwork of the wallet daemon

The daemon takes the subnetwork of its transactions from the command line, as
the namespace of a lane in lower-case hexadecimal.
-/

open Kaspa Rust

namespace Rust

namespace Hex

/-- The errors of `hex::decode_to_slice`. -/
inductive SliceError where
  | invalidStringLength
  | fromHex (error : FromHexError)
deriving DecidableEq

def SliceError.describe : SliceError → String
  | .invalidStringLength => "Invalid string length"
  | .fromHex error => error.describe

theorem decodePairs_cons_eq_ok {high low : UInt8} {rest bytes : List UInt8}
    {index : Nat}
    (decoded : decodePairs index (high :: low :: rest) = .ok bytes) :
    ∃ highValue lowValue tail,
      digitValue high index = .ok highValue ∧
      digitValue low (index + 1) = .ok lowValue ∧
      decodePairs (index + 2) rest = .ok tail ∧
      bytes = UInt8.ofNat (16 * highValue + lowValue) :: tail := by
  rw [decodePairs] at decoded
  cases highDigit : digitValue high index with
  | error error => simp [highDigit, bind, Except.bind] at decoded
  | ok highValue =>
      cases lowDigit : digitValue low (index + 1) with
      | error error =>
          simp [highDigit, lowDigit, bind, Except.bind] at decoded
      | ok lowValue =>
          cases others : decodePairs (index + 2) rest with
          | error error =>
              simp [highDigit, lowDigit, others, bind, Except.bind] at decoded
          | ok tail =>
              simp only [highDigit, lowDigit, others, bind, Except.bind, pure,
                Except.pure, Except.ok.injEq] at decoded
              exact ⟨highValue, lowValue, tail, rfl, rfl, rfl, decoded.symm⟩

theorem length_of_decodePairs {characters bytes : List UInt8} {index : Nat}
    (decoded : decodePairs index characters = .ok bytes) :
    bytes.length = characters.length / 2 := by
  induction index, characters using decodePairs.induct
    generalizing bytes with
  | case1 index high low rest ih =>
      obtain ⟨_, _, tail, -, -, others, rfl⟩ := decodePairs_cons_eq_ok decoded
      have lengths := ih others
      rw [List.length_cons, List.length_cons, List.length_cons]
      omega
  | case2 characters index short =>
      match characters, short with
      | [], _ =>
          obtain rfl : [] = bytes := by simpa [decodePairs] using decoded
          rfl
      | [_], _ =>
          obtain rfl : [] = bytes := by simpa [decodePairs] using decoded
          simp
      | high :: low :: rest, short => exact absurd rfl (short high low rest)

/-- `hex::decode_to_slice`, for an array of as many bytes. -/
def decodeToSlice (count : Nat) (text : String) :
    Except SliceError (FixedBytes count) :=
  let characters := text.toByteArray.data.toList
  if characters.length % 2 ≠ 0 then .error (.fromHex .oddLength)
  else if lengths : characters.length / 2 = count then
    match decoded : decodePairs 0 characters with
    | .ok bytes =>
        .ok ⟨bytes, (length_of_decodePairs decoded).trans lengths⟩
    | .error error => .error (.fromHex error)
  else .error .invalidStringLength

theorem eq_zero_of_digitValue {character : UInt8} {index : Nat}
    (zero : digitValue character index = .ok 0) : character = 48 := by
  have bound := character.toNat_lt
  unfold digitValue at zero
  apply UInt8.toNat_inj.mp
  simp only at zero
  split at zero
  · rename_i decimal
    have value := Except.ok.inj zero
    rw [show (48 : UInt8).toNat = 48 from rfl]
    omega
  · split at zero
    · rename_i upper
      have value := Except.ok.inj zero
      omega
    · split at zero
      · rename_i lower
        have value := Except.ok.inj zero
        omega
      · cases zero

theorem digitValue_le {character : UInt8} {index value : Nat}
    (digit : digitValue character index = .ok value) : value ≤ 15 := by
  unfold digitValue at digit
  simp only at digit
  split at digit
  · have value := Except.ok.inj digit
    omega
  · split at digit
    · have value := Except.ok.inj digit
      omega
    · split at digit
      · have value := Except.ok.inj digit
        omega
      · cases digit

theorem eq_zeros_of_decodePairs {characters : List UInt8} {index count : Nat}
    (even : characters.length % 2 = 0)
    (decoded : decodePairs index characters =
      .ok (List.replicate count 0)) :
    characters = List.replicate (2 * count) 48 := by
  induction count generalizing index characters with
  | zero =>
      have length := length_of_decodePairs decoded
      rw [List.length_replicate] at length
      have empty : characters.length = 0 := by omega
      simpa using empty
  | succ count ih =>
      have length := length_of_decodePairs decoded
      rw [List.length_replicate] at length
      match characters, length with
      | high :: low :: rest, _ =>
          rw [List.replicate_succ] at decoded
          obtain ⟨highValue, lowValue, tail, highDigit, lowDigit, others,
            bytes⟩ := decodePairs_cons_eq_ok decoded
          obtain ⟨byte, rfl⟩ := List.cons.inj bytes
          have highBound := digitValue_le highDigit
          have lowBound := digitValue_le lowDigit
          have value := congrArg UInt8.toNat byte
          rw [UInt8.toNat_ofNat', Nat.mod_eq_of_lt (by omega),
            UInt8.toNat_zero] at value
          obtain rfl : highValue = 0 := by omega
          obtain rfl : lowValue = 0 := by omega
          have restEven : rest.length % 2 = 0 := by
            simp only [List.length_cons] at even
            omega
          rw [eq_zero_of_digitValue highDigit,
            eq_zero_of_digitValue lowDigit, ih restEven others,
            show 2 * (count + 1) = 2 * count + 2 by omega,
            List.replicate_succ, List.replicate_succ]

theorem text_eq_of_decodeToSlice {count : Nat} {text zeros : String}
    (decoded : decodeToSlice count text =
      .ok ⟨List.replicate count 0, List.length_replicate⟩)
    (digits : zeros.toByteArray.data.toList =
      List.replicate (2 * count) 48) :
    text = zeros := by
  unfold decodeToSlice at decoded
  simp only at decoded
  split at decoded
  · cases decoded
  rename_i even
  split at decoded
  · split at decoded
    · rename_i bytes pairs
      have same := congrArg FixedBytes.bytes (Except.ok.inj decoded)
      simp only at same
      subst same
      have characters := eq_zeros_of_decodePairs (by omega) pairs
      apply String.toByteArray_inj.mp
      apply ByteArray.ext
      apply Array.toList_inj.mp
      rw [characters, digits]
    · cases decoded
  · cases decoded

end Hex

section AsciiCase

/-- `is_ascii_uppercase` of a byte. -/
def isAsciiUppercaseByte (byte : UInt8) : Bool := 65 ≤ byte && byte ≤ 90

/-- `is_ascii_uppercase` of a character. -/
def isAsciiUppercase (character : Char) : Bool :=
  65 ≤ character.toNat && character.toNat ≤ 90

private theorem isAsciiUppercaseByte_ofNat {value : Nat} (bound : value < 256) :
    isAsciiUppercaseByte (UInt8.ofNat value) =
      (decide (65 ≤ value) && decide (value ≤ 90)) := by
  have same : (UInt8.ofNat value).toNat = value := by
    rw [UInt8.toNat_ofNat']
    exact Nat.mod_eq_of_lt bound
  simp [isAsciiUppercaseByte, UInt8.le_iff_toNat_le, same]

theorem any_isAsciiUppercaseByte (character : Char) :
    (String.utf8EncodeChar character).any isAsciiUppercaseByte =
      isAsciiUppercase character := by
  have code : character.toNat = character.val.toNat := rfl
  have upper : isAsciiUppercase character =
      (decide (65 ≤ character.val.toNat) &&
        decide (character.val.toNat ≤ 90)) := rfl
  have high (value : Nat) (above : 90 < value) (bound : value < 256) :
      isAsciiUppercaseByte (UInt8.ofNat value) = false := by
    rw [isAsciiUppercaseByte_ofNat bound]
    simp only [Bool.and_eq_false_iff, decide_eq_false_iff_not]
    omega
  have ascii_or_high : character.val.toNat ≤ 0x7f ∨
      isAsciiUppercase character = false := by
    rw [upper]
    simp only [Bool.and_eq_false_iff, decide_eq_false_iff_not]
    omega
  fun_cases String.utf8EncodeChar character with
  | case1 value small =>
      rw [List.any_cons, List.any_nil, Bool.or_false, upper,
        isAsciiUppercaseByte_ofNat (by omega)]
  | case2 value large =>
      rw [ascii_or_high.resolve_left large]
      simp only [List.any_cons, List.any_nil, Bool.or_eq_false_iff, and_true]
      exact ⟨high _ (by omega) (by omega), high _ (by omega) (by omega)⟩
  | case3 value large =>
      rw [ascii_or_high.resolve_left large]
      simp only [List.any_cons, List.any_nil, Bool.or_eq_false_iff, and_true]
      exact ⟨high _ (by omega) (by omega), high _ (by omega) (by omega),
        high _ (by omega) (by omega)⟩
  | case4 value large =>
      rw [ascii_or_high.resolve_left large]
      simp only [List.any_cons, List.any_nil, Bool.or_eq_false_iff, and_true]
      exact ⟨high _ (by omega) (by omega), high _ (by omega) (by omega),
        high _ (by omega) (by omega), high _ (by omega) (by omega)⟩

theorem any_uppercase_bytes (text : String) :
    text.toByteArray.data.toList.any isAsciiUppercaseByte =
      text.toList.any isAsciiUppercase := by
  have bytes : text.toByteArray.data.toList =
      text.toList.flatMap String.utf8EncodeChar := by
    conv_lhs => rw [← String.ofList_toList (s := text)]
    rw [String.toByteArray_ofList, List.utf8Encode, List.data_toByteArray]
  rw [bytes, List.any_flatMap]
  exact congrArg (text.toList.any ·) (funext any_isAsciiUppercaseByte)

end AsciiCase

/-- `text.starts_with(pattern)`. -/
def startsWith (text pattern : String) : Bool :=
  pattern.toList.isPrefixOf text.toList

/-- The hexadecimal text of the first byte. -/
def firstByteText (bytes : List UInt8) : String :=
  Hex.encode (bytes.take 1)

end Rust

namespace Kaspa

/-- The functions of the subnetwork ids that the programs take from the kaspa
crates, and the text forms in their messages. -/
structure SubnetworkCrate where
  /-- `SubnetworkId::from_namespace` -/
  fromNamespace : FixedBytes 4 → SubnetworkId
  /-- `SubnetworkId::is_builtin` -/
  isBuiltin : SubnetworkId → Bool
  /-- `SubnetworkId::to_string` -/
  display : SubnetworkId → String
  /-- a text in quotes, with escapes -/
  debug : String → String

/-- A namespace, and zeros up to the size of an id. -/
def zeroPadded (namespaceBytes : FixedBytes 4) : SubnetworkId :=
  ⟨namespaceBytes.bytes ++ List.replicate 16 0, by
    rw [List.length_append, namespaceBytes.size, List.length_replicate]⟩

/-- An id with the namespace in front is zero behind it. -/
def SubnetworkCrate.ZeroTail (crate : SubnetworkCrate) : Prop :=
  ∀ namespaceBytes, crate.fromNamespace namespaceBytes =
    zeroPadded namespaceBytes

/-- A text of a namespace in the form that the programs ask for. -/
structure SpellsNamespace (text : String) (namespaceBytes : FixedBytes 4) :
    Prop where
  noMarker : ¬(startsWith text "0x" || startsWith text "0X") = true
  size : text.utf8ByteSize = 8
  lowercase : ¬text.toList.any isAsciiUppercase = true
  decoded : Hex.decodeToSlice 4 text = .ok namespaceBytes

/-- A namespace of the reserved system shape. -/
def ReservedShape (namespaceBytes : FixedBytes 4) : Prop :=
  (namespaceBytes.bytes.drop 1).all (· == 0) = true

end Kaspa

namespace Kaswallet

/-- `SUBNETWORK_NAMESPACE_LEN`. -/
abbrev subnetworkNamespaceLen : Nat := 4

/-- `SUBNETWORK_NAMESPACE_HEX_LEN`. -/
def subnetworkNamespaceHexLen : Nat := subnetworkNamespaceLen * 2

/-- `parse_subnetwork_id_arg`. -/
def parseSubnetworkIdArg (crate : SubnetworkCrate) (text : String) :
    Except String SubnetworkId :=
  if startsWith text "0x" || startsWith text "0X" then
    .error "--subnetwork-id must not have a 0x prefix"
  else if text.utf8ByteSize ≠ subnetworkNamespaceHexLen then
    .error ("--subnetwork-id must be the 4-byte lane namespace as " ++
      toString subnetworkNamespaceHexLen ++
      " lowercase hex chars (e.g. 97b10000), got " ++
      toString text.utf8ByteSize)
  else if text.toByteArray.data.toList.any isAsciiUppercaseByte then
    .error ("--subnetwork-id must be lowercase hex " ++
      "(got mixed/uppercase characters)")
  else
    match Hex.decodeToSlice subnetworkNamespaceLen text with
    | .error error =>
        .error ("--subnetwork-id namespace must be valid lowercase hex: " ++
          error.describe)
    | .ok namespaceBytes =>
        let parsed := crate.fromNamespace namespaceBytes
        if crate.isBuiltin parsed then
          .error ("--subnetwork-id: reserved built-in subnetwork " ++
            crate.display parsed ++ " is not allowed")
        else if !parsed.isNative &&
            (namespaceBytes.bytes.drop 1).all (· == 0) then
          .error ("--subnetwork-id: namespace 0x" ++
            firstByteText namespaceBytes.bytes ++
            "000000 collides with the reserved system shape " ++
            "[x, 0×19] per KIP-21")
        else .ok parsed

variable {crate : SubnetworkCrate} {text : String}

theorem parseSubnetworkIdArg_eq_ok {subnetworkId : SubnetworkId} :
    parseSubnetworkIdArg crate text = .ok subnetworkId ↔
      ∃ namespaceBytes, SpellsNamespace text namespaceBytes ∧
        subnetworkId = crate.fromNamespace namespaceBytes ∧
        ¬crate.isBuiltin subnetworkId = true ∧
        (subnetworkId.isNative = true ∨ ¬ReservedShape namespaceBytes) := by
  unfold parseSubnetworkIdArg
  rw [any_uppercase_bytes]
  constructor
  · intro parsed
    split at parsed
    · cases parsed
    rename_i noMarker
    split at parsed
    · cases parsed
    rename_i size
    split at parsed
    · cases parsed
    rename_i lowercase
    split at parsed
    · cases parsed
    rename_i namespaceBytes decoded
    simp only at parsed
    split at parsed
    · cases parsed
    rename_i allowed
    split at parsed
    · cases parsed
    rename_i lane
    cases parsed
    refine ⟨namespaceBytes, ⟨noMarker, not_not.mp size, lowercase, decoded⟩,
      rfl, allowed, ?_⟩
    by_cases native :
        (crate.fromNamespace namespaceBytes).isNative = true
    · exact .inl native
    · refine .inr fun reserved => lane ?_
      rw [Bool.and_eq_true, Bool.not_eq_true']
      exact ⟨Bool.eq_false_iff.mpr native, reserved⟩
  · rintro ⟨namespaceBytes, spelled, rfl, allowed, lane⟩
    have size : ¬text.utf8ByteSize ≠ subnetworkNamespaceHexLen :=
      not_not.mpr spelled.size
    rw [if_neg spelled.noMarker, if_neg size, if_neg spelled.lowercase,
      show Hex.decodeToSlice subnetworkNamespaceLen text =
        .ok namespaceBytes from spelled.decoded]
    simp only
    rw [if_neg allowed, if_neg]
    simp only [Bool.and_eq_true, Bool.not_eq_true', not_and]
    intro notNative reserved
    cases lane with
    | inl native => rw [native] at notNative; cases notNative
    | inr notReserved => exact notReserved reserved

end Kaswallet
