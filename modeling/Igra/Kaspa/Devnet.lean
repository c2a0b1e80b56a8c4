import Igra.Kaspa.Transaction
import Mathlib.Data.List.Range

/-!
# An executable network

`devnet` gives the kaspa functions that the wallet calls: the mass formulas
and the standard scripts as the crates compute them, with a polynomial digest
in the place of the transaction hash and a plain text form of addresses and
paths.  Runs of the model on concrete transactions use it.
-/

open Rust

namespace Kaspa

namespace Devnet

/-- `transaction_estimated_serialized_size`. -/
def serializedSize (tx : Transaction) : Nat :=
  94 + tx.payload.length +
    (tx.inputs.map fun input => 52 + input.signatureScript.length).sum +
    (tx.outputs.map fun output =>
      18 + output.scriptPublicKey.script.length).sum

/-- One gram per byte, ten per byte of an output script and its version, a
thousand for each signature operation, and the signatures still to come. -/
def computeMass (tx : Transaction) (minimumSignatures : UInt16) : Nat :=
  serializedSize tx +
    (tx.outputs.map fun output =>
      10 * (2 + output.scriptPublicKey.script.length)).sum +
    (tx.inputs.map fun input =>
      1000 * (input.computeCommit.sigOpCount?.getD 0).toNat).sum +
    66 * max minimumSignatures.toNat 1 * tx.inputs.length

/-- The larger of the compute mass and half the transient mass. -/
def normalizedMax (masses : NonContextualMasses) : Nat :=
  max masses.computeMass.toNat ((masses.transientMass.toNat + 1) / 2)

def absorb (state item : Nat) : Nat :=
  (state * 1000003 + item + 1) % 2 ^ 256

def absorbBytes (state : Nat) (bytes : List UInt8) : Nat :=
  bytes.foldl (fun current byte => absorb current byte.toNat)
    (absorb state bytes.length)

def digestBytes (value : Nat) : Hash where
  bytes := (List.range 32).map fun position =>
    UInt8.ofNat (value / 256 ^ position)
  size := by simp

/-- A digest of everything but the signature scripts. -/
def transactionId (tx : Transaction) : TransactionId :=
  let inputs := tx.inputs.foldl
    (fun state input =>
      absorb (absorbBytes state input.previousOutpoint.transactionId.bytes)
        input.previousOutpoint.index.toNat)
    (absorb tx.version.toNat tx.inputs.length)
  let outputs := tx.outputs.foldl
    (fun state output =>
      absorbBytes (absorb state output.value.toNat)
        output.scriptPublicKey.script)
    (absorb inputs tx.outputs.length)
  digestBytes (absorbBytes outputs tx.payload)

/-- Pay to a public key, to an ECDSA public key or to a script hash. -/
def payToAddressScript (address : Address) : ScriptPublicKey :=
  match address.version with
  | .pubKey => ⟨0, 32 :: address.payload ++ [0xac]⟩
  | .pubKeyECDSA => ⟨0, 33 :: address.payload ++ [0xab]⟩
  | .scriptHash => ⟨0, 0xaa :: 32 :: address.payload ++ [0x87]⟩

/-- The text of an address prefix, with the colon after it. -/
def prefixText : AddressPrefix → List Char
  | .mainnet => ['k', 'a', 's', 'p', 'a', ':']
  | .testnet => ['k', 'a', 's', 'p', 'a', 't', 'e', 's', 't', ':']
  | .simnet => ['k', 'a', 's', 'p', 'a', 's', 'i', 'm', ':']
  | .devnet => ['k', 'a', 's', 'p', 'a', 'd', 'e', 'v', ':']

def versionLetter : AddressVersion → Char
  | .pubKey => 'q'
  | .pubKeyECDSA => 'e'
  | .scriptHash => 'p'

def addressToString (address : Address) : String :=
  String.ofList (prefixText address.addressPrefix ++
    versionLetter address.version :: (Hex.encode address.payload).toList)

/-- The prefix of an address text and what follows it. -/
def readPrefix (text : List Char) : Option (AddressPrefix × List Char) :=
  [.mainnet, .testnet, .simnet, .devnet].findSome? fun addressPrefix =>
    (text.dropPrefix? (prefixText addressPrefix)).map (addressPrefix, ·)

def readVersion (letter : Char) : Option AddressVersion :=
  [.pubKey, .pubKeyECDSA, .scriptHash].find? fun version =>
    versionLetter version = letter

def addressOfPayload (addressPrefix : AddressPrefix)
    (version : AddressVersion) (payload : List UInt8) :
    Except String Address :=
  if size : payload.length = version.publicKeyLen then
    .ok ⟨addressPrefix, version, payload, size⟩
  else .error "invalid payload length"

def addressOfText (text : List Char) : Except String Address :=
  match readPrefix text with
  | none => .error "unknown address prefix"
  | some (_, []) => .error "missing address payload"
  | some (addressPrefix, letter :: payload) =>
      match readVersion letter, Hex.decode (String.ofList payload) with
      | none, _ => .error "unknown address version"
      | some _, .error error => .error error.describe
      | some version, .ok bytes =>
          addressOfPayload addressPrefix version bytes

def addressTryFrom (text : String) : Except String Address :=
  addressOfText text.toList

/-- Paths such as `m/0/5`, without hardened children. -/
def derivationPathFromStr (text : String) : DerivationPath :=
  let (finished, last) := (text.toList.drop 2).foldl
    (fun (finished, current) character =>
      if character = '/' then (current :: finished, 0)
      else (finished, 10 * current + (character.toNat - 48)))
    (([] : List Nat), 0)
  ⟨(last :: finished).reverse.map UInt32.ofNat⟩

def pathBlocks (children : List UInt32) : List Char :=
  children.flatMap fun child => '/' :: Nat.toDigits 10 child.toNat

def derivationPathToString (path : DerivationPath) : String :=
  String.ofList ('m' :: pathBlocks path.children)

end Devnet

def devnet : Upstream where
  transactionId := Devnet.transactionId
  unsignedComputeMass tx minimumSignatures :=
    UInt64.ofNat (Devnet.computeMass tx minimumSignatures)
  signatureComputeMassForInputs inputs minimumSignatures :=
    UInt64.ofNat (66 * max minimumSignatures.toNat 1 * inputs.toNat)
  estimatedSerializedSize tx := UInt64.ofNat (Devnet.serializedSize tx)
  normalizedMax masses := UInt64.ofNat (Devnet.normalizedMax masses)
  payToAddressScript := Devnet.payToAddressScript
  addressToString := Devnet.addressToString
  addressTryFrom := Devnet.addressTryFrom
  derivationPathFromStr text := .ok (Devnet.derivationPathFromStr text)
  derivationPathToString := Devnet.derivationPathToString
  hashFromStr text :=
    match Hex.decode text with
    | .error error => .error error.describe
    | .ok bytes =>
        match FixedBytes.ofList? 32 bytes with
        | some hash => .ok hash
        | none => .error "invalid hash length"
  publicKeyLe left right := decide (left.serialized ≤ right.serialized)
  deriveXOnlyPublicKey key path :=
    .ok (Devnet.digestBytes (Devnet.absorbBytes
      (path.children.foldl (fun state child =>
        Devnet.absorb state child.toNat) 0) key.serialized))
  multisigRedeemScript keys required :=
    .ok (UInt8.ofNat required :: keys.flatMap FixedBytes.bytes)
  payToScriptHashScript script :=
    ⟨0, 0xaa :: 32 ::
      (Devnet.digestBytes (Devnet.absorbBytes 0 script)).bytes ++ [0x87]⟩
  extractScriptPubKeyAddress script addressPrefix :=
    Devnet.addressOfPayload addressPrefix .scriptHash
      (script.script.drop 2).dropLast

/-- The same functions, on address texts read byte by byte: runs on sample
transactions are evaluated with these. -/
def quickDevnet : Upstream :=
  { devnet with
    addressToString address :=
      String.ofList (Devnet.prefixText address.addressPrefix ++
        Devnet.versionLetter address.version ::
          asciiChars (Hex.encode address.payload))
    addressTryFrom text := Devnet.addressOfText (asciiChars text) }

theorem devnet_eq_quick : devnet = quickDevnet := by
  simp only [quickDevnet, asciiChars_eq]
  rfl

theorem addressesRoundTrip_devnet : devnet.AddressesRoundTrip := by
  intro address
  obtain ⟨addressPrefix, version, payload, size⟩ := address
  have readLetter : Devnet.readVersion (Devnet.versionLetter version) =
      some version := by
    cases version <;> rfl
  have readText : ∀ rest, Devnet.readPrefix
      (Devnet.prefixText addressPrefix ++ rest) =
        some (addressPrefix, rest) := by
    intro rest
    cases addressPrefix <;>
      simp [Devnet.readPrefix, Devnet.prefixText, List.dropPrefix?]
  simp [devnet, Devnet.addressToString, Devnet.addressTryFrom,
    Devnet.addressOfText, readText, readLetter, Hex.decode_encode,
    Devnet.addressOfPayload, size]

theorem idsIgnoreSignatures_devnet : devnet.IdsIgnoreSignatures := by
  intro tx
  simp [devnet, Devnet.transactionId, Transaction.withoutSignatures,
    List.foldl_map]

/-- A block of a path text ends where the next one starts. -/
private theorem takeWhile_block (child : UInt32) (rest : List UInt32) :
    (Nat.toDigits 10 child.toNat ++ Devnet.pathBlocks rest).takeWhile
        (fun character => character != '/') =
      Nat.toDigits 10 child.toNat := by
  have digits : ∀ character ∈ Nat.toDigits 10 child.toNat,
      (character != '/') = true := by
    intro character member
    have isDigit :=
      Nat.isDigit_of_mem_toDigits (by decide) (by decide) member
    rw [bne_iff_ne]
    rintro rfl
    exact absurd isDigit (by decide)
  rw [List.takeWhile_append_of_pos digits]
  cases rest with
  | nil => simp [Devnet.pathBlocks]
  | cons next later => simp [Devnet.pathBlocks]

private theorem pathBlocks_injective {left right : List UInt32}
    (same : Devnet.pathBlocks left = Devnet.pathBlocks right) :
    left = right := by
  induction left generalizing right with
  | nil =>
      cases right with
      | nil => rfl
      | cons child rest => simp [Devnet.pathBlocks] at same
  | cons child rest ih =>
      cases right with
      | nil => simp [Devnet.pathBlocks] at same
      | cons other others =>
          have tails : Nat.toDigits 10 child.toNat ++
                Devnet.pathBlocks rest =
              Nat.toDigits 10 other.toNat ++ Devnet.pathBlocks others := by
            simpa [Devnet.pathBlocks] using same
          have digits := congrArg
            (List.takeWhile fun character => character != '/') tails
          rw [takeWhile_block, takeWhile_block] at digits
          have numbers := congrArg (Nat.ofDigitChars 10 · 0) digits
          simp only [Nat.ofDigitChars_ten_toDigits] at numbers
          rw [digits, List.append_cancel_left_eq] at tails
          rw [UInt32.toNat_inj.mp numbers, ih tails]

theorem distinctPathTexts_devnet : devnet.DistinctPathTexts := by
  rintro ⟨left⟩ ⟨right⟩ same
  have blocks : Devnet.pathBlocks left = Devnet.pathBlocks right := by
    simpa [devnet, Devnet.derivationPathToString] using
      congrArg String.toList same
  rw [pathBlocks_injective blocks]

end Kaspa
