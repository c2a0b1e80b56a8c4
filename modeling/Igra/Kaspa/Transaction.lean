import Igra.Rust.Bytes
import Igra.Rust.Outcome

/-!
# Consensus transactions

The transaction types of the kaspa crates, with the fields this repository
reads or writes.  A transaction id is a function of the transaction and is not
stored next to it: the source calls `finalize` before every place that reads a
cached id, and an id ignores signature scripts.
-/

namespace Kaspa

abbrev Hash := Rust.FixedBytes 32

abbrev TransactionId := Hash

abbrev SubnetworkId := Rust.FixedBytes 20

namespace SubnetworkId

/-- `SUBNETWORK_ID_NATIVE`. -/
def native : SubnetworkId :=
  Rust.FixedBytes.zero 20

def isNative (subnetworkId : SubnetworkId) : Bool :=
  subnetworkId == native

end SubnetworkId

/-- `TX_VERSION`. -/
def txVersion : UInt16 := 0

/-- `TX_VERSION_TOCCATA`. -/
def txVersionToccata : UInt16 := 1

/-- `SOMPI_PER_KASPA`. -/
def sompiPerKaspa : UInt64 := 100000000

/-- `UNACCEPTED_DAA_SCORE`. -/
def unacceptedDaaScore : UInt64 := 0xffffffffffffffff

/-- `TRANSIENT_BYTE_TO_MASS_FACTOR`. -/
def transientByteToMassFactor : UInt64 := 4

/-- `GRAMS_PER_COMPUTE_BUDGET_UNIT`. -/
def gramsPerComputeBudgetUnit : UInt64 := 100

/-- `MAXIMUM_STANDARD_TRANSACTION_MASS`. -/
def maximumStandardTransactionMass : UInt64 := 100000

/-- `SIGNATURE_SIZE`. -/
def signatureSize : UInt64 := 66

structure ScriptPublicKey where
  version : UInt16
  script : List UInt8
deriving DecidableEq

/-- `ScriptPublicKey::default()`. -/
def ScriptPublicKey.default : ScriptPublicKey :=
  ⟨0, []⟩

structure TransactionOutpoint where
  transactionId : TransactionId
  index : UInt32
deriving DecidableEq

/-- The mass commitment of an input: transactions before Toccata carry a
signature-operation count, later ones a compute budget. -/
inductive ComputeCommit where
  | sigOpCount (count : UInt8)
  | computeBudget (budget : UInt16)
deriving DecidableEq

namespace ComputeCommit

/-- `compute_commit.sig_op_count()`. -/
def sigOpCount? : ComputeCommit → Option UInt8
  | .sigOpCount count => some count
  | .computeBudget _ => none

/-- `compute_commit.compute_budget()`. -/
def computeBudget? : ComputeCommit → Option UInt16
  | .sigOpCount _ => none
  | .computeBudget budget => some budget

/-- Version 0 uses `sig_op_count`; version 1 and later use
`compute_budget`. -/
def versionExpectsComputeBudgetField (version : UInt16) : Bool :=
  decide (txVersionToccata ≤ version)

/-- The commitment is of the variant that the transaction version uses. -/
def Matches (commit : ComputeCommit) (version : UInt16) : Prop :=
  commit.computeBudget?.isSome = versionExpectsComputeBudgetField version

end ComputeCommit

structure TransactionInput where
  previousOutpoint : TransactionOutpoint
  signatureScript : List UInt8
  sequence : UInt64
  computeCommit : ComputeCommit
deriving DecidableEq

/-- A covenant an output is bound to; nothing here looks inside. -/
structure CovenantBinding where
  covenantId : Hash
deriving DecidableEq

structure TransactionOutput where
  value : UInt64
  scriptPublicKey : ScriptPublicKey
  covenant : Option CovenantBinding
deriving DecidableEq

/-- `TransactionOutput::new`. -/
def TransactionOutput.new (value : UInt64)
    (scriptPublicKey : ScriptPublicKey) : TransactionOutput :=
  { value, scriptPublicKey, covenant := none }

structure Transaction where
  version : UInt16
  inputs : List TransactionInput
  outputs : List TransactionOutput
  lockTime : UInt64
  subnetworkId : SubnetworkId
  gas : UInt64
  payload : List UInt8
  storageMass : UInt64
deriving DecidableEq

/-- `Transaction::new`, which leaves the storage mass at zero. -/
def Transaction.new (version : UInt16) (inputs : List TransactionInput)
    (outputs : List TransactionOutput) (lockTime : UInt64)
    (subnetworkId : SubnetworkId) (gas : UInt64)
    (payload : List UInt8) : Transaction :=
  { version, inputs, outputs, lockTime, subnetworkId, gas, payload,
    storageMass := 0 }

structure UtxoEntry where
  amount : UInt64
  scriptPublicKey : ScriptPublicKey
  blockDaaScore : UInt64
  isCoinbase : Bool
  covenantId : Option Hash
deriving DecidableEq

structure NonContextualMasses where
  computeMass : UInt64
  transientMass : UInt64
deriving DecidableEq

/-- `MutableTransaction<Transaction>`. -/
structure SignableTransaction where
  tx : Transaction
  entries : List (Option UtxoEntry)
  calculatedFee : Option UInt64
  calculatedNonContextualMasses : Option NonContextualMasses
deriving DecidableEq

/-- `SignableTransaction::with_entries`, which asserts that there is one
entry for each input. -/
def SignableTransaction.withEntries {ε : Type} (tx : Transaction)
    (entries : List UtxoEntry) : Rust.Outcome ε SignableTransaction :=
  if tx.inputs.length = entries.length then
    .ok
      { tx
        entries := entries.map some
        calculatedFee := none
        calculatedNonContextualMasses := none }
  else .panic

theorem SignableTransaction.withEntries_eq_ok {ε : Type} {tx : Transaction}
    {entries : List UtxoEntry} {signable : SignableTransaction} :
    (SignableTransaction.withEntries tx entries :
        Rust.Outcome ε SignableTransaction) = .ok signable ↔
      tx.inputs.length = entries.length ∧
        signable = ⟨tx, entries.map some, none, none⟩ := by
  unfold SignableTransaction.withEntries
  split
  · rename_i aligned
    simp [aligned, eq_comm]
  · rename_i misaligned
    simp [misaligned]

/-- `Transaction` values that differ in signature scripts only. -/
def Transaction.withoutSignatures (tx : Transaction) : Transaction :=
  { tx with
    inputs := tx.inputs.map fun input =>
      { input with signatureScript := [] } }

inductive AddressPrefix where
  | mainnet
  | testnet
  | simnet
  | devnet
deriving DecidableEq

inductive AddressVersion where
  | pubKey
  | pubKeyECDSA
  | scriptHash
deriving DecidableEq

/-- `Version::public_key_len`. -/
def AddressVersion.publicKeyLen : AddressVersion → Nat
  | .pubKey => 32
  | .pubKeyECDSA => 33
  | .scriptHash => 32

/-- The constructor of the crate asserts the length of the payload. -/
structure Address where
  addressPrefix : AddressPrefix
  version : AddressVersion
  payload : List UInt8
  size : payload.length = version.publicKeyLen
deriving DecidableEq

/-- The child numbers of a BIP32 path. -/
structure DerivationPath where
  children : List UInt32
deriving DecidableEq

/-- A serialised extended public key. -/
structure ExtendedPublicKey where
  serialized : List UInt8
deriving DecidableEq

/-- The functions of the kaspa crates that the wallet calls.  Their code is
not part of this repository; a result that relies on one of them says on what
it relies. -/
structure Upstream where
  /-- `Transaction::id` -/
  transactionId : Transaction → TransactionId
  /-- `calc_compute_mass_for_unsigned_consensus_transaction` -/
  unsignedComputeMass : Transaction → UInt16 → UInt64
  /-- `calc_signature_compute_mass_for_inputs` -/
  signatureComputeMassForInputs : UInt64 → UInt16 → UInt64
  /-- `transaction_estimated_serialized_size` -/
  estimatedSerializedSize : Transaction → UInt64
  /-- `NonContextualMasses::normalized_max` with the mass cofactors of the
  network -/
  normalizedMax : NonContextualMasses → UInt64
  /-- `pay_to_address_script` -/
  payToAddressScript : Address → ScriptPublicKey
  /-- `Address::to_string` -/
  addressToString : Address → String
  /-- `Address::try_from` -/
  addressTryFrom : String → Except String Address
  /-- `DerivationPath::from_str` -/
  derivationPathFromStr : String → Except String DerivationPath
  /-- `DerivationPath::to_string` -/
  derivationPathToString : DerivationPath → String
  /-- `Hash::from_str` -/
  hashFromStr : String → Except String Hash
  /-- the order in which extended public keys are sorted -/
  publicKeyLe : ExtendedPublicKey → ExtendedPublicKey → Bool
  /-- `derive_path`, then the x-only coordinate of the public key -/
  deriveXOnlyPublicKey : ExtendedPublicKey → DerivationPath →
    Except String (Rust.FixedBytes 32)
  /-- `multisig_redeem_script` -/
  multisigRedeemScript :
    List (Rust.FixedBytes 32) → Nat → Except String (List UInt8)
  /-- `pay_to_script_hash_script` -/
  payToScriptHashScript : List UInt8 → ScriptPublicKey
  /-- `extract_script_pub_key_address` -/
  extractScriptPubKeyAddress : ScriptPublicKey → AddressPrefix →
    Except String Address

namespace Upstream

/-- Parsing the text of an address gives the address back. -/
def AddressesRoundTrip (upstream : Upstream) : Prop :=
  ∀ address,
    upstream.addressTryFrom (upstream.addressToString address) = .ok address

/-- Different derivation paths have different texts. -/
def DistinctPathTexts (upstream : Upstream) : Prop :=
  Function.Injective upstream.derivationPathToString

/-- The standard script of a Schnorr address: the public key and
`OP_CHECKSIG`. -/
def PaysToPublicKeys (upstream : Upstream) : Prop :=
  ∀ address, address.version = .pubKey →
    (upstream.payToAddressScript address).script =
      0x20 :: address.payload ++ [0xac]

/-- A transaction id does not depend on signature scripts. -/
def IdsIgnoreSignatures (upstream : Upstream) : Prop :=
  ∀ tx, upstream.transactionId tx.withoutSignatures =
    upstream.transactionId tx

end Upstream

end Kaspa
