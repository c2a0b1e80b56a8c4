import Igra.Kaswallet.ProtoConvert

/-!
# Signing

The wallet signs a transaction with every key that it can derive for the
transaction's paths.  Only signature scripts change.
-/

open Kaspa Rust

namespace Kaswallet

structure Mnemonic where
  phrase : String
deriving DecidableEq

/-- A serialised extended private key. -/
structure ExtendedPrivateKey where
  serialized : List UInt8
deriving DecidableEq

abbrev PrivateKey := FixedBytes 32

/-- The key derivation and the signature scheme of the kaspa crates. -/
structure Signatures where
  /-- `ExtendedPrivateKey::new(mnemonic.to_seed(""))` -/
  extendedPrivateKey : Mnemonic → Except String ExtendedPrivateKey
  /-- `ExtendedPrivateKey::derive_path` -/
  derivePath : ExtendedPrivateKey → DerivationPath →
    Except String ExtendedPrivateKey
  /-- `private_key().secret_bytes()` -/
  secretBytes : ExtendedPrivateKey → PrivateKey
  /-- the x-only public key of `Keypair::from_seckey_slice` -/
  xOnlyPublicKey : PrivateKey → Option (FixedBytes 32)
  /-- `calc_schnorr_signature_hash` of one input, then `sign_schnorr` -/
  signSchnorr : PrivateKey → SignableTransaction → Nat → FixedBytes 64
  /-- `kaspa_consensus_core::sign::verify` -/
  verify : SignableTransaction → Except String Unit

section Keys

def singleSignerPurpose : UInt32 := 44

def multisigPurpose : UInt32 := 45

def kaspaCoinType : UInt32 := 111111

/-- A child number written with an apostrophe. -/
def hardened (child : UInt32) : UInt32 :=
  0x80000000 + child

def masterKeyPath (isMultisig : Bool) : DerivationPath :=
  ⟨[hardened (if isMultisig then multisigPurpose else singleSignerPurpose),
    hardened kaspaCoinType, hardened 0]⟩

variable (signatures : Signatures)

private def bip32Derivation (reason : String) : WalletError :=
  .crypto (.bip32Derivation reason)

def mnemonicToPrivateKey (isMultisig : Bool) (mnemonic : Mnemonic) :
    WalletResult ExtendedPrivateKey := do
  let xPrivateKey ← mapError bip32Derivation
    (signatures.extendedPrivateKey mnemonic)
  mapError bip32Derivation
    (signatures.derivePath xPrivateKey (masterKeyPath isMultisig))

def mnemonicsToPrivateKeys (mnemonics : List Mnemonic) :
    WalletResult (List ExtendedPrivateKey) :=
  Outcome.collect
    (mnemonicToPrivateKey signatures (decide (1 < mnemonics.length)))
    mnemonics

/-- The keys of `sign_transaction`, path by path. -/
def privateKeysFor (extendedPrivateKeys : List ExtendedPrivateKey)
    (derivationPaths : List DerivationPath) :
    WalletResult (List PrivateKey) :=
  Outcome.collect
    (fun (path, extendedPrivateKey) => signatures.secretBytes <$>
      mapError bip32Derivation
        (signatures.derivePath extendedPrivateKey path))
    (derivationPaths.flatMap fun path =>
      extendedPrivateKeys.map fun key => (path, key))

end Keys

section Signing

variable (signatures : Signatures)

/-- The script that a key can spend, and the key. -/
def schnorrKey (privateKey : PrivateKey) :
    WalletResult (List UInt8 × PrivateKey) :=
  match signatures.xOnlyPublicKey privateKey with
  | some publicKey => .ok (0x20 :: publicKey.bytes ++ [0xac], privateKey)
  | none => Outcome.panic

/-- `SIG_HASH_ALL.to_u8()`. -/
def sigHashAll : UInt8 := 1

def withSignature (signable : SignableTransaction) (index : Nat)
    (signature : FixedBytes 64) : SignableTransaction :=
  { signable with
    tx :=
      { signable.tx with
        inputs := signable.tx.inputs.modify index fun input =>
          { input with
            signatureScript := 65 :: signature.bytes ++ [sigHashAll] } } }

/-- The body of the loop of `sign_with_multiple`; the flag says that another
signature is required. -/
def signInput (keys : HashMap (List UInt8) (List UInt8 × PrivateKey))
    (current : SignableTransaction × Bool) (index : Nat) :
    WalletResult (SignableTransaction × Bool) := do
  let slot ← Outcome.index current.1.entries index
  match slot with
  | none => Outcome.panic
  | some entry =>
      match keys.lookup entry.scriptPublicKey.script with
      | some (_, key) =>
          pure (withSignature current.1 index
            (signatures.signSchnorr key current.1 index), current.2)
      | none => pure (current.1, true)

def signWithMultiple (signable : SignableTransaction)
    (privateKeys : List PrivateKey) : WalletResult WalletSigned := do
  let keys ← Outcome.collect (schnorrKey signatures) privateKeys
  let (signed, additionalSignaturesRequired) ←
    (List.range signable.tx.inputs.length).foldlM
      (signInput signatures (HashMap.insertAll Prod.fst ∅ keys))
      (signable, false)
  pure (if additionalSignaturesRequired then .partially signed
    else .fully signed)

def sanityCheckVerify (signed : WalletSigned) : WalletResult Unit :=
  match signed with
  | .fully signable =>
      mapError (fun reason => .transaction (.verifyFailed reason))
        (signatures.verify signable)
  | .partially _ => .ok ()

def signTransaction (extendedPrivateKeys : List ExtendedPrivateKey)
    (unsigned : WalletSignableTransaction) :
    WalletResult WalletSignableTransaction := do
  let privateKeys ← privateKeysFor signatures extendedPrivateKeys
    unsigned.derivationPaths
  let signed ← signWithMultiple signatures unsigned.transaction.inner
    privateKeys
  sanityCheckVerify signatures signed
  pure { unsigned with transaction := signed }

/-- `sign_transactions`, with the mnemonics that the password decrypts. -/
def signTransactions (decrypted : WalletResult (List Mnemonic))
    (unsigned : List WalletSignableTransaction) :
    WalletResult (List WalletSignableTransaction) := do
  let mnemonics ← decrypted
  let extendedPrivateKeys ← mnemonicsToPrivateKeys signatures mnemonics
  Outcome.collect (signTransaction signatures extendedPrivateKeys) unsigned

end Signing

section Frame

private theorem map_modify_of_eq {α β : Type} {read : α → β}
    {change : α → α} (unread : ∀ item, read (change item) = read item)
    (items : List α) (index : Nat) :
    (items.modify index change).map read = items.map read := by
  induction items generalizing index with
  | nil => simp
  | cons item items ih =>
      cases index with
      | zero => simp [unread]
      | succ index => simp [ih]

/-- Transactions that differ in signature scripts only. -/
structure SameUnsigned (before after : SignableTransaction) : Prop where
  unsigned : after.tx.withoutSignatures = before.tx.withoutSignatures
  rest : after =
    { before with tx := { before.tx with inputs := after.tx.inputs } }

namespace SameUnsigned

variable {before after : SignableTransaction}

theorem refl (signable : SignableTransaction) :
    SameUnsigned signable signable :=
  ⟨rfl, rfl⟩

theorem version (same : SameUnsigned before after) :
    after.tx.version = before.tx.version := by
  rw [same.rest]

theorem subnetworkId (same : SameUnsigned before after) :
    after.tx.subnetworkId = before.tx.subnetworkId := by
  rw [same.rest]

theorem outputs (same : SameUnsigned before after) :
    after.tx.outputs = before.tx.outputs := by
  rw [same.rest]

theorem payload (same : SameUnsigned before after) :
    after.tx.payload = before.tx.payload := by
  rw [same.rest]

theorem storageMass (same : SameUnsigned before after) :
    after.tx.storageMass = before.tx.storageMass := by
  rw [same.rest]

theorem computeCommits (same : SameUnsigned before after) :
    after.tx.inputs.map TransactionInput.computeCommit =
      before.tx.inputs.map TransactionInput.computeCommit := by
  have commits := congrArg
    (fun tx => tx.inputs.map TransactionInput.computeCommit) same.unsigned
  simpa [Transaction.withoutSignatures, Function.comp_def] using commits

theorem transactionId {upstream : Upstream}
    (ignored : upstream.IdsIgnoreSignatures)
    (same : SameUnsigned before after) :
    upstream.transactionId after.tx = upstream.transactionId before.tx := by
  rw [← ignored after.tx, same.unsigned, ignored before.tx]

theorem withSignature (same : SameUnsigned before after) (index : Nat)
    (signature : FixedBytes 64) :
    SameUnsigned before (withSignature after index signature) := by
  constructor
  · rw [← same.unsigned]
    simp only [Kaswallet.withSignature, Transaction.withoutSignatures]
    congr 1
    apply map_modify_of_eq
    intro input
    rfl
  · rw [same.rest]
    rfl

theorem transactionEncodable (same : SameUnsigned before after)
    (encodable : TransactionEncodable before.tx) :
    TransactionEncodable after.tx where
  commits := by
    intro input member
    have commit : input.computeCommit ∈
        before.tx.inputs.map TransactionInput.computeCommit := by
      rw [← same.computeCommits]
      exact List.mem_map_of_mem member
    obtain ⟨other, inBefore, equal⟩ := List.mem_map.mp commit
    rw [← equal, same.version]
    exact encodable.commits other inBefore
  unbound := by
    rw [same.outputs]
    exact encodable.unbound

end SameUnsigned

variable {signatures : Signatures}

theorem sameUnsigned_of_signInput {original : SignableTransaction}
    {keys : HashMap (List UInt8) (List UInt8 × PrivateKey)}
    {current next : SignableTransaction × Bool} {index : Nat}
    (same : SameUnsigned original current.1)
    (signed : signInput signatures keys current index = .ok next) :
    SameUnsigned original next.1 := by
  rw [signInput, Outcome.bind_eq_ok] at signed
  obtain ⟨slot, -, rest⟩ := signed
  cases slot with
  | none => exact absurd rest (Outcome.panic_ne_ok _)
  | some entry =>
      dsimp only at rest
      split at rest
      · cases rest
        exact same.withSignature _ _
      · cases rest
        exact same

theorem sameUnsigned_of_signWithMultiple {signable : SignableTransaction}
    {privateKeys : List PrivateKey} {signed : WalletSigned}
    (succeeded : signWithMultiple signatures signable privateKeys =
      .ok signed) :
    SameUnsigned signable signed.inner := by
  simp only [signWithMultiple, Outcome.bind_eq_ok,
    Outcome.pure_eq_ok] at succeeded
  obtain ⟨keys, -, ⟨last, more⟩, folded, rfl⟩ := succeeded
  have same := Outcome.foldlM_preserves
    (fun _ _ _ same step => sameUnsigned_of_signInput same step)
    (SameUnsigned.refl signable) folded
  cases more with
  | false => exact same
  | true => exact same

/-- The signed transaction of a wallet transaction. -/
structure SignedFrom (unsigned signed : WalletSignableTransaction) :
    Prop where
  same : SameUnsigned unsigned.transaction.inner signed.transaction.inner
  rest : signed = { unsigned with transaction := signed.transaction }

private theorem signedFrom_of_signTransaction
    {extendedPrivateKeys : List ExtendedPrivateKey}
    {unsigned signed : WalletSignableTransaction}
    (succeeded : signTransaction signatures extendedPrivateKeys unsigned =
      .ok signed) :
    SignedFrom unsigned signed := by
  simp only [signTransaction, Outcome.bind_eq_ok,
    Outcome.pure_eq_ok] at succeeded
  obtain ⟨privateKeys, -, transaction, made, -, -, rfl⟩ := succeeded
  exact ⟨sameUnsigned_of_signWithMultiple made, rfl⟩

/-- Signing a batch keeps its order and all but signature scripts. -/
theorem signedFrom_of_signTransactions
    {decrypted : WalletResult (List Mnemonic)}
    {unsigned signed : List WalletSignableTransaction}
    (succeeded : signTransactions signatures decrypted unsigned =
      .ok signed) :
    List.Forall₂ SignedFrom unsigned signed := by
  simp only [signTransactions, Outcome.bind_eq_ok] at succeeded
  obtain ⟨mnemonics, -, keys, -, collected⟩ := succeeded
  exact (Outcome.collect_eq_ok.mp collected).imp
    fun _ _ one => signedFrom_of_signTransaction one

end Frame

end Kaswallet
