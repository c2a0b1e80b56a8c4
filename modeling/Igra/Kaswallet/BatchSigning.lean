import Igra.Kaswallet.AddressServing
import Igra.Kaswallet.BatchSpends
import Igra.Kaswallet.FeeCap
import Igra.Kaswallet.Service
import Igra.Kaswallet.SigningKeys

/-!
# Signing a created batch

In a wallet with one mnemonic every script of the wallet pays to the key at
the path of some wallet address.  The inputs of a batch spend UTXOs of the
wallet and outputs of earlier transactions of the batch; each of them carries
the script of the address that is recorded for it, through all rounds, so the
whole batch can be signed.
-/

open Kaspa Rust

namespace Kaswallet

section Addresses

variable (upstream : Upstream) (xpub : ExtendedPublicKey)

/-- The address that belongs to a wallet address when there is one extended
public key. -/
def AddressOf (addressPrefix : AddressPrefix) (walletAddress : WalletAddress)
    (address : Address) : Prop :=
  ∃ path publicKey,
    AddressManager.calculateAddressPath upstream false walletAddress =
        .ok path ∧
      upstream.deriveXOnlyPublicKey xpub path = .ok publicKey ∧
      address.addressPrefix = addressPrefix ∧
      address.version = .pubKey ∧
      address.payload = publicKey.bytes

namespace AddressManager

/-- The manager has one extended public key, and its cache holds addresses
that were derived from it. -/
structure OneKey (addressPrefix : AddressPrefix)
    (manager : AddressManager) : Prop where
  publicKeys : manager.keysFile.publicKeys = [xpub]
  single : manager.isMultisig = false
  addressPrefix_eq : manager.addressPrefix = addressPrefix
  cached : ∀ walletAddress address,
    manager.addressCache.lookup walletAddress = some address →
      AddressOf upstream xpub addressPrefix walletAddress address

variable {upstream xpub} {addressPrefix : AddressPrefix}
  {manager left : AddressManager} {walletAddress : WalletAddress}
  {address : Address}

theorem derivedAddress_eq_ok_iff {keys : Keys}
    (single : keys.publicKeys = [xpub]) :
    derivedAddress upstream keys addressPrefix walletAddress =
        .ok address ↔
      AddressOf upstream xpub addressPrefix walletAddress address := by
  rw [derivedAddress_eq]
  simp only [single, List.length_singleton, Nat.lt_irrefl, decide_false,
    addressAtPath, new, p2pkAddress, List.head?_cons, Outcome.bind_eq_ok,
    Outcome.ofOption_eq_ok, mapError_eq_ok, Outcome.pure_eq_ok,
    Bool.false_eq_true, if_false, Option.some.injEq]
  constructor
  · rintro ⟨path, calculated, _, rfl, publicKey, isPublic, rfl⟩
    exact ⟨path, publicKey, calculated, isPublic, rfl, rfl, rfl⟩
  · rintro ⟨path, publicKey, calculated, isPublic, rfl, version, payload⟩
    refine ⟨path, calculated, xpub, rfl, publicKey, isPublic, ?_⟩
    cases address
    cases version
    cases payload
    rfl

/-- Of the keys only the extended public key matters. -/
theorem oneKey_iff : OneKey upstream xpub addressPrefix manager ↔
    ∃ keys, keys.publicKeys = [xpub] ∧
      Derives upstream keys addressPrefix manager := by
  constructor
  · intro oneKey
    refine ⟨manager.keysFile, oneKey.publicKeys, .refl _, ?_,
      oneKey.addressPrefix_eq, ?_⟩
    · rw [oneKey.single, oneKey.publicKeys]
      rfl
    · intro walletAddress address found
      exact (derivedAddress_eq_ok_iff oneKey.publicKeys).mpr
        (oneKey.cached walletAddress address found)
  · rintro ⟨keys, single, derives⟩
    refine ⟨derives.sameWallet.publicKeys.trans single, ?_,
      derives.addressPrefix_eq, ?_⟩
    · rw [derives.isMultisig_eq, single]
      rfl
    · intro walletAddress address found
      exact (derivedAddress_eq_ok_iff single).mp
        (derives.cached walletAddress address found)

theorem OneKey.kaspaAddress {shouldCache : Bool}
    (oneKey : OneKey upstream xpub addressPrefix manager)
    (derived : manager.kaspaAddressFromWalletAddress upstream walletAddress
      shouldCache = .ok (address, left)) :
    AddressOf upstream xpub addressPrefix walletAddress address ∧
      OneKey upstream xpub addressPrefix left := by
  obtain ⟨keys, single, derives⟩ := oneKey_iff.mp oneKey
  obtain ⟨own, kept⟩ := derives.kaspaAddress derived
  exact ⟨(derivedAddress_eq_ok_iff single).mp own,
    oneKey_iff.mpr ⟨keys, single, kept⟩⟩

theorem OneKey.changeAddress {useExistingChangeAddress : Bool}
    {fromAddresses : List WalletAddress} {save : WalletResult Unit}
    (oneKey : OneKey upstream xpub addressPrefix manager) :
    OneKey upstream xpub addressPrefix
        (manager.changeAddress upstream useExistingChangeAddress
          fromAddresses save).2 ∧
      ∀ change,
        (manager.changeAddress upstream useExistingChangeAddress
          fromAddresses save).1 = .ok change →
        AddressOf upstream xpub addressPrefix change.2 change.1 := by
  obtain ⟨keys, single, derives⟩ := oneKey_iff.mp oneKey
  obtain ⟨kept, drawn⟩ := derives.changeAddress
  refine ⟨oneKey_iff.mpr ⟨keys, single, kept⟩, ?_⟩
  intro change changed
  exact (derivedAddress_eq_ok_iff single).mp (drawn change changed)

theorem Serves.oneKey {keys : Keys} (publicKeys : keys.publicKeys = [xpub])
    (serves : Serves upstream keys addressPrefix manager) :
    OneKey upstream xpub addressPrefix manager :=
  oneKey_iff.mpr ⟨keys, publicKeys, serves.derives⟩

end AddressManager

end Addresses

section Ownership

variable (upstream : Upstream) (xpub : ExtendedPublicKey)

/-- The script pays to the key at the path of the wallet address. -/
def PaysTo (walletAddress : WalletAddress) (script : ScriptPublicKey) :
    Prop :=
  ∃ path publicKey,
    AddressManager.calculateAddressPath upstream false walletAddress =
        .ok path ∧
      upstream.deriveXOnlyPublicKey xpub path = .ok publicKey ∧
      script.script = payToPublicKey publicKey

def OwnUtxo (utxo : WalletUtxo) : Prop :=
  PaysTo upstream xpub utxo.address utxo.utxoEntry.scriptPublicKey

/-- The generator built the transaction to spend UTXOs of the wallet. -/
def SpendsOwn (generator : TransactionGenerator)
    (transaction : WalletSignableTransaction) : Prop :=
  ∃ payments utxos payload,
    generator.generateUnsignedTransaction upstream payments utxos payload =
        .ok transaction ∧
      ∀ utxo ∈ utxos, OwnUtxo upstream xpub utxo

variable {upstream xpub}

theorem AddressOf.paysTo {addressPrefix : AddressPrefix}
    {walletAddress : WalletAddress} {address : Address}
    (standard : upstream.PaysToPublicKeys)
    (own : AddressOf upstream xpub addressPrefix walletAddress address) :
    PaysTo upstream xpub walletAddress
      (upstream.payToAddressScript address) := by
  obtain ⟨path, publicKey, calculated, isPublic, -, version, payload⟩ := own
  refine ⟨path, publicKey, calculated, isPublic, ?_⟩
  rw [standard address version, payload]
  rfl

end Ownership

namespace TransactionGenerator

section Rounds

variable {upstream : Upstream} {xpub : ExtendedPublicKey}
  {generator : TransactionGenerator} {request : CompoundingRequest}
  {replies : NodeReplies} {manager : UtxoManager} {round : Nat}
  {original : WalletSignableTransaction} {transactionMass : UInt64}

theorem ownUtxo_of_inputUtxo
    (spends : SpendsOwn upstream xpub generator original) {position : Nat}
    {utxo : WalletUtxo} (read : inputUtxo original position = .ok utxo) :
    OwnUtxo upstream xpub utxo := by
  obtain ⟨payments, utxos, payload, generated, own⟩ := spends
  simp only [inputUtxo, Outcome.bind_eq_ok, Outcome.index_eq_ok,
    Outcome.ofOption_eq_ok, Outcome.pure_eq_ok,
    entries_of_generateUnsignedTransaction generated,
    addressByInputIndex_of_generateUnsignedTransaction generated,
    List.getElem?_map, Option.map_eq_some_iff] at read
  obtain ⟨input, -, slot, ⟨spent, found, rfl⟩, entry, present, address,
    ⟨other, otherFound, rfl⟩, rfl⟩ := read
  obtain rfl : spent = other := by
    simpa [found] using otherFound
  cases present
  exact own spent (List.mem_of_getElem? found)

theorem spendsOwn_of_splitTransactions
    (spends : SpendsOwn upstream xpub generator original)
    {splits : List WalletSignableTransaction}
    (made : generator.splitTransactions upstream request original
      transactionMass = .ok splits) :
    ∀ split ∈ splits, SpendsOwn upstream xpub generator split := by
  simp only [splitTransactions, Outcome.bind_eq_ok, Prod.exists] at made
  obtain ⟨splitCount, width, -, collected⟩ := made
  intro split member
  obtain ⟨position, -, created⟩ :=
    Outcome.exists_of_mem_collect collected member
  simp only [checkedSplit, Outcome.bind_eq_ok, Outcome.pure_eq_ok] at created
  obtain ⟨_, created, _, -, rfl⟩ := created
  obtain ⟨utxos, _, payout, read, -, -, generated⟩ :=
    createSplitTransaction_eq_ok.mp created
  refine ⟨_, utxos, _, generated, ?_⟩
  intro utxo inUtxos
  obtain ⟨inputIndex, -, readBack⟩ :=
    Outcome.exists_of_mem_collect read inUtxos
  exact ownUtxo_of_inputUtxo spends readBack

/-- The output of a split pays to the change address, under which the merge
transaction spends it. -/
theorem ownUtxo_of_splitUtxo {split : WalletSignableTransaction}
    {utxo : WalletUtxo}
    (shape : SplitShape upstream generator request split)
    (change : PaysTo upstream xpub request.changeWalletAddress
      (upstream.payToAddressScript request.changeAddress))
    (created : splitUtxo upstream request split = .ok utxo) :
    OwnUtxo upstream xpub utxo := by
  obtain ⟨value, outputs⟩ := shape.outputs
  simp only [splitUtxo, Outcome.bind_eq_ok, Outcome.index_eq_ok, outputs,
    Outcome.pure_eq_ok] at created
  obtain ⟨output, first, rfl⟩ := created
  cases first
  exact change

theorem spendsOwn_of_compoundRound {done : CompoundRound}
    (spends : SpendsOwn upstream xpub generator original)
    (stored : ∀ utxo ∈ manager.utxosSortedByAmount,
      OwnUtxo upstream xpub utxo)
    (change : PaysTo upstream xpub request.changeWalletAddress
      (upstream.payToAddressScript request.changeAddress))
    (compounded : generator.compoundRound upstream request replies manager
      round original transactionMass = .ok done) :
    (∀ split ∈ done.splits, SpendsOwn upstream xpub generator split) ∧
      SpendsOwn upstream xpub generator done.merge := by
  obtain ⟨made, planning, merged, -⟩ := compoundRound_eq_ok.mp compounded
  refine ⟨spendsOwn_of_splitTransactions spends made, _, _, _, merged, ?_⟩
  intro utxo member
  rcases List.mem_append.mp member with ofSplit | added
  · obtain ⟨split, inSplits, created⟩ := Outcome.exists_of_mem_collect
      (planned_of_mergePlan planning).splitUtxos ofSplit
    exact ownUtxo_of_splitUtxo
      ((partitions_of_splitTransactions made).2 split inSplits) change created
  · exact stored utxo ((additionalUtxos_spec compounded).1.subset added)

/-- Every transaction of a batch spends UTXOs of the wallet, or outputs that
will be such. -/
theorem Compounds.spendsOwn {compounding : Compounding}
    (compounds : Compounds upstream generator request replies manager round
      original compounding)
    (spends : SpendsOwn upstream xpub generator original)
    (stored : ∀ utxo ∈ manager.utxosSortedByAmount,
      OwnUtxo upstream xpub utxo)
    (change : PaysTo upstream xpub request.changeWalletAddress
      (upstream.payToAddressScript request.changeAddress)) :
    ∀ transaction ∈ compounding.batch,
      SpendsOwn upstream xpub generator transaction := by
  induction compounds with
  | light =>
      intro transaction member
      obtain rfl : transaction = _ := by
        simpa [Compounding.batch] using member
      exact spends
  | @heavy round original transactionMass done rest compounded _ ih =>
      obtain ⟨splits, merge⟩ :=
        spendsOwn_of_compoundRound spends stored change compounded
      intro transaction member
      rw [Compounding.batch, List.flatMap_cons, List.append_assoc] at member
      rcases List.mem_append.mp member with first | later
      · exact splits transaction first
      · exact ih merge transaction later

end Rounds

section RoundTrip

variable {upstream : Upstream} {generator : TransactionGenerator}
  {payments : List WalletPayment} {selectedUtxos : List WalletUtxo}
  {payload : List UInt8} {built : WalletSignableTransaction}

private theorem matches_inputOf (generator : TransactionGenerator)
    (utxo : WalletUtxo) :
    (generator.inputOf utxo).computeCommit.Matches generator.txVersion := by
  unfold ComputeCommit.Matches inputOf
  cases ComputeCommit.versionExpectsComputeBudgetField generator.txVersion <;>
    simp [ComputeCommit.computeBudget?]

theorem signableEncodable_of_generateUnsignedTransaction
    (generated : generator.generateUnsignedTransaction upstream payments
      selectedUtxos payload = .ok built) :
    SignableEncodable built.transaction.inner := by
  obtain ⟨paths, masses, -, -, rfl⟩ :=
    generateUnsignedTransaction_eq_ok.mp generated
  refine ⟨⟨?_, ?_⟩, ?_, ?_⟩
  · intro input member
    obtain ⟨utxo, -, rfl⟩ := List.mem_map.mp member
    exact generator.matches_inputOf utxo
  · intro output member
    obtain ⟨payment, -, rfl⟩ := List.mem_map.mp member
    rfl
  · simp [WalletSigned.inner, consensusTransaction, Transaction.new]
  · refine ⟨selectedUtxos.map fun utxo => utxo.utxoEntry.toUtxoEntry, ?_, ?_⟩
    · simp [WalletSigned.inner, Function.comp_def]
    · intro entry member
      obtain ⟨utxo, -, rfl⟩ := List.mem_map.mp member
      rfl

theorem roundTrip_of_generateUnsignedTransaction
    (addresses : upstream.AddressesRoundTrip)
    (generated : generator.generateUnsignedTransaction upstream payments
      selectedUtxos payload = .ok built) :
    walletSignableTransactionFromProto upstream
        (walletSignableTransactionToProto upstream built) = .ok built := by
  apply walletSignableTransaction_decode addresses
    (signableEncodable_of_generateUnsignedTransaction generated)
  obtain ⟨paths, masses, -, -, rfl⟩ :=
    generateUnsignedTransaction_eq_ok.mp generated
  exact nodup_map_distinctOn _ paths

end RoundTrip

end TransactionGenerator

section Signing

variable {upstream : Upstream} {signatures : Signatures}
  {xpub : ExtendedPublicKey} {master : ExtendedPrivateKey}
  {generator : TransactionGenerator}
  {transaction : WalletSignableTransaction}

/-- To derive a private key and take its public key is to derive the public
key. -/
def DerivesAlike (upstream : Upstream) (signatures : Signatures)
    (master : ExtendedPrivateKey) (xpub : ExtendedPublicKey) : Prop :=
  ∀ path publicKey,
    upstream.deriveXOnlyPublicKey xpub path = .ok publicKey →
      ∃ privateKey, childKey signatures master path = .ok privateKey ∧
        signatures.xOnlyPublicKey privateKey = some publicKey

/-- The key of a wallet address of a wallet with one mnemonic. -/
def addressKey (upstream : Upstream) (signatures : Signatures)
    (master : ExtendedPrivateKey) (walletAddress : WalletAddress) :
    WalletResult PrivateKey := do
  let path ←
    AddressManager.calculateAddressPath upstream false walletAddress
  childKey signatures master path

/-- Each input carries the signature of the key of its own address over its
own hash, and only signature scripts changed. -/
structure SignedByOwnKeys (upstream : Upstream) (signatures : Signatures)
    (master : ExtendedPrivateKey)
    (unsigned signed : WalletSignableTransaction) : Prop where
  complete : ∃ transaction, signed.transaction = .fully transaction
  signedFrom : SignedFrom unsigned signed
  aligned : unsigned.addressByInputIndex.length = unsigned.tx.inputs.length
  ownKeys : ∀ index walletAddress,
    unsigned.addressByInputIndex[index]? = some walletAddress →
      ∃ privateKey,
        addressKey upstream signatures master walletAddress =
            .ok privateKey ∧
          signatures.PaysAt unsigned.transaction.inner index privateKey ∧
          signatures.SignedAt unsigned.transaction.inner
            signed.transaction.inner index privateKey

theorem OwnUtxo.exists_key
    (alike : DerivesAlike upstream signatures master xpub)
    {utxo : WalletUtxo} (own : OwnUtxo upstream xpub utxo) :
    ∃ path privateKey publicKey,
      AddressManager.calculateAddressPath upstream false utxo.address =
          .ok path ∧
        childKey signatures master path = .ok privateKey ∧
        signatures.xOnlyPublicKey privateKey = some publicKey ∧
        utxo.utxoEntry.scriptPublicKey.script =
          payToPublicKey publicKey := by
  obtain ⟨path, publicKey, calculated, derived, script⟩ := own
  obtain ⟨privateKey, made, isPublic⟩ := alike path publicKey derived
  exact ⟨path, privateKey, publicKey, calculated, made, isPublic, script⟩

theorem SpendsOwn.aligned
    (spends : SpendsOwn upstream xpub generator transaction) :
    transaction.addressByInputIndex.length = transaction.tx.inputs.length := by
  obtain ⟨payments, utxos, payload, generated, -⟩ := spends
  rw [TransactionGenerator.addressByInputIndex_of_generateUnsignedTransaction
    generated, TransactionGenerator.tx_of_generateUnsignedTransaction
    generated]
  simp [TransactionGenerator.consensusTransaction, Transaction.new]

/-- The paths of the transaction, without repetitions, are those of the
addresses of its inputs. -/
theorem SpendsOwn.derivationPaths (pathTexts : upstream.DistinctPathTexts)
    (single : generator.isMultisig = false)
    (spends : SpendsOwn upstream xpub generator transaction) :
    ∃ utxos : List WalletUtxo,
      (∀ utxo ∈ utxos, OwnUtxo upstream xpub utxo) ∧
        transaction.addressByInputIndex = utxos.map WalletUtxo.address ∧
        transaction.transaction.inner.entries =
          utxos.map (fun utxo => some utxo.utxoEntry.toUtxoEntry) ∧
        ∀ path, path ∈ transaction.derivationPaths ↔
          ∃ utxo ∈ utxos,
            AddressManager.calculateAddressPath upstream false utxo.address =
              .ok path := by
  obtain ⟨payments, utxos, payload, generated, own⟩ := spends
  refine ⟨utxos, own,
    TransactionGenerator.addressByInputIndex_of_generateUnsignedTransaction
      generated,
    TransactionGenerator.entries_of_generateUnsignedTransaction generated,
    ?_⟩
  obtain ⟨paths, masses, collected, -, rfl⟩ :=
    TransactionGenerator.generateUnsignedTransaction_eq_ok.mp generated
  rw [single] at collected
  intro path
  rw [mem_distinctOn pathTexts]
  constructor
  · exact Outcome.exists_of_mem_collect collected
  · rintro ⟨utxo, member, calculated⟩
    obtain ⟨other, inPaths, same⟩ :=
      Outcome.exists_mem_collect collected member
    obtain rfl : path = other := by
      simpa [calculated] using same
    exact inPaths

theorem exists_signTransaction_of_spendsOwn (correct : signatures.Correct)
    (alike : DerivesAlike upstream signatures master xpub)
    (pathTexts : upstream.DistinctPathTexts)
    (single : generator.isMultisig = false)
    (spends : SpendsOwn upstream xpub generator transaction) :
    ∃ signed,
      signTransaction signatures [master] transaction = .ok signed ∧
        SignedByOwnKeys upstream signatures master transaction signed := by
  obtain ⟨utxos, own, addresses, entries, onPath⟩ :=
    spends.derivationPaths pathTexts single
  have ownKey : ∀ index walletAddress,
      transaction.addressByInputIndex[index]? = some walletAddress →
        ∃ path ∈ transaction.derivationPaths, ∃ privateKey,
          AddressManager.calculateAddressPath upstream false
              walletAddress = .ok path ∧
            childKey signatures master path = .ok privateKey ∧
            signatures.PaysAt transaction.transaction.inner index
              privateKey := by
    intro index walletAddress found
    rw [addresses, List.getElem?_map, Option.map_eq_some_iff] at found
    obtain ⟨utxo, found, rfl⟩ := found
    have member := List.mem_of_getElem? found
    obtain ⟨path, privateKey, publicKey, calculated, derived, isPublic,
      script⟩ := (own utxo member).exists_key alike
    refine ⟨path, (onPath path).mpr ⟨utxo, member, calculated⟩, privateKey,
      calculated, derived, utxo.utxoEntry.toUtxoEntry, publicKey, ?_,
      isPublic, script⟩
    simp [entries, found]
  have derives : ∀ path ∈ transaction.derivationPaths,
      ∃ privateKey publicKey,
        childKey signatures master path = .ok privateKey ∧
          signatures.xOnlyPublicKey privateKey = some publicKey := by
    intro path inPaths
    obtain ⟨utxo, member, calculated⟩ := (onPath path).mp inPaths
    obtain ⟨other, privateKey, publicKey, same, derived, isPublic, -⟩ :=
      (own utxo member).exists_key alike
    obtain rfl : path = other := by
      simpa [calculated] using same
    exact ⟨privateKey, publicKey, derived, isPublic⟩
  have covered : ∀ index < transaction.tx.inputs.length,
      ∃ path ∈ transaction.derivationPaths, ∃ privateKey,
        childKey signatures master path = .ok privateKey ∧
          signatures.PaysAt transaction.transaction.inner index
            privateKey := by
    intro index inside
    rw [← spends.aligned] at inside
    obtain ⟨path, inPaths, privateKey, -, derived, pays⟩ :=
      ownKey index _ (List.getElem?_eq_getElem inside)
    exact ⟨path, inPaths, privateKey, derived, pays⟩
  obtain ⟨signed, made, full⟩ :=
    exists_signTransaction correct derives covered
  refine ⟨signed, made, full.complete, full.signedFrom, spends.aligned, ?_⟩
  intro index walletAddress found
  obtain ⟨path, -, privateKey, calculated, derived, pays⟩ :=
    ownKey index walletAddress found
  have inside : index < transaction.tx.inputs.length := by
    rw [← spends.aligned]
    exact (List.getElem?_eq_some_iff.mp found).1
  refine ⟨privateKey, ?_, pays, full.signedAt index inside privateKey pays⟩
  rw [addressKey, calculated, Outcome.ok_bind, derived]

end Signing

section Batch

variable {upstream : Upstream} {signatures : Signatures}
  {xpub : ExtendedPublicKey} {master : ExtendedPrivateKey}
  {mnemonic : Mnemonic} {generator : TransactionGenerator}
  {addressPrefix : AddressPrefix} {keys : Keys} {manager : UtxoManager}
  {addressManager : AddressManager}
  {surroundings : TransactionGenerator.Surroundings}
  {description : TransactionDescription} {fuel : Nat}
  {batch : List WalletSignableTransaction}

/-- The entry of the UTXO carries the script of its wallet address. -/
def CarriesOwnScript (upstream : Upstream) (addressManager : AddressManager)
    (utxo : WalletUtxo) : Prop :=
  ∃ address left,
    addressManager.kaspaAddressFromWalletAddress upstream utxo.address
        false = .ok (address, left) ∧
      utxo.utxoEntry.scriptPublicKey = upstream.payToAddressScript address

theorem spendsOwn_of_createUnsignedTransactions
    (standard : upstream.PaysToPublicKeys)
    (oneKey : AddressManager.OneKey upstream xpub addressPrefix
      addressManager)
    (consistent : manager.Consistent)
    (ownScripts : ∀ utxo ∈ manager.utxosSortedByAmount,
      CarriesOwnScript upstream addressManager utxo)
    (created : (generator.createUnsignedTransactions upstream surroundings
      manager addressManager description fuel).1 = .ok batch) :
    ∀ transaction ∈ batch, SpendsOwn upstream xpub generator transaction := by
  obtain ⟨request, unsigned, compounding, made, compounded, rfl⟩ :=
    TransactionGenerator.exists_compounding created
  obtain ⟨prepared⟩ := TransactionGenerator.prepared_of_prepare made
  have stored : ∀ utxo ∈ manager.utxosSortedByAmount,
      OwnUtxo upstream xpub utxo := by
    intro utxo member
    obtain ⟨address, left, derived, script⟩ := ownScripts utxo member
    rw [OwnUtxo, script]
    exact (oneKey.kaspaAddress derived).1.paysTo standard
  have change : PaysTo upstream xpub request.changeWalletAddress
      (upstream.payToAddressScript request.changeAddress) := by
    rw [prepared.request_eq]
    exact (oneKey.changeAddress.2 _ prepared.drawn).paysTo standard
  apply (TransactionGenerator.compounds_of_compound compounded).spendsOwn
    ⟨_, _, _, prepared.generated, ?_⟩ stored change
  intro utxo member
  exact stored utxo (prepared.selectedUtxos_mem_store consistent utxo member)

/-- Signing a created batch with the only mnemonic leaves no input unsigned,
whether or not the batch has gone over the wire. -/
theorem sign_createdBatch {service : KasWalletService} {password : String}
    (publicKeys : keys.publicKeys = [xpub])
    (decrypts : service.decryptMnemonics password = .ok [mnemonic])
    (account : mnemonicToPrivateKey signatures false mnemonic = .ok master)
    (alike : DerivesAlike upstream signatures master xpub)
    (correct : signatures.Correct) (standard : upstream.PaysToPublicKeys)
    (pathTexts : upstream.DistinctPathTexts)
    (addresses : upstream.AddressesRoundTrip)
    (serves : AddressManager.Serves upstream keys addressPrefix
      addressManager)
    (shared : service.generator.isMultisig = addressManager.isMultisig)
    (consistent : manager.Consistent)
    (ownScripts : ∀ utxo ∈ manager.utxosSortedByAmount,
      CarriesOwnScript upstream addressManager utxo)
    (created : (service.generator.createUnsignedTransactions upstream
      surroundings manager addressManager description fuel).1 = .ok batch) :
    ∃ signed,
      signTransactions signatures (service.decryptMnemonics password) batch =
          .ok signed ∧
        (Outcome.collect (walletSignableTransactionFromProto upstream)
            (batch.map (walletSignableTransactionToProto upstream)) >>=
          signTransactions signatures
            (service.decryptMnemonics password)) = .ok signed ∧
        List.Forall₂ (SignedByOwnKeys upstream signatures master) batch
          signed := by
  have oneKey := serves.oneKey publicKeys
  have spends := spendsOwn_of_createUnsignedTransactions standard oneKey
    consistent ownScripts created
  have decoded :
      Outcome.collect (walletSignableTransactionFromProto upstream)
        (batch.map (walletSignableTransactionToProto upstream)) =
          .ok batch := by
    apply Outcome.collect_map_eq_ok
    intro transaction member
    obtain ⟨payments, utxos, payload, generated, -⟩ :=
      spends transaction member
    exact TransactionGenerator.roundTrip_of_generateUnsignedTransaction
      addresses generated
  have signs : ∀ transaction ∈ batch, ∃ signed,
      signTransaction signatures [master] transaction = .ok signed ∧
        SignedByOwnKeys upstream signatures master transaction signed := by
    intro transaction member
    exact exists_signTransaction_of_spendsOwn correct alike pathTexts
      (shared.trans oneKey.single) (spends transaction member)
  obtain ⟨signed, collected⟩ := Outcome.exists_collect
    fun transaction member => (signs transaction member).imp fun _ => And.left
  have onlyKey : mnemonicsToPrivateKeys signatures [mnemonic] =
      .ok [master] := by
    simp [mnemonicsToPrivateKeys, Outcome.collect, account]
  have made : signTransactions signatures
      (service.decryptMnemonics password) batch = .ok signed := by
    simp [signTransactions, decrypts, onlyKey, collected]
  refine ⟨signed, made, ?_, ?_⟩
  · rw [decoded, Outcome.ok_bind, made]
  · apply Outcome.forall₂_of_collect collected
    intro transaction member result returned
    obtain ⟨other, same, byOwnKeys⟩ := signs transaction member
    obtain rfl : result = other := by
      simpa [returned] using same
    exact byOwnKeys

end Batch

section Sample

open TransactionGenerator

/-- The digest of a path and a serialised key. -/
def pathDigest (path : DerivationPath) (serialized : List UInt8) :
    FixedBytes 32 :=
  Devnet.digestBytes (Devnet.absorbBytes
    (path.children.foldl (fun state child =>
      Devnet.absorb state child.toNat) 0) serialized)

/-- The signature of a key that is its own public key. -/
def pathSignature (privateKey : PrivateKey) (signable : SignableTransaction)
    (index : Nat) : FixedBytes 64 where
  bytes := privateKey.bytes ++
    (Devnet.digestBytes (Devnet.absorbBytes index
      (devnet.transactionId signable.tx).bytes)).bytes
  size := by rw [List.length_append, FixedBytes.size, FixedBytes.size]

/-- The script of the entry pays to a key whose signature the input
carries. -/
def carriesSignature (signable : SignableTransaction) (index : Nat) : Bool :=
  match signable.entries[index]? with
  | some (some entry) =>
      match FixedBytes.ofList? 32
          (entry.scriptPublicKey.script.drop 1).dropLast with
      | some publicKey =>
          decide (signatureScriptAt signable index =
            some (signatureScriptOf
              (pathSignature publicKey signable index)))
      | none => false
  | _ => false

/-- A child key is the digest of its path and its parent. -/
def pathSignatures : Signatures where
  extendedPrivateKey _ := .ok ⟨[]⟩
  derivePath key path := .ok ⟨(pathDigest path key.serialized).bytes⟩
  secretBytes key :=
    (FixedBytes.ofList? 32 key.serialized).getD (FixedBytes.zero 32)
  xOnlyPublicKey := some
  signSchnorr := pathSignature
  verify signable :=
    if (List.range signable.tx.inputs.length).all
        (carriesSignature signable) then .ok ()
    else .error "invalid signature"

theorem correct_pathSignatures : pathSignatures.Correct where
  hashIgnoresSignatures := by
    intro before after same privateKey index
    simp only [pathSignatures, pathSignature,
      same.transactionId idsIgnoreSignatures_devnet]
  signsForPublicKey := by
    intro first second publicKey ofFirst ofSecond
    obtain rfl : first = publicKey := Option.some.inj ofFirst
    obtain rfl : second = first := Option.some.inj ofSecond
    rfl
  verifies := by
    intro signable signed
    apply if_pos
    rw [List.all_eq_true]
    intro index inRange
    obtain ⟨privateKey, ⟨entry, publicKey, found, isPublic, script⟩,
      signedAt⟩ := signed index (List.mem_range.mp inRange)
    obtain rfl : privateKey = publicKey := Option.some.inj isPublic
    have pushed : (entry.scriptPublicKey.script.drop 1).dropLast =
        privateKey.bytes := by
      simp [script, payToPublicKey]
    simp only [carriesSignature, found, pushed, FixedBytes.ofList?_bytes]
    exact decide_eq_true signedAt

def accountKey : ExtendedPrivateKey :=
  ⟨(pathDigest (masterKeyPath false) []).bytes⟩

def accountKeys : Keys :=
  { sampleKeys 1 with publicKeys := [⟨accountKey.serialized⟩] }

def accountBook : AddressManager :=
  .new accountKeys .devnet

/-- A UTXO of 500000 sompi at an external address of the account. -/
def accountUtxo (index : UInt8) : WalletUtxo :=
  let publicKey := pathDigest ⟨[0, index.toUInt32]⟩ accountKey.serialized
  { sampleUtxo index 500000 with
    utxoEntry := ⟨500000, ⟨0, payToPublicKey publicKey⟩, 10, false, false⟩ }

def accountStore : UtxoManager :=
  sampleStore ([1, 2, 3, 4, 5, 6].map accountUtxo)

def accountLane : SubnetworkId :=
  ⟨7 :: List.replicate 19 0, rfl⟩

/-- The wallet of the account on a lane where five inputs are too heavy. -/
def accountService : KasWalletService where
  generator :=
    { sampleGenerator 1 with
      keys := accountKeys
      subnetworkId := accountLane
      txVersion := 1
      computeBudgetPerInput := 200
      massPerSigOp := 20000 }
  decryptMnemonics _ := .ok [⟨"legal winner thank year wave sausage"⟩]
  configuredSubnetworkId := accountLane

example :
    TransactionGenerator.new devnet accountKeys accountBook.isMultisig
        .devnet accountLane 20000 =
      .ok accountService.generator :=
  rfl

private theorem derivesAlike_accountKey :
    DerivesAlike devnet pathSignatures accountKey
      ⟨accountKey.serialized⟩ := by
  intro path publicKey derived
  cases derived
  exact ⟨_, rfl, by simp [pathSignatures, pathDigest]⟩

/-- A payment that is split and merged once. -/
private theorem accountPayment_run :
    (accountService.generator.createUnsignedTransactions devnet
      (sampleSurroundings 1.0) accountStore accountBook
      (sampleDescription 2700000 none) 2).1.Returns fun batch =>
        batch.map (fun transaction => transaction.tx.inputs.length) =
          [4, 2, 2] := by
  decide +kernel

private theorem accountStore_ownScripts :
    ∀ utxo ∈ accountStore.utxosSortedByAmount,
      (accountBook.kaspaAddressFromWalletAddress devnet utxo.address
        false).Returns fun derived =>
          utxo.utxoEntry.scriptPublicKey =
            devnet.payToAddressScript derived.1 := by
  decide +kernel

theorem sign_accountPayment :
    ∃ batch signed,
      (accountService.generator.createUnsignedTransactions devnet
          (sampleSurroundings 1.0) accountStore accountBook
          (sampleDescription 2700000 none) 2).1 = .ok batch ∧
        batch.length = 3 ∧
        signTransactions pathSignatures
            (accountService.decryptMnemonics "password") batch =
          .ok signed ∧
        List.Forall₂ (SignedByOwnKeys devnet pathSignatures accountKey)
          batch signed := by
  obtain ⟨batch, created, shape⟩ := accountPayment_run
  have standard : devnet.PaysToPublicKeys := by
    intro address version
    simp [devnet, Devnet.payToAddressScript, version]
  have ownScripts : ∀ utxo ∈ accountStore.utxosSortedByAmount,
      CarriesOwnScript devnet accountBook utxo := by
    intro utxo member
    obtain ⟨⟨address, left⟩, derived, script⟩ :=
      accountStore_ownScripts utxo member
    exact ⟨address, left, derived, script⟩
  have consistent : accountStore.Consistent :=
    UtxoManager.consistent_rebuild _ (by decide +kernel)
  obtain ⟨signed, made, -, byOwnKeys⟩ := @sign_createdBatch devnet
    pathSignatures ⟨accountKey.serialized⟩ accountKey
    ⟨"legal winner thank year wave sausage"⟩ .devnet accountKeys
    accountStore accountBook _ _ _ _ accountService "password" rfl rfl rfl
    derivesAlike_accountKey correct_pathSignatures standard
    distinctPathTexts_devnet addressesRoundTrip_devnet .start rfl consistent
    ownScripts created
  refine ⟨batch, signed, created, ?_, made, byOwnKeys⟩
  simpa using congrArg List.length shape

end Sample

end Kaswallet
