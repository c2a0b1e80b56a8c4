import Igra.Kaswallet.AddressServing
import Igra.Kaswallet.EncryptedMnemonic
import Mathlib.Data.String.Basic

/-!
# Cosigners of a multisig wallet

The cosigners create their wallets apart, each from its own mnemonics and the
extended public keys of the others, which it may list in any order.  Two sorts
make up for the order: by text when the wallet is created, for the index of
the cosigner, and by key when an address is derived.
-/

open Kaspa Rust

namespace Kaswallet

section Creation

structure CreateArgs where
  minSignatures : UInt16
  numPrivateKeys : UInt16
  numPublicKeys : UInt16

/-- What `main` collects: a mnemonic for every private key, and an extended
public key for every place that is left. -/
structure CreateInput where
  args : CreateArgs
  mnemonics : List Mnemonic
  extraPublicKeys : List ExtendedPublicKey
  length_mnemonics : mnemonics.length = args.numPrivateKeys.toNat
  length_extraPublicKeys : extraPublicKeys.length =
    args.numPublicKeys.toNat - args.numPrivateKeys.toNat

variable (signatures : Signatures)
  (publicKeyOf : ExtendedPrivateKey → ExtendedPublicKey)
  (encryption : Encryption) (text : PublicKeyText)

/-- `unwrap()` of a third-party result. -/
def unwrapOrPanic {ε α : Type} : Except String α → Outcome ε α
  | .ok value => .ok value
  | .error _ => Outcome.panic

def extractXPublicKeys (mnemonics : List Mnemonic) (isMultisig : Bool) :
    WalletResult (List ExtendedPublicKey) :=
  Outcome.collect (fun mnemonic => do
    let masterKey ← unwrapOrPanic (signatures.extendedPrivateKey mnemonic)
    let xPrivateKey ← unwrapOrPanic
      (signatures.derivePath masterKey (masterKeyPath isMultisig))
    pure (publicKeyOf xPrivateKey)) mnemonics

/-- `draws` are the random bytes of the salt and of the nonce for each
mnemonic. -/
def encryptMnemonics (draws : Nat → FixedBytes 16 × FixedBytes 24)
    (password : String) (mnemonics : List Mnemonic) :
    WalletResult (List EncryptedMnemonic) :=
  Outcome.collect (fun (mnemonic, position) =>
    EncryptedMnemonic.new encryption (draws position).1 (draws position).2
      mnemonic password) mnemonics.zipIdx

/-- `sort_by_key(|a| a.to_string(Some(prefix)))`. -/
def sortedByText (publicKeys : List ExtendedPublicKey) :
    List ExtendedPublicKey :=
  publicKeys.insertionSort fun left right =>
    text.format left ≤ text.format right

/-- `position(|x| x.eq(x_public_key)).unwrap_or(0)`. -/
def cosignerIndexOf (sortedPublicKeys : List ExtendedPublicKey)
    (xPublicKey : ExtendedPublicKey) : Nat :=
  (sortedPublicKeys.idxOf? xPublicKey).getD 0

def minimumCosignerIndex
    (allPublicKeys signerPublicKeys : List ExtendedPublicKey) : UInt16 :=
  let sortedPublicKeys := sortedByText text allPublicKeys
  UInt16.ofNat (signerPublicKeys.foldl (fun minimum xPublicKey =>
    let current := cosignerIndexOf sortedPublicKeys xPublicKey
    if current < minimum then current else minimum) sortedPublicKeys.length)

/-- `generate_keys_file`, with what writing the keys file returns.  The
encrypted mnemonics are stored beside the keys. -/
def generateKeysFile (input : CreateInput) (password : String)
    (draws : Nat → FixedBytes 16 × FixedBytes 24)
    (save : WalletResult Unit) :
    WalletResult (Keys × List EncryptedMnemonic) := do
  let isMultisig := decide (1 < input.mnemonics.length)
  let encryptedMnemonics ←
    encryptMnemonics encryption draws password input.mnemonics
  let xPublicKeys ←
    extractXPublicKeys signatures publicKeyOf input.mnemonics isMultisig
  let allPublicKeys := xPublicKeys ++ input.extraPublicKeys
  let keys : Keys :=
    { publicKeys := allPublicKeys
      lastUsedExternalIndex := 0
      lastUsedInternalIndex := 0
      minimumSignatures := input.args.minSignatures
      cosignerIndex :=
        if xPublicKeys.isEmpty then 0
        else minimumCosignerIndex text allPublicKeys xPublicKeys }
  save
  pure (keys, encryptedMnemonics)

end Creation

section CosignerIndex

variable {signatures : Signatures}
  {publicKeyOf : ExtendedPrivateKey → ExtendedPublicKey}
  {encryption : Encryption} {text : PublicKeyText}

/-- The texts of extended public keys can be read back. -/
def PublicKeyText.RoundTrips (text : PublicKeyText) : Prop :=
  ∀ key, text.parse (text.format key) = .ok key

theorem PublicKeyText.RoundTrips.injective (roundTrips : text.RoundTrips) :
    Function.Injective text.format := by
  intro left right same
  have parsed := roundTrips left
  rw [same, roundTrips right] at parsed
  exact (Except.ok.inj parsed).symm

theorem sortedByText_perm (publicKeys : List ExtendedPublicKey) :
    (sortedByText text publicKeys).Perm publicKeys :=
  List.perm_insertionSort _ _

theorem insertionSort_eq_of_perm {α : Type} {below : α → α → Prop}
    [DecidableRel below] [Std.Total below] [IsTrans α below]
    [Std.Antisymm below] {items others : List α}
    (perm : items.Perm others) :
    items.insertionSort below = others.insertionSort below := by
  apply List.Perm.eq_of_pairwise' (List.pairwise_insertionSort below items)
    (List.pairwise_insertionSort below others)
  exact (List.perm_insertionSort below items).trans
    (perm.trans (List.perm_insertionSort below others).symm)

theorem sortedByText_eq (injective : Function.Injective text.format)
    {publicKeys others : List ExtendedPublicKey}
    (perm : publicKeys.Perm others) :
    sortedByText text publicKeys = sortedByText text others := by
  have : Std.Total fun left right : ExtendedPublicKey =>
      text.format left ≤ text.format right :=
    ⟨fun _ _ => le_total _ _⟩
  have : IsTrans ExtendedPublicKey fun left right =>
      text.format left ≤ text.format right :=
    ⟨fun _ _ _ first second => le_trans first second⟩
  have : Std.Antisymm fun left right : ExtendedPublicKey =>
      text.format left ≤ text.format right :=
    ⟨fun _ _ lower upper => injective (le_antisymm lower upper)⟩
  exact insertionSort_eq_of_perm perm

theorem foldl_minimum {α : Type} (value : α → Nat) (items : List α)
    (start : Nat) :
    let least := items.foldl (fun minimum item =>
      if value item < minimum then value item else minimum) start
    (least = start ∧ ∀ item ∈ items, start ≤ value item) ∨
      ∃ item ∈ items, least = value item := by
  induction items generalizing start with
  | nil => simp
  | cons item items ih =>
      rw [List.foldl_cons]
      rcases ih (if value item < start then value item else start) with
        ⟨kept, above⟩ | ⟨other, member, found⟩
      · rw [kept]
        by_cases less : value item < start
        · exact .inr ⟨item, List.mem_cons_self, if_pos less⟩
        · rw [if_neg less] at above ⊢
          refine .inl ⟨rfl, ?_⟩
          intro other member
          rcases List.mem_cons.mp member with rfl | later
          · exact Nat.le_of_not_lt less
          · exact above other later
      · exact .inr ⟨other, List.mem_cons_of_mem _ member, found⟩

private theorem cosignerIndexOf_eq {sortedPublicKeys : List ExtendedPublicKey}
    {key : ExtendedPublicKey} (member : key ∈ sortedPublicKeys) :
    cosignerIndexOf sortedPublicKeys key = sortedPublicKeys.idxOf key := by
  obtain ⟨index, found⟩ := Option.isSome_iff_exists.mp
    (List.isSome_idxOf?.mpr member)
  rw [cosignerIndexOf, List.idxOf_eq_getD_idxOf?, found]
  rfl

/-- The index of a cosigner is the place of one of its own keys. -/
theorem minimumCosignerIndex_spec
    {allPublicKeys signerPublicKeys : List ExtendedPublicKey}
    (few : allPublicKeys.length < 2 ^ 16) (signs : signerPublicKeys ≠ [])
    (subset : signerPublicKeys ⊆ allPublicKeys) :
    ∃ key ∈ signerPublicKeys,
      (minimumCosignerIndex text allPublicKeys signerPublicKeys).toNat =
        (sortedByText text allPublicKeys).idxOf key := by
  let sortedPublicKeys := sortedByText text allPublicKeys
  have size : sortedPublicKeys.length = allPublicKeys.length :=
    (sortedByText_perm allPublicKeys).length_eq
  have sortedMember {key : ExtendedPublicKey}
      (member : key ∈ signerPublicKeys) : key ∈ sortedPublicKeys :=
    (sortedByText_perm allPublicKeys).mem_iff.mpr (subset member)
  have inside {key : ExtendedPublicKey} (member : key ∈ signerPublicKeys) :
      cosignerIndexOf sortedPublicKeys key < sortedPublicKeys.length := by
    rw [cosignerIndexOf_eq (sortedMember member)]
    exact List.idxOf_lt_length_of_mem (sortedMember member)
  rcases foldl_minimum (cosignerIndexOf sortedPublicKeys) signerPublicKeys
    sortedPublicKeys.length with ⟨-, above⟩ | ⟨key, member, least⟩
  · obtain ⟨first, member⟩ := List.exists_mem_of_ne_nil _ signs
    exact absurd (above first member) (Nat.not_le_of_lt (inside member))
  · refine ⟨key, member, ?_⟩
    have fits : cosignerIndexOf sortedPublicKeys key < 2 ^ 16 :=
      (inside member).trans (size ▸ few)
    rw [minimumCosignerIndex, least, UInt16.toNat_ofNat_of_lt' fits,
      cosignerIndexOf_eq (sortedMember member)]

end CosignerIndex

section Wallets

variable {signatures : Signatures}
  {publicKeyOf : ExtendedPrivateKey → ExtendedPublicKey}
  {encryption : Encryption} {text : PublicKeyText}
  {input : CreateInput} {password : String}
  {draws : Nat → FixedBytes 16 × FixedBytes 24} {keys : Keys}
  {encryptedMnemonics : List EncryptedMnemonic}

theorem generateKeysFile_spec
    (created : generateKeysFile signatures publicKeyOf encryption text input
      password draws (.ok ()) = .ok (keys, encryptedMnemonics)) :
    ∃ signers,
      extractXPublicKeys signatures publicKeyOf input.mnemonics
          (decide (1 < input.mnemonics.length)) = .ok signers ∧
        keys.publicKeys = signers ++ input.extraPublicKeys ∧
        keys.minimumSignatures = input.args.minSignatures ∧
        keys.cosignerIndex =
          if signers.isEmpty then 0
          else minimumCosignerIndex text keys.publicKeys signers := by
  rw [generateKeysFile, Outcome.bind_eq_ok] at created
  obtain ⟨stored, -, created⟩ := created
  obtain ⟨signers, extracted, created⟩ := Outcome.bind_eq_ok.mp created
  cases created
  exact ⟨signers, extracted, rfl, rfl, rfl⟩

theorem length_publicKeys_lt
    (created : generateKeysFile signatures publicKeyOf encryption text input
      password draws (.ok ()) = .ok (keys, encryptedMnemonics)) :
    keys.publicKeys.length < 2 ^ 16 := by
  obtain ⟨signers, extracted, publicKeys, -, -⟩ :=
    generateKeysFile_spec created
  have privateKeys := input.args.numPrivateKeys.toNat_lt
  have places := input.args.numPublicKeys.toNat_lt
  rw [publicKeys, List.length_append,
    Outcome.length_of_collect_eq_ok extracted, input.length_mnemonics,
    input.length_extraPublicKeys]
  omega

end Wallets

section Daemons

variable (upstream : Upstream) (text : PublicKeyText) (filePath : String)
  (addressPrefix : AddressPrefix)

/-- The keys files of a wallet over its life: the one that was created, and
those that a daemon wrote. -/
inductive KeysFileOf (created : Keys) : Keys → Prop where
  | created : KeysFileOf created created
  | saved {stored loaded : Keys} {manager : AddressManager} :
      KeysFileOf created stored →
      (stored.toJson text).toKeys text filePath = .ok loaded →
      AddressManager.Serves upstream loaded addressPrefix manager →
      KeysFileOf created manager.keysFile

/-- The address managers of the daemons of a wallet. -/
def ManagerOf (created : Keys) (manager : AddressManager) : Prop :=
  ∃ stored loaded,
    KeysFileOf upstream text filePath addressPrefix created stored ∧
      (stored.toJson text).toKeys text filePath = .ok loaded ∧
      AddressManager.Serves upstream loaded addressPrefix manager

variable {upstream text filePath addressPrefix} {created : Keys}
  {manager : AddressManager}

theorem eq_of_toKeys_toJson (roundTrips : text.RoundTrips)
    {stored loaded : Keys}
    (loads : (stored.toJson text).toKeys text filePath = .ok loaded) :
    loaded = stored := by
  rw [toKeys_toJson fun key _ => roundTrips key] at loads
  exact (Except.ok.inj loads).symm

theorem KeysFileOf.sameWallet (roundTrips : text.RoundTrips)
    {stored : Keys}
    (file : KeysFileOf upstream text filePath addressPrefix created stored) :
    created.SameWallet stored := by
  induction file with
  | created => exact .refl created
  | saved _ loads serves ih =>
      obtain rfl := eq_of_toKeys_toJson roundTrips loads
      exact ih.trans serves.derives.sameWallet

theorem ManagerOf.derives (roundTrips : text.RoundTrips)
    (managerOf : ManagerOf upstream text filePath addressPrefix created
      manager) :
    AddressManager.Derives upstream created addressPrefix manager := by
  obtain ⟨stored, loaded, file, loads, serves⟩ := managerOf
  obtain rfl := eq_of_toKeys_toJson roundTrips loads
  exact serves.derives.of_sameWallet (file.sameWallet roundTrips)

end Daemons

section Agreement

variable (upstream : Upstream)

/-- Extended public keys have a total order. -/
structure OrdersPublicKeys : Prop where
  total : ∀ left right, upstream.publicKeyLe left right = true ∨
    upstream.publicKeyLe right left = true
  trans : ∀ {first second third}, upstream.publicKeyLe first second = true →
    upstream.publicKeyLe second third = true →
      upstream.publicKeyLe first third = true
  antisymm : ∀ {left right}, upstream.publicKeyLe left right = true →
    upstream.publicKeyLe right left = true → left = right

/-- The text of a path in a multisig wallet has three child numbers. -/
def ReadsMultisigPaths : Prop :=
  ∀ (walletAddress : WalletAddress) path,
    upstream.derivationPathFromStr
        (AddressManager.pathString true walletAddress) = .ok path →
      path.children = [walletAddress.cosignerIndex.toUInt32,
        walletAddress.keychain.toUInt32, walletAddress.index]

/-- Wallets that were created from one set of extended public keys.  No two of
them share a signer. -/
structure CosignerFamily {ι : Type} (signatures : Signatures)
    (publicKeyOf : ExtendedPrivateKey → ExtendedPublicKey)
    (encryption : Encryption) (text : PublicKeyText)
    (minimumSignatures : UInt16) (keySet : Finset ExtendedPublicKey)
    (input : ι → CreateInput) (keys : ι → Keys) : Prop where
  created : ∀ i, ∃ password draws encryptedMnemonics,
    generateKeysFile signatures publicKeyOf encryption text (input i)
      password draws (.ok ()) = .ok (keys i, encryptedMnemonics)
  minSignatures : ∀ i, (input i).args.minSignatures = minimumSignatures
  several : 2 ≤ keySet.card
  distinct : ∀ i, (keys i).publicKeys.Nodup
  sameKeys : ∀ i, (keys i).publicKeys.toFinset = keySet
  signs : ∀ i, (input i).mnemonics ≠ []
  apart : ∀ i j, i ≠ j → ∀ signers others,
    extractXPublicKeys signatures publicKeyOf (input i).mnemonics
        (decide (1 < (input i).mnemonics.length)) = .ok signers →
    extractXPublicKeys signatures publicKeyOf (input j).mnemonics
        (decide (1 < (input j).mnemonics.length)) = .ok others →
      signers.Disjoint others

/-- The pay-to-script-hash address of the keys that the extended public keys
have at a path, in the order of the extended keys. -/
def IsMultisigAddress (keySet : Finset ExtendedPublicKey)
    (minimumSignatures : UInt16) (addressPrefix : AddressPrefix)
    (path : DerivationPath) (address : Address) : Prop :=
  ∃ sorted signingPublicKeys redeemScript,
    sorted.Nodup ∧ sorted.toFinset = keySet ∧
      sorted.Pairwise
        (fun left right => upstream.publicKeyLe left right = true) ∧
      List.Forall₂
        (fun xpub publicKey =>
          upstream.deriveXOnlyPublicKey xpub path = .ok publicKey)
        sorted signingPublicKeys ∧
      upstream.multisigRedeemScript signingPublicKeys
          minimumSignatures.toNat = .ok redeemScript ∧
      upstream.extractScriptPubKeyAddress
          (upstream.payToScriptHashScript redeemScript) addressPrefix =
        .ok address

variable {upstream} {ι : Type} {signatures : Signatures}
  {publicKeyOf : ExtendedPrivateKey → ExtendedPublicKey}
  {encryption : Encryption} {text : PublicKeyText}
  {minimumSignatures : UInt16} {keySet : Finset ExtendedPublicKey}
  {input : ι → CreateInput} {keys : ι → Keys}
  {addressPrefix : AddressPrefix}

theorem CosignerFamily.perm
    (family : CosignerFamily signatures publicKeyOf encryption text
      minimumSignatures keySet input keys) (i j : ι) :
    (keys i).publicKeys.Perm (keys j).publicKeys := by
  rw [List.perm_ext_iff_of_nodup (family.distinct i) (family.distinct j)]
  intro key
  rw [← List.mem_toFinset, ← List.mem_toFinset, family.sameKeys i,
    family.sameKeys j]

theorem CosignerFamily.isMultisig
    (family : CosignerFamily signatures publicKeyOf encryption text
      minimumSignatures keySet input keys) (i : ι) :
    1 < (keys i).publicKeys.length := by
  have several := family.several
  rwa [← family.sameKeys i,
    List.toFinset_card_of_nodup (family.distinct i)] at several

/-- Each cosigner index is the place of one of the cosigner's keys. -/
theorem CosignerFamily.cosignerIndex
    (family : CosignerFamily signatures publicKeyOf encryption text
      minimumSignatures keySet input keys) (i : ι) :
    ∃ signers, extractXPublicKeys signatures publicKeyOf
        (input i).mnemonics (decide (1 < (input i).mnemonics.length)) =
          .ok signers ∧
      ∃ key ∈ signers, key ∈ (keys i).publicKeys ∧
        (keys i).cosignerIndex.toNat =
          (sortedByText text (keys i).publicKeys).idxOf key := by
  obtain ⟨password, draws, encryptedMnemonics, created⟩ := family.created i
  obtain ⟨signers, extracted, publicKeys, -, cosignerIndex⟩ :=
    generateKeysFile_spec created
  have signs : signers ≠ [] := by
    intro empty
    have length := Outcome.length_of_collect_eq_ok extracted
    rw [empty] at length
    exact family.signs i (List.length_eq_zero_iff.mp length.symm)
  have subset : signers ⊆ (keys i).publicKeys :=
    publicKeys ▸ List.subset_append_left signers _
  have few := length_publicKeys_lt created
  obtain ⟨key, member, place⟩ :=
    @minimumCosignerIndex_spec text _ _ few signs subset
  rw [if_neg (by simpa using signs)] at cosignerIndex
  exact ⟨signers, extracted, key, member, subset member,
    cosignerIndex ▸ place⟩

theorem CosignerFamily.cosignerIndex_ne (roundTrips : text.RoundTrips)
    (family : CosignerFamily signatures publicKeyOf encryption text
      minimumSignatures keySet input keys) {i j : ι} (different : i ≠ j) :
    (keys i).cosignerIndex ≠ (keys j).cosignerIndex := by
  intro same
  obtain ⟨signers, extracted, key, member, listed, place⟩ :=
    family.cosignerIndex i
  obtain ⟨others, otherExtracted, other, otherMember, -, otherPlace⟩ :=
    family.cosignerIndex j
  have sorted := sortedByText_eq roundTrips.injective (family.perm i j)
  have indexes : (sortedByText text (keys i).publicKeys).idxOf key =
      (sortedByText text (keys i).publicKeys).idxOf other := by
    rw [← place, same, otherPlace, sorted]
  have inside : key ∈ sortedByText text (keys i).publicKeys :=
    (sortedByText_perm _).mem_iff.mpr listed
  obtain rfl := (List.idxOf_inj inside).mp indexes
  exact family.apart i j different signers others extracted otherExtracted
    member otherMember

theorem CosignerFamily.minimumSignatures_eq
    (family : CosignerFamily signatures publicKeyOf encryption text
      minimumSignatures keySet input keys) (i : ι) :
    (keys i).minimumSignatures = minimumSignatures := by
  obtain ⟨password, draws, encryptedMnemonics, created⟩ := family.created i
  obtain ⟨signers, -, -, minSignatures, -⟩ := generateKeysFile_spec created
  exact minSignatures.trans (family.minSignatures i)

theorem OrdersPublicKeys.pairwise_insertionSort
    (orders : OrdersPublicKeys upstream)
    (publicKeys : List ExtendedPublicKey) :
    (publicKeys.insertionSort
      fun left right => upstream.publicKeyLe left right = true).Pairwise
        fun left right => upstream.publicKeyLe left right = true := by
  have : Std.Total fun left right =>
      upstream.publicKeyLe left right = true :=
    ⟨orders.total⟩
  have : IsTrans ExtendedPublicKey fun left right =>
      upstream.publicKeyLe left right = true :=
    ⟨fun _ _ _ => orders.trans⟩
  exact List.pairwise_insertionSort _ publicKeys

theorem OrdersPublicKeys.insertionSort_eq
    (orders : OrdersPublicKeys upstream)
    {publicKeys others : List ExtendedPublicKey}
    (perm : publicKeys.Perm others) :
    publicKeys.insertionSort
        (fun left right => upstream.publicKeyLe left right = true) =
      others.insertionSort
        fun left right => upstream.publicKeyLe left right = true := by
  have : Std.Antisymm fun left right =>
      upstream.publicKeyLe left right = true :=
    ⟨fun _ _ => orders.antisymm⟩
  apply List.Perm.eq_of_pairwise' (orders.pairwise_insertionSort publicKeys)
    (orders.pairwise_insertionSort others)
  exact (List.perm_insertionSort _ publicKeys).trans
    (perm.trans (List.perm_insertionSort _ others).symm)

theorem CosignerFamily.multisigAddress_eq
    (orders : OrdersPublicKeys upstream)
    (family : CosignerFamily signatures publicKeyOf encryption text
      minimumSignatures keySet input keys) (i j : ι)
    (path : DerivationPath) :
    (AddressManager.new (keys i) addressPrefix).multisigAddress upstream
        path =
      (AddressManager.new (keys j) addressPrefix).multisigAddress upstream
        path := by
  have sorted := orders.insertionSort_eq (family.perm i j)
  simp only [AddressManager.multisigAddress, AddressManager.new, sorted,
    family.minimumSignatures_eq]

theorem CosignerFamily.isMultisigAddress
    (orders : OrdersPublicKeys upstream)
    (family : CosignerFamily signatures publicKeyOf encryption text
      minimumSignatures keySet input keys) {i : ι} {path : DerivationPath}
    {address : Address}
    (derived : (AddressManager.new (keys i) addressPrefix).multisigAddress
      upstream path = .ok address) :
    IsMultisigAddress upstream keySet minimumSignatures addressPrefix path
      address := by
  simp only [AddressManager.multisigAddress, AddressManager.new,
    family.minimumSignatures_eq, Outcome.bind_eq_ok, mapError_eq_ok,
    Outcome.collect_eq_ok] at derived
  obtain ⟨signingPublicKeys, keysAtPath, redeemScript, redeems, hashes⟩ :=
    derived
  have perm := List.perm_insertionSort
    (fun left right => upstream.publicKeyLe left right = true)
    (keys i).publicKeys
  refine ⟨_, signingPublicKeys, redeemScript,
    perm.nodup_iff.mpr (family.distinct i), ?_,
    orders.pairwise_insertionSort _, keysAtPath, redeems, hashes⟩
  rw [List.toFinset_eq_of_perm _ _ perm, family.sameKeys i]

/-- All wallets of the family derive the same addresses. -/
theorem CosignerFamily.derivedAddress_eq
    (orders : OrdersPublicKeys upstream)
    (family : CosignerFamily signatures publicKeyOf encryption text
      minimumSignatures keySet input keys) (i j : ι)
    (walletAddress : WalletAddress) :
    AddressManager.derivedAddress upstream (keys i) addressPrefix
        walletAddress =
      AddressManager.derivedAddress upstream (keys j) addressPrefix
        walletAddress := by
  have multisig (k : ι) : (AddressManager.new (keys k)
      addressPrefix).isMultisig = true :=
    decide_eq_true (family.isMultisig k)
  rw [AddressManager.derivedAddress_eq, AddressManager.derivedAddress_eq,
    decide_eq_true (family.isMultisig i),
    decide_eq_true (family.isMultisig j)]
  refine congrArg _ (funext fun path => ?_)
  rw [AddressManager.addressAtPath, AddressManager.addressAtPath,
    if_pos (multisig i), if_pos (multisig j),
    family.multisigAddress_eq orders i j]

theorem AddressCall.allocated_cosignerIndex {manager : AddressManager}
    {call : AddressCall} {save : WalletResult Unit}
    {walletAddress : WalletAddress}
    (allocated : (call.perform upstream manager save).1 =
      some walletAddress) :
    walletAddress.cosignerIndex = manager.keysFile.cosignerIndex := by
  cases call with
  | newAddress =>
      obtain ⟨⟨text, registered⟩, returned, rfl⟩ :=
        Option.map_eq_some_iff.mp allocated
      obtain ⟨-, rfl⟩ :=
        AddressManager.newAddress_spec (Outcome.toOption_eq_some.mp returned)
      rfl
  | changeAddress useExistingChangeAddress fromAddresses =>
      dsimp only [perform] at allocated
      split at allocated
      · rename_i fresh
        obtain ⟨rfl, rfl⟩ := fresh
        obtain ⟨⟨text, registered⟩, returned, rfl⟩ :=
          Option.map_eq_some_iff.mp allocated
        obtain ⟨-, rfl⟩ := AddressManager.changeAddress_spec
          (Outcome.toOption_eq_some.mp returned)
        rfl
      · cases allocated
  | updateAddressesAndLastUsedIndexes addressSet response =>
      cases allocated

theorem CosignerFamily.isMultisigAddress_of_derivedAddress
    (orders : OrdersPublicKeys upstream)
    (family : CosignerFamily signatures publicKeyOf encryption text
      minimumSignatures keySet input keys) {i : ι}
    {walletAddress : WalletAddress} {address : Address}
    (derived : AddressManager.derivedAddress upstream (keys i) addressPrefix
      walletAddress = .ok address) :
    ∃ path,
      AddressManager.calculateAddressPath upstream true walletAddress =
          .ok path ∧
        IsMultisigAddress upstream keySet minimumSignatures addressPrefix path
          address := by
  have multisig : (AddressManager.new (keys i) addressPrefix).isMultisig =
      true :=
    decide_eq_true (family.isMultisig i)
  rw [AddressManager.derivedAddress_eq, decide_eq_true (family.isMultisig i),
    Outcome.bind_eq_ok] at derived
  obtain ⟨path, calculated, atPath⟩ := derived
  rw [AddressManager.addressAtPath, if_pos multisig] at atPath
  exact ⟨path, calculated, family.isMultisigAddress orders atPath⟩

/-- The wallets of cosigners derive the same multisig addresses, have
different cosigner indexes, and never allocate an address at the same path. -/
theorem cosigners_agree (filePath : ι → String)
    (orders : OrdersPublicKeys upstream) (roundTrips : text.RoundTrips)
    (reads : ReadsMultisigPaths upstream)
    (family : CosignerFamily signatures publicKeyOf encryption text
      minimumSignatures keySet input keys) :
    (∀ i j manager other,
      ManagerOf upstream text (filePath i) addressPrefix (keys i) manager →
      ManagerOf upstream text (filePath j) addressPrefix (keys j) other →
        manager.isMultisig = true ∧
        ∀ walletAddress cache otherCache,
          Prod.fst <$> manager.kaspaAddressFromWalletAddress upstream
              walletAddress cache =
            Prod.fst <$> other.kaspaAddressFromWalletAddress upstream
              walletAddress otherCache ∧
          ∀ address,
            Prod.fst <$> manager.kaspaAddressFromWalletAddress upstream
                walletAddress cache = .ok address →
              ∃ path,
                AddressManager.calculateAddressPath upstream true
                    walletAddress = .ok path ∧
                  IsMultisigAddress upstream keySet minimumSignatures
                    addressPrefix path address) ∧
    (∀ i j, i ≠ j → (keys i).cosignerIndex ≠ (keys j).cosignerIndex) ∧
    ∀ i j manager other call otherCall save otherSave walletAddress
        otherAddress path otherPath, i ≠ j →
      ManagerOf upstream text (filePath i) addressPrefix (keys i) manager →
      ManagerOf upstream text (filePath j) addressPrefix (keys j) other →
      (AddressCall.perform upstream manager save call).1 =
        some walletAddress →
      (AddressCall.perform upstream other otherSave otherCall).1 =
        some otherAddress →
      AddressManager.calculateAddressPath upstream manager.isMultisig
        walletAddress = .ok path →
      AddressManager.calculateAddressPath upstream other.isMultisig
        otherAddress = .ok otherPath →
        path ≠ otherPath := by
  have multisig {i : ι} {manager : AddressManager}
      (managerOf : ManagerOf upstream text (filePath i) addressPrefix
        (keys i) manager) : manager.isMultisig = true :=
    (managerOf.derives roundTrips).isMultisig_eq.trans
      (decide_eq_true (family.isMultisig i))
  refine ⟨?_, fun i j => family.cosignerIndex_ne roundTrips, ?_⟩
  · intro i j manager other managerOf otherOf
    refine ⟨multisig managerOf, ?_⟩
    intro walletAddress cache otherCache
    rw [(managerOf.derives roundTrips).fst_kaspaAddress,
      (otherOf.derives roundTrips).fst_kaspaAddress]
    refine ⟨family.derivedAddress_eq orders i j walletAddress, ?_⟩
    intro address derived
    exact family.isMultisigAddress_of_derivedAddress orders derived
  · rintro i j manager other call otherCall save otherSave walletAddress
      otherAddress path _ different managerOf otherOf allocated
      otherAllocated calculated otherCalculated rfl
    rw [multisig managerOf, AddressManager.calculateAddressPath,
      mapError_eq_ok] at calculated
    rw [multisig otherOf, AddressManager.calculateAddressPath,
      mapError_eq_ok] at otherCalculated
    have children := (reads _ _ calculated).symm.trans
      (reads _ _ otherCalculated)
    have indexes : walletAddress.cosignerIndex =
        otherAddress.cosignerIndex := by
      have first := (List.cons.inj children).1
      exact UInt16.toUInt32_inj.mp first
    rw [AddressCall.allocated_cosignerIndex allocated,
      AddressCall.allocated_cosignerIndex otherAllocated,
      (managerOf.derives roundTrips).sameWallet.cosignerIndex,
      (otherOf.derives roundTrips).sameWallet.cosignerIndex] at indexes
    exact family.cosignerIndex_ne roundTrips different indexes

end Agreement

section Sample

private theorem ordersPublicKeys_devnet : OrdersPublicKeys devnet where
  total left right := by
    simpa [devnet] using List.le_total left.serialized right.serialized
  trans := by
    intro first second third lower upper
    simp only [devnet, decide_eq_true_iff] at lower upper ⊢
    exact List.le_trans lower upper
  antisymm := by
    rintro ⟨left⟩ ⟨right⟩ lower upper
    simp only [devnet, decide_eq_true_iff] at lower upper
    rw [List.le_antisymm lower upper]

/-- One character of a path, between slashes the digits of a child. -/
private def readCharacter (progress : List Nat × Nat) (character : Char) :
    List Nat × Nat :=
  if character = '/' then (progress.2 :: progress.1, 0)
  else (progress.1, 10 * progress.2 + (character.toNat - 48))

private theorem foldl_readCharacter (number : Nat) (finished : List Nat)
    (rest : List Char) :
    (Nat.toDigits 10 number ++ rest).foldl readCharacter (finished, 0) =
      rest.foldl readCharacter (finished, number) := by
  have digits (characters : List Char) (current : Nat)
      (numerals : ∀ character ∈ characters, character.isDigit = true) :
      characters.foldl readCharacter (finished, current) =
        (finished, Nat.ofDigitChars 10 characters current) := by
    induction characters generalizing current with
    | nil => rw [List.foldl_nil, Nat.ofDigitChars_nil]
    | cons character later ih =>
        have numeral := numerals character List.mem_cons_self
        have inside : character ≠ '/' := by
          rintro rfl
          exact absurd numeral (by decide)
        rw [List.foldl_cons, readCharacter, if_neg inside,
          ih _ fun other member =>
            numerals other (List.mem_cons_of_mem _ member),
          Nat.ofDigitChars_cons]
        rfl
  rw [List.foldl_append, digits _ 0 fun _ member =>
    Nat.isDigit_of_mem_toDigits (by decide) (by decide) member,
    Nat.ofDigitChars_ten_toDigits]

theorem readsMultisigPaths_devnet : ReadsMultisigPaths devnet := by
  intro walletAddress path parsed
  have number (value : UInt32) :
      (toString value).toList = Nat.toDigits 10 value.toNat :=
    Nat.toList_repr
  have short (value : UInt16) :
      (toString value).toList = Nat.toDigits 10 value.toNat :=
    Nat.toList_repr
  have characters :
      (AddressManager.pathString true walletAddress).toList.drop 2 =
        Nat.toDigits 10 walletAddress.cosignerIndex.toNat ++
          '/' :: (Nat.toDigits 10 walletAddress.keychain.toUInt32.toNat ++
            '/' :: (Nat.toDigits 10 walletAddress.index.toNat ++ [])) := by
    simp only [AddressManager.pathString, if_true, String.toList_append,
      number, short, List.append_assoc, List.append_nil]
    rfl
  have read (text : String) : Devnet.derivationPathFromStr text =
      ⟨(((text.toList.drop 2).foldl readCharacter ([], 0)).2 ::
        ((text.toList.drop 2).foldl readCharacter ([], 0)).1).reverse.map
          UInt32.ofNat⟩ :=
    rfl
  have same : Devnet.derivationPathFromStr
      (AddressManager.pathString true walletAddress) = path :=
    Except.ok.inj parsed
  rw [← same, read, characters, foldl_readCharacter, List.foldl_cons, readCharacter,
    if_pos rfl, foldl_readCharacter, List.foldl_cons, readCharacter,
    if_pos rfl, foldl_readCharacter]
  simp

private theorem roundTrips_plainText : plainText.RoundTrips := by
  rintro ⟨serialized⟩
  have byteOf (byte : UInt8) :
      UInt8.ofNat (Char.ofNat byte.toNat).toNat = byte := by
    have valid : byte.toNat.isValidChar := .inl (by
      have bound := byte.toNat_lt
      omega)
    have code : (Char.ofNat byte.toNat).toNat = byte.toNat := by
      rw [Char.ofNat, dif_pos valid]
      rfl
    rw [code, UInt8.ofNat_toNat]
  simp [plainText, Function.comp_def, byteOf]

/-- An extended key is the phrase followed by the path. -/
def phraseSignatures : Signatures where
  extendedPrivateKey mnemonic := .ok ⟨asBytes mnemonic.phrase⟩
  derivePath key path :=
    .ok ⟨key.serialized ++ path.children.map UInt32.toUInt8⟩
  secretBytes key :=
    (FixedBytes.ofList? 32 key.serialized).getD (.zero 32)
  xOnlyPublicKey := some
  signSchnorr _ _ _ := .zero 64
  verify _ := .error "not signed"

def letterAdvice : Mnemonic :=
  ⟨"letter advice cage absurd amount doctor acoustic avoid letter advice"⟩

def cosignerMnemonic : Bool → Mnemonic
  | true => legalWinner
  | false => letterAdvice

def cosignerKey (cosigner : Bool) : ExtendedPublicKey :=
  ⟨asBytes (cosignerMnemonic cosigner).phrase ++
    (masterKeyPath false).children.map UInt32.toUInt8⟩

/-- One of two cosigners, who lists the key of the other after its own. -/
def cosignerInput (cosigner : Bool) : CreateInput where
  args := ⟨2, 1, 2⟩
  mnemonics := [cosignerMnemonic cosigner]
  extraPublicKeys := [cosignerKey !cosigner]
  length_mnemonics := rfl
  length_extraPublicKeys := rfl

def cosignerKeys (cosigner : Bool) : Keys where
  publicKeys := [cosignerKey cosigner, cosignerKey !cosigner]
  lastUsedExternalIndex := 0
  lastUsedInternalIndex := 0
  minimumSignatures := 2
  cosignerIndex := if cosigner then 0 else 1

private theorem cosignerKey_ne : cosignerKey true ≠ cosignerKey false := by
  decide +kernel

theorem cosignerFamily_two :
    CosignerFamily phraseSignatures (fun key => ⟨key.serialized⟩)
      plainEncryption plainText 2 {cosignerKey true, cosignerKey false}
      cosignerInput cosignerKeys where
  created := by
    intro cosigner
    refine ⟨"password", fun _ => (.zero 16, .zero 24), ?_⟩
    cases cosigner with
    | true => exact ⟨_, rfl⟩
    | false => exact ⟨_, rfl⟩
  minSignatures _ := rfl
  several := by rw [Finset.card_pair cosignerKey_ne]
  distinct := by
    intro cosigner
    cases cosigner <;> simp [cosignerKeys, cosignerKey_ne, cosignerKey_ne.symm]
  sameKeys := by
    intro cosigner
    cases cosigner <;> simp [cosignerKeys, Finset.pair_comm]
  signs := by
    intro cosigner
    simp [cosignerInput]
  apart := by
    intro cosigner other different signers others extracted otherExtracted
    have distinct : cosignerKey cosigner ≠ cosignerKey other := by
      cases cosigner <;> cases other
      · exact absurd rfl different
      · exact cosignerKey_ne.symm
      · exact cosignerKey_ne
      · exact absurd rfl different
    have own : [cosignerKey cosigner] = signers := Except.ok.inj extracted
    have others' : [cosignerKey other] = others :=
      Except.ok.inj otherExtracted
    rw [← own, ← others', List.singleton_disjoint, List.mem_singleton]
    exact distinct

/-- Both wallets derive one address, that of their two keys, and their first own
addresses lie at different paths. -/
theorem cosigners_agree_two :
    (∃ address path,
      Prod.fst <$> (AddressManager.new (cosignerKeys true)
          .devnet).kaspaAddressFromWalletAddress devnet ⟨5, 1, .internal⟩
            true = .ok address ∧
        Prod.fst <$> (AddressManager.new (cosignerKeys false)
          .devnet).kaspaAddressFromWalletAddress devnet ⟨5, 1, .internal⟩
            true = .ok address ∧
        IsMultisigAddress devnet {cosignerKey true, cosignerKey false} 2
          .devnet path address) ∧
      (cosignerKeys true).cosignerIndex ≠
        (cosignerKeys false).cosignerIndex ∧
      ∃ paths : Bool → DerivationPath,
        (∀ cosigner, ∃ walletAddress,
          (AddressCall.perform devnet (.new (cosignerKeys cosigner) .devnet)
              (.ok ()) .newAddress).1 = some walletAddress ∧
            AddressManager.calculateAddressPath devnet true walletAddress =
              .ok (paths cosigner)) ∧
          paths true ≠ paths false := by
  have managerOf (cosigner : Bool) : ManagerOf devnet plainText "keys.json"
      .devnet (cosignerKeys cosigner)
      (.new (cosignerKeys cosigner) .devnet) :=
    ⟨_, _, .created, toKeys_toJson fun key _ => roundTrips_plainText key,
      .start⟩
  have first (cosigner : Bool) :
      (AddressCall.perform devnet (.new (cosignerKeys cosigner) .devnet)
        (.ok ()) .newAddress).1 =
          some ⟨1, if cosigner then 0 else 1, .external⟩ := by
    cases cosigner <;> decide +kernel
  have path (cosigner : Bool) : AddressManager.calculateAddressPath devnet
      true ⟨1, if cosigner then 0 else 1, .external⟩ =
        .ok ⟨[if cosigner then 0 else 1, 0, 1]⟩ := by
    cases cosigner <;> decide +kernel
  obtain ⟨same, different, disjoint⟩ := cosigners_agree
    (fun _ => "keys.json") ordersPublicKeys_devnet roundTrips_plainText
    readsMultisigPaths_devnet cosignerFamily_two
  refine ⟨?_, different true false (by decide), ?_⟩
  · obtain ⟨-, agree⟩ :=
      same true false _ _ (managerOf true) (managerOf false)
    obtain ⟨equal, derived⟩ := agree ⟨5, 1, .internal⟩ true true
    have succeeds : (Prod.fst <$> (AddressManager.new (cosignerKeys true)
        .devnet).kaspaAddressFromWalletAddress devnet ⟨5, 1, .internal⟩
          true).Returns fun _ => True := by
      decide +kernel
    obtain ⟨address, isAddress, -⟩ := succeeds
    obtain ⟨path, -, multisig⟩ := derived address isAddress
    exact ⟨address, path, isAddress, equal ▸ isAddress, multisig⟩
  · refine ⟨fun cosigner => ⟨[if cosigner then 0 else 1, 0, 1]⟩,
      fun cosigner => ⟨_, first cosigner, path cosigner⟩, ?_⟩
    exact disjoint true false _ _ .newAddress .newAddress (.ok ()) (.ok ())
      _ _ _ _ (by decide) (managerOf true) (managerOf false) (first true)
      (first false) (path true) (path false)

end Sample

end Kaswallet
