import Igra.Kaswallet.Model
import Mathlib.Data.List.Sort

/-!
# The address book

The address manager over the keys file it saves: derivation paths, new
addresses and change addresses, and what it records of the node's answers.
-/

open Kaspa Rust

namespace Kaswallet

structure Keys where
  publicKeys : List ExtendedPublicKey
  lastUsedExternalIndex : UInt32
  lastUsedInternalIndex : UInt32
  minimumSignatures : UInt16
  cosignerIndex : UInt16

/-- What `Keys` has on disk. -/
structure KeysJson where
  publicKeys : List String
  lastUsedExternalIndex : UInt32
  lastUsedInternalIndex : UInt32
  minimumSignatures : UInt16
  cosignerIndex : UInt16

/-- `to_string` and `from_str` of an extended public key, and how a string is
quoted in an error. -/
structure PublicKeyText where
  format : ExtendedPublicKey → String
  parse : String → Except String ExtendedPublicKey
  quote : String → String

def Keys.toJson (text : PublicKeyText) (keys : Keys) : KeysJson where
  publicKeys := keys.publicKeys.map text.format
  lastUsedExternalIndex := keys.lastUsedExternalIndex
  lastUsedInternalIndex := keys.lastUsedInternalIndex
  minimumSignatures := keys.minimumSignatures
  cosignerIndex := keys.cosignerIndex

def KeysJson.toKeys (text : PublicKeyText) (filePath : String)
    (keysJson : KeysJson) : WalletResult Keys := do
  let publicKeys ← Outcome.collect
    (fun key => mapError
      (fun reason => .crypto (.keyFileMalformed filePath
        s!"invalid extended public key {text.quote key}: {reason}"))
      (text.parse key)) keysJson.publicKeys
  pure
    { publicKeys := publicKeys
      lastUsedExternalIndex := keysJson.lastUsedExternalIndex
      lastUsedInternalIndex := keysJson.lastUsedInternalIndex
      minimumSignatures := keysJson.minimumSignatures
      cosignerIndex := keysJson.cosignerIndex }

/-- The answer to a balance query for one address. -/
structure RpcBalancesByAddressesEntry where
  address : Address
  balance : Option UInt64

structure AddressManager where
  keysFile : Keys
  addresses : AddressSet
  isMultisig : Bool
  addressPrefix : AddressPrefix
  addressCache : HashMap WalletAddress Address

namespace AddressManager

def new (keys : Keys) (addressPrefix : AddressPrefix) : AddressManager where
  keysFile := keys
  addresses := ∅
  isMultisig := decide (1 < keys.publicKeys.length)
  addressPrefix := addressPrefix
  addressCache := ∅

/-- The text that `calculate_address_path` parses. -/
def pathString (isMultisig : Bool) (walletAddress : WalletAddress) : String :=
  let keychainNumber := walletAddress.keychain.toUInt32
  if isMultisig then
    s!"m/{walletAddress.cosignerIndex}/{keychainNumber}/{walletAddress.index}"
  else s!"m/{keychainNumber}/{walletAddress.index}"

section Upstream

variable (upstream : Upstream)

def calculateAddressPath (isMultisig : Bool)
    (walletAddress : WalletAddress) : WalletResult DerivationPath :=
  mapError (fun reason => .crypto (.bip32Derivation reason))
    (upstream.derivationPathFromStr (pathString isMultisig walletAddress))

/-- `addresses::p2pk_address` for the first extended public key. -/
def p2pkAddress (manager : AddressManager)
    (derivationPath : DerivationPath) : WalletResult Address := do
  let xpub ← Outcome.ofOption
    (.storage (.io "extended_public_keys"
      "no extended public keys available"))
    manager.keysFile.publicKeys.head?
  let payload ← mapError (fun reason => .crypto (.bip32Derivation reason))
    (upstream.deriveXOnlyPublicKey xpub derivationPath)
  pure ⟨manager.addressPrefix, .pubKey, payload.bytes, payload.size⟩

/-- `addresses::multisig_address`, over the sorted extended public keys. -/
def multisigAddress (manager : AddressManager)
    (derivationPath : DerivationPath) : WalletResult Address := do
  let sorted := manager.keysFile.publicKeys.insertionSort
    fun left right => upstream.publicKeyLe left right = true
  let signingPublicKeys ← Outcome.collect
    (fun xpub => mapError (fun reason => .crypto (.bip32Derivation reason))
      (upstream.deriveXOnlyPublicKey xpub derivationPath)) sorted
  let redeemScript ← mapError
    (fun reason => .crypto (.scriptError "multisig_redeem_script" reason))
    (upstream.multisigRedeemScript signingPublicKeys
      manager.keysFile.minimumSignatures.toNat)
  mapError
    (fun reason =>
      .crypto (.scriptError "extract_script_pub_key_address" reason))
    (upstream.extractScriptPubKeyAddress
      (upstream.payToScriptHashScript redeemScript) manager.addressPrefix)

def kaspaAddressFromPath (manager : AddressManager)
    (walletAddress : WalletAddress) (path : DerivationPath)
    (shouldCache : Bool) : WalletResult (Address × AddressManager) := do
  let address ←
    if manager.isMultisig then manager.multisigAddress upstream path
    else manager.p2pkAddress upstream path
  if shouldCache then
    pure (address,
      { manager with
        addressCache := manager.addressCache.insert walletAddress address })
  else pure (address, manager)

def kaspaAddressFromWalletAddress (manager : AddressManager)
    (walletAddress : WalletAddress) (shouldCache : Bool) :
    WalletResult (Address × AddressManager) :=
  match manager.addressCache.lookup walletAddress with
  | some address => .ok (address, manager)
  | none => do
      let path ←
        calculateAddressPath upstream manager.isMultisig walletAddress
      manager.kaspaAddressFromPath upstream walletAddress path shouldCache

/-- `fetch_add(1) + 1` on the last used internal index. -/
def nextInternalIndex (manager : AddressManager) :
    WalletResult UInt32 × AddressManager :=
  let previous := manager.keysFile.lastUsedInternalIndex
  (if previous = 0xffffffff then .panic else .ok (previous + 1),
    { manager with
      keysFile :=
        { manager.keysFile with lastUsedInternalIndex := previous + 1 } })

/-- Derive the address of a chosen wallet address and enter it in the address
set. -/
def registerAddress (manager : AddressManager)
    (walletAddress : WalletAddress) :
    WalletResult (Address × WalletAddress) × AddressManager :=
  match manager.kaspaAddressFromWalletAddress upstream walletAddress true with
  | .error fault => (.error fault, manager)
  | .ok (address, cached) =>
      (.ok (address, walletAddress),
        { cached with
          addresses := cached.addresses.insert
            (upstream.addressToString address) walletAddress })

/-- `change_address`.  `save` is what writing the keys file returns; an index
that was handed out stays used when a later step fails. -/
def changeAddress (manager : AddressManager)
    (useExistingChangeAddress : Bool) (fromAddresses : List WalletAddress)
    (save : WalletResult Unit) :
    WalletResult (Address × WalletAddress) × AddressManager :=
  match fromAddresses with
  | first :: _ => manager.registerAddress upstream first
  | [] =>
      let (index, bumped) :=
        if useExistingChangeAddress then (.ok 0, manager)
        else manager.nextInternalIndex
      match index, save with
      | .error fault, _ => (.error fault, bumped)
      | .ok _, .error fault => (.error fault, bumped)
      | .ok internalIndex, .ok _ =>
          bumped.registerAddress upstream
            ⟨internalIndex, manager.keysFile.cosignerIndex, .internal⟩

/-- `fetch_add(1) + 1` on the last used external index. -/
def nextExternalIndex (manager : AddressManager) :
    WalletResult UInt32 × AddressManager :=
  let previous := manager.keysFile.lastUsedExternalIndex
  (if previous = 0xffffffff then .panic else .ok (previous + 1),
    { manager with
      keysFile :=
        { manager.keysFile with lastUsedExternalIndex := previous + 1 } })

/-- `new_address`, with what writing the keys file returns. -/
def newAddress (manager : AddressManager) (save : WalletResult Unit) :
    WalletResult (String × WalletAddress) × AddressManager :=
  let (index, bumped) := manager.nextExternalIndex
  match index, save with
  | .error fault, _ => (.error fault, bumped)
  | .ok _, .error fault => (.error fault, bumped)
  | .ok lastUsedExternalIndex, .ok _ =>
      let (registered, left) := bumped.registerAddress upstream
        ⟨lastUsedExternalIndex, manager.keysFile.cosignerIndex, .external⟩
      ((fun (address, walletAddress) =>
          (upstream.addressToString address, walletAddress)) <$> registered,
        left)

/-- The wallet addresses whose index lies in `start..stop`. -/
def walletAddressesBetween (manager : AddressManager)
    (start stop : UInt32) : List WalletAddress :=
  (List.range' start.toNat (stop.toNat - start.toNat)).flatMap fun index =>
    (List.range (manager.keysFile.publicKeys.length % 2 ^ 16)).flatMap
      fun cosignerIndex =>
        [Keychain.external, Keychain.internal].map fun keychain =>
          ⟨UInt32.ofNat index, UInt16.ofNat cosignerIndex, keychain⟩

def askFor (manager : AddressManager) (addresses : AddressSet)
    (walletAddress : WalletAddress) : WalletResult AddressSet := do
  let (address, _) ←
    manager.kaspaAddressFromWalletAddress upstream walletAddress false
  pure (addresses.insert (upstream.addressToString address) walletAddress)

def addressesToQuery (manager : AddressManager) (start stop : UInt32) :
    WalletResult AddressSet :=
  (manager.walletAddressesBetween start stop).foldlM
    (manager.askFor upstream) ∅

/-- The last used index of the keychain becomes at least that of the
address. -/
def raiseLastUsedIndex (keys : Keys) (walletAddress : WalletAddress) : Keys :=
  match walletAddress.keychain with
  | .external =>
      if keys.lastUsedExternalIndex < walletAddress.index then
        { keys with lastUsedExternalIndex := walletAddress.index }
      else keys
  | .internal =>
      if keys.lastUsedInternalIndex < walletAddress.index then
        { keys with lastUsedInternalIndex := walletAddress.index }
      else keys

/-- One turn of the loop over the node's answer.  An address leaves the set at
the first entry that shows it in use. -/
def recordEntry (progress : AddressManager × AddressSet)
    (entry : RpcBalancesByAddressesEntry) : AddressManager × AddressSet :=
  let (manager, addressSet) := progress
  if entry.balance = some 0 then (manager, addressSet)
  else
    let addressString := upstream.addressToString entry.address
    match addressSet.lookup addressString with
    | none => (manager, addressSet)
    | some walletAddress =>
        ({ manager with
            keysFile := raiseLastUsedIndex manager.keysFile walletAddress
            addresses := manager.addresses.insert addressString
              walletAddress },
          addressSet.erase addressString)

def updateAddressesAndLastUsedIndexes (manager : AddressManager)
    (addressSet : AddressSet)
    (getBalancesByAddressesResponse : List RpcBalancesByAddressesEntry)
    (save : WalletResult Unit) : WalletResult Unit × AddressManager :=
  (save, (getBalancesByAddressesResponse.foldl (recordEntry upstream)
    (manager, addressSet)).1)

end Upstream

end AddressManager

end Kaswallet
