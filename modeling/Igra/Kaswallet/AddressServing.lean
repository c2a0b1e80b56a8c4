import Igra.Kaswallet.AddressFreshness

/-!
# What an address manager derives

The addresses of a wallet depend on its extended public keys and on the number
of signatures.  Whatever calls a daemon has served, its manager derives what a
manager that has just started derives, for the cache holds nothing else.
-/

open Kaspa Rust

namespace Kaswallet

/-- The keys files of one wallet differ in the last used indexes only. -/
structure Keys.SameWallet (keys other : Keys) : Prop where
  publicKeys : other.publicKeys = keys.publicKeys
  minimumSignatures : other.minimumSignatures = keys.minimumSignatures
  cosignerIndex : other.cosignerIndex = keys.cosignerIndex

namespace Keys.SameWallet

variable {keys other last : Keys}

theorem refl (keys : Keys) : keys.SameWallet keys :=
  ⟨rfl, rfl, rfl⟩

theorem trans (first : keys.SameWallet other)
    (second : other.SameWallet last) : keys.SameWallet last :=
  ⟨second.publicKeys.trans first.publicKeys,
    second.minimumSignatures.trans first.minimumSignatures,
    second.cosignerIndex.trans first.cosignerIndex⟩

end Keys.SameWallet

namespace AddressManager

variable (upstream : Upstream)

/-- The managers of a daemon that started with the keys and the prefix. -/
inductive Serves (keys : Keys) (addressPrefix : AddressPrefix) :
    AddressManager → Prop where
  | start : Serves keys addressPrefix (.new keys addressPrefix)
  | call {manager : AddressManager} (call : AddressCall)
      (save : WalletResult Unit) :
      Serves keys addressPrefix manager →
      Serves keys addressPrefix (call.perform upstream manager save).2
  | lookup {manager left : AddressManager} {walletAddress : WalletAddress}
      {shouldCache : Bool} {address : Address} :
      Serves keys addressPrefix manager →
      manager.kaspaAddressFromWalletAddress upstream walletAddress
        shouldCache = .ok (address, left) →
      Serves keys addressPrefix left

/-- The address that a manager derives when it has just started. -/
def derivedAddress (keys : Keys) (addressPrefix : AddressPrefix)
    (walletAddress : WalletAddress) : WalletResult Address :=
  Prod.fst <$> (new keys addressPrefix).kaspaAddressFromWalletAddress upstream
    walletAddress false

/-- The manager has the keys of the wallet, and its cache holds addresses
that were derived from them. -/
structure Derives (keys : Keys) (addressPrefix : AddressPrefix)
    (manager : AddressManager) : Prop where
  sameWallet : keys.SameWallet manager.keysFile
  isMultisig_eq : manager.isMultisig = decide (1 < keys.publicKeys.length)
  addressPrefix_eq : manager.addressPrefix = addressPrefix
  cached : ∀ walletAddress address,
    manager.addressCache.lookup walletAddress = some address →
      derivedAddress upstream keys addressPrefix walletAddress = .ok address

variable {upstream} {keys : Keys} {addressPrefix : AddressPrefix}
  {manager left : AddressManager} {walletAddress : WalletAddress}
  {address : Address}

theorem Derives.of_eq (derives : Derives upstream keys addressPrefix manager)
    (sameWallet : manager.keysFile.SameWallet left.keysFile)
    (flag : left.isMultisig = manager.isMultisig)
    (same : left.addressPrefix = manager.addressPrefix)
    (cache : left.addressCache = manager.addressCache) :
    Derives upstream keys addressPrefix left where
  sameWallet := derives.sameWallet.trans sameWallet
  isMultisig_eq := flag.trans derives.isMultisig_eq
  addressPrefix_eq := same.trans derives.addressPrefix_eq
  cached := by
    rw [cache]
    exact derives.cached

/-- The address at a path, before it is cached. -/
def addressAtPath (upstream : Upstream) (manager : AddressManager)
    (path : DerivationPath) : WalletResult Address :=
  if manager.isMultisig then manager.multisigAddress upstream path
  else manager.p2pkAddress upstream path

theorem kaspaAddressFromPath_eq (path : DerivationPath) (shouldCache : Bool) :
    manager.kaspaAddressFromPath upstream walletAddress path shouldCache =
      (fun address => (address,
        if shouldCache then
          { manager with
            addressCache := manager.addressCache.insert walletAddress
              address }
        else manager)) <$> manager.addressAtPath upstream path := by
  have bound (result : WalletResult Address) :
      (result >>= fun address =>
        if shouldCache then
          pure (address,
            { manager with
              addressCache := manager.addressCache.insert walletAddress
                address })
        else pure (address, manager)) =
      (fun address => (address,
        if shouldCache then
          { manager with
            addressCache := manager.addressCache.insert walletAddress
              address }
        else manager)) <$> result := by
    cases result with
    | error fault => rfl
    | ok address => cases shouldCache <;> rfl
  rw [← bound, kaspaAddressFromPath, addressAtPath]
  cases manager.isMultisig <;> rfl

theorem Derives.addressAtPath_eq
    (derives : Derives upstream keys addressPrefix manager)
    (path : DerivationPath) :
    manager.addressAtPath upstream path =
      (new keys addressPrefix).addressAtPath upstream path := by
  obtain ⟨⟨publicKeys, minimumSignatures, -⟩, flag, same, -⟩ := derives
  simp only [addressAtPath, multisigAddress, p2pkAddress, publicKeys,
    minimumSignatures, flag, same, new]
  rfl

theorem derivedAddress_eq (upstream : Upstream) (keys : Keys)
    (addressPrefix : AddressPrefix) (walletAddress : WalletAddress) :
    derivedAddress upstream keys addressPrefix walletAddress =
      (calculateAddressPath upstream (decide (1 < keys.publicKeys.length))
          walletAddress >>=
        (new keys addressPrefix).addressAtPath upstream) := by
  have uncached :
      (new keys addressPrefix).addressCache.lookup walletAddress = none :=
    rfl
  rw [derivedAddress, kaspaAddressFromWalletAddress, uncached]
  simp only [kaspaAddressFromPath_eq, map_bind, Functor.map_map]
  simp [new]

/-- Every manager of the wallet derives the same. -/
theorem Derives.fst_kaspaAddress
    (derives : Derives upstream keys addressPrefix manager)
    (walletAddress : WalletAddress) (shouldCache : Bool) :
    Prod.fst <$> manager.kaspaAddressFromWalletAddress upstream
        walletAddress shouldCache =
      derivedAddress upstream keys addressPrefix walletAddress := by
  unfold kaspaAddressFromWalletAddress
  split
  · rename_i address found
    exact (derives.cached _ _ found).symm
  · simp only [kaspaAddressFromPath_eq, map_bind, Functor.map_map]
    rw [derivedAddress_eq, derives.isMultisig_eq]
    refine congrArg _ (funext fun path => ?_)
    rw [derives.addressAtPath_eq, id_map']

theorem Derives.kaspaAddress {shouldCache : Bool}
    (derives : Derives upstream keys addressPrefix manager)
    (derived : manager.kaspaAddressFromWalletAddress upstream walletAddress
      shouldCache = .ok (address, left)) :
    derivedAddress upstream keys addressPrefix walletAddress =
        .ok address ∧
      Derives upstream keys addressPrefix left := by
  have own := derives.fst_kaspaAddress walletAddress shouldCache
  rw [derived] at own
  refine ⟨own.symm, ?_⟩
  unfold kaspaAddressFromWalletAddress at derived
  split at derived
  · cases derived
    exact derives
  · simp only [kaspaAddressFromPath_eq, Outcome.bind_eq_ok,
      Outcome.map_eq_ok] at derived
    obtain ⟨path, -, _, -, stored⟩ := derived
    cases stored
    cases shouldCache with
    | false => exact derives
    | true =>
        refine ⟨derives.sameWallet, derives.isMultisig_eq,
          derives.addressPrefix_eq, ?_⟩
        intro other otherAddress found
        by_cases same : other = walletAddress
        · subst same
          rw [if_pos rfl, AList.lookup_insert] at found
          cases found
          exact own.symm
        · rw [if_pos rfl, AList.lookup_insert_ne same] at found
          exact derives.cached other otherAddress found

theorem Derives.registerAddress
    (derives : Derives upstream keys addressPrefix manager) :
    Derives upstream keys addressPrefix
        (manager.registerAddress upstream walletAddress).2 ∧
      ∀ registered,
        (manager.registerAddress upstream walletAddress).1 =
          .ok registered →
        derivedAddress upstream keys addressPrefix registered.2 =
          .ok registered.1 := by
  unfold AddressManager.registerAddress
  split
  · exact ⟨derives, by simp⟩
  · rename_i derived
    obtain ⟨own, kept⟩ := derives.kaspaAddress derived
    refine ⟨kept.of_eq (.refl _) rfl rfl rfl, ?_⟩
    intro registered same
    cases same
    exact own

theorem Derives.changeAddress {useExistingChangeAddress : Bool}
    {fromAddresses : List WalletAddress} {save : WalletResult Unit}
    (derives : Derives upstream keys addressPrefix manager) :
    Derives upstream keys addressPrefix
        (manager.changeAddress upstream useExistingChangeAddress
          fromAddresses save).2 ∧
      ∀ change,
        (manager.changeAddress upstream useExistingChangeAddress
          fromAddresses save).1 = .ok change →
        derivedAddress upstream keys addressPrefix change.2 =
          .ok change.1 := by
  unfold AddressManager.changeAddress
  split
  · exact derives.registerAddress
  · split
    rename_i index bumped taken
    have bumpedDerives : Derives upstream keys addressPrefix bumped := by
      split at taken <;> cases taken
      · exact derives
      · exact derives.of_eq ⟨rfl, rfl, rfl⟩ rfl rfl rfl
    split
    · exact ⟨bumpedDerives, by simp⟩
    · exact ⟨bumpedDerives, by simp⟩
    · exact bumpedDerives.registerAddress

theorem Derives.recordEntry {progress : AddressManager × AddressSet}
    (derives : Derives upstream keys addressPrefix progress.1)
    (entry : RpcBalancesByAddressesEntry) :
    Derives upstream keys addressPrefix
      (recordEntry upstream progress entry).1 := by
  unfold AddressManager.recordEntry
  dsimp only
  split
  · exact derives
  · split
    · exact derives
    · refine derives.of_eq ?_ rfl rfl rfl
      unfold raiseLastUsedIndex
      split <;> split <;> exact ⟨rfl, rfl, rfl⟩

theorem Derives.perform
    (derives : Derives upstream keys addressPrefix manager)
    (call : AddressCall) (save : WalletResult Unit) :
    Derives upstream keys addressPrefix
      (call.perform upstream manager save).2 := by
  cases call with
  | newAddress =>
      have bumped : Derives upstream keys addressPrefix
          manager.nextExternalIndex.2 :=
        derives.of_eq ⟨rfl, rfl, rfl⟩ rfl rfl rfl
      simp only [AddressCall.perform, AddressManager.newAddress]
      split
      · exact bumped
      · exact bumped
      · exact bumped.registerAddress.1
  | changeAddress useExisting fromAddresses => exact derives.changeAddress.1
  | updateAddressesAndLastUsedIndexes addressSet response =>
      have recorded (progress : AddressManager × AddressSet)
          (kept : Derives upstream keys addressPrefix progress.1) :
          Derives upstream keys addressPrefix
            (response.foldl (AddressManager.recordEntry upstream)
              progress).1 := by
        induction response generalizing progress with
        | nil => exact kept
        | cons entry rest ih => exact ih _ (kept.recordEntry entry)
      exact recorded _ derives

theorem derives_new {other : Keys} (same : keys.SameWallet other) :
    Derives upstream keys addressPrefix (new other addressPrefix) where
  sameWallet := same
  isMultisig_eq := by rw [new, same.publicKeys]
  addressPrefix_eq := rfl
  cached := by
    intro walletAddress address found
    cases found

theorem Serves.derives
    (serves : Serves upstream keys addressPrefix manager) :
    Derives upstream keys addressPrefix manager := by
  induction serves with
  | start => exact derives_new (.refl keys)
  | call call save _ ih => exact ih.perform call save
  | lookup _ derived ih => exact (ih.kaspaAddress derived).2

private theorem derivedAddress_sameWallet {other : Keys}
    (same : keys.SameWallet other) (walletAddress : WalletAddress) :
    derivedAddress upstream other addressPrefix walletAddress =
      derivedAddress upstream keys addressPrefix walletAddress :=
  (derives_new same).fst_kaspaAddress walletAddress false

theorem Derives.of_sameWallet {other : Keys}
    (derives : Derives upstream other addressPrefix manager)
    (same : keys.SameWallet other) :
    Derives upstream keys addressPrefix manager where
  sameWallet := same.trans derives.sameWallet
  isMultisig_eq := by rw [derives.isMultisig_eq, same.publicKeys]
  addressPrefix_eq := derives.addressPrefix_eq
  cached walletAddress address found :=
    (derivedAddress_sameWallet same walletAddress).symm.trans
      (derives.cached walletAddress address found)

end AddressManager

end Kaswallet
