import Igra.Kaswallet.TransactionGenerator
import Igra.Runs

/-!
# Fresh addresses

The daemon hands out new addresses, chooses change addresses and records what
the node reports as used, one call at a time, and saves the keys file in each.
A crash loses the memory; the next start loads the file.  The log of a state
holds every newly allocated address that was returned, before any restart too,
and what the node reported since the last one.
-/

open Kaspa Rust

namespace Kaswallet

def Keychain.lastUsedIndex (keys : Keys) : Keychain → UInt32
  | .external => keys.lastUsedExternalIndex
  | .internal => keys.lastUsedInternalIndex

def Keychain.savedIndex (keysJson : KeysJson) : Keychain → UInt32
  | .external => keysJson.lastUsedExternalIndex
  | .internal => keysJson.lastUsedInternalIndex

/-- A call of the address manager. -/
inductive AddressCall where
  | newAddress
  | changeAddress (useExistingChangeAddress : Bool)
      (fromAddresses : List WalletAddress)
  | updateAddressesAndLastUsedIndexes (addressSet : AddressSet)
      (response : List RpcBalancesByAddressesEntry)

/-- The daemon crashes during a call, before or after the file is replaced. -/
inductive AddressEvent where
  | call (call : AddressCall) (save : WalletResult Unit)
  | crash (call : AddressCall) (replaced : Bool)

structure AddressBookState where
  manager : AddressManager
  disk : KeysJson
  returned : List WalletAddress
  reported : List WalletAddress

namespace AddressCall

section Upstream

variable (upstream : Upstream)

/-- The newly allocated address that the call returns, if any, and the
manager it leaves. -/
def perform (manager : AddressManager) (save : WalletResult Unit) :
    AddressCall → Option WalletAddress × AddressManager
  | .newAddress =>
      let (result, left) := manager.newAddress upstream save
      (result.toOption.map Prod.snd, left)
  | .changeAddress useExistingChangeAddress fromAddresses =>
      let (result, left) := manager.changeAddress upstream
        useExistingChangeAddress fromAddresses save
      (if useExistingChangeAddress = false ∧ fromAddresses = [] then
          result.toOption.map Prod.snd
        else none,
        left)
  | .updateAddressesAndLastUsedIndexes addressSet response =>
      (none, (manager.updateAddressesAndLastUsedIndexes upstream addressSet
        response save).2)

/-- Whether the call reaches `Keys::save`. -/
def saves (manager : AddressManager) : AddressCall → Bool
  | .newAddress => manager.keysFile.lastUsedExternalIndex != 0xffffffff
  | .changeAddress useExistingChangeAddress fromAddresses =>
      fromAddresses.isEmpty && (useExistingChangeAddress ||
        manager.keysFile.lastUsedInternalIndex != 0xffffffff)
  | .updateAddressesAndLastUsedIndexes _ _ => true

/-- The addresses of the set that the node reports as used. -/
def reportedAddresses : AddressCall → List WalletAddress
  | .updateAddressesAndLastUsedIndexes addressSet response =>
      response.filterMap fun entry =>
        if entry.balance = some 0 then none
        else addressSet.lookup (upstream.addressToString entry.address)
  | _ => []

end Upstream

end AddressCall

section Steps

variable (upstream : Upstream) (text : PublicKeyText) (filePath : String)
  (addressPrefix : AddressPrefix)

/-- The keys file when the call was to replace it, and did or did not. -/
def AddressBookState.diskAfter (state : AddressBookState)
    (call : AddressCall) (replaced : Bool) : KeysJson :=
  if call.saves state.manager && replaced then
    (call.perform upstream state.manager (.ok ())).2.keysFile.toJson text
  else state.disk

/-- A call that runs to its end, with what writing the keys file returns. -/
def AddressBookState.afterCall (state : AddressBookState)
    (call : AddressCall) (save : WalletResult Unit) : AddressBookState :=
  let (allocated, left) := call.perform upstream state.manager save
  { manager := left
    disk := state.diskAfter upstream text call save.isOk
    returned := state.returned ++ allocated.toList
    reported := state.reported ++ call.reportedAddresses upstream }

/-- A crash during a call, and the start with the keys that the file has. -/
def AddressBookState.afterCrash (state : AddressBookState)
    (call : AddressCall) (replaced : Bool) (keys : Keys) :
    AddressBookState where
  manager := .new keys addressPrefix
  disk := state.diskAfter upstream text call replaced
  returned := state.returned
  reported := []

inductive AddressStep : AddressBookState → AddressEvent →
    AddressBookState → Prop where
  | call (state : AddressBookState) (call : AddressCall)
      (save : WalletResult Unit) :
      AddressStep state (.call call save)
        (state.afterCall upstream text call save)
  | crash {state : AddressBookState} {call : AddressCall} {replaced : Bool}
      {keys : Keys} :
      (state.diskAfter upstream text call replaced).toKeys text filePath =
        .ok keys →
      AddressStep state (.crash call replaced)
        (state.afterCrash upstream text addressPrefix call replaced keys)

/-- The daemon has just loaded the keys file. -/
structure AddressBookState.Started (state : AddressBookState) : Prop where
  loaded : ∃ keys, state.disk.toKeys text filePath = .ok keys ∧
    state.manager = .new keys addressPrefix
  returned : state.returned = []
  reported : state.reported = []

end Steps

def AddressManager.IndexesBelow (bound : UInt32)
    (manager : AddressManager) : Prop :=
  ∀ keychain : Keychain, keychain.lastUsedIndex manager.keysFile < bound

theorem lt_succ_of_lt_half {index : UInt32} (below : index < 0x80000000) :
    index < index + 1 := by
  rw [UInt32.lt_iff_toNat_lt] at below ⊢
  rw [UInt32.toNat_add]
  simp only [UInt32.reduceToNat] at below ⊢
  omega

namespace AddressManager

variable {upstream : Upstream} {manager left : AddressManager}
  {walletAddress : WalletAddress} {save : WalletResult Unit}

theorem keysFile_of_kaspaAddressFromPath {path : DerivationPath}
    {shouldCache : Bool} {address : Address}
    (derived : manager.kaspaAddressFromPath upstream walletAddress path
      shouldCache = .ok (address, left)) :
    left.keysFile = manager.keysFile := by
  have kept {address' : Address}
      (chosen : (if shouldCache then
          pure (address',
            { manager with
              addressCache :=
                manager.addressCache.insert walletAddress address' })
        else pure (address', manager) :
          WalletResult (Address × AddressManager)) = .ok (address, left)) :
      left.keysFile = manager.keysFile := by
    split at chosen <;> cases chosen <;> rfl
  unfold kaspaAddressFromPath at derived
  dsimp only at derived
  split at derived
  · obtain ⟨found, _, chosen⟩ := Outcome.bind_eq_ok.mp derived
    exact kept chosen
  · obtain ⟨found, _, chosen⟩ := Outcome.bind_eq_ok.mp derived
    exact kept chosen

private theorem keysFile_of_kaspaAddress {shouldCache : Bool}
    {address : Address}
    (derived : manager.kaspaAddressFromWalletAddress upstream walletAddress
      shouldCache = .ok (address, left)) :
    left.keysFile = manager.keysFile := by
  unfold kaspaAddressFromWalletAddress at derived
  split at derived
  · cases derived
    rfl
  · obtain ⟨path, _, derived⟩ := Outcome.bind_eq_ok.mp derived
    exact keysFile_of_kaspaAddressFromPath derived

@[simp] theorem registerAddress_keysFile :
    (manager.registerAddress upstream walletAddress).2.keysFile =
      manager.keysFile := by
  unfold registerAddress
  split
  case h_1 => rfl
  case h_2 derived => exact (keysFile_of_kaspaAddress derived :)

theorem eq_of_registerAddress {address : Address} {registered : WalletAddress}
    (entered : (manager.registerAddress upstream walletAddress).1 =
      .ok (address, registered)) :
    registered = walletAddress := by
  unfold registerAddress at entered
  split at entered
  · cases entered
  · cases entered
    rfl

theorem raiseLastUsedIndex_spec (keys : Keys) (walletAddress : WalletAddress) :
    (∀ keychain : Keychain, keychain.lastUsedIndex keys ≤
      keychain.lastUsedIndex (raiseLastUsedIndex keys walletAddress)) ∧
    walletAddress.index ≤ walletAddress.keychain.lastUsedIndex
      (raiseLastUsedIndex keys walletAddress) := by
  unfold raiseLastUsedIndex
  constructor
  · intro keychain
    cases keychain <;> split <;> split <;>
      simp only [Keychain.lastUsedIndex] <;> grind
  · split
    case h_1 external =>
      split <;> simp_all [Keychain.lastUsedIndex]
    case h_2 internal =>
      split <;> simp_all [Keychain.lastUsedIndex]

private theorem lastUsedIndex_le_recordEntry
    (progress : AddressManager × AddressSet)
    (entry : RpcBalancesByAddressesEntry) (keychain : Keychain) :
    keychain.lastUsedIndex progress.1.keysFile ≤
      keychain.lastUsedIndex (recordEntry upstream progress entry).1.keysFile := by
  unfold recordEntry
  dsimp only
  split
  · exact UInt32.le_refl _
  · split
    · exact UInt32.le_refl _
    · exact (raiseLastUsedIndex_spec _ _).1 keychain

theorem lastUsedIndex_le_foldl_recordEntry
    (response : List RpcBalancesByAddressesEntry)
    (progress : AddressManager × AddressSet) (keychain : Keychain) :
    keychain.lastUsedIndex progress.1.keysFile ≤
      keychain.lastUsedIndex
        (response.foldl (recordEntry upstream) progress).1.keysFile := by
  induction response generalizing progress with
  | nil => exact UInt32.le_refl _
  | cons entry rest ih =>
      exact UInt32.le_trans (lastUsedIndex_le_recordEntry progress entry keychain)
        (ih (recordEntry upstream progress entry))

/-- An address of the set that the node reports as used ends at or below the
last used index, also when an earlier entry took it out of the set. -/
theorem reported_le_lastUsedIndex
    {response : List RpcBalancesByAddressesEntry}
    (progress : AddressManager × AddressSet)
    {entry : RpcBalancesByAddressesEntry} (member : entry ∈ response)
    (used : entry.balance ≠ some 0)
    (found : progress.2.lookup (upstream.addressToString entry.address) =
      some walletAddress) :
    walletAddress.index ≤ walletAddress.keychain.lastUsedIndex
      (response.foldl (recordEntry upstream) progress).1.keysFile := by
  induction response generalizing progress with
  | nil => cases member
  | cons first rest ih =>
      have settled
          (recorded : walletAddress.index ≤
            walletAddress.keychain.lastUsedIndex
              (recordEntry upstream progress first).1.keysFile) :
          walletAddress.index ≤ walletAddress.keychain.lastUsedIndex
            ((first :: rest).foldl (recordEntry upstream)
              progress).1.keysFile :=
        UInt32.le_trans recorded (lastUsedIndex_le_foldl_recordEntry rest _ _)
      by_cases same : upstream.addressToString entry.address =
          upstream.addressToString first.address
      · by_cases zero : first.balance = some 0
        · have skipped : recordEntry upstream progress first = progress := by
            simp [recordEntry, zero]
          rcases List.mem_cons.mp member with here | later
          · exact absurd (here ▸ zero) used
          · rw [List.foldl_cons, skipped]
            exact ih progress later found
        · apply settled
          rw [same] at found
          simp only [recordEntry, zero, if_false, found]
          exact (raiseLastUsedIndex_spec _ _).2
      · rcases List.mem_cons.mp member with here | later
        · exact absurd (here ▸ rfl) same
        · rw [List.foldl_cons]
          apply ih _ later
          unfold recordEntry
          dsimp only
          split
          · exact found
          · split
            · exact found
            · simpa [AList.lookup_erase_ne same] using found

/-- Whatever becomes of the call, the external index is taken. -/
theorem newAddress_keysFile :
    (manager.newAddress upstream save).2.keysFile =
      manager.nextExternalIndex.2.keysFile := by
  unfold newAddress
  split
  rename_i index bumped taken
  rw [taken]
  split <;> simp

theorem newAddress_spec {returned : String × WalletAddress}
    (allocated : (manager.newAddress upstream save).1 = .ok returned) :
    save = .ok () ∧
    returned.2 = ⟨manager.keysFile.lastUsedExternalIndex + 1,
      manager.keysFile.cosignerIndex, .external⟩ := by
  unfold newAddress at allocated
  dsimp only [nextExternalIndex] at allocated
  split at allocated
  · cases allocated
  · cases allocated
  · rename_i index _ taken
    obtain ⟨⟨address, registered⟩, entered, rfl⟩ :=
      Outcome.map_eq_ok.mp allocated
    have increased :
        manager.keysFile.lastUsedExternalIndex + 1 = index := by
      split at taken
      · cases taken
      · cases taken
        rfl
    exact ⟨rfl, (eq_of_registerAddress entered).trans (by rw [increased])⟩

/-- An internal index is taken when there is neither an address to give the
change back to nor an existing one to use. -/
theorem changeAddress_keysFile {useExistingChangeAddress : Bool}
    {fromAddresses : List WalletAddress} :
    (manager.changeAddress upstream useExistingChangeAddress fromAddresses
        save).2.keysFile =
      if useExistingChangeAddress = false ∧ fromAddresses = [] then
        manager.nextInternalIndex.2.keysFile
      else manager.keysFile := by
  unfold changeAddress
  cases fromAddresses with
  | cons first rest => simp
  | nil =>
      cases useExistingChangeAddress with
      | true =>
          dsimp only
          split <;> simp_all
      | false =>
          dsimp only
          split <;> simp_all

theorem changeAddress_spec {returned : Address × WalletAddress}
    (allocated : (manager.changeAddress upstream false [] save).1 =
      .ok returned) :
    save = .ok () ∧
    returned.2 = ⟨manager.keysFile.lastUsedInternalIndex + 1,
      manager.keysFile.cosignerIndex, .internal⟩ := by
  unfold changeAddress at allocated
  dsimp only [nextInternalIndex] at allocated
  split at allocated
  · cases allocated
  · cases allocated
  · rename_i index _ taken
    have increased :
        manager.keysFile.lastUsedInternalIndex + 1 = index := by
      by_cases last : manager.keysFile.lastUsedInternalIndex = 0xffffffff
      · simp [last] at taken
      · simpa [last] using taken
    obtain ⟨address, registered⟩ := returned
    exact ⟨rfl, (eq_of_registerAddress allocated).trans (by rw [increased])⟩

end AddressManager

namespace AddressCall

variable {upstream : Upstream} {manager : AddressManager}
  {call : AddressCall} {save : WalletResult Unit}

theorem lastUsedIndex_le_perform (upstream : Upstream) (call : AddressCall)
    (save : WalletResult Unit)
    (below : manager.IndexesBelow 0x80000000) (keychain : Keychain) :
    keychain.lastUsedIndex manager.keysFile ≤ keychain.lastUsedIndex
      (call.perform upstream manager save).2.keysFile := by
  have increased := UInt32.le_of_lt (lt_succ_of_lt_half (below keychain))
  cases call with
  | newAddress =>
      dsimp only [perform]
      rw [AddressManager.newAddress_keysFile]
      cases keychain with
      | external => exact increased
      | internal => exact UInt32.le_refl _
  | changeAddress useExistingChangeAddress fromAddresses =>
      dsimp only [perform]
      rw [AddressManager.changeAddress_keysFile]
      split
      · cases keychain with
        | external => exact UInt32.le_refl _
        | internal => exact increased
      · exact UInt32.le_refl _
  | updateAddressesAndLastUsedIndexes addressSet response =>
      exact AddressManager.lastUsedIndex_le_foldl_recordEntry response
        (manager, addressSet) keychain

/-- A newly allocated address has the next index of its keychain, and the
keys file was written with it. -/
theorem allocated_spec {walletAddress : WalletAddress}
    (below : manager.IndexesBelow 0x80000000)
    (allocated : (call.perform upstream manager save).1 =
      some walletAddress) :
    save = .ok () ∧ call.saves manager = true ∧
    walletAddress.keychain.lastUsedIndex manager.keysFile <
      walletAddress.index ∧
    walletAddress.keychain.lastUsedIndex
        (call.perform upstream manager save).2.keysFile =
      walletAddress.index := by
  have increased (keychain : Keychain) := lt_succ_of_lt_half (below keychain)
  have notLast (keychain : Keychain) :
      keychain.lastUsedIndex manager.keysFile ≠ 0xffffffff := by
    intro last
    exact absurd (last ▸ below keychain) (by decide)
  cases call with
  | newAddress =>
      dsimp only [perform] at allocated ⊢
      obtain ⟨⟨text, registered⟩, returned, rfl⟩ :=
        Option.map_eq_some_iff.mp allocated
      obtain ⟨saved, rfl⟩ :=
        AddressManager.newAddress_spec (Outcome.toOption_eq_some.mp returned)
      refine ⟨saved, ?_, increased .external, ?_⟩
      · simpa [saves, Keychain.lastUsedIndex] using notLast .external
      · rw [AddressManager.newAddress_keysFile]
        rfl
  | changeAddress useExistingChangeAddress fromAddresses =>
      dsimp only [perform] at allocated ⊢
      split at allocated
      · rename_i fresh
        obtain ⟨rfl, rfl⟩ := fresh
        obtain ⟨⟨text, registered⟩, returned, rfl⟩ :=
          Option.map_eq_some_iff.mp allocated
        obtain ⟨saved, rfl⟩ := AddressManager.changeAddress_spec
          (Outcome.toOption_eq_some.mp returned)
        refine ⟨saved, ?_, increased .internal, ?_⟩
        · simpa [saves, Keychain.lastUsedIndex] using notLast .internal
        · rw [AddressManager.changeAddress_keysFile]
          rfl
      · cases allocated
  | updateAddressesAndLastUsedIndexes addressSet response =>
      cases allocated

theorem reportedAddresses_le {walletAddress : WalletAddress}
    (reported : walletAddress ∈ call.reportedAddresses upstream) :
    walletAddress.index ≤ walletAddress.keychain.lastUsedIndex
      (call.perform upstream manager save).2.keysFile := by
  cases call with
  | newAddress => cases reported
  | changeAddress _ _ => cases reported
  | updateAddressesAndLastUsedIndexes addressSet response =>
      obtain ⟨entry, member, found⟩ := List.mem_filterMap.mp reported
      split at found
      · cases found
      · rename_i used
        exact AddressManager.reported_le_lastUsedIndex
          (manager, addressSet) member used found

end AddressCall

section Runs

variable {upstream : Upstream} {text : PublicKeyText} {filePath : String}
  {addressPrefix : AddressPrefix}

theorem lastUsedIndex_of_toKeys {keysJson : KeysJson} {keys : Keys}
    (loaded : keysJson.toKeys text filePath = .ok keys)
    (keychain : Keychain) :
    keychain.lastUsedIndex keys = keychain.savedIndex keysJson := by
  unfold KeysJson.toKeys at loaded
  obtain ⟨publicKeys, _, loaded⟩ := Outcome.bind_eq_ok.mp loaded
  cases loaded
  cases keychain <;> rfl

/-- The keys that were written are loaded. -/
theorem toKeys_toJson {keys : Keys}
    (parses : ∀ key ∈ keys.publicKeys,
      text.parse (text.format key) = .ok key) :
    (keys.toJson text).toKeys text filePath = .ok keys := by
  have collected : Outcome.collect
      (fun key => mapError
        (fun reason => .crypto (.keyFileMalformed filePath
          s!"invalid extended public key {text.quote key}: {reason}"))
        (text.parse key)) (keys.publicKeys.map text.format) =
      .ok keys.publicKeys :=
    Outcome.collect_map_eq_ok fun key member =>
      mapError_eq_ok.mpr (parses key member)
  exact Outcome.bind_eq_ok.mpr ⟨keys.publicKeys, collected, rfl⟩

/-- What was returned is on disk, and what was reported is in memory. -/
structure AddressBookState.Recorded (state : AddressBookState) : Prop where
  disk : ∀ keychain : Keychain, keychain.savedIndex state.disk ≤
    keychain.lastUsedIndex state.manager.keysFile
  returned : ∀ walletAddress ∈ state.returned,
    walletAddress.index ≤ walletAddress.keychain.savedIndex state.disk
  reported : ∀ walletAddress ∈ state.reported,
    walletAddress.index ≤
      walletAddress.keychain.lastUsedIndex state.manager.keysFile

theorem AddressBookState.Started.recorded {state : AddressBookState}
    (started : state.Started text filePath addressPrefix) :
    state.Recorded := by
  obtain ⟨keys, loaded, loadedManager⟩ := started.loaded
  constructor
  · intro keychain
    rw [loadedManager]
    exact UInt32.le_of_eq (lastUsedIndex_of_toKeys loaded keychain).symm
  · simp [started.returned]
  · simp [started.reported]

/-- The file after a call has at least the indexes it had, and at most those
the call leaves in memory. -/
theorem AddressBookState.Recorded.diskAfter (upstream : Upstream)
    (text : PublicKeyText) {state : AddressBookState}
    (recorded : state.Recorded)
    (below : state.manager.IndexesBelow 0x80000000)
    (call : AddressCall) (replaced : Bool) (keychain : Keychain) :
    keychain.savedIndex state.disk ≤
        keychain.savedIndex
          (state.diskAfter upstream text call replaced) ∧
    (∀ save, replaced = save.isOk →
      keychain.savedIndex (state.diskAfter upstream text call replaced) ≤
        keychain.lastUsedIndex
          (call.perform upstream state.manager save).2.keysFile) := by
  have written (save : WalletResult Unit) :
      keychain.savedIndex
          ((call.perform upstream state.manager save).2.keysFile.toJson
            text) =
        keychain.lastUsedIndex
          (call.perform upstream state.manager save).2.keysFile := by
    cases keychain <;> rfl
  have kept (save : WalletResult Unit) :
      keychain.savedIndex state.disk ≤ keychain.lastUsedIndex
        (call.perform upstream state.manager save).2.keysFile :=
    UInt32.le_trans (recorded.disk keychain)
      (AddressCall.lastUsedIndex_le_perform upstream call save below keychain)
  unfold AddressBookState.diskAfter
  split
  · rename_i replacing
    rw [written]
    refine ⟨kept (.ok ()), ?_⟩
    intro save succeeded
    cases save with
    | ok _ => exact UInt32.le_refl _
    | error fault =>
        rw [succeeded] at replacing
        simp [Except.isOk, Except.toBool] at replacing
  · exact ⟨UInt32.le_refl _, fun save _ => kept save⟩

theorem AddressBookState.Recorded.afterCall {state : AddressBookState}
    (recorded : state.Recorded)
    (below : state.manager.IndexesBelow 0x80000000)
    (call : AddressCall) (save : WalletResult Unit) :
    (state.afterCall upstream text call save).Recorded := by
  constructor
  · intro keychain
    exact (recorded.diskAfter upstream text below call save.isOk
      keychain).2 save rfl
  · intro walletAddress member
    rcases List.mem_append.mp member with earlier | fresh
    · exact UInt32.le_trans (recorded.returned walletAddress earlier)
        (recorded.diskAfter upstream text below call save.isOk _).1
    · obtain ⟨rfl, saves, _, last⟩ :=
        AddressCall.allocated_spec below (Option.mem_toList.mp fresh)
      have written : (state.afterCall upstream text call (.ok ())).disk =
          (call.perform upstream state.manager
            (.ok ())).2.keysFile.toJson text := by
        simp [AddressBookState.afterCall, AddressBookState.diskAfter, saves,
          Except.isOk, Except.toBool]
      rw [written]
      apply UInt32.le_of_eq
      apply last.symm.trans
      cases walletAddress.keychain <;> rfl
  · intro walletAddress member
    rcases List.mem_append.mp member with earlier | fresh
    · exact UInt32.le_trans (recorded.reported walletAddress earlier)
        (AddressCall.lastUsedIndex_le_perform upstream call save below _)
    · exact AddressCall.reportedAddresses_le fresh

theorem AddressBookState.Recorded.afterCrash {state : AddressBookState}
    (recorded : state.Recorded)
    (below : state.manager.IndexesBelow 0x80000000)
    {call : AddressCall} {replaced : Bool} {keys : Keys}
    (loaded : (state.diskAfter upstream text call replaced).toKeys text
      filePath = .ok keys) :
    (state.afterCrash upstream text addressPrefix call replaced
      keys).Recorded := by
  constructor
  · intro keychain
    exact UInt32.le_of_eq (lastUsedIndex_of_toKeys loaded keychain).symm
  · intro walletAddress member
    exact UInt32.le_trans (recorded.returned walletAddress member)
      (recorded.diskAfter upstream text below _ _ _).1
  · intro walletAddress member
    cases member

/-- In each state that a run of the daemon reaches, a call lowers no last used
index, and an address that it newly allocates and returns has a greater index
than those returned before on its keychain, across restarts, and than those
the node reported on it since the last start. -/
theorem allocated_addresses_are_fresh
    {start state next : AddressBookState} {events : List AddressEvent}
    {event : AddressEvent}
    (started : start.Started text filePath addressPrefix)
    (run : Runs.Run
      (Runs.restrict
        (fun state _ => state.manager.IndexesBelow 0x80000000)
        (AddressStep upstream text filePath addressPrefix))
      start events state)
    (below : state.manager.IndexesBelow 0x80000000)
    (taken : AddressStep upstream text filePath addressPrefix state event
      next) :
    (∀ call save, event = .call call save → ∀ keychain : Keychain,
      keychain.lastUsedIndex state.manager.keysFile ≤
        keychain.lastUsedIndex next.manager.keysFile) ∧
    (∀ walletAddress, next.returned = state.returned ++ [walletAddress] →
      ∀ earlier ∈ state.returned ++ state.reported,
        earlier.keychain = walletAddress.keychain →
        earlier.index < walletAddress.index) := by
  have recorded : state.Recorded := by
    apply run.preserves started.recorded
    rintro state label next recorded ⟨below, taken⟩
    cases taken with
    | call call save => exact recorded.afterCall below call save
    | crash loaded => exact recorded.afterCrash below loaded
  cases taken with
  | crash loaded =>
      constructor
      · intro call save replaced
        cases replaced
      · intro walletAddress grown
        exact absurd grown (by simp [AddressBookState.afterCrash])
  | call call save =>
      constructor
      · intro _ _ _ keychain
        exact AddressCall.lastUsedIndex_le_perform upstream call save below
          keychain
      · intro walletAddress grown earlier member sameKeychain
        have fresh : (call.perform upstream state.manager save).1 =
            some walletAddress :=
          Option.toList_eq_singleton_iff.mp (List.append_cancel_left grown)
        obtain ⟨_, _, later, _⟩ := AddressCall.allocated_spec below fresh
        rw [← sameKeychain] at later
        rcases List.mem_append.mp member with returned | reported
        · have bounded := UInt32.le_trans
            (recorded.returned earlier returned) (recorded.disk _)
          exact UInt32.lt_of_le_of_lt bounded later
        · exact UInt32.lt_of_le_of_lt (recorded.reported earlier reported)
            later

end Runs

section AfterCrash

open TransactionGenerator

def plainText : PublicKeyText where
  format key := String.ofList (key.serialized.map fun byte =>
    Char.ofNat byte.toNat)
  parse text := .ok ⟨text.toList.map fun char => UInt8.ofNat char.toNat⟩
  quote := String.quote

def startedBook : AddressBookState where
  manager := .new (sampleKeys 1) .devnet
  disk := (sampleKeys 1).toJson plainText
  returned := []
  reported := []

/-- The node reports the address with external index 7. -/
def seventhReported : AddressCall :=
  .updateAddressesAndLastUsedIndexes
    ((∅ : AddressSet).insert (devnet.addressToString (sampleAddress 7))
      ⟨7, 0, .external⟩)
    [⟨sampleAddress 7, some 5⟩]

/-- A second address is taken and saved, but a crash comes before it is
returned. -/
def bookAfterCrash : AddressBookState :=
  let first := startedBook.afterCall devnet plainText .newAddress (.ok ())
  let keys := (AddressCall.newAddress.perform devnet first.manager
    (.ok ())).2.keysFile
  first.afterCrash devnet plainText .devnet .newAddress true keys

def reportedBook : AddressBookState :=
  bookAfterCrash.afterCall devnet plainText seventhReported (.ok ())

theorem allocated_addresses_are_fresh_after_crash :
    reportedBook.returned = [⟨1, 0, .external⟩] ∧
    reportedBook.reported = [⟨7, 0, .external⟩] ∧
    (reportedBook.afterCall devnet plainText .newAddress
      (.ok ())).returned = reportedBook.returned ++ [⟨8, 0, .external⟩] ∧
    ∀ earlier ∈ reportedBook.returned ++ reportedBook.reported,
      earlier.keychain = .external → earlier.index < 8 := by
  have grown : (reportedBook.afterCall devnet plainText .newAddress
      (.ok ())).returned = reportedBook.returned ++ [⟨8, 0, .external⟩] := by
    decide +kernel
  refine ⟨by decide +kernel, by decide +kernel, grown, ?_⟩
  have parses : ∀ key ∈ (sampleKeys 1).publicKeys,
      plainText.parse (plainText.format key) = .ok key := by
    decide +kernel
  have started : startedBook.Started plainText "keys.json" .devnet :=
    ⟨⟨sampleKeys 1, toKeys_toJson parses, rfl⟩, rfl, rfl⟩
  have below (state : AddressBookState)
      (small : state.manager.keysFile.lastUsedExternalIndex < 0x80000000 ∧
        state.manager.keysFile.lastUsedInternalIndex < 0x80000000) :
      state.manager.IndexesBelow 0x80000000 := by
    intro keychain
    cases keychain with
    | external => exact small.1
    | internal => exact small.2
  have run : Runs.Run
      (Runs.restrict
        (fun state _ => state.manager.IndexesBelow 0x80000000)
        (AddressStep devnet plainText "keys.json" .devnet))
      startedBook
      [.call .newAddress (.ok ()), .crash .newAddress true,
        .call seventhReported (.ok ())] reportedBook := by
    refine .extend (.extend (.extend .start
      ⟨below _ (by decide +kernel), .call _ _ _⟩)
      ⟨below _ (by decide +kernel), .crash (toKeys_toJson ?_)⟩)
      ⟨below _ (by decide +kernel), .call _ _ _⟩
    exact parses
  exact (allocated_addresses_are_fresh started run
    (below _ (by decide +kernel)) (.call _ _ _)).2 _ grown

end AfterCrash

end Kaswallet
