import Igra.Kaswallet.AddressManager
import Igra.Kaswallet.UtxoManager
import Mathlib.Algebra.BigOperators.Group.List.Basic

/-!
# The balance query

`get_balance` walks the sorted vector of the UTXO store, adds each amount to
the pending or the available balance of its address, and sums the addresses
in the iteration order of the map it collected them in.
-/

open Kaspa Rust

namespace Kaswallet

structure BalancesEntry where
  available : UInt64
  pending : UInt64
deriving DecidableEq

namespace BalancesEntry

def new : BalancesEntry :=
  ⟨0, 0⟩

def addAvailable (entry : BalancesEntry) (amount : UInt64) :
    WalletResult BalancesEntry := do
  let available ← checkedAdd entry.available amount
  pure { entry with available }

def addPending (entry : BalancesEntry) (amount : UInt64) :
    WalletResult BalancesEntry := do
  let pending ← checkedAdd entry.pending amount
  pure { entry with pending }

def add (entry other : BalancesEntry) : WalletResult BalancesEntry := do
  let withAvailable ← entry.addAvailable other.available
  withAvailable.addPending other.pending

/-- `add_pending` or `add_available`, as `is_utxo_unspendable` decides. -/
def credit (entry : BalancesEntry) (unspendable : Bool) (amount : UInt64) :
    WalletResult BalancesEntry :=
  if unspendable then entry.addPending amount else entry.addAvailable amount

/-- All the sompi of an entry. -/
def total (entry : BalancesEntry) : Nat :=
  entry.available.toNat + entry.pending.toNat

@[simp] theorem total_new : new.total = 0 :=
  rfl

theorem total_of_addAvailable {entry next : BalancesEntry} {amount : UInt64}
    (added : entry.addAvailable amount = .ok next) :
    next.total = entry.total + amount.toNat := by
  simp only [addAvailable, Outcome.bind_eq_ok, checkedAdd_eq_ok,
    Outcome.pure_eq_ok] at added
  obtain ⟨available, sum, rfl⟩ := added
  simp only [total]
  omega

theorem total_of_addPending {entry next : BalancesEntry} {amount : UInt64}
    (added : entry.addPending amount = .ok next) :
    next.total = entry.total + amount.toNat := by
  simp only [addPending, Outcome.bind_eq_ok, checkedAdd_eq_ok,
    Outcome.pure_eq_ok] at added
  obtain ⟨pending, sum, rfl⟩ := added
  simp only [total]
  omega

private theorem total_of_credit {entry next : BalancesEntry}
    {unspendable : Bool}
    {amount : UInt64}
    (credited : entry.credit unspendable amount = .ok next) :
    next.total = entry.total + amount.toNat := by
  cases unspendable with
  | true => exact total_of_addPending credited
  | false => exact total_of_addAvailable credited

private theorem total_of_add {entry other next : BalancesEntry}
    (added : entry.add other = .ok next) :
    next.total = entry.total + other.total := by
  obtain ⟨middle, first, second⟩ := Outcome.bind_eq_ok.mp added
  rw [total_of_addPending second, total_of_addAvailable first]
  simp only [total]
  omega

end BalancesEntry

structure AddressBalances where
  address : String
  available : UInt64
  pending : UInt64
deriving DecidableEq

structure GetBalanceResponse where
  available : UInt64
  pending : UInt64
  addressBalances : List AddressBalances
deriving DecidableEq

abbrev BalancesMap := HashMap WalletAddress BalancesEntry

/-- The body of the loop over the sorted UTXOs. -/
def addUtxoBalance (manager : UtxoManager) (virtualDaaScore : UInt64)
    (balancesMap : BalancesMap) (utxo : WalletUtxo) :
    WalletResult BalancesMap := do
  let balances :=
    (balancesMap.lookup utxo.address).getD BalancesEntry.new
  let unspendable ← manager.isUtxoUnspendable utxo virtualDaaScore
  let updated ← balances.credit unspendable utxo.amount
  pure (balancesMap.insert utxo.address updated)

/-- The body of the loop over the addresses. -/
def addAddressBalance (upstream : Upstream) (includeBalancePerAddress : Bool)
    (state : AddressManager × List AddressBalances × BalancesEntry)
    (entry : WalletAddress × BalancesEntry) :
    WalletResult (AddressManager × List AddressBalances × BalancesEntry) := do
  let (addressManager, addressBalances, totalBalances) := state
  let (address, cached) ←
    addressManager.kaspaAddressFromWalletAddress upstream entry.1 true
  let listed :=
    if includeBalancePerAddress then
      addressBalances ++
        [⟨upstream.addressToString address, entry.2.available,
          entry.2.pending⟩]
    else addressBalances
  let total ← totalBalances.add entry.2
  pure (cached, listed, total)

/-- `get_balance`.  `dagInfo` is the virtual DAA score that the node reports;
the address book comes back with the addresses the query derived. -/
def getBalance (upstream : Upstream) (isSynced : Bool)
    (dagInfo : Except String UInt64)
    (iteration : IterationOrder WalletAddress BalancesEntry)
    (manager : UtxoManager) (addressManager : AddressManager)
    (includeBalancePerAddress : Bool) :
    WalletResult (GetBalanceResponse × AddressManager) :=
  if !isSynced then Outcome.err (.sync .notYetSynced)
  else do
    let virtualDaaScore ←
      mapError (fun reason => .rpc (.transport reason)) dagInfo
    let balancesMap ← manager.utxosSortedByAmount.foldlM
      (addUtxoBalance manager virtualDaaScore) ∅
    let (book, addressBalances, totalBalances) ←
      (iteration.entries balancesMap).foldlM
        (addAddressBalance upstream includeBalancePerAddress)
        (addressManager, [], BalancesEntry.new)
    pure (⟨totalBalances.available, totalBalances.pending, addressBalances⟩,
      book)

section Totals

variable {upstream : Upstream} {manager : UtxoManager}

/-- All the sompi of a balances map. -/
def mapTotal (balancesMap : BalancesMap) : Nat :=
  ((HashMap.values balancesMap).map BalancesEntry.total).sum

private theorem mapTotal_insert (balancesMap : BalancesMap)
    (address : WalletAddress) (updated : BalancesEntry) :
    mapTotal (balancesMap.insert address updated) +
        ((balancesMap.lookup address).getD BalancesEntry.new).total =
      mapTotal balancesMap + updated.total := by
  simp only [mapTotal, HashMap.values_insert, List.map_cons, List.sum_cons]
  cases found : balancesMap.lookup address with
  | none =>
      have absent := AList.lookup_eq_none.mp found
      rw [HashMap.values_erase_of_notMem absent]
      simp only [Option.getD_none, BalancesEntry.total_new]
      omega
  | some balances =>
      have whole := ((HashMap.values_perm_erase found).map
        BalancesEntry.total).sum_eq
      rw [List.map_cons, List.sum_cons] at whole
      simp only [Option.getD_some]
      omega

private theorem mapTotal_of_addUtxoBalance {virtualDaaScore : UInt64}
    {balancesMap next : BalancesMap} {utxo : WalletUtxo}
    (added : addUtxoBalance manager virtualDaaScore balancesMap utxo =
      .ok next) :
    mapTotal next = mapTotal balancesMap + utxo.amount.toNat := by
  simp only [addUtxoBalance, Outcome.bind_eq_ok, Outcome.pure_eq_ok] at added
  obtain ⟨unspendable, _, updated, credited, rfl⟩ := added
  have inserted := mapTotal_insert balancesMap utxo.address updated
  have grown := BalancesEntry.total_of_credit credited
  omega

private theorem mapTotal_of_fold {virtualDaaScore : UInt64}
    {utxos : List WalletUtxo} {balancesMap final : BalancesMap}
    (folded : utxos.foldlM (addUtxoBalance manager virtualDaaScore)
      balancesMap = .ok final) :
    mapTotal final = mapTotal balancesMap +
      (utxos.map fun utxo => utxo.amount.toNat).sum := by
  induction utxos generalizing balancesMap with
  | nil =>
      cases folded
      simp
  | cons utxo utxos ih =>
      rw [List.foldlM_cons, Outcome.bind_eq_ok] at folded
      obtain ⟨middle, first, rest⟩ := folded
      rw [ih rest, mapTotal_of_addUtxoBalance first, List.map_cons,
        List.sum_cons]
      omega

private theorem total_of_addAddressBalance {includeBalancePerAddress : Bool}
    {state next : AddressManager × List AddressBalances × BalancesEntry}
    {entry : WalletAddress × BalancesEntry}
    (added : addAddressBalance upstream includeBalancePerAddress state entry =
      .ok next) :
    next.2.2.total = state.2.2.total + entry.2.total := by
  simp only [addAddressBalance, Outcome.bind_eq_ok,
    Outcome.pure_eq_ok] at added
  obtain ⟨_, _, total, credited, rfl⟩ := added
  exact BalancesEntry.total_of_add credited

private theorem total_of_fold {includeBalancePerAddress : Bool}
    {entries : List (WalletAddress × BalancesEntry)}
    {state final : AddressManager × List AddressBalances × BalancesEntry}
    (folded : entries.foldlM
      (addAddressBalance upstream includeBalancePerAddress) state =
        .ok final) :
    final.2.2.total = state.2.2.total +
      (entries.map fun entry => entry.2.total).sum := by
  induction entries generalizing state with
  | nil =>
      cases folded
      simp
  | cons entry entries ih =>
      rw [List.foldlM_cons, Outcome.bind_eq_ok] at folded
      obtain ⟨middle, first, rest⟩ := folded
      rw [ih rest, total_of_addAddressBalance first, List.map_cons,
        List.sum_cons]
      omega

/-- A returned balance is the sum of the sorted vector. -/
theorem getBalance_total {isSynced : Bool} {dagInfo : Except String UInt64}
    {iteration : IterationOrder WalletAddress BalancesEntry}
    {addressManager book : AddressManager} {includeBalancePerAddress : Bool}
    {response : GetBalanceResponse}
    (answered : getBalance upstream isSynced dagInfo iteration manager
      addressManager includeBalancePerAddress = .ok (response, book)) :
    response.available.toNat + response.pending.toNat =
      (manager.utxosSortedByAmount.map fun utxo => utxo.amount.toNat).sum := by
  cases isSynced with
  | false => simp [getBalance] at answered
  | true =>
      simp only [getBalance, Bool.not_true, Bool.false_eq_true, if_false,
        Outcome.bind_eq_ok, Outcome.pure_eq_ok, Prod.mk.injEq] at answered
      obtain ⟨virtualDaaScore, _, balancesMap, collected, final, summed,
        rfl, _⟩ := answered
      have addresses := total_of_fold summed
      have visited := ((iteration.perm balancesMap).map
        fun entry => entry.2.total).sum_eq
      have utxos := mapTotal_of_fold collected
      have values : mapTotal balancesMap =
          ((balancesMap.entries.map fun entry => (entry.1, entry.2)).map
            fun entry => entry.2.total).sum := by
        simp [mapTotal, HashMap.values, Function.comp_def]
      simp only [BalancesEntry.total_new] at addresses
      have empty : mapTotal (∅ : BalancesMap) = 0 := rfl
      show final.2.2.total = _
      omega

end Totals

end Kaswallet
