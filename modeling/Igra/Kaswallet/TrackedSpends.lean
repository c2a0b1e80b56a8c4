import Igra.Kaswallet.AddressServing
import Igra.Kaswallet.BatchSigning
import Igra.Kaswallet.Daemon
import Igra.Kaswallet.SpentOutpoints

/-!
# What the tracked transactions spend

A sync leaves the outpoints that the node lists and the tracked transactions
that can be replayed over them.  The batch of a send draws on the store while
it holds the lock, so each of its transactions finds its inputs when it is
submitted, and conflicts with no tracked one.
-/

open Kaspa Rust Runs

namespace Kaswallet

namespace AddressManager

variable {upstream : Upstream} {manager left : AddressManager}
  {walletAddress : WalletAddress} {save : WalletResult Unit}

/-- The addresses of one manager are among those of the other. -/
def Grows (before after : AddressManager) : Prop :=
  ∀ text, text ∈ before.addresses → text ∈ after.addresses

theorem Grows.refl (manager : AddressManager) : manager.Grows manager :=
  fun _ known => known

theorem Grows.trans {other : AddressManager} (first : manager.Grows left)
    (second : left.Grows other) : manager.Grows other :=
  fun text known => second text (first text known)

private theorem addresses_of_kaspaAddress {shouldCache : Bool}
    {address : Address}
    (derived : manager.kaspaAddressFromWalletAddress upstream walletAddress
      shouldCache = .ok (address, left)) :
    left.addresses = manager.addresses := by
  unfold kaspaAddressFromWalletAddress at derived
  split at derived
  · cases derived
    rfl
  · obtain ⟨path, _, derived⟩ := Outcome.bind_eq_ok.mp derived
    rw [kaspaAddressFromPath_eq, Outcome.map_eq_ok] at derived
    obtain ⟨found, _, same⟩ := derived
    cases same
    cases shouldCache <;> rfl

theorem grows_registerAddress :
    manager.Grows (manager.registerAddress upstream walletAddress).2 ∧
      ∀ registered, (manager.registerAddress upstream walletAddress).1 =
          .ok registered →
        upstream.addressToString registered.1 ∈
          (manager.registerAddress upstream walletAddress).2.addresses := by
  unfold registerAddress
  split
  · exact ⟨Grows.refl manager, by simp⟩
  · rename_i address cached derived
    have same := addresses_of_kaspaAddress derived
    constructor
    · intro text known
      exact (AList.mem_insert _).mpr (Or.inr (same ▸ known))
    · intro registered entered
      cases entered
      exact (AList.mem_insert _).mpr (Or.inl rfl)

theorem grows_changeAddress {useExistingChangeAddress : Bool}
    {fromAddresses : List WalletAddress} :
    manager.Grows (manager.changeAddress upstream useExistingChangeAddress
        fromAddresses save).2 ∧
      ∀ change, (manager.changeAddress upstream useExistingChangeAddress
          fromAddresses save).1 = .ok change →
        upstream.addressToString change.1 ∈
          (manager.changeAddress upstream useExistingChangeAddress
            fromAddresses save).2.addresses := by
  unfold changeAddress
  split
  · exact grows_registerAddress
  · split
    rename_i index bumped taken
    have bumpedGrows : manager.Grows bumped := by
      split at taken <;> cases taken <;> exact Grows.refl _
    split
    · exact ⟨bumpedGrows, by simp⟩
    · exact ⟨bumpedGrows, by simp⟩
    · obtain ⟨grows, entered⟩ := @grows_registerAddress upstream bumped
        ⟨_, manager.keysFile.cosignerIndex, .internal⟩
      exact ⟨bumpedGrows.trans grows, entered⟩

theorem grows_recordEntries {response : List RpcBalancesByAddressesEntry}
    {progress : AddressManager × AddressSet} :
    progress.1.Grows (response.foldl (recordEntry upstream) progress).1 := by
  induction response generalizing progress with
  | nil => exact Grows.refl _
  | cons entry rest ih =>
      refine Grows.trans ?_ ih
      unfold recordEntry
      dsimp only
      split
      · exact Grows.refl _
      · split
        · exact Grows.refl _
        · intro text known
          exact (AList.mem_insert _).mpr (Or.inr known)

private theorem grows_newAddress :
    manager.Grows (manager.newAddress upstream save).2 := by
  unfold newAddress
  split
  rename_i index bumped taken
  have bumpedGrows : manager.Grows bumped := by
    cases taken
    exact Grows.refl manager
  split
  · exact bumpedGrows
  · exact bumpedGrows
  · exact bumpedGrows.trans grows_registerAddress.1

theorem grows_perform (call : AddressCall) :
    manager.Grows (call.perform upstream manager save).2 := by
  cases call with
  | newAddress => exact grows_newAddress
  | changeAddress => exact grows_changeAddress.1
  | updateAddressesAndLastUsedIndexes addressSet response =>
      exact @grows_recordEntries upstream response (manager, addressSet)

end AddressManager

namespace UtxoManager

variable {upstream : Upstream}

theorem mem_spentOutpoints {transaction : WalletSignableTransaction}
    {outpoint : WalletOutpoint} :
    outpoint ∈ spentOutpoints transaction ↔
      outpoint ∈ Kaswallet.spentOutpoints transaction := by
  simp [spentOutpoints, Kaswallet.spentOutpoints, eq_comm]

theorem paidOutpoints_mono {before after : AddressManager}
    (grows : before.Grows after) (transaction : WalletSignableTransaction) :
    paidOutpoints upstream before.addresses transaction ⊆
      paidOutpoints upstream after.addresses transaction := by
  intro outpoint paid
  obtain ⟨output, index, address, walletAddress, atIndex, named, own, rfl⟩ :=
    mem_walletOutpoints.mp paid
  have known := grows _ (AList.lookup_isSome.mp (Option.isSome_of_mem own))
  obtain ⟨found, there⟩ := Option.isSome_iff_exists.mp
    (AList.lookup_isSome.mpr known)
  exact mem_walletOutpoints.mpr
    ⟨output, index, address, found, atIndex, named, there, rfl⟩

theorem spentOutpoints_of_signedFrom
    {unsigned signed : WalletSignableTransaction}
    (signedFrom : SignedFrom unsigned signed) :
    Kaswallet.spentOutpoints signed = Kaswallet.spentOutpoints unsigned := by
  have spends := congrArg
    (fun tx => tx.inputs.map fun input =>
      WalletOutpoint.ofTransactionOutpoint input.previousOutpoint)
    signedFrom.same.unsigned
  simpa [Transaction.withoutSignatures, Function.comp_def,
    Kaswallet.spentOutpoints, WalletSignableTransaction.tx] using spends

theorem spends_of_signedFrom {addresses : AddressSet}
    {unsigned signed : WalletSignableTransaction}
    (ignored : upstream.IdsIgnoreSignatures)
    (signedFrom : SignedFrom unsigned signed) :
    spentOutpoints signed = spentOutpoints unsigned ∧
      paidOutpoints upstream addresses signed =
        paidOutpoints upstream addresses unsigned := by
  constructor
  · ext outpoint
    rw [mem_spentOutpoints, mem_spentOutpoints,
      spentOutpoints_of_signedFrom signedFrom]
  · have sameOutputs : signed.tx.outputs = unsigned.tx.outputs :=
      signedFrom.same.outputs
    have sameAddresses : signed.addressByOutputIndex =
        unsigned.addressByOutputIndex := by
      rw [signedFrom.rest]
    have sameId : upstream.transactionId signed.tx =
        upstream.transactionId unsigned.tx :=
      signedFrom.same.transactionId ignored
    ext outpoint
    unfold paidOutpoints
    rw [Set.mem_ofPred_eq, Set.mem_ofPred_eq, mem_walletOutpoints,
      mem_walletOutpoints, sameOutputs, sameAddresses, sameId]

end UtxoManager

namespace TransactionGenerator

variable {upstream : Upstream} {generator : TransactionGenerator}
  {surroundings : Surroundings} {manager : UtxoManager}
  {addressManager : AddressManager} {description : TransactionDescription}
  {fuel : Nat} {batch : List WalletSignableTransaction}

/-- The first output of a split pays the wallet, whose address book has the
change address. -/
theorem firstOutpoint_mem_paidOutpoints {request : CompoundingRequest}
    {split : WalletSignableTransaction} {addresses : AddressSet}
    (shape : SplitShape upstream generator request split)
    (known : upstream.addressToString request.changeAddress ∈ addresses) :
    firstOutpoint upstream split ∈
      UtxoManager.paidOutpoints upstream addresses split := by
  obtain ⟨value, outputs⟩ := shape.outputs
  obtain ⟨found, there⟩ :=
    Option.isSome_iff_exists.mp (AList.lookup_isSome.mpr known)
  apply UtxoManager.mem_walletOutpoints.mpr
  exact ⟨_, 0, request.changeAddress, found, by rw [outputs]; rfl,
    by rw [shape.addresses]; rfl, there, rfl⟩

theorem Compounds.splitShape {request : CompoundingRequest}
    {replies : NodeReplies} {round : Nat}
    {original : WalletSignableTransaction} {compounding : Compounding}
    (compounds : Compounds upstream generator request replies manager round
      original compounding) :
    ∀ split ∈ allSplits compounding.rounds,
      SplitShape upstream generator request split := by
  intro split member
  obtain ⟨done, inRounds, isSplit⟩ := List.mem_flatMap.mp member
  obtain ⟨_, _, compounded⟩ := compounds.compoundRound done inRounds
  exact (partitions_of_splitTransactions
    (compoundRound_eq_ok.mp compounded).1).2 split isSplit

theorem Prepared.knows_changeAddress {request : CompoundingRequest}
    {unsigned : WalletSignableTransaction}
    (prepared : Prepared upstream generator surroundings manager
      addressManager description request unsigned) :
    upstream.addressToString request.changeAddress ∈
      (generator.createUnsignedTransactions upstream surroundings manager
        addressManager description fuel).2.addresses := by
  have left : (generator.createUnsignedTransactions upstream surroundings
      manager addressManager description fuel).2 =
        (addressManager.changeAddress upstream
          description.useExistingChangeAddress prepared.checked.fromAddresses
          surroundings.saveKeys).2 := by
    simp only [createUnsignedTransactions, prepare, prepared.accepted]
  have drawn : request.changeAddress = prepared.change.1 :=
    congrArg CompoundingRequest.changeAddress prepared.request_eq
  rw [left, drawn]
  exact AddressManager.grows_changeAddress.2 _ prepared.drawn

/-- A created batch finds its inputs in the store if no outpoint is spent
twice. -/
theorem funded_of_createUnsignedTransactions
    (consistent : manager.Consistent)
    (created : (generator.createUnsignedTransactions upstream surroundings
      manager addressManager description fuel).1 = .ok batch)
    (once : (batch.flatMap spentOutpoints).Nodup) :
    Spending.Funded UtxoManager.spentOutpoints
      (UtxoManager.paidOutpoints upstream
        (generator.createUnsignedTransactions upstream surroundings manager
          addressManager description fuel).2.addresses)
      manager.stored batch := by
  obtain ⟨request, unsigned, compounding, made, compounded, rfl⟩ :=
    exists_compounding created
  obtain ⟨prepared⟩ := prepared_of_prepare made
  have compounds := compounds_of_compound compounded
  have listed : ∀ utxo ∈ manager.utxosSortedByAmount,
      utxo.outpoint ∈ manager.stored := by
    intro utxo member
    apply AList.lookup_isSome.mp
    rw [consistent.mem_iff_lookup.mp member]
    rfl
  have sourced : Sourced upstream (· ∈ manager.stored) []
      compounding.batch := by
    apply compounds.sourced
    · intro outpoint spent
      rw [spentOutpoints_of_generateUnsignedTransaction
        prepared.generated] at spent
      obtain ⟨utxo, member, rfl⟩ := List.mem_map.mp spent
      exact .inl (listed utxo
        (prepared.selectedUtxos_mem_store consistent utxo member))
    · intro utxo member
      obtain ⟨done, inRounds, isAdded⟩ := List.mem_flatMap.mp member
      obtain ⟨_, _, performed⟩ := compounds.compoundRound done inRounds
      exact listed utxo ((additionalUtxos_spec performed).1.subset isAdded)
  apply Spending.funded_of_sources
  · intro front transaction back split outpoint spent
    rw [split, sourced_append] at sourced
    rcases sourced.2.1 outpoint (UtxoManager.mem_spentOutpoints.mp spent) with
      stored | ⟨earlier, before, rfl⟩
    · exact Or.inl stored
    · refine Or.inr ⟨earlier, before, ?_⟩
      -- only the last transaction of a batch is not a split
      have isSplit : earlier ∈ allSplits compounding.rounds := by
        have initial := congrArg List.dropLast split
        rw [Compounding.batch, List.dropLast_concat,
          List.dropLast_append_cons] at initial
        rw [allSplits, initial]
        exact List.mem_append_left _ before
      exact firstOutpoint_mem_paidOutpoints
        (compounds.splitShape earlier isSplit) prepared.knows_changeAddress
  · refine (List.nodup_flatMap.mp once).2.imp ?_
    intro earlier later apart
    rw [Set.disjoint_left]
    intro outpoint first second
    exact apart (UtxoManager.mem_spentOutpoints.mp first)
      (UtxoManager.mem_spentOutpoints.mp second)

end TransactionGenerator

namespace KasWalletService

variable {upstream : Upstream} {signatures : Signatures}
  {service : KasWalletService} {moment : CreateMoment}
  {transactionDescription : Option TransactionDescription}
  {password : String} {fuel : Nat}

theorem grows_createFromDescription
    (moment : CreateMoment) (description : TransactionDescription)
    (fuel : Nat) :
    moment.addressManager.Grows
      (service.createUnsignedTransactionsFromDescription upstream moment
        description fuel).2 := by
  unfold createUnsignedTransactionsFromDescription
  split
  · exact AddressManager.Grows.refl _
  · unfold TransactionGenerator.createUnsignedTransactions
      TransactionGenerator.prepare
    dsimp only
    split
    · exact AddressManager.Grows.refl _
    · exact AddressManager.grows_changeAddress.1

theorem grows_prepareSend (moment : CreateMoment) :
    moment.addressManager.Grows (service.prepareSend upstream signatures
      moment transactionDescription password fuel).2 := by
  unfold prepareSend
  split
  · exact AddressManager.Grows.refl _
  · exact grows_createFromDescription _ _ _

/-- The signed batch of a send finds its inputs in the store if no outpoint
is spent twice. -/
theorem funded_of_prepareSend (ignored : upstream.IdsIgnoreSignatures)
    (consistent : moment.manager.Consistent)
    {transactions : List WalletSignableTransaction}
    (prepared : (service.prepareSend upstream signatures moment
      transactionDescription password fuel).1 = .ok transactions)
    (once : (transactions.flatMap spentOutpoints).Nodup) :
    Spending.Funded UtxoManager.spentOutpoints
      (UtxoManager.paidOutpoints upstream
        (service.prepareSend upstream signatures moment
          transactionDescription password fuel).2.addresses)
      moment.manager.stored transactions := by
  unfold prepareSend at prepared ⊢
  cases transactionDescription with
  | none => exact absurd prepared (Outcome.err_ne_ok _ _)
  | some description =>
      obtain ⟨unsigned, created, signed⟩ := Outcome.bind_eq_ok.mp prepared
      unfold createUnsignedTransactionsFromDescription at created ⊢
      dsimp only
      split at created
      · exact absurd created (Outcome.err_ne_ok _ _)
      · rename_i synced
        have signedFrom := signedFrom_of_signTransactions signed
        have spends : transactions.flatMap spentOutpoints =
            unsigned.flatMap spentOutpoints := by
          rw [List.flatMap_def, List.flatMap_def]
          congr 1
          clear once prepared created signed
          induction signedFrom with
          | nil => rfl
          | cons first _ ih =>
              rw [List.map_cons, List.map_cons, ih,
                UtxoManager.spentOutpoints_of_signedFrom first]
        rw [spends] at once
        rw [if_neg synced]
        apply (TransactionGenerator.funded_of_createUnsignedTransactions
          consistent created once).of_forall₂
        exact signedFrom.imp fun _ _ one =>
          UtxoManager.spends_of_signedFrom ignored one

end KasWalletService

namespace Daemon

variable {upstream : Upstream} {signatures : Signatures}
  {service : KasWalletService} {daemon next : Daemon} {event : DaemonEvent}

section Steps

variable (upstream signatures service)

/-- What an event does to the store, to the lock and to the address book. -/
inductive Moves (daemon : Daemon) : DaemonEvent → Daemon → Prop where
  | keeps {event : DaemonEvent} {addressManager : AddressManager}
      {submitting : Option Submitting}
      (grows : daemon.addressManager.Grows addressManager)
      (lock : submitting = none ∨ submitting = daemon.submitting) :
      Moves daemon event { daemon with addressManager, submitting }
  | prepares {isSynced : Bool}
      {surroundings : TransactionGenerator.Surroundings}
      {transactionDescription : Option TransactionDescription}
      {password : String} {fuel : Nat}
      {transactions : List WalletSignableTransaction}
      (prepared : (service.prepareSend upstream signatures
        (daemon.moment isSynced surroundings) transactionDescription password
        fuel).1 = .ok transactions) :
      Moves daemon
        (.sends isSynced surroundings transactionDescription password fuel)
        { daemon with
          addressManager := (service.prepareSend upstream signatures
            (daemon.moment isSynced surroundings) transactionDescription
            password fuel).2
          submitting := some ⟨transactions, false⟩ }
  | decodes {messages : List Proto.WalletSignableTransaction}
      {signed : List WalletSignableTransaction} :
      Moves daemon (.broadcasts messages)
        { daemon with submitting := some ⟨signed, true⟩ }
  | submits {reply : Except String TransactionId}
      {transaction : WalletSignableTransaction}
      {rest : List WalletSignableTransaction} {broadcast : Bool}
      {manager : UtxoManager}
      (holds : daemon.submitting = some ⟨transaction :: rest, broadcast⟩)
      (added : daemon.utxoManager.addMempoolTransaction upstream
        daemon.addressManager.addresses transaction = .ok manager) :
      Moves daemon (.submits reply)
        (daemon.submitted transaction ⟨rest, broadcast⟩ manager)
  | refreshes {rpcUtxoEntries : List RpcUtxosByAddressesEntry}
      {mempool : List RpcMempoolEntryByAddress} {collected : List WalletUtxo}
      {manager : UtxoManager} (free : daemon.submitting = none)
      (collects : UtxoManager.collectedUtxos
        daemon.addressManager.addresses rpcUtxoEntries mempool =
          .ok collected)
      (updates : daemon.utxoManager.updateUtxoSet upstream
        daemon.addressManager.addresses rpcUtxoEntries mempool =
          .ok manager) :
      Moves daemon (.refreshes rpcUtxoEntries mempool)
        { daemon with utxoManager := manager, collected, broadcast := [] }

variable {upstream signatures service}

theorem added_of_submission {transaction : WalletSignableTransaction}
    {reply : Except String TransactionId} {ids : List String}
    (returned : (daemon.submission upstream service transaction reply).result =
      .ok ids) :
    daemon.utxoManager.addMempoolTransaction upstream
        daemon.addressManager.addresses transaction =
      .ok (daemon.submission upstream service transaction reply).manager := by
  unfold submission submitTransactions at returned ⊢
  dsimp only at returned ⊢
  split at returned
  · cases returned
  · split at returned
    · exact absurd returned (Outcome.err_ne_ok _ _)
    · split at returned
      · cases returned
      · rename_i tracked added
        exact added

theorem moves_of_perform
    (taken : daemon.Advances upstream signatures service event next) :
    Moves upstream signatures service daemon event next := by
  unfold Advances at taken
  cases event with
  | calls call save =>
      cases taken
      exact .keeps (AddressManager.grows_perform call) (Or.inr rfl)
  | creates isSynced surroundings transactionDescription fuel =>
      simp only [perform] at taken
      split at taken
      · cases taken
      · cases taken
        exact .keeps (AddressManager.Grows.refl _) (Or.inr rfl)
      · cases taken
        exact .keeps (KasWalletService.grows_createFromDescription
          (daemon.moment isSynced surroundings) _ _) (Or.inr rfl)
  | sends isSynced surroundings transactionDescription password fuel =>
      simp only [perform] at taken
      split at taken
      · cases taken
      · rcases afterCall_eq_some.mp taken with
          ⟨transactions, prepared, rfl⟩ | ⟨_, _, rfl⟩
        · exact .prepares prepared
        · exact .keeps (KasWalletService.grows_prepareSend
            (daemon.moment isSynced surroundings)) (Or.inr rfl)
  | broadcasts messages =>
      simp only [perform] at taken
      split at taken
      · cases taken
      · rcases afterCall_eq_some.mp taken with
          ⟨signed, decoded, rfl⟩ | ⟨_, _, rfl⟩
        · exact .decodes
        · exact .keeps (AddressManager.Grows.refl _) (Or.inr rfl)
  | submits reply =>
      simp only [perform] at taken
      split at taken
      · rename_i transaction rest broadcast holds
        rcases afterCall_eq_some.mp taken with
          ⟨ids, returned, rfl⟩ | ⟨_, _, rfl⟩
        · exact .submits holds (added_of_submission returned)
        · exact .keeps (AddressManager.Grows.refl _) (Or.inl rfl)
      · cases taken
  | releases =>
      simp only [perform] at taken
      split at taken
      · cases taken
        exact .keeps (AddressManager.Grows.refl _) (Or.inl rfl)
      · cases taken
  | refreshes rpcUtxoEntries mempool =>
      simp only [perform] at taken
      split at taken
      · cases taken
      · rename_i free
        rcases afterCall_eq_some.mp taken with
          ⟨⟨collected, manager⟩, refreshed, rfl⟩ | ⟨_, _, rfl⟩
        · simp only [Daemon.refreshed, Outcome.bind_eq_ok,
            Outcome.pure_eq_ok, Prod.mk.injEq] at refreshed
          obtain ⟨_, collects, _, updates, rfl, rfl⟩ := refreshed
          exact .refreshes free collects updates
        · exact .keeps (AddressManager.Grows.refl _) (Or.inr rfl)

end Steps

section Runs

variable (upstream signatures service)

/-- A send spends no outpoint twice, and what comes into the store is not
there yet. -/
def Allows (daemon : Daemon) : DaemonEvent → Prop
  | .sends isSynced surroundings transactionDescription password fuel =>
      (service.prepareSend upstream signatures
        (daemon.moment isSynced surroundings) transactionDescription password
        fuel).1.WhenOk fun transactions =>
          (transactions.flatMap spentOutpoints).Nodup
  | .submits _ =>
      ∀ submitting ∈ daemon.submitting,
        ∀ transaction ∈ submitting.transactions.head?,
          daemon.utxoManager.AddsFresh upstream
            daemon.addressManager.addresses transaction
  | .refreshes rpcUtxoEntries mempool =>
      (StoreCall.updateUtxoSet daemon.addressManager.addresses rpcUtxoEntries
        mempool).Fresh upstream daemon.utxoManager
  | _ => True

instance (daemon : Daemon) : (event : DaemonEvent) →
    Decidable (daemon.Allows upstream signatures service event)
  | .calls _ _ => inferInstanceAs (Decidable True)
  | .creates _ _ _ _ => inferInstanceAs (Decidable True)
  | .sends isSynced surroundings transactionDescription password fuel =>
      inferInstanceAs (Decidable
        ((service.prepareSend upstream signatures
          (daemon.moment isSynced surroundings) transactionDescription
          password fuel).1.WhenOk fun transactions =>
            (transactions.flatMap spentOutpoints).Nodup))
  | .broadcasts _ => inferInstanceAs (Decidable True)
  | .submits _ => inferInstanceAs (Decidable
      (∀ submitting ∈ daemon.submitting,
        ∀ transaction ∈ submitting.transactions.head?,
          daemon.utxoManager.AddsFresh upstream
            daemon.addressManager.addresses transaction))
  | .releases => inferInstanceAs (Decidable True)
  | .refreshes rpcUtxoEntries mempool => inferInstanceAs (Decidable
      ((StoreCall.updateUtxoSet daemon.addressManager.addresses rpcUtxoEntries
        mempool).Fresh upstream daemon.utxoManager))

variable {signatures service}

/-- The tracked transactions lead from what the node listed to what is
stored, and each of them finds its inputs unless it was broadcast since.  What
a send has yet to submit finds its inputs too. -/
structure Tracks (daemon : Daemon) : Prop where
  consistent : daemon.utxoManager.Consistent
  builds : Spending.Builds UtxoManager.spentOutpoints
    (UtxoManager.paidOutpoints upstream daemon.addressManager.addresses)
    (· ∈ daemon.broadcast)
    {outpoint | outpoint ∈ daemon.collected.map WalletUtxo.outpoint}
    daemon.utxoManager.mempoolTransactions daemon.utxoManager.stored
  funded : ∀ transactions,
    daemon.submitting = some ⟨transactions, false⟩ →
    Spending.Funded UtxoManager.spentOutpoints
      (UtxoManager.paidOutpoints upstream daemon.addressManager.addresses)
      daemon.utxoManager.stored transactions

variable {upstream}

theorem tracks_started (coinbaseMaturity : UInt64)
    (addressManager : AddressManager) :
    (started coinbaseMaturity addressManager).Tracks upstream where
  consistent := UtxoManager.consistent_new coinbaseMaturity
  builds := by
    have nothing : (UtxoManager.new coinbaseMaturity).stored =
        {outpoint | outpoint ∈ ([] : List WalletUtxo).map
          WalletUtxo.outpoint} := by
      ext outpoint
      simp [UtxoManager.stored, UtxoManager.new]
    show Spending.Builds _ _ _ _ [] (UtxoManager.new coinbaseMaturity).stored
    rw [nothing]
    exact .start
  funded := by
    intro transactions submitting
    cases submitting

theorem Tracks.grow {addressManager : AddressManager}
    {submitting : Option Submitting} (tracks : daemon.Tracks upstream)
    (grows : daemon.addressManager.Grows addressManager)
    (funded : ∀ transactions, submitting = some ⟨transactions, false⟩ →
      Spending.Funded UtxoManager.spentOutpoints
        (UtxoManager.paidOutpoints upstream addressManager.addresses)
        daemon.utxoManager.stored transactions) :
    Tracks upstream { daemon with addressManager, submitting } where
  consistent := tracks.consistent
  builds := tracks.builds.mono (UtxoManager.paidOutpoints_mono grows)
    fun _ => id
  funded := funded

theorem Tracks.submit {transaction : WalletSignableTransaction}
    {rest : List WalletSignableTransaction} {broadcast : Bool}
    {manager : UtxoManager} (tracks : daemon.Tracks upstream)
    (holds : daemon.submitting = some ⟨transaction :: rest, broadcast⟩)
    (fresh : daemon.utxoManager.AddsFresh upstream
      daemon.addressManager.addresses transaction)
    (added : daemon.utxoManager.addMempoolTransaction upstream
      daemon.addressManager.addresses transaction = .ok manager) :
    (daemon.submitted transaction ⟨rest, broadcast⟩ manager).Tracks
      upstream where
  consistent := tracks.consistent.addMempoolTransaction fresh added
  builds := by
    show Spending.Builds _ _ _ _ manager.mempoolTransactions manager.stored
    rw [UtxoManager.mempoolTransactions_addMempoolTransaction added,
      UtxoManager.stored_addMempoolTransaction added]
    refine .extend (tracks.builds.mono (fun _ => subset_rfl) ?_) subset_rfl ?_
    · intro other member
      unfold submitted
      dsimp only
      split
      · exact List.mem_append_left _ member
      · exact member
    · cases broadcast with
      | true => exact Or.inl (by simp [submitted])
      | false => exact Or.inr (tracks.funded _ holds).1
  funded := by
    intro transactions submitting
    cases submitting
    show Spending.Funded _ _ manager.stored _
    rw [UtxoManager.stored_addMempoolTransaction added]
    exact (tracks.funded _ holds).2

theorem Tracks.refresh {rpcUtxoEntries : List RpcUtxosByAddressesEntry}
    {mempool : List RpcMempoolEntryByAddress} {collected : List WalletUtxo}
    {manager : UtxoManager} (free : daemon.submitting = none)
    (fresh : (StoreCall.updateUtxoSet daemon.addressManager.addresses
      rpcUtxoEntries mempool).Fresh upstream daemon.utxoManager)
    (collects : UtxoManager.collectedUtxos daemon.addressManager.addresses
      rpcUtxoEntries mempool = .ok collected)
    (updates : daemon.utxoManager.updateUtxoSet upstream
      daemon.addressManager.addresses rpcUtxoEntries mempool =
        .ok manager) :
    Tracks upstream
      { daemon with utxoManager := manager, collected, broadcast := [] } where
  consistent := UtxoManager.Consistent.updateUtxoSet fresh updates
  builds := by
    obtain ⟨tracked, left⟩ :=
      UtxoManager.updateUtxoSet_retains collects updates
    show Spending.Builds _ _ _ _ manager.mempoolTransactions manager.stored
    rw [left]
    apply Spending.builds_of_funded
    rw [tracked]
    exact Spending.funded_retained
  funded := by
    intro transactions submitting
    rw [free] at submitting
    cases submitting

theorem Tracks.step (ignored : upstream.IdsIgnoreSignatures)
    (tracks : daemon.Tracks upstream)
    (allowed : daemon.Allows upstream signatures service event)
    (taken : daemon.Advances upstream signatures service event next) :
    next.Tracks upstream := by
  cases moves_of_perform taken with
  | keeps grows lock =>
      refine tracks.grow grows ?_
      rintro transactions rfl
      rcases lock with none | same
      · cases none
      · exact (tracks.funded transactions same.symm).mono subset_rfl
          (UtxoManager.paidOutpoints_mono grows)
  | @prepares isSynced surroundings _ _ _ _ prepared =>
      refine tracks.grow (KasWalletService.grows_prepareSend
        (daemon.moment isSynced surroundings)) ?_
      intro transactions submitting
      cases submitting
      exact KasWalletService.funded_of_prepareSend ignored tracks.consistent
        prepared (allowed _ prepared)
  | decodes =>
      refine tracks.grow (AddressManager.Grows.refl _) ?_
      intro transactions submitting
      cases submitting
  | submits holds added =>
      exact tracks.submit holds (allowed _ holds _ rfl) added
  | refreshes free collects updates =>
      exact Tracks.refresh free allowed collects updates

theorem tracks_of_run {coinbaseMaturity : UInt64}
    {addressManager : AddressManager} {events : List DaemonEvent}
    (ignored : upstream.IdsIgnoreSignatures)
    (run : Run (restrict (Allows upstream signatures service)
      (Advances upstream signatures service))
      (started coinbaseMaturity addressManager) events daemon) :
    daemon.Tracks upstream :=
  run.preserves (tracks_started coinbaseMaturity addressManager)
    fun _ _ _ tracks taken => tracks.step ignored taken.1 taken.2

/-- Two tracked transactions spend a common outpoint only if the later of them
was broadcast by a client since the last sync: no send and no sync leads to a
conflict.  An id is a hash over what a transaction spends, so no tracked
transaction spends an output of itself or of a later one. -/
theorem sends_spend_apart {coinbaseMaturity : UInt64}
    {addressManager : AddressManager} {events : List DaemonEvent}
    (ignored : upstream.IdsIgnoreSignatures)
    (run : Run (restrict (Allows upstream signatures service)
      (Advances upstream signatures service))
      (started coinbaseMaturity addressManager) events daemon)
    (ordered : Spending.Ordered UtxoManager.spentOutpoints
      (UtxoManager.createdOutpoints upstream)
      daemon.utxoManager.mempoolTransactions) :
    daemon.utxoManager.mempoolTransactions.Pairwise fun earlier later =>
      later ∈ daemon.broadcast ∨
        Disjoint (UtxoManager.spentOutpoints earlier)
          (UtxoManager.spentOutpoints later) := by
  have builds := (tracks_of_run ignored run).builds
  have paidOrdered := ordered.mono fun transaction =>
    @UtxoManager.paidOutpoints_subset upstream
      daemon.addressManager.addresses transaction
  exact (builds.apart paidOrdered).1

end Runs

section SampleRun

/-- The wallet of the account on a lane where three inputs are too heavy. -/
def heavyService : KasWalletService :=
  { accountService with
    generator :=
      { accountService.generator with
        computeBudgetPerInput := 400
        massPerSigOp := 40000 } }

example :
    TransactionGenerator.new devnet accountKeys accountBook.isMultisig
        .devnet accountLane 40000 =
      .ok heavyService.generator :=
  rfl

/-- The node's entry for a UTXO of the account. -/
def accountEntry (index : UInt8) : RpcUtxosByAddressesEntry :=
  let publicKey := pathDigest ⟨[0, index.toUInt32]⟩ accountKey.serialized
  { address := some (devnet.addressToString
      ⟨.devnet, .pubKey, publicKey.bytes, publicKey.size⟩)
    outpoint := (accountUtxo index).outpoint
    utxoEntry :=
      ⟨500000, ⟨0, payToPublicKey publicKey⟩, 10, false, none⟩ }

def accountEntries : List RpcUtxosByAddressesEntry :=
  [1, 2, 3].map accountEntry

/-- Three addresses are handed out and paid, and a send is split and
merged. -/
def accountEvents : List DaemonEvent :=
  List.replicate 3 (.calls .newAddress (.ok ())) ++
    [.refreshes accountEntries [],
      .sends true (TransactionGenerator.sampleSurroundings 1.0)
        (some (TransactionGenerator.sampleDescription 1200000 none))
        "password" 2,
      .submits (.ok (FixedBytes.zero 32)), .submits (.ok (FixedBytes.zero 32)),
      .submits (.ok (FixedBytes.zero 32)), .releases]

/-- No transaction spends an output of a transaction that has its own id or
that of a later one. -/
def IdsOrdered (upstream : Upstream)
    (transactions : List WalletSignableTransaction) : Prop :=
  (∀ transaction ∈ transactions,
      ∀ outpoint ∈ spentOutpoints transaction,
        outpoint.transactionId ≠ upstream.transactionId transaction.tx) ∧
    transactions.Pairwise fun earlier later =>
      ∀ outpoint ∈ spentOutpoints earlier,
        outpoint.transactionId ≠ upstream.transactionId later.tx

instance (transactions : List WalletSignableTransaction) :
    Decidable (IdsOrdered upstream transactions) :=
  inferInstanceAs (Decidable (_ ∧ _))

theorem ordered_of_idsOrdered
    {transactions : List WalletSignableTransaction}
    (ids : IdsOrdered upstream transactions) :
    Spending.Ordered UtxoManager.spentOutpoints
      (UtxoManager.createdOutpoints upstream) transactions := by
  have apart {spender creator : WalletSignableTransaction}
      (other : ∀ outpoint ∈ spentOutpoints spender,
        outpoint.transactionId ≠ upstream.transactionId creator.tx) :
      Disjoint (UtxoManager.spentOutpoints spender)
        (UtxoManager.createdOutpoints upstream creator) := by
    rw [Set.disjoint_left]
    rintro outpoint spent ⟨index, _, same⟩
    exact other outpoint (UtxoManager.mem_spentOutpoints.mp spent)
      (congrArg WalletOutpoint.transactionId same)
  exact ⟨fun transaction member => apart (ids.1 transaction member),
    ids.2.imp apart⟩

private theorem accountEvents_run :
    ∃ daemon, Run (restrict (Allows devnet pathSignatures heavyService)
        (Advances devnet pathSignatures heavyService))
        (started 100 accountBook) accountEvents daemon ∧
      daemon.utxoManager.mempoolTransactions.map (fun transaction =>
          transaction.tx.inputs.length) = [2, 1, 2] ∧
      IdsOrdered devnet daemon.utxoManager.mempoolTransactions ∧
      daemon.broadcast = [] ∧
      (daemon.refreshed devnet accountEntries []).Returns fun refreshed =>
        daemon.collected.map WalletUtxo.outpoint ⊆
          refreshed.1.map WalletUtxo.outpoint := by
  have followed : (follow (Allows devnet pathSignatures heavyService)
      (Daemon.perform devnet pathSignatures heavyService)
      (started 100 accountBook) accountEvents).any fun daemon => decide
        (daemon.utxoManager.mempoolTransactions.map (fun transaction =>
            transaction.tx.inputs.length) = [2, 1, 2] ∧
          IdsOrdered devnet daemon.utxoManager.mempoolTransactions ∧
          daemon.broadcast = [] ∧
          (daemon.refreshed devnet accountEntries []).Returns fun refreshed =>
            daemon.collected.map WalletUtxo.outpoint ⊆
              refreshed.1.map WalletUtxo.outpoint) := by
    unfold accountEvents accountEntries accountEntry
      TransactionGenerator.sampleDescription
    rw [devnet_eq_quick]
    decide +kernel
  obtain ⟨daemon, reached, known⟩ := (Option.any_eq_true _ _).mp followed
  exact ⟨daemon, Run.of_follow (fun _ _ _ advances => advances) reached,
    of_decide_eq_true known⟩

theorem sends_spend_apart_accountEvents :
    ∃ daemon, Run (Advances devnet pathSignatures heavyService)
        (started 100 accountBook) accountEvents daemon ∧
      daemon.utxoManager.mempoolTransactions.length = 3 ∧
      daemon.utxoManager.mempoolTransactions.Pairwise fun earlier later =>
        later ∈ daemon.broadcast ∨
          Disjoint (UtxoManager.spentOutpoints earlier)
            (UtxoManager.spentOutpoints later) := by
  obtain ⟨daemon, run, shape, ids, -⟩ := accountEvents_run
  refine ⟨daemon, run.unrestrict, by simpa using congrArg List.length shape, ?_⟩
  exact @sends_spend_apart devnet pathSignatures heavyService daemon 100
    accountBook accountEvents idsIgnoreSignatures_devnet run
    (ordered_of_idsOrdered ids)

end SampleRun

end Daemon

end Kaswallet
