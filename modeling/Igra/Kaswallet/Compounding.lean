import Igra.Kaswallet.AutoCompound

/-!
# The rounds of a compounding

`compound` computes what `maybe_auto_compound_transaction` computes and keeps,
for every round, the transaction that was too heavy, its splits, the plan of
the merge transaction and the merge transaction.  A result about a batch is
proved by induction on the rounds that led to it.
-/

open Kaspa Rust

namespace Kaswallet

/-- One round: `original` is replaced by `splits` and `merge`. -/
structure CompoundRound where
  original : WalletSignableTransaction
  splits : List WalletSignableTransaction
  plan : MergePlan
  merge : WalletSignableTransaction

structure Compounding where
  rounds : List CompoundRound
  last : WalletSignableTransaction

namespace Compounding

def batch (compounding : Compounding) : List WalletSignableTransaction :=
  compounding.rounds.flatMap CompoundRound.splits ++ [compounding.last]

end Compounding

namespace TransactionGenerator

section Trace

variable (upstream : Upstream) (generator : TransactionGenerator)
  (request : CompoundingRequest) (replies : NodeReplies)
  (manager : UtxoManager)

def compoundRound (round : Nat) (original : WalletSignableTransaction)
    (transactionMass : UInt64) : WalletResult CompoundRound := do
  let splits ← generator.splitTransactions upstream request original
    transactionMass
  let plan ← generator.mergePlan upstream request replies manager round splits
    original.tx
  let merge ← generator.buildMerge upstream request plan original.tx
  pure ⟨original, splits, plan, merge⟩

def compound :
    Nat → Nat → WalletSignableTransaction → WalletResult Compounding
  | 0, _, _ => Outcome.unfinished
  | fuel + 1, round, original => do
      generator.checkTransactionFeeRate upstream original
      let transactionMass ← computeMassForUnsignedConsensusTransaction
        upstream original.tx generator.keys.minimumSignatures
      if transactionMass < maximumStandardTransactionMass then
        pure ⟨[], original⟩
      else do
        let done ← generator.compoundRound upstream request replies manager
          round original transactionMass
        let rest ← compound fuel (round + 1) done.merge
        pure ⟨done :: rest.rounds, rest.last⟩

end Trace

section Flattening

variable {upstream : Upstream} {generator : TransactionGenerator}
  {request : CompoundingRequest} {replies : NodeReplies}
  {manager : UtxoManager}

theorem maybeAutoCompoundTransaction_eq (fuel round : Nat)
    (original : WalletSignableTransaction) :
    generator.maybeAutoCompoundTransaction upstream request replies manager
        fuel round original =
      Compounding.batch <$> generator.compound upstream request replies
        manager fuel round original := by
  induction fuel generalizing round original with
  | zero => rfl
  | succ fuel ih =>
      simp only [maybeAutoCompoundTransaction, compound, compoundRound,
        mergeTransaction, ih, map_eq_pure_bind, bind_assoc, pure_bind]
      refine bind_congr fun _ => bind_congr fun transactionMass => ?_
      by_cases light : transactionMass < maximumStandardTransactionMass
      · simp [light, Compounding.batch]
      · simp [light, Compounding.batch]

/-- A batch is what some compounding of the prepared transaction flattens
to. -/
theorem exists_compounding {surroundings : Surroundings}
    {addressManager : AddressManager} {description : TransactionDescription}
    {fuel : Nat} {batch : List WalletSignableTransaction}
    (created : (generator.createUnsignedTransactions upstream surroundings
      manager addressManager description fuel).1 = .ok batch) :
    ∃ request unsigned compounding,
      (generator.prepare upstream surroundings manager addressManager
        description).1 = .ok (request, unsigned) ∧
      generator.compound upstream request surroundings.replies manager fuel 0
        unsigned = .ok compounding ∧
      compounding.batch = batch := by
  simp only [createUnsignedTransactions, Outcome.bind_eq_ok, Prod.exists,
    maybeAutoCompoundTransaction_eq, Outcome.map_eq_ok] at created
  obtain ⟨request, unsigned, prepared, compounding, compounded, flattened⟩ :=
    created
  exact ⟨request, unsigned, compounding, prepared, compounded, flattened⟩

end Flattening

section Induction

variable (upstream : Upstream) (generator : TransactionGenerator)
  (request : CompoundingRequest) (replies : NodeReplies)
  (manager : UtxoManager)

/-- The rounds that lead from a transaction to the end of its compounding. -/
inductive Compounds :
    Nat → WalletSignableTransaction → Compounding → Prop
  | light {round : Nat} {original : WalletSignableTransaction}
      (checked :
        generator.checkTransactionFeeRate upstream original = .ok ()) :
      Compounds round original ⟨[], original⟩
  | heavy {round : Nat} {original : WalletSignableTransaction}
      {transactionMass : UInt64} {done : CompoundRound} {rest : Compounding}
      (compounded : generator.compoundRound upstream request replies manager
        round original transactionMass = .ok done)
      (later : Compounds (round + 1) done.merge rest) :
      Compounds round original ⟨done :: rest.rounds, rest.last⟩

variable {upstream generator request replies manager}

theorem compounds_of_compound {fuel round : Nat}
    {original : WalletSignableTransaction} {compounding : Compounding}
    (compounded : generator.compound upstream request replies manager fuel
      round original = .ok compounding) :
    Compounds upstream generator request replies manager round original
      compounding := by
  induction fuel generalizing round original compounding with
  | zero => simp [compound] at compounded
  | succ fuel ih =>
      simp only [compound, Outcome.bind_eq_ok] at compounded
      obtain ⟨_, checked, transactionMass, -, remaining⟩ := compounded
      by_cases light : transactionMass < maximumStandardTransactionMass
      · simp only [light, if_true, Outcome.pure_eq_ok] at remaining
        subst remaining
        exact .light checked
      · simp only [light, if_false, Outcome.bind_eq_ok,
          Outcome.pure_eq_ok] at remaining
        obtain ⟨done, roundDone, rest, later, rfl⟩ := remaining
        exact .heavy roundDone (ih later)

theorem compoundRound_eq_ok {round : Nat}
    {original : WalletSignableTransaction} {transactionMass : UInt64}
    {done : CompoundRound} :
    generator.compoundRound upstream request replies manager round original
        transactionMass = .ok done ↔
      generator.splitTransactions upstream request original transactionMass =
          .ok done.splits ∧
        generator.mergePlan upstream request replies manager round done.splits
          original.tx = .ok done.plan ∧
        generator.buildMerge upstream request done.plan original.tx =
          .ok done.merge ∧
        done.original = original := by
  simp only [compoundRound, Outcome.bind_eq_ok, Outcome.pure_eq_ok]
  constructor
  · rintro ⟨splits, split, plan, planned, merge, merged, rfl⟩
    exact ⟨split, planned, merged, rfl⟩
  · rintro ⟨split, planned, merged, rfl⟩
    exact ⟨_, split, _, planned, _, merged, rfl⟩

/-- Every round of a compounding is one that the source performs. -/
theorem Compounds.compoundRound {round : Nat}
    {original : WalletSignableTransaction} {compounding : Compounding}
    (compounds : Compounds upstream generator request replies manager round
      original compounding) :
    ∀ done ∈ compounding.rounds, ∃ round transactionMass,
      generator.compoundRound upstream request replies manager round
        done.original transactionMass = .ok done := by
  induction compounds with
  | light => simp
  | @heavy round original transactionMass done rest compounded _ ih =>
      intro other member
      rcases List.mem_cons.mp member with rfl | later
      · have same := (compoundRound_eq_ok.mp compounded).2.2.2
        exact ⟨round, transactionMass, by rw [same]; exact compounded⟩
      · exact ih other later

/-- The last transaction is the merge transaction of the last round. -/
theorem Compounds.last {round : Nat} {original : WalletSignableTransaction}
    {compounding : Compounding}
    (compounds : Compounds upstream generator request replies manager round
      original compounding) :
    compounding.last =
        (compounding.rounds.getLast?.map CompoundRound.merge).getD original ∧
      generator.checkTransactionFeeRate upstream compounding.last =
        .ok () := by
  induction compounds with
  | light checked => exact ⟨rfl, checked⟩
  | @heavy round original transactionMass done rest compounded _ ih =>
      refine ⟨?_, ih.2⟩
      rw [ih.1]
      cases rest.rounds with
      | nil => rfl
      | cons first later => simp [List.getLast?_cons]

end Induction

section Preparation

variable {upstream : Upstream} {generator : TransactionGenerator}
  {surroundings : Surroundings} {manager : UtxoManager}
  {addressManager : AddressManager} {description : TransactionDescription}

/-- How `create_unsigned_transactions` arrives at the transaction that it
compounds. -/
structure Prepared (upstream : Upstream) (generator : TransactionGenerator)
    (surroundings : Surroundings) (manager : UtxoManager)
    (addressManager : AddressManager) (description : TransactionDescription)
    (request : CompoundingRequest)
    (unsigned : WalletSignableTransaction) where
  checked : CheckedDescription
  change : Address × WalletAddress
  amountSentToRecipient : UInt64
  changeSompi : UInt64
  accepted : checkDescription upstream surroundings.replies manager
    addressManager.addresses description = .ok checked
  drawn : (addressManager.changeAddress upstream
    description.useExistingChangeAddress checked.fromAddresses
    surroundings.saveKeys).1 = .ok change
  selected : generator.selectUtxos upstream surroundings.replies manager
    (availableUtxos surroundings.order manager checked.preselectedUtxos)
    (selectionRequest description checked) =
      .ok (request.selectedUtxos, amountSentToRecipient, changeSompi)
  generated : generator.generateUnsignedTransaction upstream
    (originalPayments checked.toAddress change.1 amountSentToRecipient
      changeSompi) request.selectedUtxos description.payload = .ok unsigned
  request_eq : request =
    compoundingRequest description checked change request.selectedUtxos

theorem prepared_of_prepare {request : CompoundingRequest}
    {unsigned : WalletSignableTransaction}
    (prepared : (generator.prepare upstream surroundings manager
      addressManager description).1 = .ok (request, unsigned)) :
    Nonempty (Prepared upstream generator surroundings manager addressManager
      description request unsigned) := by
  unfold prepare at prepared
  cases accepted : checkDescription upstream surroundings.replies manager
      addressManager.addresses description with
  | error fault => simp [accepted] at prepared
  | ok checked =>
      simp only [accepted, originalTransaction, Outcome.bind_eq_ok,
        Outcome.pure_eq_ok, Prod.exists, Prod.mk.injEq] at prepared
      obtain ⟨address, walletAddress, drawn, selectedUtxos, amount, change,
        selected, unsigned, generated, rfl, rfl⟩ := prepared
      exact ⟨⟨checked, (address, walletAddress), amount, change, accepted,
        drawn, selected, generated, rfl⟩⟩

theorem checkDescription_eq_ok {checked : CheckedDescription} :
    checkDescription upstream surroundings.replies manager
        addressManager.addresses description = .ok checked ↔
      ∃ preselected,
        validateAddress upstream description.toAddress =
          .ok checked.toAddress ∧
        (description.fromAddresses = [] ∨ description.utxos = []) ∧
        Outcome.collect (fromAddress addressManager.addresses)
          description.fromAddresses = .ok checked.fromAddresses ∧
        Outcome.collect (preselectedUtxo upstream manager)
          description.utxos = .ok preselected ∧
        calculateFeeLimits surroundings.replies description.feePolicy =
          .ok (checked.feeRate, checked.maxFee) ∧
        checked.preselectedUtxos =
          HashMap.insertAll WalletUtxo.outpoint ∅ preselected := by
  have exclusive :
      ¬(!description.fromAddresses.isEmpty && !description.utxos.isEmpty) =
          true ↔
        (description.fromAddresses = [] ∨ description.utxos = []) := by
    cases description.fromAddresses <;> cases description.utxos <;> simp
  simp only [checkDescription, Outcome.bind_eq_ok, Outcome.err,
    Outcome.guarded_eq_ok, exclusive, Prod.exists, Outcome.pure_eq_ok]
  constructor
  · rintro ⟨toAddress, valid, exclusive, fromAddresses, looked, preselected,
      found, feeRate, maxFee, limits, rfl⟩
    exact ⟨preselected, valid, exclusive, looked, found, limits, rfl⟩
  · rintro ⟨preselected, valid, exclusive, looked, found, limits, stored⟩
    refine ⟨_, valid, exclusive, _, looked, preselected, found, _, _, limits,
      ?_⟩
    rw [← stored]

end Preparation

end TransactionGenerator

end Kaswallet
