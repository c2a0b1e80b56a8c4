import Igra.Kaswallet.CompoundingRounds
import Igra.Runs

/-!
# The end of compounding

Compounding recurses on the merge transaction.  If the rounds that it reaches
go through, and the merge transaction of each has fewer inputs than the
transaction it was made from or is light enough, the recursion ends.
-/

open Kaspa Rust

namespace Kaswallet

namespace TransactionGenerator

section Termination

variable (upstream : Upstream) (generator : TransactionGenerator)
  (request : CompoundingRequest) (replies : NodeReplies)
  (manager : UtxoManager)

/-- A transaction that is compounded. -/
def Heavy (transaction : WalletSignableTransaction) : Prop :=
  maximumStandardTransactionMass.toNat ≤
    massOf upstream generator transaction.tx

/-- A transaction that pays for itself and is compounded. -/
def TakesRound (transaction : WalletSignableTransaction) : Prop :=
  generator.checkTransactionFeeRate upstream transaction = .ok () ∧
    Heavy upstream generator transaction

/-- A round of the recursion, from one call of
`maybe_auto_compound_transaction` to the next. -/
def RoundStep (state : Nat × WalletSignableTransaction)
    (done : CompoundRound) (next : Nat × WalletSignableTransaction) : Prop :=
  generator.checkTransactionFeeRate upstream state.2 = .ok () ∧
    Heavy upstream generator state.2 ∧
    (∃ transactionMass,
      computeMassForUnsignedConsensusTransaction upstream state.2.tx
        generator.keys.minimumSignatures = .ok transactionMass ∧
      generator.compoundRound upstream request replies manager state.1
        state.2 transactionMass = .ok done) ∧
    next = (state.1 + 1, done.merge)

variable {upstream generator request replies manager}
  {state next : Nat × WalletSignableTransaction} {done : CompoundRound}

theorem progress_of_roundStep
    (ready : Ready upstream generator state.2)
    (fits : TakesRound upstream generator state.2 →
      RoundFits upstream generator request replies manager state.1 state.2)
    (taken : RoundStep upstream generator request replies manager state done
      next) :
    Ready upstream generator next.2 ∧ done.original = state.2 ∧
      done.merge = next.2 ∧
      (Heavy upstream generator next.2 →
        next.2.tx.inputs.length < state.2.tx.inputs.length) := by
  obtain ⟨checked, heavy, ⟨mass, weighed, compounded⟩, rfl⟩ := taken
  obtain ⟨ready, progress⟩ := progress_of_compoundRound ready
    (fits ⟨checked, heavy⟩) weighed compounded
  refine ⟨ready, (compoundRound_eq_ok.mp compounded).2.2.2, rfl, ?_⟩
  intro stillHeavy
  rcases progress with light | fewer
  · exact absurd light (Nat.not_lt.mpr stillHeavy)
  · exact fewer

theorem built_of_run {start : Nat × WalletSignableTransaction}
    {rounds : List CompoundRound}
    (run : Runs.Run (RoundStep upstream generator request replies manager)
      start rounds state)
    (built : Built upstream generator start.2) :
    Built upstream generator state.2 := by
  refine @Runs.Run.preserves _ _ _ _ _ _
    (fun state => Built upstream generator state.2) run built ?_
  rintro state done next - ⟨-, -, ⟨_, -, compounded⟩, rfl⟩
  obtain ⟨-, -, merged, -⟩ := compoundRound_eq_ok.mp compounded
  exact ⟨_, _, _, length_mergePayments _, merged⟩

/-- In a run whose rounds fit, every state is ready for the next round. -/
theorem ready_of_run {start : Nat × WalletSignableTransaction}
    {rounds : List CompoundRound}
    (run : Runs.Run (RoundStep upstream generator request replies manager)
      start rounds state)
    (ready : Ready upstream generator start.2)
    (fits : ∀ rounds state,
      Runs.Run (RoundStep upstream generator request replies manager) start
        rounds state →
      TakesRound upstream generator state.2 →
      RoundFits upstream generator request replies manager state.1
        state.2) :
    Ready upstream generator state.2 ∧
      ∀ done ∈ rounds, Heavy upstream generator done.merge →
        done.merge.tx.inputs.length < done.original.tx.inputs.length := by
  induction run with
  | start => exact ⟨ready, by simp⟩
  | @extend rounds state next done run taken ih =>
      obtain ⟨readyHere, shrinks⟩ := ih
      obtain ⟨readyNext, sameOriginal, sameMerge, progress⟩ :=
        progress_of_roundStep readyHere (fits rounds state run) taken
      refine ⟨readyNext, ?_⟩
      intro other member
      rcases List.mem_append.mp member with earlier | last
      · exact shrinks other earlier
      · obtain rfl := List.mem_singleton.mp last
        rw [sameOriginal, sameMerge]
        exact progress

theorem settled_of_light (ready : Ready upstream generator state.2)
    (light : ¬Heavy upstream generator state.2) :
    (generator.compound upstream request replies manager 1 state.1
      state.2).Settled := by
  obtain ⟨masses, weighed⟩ := ready.built.masses
  obtain ⟨mass, computed⟩ := exists_computeMass_of_masses weighed
  have below : mass < maximumStandardTransactionMass := by
    rw [Heavy, massOf_eq computed, not_le] at light
    exact UInt64.lt_iff_toNat_lt.mpr light
  unfold compound
  apply Outcome.Settled.bind
    (settled_checkTransactionFeeRate ready.ins ready.outs weighed)
  intro _ _
  rw [computed, Outcome.ok_bind, if_pos below]
  exact Outcome.settled_ok _

/-- A heavy transaction that is ready either ends the compounding with an
error or takes a round. -/
theorem settled_or_roundStep (ready : Ready upstream generator state.2)
    (heavy : Heavy upstream generator state.2)
    (fits : TakesRound upstream generator state.2 →
      RoundFits upstream generator request replies manager state.1
        state.2) :
    (generator.compound upstream request replies manager 1 state.1
        state.2).Settled ∨
      ∃ done,
        RoundStep upstream generator request replies manager state done
          (state.1 + 1, done.merge) ∧
        ∀ fuel, (generator.compound upstream request replies manager fuel
            (state.1 + 1) done.merge).Settled →
          (generator.compound upstream request replies manager (fuel + 1)
            state.1 state.2).Settled := by
  obtain ⟨masses, weighed⟩ := ready.built.masses
  obtain ⟨mass, computed⟩ := exists_computeMass_of_masses weighed
  have above : ¬mass < maximumStandardTransactionMass := by
    have limit := heavy
    rw [Heavy, massOf_eq computed] at limit
    rw [UInt64.lt_iff_toNat_lt]
    exact Nat.not_lt.mpr limit
  rcases settled_checkTransactionFeeRate ready.ins ready.outs weighed with
    ⟨⟨⟩, checked⟩ | ⟨error, failed⟩
  · rcases settled_compoundRound ready.built ready.ins
        (fits ⟨checked, heavy⟩) computed with
      ⟨done, compounded⟩ | ⟨error, failed⟩
    · refine .inr ⟨done,
        ⟨checked, heavy, ⟨mass, computed, compounded⟩, rfl⟩, ?_⟩
      intro fuel settled
      rw [compound, checked, Outcome.ok_bind, computed, Outcome.ok_bind,
        if_neg above, compounded, Outcome.ok_bind]
      exact settled.bind fun rest _ => Outcome.settled_ok _
    · left
      rw [compound, checked, Outcome.ok_bind, computed, Outcome.ok_bind,
        if_neg above, failed]
      exact Outcome.settled_err error
  · left
    rw [compound, failed]
    exact Outcome.settled_err error

/-- Each heavy merge transaction has fewer inputs than the transaction it was
made from, so that some number of rounds is enough. -/
theorem exists_fuel_of_run {start : Nat × WalletSignableTransaction}
    (ready : Ready upstream generator start.2)
    (fits : ∀ rounds state,
      Runs.Run (RoundStep upstream generator request replies manager) start
        rounds state →
      TakesRound upstream generator state.2 →
      RoundFits upstream generator request replies manager state.1 state.2)
    {rounds : List CompoundRound}
    (run : Runs.Run (RoundStep upstream generator request replies manager)
      start rounds state) :
    ∃ fuel, (generator.compound upstream request replies manager fuel
      state.1 state.2).Settled := by
  induction length : state.2.tx.inputs.length using
    Nat.strong_induction_on generalizing state rounds with
  | _ count ih =>
      have readyHere := (ready_of_run run ready fits).1
      by_cases heavy : Heavy upstream generator state.2
      · have fitsHere := fits rounds state run
        rcases settled_or_roundStep readyHere heavy fitsHere with
          ends | ⟨done, taken, continues⟩
        · exact ⟨1, ends⟩
        · obtain ⟨readyNext, -, -, progress⟩ :=
            progress_of_roundStep readyHere fitsHere taken
          by_cases still : Heavy upstream generator done.merge
          · obtain ⟨fuel, settled⟩ := ih _ (length ▸ progress still)
              (run.extend taken) rfl
            exact ⟨fuel + 1, continues fuel settled⟩
          · exact ⟨2, continues 1 (settled_of_light readyNext still)⟩
      · exact ⟨1, settled_of_light readyHere heavy⟩

variable {surroundings : Surroundings} {addressManager : AddressManager}
  {description : TransactionDescription}
  {unsigned : WalletSignableTransaction}

/-- The selection has summed the UTXOs that it returns. -/
theorem totalAmount_lt_of_selectUtxos {availableUtxos selected :
      List WalletUtxo} {selection : SelectionRequest}
    {amountSentToRecipient changeSompi : UInt64}
    (returned : generator.selectUtxos upstream replies manager availableUtxos
      selection = .ok (selected, amountSentToRecipient, changeSompi)) :
    totalAmount selected < 2 ^ 64 := by
  simp only [selectUtxos, Outcome.bind_eq_ok, Prod.exists, Outcome.err,
    Outcome.guarded_eq_ok, Outcome.pure_eq_ok, Prod.mk.injEq] at returned
  obtain ⟨_, -, final, looped, _, _, -, -, -, rfl, -, -⟩ := returned
  obtain ⟨_, -, -, -, accounts⟩ :=
    selectionLoop_picks Selection.accounts_empty looped
  rw [← accounts.total]
  exact final.totalValue.toNat_lt

theorem ready_of_prepare
    (made : (generator.prepare upstream surroundings manager addressManager
      description).1 = .ok (request, unsigned)) :
    Ready upstream generator unsigned := by
  obtain ⟨prepared⟩ := prepared_of_prepare made
  obtain ⟨fee, -, balance⟩ := prepared.inputsValue_unsigned
  have ins : inputsValue unsigned < 2 ^ 64 := by
    rw [inputsValue_of_generateUnsignedTransaction prepared.generated]
    exact totalAmount_lt_of_selectUtxos prepared.selected
  refine ⟨⟨_, _, _, ?_, prepared.generated⟩, ins, by omega⟩
  unfold originalPayments
  split <;> simp

/-- Compounding returns, a batch or an error, and each merge transaction that
is split again has fewer inputs than the transaction it was made from, if
every round that the recursion takes fits. -/
theorem compounding_ends_of_rounds_fit
    (made : (generator.prepare upstream surroundings manager addressManager
      description).1 = .ok (request, unsigned))
    (fits : ∀ rounds state,
      Runs.Run (RoundStep upstream generator request surroundings.replies
        manager) (0, unsigned) rounds state →
      TakesRound upstream generator state.2 →
      RoundFits upstream generator request surroundings.replies manager
        state.1 state.2) :
    (∃ fuel, (generator.createUnsignedTransactions upstream surroundings
      manager addressManager description fuel).1.Settled) ∧
    ∀ rounds state,
      Runs.Run (RoundStep upstream generator request surroundings.replies
        manager) (0, unsigned) rounds state →
      ∀ done ∈ rounds, Heavy upstream generator done.merge →
        done.merge.tx.inputs.length < done.original.tx.inputs.length := by
  have ready : Ready upstream generator (0, unsigned).2 :=
    ready_of_prepare made
  constructor
  · obtain ⟨fuel, settled⟩ := exists_fuel_of_run ready fits .start
    refine ⟨fuel, ?_⟩
    simp only [createUnsignedTransactions, made, Outcome.ok_bind,
      maybeAutoCompoundTransaction_eq]
    exact settled.map _
  · intro rounds state run
    exact (ready_of_run run ready fits).2

end Termination

section FiveLarge

theorem length_payToAddressScript_le (address : Address) :
    (devnet.payToAddressScript address).script.length ≤ 36 := by
  obtain ⟨addressPrefix, version, payload, size⟩ := address
  cases version <;>
    simp_all [devnet, Devnet.payToAddressScript, AddressVersion.publicKeyLen]

theorem serializedSize_consensusTransaction_le
    (generator : TransactionGenerator) {payments : List WalletPayment}
    (few : payments.length ≤ 2) (utxos : List WalletUtxo)
    (payload : List UInt8) :
    Devnet.serializedSize
        (generator.consensusTransaction devnet payments utxos payload) ≤
      202 + payload.length + 52 * utxos.length := by
  have outputs : (payments.map fun payment =>
      18 + (devnet.payToAddressScript payment.address).script.length).sum ≤
        (payments.map fun _ => 54).sum := by
    apply List.sum_le_sum
    intro payment _
    exact Nat.add_le_add_left (length_payToAddressScript_le payment.address) 18
  have inputs : (utxos.map fun utxo =>
      52 + (generator.inputOf utxo).signatureScript.length).sum =
        52 * utxos.length := by
    simp [inputOf, Nat.mul_comm]
  rw [List.map_const', List.sum_replicate_nat] at outputs
  simp only [Devnet.serializedSize, consensusTransaction, Transaction.new,
    List.map_map, Function.comp_def, outputOf, TransactionOutput.new, inputs]
  omega

theorem weighs_devnet {generator : TransactionGenerator}
    (native : generator.txVersion = 0) {payload : List UInt8}
    {inputCount : Nat} (short : payload.length < 2 ^ 32)
    (few : inputCount < 2 ^ 32) :
    Weighs devnet generator payload inputCount := by
  intro payments utxos atMostTwo atMost
  have size := serializedSize_consensusTransaction_le generator atMostTwo utxos
    payload
  have commits : ComputeCommit.versionExpectsComputeBudgetField
      (generator.consensusTransaction devnet payments utxos payload).version =
        false := by
    simp only [consensusTransaction, Transaction.new, native]
    rfl
  have weighed : ∃ mass, computeMassForUnsignedConsensusTransaction devnet
      (generator.consensusTransaction devnet payments utxos payload)
      generator.keys.minimumSignatures = .ok mass := by
    rw [computeMassForUnsignedConsensusTransaction, commits]
    exact ⟨_, rfl⟩
  obtain ⟨mass, computed⟩ := weighed
  have inputs : (generator.consensusTransaction devnet payments utxos
      payload).inputs.length = utxos.length := by
    simp [consensusTransaction, Transaction.new]
  apply exists_masses_of_fits computed
  · omega
  · have small : Devnet.serializedSize (generator.consensusTransaction devnet
        payments utxos payload) < 2 ^ 60 := by
      omega
    exact (UInt64.toNat_ofNat_of_lt' (small.trans (by decide))).trans_lt small

/-- If the first round leads to a light merge transaction, there is no
other. -/
theorem first_or_light_of_run {upstream : Upstream}
    {generator : TransactionGenerator} {request : CompoundingRequest}
    {replies : NodeReplies} {manager : UtxoManager}
    {start state : Nat × WalletSignableTransaction}
    {rounds : List CompoundRound}
    (run : Runs.Run (RoundStep upstream generator request replies manager)
      start rounds state)
    (light : ∀ done next,
      RoundStep upstream generator request replies manager start done next →
      ¬Heavy upstream generator next.2) :
    state = start ∨ ¬Heavy upstream generator state.2 := by
  induction run with
  | start => exact .inl rfl
  | @extend rounds state next done run taken ih =>
      rcases ih with rfl | lightHere
      · exact .inr (light done next taken)
      · exact absurd taken.2.1 lightHere

def fiveLarge : UtxoManager :=
  sampleStore ((List.range 5).map fun tag =>
    sampleUtxo (UInt8.ofNat tag) 1000000000)

/-- Twenty signatures for each of five inputs are too heavy for one
transaction, but not for the two inputs of the merge transaction. -/
theorem fiveLarge_run :
    ((sampleGenerator 20).prepare devnet (sampleSurroundings 1.0) fiveLarge
        (sampleBook 20) (sampleDescription 4500000000 none)).1.Returns
      fun (request, unsigned) =>
        let empty := emptySplit devnet (sampleGenerator 20) request
        request.maxFee = 100000000 ∧ request.amount = 4500000000 ∧
          unsigned.tx.payload = [] ∧ unsigned.tx.inputs.length = 5 ∧
          entryAmounts unsigned.transaction.inner =
            List.replicate 5 1000000000 ∧
          computeMassForUnsignedConsensusTransaction devnet unsigned.tx 20 =
            .ok 107789 ∧
          massOf devnet (sampleGenerator 20)
            { unsigned.tx with inputs := [] } < 107789 ∧
          massOf devnet (sampleGenerator 20) empty +
            inputMass devnet (sampleGenerator 20) unsigned.tx ≤ 100000 ∧
          splitCount devnet (sampleGenerator 20) request unsigned.tx = 2 ∧
          ((sampleGenerator 20).compoundRound devnet request
              (sampleReplies 1.0) fiveLarge 0 unsigned 107789).WhenOk
            fun done =>
              massOf devnet (sampleGenerator 20) done.merge.tx < 100000 := by
  decide +kernel

theorem fiveLarge_ends :
    ∃ request unsigned,
      ((sampleGenerator 20).prepare devnet (sampleSurroundings 1.0) fiveLarge
        (sampleBook 20) (sampleDescription 4500000000 none)).1 =
          .ok (request, unsigned) ∧
      Heavy devnet (sampleGenerator 20) unsigned ∧
      (∃ fuel, ((sampleGenerator 20).createUnsignedTransactions devnet
        (sampleSurroundings 1.0) fiveLarge (sampleBook 20)
        (sampleDescription 4500000000 none) fuel).1.Settled) ∧
      ∀ rounds state,
        Runs.Run (RoundStep devnet (sampleGenerator 20) request
          (sampleReplies 1.0) fiveLarge) (0, unsigned) rounds state →
        ∀ done ∈ rounds, Heavy devnet (sampleGenerator 20) done.merge →
          done.merge.tx.inputs.length < done.original.tx.inputs.length := by
  obtain ⟨⟨request, unsigned⟩, made, facts⟩ := fiveLarge_run
  dsimp only at facts
  obtain ⟨maxFee, amount, payload, length, amounts, weighed, lighter,
    oneFits, splits, light⟩ := facts
  have mass : massOf devnet (sampleGenerator 20) unsigned.tx =
      (107789 : UInt64).toNat := massOf_eq weighed
  have heavy : Heavy devnet (sampleGenerator 20) unsigned := by
    rw [Heavy, mass]
    decide
  have built := (ready_of_prepare made).built
  have stored : fiveLarge.utxosSortedByAmount.length = 5 := by
    decide +kernel
  have fits : RoundFits devnet (sampleGenerator 20) request
      (sampleReplies 1.0) fiveLarge 0 unsigned := by
    apply roundFits_of_worth built
    · intro payload member
      have nothing : payload = [] := by simp_all
      subst nothing
      exact weighs_devnet rfl (by simp) (by rw [length, stored]; decide)
    · exact ⟨by rw [mass]; exact lighter, oneFits⟩
    · intro value member
      rw [amounts] at member
      rw [List.eq_of_mem_replicate member, maxFee]
      decide
    · rw [inputsValue, amounts, splits, amount, maxFee]
      decide
    · rw [splits, length]
      decide
  refine ⟨request, unsigned, made, heavy,
    compounding_ends_of_rounds_fit made ?_⟩
  intro rounds state run stillHeavy
  have reached : state = (0, unsigned) ∨
      ¬Heavy devnet (sampleGenerator 20) state.2 := by
    apply first_or_light_of_run run
    rintro done next ⟨-, -, ⟨transactionMass, same, compounded⟩, rfl⟩
    have known : transactionMass = 107789 := by
      have both := same.symm.trans weighed
      exact Except.ok.inj both
    rw [known] at compounded
    exact Nat.not_le.mpr (light done compounded)
  rcases reached with rfl | lightHere
  · exact fits
  · exact absurd stillHeavy.2 lightHere

end FiveLarge

section TenSmall

def tenSmall : UtxoManager :=
  sampleStore ((List.range 10).map fun tag =>
    sampleUtxo (UInt8.ofNat tag) 40000)

def exactPayment : TransactionDescription :=
  sampleDescription 90555 (some (some (.exactFeeRate 1.0)))

theorem tenSmall_run :
    ((sampleGenerator 20).prepare devnet (sampleSurroundings 1.0) tenSmall
        (sampleBook 20) exactPayment).1.Returns fun (request, unsigned) =>
      ((sampleGenerator 20).compoundRound devnet request (sampleReplies 1.0)
          tenSmall 0 unsigned 107366).Returns fun first =>
        (sampleGenerator 20).checkTransactionFeeRate devnet unsigned =
            .ok () ∧
          computeMassForUnsignedConsensusTransaction devnet unsigned.tx 20 =
            .ok 107366 ∧
          (sampleGenerator 20).checkTransactionFeeRate devnet first.merge =
            .ok () ∧
          computeMassForUnsignedConsensusTransaction devnet first.merge.tx
            20 = .ok 107366 ∧
          unsigned.tx.inputs.length = 5 ∧
          first.merge.tx.inputs.length = 5 ∧
          ((sampleGenerator 20).compoundRound devnet request
            (sampleReplies 1.0) tenSmall 1 first.merge 107366).Returns
              fun _ => True := by
  decide +kernel

/-- The first merge transaction spends two splits and adds three UTXOs; it is
split again with five inputs, as many as the transaction it was made
from. -/
theorem tenSmall_merge_keeps_inputs :
    ∃ request unsigned first second,
      ((sampleGenerator 20).prepare devnet (sampleSurroundings 1.0) tenSmall
        (sampleBook 20) exactPayment).1 = .ok (request, unsigned) ∧
      RoundStep devnet (sampleGenerator 20) request (sampleReplies 1.0)
        tenSmall (0, unsigned) first (1, first.merge) ∧
      RoundStep devnet (sampleGenerator 20) request (sampleReplies 1.0)
        tenSmall (1, first.merge) second (2, second.merge) ∧
      ¬first.merge.tx.inputs.length < first.original.tx.inputs.length := by
  obtain ⟨⟨request, unsigned⟩, made, first, compounded, paid, weighed,
    paidAgain, weighedAgain, length, lengthAgain, second, compoundedAgain,
    -⟩ := tenSmall_run
  have heavy : ∀ transaction : WalletSignableTransaction,
      computeMassForUnsignedConsensusTransaction devnet transaction.tx 20 =
        .ok 107366 → Heavy devnet (sampleGenerator 20) transaction := by
    intro transaction mass
    have weight : massOf devnet (sampleGenerator 20) transaction.tx =
        (107366 : UInt64).toNat := massOf_eq mass
    rw [Heavy, weight]
    decide
  have original : first.original = unsigned :=
    (compoundRound_eq_ok.mp compounded).2.2.2
  refine ⟨request, unsigned, first, second, made,
    ⟨paid, heavy unsigned weighed, ⟨_, weighed, compounded⟩, rfl⟩,
    ⟨paidAgain, heavy first.merge weighedAgain,
      ⟨_, weighedAgain, compoundedAgain⟩, rfl⟩, ?_⟩
  rw [original]
  omega

end TenSmall

end TransactionGenerator

end Kaswallet
