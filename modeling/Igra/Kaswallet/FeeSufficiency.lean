import Igra.Kaswallet.CompoundingEnds
import Igra.Kaswallet.RelayMass
import Igra.Rust.Float64Ceiling

/-!
# Fees suffice

The fee that `select_utxos` leaves is the estimate for the first UTXO, once for
each UTXO.  A transaction with several inputs weighs less than that many
transactions with one, so the fee covers its mass at the fee rate.  Splits and
merge transactions pay what was estimated for as many inputs and outputs that
are no narrower.
-/

open Kaspa Rust

namespace Kaswallet

/-- A fee cap that never binds. -/
def noFeeCap : UInt64 := 0xffffffffffffffff

def CompoundingRequest.uncapped (request : CompoundingRequest) :
    CompoundingRequest :=
  { request with maxFee := noFeeCap }

namespace TransactionGenerator

def SelectionRequest.uncapped (request : SelectionRequest) :
    SelectionRequest :=
  { request with maxFee := noFeeCap }

section Sufficiency

variable (upstream : Upstream) (generator : TransactionGenerator)
  (feeRate : Float)

/-- The fee of a transaction is its relay mass at the fee rate, and the check
of the fee does not fail. -/
structure PaysFeeRate (transaction : WalletSignableTransaction) : Prop where
  covered : ∃ mass,
    nonContextualFeeMass upstream transaction.tx
        generator.keys.minimumSignatures = .ok mass ∧
      outputsValue transaction +
          (ceilToUInt64 (mass.toFloat * feeRate)).toNat ≤
        inputsValue transaction
  accepted : ∀ error,
    generator.checkTransactionFeeRate upstream transaction ≠
      Outcome.err error

variable {upstream generator feeRate} {payments : List WalletPayment}
  {utxos : List WalletUtxo} {payload : List UInt8}
  {built : WalletSignableTransaction}

theorem checkTransactionFeeRate_ne_err {mass : UInt64}
    {transaction : WalletSignableTransaction}
    (weighed : nonContextualFeeMass upstream transaction.tx
      generator.keys.minimumSignatures = .ok mass)
    (positive : 0 < mass.toNat) (small : mass.toNat ≤ 2 ^ 50)
    (paid : outputsValue transaction + mass.toNat ≤ inputsValue transaction)
    (error : WalletError) :
    generator.checkTransactionFeeRate upstream transaction ≠
      Outcome.err error := by
  intro failed
  simp only [checkTransactionFeeRate, Outcome.bind_eq_err,
    checkedSum_ne_err, checkedSum_eq_ok, false_or] at failed
  obtain ⟨totalIns, ins, totalOuts, outs, failed⟩ := failed
  change inputsValue transaction = _ at ins
  change outputsValue transaction = _ at outs
  have ordered : totalOuts ≤ totalIns := by
    rw [UInt64.le_iff_toNat_le]
    omega
  have fee := UInt64.toNat_sub_of_le _ _ ordered
  have enough := @not_div_toFloat_lt_one (totalIns - totalOuts) mass positive
    (by omega) (by omega)
  rw [if_neg (not_lt.mpr ordered)] at failed
  change (nonContextualFeeMass upstream transaction.tx
    generator.keys.minimumSignatures >>= _) = _ at failed
  rw [weighed, Outcome.ok_bind, if_neg enough] at failed
  exact Outcome.pure_ne_err _ _ failed

theorem paysFeeRate_of_fee (laws : RelayMassLaws upstream generator)
    (within : laws.measure.Within massBound
      (shapeOf upstream payments utxos payload))
    (atLeast : 1.0 ≤ feeRate)
    (generated : generator.generateUnsignedTransaction upstream payments utxos
      payload = .ok built)
    (fee : ∀ mass : UInt64,
      mass.toNat = laws.measure.weigh (shapeOf upstream payments utxos
        payload) →
      outputsValue built + (ceilToUInt64 (mass.toFloat * feeRate)).toNat ≤
        inputsValue built) :
    PaysFeeRate upstream generator feeRate built := by
  obtain ⟨_, masses, -, weighedMasses, -⟩ :=
    generateUnsignedTransaction_eq_ok.mp generated
  obtain ⟨mass, weighed⟩ := exists_feeMass_of_masses weighedMasses
  have mass_eq := feeMass_eq laws within weighed
  have least := laws.measure.four_le_weigh
    (shapeOf upstream payments utxos payload)
  have positive : 0 < mass.toNat := by omega
  have small : mass.toNat ≤ 2 ^ 50 := mass_eq ▸ within.scaled
  have paid := fee mass mass_eq
  have units := le_ceil_mul atLeast positive small
  rw [← tx_of_generateUnsignedTransaction generated] at weighed
  exact ⟨⟨mass, weighed, paid⟩,
    checkTransactionFeeRate_ne_err weighed positive small (by omega)⟩

private theorem within_uniform {measure : Weights.Measure}
    {bound inputs widest payloadLength : Nat}
    (within : measure.Within bound (.uniform inputs 2 widest payloadLength))
    (count : Nat) (few : count ≤ 2) :
    measure.Within bound (.uniform inputs count widest payloadLength) :=
  within.of_uniform (by rwa [List.length_replicate])
    fun _ member => (List.eq_of_mem_replicate member).le

/-- What an estimate weighs: as many inputs and one or two outputs of the
widest kind. -/
theorem estimateMass_eq (laws : RelayMassLaws upstream generator)
    (within : laws.WithinBound utxos.length payload.length)
    {recipientValue mass : UInt64}
    (estimated : generator.estimateMass upstream utxos recipientValue payload =
      .ok mass) :
    ∃ total : UInt64, totalAmount utxos = total.toNat ∧
      mass.toNat = laws.measure.weigh
        (.uniform utxos.length (if recipientValue < total then 2 else 1)
          (scriptLength upstream generator.mockAddress) payload.length) := by
  simp only [estimateMass, Outcome.bind_eq_ok,
    checkedSum_amounts_eq_ok] at estimated
  obtain ⟨total, summed, mock, generated, weighed⟩ := estimated
  refine ⟨total, summed, ?_⟩
  rw [tx_of_generateUnsignedTransaction generated] at weighed
  have shape_eq : shapeOf upstream
      (generator.mockPayments total recipientValue) utxos
      payload = .uniform utxos.length (if recipientValue < total then 2 else 1)
        (scriptLength upstream generator.mockAddress) payload.length := by
    unfold mockPayments shapeOf Weights.Shape.uniform
    split <;> rfl
  have estimateWithin := within_uniform within
    (if recipientValue < total then 2 else 1) (by split <;> decide)
  rw [← shape_eq] at estimateWithin ⊢
  exact feeMass_eq laws estimateWithin weighed

theorem estimateFee_uncapped {recipientValue fee : UInt64}
    (estimated : generator.estimateFee upstream utxos feeRate noFeeCap
      recipientValue payload = .ok fee) :
    ∃ mass, generator.estimateMass upstream utxos recipientValue payload =
        .ok mass ∧ fee = ceilToUInt64 (mass.toFloat * feeRate) := by
  simp only [estimateFee, Outcome.bind_eq_ok, Outcome.pure_eq_ok] at estimated
  obtain ⟨mass, weighed, rfl⟩ := estimated
  refine ⟨mass, weighed, min_eq_left ?_⟩
  rw [UInt64.le_iff_toNat_le]
  have bound := (ceilToUInt64 (mass.toFloat * feeRate)).toNat_lt
  have cap : noFeeCap.toNat = 2 ^ 64 - 1 := rfl
  omega

private theorem sizes_of_generateUnsignedTransaction
    (generated : generator.generateUnsignedTransaction upstream payments utxos
      payload = .ok built) :
    built.tx.inputs.length = utxos.length ∧ built.tx.payload = payload := by
  rw [tx_of_generateUnsignedTransaction generated]
  simp [consensusTransaction, Transaction.new]

theorem outputs_narrow (scripts : EcdsaScriptsLongest upstream generator)
    (payments : List WalletPayment) :
    ∀ size ∈ payments.map
        (fun payment => scriptLength upstream payment.address),
      size ≤ scriptLength upstream generator.mockAddress := by
  intro size member
  obtain ⟨payment, -, rfl⟩ := List.mem_map.mp member
  exact scripts payment.address

private theorem within_shapeOf (laws : RelayMassLaws upstream generator)
    (scripts : EcdsaScriptsLongest upstream generator)
    (within : laws.WithinBound utxos.length payload.length)
    (few : payments.length ≤ 2) :
    laws.measure.Within massBound (shapeOf upstream payments utxos payload) :=
  within.of_uniform (by rwa [List.length_map])
    (outputs_narrow scripts payments)

/-- A transaction with the inputs of an estimate, and outputs that are no more
than its outputs, costs no more than the estimate. -/
theorem cost_le_estimate (laws : RelayMassLaws upstream generator)
    (scripts : EcdsaScriptsLongest upstream generator)
    (within : laws.WithinBound utxos.length payload.length)
    (atLeast : 1.0 ≤ feeRate) {recipientValue fee mass : UInt64}
    (estimated : generator.estimateFee upstream utxos feeRate noFeeCap
      recipientValue payload = .ok fee)
    (few : ∀ total : UInt64, totalAmount utxos = total.toNat →
      payments.length ≤ if recipientValue < total then 2 else 1)
    (mass_eq : mass.toNat =
      laws.measure.weigh (shapeOf upstream payments utxos payload)) :
    (ceilToUInt64 (mass.toFloat * feeRate)).toNat ≤ fee.toNat := by
  obtain ⟨estimate, weighed, rfl⟩ := estimateFee_uncapped estimated
  obtain ⟨total, summed, estimate_eq⟩ := estimateMass_eq laws within weighed
  have least := laws.measure.four_le_weigh
    (shapeOf upstream payments utxos payload)
  have most : estimate.toNat ≤ 2 ^ 50 := estimate_eq ▸
    (within_uniform within (if recipientValue < total then 2 else 1)
      (by split <;> decide)).scaled
  have lighter := @Weights.Measure.weigh_le_uniform laws.measure _
    (if recipientValue < total then 2 else 1) _ payload.length utxos.length
    (by rw [List.length_map]; exact few total summed)
    (outputs_narrow scripts payments)
  change laws.measure.weigh (shapeOf upstream payments utxos payload) ≤ _
    at lighter
  exact ceil_mul_mono atLeast (by omega) (by omega) most

/-- A transaction with several inputs costs no more than that many estimates
for one of them. -/
theorem cost_le_estimates (laws : RelayMassLaws upstream generator)
    (scripts : EcdsaScriptsLongest upstream generator)
    (within : laws.WithinBound utxos.length payload.length)
    (atLeast : 1.0 ≤ feeRate) {first : WalletUtxo}
    {recipientValue fee mass : UInt64} (several : 2 ≤ utxos.length)
    (few : payments.length ≤ 2)
    (estimated : generator.estimateFee upstream [first] feeRate noFeeCap
      recipientValue payload = .ok fee)
    (mass_eq : mass.toNat =
      laws.measure.weigh (shapeOf upstream payments utxos payload)) :
    (ceilToUInt64 (mass.toFloat * feeRate)).toNat ≤
      utxos.length * fee.toNat := by
  obtain ⟨estimate, weighed, rfl⟩ := estimateFee_uncapped estimated
  have one : [first].length ≤ utxos.length := by
    rw [List.length_singleton]
    omega
  obtain ⟨total, -, estimate_eq⟩ :=
    estimateMass_eq laws (within.of_inputs_le one) weighed
  rw [List.length_singleton] at estimate_eq
  have least := laws.measure.four_le_weigh
    (shapeOf upstream payments utxos payload)
  have most : mass.toNat ≤ 2 ^ 50 :=
    mass_eq ▸ (within_shapeOf laws scripts within few).scaled
  have estimateLeast := laws.measure.four_le_weigh
    (.uniform 1 (if recipientValue < total then 2 else 1)
      (scriptLength upstream generator.mockAddress) payload.length)
  have lighter := @Weights.Measure.weigh_sublinear laws.measure _
    (if recipientValue < total then 2 else 1) _ payload.length _ several
    (by rwa [List.length_map]) (by split <;> decide)
    (outputs_narrow scripts payments)
  change laws.measure.weigh (shapeOf upstream payments utxos payload) + 2 ≤ _
    at lighter
  rw [← estimate_eq] at estimateLeast
  rw [← estimate_eq, ← mass_eq] at lighter
  have parts := @ceil_mul_le_parts _ atLeast mass
    (List.replicate utxos.length estimate) (by omega) most
    (by
      intro part member
      rw [(List.mem_replicate.mp member).2]
      omega)
    (by simpa using lighter)
  simpa using parts

section Selection

variable {request : SelectionRequest} {replies : NodeReplies}
  {manager : UtxoManager} {availableUtxos selectedUtxos : List WalletUtxo}
  {amountSentToRecipient changeSompi : UInt64}

theorem length_originalPayments (toAddress changeAddress : Address) :
    (originalPayments toAddress changeAddress amountSentToRecipient
      changeSompi).length = if 0 < changeSompi then 2 else 1 := by
  unfold originalPayments
  split <;> rfl

theorem length_originalPayments_le (amountSentToRecipient changeSompi : UInt64)
    (toAddress changeAddress : Address) :
    (originalPayments toAddress changeAddress amountSentToRecipient
      changeSompi).length ≤ 2 := by
  rw [length_originalPayments]
  split <;> decide

private theorem totalPaid_originalPayments (toAddress changeAddress : Address) :
    totalPaid (originalPayments toAddress changeAddress amountSentToRecipient
      changeSompi) = amountSentToRecipient.toNat + changeSompi.toNat := by
  unfold originalPayments
  split
  · simp
  · rename_i none
    rw [UInt64.lt_iff_toNat_lt] at none
    simp
    exact Nat.eq_zero_of_not_pos none

theorem paysFeeRate_of_selectUtxos
    (laws : RelayMassLaws upstream generator)
    (scripts : EcdsaScriptsLongest upstream generator)
    (within : laws.WithinBound selectedUtxos.length request.payload.length)
    (atLeast : 1.0 ≤ request.feeRate)
    (selected : generator.selectUtxos upstream replies manager availableUtxos
      request.uncapped = .ok
        (selectedUtxos, amountSentToRecipient, changeSompi))
    (nonempty : selectedUtxos ≠ []) {toAddress changeAddress : Address}
    (generated : generator.generateUnsignedTransaction upstream
      (originalPayments toAddress changeAddress amountSentToRecipient
        changeSompi) selectedUtxos request.payload = .ok built) :
    PaysFeeRate upstream generator request.feeRate built := by
  have few := length_originalPayments_le amountSentToRecipient changeSompi
    toAddress changeAddress
  apply paysFeeRate_of_fee laws (within_shapeOf laws scripts within few)
    atLeast generated
  intro mass mass_eq
  obtain ⟨feePerUtxo, first, balance⟩ :=
    (selected_of_selectUtxos selected).balance
  rw [inputsValue_of_generateUnsignedTransaction generated,
    outputsValue_of_generateUnsignedTransaction generated,
    totalPaid_originalPayments, balance]
  apply Nat.add_le_add_left
  cases selectedUtxos with
  | nil => exact absurd rfl nonempty
  | cons utxo rest =>
      cases rest with
      | nil =>
          rw [List.length_singleton, Nat.one_mul]
          refine cost_le_estimate laws scripts within atLeast first ?_ mass_eq
          intro total summed
          rw [length_originalPayments]
          by_cases change : 0 < changeSompi
          · have notAll : request.uncapped.isSendAll = false := by
              by_contra all
              have none := changeSompi_of_isSendAll
                (Bool.not_eq_false _ ▸ all) selected
              exact absurd none (ne_of_gt change)
            have recipient :=
              (selected_of_selectUtxos selected).recipient notAll
            have left : request.uncapped.estimatedRecipientValue
                utxo.amount < total := by
              rw [SelectionRequest.estimatedRecipientValue, notAll,
                if_neg Bool.false_ne_true, ← recipient,
                UInt64.lt_iff_toNat_lt]
              have some := UInt64.lt_iff_toNat_lt.mp change
              have zero : (0 : UInt64).toNat = 0 := rfl
              omega
            rw [if_pos change, if_pos left]
          · rw [if_neg change]
            split <;> decide
      | cons second others =>
          exact cost_le_estimates laws scripts within atLeast (by simp) few
            first mass_eq

end Selection

section Rounds

variable {request : CompoundingRequest} {replies : NodeReplies}
  {manager : UtxoManager} {round : Nat}
  {original : WalletSignableTransaction}

theorem paysFeeRate_of_createSplitTransaction
    (laws : RelayMassLaws upstream generator)
    (scripts : EcdsaScriptsLongest upstream generator)
    (atLeast : 1.0 ≤ request.feeRate) {startIndex endIndex : Nat}
    {split : WalletSignableTransaction}
    (created : generator.createSplitTransaction upstream request.uncapped
      original startIndex endIndex = .ok split)
    (nonempty : split.tx.inputs ≠ [])
    (within : laws.WithinBound split.tx.inputs.length
      split.tx.payload.length) :
    PaysFeeRate upstream generator request.feeRate split := by
  obtain ⟨utxos, total, payout, -, summed, paid, generated⟩ :=
    createSplitTransaction_eq_ok.mp created
  obtain ⟨inputs, carried⟩ := sizes_of_generateUnsignedTransaction generated
  rw [inputs, carried] at within
  apply paysFeeRate_of_fee laws
    (within_shapeOf laws scripts within (by simp)) atLeast generated
  intro mass mass_eq
  rw [inputsValue_of_generateUnsignedTransaction generated,
    outputsValue_of_generateUnsignedTransaction generated, summed]
  cases utxos with
  | nil =>
      rw [tx_of_generateUnsignedTransaction generated] at nonempty
      exact absurd rfl nonempty
  | cons first rest =>
      simp only [splitPayout, List.isEmpty_cons, Bool.false_eq_true, if_false,
        Outcome.bind_eq_ok, checkedSub_eq_ok] at paid
      obtain ⟨fee, estimated, taken⟩ := paid
      have cost := cost_le_estimate laws scripts within atLeast estimated
        (fun total _ => by
          rw [List.length_singleton]
          split <;> decide) mass_eq
      simp only [taken, totalPaid_cons, totalPaid_nil]
      omega

/-- A merge transaction with added UTXOs costs no more than its estimate and a
fee for each of them. -/
theorem cost_le_estimate_and_additions
    (laws : RelayMassLaws upstream generator)
    (scripts : EcdsaScriptsLongest upstream generator)
    (approximates : laws.ApproximatesInputs) {added : List WalletUtxo}
    (within : laws.WithinBound (utxos ++ added).length payload.length)
    (atLeast : 1.0 ≤ feeRate) {utxo : WalletUtxo}
    {recipientValue fee mass massPerInput : UInt64}
    (some : 0 < added.length) (few : payments.length ≤ 1)
    (estimated : generator.estimateFee upstream utxos feeRate noFeeCap
      recipientValue payload = .ok fee)
    (priced : generator.estimateMassPerInput (generator.inputOf utxo) =
      .ok massPerInput)
    (mass_eq : mass.toNat =
      laws.measure.weigh (shapeOf upstream payments (utxos ++ added)
        payload)) :
    (ceilToUInt64 (mass.toFloat * feeRate)).toNat ≤
      fee.toNat + added.length *
        (ceilToUInt64 (massPerInput.toFloat * feeRate)).toNat := by
  obtain ⟨estimate, weighed, rfl⟩ := estimateFee_uncapped estimated
  have fewer : utxos.length ≤ (utxos ++ added).length := by simp
  obtain ⟨total, -, estimate_eq⟩ :=
    estimateMass_eq laws (within.of_inputs_le fewer) weighed
  obtain ⟨coversCompute, coversSize⟩ := approximates utxo massPerInput priced
  have least := laws.measure.four_le_weigh
    (shapeOf upstream payments (utxos ++ added) payload)
  have most : mass.toNat ≤ 2 ^ 50 :=
    mass_eq ▸ (within_shapeOf laws scripts within (by omega)).scaled
  have estimateLeast := laws.measure.four_le_weigh
    (.uniform utxos.length (if recipientValue < total then 2 else 1)
      (scriptLength upstream generator.mockAddress) payload.length)
  have lighter := @Weights.Measure.weigh_more_inputs laws.measure _
    (if recipientValue < total then 2 else 1) _ payload.length utxos.length
    added.length massPerInput.toNat some
    (by rw [List.length_map]; split <;> omega)
    (outputs_narrow scripts payments) coversCompute coversSize
  rw [← estimate_eq] at estimateLeast lighter
  have shape_eq : shapeOf upstream payments (utxos ++ added) payload =
      ⟨utxos.length + added.length, payments.map fun payment =>
        scriptLength upstream payment.address, payload.length⟩ := by
    simp [shapeOf]
  rw [← shape_eq, ← mass_eq] at lighter
  have pricePositive : 0 < massPerInput.toNat := by
    have nonneg := laws.measure.first.pricePerInput_nonneg
    have fourQ : (0 : ℚ) < massPerInput.toNat := by linarith
    exact_mod_cast fourQ
  have parts := @ceil_mul_le_parts _ atLeast mass
    (estimate :: List.replicate added.length massPerInput) (by omega) most
    (by
      intro part member
      rcases List.mem_cons.mp member with rfl | later
      · omega
      · rw [(List.mem_replicate.mp later).2]
        exact pricePositive)
    (by simpa using lighter)
  simpa using parts

private theorem count_mergePayments (plan : MergePlan) :
    (mergePayments request plan).length =
      if plan.sentValue < plan.availableValue then 2 else 1 := by
  unfold mergePayments
  split <;> rfl

theorem paysFeeRate_of_mergeTransaction
    (laws : RelayMassLaws upstream generator)
    (scripts : EcdsaScriptsLongest upstream generator)
    (approximates : laws.ApproximatesInputs)
    (atLeast : 1.0 ≤ request.feeRate)
    (wasBuilt : Built upstream generator original)
    {splits : List WalletSignableTransaction}
    {merge : WalletSignableTransaction}
    (merged : generator.mergeTransaction upstream request.uncapped replies
      manager round splits original.tx = .ok merge)
    (within : laws.WithinBound merge.tx.inputs.length
      merge.tx.payload.length) :
    PaysFeeRate upstream generator request.feeRate merge := by
  obtain ⟨plan, planning, made⟩ := mergeTransaction_eq_ok.mp merged
  have planned := planned_of_mergePlan planning
  have fee := inputsValue_merge planned made
  obtain ⟨inputs, carried⟩ := sizes_of_generateUnsignedTransaction made
  rw [inputs, carried] at within
  have few : (mergePayments request.uncapped plan).length ≤ 2 := by
    rw [count_mergePayments]
    split <;> decide
  apply paysFeeRate_of_fee laws (within_shapeOf laws scripts within few)
    atLeast made
  intro mass mass_eq
  rcases planned.funding with ⟨nothing, covered⟩ | adds
  · rw [nothing, totalAmount_nil] at fee
    rw [nothing, List.append_nil] at mass_eq within
    have ordered := UInt64.le_iff_toNat_le.mp covered
    have cost := cost_le_estimate laws scripts within atLeast planned.mergeFee
      (fun total summed => by
        rw [count_mergePayments]
        by_cases change : plan.sentValue < plan.availableValue
        · have less := UInt64.lt_iff_toNat_lt.mp change
          have available := planned.available
          have sent := planned.sent
          have notAll : request.uncapped.isSendAll = false := by
            by_contra all
            rw [if_pos (Bool.not_eq_false _ ▸ all)] at sent
            rw [sent] at less
            exact absurd less (lt_irrefl _)
          rw [notAll, if_neg Bool.false_ne_true] at sent
          have left : request.uncapped.amount < total := by
            rw [← sent, UInt64.lt_iff_toNat_lt]
            omega
          rw [if_pos change, if_pos left]
        · rw [if_neg change]
          split <;> decide) mass_eq
    omega
  · obtain ⟨_, feePerInput, -, priced, funding⟩ := adds.funding
    have short := UInt64.lt_iff_toNat_lt.mp adds.short
    have some : 0 < plan.additionalUtxos.length := by
      rw [List.length_pos_iff]
      intro none
      have enough := funding.enough
      rw [none, netAmount_nil] at enough
      omega
    have single : (mergePayments request.uncapped plan).length ≤ 1 := by
      rw [count_mergePayments, if_neg (not_lt.mpr adds.short.le)]
    have net := totalAmount_eq_netAmount funding.affordable
    have enough := funding.enough
    simp only [TransactionGenerator.feePerInput, Outcome.bind_eq_ok,
      Outcome.index_eq_ok, Outcome.pure_eq_ok] at priced
    obtain ⟨input, firstInput, massPerInput, weighed, rfl⟩ := priced
    obtain ⟨_, utxos, _, -, generated⟩ := wasBuilt
    rw [tx_of_generateUnsignedTransaction generated] at firstInput
    simp only [consensusTransaction, Transaction.new, List.getElem?_map,
      Option.map_eq_some_iff] at firstInput
    obtain ⟨utxo, -, rfl⟩ := firstInput
    have cost := cost_le_estimate_and_additions laws scripts approximates
      within atLeast some single planned.mergeFee weighed mass_eq
    rw [Nat.mul_comm] at cost
    change _ = _ + (ceilToUInt64 (massPerInput.toFloat *
      request.feeRate)).toNat * plan.additionalUtxos.length at net
    omega

end Rounds

end Sufficiency

section Request

variable {upstream : Upstream} {generator : TransactionGenerator}
  {surroundings : Surroundings} {manager : UtxoManager}
  {addressManager : AddressManager} {description : TransactionDescription}
  {request : CompoundingRequest} {unsigned : WalletSignableTransaction}

/-- Every split and every merge transaction that is built from a transaction,
without the cap binding and with a mass within the bound, pays for its mass. -/
structure RoundPays (upstream : Upstream) (generator : TransactionGenerator)
    (laws : RelayMassLaws upstream generator) (request : CompoundingRequest)
    (replies : NodeReplies) (manager : UtxoManager)
    (state : Nat × WalletSignableTransaction) : Prop where
  split : ∀ startIndex endIndex split,
    generator.createSplitTransaction upstream request state.2 startIndex
      endIndex = .ok split →
    generator.createSplitTransaction upstream request.uncapped state.2
      startIndex endIndex = .ok split →
    split.tx.inputs ≠ [] →
    laws.WithinBound split.tx.inputs.length split.tx.payload.length →
    PaysFeeRate upstream generator request.feeRate split
  merge : ∀ splits merge,
    generator.mergeTransaction upstream request replies manager state.1
      splits state.2.tx = .ok merge →
    generator.mergeTransaction upstream request.uncapped replies manager
      state.1 splits state.2.tx = .ok merge →
    laws.WithinBound merge.tx.inputs.length merge.tx.payload.length →
    PaysFeeRate upstream generator request.feeRate merge

theorem selected_of_paysFeeRate (laws : RelayMassLaws upstream generator)
    (scripts : EcdsaScriptsLongest upstream generator)
    (within : laws.WithinBound unsigned.tx.inputs.length
      unsigned.tx.payload.length)
    (prepared : Prepared upstream generator surroundings manager
      addressManager description request unsigned)
    (atLeast : 1.0 ≤ request.feeRate)
    (pays : PaysFeeRate upstream generator request.feeRate unsigned) :
    request.selectedUtxos ≠ [] := by
  intro none
  obtain ⟨mass, weighed, covered⟩ := pays.covered
  have generated := prepared.generated
  obtain ⟨inputs, carried⟩ := sizes_of_generateUnsignedTransaction generated
  rw [inputs, carried] at within
  rw [inputsValue_of_generateUnsignedTransaction generated, none,
    totalAmount_nil] at covered
  rw [tx_of_generateUnsignedTransaction generated] at weighed
  have few := length_originalPayments_le prepared.amountSentToRecipient
    prepared.changeSompi prepared.checked.toAddress prepared.change.1
  have bounded := within_shapeOf laws scripts within few
  have mass_eq := feeMass_eq laws bounded weighed
  have least := laws.measure.four_le_weigh (shapeOf upstream
    (originalPayments prepared.checked.toAddress prepared.change.1
      prepared.amountSentToRecipient prepared.changeSompi)
    request.selectedUtxos description.payload)
  have most : mass.toNat ≤ 2 ^ 50 := mass_eq ▸ bounded.scaled
  have units := le_ceil_mul atLeast (show 0 < mass.toNat by omega) most
  omega

/-- With a fee rate of at least one, a cap that does not bind and masses within
the bound, a selection leaves a fee that covers the mass of the transaction if
and only if it selects something, and the fee of every split and every merge
transaction built in any round covers its mass. -/
theorem fees_suffice (laws : RelayMassLaws upstream generator)
    (scripts : EcdsaScriptsLongest upstream generator)
    (approximates : laws.ApproximatesInputs)
    (prepared : Prepared upstream generator surroundings manager
      addressManager description request unsigned)
    (within : laws.WithinBound unsigned.tx.inputs.length
      unsigned.tx.payload.length)
    (atLeast : 1.0 ≤ request.feeRate)
    (capFree : generator.selectUtxos upstream surroundings.replies manager
      (availableUtxos surroundings.order manager
        prepared.checked.preselectedUtxos)
      (selectionRequest description prepared.checked).uncapped =
        .ok (request.selectedUtxos, prepared.amountSentToRecipient,
          prepared.changeSompi)) :
    (PaysFeeRate upstream generator request.feeRate unsigned ↔
      request.selectedUtxos ≠ []) ∧
    ∀ rounds state,
      Runs.Run (RoundStep upstream generator request surroundings.replies
        manager) (0, unsigned) rounds state →
      RoundPays upstream generator laws request surroundings.replies manager
        state := by
  have rate_eq : request.feeRate =
      (selectionRequest description prepared.checked).uncapped.feeRate :=
    congrArg CompoundingRequest.feeRate prepared.request_eq
  refine ⟨?_, ?_⟩
  · refine ⟨selected_of_paysFeeRate laws scripts within prepared atLeast, ?_⟩
    intro nonempty
    obtain ⟨inputs, carried⟩ :=
      sizes_of_generateUnsignedTransaction prepared.generated
    rw [inputs, carried] at within
    rw [rate_eq] at atLeast ⊢
    exact paysFeeRate_of_selectUtxos laws scripts within atLeast capFree
      nonempty prepared.generated
  · intro rounds state run
    have wasBuilt := built_of_run run
      ⟨_, _, _, length_originalPayments_le _ _ _ _, prepared.generated⟩
    exact ⟨fun _ _ _ _ created some splitWithin =>
        paysFeeRate_of_createSplitTransaction laws scripts atLeast created
          some splitWithin,
      fun _ _ _ merged mergeWithin => paysFeeRate_of_mergeTransaction laws
        scripts approximates atLeast wasBuilt merged mergeWithin⟩

theorem uncapped_selectionRequest {checked : CheckedDescription}
    (none : checked.maxFee = noFeeCap) :
    (selectionRequest description checked).uncapped =
      selectionRequest description checked := by
  rw [SelectionRequest.uncapped, selectionRequest, none]

end Request

section Nothing

/-- A request at a fee rate of exactly one. -/
def exactRateDescription (amount : UInt64) : TransactionDescription :=
  sampleDescription amount (some (some (.exactFeeRate 1.0)))

/-- What is prepared for a payment of an amount from a store. -/
def preparedFor (amount : UInt64) (utxos : List WalletUtxo) :
    WalletResult (CompoundingRequest × WalletSignableTransaction) :=
  ((sampleGenerator 1).prepare devnet (sampleSurroundings 1.0)
    (sampleStore utxos) (sampleBook 1) (exactRateDescription amount)).1

theorem limits_of_prepared {amount : UInt64} {utxos : List WalletUtxo}
    {request : CompoundingRequest} {unsigned : WalletSignableTransaction}
    (prepared : Prepared devnet (sampleGenerator 1)
      (sampleSurroundings 1.0) (sampleStore utxos) (sampleBook 1)
      (exactRateDescription amount) request unsigned) :
    request.feeRate = 1.0 ∧ prepared.checked.maxFee = noFeeCap := by
  obtain ⟨_, -, -, -, -, limits, -⟩ :=
    checkDescription_eq_ok.mp prepared.accepted
  have computed : calculateFeeLimits (sampleSurroundings 1.0).replies
      (exactRateDescription amount).feePolicy = .ok (1.0, noFeeCap) :=
    rfl
  have same := Prod.mk.inj (Except.ok.inj (limits.symm.trans computed))
  exact ⟨(congrArg CompoundingRequest.feeRate prepared.request_eq).trans
    same.1, same.2⟩

private theorem preparedForTwo_run :
    (preparedFor 100000 [sampleUtxo 1 50000, sampleUtxo 2 60000]).Returns
      fun (request, unsigned) =>
        request.selectedUtxos.length = 2 ∧ inputsValue unsigned = 110000 ∧
          outputsValue unsigned = 106730 := by
  decide +kernel

private theorem preparedForNothing_run :
    (preparedFor 0 []).Returns fun (request, unsigned) =>
      request.selectedUtxos = [] ∧
        (sampleGenerator 1).checkTransactionFeeRate devnet unsigned =
          Outcome.err (.transaction (.feeTooLow 0 506)) := by
  decide +kernel

theorem preparedForTwo_fees_suffice :
    ∃ request unsigned,
      preparedFor 100000 [sampleUtxo 1 50000, sampleUtxo 2 60000] =
        .ok (request, unsigned) ∧
      devnetLaws.WithinBound unsigned.tx.inputs.length
        unsigned.tx.payload.length ∧
      (PaysFeeRate devnet (sampleGenerator 1) request.feeRate
        unsigned ↔ request.selectedUtxos ≠ []) ∧
      ∀ rounds state,
        Runs.Run (RoundStep devnet (sampleGenerator 1) request
          (sampleSurroundings 1.0).replies
          (sampleStore [sampleUtxo 1 50000, sampleUtxo 2 60000]))
          (0, unsigned) rounds state →
        RoundPays devnet (sampleGenerator 1) devnetLaws request
          (sampleSurroundings 1.0).replies
          (sampleStore [sampleUtxo 1 50000, sampleUtxo 2 60000]) state := by
  obtain ⟨⟨request, unsigned⟩, made, two, -⟩ := preparedForTwo_run
  obtain ⟨prepared⟩ := prepared_of_prepare made
  obtain ⟨rate, cap⟩ := limits_of_prepared prepared
  have within : devnetLaws.WithinBound unsigned.tx.inputs.length
      unsigned.tx.payload.length := by
    obtain ⟨inputs, carried⟩ :=
      sizes_of_generateUnsignedTransaction prepared.generated
    rw [inputs, carried, two]
    exact ⟨by decide, by decide, by decide⟩
  refine ⟨request, unsigned, made, within, fees_suffice devnetLaws
    ecdsaScriptsLongest_devnet approximatesInputs_devnet prepared within ?_ ?_⟩
  · rw [rate]
    decide +kernel
  · rw [uncapped_selectionRequest cap]
    exact prepared.selected

/-- A payment of nothing from a wallet without UTXOs gets through the selection
and fails the check of its fee. -/
theorem preparedForNothing_rejected :
    Nonempty (RelayMassLaws devnet (sampleGenerator 1)) ∧
      EcdsaScriptsLongest devnet (sampleGenerator 1) ∧
      ∃ request unsigned,
        preparedFor 0 [] = .ok (request, unsigned) ∧
        1.0 ≤ request.feeRate ∧ request.maxFee = noFeeCap ∧
        (sampleGenerator 1).checkTransactionFeeRate devnet unsigned =
          Outcome.err (.transaction (.feeTooLow 0 506)) ∧
        ¬PaysFeeRate devnet (sampleGenerator 1) request.feeRate
          unsigned := by
  refine ⟨⟨devnetLaws⟩, ecdsaScriptsLongest_devnet, ?_⟩
  obtain ⟨⟨request, unsigned⟩, made, -, rejected⟩ := preparedForNothing_run
  obtain ⟨prepared⟩ := prepared_of_prepare made
  obtain ⟨rate, cap⟩ := limits_of_prepared prepared
  refine ⟨request, unsigned, made, ?_,
    (congrArg CompoundingRequest.maxFee prepared.request_eq).trans cap,
    rejected, fun pays => pays.accepted _ rejected⟩
  rw [rate]
  decide +kernel

end Nothing

end TransactionGenerator

end Kaswallet
