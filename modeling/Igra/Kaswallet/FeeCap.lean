import Igra.Kaswallet.MergeValue

/-!
# The fee cap

`max_fee` bounds every single fee estimate.  A split pays one estimate; the
selected UTXOs pay one estimate each, and a merge transaction that adds UTXOs
pays whatever these bring beyond what is missing.
-/

open Kaspa Rust

namespace Kaswallet

namespace TransactionGenerator

/-- The cap that a fee policy states; without a policy it is one KAS. -/
def feeCap : Option (Option FeePolicy) → Option UInt64
  | some (some (.maxFee sompi)) => some sompi
  | some (some (.maxFeeRate _)) => none
  | some (some (.exactFeeRate _)) => none
  | some none => some sompiPerKaspa
  | none => some sompiPerKaspa

theorem maxFee_of_calculateFeeLimits {replies : NodeReplies}
    {policy : Option (Option FeePolicy)} {feeRate : Float}
    {maxFee cap : UInt64} (capped : feeCap policy = some cap)
    (limits : calculateFeeLimits replies policy = .ok (feeRate, maxFee)) :
    maxFee = cap := by
  rcases policy with _ | _ | policy
  case some.some =>
    cases policy with
    | maxFeeRate => simp [feeCap] at capped
    | exactFeeRate => simp [feeCap] at capped
    | maxFee sompi =>
        simp only [feeCap, Option.some.injEq] at capped
        simp only [calculateFeeLimits, Outcome.bind_eq_ok, Outcome.pure_eq_ok,
          Prod.mk.injEq] at limits
        obtain ⟨_, -, -, rfl⟩ := limits
        exact capped
  all_goals
    simp only [feeCap, Option.some.injEq] at capped
    simp only [calculateFeeLimits, defaultFeeRate, Outcome.bind_eq_ok,
      Outcome.pure_eq_ok, Prod.mk.injEq] at limits
    obtain ⟨_, -, -, rfl⟩ := limits
    exact capped

section Cap

variable {upstream : Upstream} {generator : TransactionGenerator}
  {surroundings : Surroundings} {manager : UtxoManager}
  {addressManager : AddressManager} {description : TransactionDescription}
  {request : CompoundingRequest} {unsigned : WalletSignableTransaction}

/-- A transaction that is not compounded pays the first fee once for each
UTXO. -/
theorem Prepared.inputsValue_unsigned
    (prepared : Prepared upstream generator surroundings manager
      addressManager description request unsigned) :
    ∃ feePerUtxo,
      generator.firstFee upstream
          (selectionRequest description prepared.checked)
          request.selectedUtxos = .ok feePerUtxo ∧
        inputsValue unsigned = outputsValue unsigned +
          request.selectedUtxos.length * feePerUtxo.toNat := by
  obtain ⟨feePerUtxo, first, balance⟩ :=
    (selected_of_selectUtxos prepared.selected).balance
  refine ⟨feePerUtxo, first, ?_⟩
  rw [inputsValue_of_generateUnsignedTransaction prepared.generated,
    outputsValue_of_generateUnsignedTransaction prepared.generated, balance]
  by_cases change : 0 < prepared.changeSompi
  · simp [originalPayments, change]
  · have none : prepared.changeSompi.toNat = 0 := by
      rw [UInt64.lt_iff_toNat_lt] at change
      exact Nat.eq_zero_of_not_pos change
    simp [originalPayments, change, none]

/-- The fee of a merge transaction: its estimate and what added UTXOs bring
beyond what is missing. -/
theorem inputsValue_merge {replies : NodeReplies} {round : Nat}
    {original : Transaction} {splits : List WalletSignableTransaction}
    {plan : MergePlan} {merge : WalletSignableTransaction}
    (planned : Planned upstream generator request replies manager round
      original splits plan)
    (merged : generator.buildMerge upstream request plan original =
      .ok merge) :
    inputsValue merge + (plan.sentValue.toNat - plan.availableValue.toNat) =
      outputsValue merge + plan.mergeFee.toNat +
        totalAmount plan.additionalUtxos := by
  obtain ⟨outs, change⟩ := outputsValue_of_buildMerge merged
  rw [inputsValue_of_buildMerge merged, outs, change, planned.available]
  omega

end Cap

section ChargedTwice

def sampleSurroundings (feeRate : Float) : Surroundings where
  replies := sampleReplies feeRate
  saveKeys := .ok ()
  order := .stored WalletOutpoint WalletUtxo

def sampleBook (minimumSignatures : UInt16) : AddressManager :=
  .new (sampleKeys minimumSignatures) .devnet

def sampleDescription (amount : UInt64)
    (feePolicy : Option (Option FeePolicy)) : TransactionDescription where
  toAddress := devnet.addressToString (sampleAddress 8)
  amount := amount
  isSendAll := false
  payload := []
  fromAddresses := []
  utxos := []
  useExistingChangeAddress := true
  feePolicy := feePolicy

/-- A payment from two UTXOs with a fee of at most 3000 sompi, at a fee rate
of two sompi for a gram. -/
def chargedTwice : WalletResult (List WalletSignableTransaction) :=
  ((sampleGenerator 1).createUnsignedTransactions devnet
    (sampleSurroundings 2.0)
    (sampleStore [sampleUtxo 1 50000, sampleUtxo 2 60000]) (sampleBook 1)
    (sampleDescription 100000 (some (some (.maxFee 3000)))) 1).1

private theorem chargedTwice_run :
    chargedTwice.Returns fun batch =>
      ∃ transaction ∈ batch,
        inputsValue transaction = 110000 ∧
          outputsValue transaction = 104000 := by
  decide +kernel

/-- The transaction pays 6000 sompi, twice the cap. -/
theorem chargedTwice_exceeds_cap :
    ∃ batch, chargedTwice = .ok batch ∧
      ∃ transaction ∈ batch,
        outputsValue transaction + 3000 < inputsValue transaction := by
  obtain ⟨batch, created, transaction, member, ins, outs⟩ := chargedTwice_run
  exact ⟨batch, created, transaction, member, by omega⟩

end ChargedTwice

end TransactionGenerator

end Kaswallet
