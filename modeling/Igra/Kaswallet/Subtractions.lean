import Igra.Kaswallet.CompoundingRounds
import Igra.Kaswallet.SelectionOutcome

/-!
# Subtractions of fees

Four functions subtract an estimated fee from a value without comparing the
two.  A subtraction that does not fit is a panic, not an error, and whether it
fits is decided by what the UTXOs are worth: of the UTXOs that a merge
transaction may add, the smallest decides.
-/

open Kaspa Rust

namespace Kaswallet

namespace TransactionGenerator

section Operands

variable (upstream : Upstream) (generator : TransactionGenerator)

/-- The operands of `total_value - fee` in `select_utxos`. -/
def sendAllOperands (replies : NodeReplies) (manager : UtxoManager)
    (availableUtxos : List WalletUtxo) (request : SelectionRequest) :
    WalletResult (Option (UInt64 × UInt64)) := do
  let virtualDaaScore ← transportError (replies.virtualDaaScore 0)
  let selection ← generator.selectionLoop upstream request manager
    virtualDaaScore availableUtxos .empty
  if request.isSendAll then pure (some (selection.totalValue, selection.fee))
  else pure none

/-- The operands of `total_sompi -= fee` in `create_split_transaction`. -/
def splitOperands (request : CompoundingRequest)
    (original : WalletSignableTransaction) (startIndex endIndex : Nat) :
    WalletResult (Option (UInt64 × UInt64)) := do
  let selectedUtxos ← Outcome.collect (inputUtxo original)
    (splitPositions original.tx.inputs.length startIndex endIndex)
  let totalSompi ← checkedSum (selectedUtxos.map WalletUtxo.amount)
  if selectedUtxos.isEmpty then pure none
  else do
    let fee ← generator.estimateFee upstream selectedUtxos request.feeRate
      request.maxFee totalSompi []
    pure (some (totalSompi, fee))

/-- The operands of `total_value - merge_transaction_fee` in
`merge_transaction`. -/
def mergeOperands (request : CompoundingRequest)
    (splits : List WalletSignableTransaction) (original : Transaction) :
    WalletResult (Option (UInt64 × UInt64)) :=
  if original.outputs.length ∉ [1, 2] then pure none
  else do
    let splitUtxos ← Outcome.collect (splitUtxo upstream request) splits
    let totalValue ← checkedSum (splitUtxos.map WalletUtxo.amount)
    let mergeFee ← generator.estimateFee upstream splitUtxos request.feeRate
      request.maxFee request.amount original.payload
    pure (some (totalValue, mergeFee))

/-- The loop of `more_utxos_for_merge_transaction` gets to the UTXO and
subtracts the fee from its amount. -/
def Visits (request : CompoundingRequest) (manager : UtxoManager)
    (virtualDaaScore feePerInput requiredAmount : UInt64)
    (utxo : WalletUtxo) : Prop :=
  ∃ front back added total,
    manager.utxosSortedByAmount = front ++ utxo :: back ∧
    moreUtxosLoop request manager virtualDaaScore feePerInput requiredAmount
      front [] 0 = .ok (added, total) ∧
    total < requiredAmount ∧
    Addable manager request virtualDaaScore utxo

end Operands

section Conditions

variable (upstream : Upstream) (generator : TransactionGenerator)

/-- All usable UTXOs together are worth the fee for the first, once for each
of them. -/
def SendAllPays (request : SelectionRequest) (usable : List WalletUtxo) :
    Prop :=
  ∀ fee, generator.firstFee upstream request usable = .ok fee →
    usable.length * fee.toNat ≤ totalAmount usable

/-- The inputs of a range are worth the fee estimated for their split. -/
def SplitPays (request : CompoundingRequest)
    (original : WalletSignableTransaction) (startIndex endIndex : Nat) :
    Prop :=
  ∀ group total fee,
    Outcome.collect (inputUtxo original)
      (splitPositions original.tx.inputs.length startIndex endIndex) =
        .ok group →
    totalAmount group = UInt64.toNat total →
    generator.estimateFee upstream group request.feeRate request.maxFee total
      [] = .ok fee →
    fee.toNat ≤ totalAmount group

/-- The outputs of the splits are worth the fee estimated for their merge. -/
def SplitsPay (request : CompoundingRequest)
    (splits : List WalletSignableTransaction) (original : Transaction) :
    Prop :=
  ∀ utxos fee, Outcome.collect (splitUtxo upstream request) splits =
      .ok utxos →
    generator.estimateFee upstream utxos request.feeRate request.maxFee
      request.amount original.payload = .ok fee →
    fee.toNat ≤ splitsValue splits

/-- The first UTXO that the loop does not pass over is worth the fee for an
input. -/
def FirstAdditionPays (request : CompoundingRequest) (manager : UtxoManager)
    (virtualDaaScore feePerInput : UInt64) : Prop :=
  ∀ front utxo back,
    manager.utxosSortedByAmount = front ++ utxo :: back →
    (∀ other ∈ front,
      PassedOver request manager virtualDaaScore other) →
    Addable manager request virtualDaaScore utxo →
    feePerInput ≤ utxo.amount

end Conditions

section Exactness

variable {upstream : Upstream} {generator : TransactionGenerator}
  {left right : UInt64}

theorem checkedSub_panics (short : left < right) :
    (checkedSub left right : WalletResult UInt64) = .panic :=
  if_neg (not_le.mpr (UInt64.lt_iff_toNat_lt.mp short))

theorem sendAll_fits_iff {replies : NodeReplies} {manager : UtxoManager}
    {availableUtxos : List WalletUtxo} {request : SelectionRequest}
    (reached : generator.sendAllOperands upstream replies manager
      availableUtxos request = .ok (some (left, right))) :
    (right ≤ left ↔ ∃ virtualDaaScore,
      replies.virtualDaaScore 0 = .ok virtualDaaScore ∧
        SendAllPays upstream generator request (usableUtxos manager
          virtualDaaScore request.fromAddresses availableUtxos)) ∧
      (left < right → generator.selectUtxos upstream replies manager
        availableUtxos request = .panic) := by
  simp only [sendAllOperands, Outcome.bind_eq_ok, transportError,
    mapError_eq_ok] at reached
  obtain ⟨virtualDaaScore, asked, final, looped, returned⟩ := reached
  have all : request.isSendAll = true := by
    by_contra notAll
    rw [if_neg notAll] at returned
    cases returned
  rw [if_pos all, Outcome.pure_eq_ok, Option.some.injEq,
    Prod.mk.injEq] at returned
  obtain ⟨rfl, rfl⟩ := returned
  constructor
  · obtain ⟨_, _, _, _, accounts⟩ :=
      selectionLoop_picks Selection.accounts_empty looped
    obtain ⟨fee, first, charged, -⟩ := accounts.fee
    rcases selectionLoop_ends Selection.accounts_empty looped with
      ⟨picked, -⟩ | ⟨-, -, -, -, notAll, -⟩
    · rw [Selection.empty, List.nil_append] at picked
      rw [UInt64.le_iff_toNat_le, accounts.total, charged, picked]
      rw [picked] at first
      constructor
      · intro enough
        refine ⟨virtualDaaScore, asked, ?_⟩
        intro other otherFirst
        obtain rfl : fee = other := by simpa [first] using otherFirst
        exact enough
      · rintro ⟨other, otherAsked, pays⟩
        obtain rfl : virtualDaaScore = other := by
          simpa [asked] using otherAsked
        exact pays fee first
    · rw [all] at notAll
      cases notAll
  · intro short
    simp only [selectUtxos, asked, transportError, mapError, Outcome.ok_bind,
      looped, SelectionRequest.totals, all, if_true,
      checkedSub_panics short]
    rfl

theorem split_fits_iff {request : CompoundingRequest}
    {original : WalletSignableTransaction} {startIndex endIndex : Nat}
    (reached : generator.splitOperands upstream request original startIndex
      endIndex = .ok (some (left, right))) :
    (right ≤ left ↔
      SplitPays upstream generator request original startIndex endIndex) ∧
      (left < right → generator.createSplitTransaction upstream request
        original startIndex endIndex = .panic) := by
  simp only [splitOperands, Outcome.bind_eq_ok] at reached
  obtain ⟨group, collected, total, summed, returned⟩ := reached
  have nonempty : ¬group.isEmpty = true := by
    intro empty
    rw [if_pos empty] at returned
    cases returned
  rw [if_neg nonempty, Outcome.bind_eq_ok] at returned
  obtain ⟨fee, estimated, operands⟩ := returned
  rw [Outcome.pure_eq_ok, Option.some.injEq, Prod.mk.injEq] at operands
  obtain ⟨rfl, rfl⟩ := operands
  rw [checkedSum_amounts_eq_ok] at summed
  constructor
  · rw [UInt64.le_iff_toNat_le, ← summed]
    constructor
    · intro enough otherGroup otherTotal otherFee otherCollected otherSummed
        otherEstimated
      obtain rfl : group = otherGroup :=
        Except.ok.inj (collected.symm.trans otherCollected)
      obtain rfl : total = otherTotal :=
        UInt64.toNat_inj.mp (summed.symm.trans otherSummed)
      obtain rfl : fee = otherFee :=
        Except.ok.inj (estimated.symm.trans otherEstimated)
      exact enough
    · intro pays
      exact pays group total fee collected summed estimated
  · intro short
    simp only [createSplitTransaction, collected, Outcome.ok_bind,
      checkedSum_amounts_eq_ok.mpr summed, splitPayout, if_neg nonempty,
      estimated, checkedSub_panics short]
    rfl

theorem mergeOperands_eq_some {request : CompoundingRequest}
    {splits : List WalletSignableTransaction} {original : Transaction}
    (reached : generator.mergeOperands upstream request splits original =
      .ok (some (left, right))) :
    original.outputs.length ∈ [1, 2] ∧ ∃ utxos,
      Outcome.collect (splitUtxo upstream request) splits = .ok utxos ∧
      totalAmount utxos = left.toNat ∧
      generator.estimateFee upstream utxos request.feeRate request.maxFee
        request.amount original.payload = .ok right := by
  unfold mergeOperands at reached
  by_cases outputs : original.outputs.length ∉ [1, 2]
  · rw [if_pos outputs] at reached
    cases reached
  · simp only [if_neg outputs, Outcome.bind_eq_ok, checkedSum_amounts_eq_ok,
      Outcome.pure_eq_ok, Option.some.injEq, Prod.mk.injEq] at reached
    obtain ⟨utxos, collected, total, summed, fee, estimated, rfl, rfl⟩ :=
      reached
    exact ⟨not_not.mp outputs, utxos, collected, summed, estimated⟩

theorem merge_fits_iff {request : CompoundingRequest}
    {splits : List WalletSignableTransaction} {original : Transaction}
    (reached : generator.mergeOperands upstream request splits original =
      .ok (some (left, right))) :
    right ≤ left ↔ SplitsPay upstream generator request splits original := by
  obtain ⟨-, utxos, collected, summed, estimated⟩ :=
    mergeOperands_eq_some reached
  have value := splitsValue_of_collect collected
  rw [UInt64.le_iff_toNat_le, ← summed, value]
  constructor
  · intro enough otherUtxos fee otherCollected otherEstimated
    obtain rfl : utxos = otherUtxos :=
      Except.ok.inj (collected.symm.trans otherCollected)
    obtain rfl : right = fee :=
      Except.ok.inj (estimated.symm.trans otherEstimated)
    exact enough
  · intro pays
    exact pays utxos right collected estimated

theorem mergeTransaction_panics {request : CompoundingRequest}
    {splits : List WalletSignableTransaction} {original : Transaction}
    (reached : generator.mergeOperands upstream request splits original =
      .ok (some (left, right)))
    (short : left < right) (replies : NodeReplies) (manager : UtxoManager)
    (round : Nat) :
    generator.mergeTransaction upstream request replies manager round splits
      original = .panic := by
  obtain ⟨outputs, utxos, collected, summed, estimated⟩ :=
    mergeOperands_eq_some reached
  simp only [mergeTransaction, mergePlan, if_neg (not_not.mpr outputs),
    collected, Outcome.ok_bind, checkedSum_amounts_eq_ok.mpr summed,
    estimated, checkedSub_panics short]
  rfl

section Additions

variable {request : CompoundingRequest} {manager : UtxoManager}
  {virtualDaaScore feePerInput requiredAmount : UInt64}

theorem moreUtxosLoop_passedOver {front rest added : List WalletUtxo}
    {total : UInt64}
    (passed : ∀ utxo ∈ front,
      PassedOver request manager virtualDaaScore utxo) :
    moreUtxosLoop request manager virtualDaaScore feePerInput requiredAmount
        (front ++ rest) added total =
      moreUtxosLoop request manager virtualDaaScore feePerInput
        requiredAmount rest added total := by
  induction front with
  | nil => rfl
  | cons utxo front ih =>
      rw [List.forall_mem_cons] at passed
      rw [List.cons_append, moreUtxosLoop_of_passedOver passed.1,
        ih passed.2]

/-- What the loop has passed without reaching the required amount does not
change how it goes on. -/
theorem moreUtxosLoop_append {front rest added grown : List WalletUtxo}
    {start total : UInt64}
    (looped : moreUtxosLoop request manager virtualDaaScore feePerInput
      requiredAmount front added start = .ok (grown, total))
    (short : total < requiredAmount) :
    moreUtxosLoop request manager virtualDaaScore feePerInput requiredAmount
        (front ++ rest) added start =
      moreUtxosLoop request manager virtualDaaScore feePerInput
        requiredAmount rest grown total := by
  induction front generalizing added start with
  | nil =>
      simp only [moreUtxosLoop, Except.ok.injEq, Prod.mk.injEq] at looped
      obtain ⟨rfl, rfl⟩ := looped
      rfl
  | cons utxo front ih =>
      rw [moreUtxosLoop] at looped
      rw [List.cons_append, moreUtxosLoop]
      split at looped
      · rename_i selected
        rw [if_pos selected]
        exact ih looped
      · rename_i unselected
        rw [if_neg unselected]
        obtain ⟨unspendable, asked, looped⟩ := Outcome.bind_eq_ok.mp looped
        rw [asked, Outcome.ok_bind]
        split at looped
        · rename_i refused
          rw [if_pos refused]
          exact ih looped
        · rename_i accepted
          rw [if_neg accepted]
          obtain ⟨value, taken, looped⟩ := Outcome.bind_eq_ok.mp looped
          obtain ⟨sum, summed, looped⟩ := Outcome.bind_eq_ok.mp looped
          rw [taken, Outcome.ok_bind, summed, Outcome.ok_bind]
          split at looped
          · rename_i enough
            rw [Outcome.pure_eq_ok, Prod.mk.injEq] at looped
            rw [looped.2] at enough
            exact absurd enough (not_le.mpr short)
          · rename_i missing
            rw [if_neg missing]
            exact ih looped

/-- What the loop gets through it has either passed over or paid for. -/
theorem affordable_or_passedOver {front added grown : List WalletUtxo}
    {start total : UInt64}
    (looped : moreUtxosLoop request manager virtualDaaScore feePerInput
      requiredAmount front added start = .ok (grown, total))
    (short : total < requiredAmount) :
    ∀ utxo ∈ front, PassedOver request manager virtualDaaScore utxo ∨
      Addable manager request virtualDaaScore utxo ∧
        feePerInput ≤ utxo.amount := by
  induction front generalizing added start with
  | nil => simp
  | cons utxo front ih =>
      rw [List.forall_mem_cons]
      by_cases addable : Addable manager request virtualDaaScore utxo
      · obtain ⟨next, affordable, -, remaining⟩ :=
          moreUtxosLoop_add looped addable
        refine ⟨.inr ⟨addable, affordable⟩, ?_⟩
        split at remaining
        · rename_i enough
          rw [Prod.mk.injEq] at remaining
          rw [← remaining.2] at enough
          exact absurd enough (not_le.mpr short)
        · exact ih remaining
      · exact ⟨.inl (passedOver_of_not_addable looped addable),
          ih (moreUtxosLoop_skip looped addable)⟩

theorem additions_fit_iff (consistent : manager.Consistent)
    (positive : 0 < requiredAmount) :
    (∀ utxo, Visits request manager virtualDaaScore feePerInput
        requiredAmount utxo → feePerInput ≤ utxo.amount) ↔
      FirstAdditionPays request manager virtualDaaScore feePerInput := by
  constructor
  · intro fit front utxo back stored passed addable
    refine fit utxo ⟨front, back, [], 0, stored, ?_, positive, addable⟩
    have looped := @moreUtxosLoop_passedOver request manager virtualDaaScore
      feePerInput requiredAmount front [] [] 0 passed
    rw [List.append_nil] at looped
    exact looped
  · rintro pays utxo ⟨front, back, added, total, stored, looped, short,
      addable⟩
    by_cases passed : ∀ other ∈ front,
        PassedOver request manager virtualDaaScore other
    · exact pays front utxo back stored passed addable
    · simp only [not_forall, exists_prop] at passed
      obtain ⟨other, member, taken⟩ := passed
      have sorted := consistent.sorted
      rw [stored] at sorted
      have ordered := (List.pairwise_append.mp sorted).2.2 other member utxo
        List.mem_cons_self
      obtain ⟨-, affordable⟩ := (affordable_or_passedOver looped short other
        member).resolve_left taken
      exact affordable.trans ordered

/-- A UTXO that is worth less than the fee for it makes the loop panic. -/
theorem moreUtxosForMergeTransaction_panics {replies : NodeReplies}
    {round : Nat} {original : Transaction} {utxo : WalletUtxo}
    (asked : replies.virtualDaaScore (round + 1) = .ok virtualDaaScore)
    (priced : generator.feePerInput request original = .ok feePerInput)
    (visits : Visits request manager virtualDaaScore feePerInput
      requiredAmount utxo)
    (dust : utxo.amount < feePerInput) :
    generator.moreUtxosForMergeTransaction request replies manager round
      original requiredAmount = .panic := by
  obtain ⟨front, back, added, total, stored, looped, short, addable⟩ := visits
  obtain ⟨unselected, spendable, isFrom⟩ := addable
  have onward := @moreUtxosLoop_append request manager virtualDaaScore
    feePerInput requiredAmount front (utxo :: back) [] added 0 total looped
    short
  have stops : moreUtxosLoop request manager virtualDaaScore feePerInput
      requiredAmount (utxo :: back) added total = .panic := by
    rw [moreUtxosLoop, if_neg unselected, spendable, Outcome.ok_bind, isFrom]
    simp only [Bool.not_true, Bool.or_false, Bool.false_eq_true, if_false,
      checkedSub_panics dust]
    rfl
  simp only [moreUtxosForMergeTransaction, asked, transportError, mapError,
    Outcome.ok_bind, priced, stored, onward, stops]
  rfl

end Additions

/-- Each of the four subtractions, when it is reached, fits if and only if the
UTXOs at hand are worth the fee, and otherwise the function panics.  Of the
UTXOs that a merge transaction may add, the first has to be worth it. -/
theorem subtractions_fit_iff {replies : NodeReplies}
    {manager : UtxoManager} (consistent : manager.Consistent) :
    (∀ availableUtxos request left right,
      generator.sendAllOperands upstream replies manager availableUtxos
        request = .ok (some (left, right)) →
      (right ≤ left ↔ ∃ virtualDaaScore,
        replies.virtualDaaScore 0 = .ok virtualDaaScore ∧
          SendAllPays upstream generator request (usableUtxos manager
            virtualDaaScore request.fromAddresses availableUtxos)) ∧
        (left < right → generator.selectUtxos upstream replies manager
          availableUtxos request = .panic)) ∧
    (∀ request original startIndex endIndex left right,
      generator.splitOperands upstream request original startIndex endIndex =
        .ok (some (left, right)) →
      (right ≤ left ↔
        SplitPays upstream generator request original startIndex
          endIndex) ∧
        (left < right → generator.createSplitTransaction upstream request
          original startIndex endIndex = .panic)) ∧
    (∀ request splits original left right,
      generator.mergeOperands upstream request splits original =
        .ok (some (left, right)) →
      (right ≤ left ↔
        SplitsPay upstream generator request splits original) ∧
        (left < right → ∀ round, generator.mergeTransaction upstream request
          replies manager round splits original = .panic)) ∧
    ∀ request round original requiredAmount virtualDaaScore feePerInput,
      0 < requiredAmount →
      replies.virtualDaaScore (round + 1) = .ok virtualDaaScore →
      generator.feePerInput request original = .ok feePerInput →
      ((∀ utxo, Visits request manager virtualDaaScore feePerInput
          requiredAmount utxo → feePerInput ≤ utxo.amount) ↔
        FirstAdditionPays request manager virtualDaaScore feePerInput) ∧
        ∀ utxo, Visits request manager virtualDaaScore feePerInput
            requiredAmount utxo → utxo.amount < feePerInput →
          generator.moreUtxosForMergeTransaction request replies manager
            round original requiredAmount = .panic :=
  ⟨fun _ _ _ _ reached => sendAll_fits_iff reached,
    fun _ _ _ _ _ _ reached => split_fits_iff reached,
    fun _ _ _ _ _ reached =>
      ⟨merge_fits_iff reached, fun short round =>
        mergeTransaction_panics reached short replies manager round⟩,
    fun _ _ _ _ _ _ positive asked priced =>
      ⟨additions_fit_iff consistent positive, fun _ visits dust =>
        moreUtxosForMergeTransaction_panics asked priced visits dust⟩⟩

end Exactness

section Dust

/-- A wallet with a single UTXO of 500 sompi. -/
def dustStore : UtxoManager :=
  sampleStore [sampleUtxo 1 500]

def sendAllDescription : TransactionDescription :=
  { sampleDescription 0 (some (some (.exactFeeRate 1.0))) with
    isSendAll := true }

def sendAllRequest : SelectionRequest where
  amount := 0
  isSendAll := true
  feeRate := 1.0
  maxFee := 0xffffffffffffffff
  fromAddresses := []
  payload := []

private theorem dustSendAll_reached :
    (sampleGenerator 1).sendAllOperands devnet (sampleReplies 1.0) dustStore
      dustStore.utxosSortedByAmount sendAllRequest =
        .ok (some (500, 1635)) := by
  decide +kernel

theorem dustSendAll_fits_iff :
    ((1635 : UInt64) ≤ 500 ↔ ∃ virtualDaaScore,
      (sampleReplies 1.0).virtualDaaScore 0 = .ok virtualDaaScore ∧
        SendAllPays devnet (sampleGenerator 1) sendAllRequest
          (usableUtxos dustStore virtualDaaScore [] [sampleUtxo 1 500])) ∧
      ((500 : UInt64) < 1635 →
        (sampleGenerator 1).selectUtxos devnet (sampleReplies 1.0) dustStore
          dustStore.utxosSortedByAmount sendAllRequest = .panic) :=
  (subtractions_fit_iff
    (UtxoManager.consistent_rebuild (.new 100) (by decide))).1 _ _ _ _
    dustSendAll_reached

/-- Sending everything from a wallet that holds 500 sompi panics. -/
theorem dustSendAll_panics :
    ((sampleGenerator 1).createUnsignedTransactions devnet
      (sampleSurroundings 1.0) dustStore (sampleBook 1) sendAllDescription
      1).1 = .panic := by
  decide +kernel

end Dust

end TransactionGenerator

end Kaswallet
