import Igra.Kaswallet.Splits

/-!
# The value of a merge transaction

`merge_transaction` pays the recipient from the outputs of the splits.  When
those do not suffice it adds UTXOs, of which `more_utxos_for_merge_transaction`
takes the shortest initial segment of the candidates whose value, less a fee
for each, covers what is missing.  Nothing of what they bring beyond that is
paid out.
-/

open Kaspa Rust

namespace Kaswallet

namespace TransactionGenerator

section Candidates

variable (manager : UtxoManager) (request : CompoundingRequest)
  (virtualDaaScore : UInt64)

/-- A UTXO that a merge transaction may add. -/
def Addable (utxo : WalletUtxo) : Prop :=
  utxo ∉ request.selectedUtxos ∧
    Usable manager virtualDaaScore request.fromAddresses utxo

instance : DecidablePred (Addable manager request virtualDaaScore) :=
  fun utxo => inferInstanceAs (Decidable
    (utxo ∉ request.selectedUtxos ∧
      (manager.isUtxoUnspendable utxo virtualDaaScore = .ok false ∧
        isFromAddresses request.fromAddresses utxo = true)))

/-- The addable UTXOs in ascending order of their amounts. -/
def candidates : List WalletUtxo :=
  manager.utxosSortedByAmount.filter
    fun utxo => decide (Addable manager request virtualDaaScore utxo)

/-- The value of UTXOs that pay for their own inputs. -/
def netAmount (feePerInput : UInt64) (utxos : List WalletUtxo) : Nat :=
  (utxos.map fun utxo => utxo.amount.toNat - feePerInput.toNat).sum

@[simp] theorem netAmount_nil (feePerInput : UInt64) :
    netAmount feePerInput [] = 0 :=
  rfl

@[simp] theorem netAmount_cons (feePerInput : UInt64) (utxo : WalletUtxo)
    (utxos : List WalletUtxo) :
    netAmount feePerInput (utxo :: utxos) =
      utxo.amount.toNat - feePerInput.toNat + netAmount feePerInput utxos :=
  rfl

private theorem netAmount_take_le (feePerInput : UInt64)
    (utxos : List WalletUtxo)
    {fewer more : Nat} (ordered : fewer ≤ more) :
    netAmount feePerInput (utxos.take fewer) ≤
      netAmount feePerInput (utxos.take more) := by
  obtain ⟨extra, rfl⟩ := Nat.exists_eq_add_of_le ordered
  simp [netAmount, List.take_add]

theorem totalAmount_eq_netAmount {feePerInput : UInt64}
    {utxos : List WalletUtxo}
    (affordable : ∀ utxo ∈ utxos, feePerInput ≤ utxo.amount) :
    totalAmount utxos =
      netAmount feePerInput utxos + feePerInput.toNat * utxos.length := by
  induction utxos with
  | nil => rfl
  | cons utxo utxos ih =>
      have first := UInt64.le_iff_toNat_le.mp
        (affordable utxo List.mem_cons_self)
      rw [totalAmount_cons, netAmount_cons, List.length_cons, Nat.mul_succ,
        ih fun other member =>
          affordable other (List.mem_cons_of_mem _ member)]
      omega

/-- The UTXOs are the shortest initial segment of the candidates whose net
value reaches the required amount. -/
structure ShortestFunding (feePerInput : UInt64) (requiredAmount : Nat)
    (available utxos : List WalletUtxo) : Prop where
  initial : ∃ count, utxos = available.take count ∧
    ∀ fewer < count,
      netAmount feePerInput (available.take fewer) < requiredAmount
  affordable : ∀ utxo ∈ utxos, feePerInput ≤ utxo.amount
  enough : requiredAmount ≤ netAmount feePerInput utxos

variable {manager request virtualDaaScore}

/-- Some initial segment meets the required amount exactly if and only if the
shortest one that reaches it does. -/
theorem ShortestFunding.exact_iff {feePerInput : UInt64}
    {requiredAmount : Nat} {available utxos : List WalletUtxo}
    (funding :
      ShortestFunding feePerInput requiredAmount available utxos) :
    (∃ count, netAmount feePerInput (available.take count) =
        requiredAmount) ↔
      netAmount feePerInput utxos = requiredAmount := by
  obtain ⟨count, rfl, minimal⟩ := funding.initial
  constructor
  · rintro ⟨other, exact_eq⟩
    have reached : count ≤ other := by
      by_contra fewer
      have short := minimal other (by omega)
      omega
    have grown := netAmount_take_le feePerInput available reached
    have enough := funding.enough
    omega
  · intro exact_eq
    exact ⟨count, exact_eq⟩

end Candidates

section Loop

variable {manager : UtxoManager} {request : CompoundingRequest}
  {virtualDaaScore feePerInput requiredAmount : UInt64}

/-- The loop passes over the UTXO. -/
def PassedOver (request : CompoundingRequest) (manager : UtxoManager)
    (virtualDaaScore : UInt64) (utxo : WalletUtxo) : Prop :=
  utxo ∈ request.selectedUtxos ∨
    ∃ unspendable,
      manager.isUtxoUnspendable utxo virtualDaaScore = .ok unspendable ∧
        (unspendable || !isFromAddresses request.fromAddresses utxo) = true

theorem moreUtxosLoop_of_passedOver {utxo : WalletUtxo}
    (passed : PassedOver request manager virtualDaaScore utxo)
    (rest added : List WalletUtxo) (total : UInt64) :
    moreUtxosLoop request manager virtualDaaScore feePerInput requiredAmount
        (utxo :: rest) added total =
      moreUtxosLoop request manager virtualDaaScore feePerInput
        requiredAmount rest added total := by
  rw [moreUtxosLoop]
  rcases passed with selected | ⟨unspendable, asked, refused⟩
  · rw [if_pos selected]
  · split
    · rfl
    · rw [asked, Outcome.ok_bind, if_pos refused]

theorem passedOver_of_not_addable {utxo : WalletUtxo}
    {rest added : List WalletUtxo} {total : UInt64}
    {result : List WalletUtxo × UInt64}
    (looped : moreUtxosLoop request manager virtualDaaScore feePerInput
      requiredAmount (utxo :: rest) added total = .ok result)
    (skipped : ¬Addable manager request virtualDaaScore utxo) :
    PassedOver request manager virtualDaaScore utxo := by
  rw [moreUtxosLoop] at looped
  by_cases selected : utxo ∈ request.selectedUtxos
  · exact .inl selected
  · simp only [selected, if_false, Outcome.bind_eq_ok] at looped
    obtain ⟨unspendable, asked, -⟩ := looped
    refine .inr ⟨unspendable, asked, ?_⟩
    by_contra accepted
    simp only [Bool.or_eq_true, Bool.not_eq_true', not_or,
      Bool.not_eq_true, Bool.not_eq_false] at accepted
    exact skipped ⟨selected, asked.trans (by rw [accepted.1]), accepted.2⟩

/-- One step of the loop skips a UTXO that is not addable. -/
theorem moreUtxosLoop_skip {utxo : WalletUtxo}
    {rest added : List WalletUtxo} {total : UInt64}
    {result : List WalletUtxo × UInt64}
    (looped : moreUtxosLoop request manager virtualDaaScore feePerInput
      requiredAmount (utxo :: rest) added total = .ok result)
    (skipped : ¬Addable manager request virtualDaaScore utxo) :
    moreUtxosLoop request manager virtualDaaScore feePerInput requiredAmount
      rest added total = .ok result := by
  have passed := passedOver_of_not_addable looped skipped
  rwa [moreUtxosLoop_of_passedOver passed] at looped

/-- One step of the loop adds an addable UTXO and stops when the required
amount is reached. -/
theorem moreUtxosLoop_add {utxo : WalletUtxo}
    {rest added : List WalletUtxo} {total : UInt64}
    {result : List WalletUtxo × UInt64}
    (looped : moreUtxosLoop request manager virtualDaaScore feePerInput
      requiredAmount (utxo :: rest) added total = .ok result)
    (addable : Addable manager request virtualDaaScore utxo) :
    ∃ next : UInt64, feePerInput ≤ utxo.amount ∧
      next.toNat =
        total.toNat + (utxo.amount.toNat - feePerInput.toNat) ∧
      if requiredAmount ≤ next then result = (added ++ [utxo], next)
      else moreUtxosLoop request manager virtualDaaScore feePerInput
        requiredAmount rest (added ++ [utxo]) next = .ok result := by
  obtain ⟨unselected, spendable, isFrom⟩ := addable
  simp only [moreUtxosLoop, unselected, if_false, spendable, isFrom,
    Outcome.ok_bind, Bool.not_true, Bool.or_false, Bool.false_eq_true,
    Outcome.bind_eq_ok, checkedSub_eq_ok, checkedAdd_eq_ok] at looped
  obtain ⟨value, split, next, sum, remaining⟩ := looped
  refine ⟨next, UInt64.le_iff_toNat_le.mpr (by omega), by omega, ?_⟩
  by_cases reached : requiredAmount ≤ next
  · rw [if_pos reached] at remaining ⊢
    exact (Outcome.pure_eq_ok.mp remaining).symm
  · rw [if_neg reached] at remaining ⊢
    exact remaining

/-- What the loop adds is an initial segment of the addable UTXOs; it falls
short of the required amount until its last UTXO, if it does not end for want
of UTXOs. -/
theorem moreUtxosLoop_adds {available added result : List WalletUtxo}
    {total final : UInt64}
    (looped : moreUtxosLoop request manager virtualDaaScore feePerInput
      requiredAmount available added total = .ok (result, final))
    (short : total < requiredAmount) :
    ∃ count,
      let picked := (available.filter fun utxo =>
        decide (Addable manager request virtualDaaScore utxo)).take count
      result = added ++ picked ∧
      final.toNat = total.toNat + netAmount feePerInput picked ∧
      (∀ utxo ∈ picked, feePerInput ≤ utxo.amount) ∧
      ∀ fewer < count,
        total.toNat + netAmount feePerInput ((available.filter fun utxo =>
          decide (Addable manager request virtualDaaScore utxo)).take
            fewer) < requiredAmount.toNat := by
  have start := UInt64.lt_iff_toNat_lt.mp short
  induction available generalizing added total with
  | nil =>
      simp only [moreUtxosLoop, Except.ok.injEq, Prod.mk.injEq] at looped
      obtain ⟨rfl, rfl⟩ := looped
      exact ⟨0, by simp⟩
  | cons utxo rest ih =>
      by_cases addable : Addable manager request virtualDaaScore utxo
      · obtain ⟨next, affordable, sum, remaining⟩ :=
          moreUtxosLoop_add looped addable
        rw [List.filter_cons_of_pos (by simpa using addable)]
        by_cases reached : requiredAmount ≤ next
        · rw [if_pos reached, Prod.mk.injEq] at remaining
          obtain ⟨rfl, rfl⟩ := remaining
          refine ⟨1, by simp, by simp [sum], by simpa using affordable, ?_⟩
          intro fewer below
          obtain rfl : fewer = 0 := by omega
          simpa using start
        · rw [if_neg reached] at remaining
          have below := not_le.mp reached
          obtain ⟨count, grown, total_eq, laterAffordable, minimal⟩ :=
            ih remaining below (UInt64.lt_iff_toNat_lt.mp below)
          refine ⟨count + 1, ?_, ?_, ?_, ?_⟩
          · simp [grown]
          · rw [List.take_succ_cons, netAmount_cons]
            omega
          · intro other member
            rw [List.take_succ_cons] at member
            rcases List.mem_cons.mp member with rfl | later
            · exact affordable
            · exact laterAffordable other later
          · intro fewer fewerBelow
            cases fewer with
            | zero => simpa using start
            | succ fewer =>
                have bound := minimal fewer (by omega)
                rw [List.take_succ_cons, netAmount_cons]
                omega
      · rw [List.filter_cons_of_neg (by simpa using addable)]
        exact ih (moreUtxosLoop_skip looped addable) short start

theorem shortestFunding_of_moreUtxos {generator : TransactionGenerator}
    {replies : NodeReplies} {round : Nat} {original : Transaction}
    {added : List WalletUtxo} {total : UInt64}
    (more : generator.moreUtxosForMergeTransaction request replies manager
      round original requiredAmount = .ok (added, total))
    (positive : 0 < requiredAmount) :
    ∃ virtualDaaScore feePerInput,
      replies.virtualDaaScore (round + 1) = .ok virtualDaaScore ∧
      generator.feePerInput request original = .ok feePerInput ∧
      ShortestFunding feePerInput requiredAmount.toNat
        (candidates manager request virtualDaaScore) added := by
  simp only [moreUtxosForMergeTransaction, Outcome.bind_eq_ok, Prod.exists,
    transportError, mapError_eq_ok, Outcome.err, Outcome.guarded_eq_ok,
    Outcome.pure_eq_ok, Prod.mk.injEq] at more
  obtain ⟨virtualDaaScore, asked, feePerInput, priced, result, final, looped,
    enough, rfl, rfl⟩ := more
  obtain ⟨count, grown, sum, affordable, minimal⟩ :=
    moreUtxosLoop_adds looped positive
  have zero : (0 : UInt64).toNat = 0 := rfl
  rw [List.nil_append] at grown
  rw [not_lt, UInt64.le_iff_toNat_le, sum, zero, Nat.zero_add, ← grown]
    at enough
  refine ⟨virtualDaaScore, feePerInput, asked, priced, ⟨count, grown, ?_⟩,
    by rwa [grown], enough⟩
  intro fewer below
  simpa [zero, candidates] using minimal fewer below

end Loop

section Plan

variable (upstream : Upstream) (generator : TransactionGenerator)
  (request : CompoundingRequest) (replies : NodeReplies)
  (manager : UtxoManager) (round : Nat) (original : Transaction)

/-- The plan adds UTXOs because the outputs of the splits do not suffice. -/
structure AddsUtxos (plan : MergePlan) : Prop where
  short : plan.availableValue < plan.sentValue
  exactAmount : request.isSendAll = false
  unrestricted : request.preselectedUtxoOutpoints = []
  funding : ∃ virtualDaaScore feePerInput,
    replies.virtualDaaScore (round + 1) = .ok virtualDaaScore ∧
      generator.feePerInput request original = .ok feePerInput ∧
      ShortestFunding feePerInput
        (plan.sentValue.toNat - plan.availableValue.toNat)
        (candidates manager request virtualDaaScore) plan.additionalUtxos

/-- What a successful `merge_transaction` has settled on. -/
structure Planned (splits : List WalletSignableTransaction)
    (plan : MergePlan) : Prop where
  splitUtxos :
    Outcome.collect (splitUtxo upstream request) splits = .ok plan.splitUtxos
  mergeFee : generator.estimateFee upstream plan.splitUtxos request.feeRate
    request.maxFee request.amount original.payload = .ok plan.mergeFee
  available : totalAmount plan.splitUtxos =
    plan.mergeFee.toNat + plan.availableValue.toNat
  sent : plan.sentValue =
    if request.isSendAll then plan.availableValue else request.amount
  funding :
    (plan.additionalUtxos = [] ∧ plan.sentValue ≤ plan.availableValue) ∨
      AddsUtxos generator request replies manager round original plan

variable {upstream generator request replies manager round original}

theorem planned_of_mergePlan {splits : List WalletSignableTransaction}
    {plan : MergePlan}
    (planned : generator.mergePlan upstream request replies manager round
      splits original = .ok plan) :
    Planned upstream generator request replies manager round original splits
      plan := by
  simp only [mergePlan, Outcome.err, Outcome.guarded_eq_ok,
    Outcome.bind_eq_ok, checkedSum_amounts_eq_ok, checkedSub_eq_ok,
    Prod.exists, Outcome.pure_eq_ok] at planned
  obtain ⟨-, splitUtxos, collected, totalValue, total, mergeFee, estimated,
    available, split, sent, sentAs, finalAvailable, finalSent, additional,
    covered, rfl⟩ := planned
  have sent_eq : sent =
      if request.isSendAll then available else request.amount := by
    cases all : request.isSendAll with
    | true =>
        simp only [sentValue, all, if_true, checkedSub_eq_ok] at sentAs
        rw [if_pos rfl, ← UInt64.toNat_inj]
        omega
    | false =>
        simpa [sentValue, all, eq_comm] using sentAs
  by_cases short : available < sent
  · have exactAmount : request.isSendAll = false := by
      by_contra all
      simp only [Bool.not_eq_false] at all
      simp [sent_eq, all] at short
    simp only [coverSentValue, short, exactAmount, if_true,
      Bool.false_eq_true, if_false, Outcome.err, Outcome.guarded_eq_ok,
      Outcome.bind_eq_ok, Outcome.pure_eq_ok, Prod.mk.injEq,
      Prod.exists] at covered
    obtain ⟨unrestricted, added, gained, more, rfl, rfl, rfl⟩ := covered
    have lower := UInt64.lt_iff_toNat_lt.mp short
    have difference := UInt64.toNat_sub_of_le _ _ short.le
    have positive : 0 < sent - available := by
      rw [UInt64.lt_iff_toNat_lt, difference]
      exact Nat.sub_pos_of_lt lower
    obtain ⟨virtualDaaScore, feePerInput, asked, priced, funding⟩ :=
      shortestFunding_of_moreUtxos more positive
    refine ⟨collected, estimated, total.trans split, sent_eq, .inr
      ⟨short, exactAmount, by simpa using unrestricted, virtualDaaScore,
        feePerInput, asked, priced, ?_⟩⟩
    rwa [difference] at funding
  · simp only [coverSentValue, short, if_false, Except.ok.injEq,
      Prod.mk.injEq] at covered
    obtain ⟨rfl, rfl, rfl⟩ := covered
    exact ⟨collected, estimated, total.trans split, sent_eq,
      .inl ⟨rfl, not_lt.mp short⟩⟩

theorem mergeTransaction_eq_ok {splits : List WalletSignableTransaction}
    {merge : WalletSignableTransaction} :
    generator.mergeTransaction upstream request replies manager round splits
        original = .ok merge ↔
      ∃ plan,
        generator.mergePlan upstream request replies manager round splits
          original = .ok plan ∧
        generator.buildMerge upstream request plan original = .ok merge := by
  simp only [mergeTransaction, Outcome.bind_eq_ok]

end Plan

section Conservation

variable {upstream : Upstream} {generator : TransactionGenerator}
  {request : CompoundingRequest} {replies : NodeReplies}
  {manager : UtxoManager} {round : Nat} {original : Transaction}
  {plan : MergePlan} {merge : WalletSignableTransaction}

/-- The sompi of all outputs but the first. -/
def changeValue (transaction : WalletSignableTransaction) : Nat :=
  ((outputValues transaction.tx).tail.map UInt64.toNat).sum

theorem inputsValue_of_buildMerge
    (merged : generator.buildMerge upstream request plan original =
      .ok merge) :
    inputsValue merge =
      totalAmount plan.splitUtxos + totalAmount plan.additionalUtxos := by
  rw [inputsValue_of_generateUnsignedTransaction merged, totalAmount_append]

theorem outputsValue_of_buildMerge
    (merged : generator.buildMerge upstream request plan original =
      .ok merge) :
    outputsValue merge = plan.sentValue.toNat + changeValue merge ∧
      changeValue merge =
        plan.availableValue.toNat - plan.sentValue.toNat := by
  have outputs := tx_of_generateUnsignedTransaction merged
  by_cases left : plan.sentValue < plan.availableValue
  · have difference := UInt64.toNat_sub_of_le _ _ left.le
    simp [outputsValue, changeValue, outputValues, outputs,
      consensusTransaction, Transaction.new, mergePayments, left, outputOf,
      TransactionOutput.new, difference]
  · have reversed := UInt64.le_iff_toNat_le.mp (not_lt.mp left)
    simp [outputsValue, changeValue, outputValues, outputs,
      consensusTransaction, Transaction.new, mergePayments, left, outputOf,
      TransactionOutput.new]
    omega

/-- The merge transaction pays its estimated fee and a fee for each added
UTXO, and returns the rest of what it spends. -/
structure Conserves (feePerInput : UInt64) (plan : MergePlan)
    (merge : WalletSignableTransaction) : Prop where
  feeBounded : inputsValue merge ≤
    outputsValue merge + (plan.mergeFee.toNat +
      feePerInput.toNat * plan.additionalUtxos.length)
  surplusReturned :
    plan.availableValue.toNat + netAmount feePerInput plan.additionalUtxos ≤
      plan.sentValue.toNat + changeValue merge

/-- A merge transaction that adds UTXOs returns nothing, so it conserves value
exactly if the UTXOs bring just what is missing. -/
theorem conserves_iff {splits : List WalletSignableTransaction}
    {feePerInput : UInt64}
    (planned : Planned upstream generator request replies manager round
      original splits plan)
    (merged : generator.buildMerge upstream request plan original = .ok merge)
    (affordable : ∀ utxo ∈ plan.additionalUtxos, feePerInput ≤ utxo.amount) :
    Conserves feePerInput plan merge ↔
      netAmount feePerInput plan.additionalUtxos ≤
        plan.sentValue.toNat - plan.availableValue.toNat := by
  have ins := inputsValue_of_buildMerge merged
  obtain ⟨outs, change⟩ := outputsValue_of_buildMerge merged
  have available := planned.available
  have added := totalAmount_eq_netAmount affordable
  rcases planned.funding with ⟨none, enough⟩ | adds
  · have ordered := UInt64.le_iff_toNat_le.mp enough
    simp only [none, netAmount_nil, Nat.zero_le, iff_true]
    rw [none, totalAmount_nil] at ins
    refine ⟨by omega, ?_⟩
    rw [none, netAmount_nil]
    omega
  · have short := UInt64.lt_iff_toNat_lt.mp adds.short
    constructor
    · intro conserves
      have returned := conserves.surplusReturned
      omega
    · intro funded
      exact ⟨by omega, by omega⟩

variable (generator request replies manager round original) in
/-- The outputs of the splits cover the payment, or some initial segment of
the candidates brings, net of a fee for each, exactly what is missing. -/
def ExactlyFunded (totalValue mergeFee : Nat) : Prop :=
  request.isSendAll = true ∨ request.amount.toNat + mergeFee ≤ totalValue ∨
    ∃ virtualDaaScore feePerInput,
      replies.virtualDaaScore (round + 1) = .ok virtualDaaScore ∧
        generator.feePerInput request original = .ok feePerInput ∧
        ∃ count, netAmount feePerInput
            ((candidates manager request virtualDaaScore).take count) =
          request.amount.toNat + mergeFee - totalValue

/-- The sompi of the first outputs of the splits. -/
def splitsValue (splits : List WalletSignableTransaction) : Nat :=
  (splits.map fun split => ((outputValues split.tx).headD 0).toNat).sum

theorem splitsValue_of_collect {splits : List WalletSignableTransaction}
    {utxos : List WalletUtxo}
    (collected :
      Outcome.collect (splitUtxo upstream request) splits = .ok utxos) :
    totalAmount utxos = splitsValue splits := by
  unfold totalAmount splitsValue
  rw [Outcome.map_eq_of_collect collected]
  intro split _ utxo made
  simp only [splitUtxo, Outcome.bind_eq_ok, Outcome.index_eq_ok,
    Outcome.pure_eq_ok] at made
  obtain ⟨output, first, rfl⟩ := made
  rw [← List.head?_eq_getElem?] at first
  simp [outputValues, List.headD_eq_head?_getD, first, WalletUtxo.amount]

/-- A merge transaction conserves value if and only if it is exactly
funded. -/
theorem mergeTransaction_conserves_iff
    {splits : List WalletSignableTransaction}
    (merged : generator.mergeTransaction upstream request replies manager
      round splits original = .ok merge) :
    ∃ plan,
      generator.mergePlan upstream request replies manager round splits
        original = .ok plan ∧
      ∀ feePerInput,
        (plan.additionalUtxos ≠ [] →
          generator.feePerInput request original = .ok feePerInput) →
        (Conserves feePerInput plan merge ↔
          ExactlyFunded generator request replies manager round original
            (splitsValue splits) plan.mergeFee.toNat) := by
  obtain ⟨plan, planning, built⟩ := mergeTransaction_eq_ok.mp merged
  refine ⟨plan, planning, ?_⟩
  intro feePerInput priced
  have planned := planned_of_mergePlan planning
  have value := splitsValue_of_collect planned.splitUtxos
  have available := planned.available
  have sent := planned.sent
  rw [← value]
  rcases planned.funding with ⟨none, enough⟩ | adds
  · rw [conserves_iff planned built (by simp [none])]
    have ordered := UInt64.le_iff_toNat_le.mp enough
    simp only [none, netAmount_nil, Nat.zero_le, true_iff]
    cases all : request.isSendAll with
    | true => exact .inl all
    | false =>
        rw [all, if_neg (by simp)] at sent
        rw [sent] at ordered
        exact .inr (.inl (by omega))
  · have exactAmount := adds.exactAmount
    rw [exactAmount, if_neg (by simp)] at sent
    have short := UInt64.lt_iff_toNat_lt.mp adds.short
    obtain ⟨virtualDaaScore, price, asked, price_eq, funding⟩ := adds.funding
    have nonempty : plan.additionalUtxos ≠ [] := by
      intro none
      have reached := funding.enough
      rw [none, netAmount_nil] at reached
      omega
    obtain rfl : price = feePerInput := by
      simpa [price_eq] using priced nonempty
    have required : plan.sentValue.toNat - plan.availableValue.toNat =
        request.amount.toNat + plan.mergeFee.toNat -
          totalAmount plan.splitUtxos := by
      rw [← sent]
      omega
    rw [conserves_iff planned built funding.affordable]
    constructor
    · intro bounded
      refine .inr (.inr ⟨virtualDaaScore, price, asked, price_eq, ?_⟩)
      rw [← required, funding.exact_iff]
      exact Nat.le_antisymm bounded funding.enough
    · rintro (all | covered | ⟨otherScore, otherPrice, otherAsked,
        otherPriced, exactly⟩)
      · simp [exactAmount] at all
      · rw [← sent] at covered
        omega
      · obtain rfl : virtualDaaScore = otherScore := by
          simpa [asked] using otherAsked
        obtain rfl : price = otherPrice := by
          simpa [price_eq] using otherPriced
        rw [← required, funding.exact_iff] at exactly
        exact exactly.le

end Conservation

section Overfunding

/-- A store with confirmed UTXOs only. -/
def sampleStore (utxos : List WalletUtxo) : UtxoManager :=
  (UtxoManager.new 100).rebuild utxos

def sampleRequest (selectedUtxos : List WalletUtxo)
    (amount : UInt64) : CompoundingRequest where
  selectedUtxos := selectedUtxos
  fromAddresses := []
  toAddress := sampleAddress 8
  amount := amount
  isSendAll := false
  preselectedUtxoOutpoints := []
  changeAddress := sampleAddress 9
  changeWalletAddress := ⟨9, 0, .internal⟩
  feeRate := 1.0
  maxFee := sompiPerKaspa

/-- A payment of 47000 sompi from one UTXO of 50000, beside which the wallet
has one of 60000. -/
def overfunded : CompoundingRequest :=
  sampleRequest [sampleUtxo 1 50000] 47000

def overfundedStore : UtxoManager :=
  sampleStore [sampleUtxo 1 50000, sampleUtxo 2 60000]

def overfundedOriginal : WalletResult WalletSignableTransaction :=
  (sampleGenerator 1).generateUnsignedTransaction devnet
    [⟨overfunded.toAddress, 47000⟩] [sampleUtxo 1 50000] []

private theorem overfunded_run :
    overfundedOriginal.Returns fun original =>
    ((sampleGenerator 1).createSplitTransaction devnet overfunded original 0
        1).Returns fun split =>
    ((sampleGenerator 1).mergeTransaction devnet overfunded
        (sampleReplies 1.0) overfundedStore 0 [split]
        original.tx).Returns fun merge =>
    ((sampleGenerator 1).mergePlan devnet overfunded (sampleReplies 1.0)
        overfundedStore 0 [split] original.tx).Returns fun plan =>
    (sampleGenerator 1).feePerInput overfunded original.tx = .ok 1130 ∧
      plan.mergeFee = 2058 ∧ plan.additionalUtxos.length = 1 ∧
      inputsValue merge = 108365 ∧ outputsValue merge = 47000 := by
  decide +kernel

theorem overfunded_conserves_iff :
    ∃ original split merge plan,
      (sampleGenerator 1).mergeTransaction devnet overfunded
        (sampleReplies 1.0) overfundedStore 0 [split] original =
          .ok merge ∧
      (sampleGenerator 1).mergePlan devnet overfunded (sampleReplies 1.0)
        overfundedStore 0 [split] original = .ok plan ∧
      ∀ feePerInput,
        (plan.additionalUtxos ≠ [] →
          (sampleGenerator 1).feePerInput overfunded original =
            .ok feePerInput) →
        (Conserves feePerInput plan merge ↔
          ExactlyFunded (sampleGenerator 1) overfunded (sampleReplies 1.0)
            overfundedStore 0 original (splitsValue [split])
            plan.mergeFee.toNat) := by
  obtain ⟨original, -, split, -, merge, merged, -⟩ := overfunded_run
  obtain ⟨plan, planned, exactly⟩ := mergeTransaction_conserves_iff merged
  exact ⟨original.tx, split, merge, plan, merged, planned, exactly⟩

/-- The merge transaction spends 108365 sompi to pay 47000; the fee estimates
account for 3188 of the difference. -/
theorem overfunded_not_conserves :
    ∃ original split merge plan,
      overfundedOriginal = .ok original ∧
      (sampleGenerator 1).createSplitTransaction devnet overfunded original 0
        1 = .ok split ∧
      (sampleGenerator 1).mergeTransaction devnet overfunded
        (sampleReplies 1.0) overfundedStore 0 [split] original.tx =
          .ok merge ∧
      (sampleGenerator 1).mergePlan devnet overfunded (sampleReplies 1.0)
        overfundedStore 0 [split] original.tx = .ok plan ∧
      (sampleGenerator 1).feePerInput overfunded original.tx = .ok 1130 ∧
      plan.mergeFee = 2058 ∧ plan.additionalUtxos.length = 1 ∧
      inputsValue merge = 108365 ∧ outputsValue merge = 47000 ∧
      ¬Conserves 1130 plan merge := by
  obtain ⟨original, built, split, made, merge, merged, plan, planned, priced,
    mergeFee, added, ins, outs⟩ := overfunded_run
  refine ⟨original, split, merge, plan, built, made, merged, planned, priced,
    mergeFee, added, ins, outs, ?_⟩
  intro conserves
  have bounded := conserves.feeBounded
  rw [ins, outs, mergeFee, added] at bounded
  exact absurd bounded (by decide)

end Overfunding

end TransactionGenerator

end Kaswallet
