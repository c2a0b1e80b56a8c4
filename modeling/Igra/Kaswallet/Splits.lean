import Igra.Kaswallet.Compounding

/-!
# Split transactions

The splits of a round partition the inputs of the transaction they replace:
taken one after the other they spend exactly its outpoints, and none of them
is without inputs.  Each pays a single output to the change address.
-/

open Kaspa Rust

namespace Kaswallet

theorem exists_divideRoundingUp (total parts : UInt64)
    (positive : 0 < parts.toNat) :
    ∃ result, divideRoundingUp total parts = .ok result ∧
      result.toNat =
        (total.toNat + (parts.toNat - 1)) / parts.toNat := by
  have totalBound := total.toNat_lt
  have division := Nat.div_add_mod total.toNat parts.toNat
  have small := Nat.mod_lt total.toNat positive
  obtain ⟨quotient, quotientEq⟩ := exists_toNat_eq
    ((Nat.div_le_self total.toNat parts.toNat).trans_lt totalBound)
  obtain ⟨remainder, remainderEq⟩ := exists_toNat_eq
    ((Nat.mod_le total.toNat parts.toNat).trans_lt totalBound)
  have divided : (checkedDiv total parts : WalletResult UInt64) =
      .ok quotient :=
    checkedDiv_eq_ok.mpr ⟨positive.ne', quotientEq.symm⟩
  have left : (checkedRem total parts : WalletResult UInt64) =
      .ok remainder :=
    checkedRem_eq_ok.mpr ⟨positive.ne', remainderEq.symm⟩
  rw [← quotientEq, ← remainderEq] at division
  rw [← remainderEq] at small
  unfold divideRoundingUp
  rw [divided, Outcome.ok_bind, left, Outcome.ok_bind]
  by_cases rest : 0 < remainder
  · have some : 0 < remainder.toNat := UInt64.lt_iff_toNat_lt.mp rest
    have half : 2 * quotient.toNat ≤ parts.toNat * quotient.toNat :=
      Nat.mul_le_mul_right _ (by omega)
    have fits : quotient.toNat + 1 < 2 ^ 64 := by omega
    obtain ⟨result, resultEq⟩ := exists_toNat_eq fits
    refine ⟨result, ?_, ?_⟩
    · rw [if_pos rest]
      exact checkedAdd_eq_ok.mpr resultEq.symm
    · rw [resultEq]
      symm
      apply Nat.div_eq_of_lt_le
      · rw [Nat.add_mul, Nat.mul_comm]
        omega
      · rw [Nat.add_mul, Nat.add_mul, Nat.mul_comm quotient.toNat]
        omega
  · have none : remainder.toNat = 0 := by
      rw [UInt64.lt_iff_toNat_lt] at rest
      exact Nat.eq_zero_of_not_pos rest
    refine ⟨quotient, ?_, ?_⟩
    · rw [if_neg rest]
      rfl
    · symm
      apply Nat.div_eq_of_lt_le
      · rw [Nat.mul_comm]
        omega
      · rw [Nat.add_mul, Nat.mul_comm quotient.toNat]
        omega

/-- As many parts as a division rounded up counts hold the total, and each of
them starts before its end. -/
theorem roundedUp_bounds {total parts : Nat} (positive : 0 < parts) :
    total ≤ (total + (parts - 1)) / parts * parts ∧
      ∀ position < (total + (parts - 1)) / parts,
        position * parts < total := by
  constructor
  · have covered := (Nat.div_le_iff_le_mul_add_pred positive).mp
      (le_refl ((total + (parts - 1)) / parts))
    rw [Nat.mul_comm] at covered
    omega
  · intro position below
    have whole := (Nat.le_div_iff_mul_le positive).mp
      (Nat.succ_le_of_lt below)
    rw [Nat.succ_mul] at whole
    omega

theorem toNat_divideRoundingUp {total parts result : UInt64}
    (divided : divideRoundingUp total parts = .ok result) :
    0 < parts.toNat ∧ result.toNat =
      (total.toNat + (parts.toNat - 1)) / parts.toNat := by
  have positive : 0 < parts.toNat := by
    obtain ⟨quotient, first, -⟩ := Outcome.bind_eq_ok.mp divided
    exact Nat.pos_of_ne_zero (checkedDiv_eq_ok.mp first).1
  obtain ⟨rounded, returned, roundedEq⟩ :=
    exists_divideRoundingUp total parts positive
  obtain rfl : rounded = result :=
    Except.ok.inj (returned.symm.trans divided)
  exact ⟨positive, roundedEq⟩

private theorem divideRoundingUp_spec {total parts result : UInt64}
    (divided : divideRoundingUp total parts = .ok result) :
    0 < parts.toNat ∧ total.toNat ≤ result.toNat * parts.toNat ∧
      ∀ position < result.toNat, position * parts.toNat < total.toNat := by
  obtain ⟨positive, roundedEq⟩ := toNat_divideRoundingUp divided
  rw [roundedEq]
  exact ⟨positive, roundedUp_bounds positive⟩

/-- The outpoints that a transaction consumes, in the order of its inputs. -/
def spentOutpoints (transaction : WalletSignableTransaction) :
    List WalletOutpoint :=
  transaction.tx.inputs.map fun input =>
    .ofTransactionOutpoint input.previousOutpoint

namespace TransactionGenerator

theorem spentOutpoints_of_generateUnsignedTransaction
    {upstream : Upstream} {generator : TransactionGenerator}
    {payments : List WalletPayment} {selectedUtxos : List WalletUtxo}
    {payload : List UInt8} {built : WalletSignableTransaction}
    (generated : generator.generateUnsignedTransaction upstream payments
      selectedUtxos payload = .ok built) :
    spentOutpoints built = selectedUtxos.map WalletUtxo.outpoint := by
  simp [spentOutpoints, tx_of_generateUnsignedTransaction generated,
    consensusTransaction, Transaction.new, inputOf, Function.comp_def]

section Positions

variable {α : Type}

/-- The positions of a split that starts inside the list are those of a
slice. -/
theorem map_splitPositions (items : List α) {startIndex : Nat}
    (endIndex : Nat) (inside : startIndex ≤ items.length) :
    (splitPositions items.length startIndex endIndex).map
        (fun position => items[position]?) =
      ((items.drop startIndex).take (endIndex - startIndex)).map some := by
  unfold splitPositions
  induction endIndex - startIndex generalizing startIndex with
  | zero => simp
  | succ count ih =>
      rw [List.range'_succ]
      rcases Nat.lt_or_ge startIndex items.length with below | atEnd
      · have other : (startIndex != items.length) = true := by
          simp [below.ne]
        rw [List.takeWhile_cons_of_pos (by exact other), List.map_cons,
          List.getElem?_eq_getElem below, ih below,
          List.drop_eq_getElem_cons below, List.take_succ_cons, List.map_cons]
      · obtain rfl : startIndex = items.length :=
          Nat.le_antisymm inside atEnd
        simp

/-- Consecutive slices put together are an initial segment. -/
theorem flatMap_slices (items : List α) (width count : Nat) :
    (List.range count).flatMap
        (fun position => (items.drop (position * width)).take width) =
      items.take (count * width) := by
  induction count with
  | zero => simp
  | succ count ih =>
      rw [List.range_succ, List.flatMap_append, ih, Nat.add_mul, Nat.one_mul,
        List.take_add]
      simp

end Positions

variable {upstream : Upstream} {generator : TransactionGenerator}
  {request : CompoundingRequest} {original split : WalletSignableTransaction}

theorem createSplitTransaction_eq_ok {startIndex endIndex : Nat} :
    generator.createSplitTransaction upstream request original startIndex
        endIndex = .ok split ↔
      ∃ selectedUtxos totalSompi payout,
        Outcome.collect (inputUtxo original)
            (splitPositions original.tx.inputs.length startIndex endIndex) =
          .ok selectedUtxos ∧
        totalAmount selectedUtxos = UInt64.toNat totalSompi ∧
        generator.splitPayout upstream request selectedUtxos totalSompi =
          .ok payout ∧
        generator.generateUnsignedTransaction upstream
          [⟨request.changeAddress, payout⟩] selectedUtxos [] =
            .ok split := by
  simp only [createSplitTransaction, Outcome.bind_eq_ok,
    checkedSum_amounts_eq_ok]
  constructor
  · rintro ⟨utxos, collected, total, summed, payout, paid, generated⟩
    exact ⟨utxos, total, payout, collected, summed, paid, generated⟩
  · rintro ⟨utxos, total, payout, collected, summed, paid, generated⟩
    exact ⟨utxos, collected, total, summed, payout, paid, generated⟩

private theorem outpoint_of_inputUtxo {position : Nat} {utxo : WalletUtxo}
    (read : inputUtxo original position = .ok utxo) :
    some utxo.outpoint = (spentOutpoints original)[position]? := by
  simp only [inputUtxo, Outcome.bind_eq_ok, Outcome.index_eq_ok,
    Outcome.pure_eq_ok] at read
  obtain ⟨input, found, _, _, _, _, _, _, rfl⟩ := read
  simp [spentOutpoints, found]

theorem spentOutpoints_of_createSplitTransaction {startIndex endIndex : Nat}
    (inside : startIndex ≤ (spentOutpoints original).length)
    (created : generator.createSplitTransaction upstream request original
      startIndex endIndex = .ok split) :
    spentOutpoints split =
      ((spentOutpoints original).drop startIndex).take
        (endIndex - startIndex) := by
  obtain ⟨utxos, _, _, collected, -, -, generated⟩ :=
    createSplitTransaction_eq_ok.mp created
  have length : original.tx.inputs.length =
      (spentOutpoints original).length := by
    simp [spentOutpoints]
  have read := Outcome.map_eq_of_collect collected
    fun _ _ _ => outpoint_of_inputUtxo
  rw [length, map_splitPositions _ _ inside] at read
  rw [spentOutpoints_of_generateUnsignedTransaction generated]
  apply List.map_injective_iff.mpr (Option.some_injective _)
  rw [← read, List.map_map]
  rfl

/-- What a split transaction looks like, and the check it has passed. -/
structure SplitShape (upstream : Upstream) (generator : TransactionGenerator)
    (request : CompoundingRequest) (split : WalletSignableTransaction) :
    Prop where
  payload : split.tx.payload = []
  outputs : ∃ value, split.tx.outputs =
    [.new value (upstream.payToAddressScript request.changeAddress)]
  addresses : split.addressByOutputIndex = [request.changeAddress]
  fee : inputsValue split ≤ outputsValue split + request.maxFee.toNat
  checked : generator.checkTransactionFeeRate upstream split = .ok ()
  generated : ∃ payments selectedUtxos,
    generator.generateUnsignedTransaction upstream payments selectedUtxos [] =
      .ok split

theorem estimateFee_le_maxFee {utxos : List WalletUtxo} {feeRate : Float}
    {maxFee recipientValue fee : UInt64} {payload : List UInt8}
    (estimated : generator.estimateFee upstream utxos feeRate maxFee
      recipientValue payload = .ok fee) :
    fee.toNat ≤ maxFee.toNat := by
  simp only [estimateFee, Outcome.bind_eq_ok, Outcome.pure_eq_ok] at estimated
  obtain ⟨mass, -, rfl⟩ := estimated
  exact UInt64.le_iff_toNat_le.mp (min_le_right _ _)

theorem totalSompi_le_splitPayout {utxos : List WalletUtxo}
    {totalSompi payout : UInt64}
    (paid : generator.splitPayout upstream request utxos totalSompi =
      .ok payout) :
    totalSompi.toNat ≤ payout.toNat + request.maxFee.toNat := by
  cases utxos with
  | nil =>
      simp only [splitPayout, List.isEmpty_nil, if_true,
        Except.ok.injEq] at paid
      subst paid
      omega
  | cons first rest =>
      simp only [splitPayout, List.isEmpty_cons, Bool.false_eq_true, if_false,
        Outcome.bind_eq_ok, checkedSub_eq_ok] at paid
      obtain ⟨fee, estimated, split⟩ := paid
      have bound := estimateFee_le_maxFee estimated
      omega

theorem splitShape_of_checkedSplit {width position : Nat}
    (created : generator.checkedSplit upstream request original width
      position = .ok split) :
    SplitShape upstream generator request split := by
  simp only [checkedSplit, Outcome.bind_eq_ok, Outcome.pure_eq_ok] at created
  obtain ⟨_, made, ⟨⟩, checked, rfl⟩ := created
  obtain ⟨utxos, total, payout, -, summed, paid, generated⟩ :=
    createSplitTransaction_eq_ok.mp made
  have tx := tx_of_generateUnsignedTransaction generated
  refine ⟨by rw [tx]; rfl, ⟨payout, by rw [tx]; rfl⟩,
    addressByOutputIndex_of_generateUnsignedTransaction generated, ?_,
    checked, _, _, generated⟩
  rw [inputsValue_of_generateUnsignedTransaction generated,
    outputsValue_of_generateUnsignedTransaction generated, summed]
  simpa using totalSompi_le_splitPayout paid

/-- The splits of a transaction spend what it spends, each of them
something. -/
structure Partitions (original : WalletSignableTransaction)
    (splits : List WalletSignableTransaction) : Prop where
  spent : splits.flatMap spentOutpoints = spentOutpoints original
  nonempty : ∀ split ∈ splits, spentOutpoints split ≠ []

theorem splitCounts_spec {transactionMass splitCount width : UInt64}
    (counted : generator.splitAndInputPerSplitCounts upstream request original
      transactionMass = .ok (splitCount, width)) :
    0 < width.toNat ∧
      (spentOutpoints original).length ≤ splitCount.toNat * width.toNat ∧
      ∀ position < splitCount.toNat,
        position * width.toNat < (spentOutpoints original).length := by
  simp only [splitAndInputPerSplitCounts, Outcome.bind_eq_ok,
    checkedLength_eq_ok, Outcome.pure_eq_ok, Prod.mk.injEq] at counted
  obtain ⟨_, _, _, _, inputCount, length, _, _, _, _, _, _, _, _, _, _, _,
    divided, rfl, rfl⟩ := counted
  have spent : (spentOutpoints original).length = inputCount.toNat := by
    simp [spentOutpoints, length]
  rw [spent]
  exact divideRoundingUp_spec divided

theorem partitions_of_splitTransactions {transactionMass : UInt64}
    {splits : List WalletSignableTransaction}
    (made : generator.splitTransactions upstream request original
      transactionMass = .ok splits) :
    Partitions original splits ∧
      ∀ split ∈ splits, SplitShape upstream generator request split := by
  simp only [splitTransactions, Outcome.bind_eq_ok, Prod.exists] at made
  obtain ⟨splitCount, width, counted, collected⟩ := made
  obtain ⟨wide, enough, inside⟩ := splitCounts_spec counted
  have slice : ∀ position ∈ List.range splitCount.toNat, ∀ split,
      generator.checkedSplit upstream request original width.toNat position =
        .ok split →
      spentOutpoints split =
        ((spentOutpoints original).drop (position * width.toNat)).take
          width.toNat := by
    intro position inRange split created
    simp only [checkedSplit, Outcome.bind_eq_ok,
      Outcome.pure_eq_ok] at created
    obtain ⟨_, created, _, -, rfl⟩ := created
    have spent := spentOutpoints_of_createSplitTransaction
      (inside position (List.mem_range.mp inRange)).le created
    rwa [Nat.add_sub_cancel_left] at spent
  refine ⟨⟨?_, ?_⟩, ?_⟩
  · rw [List.flatMap_def, Outcome.map_eq_of_collect collected slice,
      ← List.flatMap_def, flatMap_slices, List.take_of_length_le enough]
  · intro split member
    obtain ⟨position, inRange, created⟩ :=
      Outcome.exists_of_mem_collect collected member
    rw [slice position inRange split created]
    have start := inside position (List.mem_range.mp inRange)
    intro nothing
    have length := congrArg List.length nothing
    simp only [List.length_take, List.length_drop, List.length_nil] at length
    omega
  · intro split member
    obtain ⟨position, -, created⟩ :=
      Outcome.exists_of_mem_collect collected member
    exact splitShape_of_checkedSplit created

end TransactionGenerator

end Kaswallet
