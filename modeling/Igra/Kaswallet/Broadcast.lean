import Igra.Kaswallet.Service

/-!
# Broadcasting

What the wallet knows about a batch that clients hand in: how far the vectors
of a decoded transaction agree in length, and what a submission that fails in
the middle of the batch has done.
-/

open Kaspa Rust

namespace Kaswallet

section Alignment

/-- The vectors that are read by position are as long as what is counted. -/
structure Aligned (transaction : WalletSignableTransaction) : Prop where
  entries : transaction.transaction.inner.entries.length =
    transaction.tx.inputs.length
  inputAddresses : transaction.addressByInputIndex.length =
    transaction.tx.inputs.length
  outputAddresses : transaction.addressByOutputIndex.length =
    transaction.tx.outputs.length

/-- No read by position fails after the transaction is decoded, neither when
the store tracks it nor when it is split. -/
structure SafeToBroadcast (upstream : Upstream)
    (transaction : WalletSignableTransaction) : Prop where
  aligned : Aligned transaction
  tracked : ∀ addresses (manager : UtxoManager), ∃ tracked,
    manager.addMempoolTransaction upstream addresses transaction = .ok tracked
  splittable : ∀ position < transaction.tx.inputs.length, ∃ utxo,
    TransactionGenerator.inputUtxo transaction position = .ok utxo

variable {upstream : Upstream} {transaction : WalletSignableTransaction}

theorem UtxoManager.exists_addMempoolTransaction
    (enough : transaction.tx.outputs.length ≤
      transaction.addressByOutputIndex.length)
    (addresses : AddressSet) (manager : UtxoManager) :
    ∃ tracked, manager.addMempoolTransaction upstream addresses transaction =
      .ok tracked := by
  apply Outcome.exists_foldlM
  rintro ⟨output, position⟩ member current
  have below : position < transaction.addressByOutputIndex.length := by
    have inOutputs := List.snd_lt_of_mem_zipIdx member
    omega
  have read : (Outcome.index transaction.addressByOutputIndex position :
      WalletResult Address) =
        .ok transaction.addressByOutputIndex[position] :=
    Outcome.index_eq_ok.mpr (List.getElem?_eq_getElem below)
  rw [applyOutput, read, Outcome.ok_bind]
  split
  · exact ⟨current, rfl⟩
  · exact ⟨_, rfl⟩

theorem TransactionGenerator.exists_inputUtxo (aligned : Aligned transaction)
    (present : ∀ slot ∈ transaction.transaction.inner.entries, slot ≠ none)
    {position : Nat} (below : position < transaction.tx.inputs.length) :
    ∃ utxo, inputUtxo transaction position = .ok utxo := by
  have belowEntries := aligned.entries ▸ below
  have belowAddresses := aligned.inputAddresses ▸ below
  obtain ⟨entry, same⟩ := Option.ne_none_iff_exists'.mp
    (present _ (List.getElem_mem belowEntries))
  simp only [inputUtxo, Outcome.bind_eq_ok, Outcome.index_eq_ok,
    Outcome.ofOption_eq_ok, Outcome.pure_eq_ok]
  exact ⟨_, _, List.getElem?_eq_getElem below, _,
    List.getElem?_eq_getElem belowEntries, entry, same, _,
    List.getElem?_eq_getElem belowAddresses, rfl⟩

end Alignment

section Decoded

variable {upstream : Upstream}
  {message : Proto.WalletSignableTransaction}
  {transaction : WalletSignableTransaction}

/-- The consensus transaction inside the message. -/
def Proto.WalletSignableTransaction.tx
    (message : Proto.WalletSignableTransaction) : Proto.Transaction :=
  match (message.transaction.getD .default).signed with
  | some (.fully signable) => signable.tx.getD .default
  | some (.partially signable) => signable.tx.getD .default
  | none => .default

private theorem lengths_of_transactionFromProto {tx : Proto.Transaction}
    {decoded : Transaction} (accepted : transactionFromProto tx = .ok decoded) :
    decoded.inputs.length = tx.inputs.length ∧
      decoded.outputs.length = tx.outputs.length := by
  simp only [transactionFromProto, Outcome.bind_eq_ok, Outcome.pure_eq_ok]
    at accepted
  obtain ⟨version, -, subnetworkId, -, inputs, readInputs, outputs,
    readOutputs, rfl⟩ := accepted
  exact ⟨Outcome.length_of_collect_eq_ok readInputs,
    Outcome.length_of_collect_eq_ok readOutputs⟩

theorem entries_of_signableTransactionFromProto
    {signable : Proto.SignableTransaction} {decoded : SignableTransaction}
    (accepted : signableTransactionFromProto signable = .ok decoded) :
    transactionFromProto (signable.tx.getD .default) = .ok decoded.tx ∧
      decoded.entries.length = decoded.tx.inputs.length ∧
      ∀ slot ∈ decoded.entries, slot ≠ none := by
  simp only [signableTransactionFromProto, Outcome.bind_eq_ok, Outcome.err,
    Outcome.guarded_eq_ok, Outcome.pure_eq_ok] at accepted
  obtain ⟨tx, readTx, entries, -, counted, present, rfl⟩ := accepted
  refine ⟨readTx, not_not.mp counted, ?_⟩
  intro slot member missing
  apply present
  exact List.any_eq_true.mpr ⟨slot, member, by simp [missing]⟩

theorem signable_of_signedTransactionFromProto
    {signed : Proto.SignedTransaction} {decoded : WalletSigned}
    (accepted : signedTransactionFromProto signed = .ok decoded) :
    ∃ signable,
      (signed.signed = some (.fully signable) ∨
        signed.signed = some (.partially signable)) ∧
      signableTransactionFromProto signable = .ok decoded.inner := by
  unfold signedTransactionFromProto at accepted
  split at accepted
  · rename_i signable variantEq
    obtain ⟨inner, read, rfl⟩ := Outcome.map_eq_ok.mp accepted
    exact ⟨signable, .inl variantEq, read⟩
  · rename_i signable variantEq
    obtain ⟨inner, read, rfl⟩ := Outcome.map_eq_ok.mp accepted
    exact ⟨signable, .inr variantEq, read⟩
  · exact absurd accepted (Outcome.err_ne_ok _ _)

/-- The lengths after decoding: only the entries are checked against the
inputs. -/
structure DecodedLengths (message : Proto.WalletSignableTransaction)
    (transaction : WalletSignableTransaction) : Prop where
  inputs : transaction.tx.inputs.length = message.tx.inputs.length
  outputs : transaction.tx.outputs.length = message.tx.outputs.length
  entries : transaction.transaction.inner.entries.length =
    transaction.tx.inputs.length
  present : ∀ slot ∈ transaction.transaction.inner.entries, slot ≠ none
  inputAddresses : transaction.addressByInputIndex.length =
    message.addressByInputIndex.length
  outputAddresses : transaction.addressByOutputIndex.length =
    message.addressByOutputIndex.length

theorem decodedLengths
    (accepted : walletSignableTransactionFromProto upstream message =
      .ok transaction) : DecodedLengths message transaction := by
  simp only [walletSignableTransactionFromProto, Outcome.bind_eq_ok,
    Outcome.pure_eq_ok] at accepted
  obtain ⟨signed, readSigned, outputAddresses, readOutputs, inputAddresses,
    readInputs, rfl⟩ := accepted
  obtain ⟨signable, variantEq, readSignable⟩ :=
    signable_of_signedTransactionFromProto readSigned
  obtain ⟨readTx, counted, present⟩ :=
    entries_of_signableTransactionFromProto readSignable
  have inside : message.tx = signable.tx.getD .default := by
    unfold Proto.WalletSignableTransaction.tx
    rcases variantEq with variantEq | variantEq <;> rw [variantEq]
  obtain ⟨inputs, outputs⟩ := lengths_of_transactionFromProto readTx
  rw [← inside] at inputs outputs
  exact
    { inputs, outputs
      entries := counted
      present
      inputAddresses := Outcome.length_of_collect_eq_ok readInputs
      outputAddresses := Outcome.length_of_collect_eq_ok readOutputs }

/-- A decoded transaction is safe to broadcast if and only if the message
lists one address for each input and one for each output. -/
theorem safeToBroadcast_iff
    (accepted : walletSignableTransactionFromProto upstream message =
      .ok transaction) :
    SafeToBroadcast upstream transaction ↔
      message.addressByInputIndex.length = message.tx.inputs.length ∧
        message.addressByOutputIndex.length = message.tx.outputs.length := by
  have lengths := decodedLengths accepted
  constructor
  · intro safe
    rw [← lengths.inputAddresses, ← lengths.outputAddresses,
      ← lengths.inputs, ← lengths.outputs]
    exact ⟨safe.aligned.inputAddresses, safe.aligned.outputAddresses⟩
  · rintro ⟨inputAddresses, outputAddresses⟩
    have aligned : Aligned transaction :=
      { entries := lengths.entries
        inputAddresses := by
          rw [lengths.inputAddresses, inputAddresses, lengths.inputs]
        outputAddresses := by
          rw [lengths.outputAddresses, outputAddresses, lengths.outputs] }
    exact
      { aligned
        tracked := UtxoManager.exists_addMempoolTransaction
          aligned.outputAddresses.ge
        splittable := fun _ below =>
          TransactionGenerator.exists_inputUtxo aligned lengths.present
            below }

theorem budgetedPayment_safeToBroadcast_iff :
    SafeToBroadcast devnet budgetedPayment ↔
      (walletSignableTransactionToProto devnet
          budgetedPayment).addressByInputIndex.length =
        (walletSignableTransactionToProto devnet
          budgetedPayment).tx.inputs.length ∧
      (walletSignableTransactionToProto devnet
          budgetedPayment).addressByOutputIndex.length =
        (walletSignableTransactionToProto devnet
          budgetedPayment).tx.outputs.length :=
  safeToBroadcast_iff (walletSignableTransaction_decode
    addressesRoundTrip_devnet budgetedPayment_encodable.signable
    (budgetedPayment_encodable.distinctPaths.map distinctPathTexts_devnet))

/-- A signed payment whose message names no address for its output. -/
def unaddressedPayment : WalletSignableTransaction :=
  { budgetedPayment with addressByOutputIndex := [] }

/-- A node that accepts every transaction. -/
def acceptingNode : SubmitSurroundings where
  replies := fun _ => .ok (FixedBytes.zero 32)
  addresses := fun _ => ∅

/-- The message is accepted; the wallet panics once the node has the
transaction. -/
theorem unaddressedPayment_not_safe :
    walletSignableTransactionFromProto devnet
        (walletSignableTransactionToProto devnet unaddressedPayment) =
      .ok unaddressedPayment ∧
    ¬SafeToBroadcast devnet unaddressedPayment ∧
    (submitTransactions devnet .native acceptingNode 0 (.new 100)
      [unaddressedPayment]).result = Outcome.panic ∧
    (submitTransactions devnet .native acceptingNode 0 (.new 100)
      [unaddressedPayment]).sent = [unaddressedPayment.tx] := by
  refine ⟨?_, ?_, by rfl, by rfl⟩
  · exact walletSignableTransaction_decode addressesRoundTrip_devnet
      budgetedPayment_encodable.signable
      (budgetedPayment_encodable.distinctPaths.map distinctPathTexts_devnet)
  · intro safe
    exact absurd safe.aligned.outputAddresses (by decide)

end Decoded

section Submission

variable {upstream : Upstream} {configured : SubnetworkId}
  {surroundings : SubmitSurroundings}

variable (upstream surroundings) in
/-- The store after the wallet has tracked transactions in their order. -/
def trackAll : Nat → UtxoManager → List WalletSignableTransaction →
    WalletResult UtxoManager
  | _, manager, [] => .ok manager
  | index, manager, transaction :: rest => do
      let tracked ← manager.addMempoolTransaction upstream
        (surroundings.addresses index) transaction
      trackAll (index + 1) tracked rest

/-- What lets a transaction out to the node. -/
structure Sendable (configured : SubnetworkId)
    (transaction : WalletSignableTransaction) : Prop where
  fullySigned : ∃ signable, transaction.transaction = .fully signable
  admitted : ensureSubnetworkIdMatches configured
    transaction.tx.subnetworkId = .ok ()

theorem submittable_eq_ok {transaction : WalletSignableTransaction}
    {signable : SignableTransaction}
    (checked : submittable configured transaction = .ok signable) :
    Sendable configured transaction ∧ signable.tx = transaction.tx := by
  unfold submittable at checked
  split at checked
  · exact absurd checked (Outcome.err_ne_ok _ _)
  · rename_i inner signed
    have same : transaction.tx = inner.tx := by
      rw [WalletSignableTransaction.tx, signed]
      rfl
    simp only [Outcome.bind_eq_ok, Outcome.pure_eq_ok] at checked
    obtain ⟨⟨⟩, admitted, -, -, rfl⟩ := checked
    exact ⟨⟨⟨inner, signed⟩, same ▸ admitted⟩, same.symm⟩

theorem sendable_of_mem_sent {index : Nat} {manager : UtxoManager}
    {batch : List WalletSignableTransaction} {tx : Transaction}
    (member : tx ∈ (submitTransactions upstream configured surroundings index
      manager batch).sent) :
    ∃ transaction ∈ batch,
      transaction.tx = tx ∧ Sendable configured transaction := by
  induction batch generalizing index manager with
  | nil => cases member
  | cons transaction rest ih =>
      rw [submitTransactions] at member
      cases checked : submittable configured transaction with
      | error fault =>
          rw [checked] at member
          cases member
      | ok signable =>
          obtain ⟨sendable, same⟩ := submittable_eq_ok checked
          have first : ∃ candidate ∈ transaction :: rest,
              candidate.tx = signable.tx ∧ Sendable configured candidate :=
            ⟨transaction, List.mem_cons_self, same.symm, sendable⟩
          rw [checked] at member
          cases reply : surroundings.replies index with
          | error raw =>
              simp only [reply, List.mem_singleton] at member
              exact member ▸ first
          | ok transactionId =>
              simp only [reply] at member
              cases tracking : manager.addMempoolTransaction upstream
                  (surroundings.addresses index) transaction with
              | error fault =>
                  simp only [tracking, List.mem_singleton] at member
                  exact member ▸ first
              | ok tracked =>
                  simp only [tracking, List.mem_cons] at member
                  rcases member with rfl | later
                  · exact first
                  · obtain ⟨candidate, inRest, found⟩ := ih later
                    exact ⟨candidate, List.mem_cons_of_mem _ inRest, found⟩

/-- A submission has stopped at a transaction: those before it are accepted
and tracked, and it was not sent or the node has refused it. -/
structure StopsAt (upstream : Upstream) (configured : SubnetworkId)
    (surroundings : SubmitSurroundings) (index : Nat) (manager : UtxoManager)
    (front : List WalletSignableTransaction)
    (transaction : WalletSignableTransaction) (error : WalletError)
    (submission : Submission) : Prop where
  accepted : ∀ position < front.length, ∃ transactionId,
    surroundings.replies (index + position) = .ok transactionId
  tracked : trackAll upstream surroundings index manager front =
    .ok submission.manager
  ending :
    submittable configured transaction = Outcome.err error ∧
        submission.sent = front.map WalletSignableTransaction.tx ∨
      Sendable configured transaction ∧
        (∃ raw,
          surroundings.replies (index + front.length) = .error raw ∧
            error = .transaction (classifySubmitRpcError
              (upstream.transactionId transaction.tx) raw)) ∧
        submission.sent = (front ++ [transaction]).map
          WalletSignableTransaction.tx

theorem addMempoolTransaction_ne_err (manager : UtxoManager)
    (addresses : AddressSet) (transaction : WalletSignableTransaction)
    (error : WalletError) :
    manager.addMempoolTransaction upstream addresses transaction ≠
      Outcome.err error := by
  apply Outcome.foldlM_ne_err
  intro current indexed error failed
  rw [UtxoManager.applyOutput, Outcome.index] at failed
  cases found : transaction.addressByOutputIndex[indexed.2]? with
  | none =>
      rw [found] at failed
      cases failed
  | some address =>
      rw [found] at failed
      simp only [Outcome.ok_bind] at failed
      split at failed <;> cases failed

/-- The transaction that the error is about, from where the submission
started. -/
theorem stopsAt_of_submitTransactions {index : Nat} {manager : UtxoManager}
    {batch : List WalletSignableTransaction} {error : WalletError}
    (failed : (submitTransactions upstream configured surroundings index
      manager batch).result = Outcome.err error) :
    ∃ front transaction back, batch = front ++ transaction :: back ∧
      StopsAt upstream configured surroundings index manager front
        transaction error
        (submitTransactions upstream configured surroundings index manager
          batch) := by
  induction batch generalizing index manager with
  | nil => cases failed
  | cons transaction rest ih =>
      rw [submitTransactions] at failed ⊢
      cases checked : submittable configured transaction with
      | error fault =>
          rw [checked] at failed
          cases failed
          exact ⟨[], transaction, rest, rfl, by simp, rfl,
            .inl ⟨checked, rfl⟩⟩
      | ok signable =>
          obtain ⟨sendable, same⟩ := submittable_eq_ok checked
          rw [checked] at failed
          cases reply : surroundings.replies index with
          | error raw =>
              simp only [reply] at failed
              cases failed
              refine ⟨[], transaction, rest, rfl, by simp, rfl,
                .inr ⟨sendable, ⟨raw, reply, ?_⟩, ?_⟩⟩
              · rw [same]
              · simp [same]
          | ok transactionId =>
              simp only [reply] at failed
              cases tracking : manager.addMempoolTransaction upstream
                  (surroundings.addresses index) transaction with
              | error fault =>
                  simp only [tracking] at failed
                  cases failed
                  exact absurd tracking
                    (addMempoolTransaction_ne_err _ _ _ _)
              | ok tracked =>
                  simp only [tracking] at failed
                  have later : (submitTransactions upstream configured
                      surroundings (index + 1) tracked rest).result =
                        Outcome.err error := by
                    exact Outcome.map_eq_err.mp failed
                  obtain ⟨front, stopped, back, rfl, stops⟩ := ih later
                  refine ⟨transaction :: front, stopped, back, rfl, ?_, ?_,
                    ?_⟩
                  · rintro (- | position) below
                    · exact ⟨transactionId, reply⟩
                    · rw [Nat.add_comm position, ← Nat.add_assoc]
                      exact stops.accepted position
                        (Nat.lt_of_succ_lt_succ below)
                  · simp only [trackAll, tracking, Outcome.ok_bind]
                    exact stops.tracked
                  · rcases stops.ending with ⟨unsent, sent⟩ |
                      ⟨admitted, ⟨raw, refused, named⟩, sent⟩
                    · refine .inl ⟨unsent, ?_⟩
                      simp only [sent, same, List.map_cons]
                    · refine .inr ⟨admitted, ⟨raw, ?_, named⟩, ?_⟩
                      · rw [List.length_cons, ← Nat.add_assoc,
                          Nat.add_right_comm]
                        exact refused
                      · simp only [sent, same, List.cons_append,
                          List.map_cons]

/-- A submission that returns an error has sent and tracked what was before
the transaction that the error is about, and has sent that one if the node
refused it.  Whatever the result, what is sent was fully signed and on an
admitted subnetwork. -/
theorem submitTransactions_stops (manager : UtxoManager)
    (batch : List WalletSignableTransaction) :
    (∀ error, (submitTransactions upstream configured surroundings 0 manager
        batch).result = Outcome.err error →
      ∃ front transaction back, batch = front ++ transaction :: back ∧
        StopsAt upstream configured surroundings 0 manager front transaction
          error (submitTransactions upstream configured surroundings 0
            manager batch)) ∧
    ∀ tx ∈ (submitTransactions upstream configured surroundings 0 manager
        batch).sent,
      ∃ transaction ∈ batch,
        transaction.tx = tx ∧ Sendable configured transaction :=
  ⟨fun _ failed => stopsAt_of_submitTransactions failed,
    fun _ member => sendable_of_mem_sent member⟩

/-- A node that accepts a transaction once. -/
def onceAcceptingNode : SubmitSurroundings where
  replies := fun index =>
    if index = 0 then .ok (FixedBytes.zero 32)
    else .error "already in the mempool"
  addresses := fun _ => ∅

/-- Of a payment that is handed in three times, the second is refused and the
third is not sent. -/
theorem repeatedPayment_stops :
    ∃ error transaction,
      (submitTransactions devnet .native onceAcceptingNode 0 (.new 100)
        (List.replicate 3 budgetedPayment)).result = Outcome.err error ∧
      StopsAt devnet .native onceAcceptingNode 0 (.new 100)
        [budgetedPayment] transaction error
        (submitTransactions devnet .native onceAcceptingNode 0 (.new 100)
          (List.replicate 3 budgetedPayment)) := by
  have failed : ∃ error,
      (submitTransactions devnet .native onceAcceptingNode 0 (.new 100)
        (List.replicate 3 budgetedPayment)).result = Outcome.err error :=
    ⟨_, rfl⟩
  obtain ⟨error, failed⟩ := failed
  obtain ⟨front, transaction, back, batch, stops⟩ :=
    (submitTransactions_stops (.new 100)
      (List.replicate 3 budgetedPayment)).1 error failed
  have sentTwice : (submitTransactions devnet .native onceAcceptingNode 0
      (.new 100) (List.replicate 3 budgetedPayment)).sent.length = 2 := rfl
  have atMost : front.length ≤ 1 := by
    by_contra more
    obtain ⟨_, accepted⟩ := stops.accepted 1 (not_le.mp more)
    cases accepted
  have atLeast : 1 ≤ front.length := by
    rcases stops.ending with ⟨_, sent⟩ | ⟨_, _, sent⟩
    · rw [sent, List.length_map] at sentTwice
      omega
    · rw [sent, List.length_map, List.length_append, List.length_singleton]
        at sentTwice
      omega
  obtain ⟨first, rfl⟩ := List.length_eq_one_iff.mp
    (Nat.le_antisymm atMost atLeast)
  obtain rfl : budgetedPayment = first := List.head_eq_of_cons_eq batch
  exact ⟨error, transaction, failed, stops⟩

/-- A node that refuses every transaction. -/
def refusingNode : SubmitSurroundings where
  replies := fun _ => .error "rejected by mempool"
  addresses := fun _ => ∅

/-- The refused transaction was sent. -/
theorem budgetedPayment_sent :
    (submitTransactions devnet .native refusingNode 0 (.new 100)
      [budgetedPayment]).result =
        Outcome.err (.transaction (classifySubmitRpcError
          (devnet.transactionId budgetedPayment.tx) "rejected by mempool")) ∧
    ¬∃ front transaction back,
      [budgetedPayment] = front ++ transaction :: back ∧
        (submitTransactions devnet .native refusingNode 0 (.new 100)
          [budgetedPayment]).sent =
            front.map WalletSignableTransaction.tx := by
  refine ⟨by rfl, ?_⟩
  rintro ⟨front, transaction, back, split, sent⟩
  have all : (submitTransactions devnet .native refusingNode 0 (.new 100)
      [budgetedPayment]).sent = [budgetedPayment.tx] := rfl
  have counted := congrArg List.length split
  rw [all] at sent
  have one := congrArg List.length sent
  simp only [List.length_append, List.length_cons, List.length_nil,
    List.length_map] at counted one
  omega

end Submission

end Kaswallet
