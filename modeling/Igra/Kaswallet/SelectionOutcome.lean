import Igra.Kaswallet.MergeValue
import Igra.Kaswallet.UtxoStore

/-!
# What the selection returns

The loop of `select_utxos` goes through all usable UTXOs or stops at the first
prefix of them that needs no more.  From this follow the UTXOs and the sums
that it returns, and when the funds are insufficient.
-/

open Kaspa Rust

namespace Kaswallet

namespace TransactionGenerator

section Errors

variable {upstream : Upstream} {generator : TransactionGenerator}

private theorem computeMass_ne_err (tx : Transaction)
    (minimumSignatures : UInt16)
    (error : WalletError) :
    computeMassForUnsignedConsensusTransaction upstream tx
      minimumSignatures ≠ Outcome.err error := by
  unfold computeMassForUnsignedConsensusTransaction
  intro failed
  split at failed
  · simp only [Outcome.bind_eq_err, checkedSum_ne_err, checkedAdd_ne_err,
      and_false, exists_false, or_false] at failed
    obtain ⟨input, -, scaled⟩ := Outcome.exists_of_collect_eq_err failed
    exact checkedMul_ne_err _ _ _ scaled
  · cases failed

theorem nonContextualMasses_ne_err (tx : Transaction)
    (minimumSignatures : UInt16) (error : WalletError) :
    nonContextualMasses upstream tx minimumSignatures ≠
      Outcome.err error := by
  simp [nonContextualMasses, estimateTransientMass, Outcome.bind_eq_err,
    computeMass_ne_err]

private theorem withEntries_ne_err (tx : Transaction) (entries : List UtxoEntry)
    (error : WalletError) :
    SignableTransaction.withEntries tx entries ≠ Outcome.err error := by
  unfold SignableTransaction.withEntries
  split <;> simp

/-- Only the derivation of a path can return an error. -/
theorem error_of_generateUnsignedTransaction {payments : List WalletPayment}
    {selectedUtxos : List WalletUtxo} {payload : List UInt8}
    {error : WalletError}
    (failed : generator.generateUnsignedTransaction upstream payments
      selectedUtxos payload = Outcome.err error) :
    ∃ reason, error = .crypto (.bip32Derivation reason) := by
  simp only [generateUnsignedTransaction, Outcome.bind_eq_err,
    withEntries_ne_err, nonContextualMasses_ne_err, Outcome.pure_ne_err,
    and_false, exists_false, or_false] at failed
  obtain ⟨utxo, -, derived⟩ := Outcome.exists_of_collect_eq_err failed
  unfold AddressManager.calculateAddressPath mapError at derived
  split at derived
  · cases derived
  · rename_i reason _
    exact ⟨reason, (Outcome.err_inj.mp derived).symm⟩

private theorem error_of_estimateFee {selectedUtxos : List WalletUtxo}
    {feeRate : Float} {maxFee estimatedRecipientValue : UInt64}
    {payload : List UInt8} {error : WalletError}
    (failed : generator.estimateFee upstream selectedUtxos feeRate maxFee
      estimatedRecipientValue payload = Outcome.err error) :
    ∃ reason, error = .crypto (.bip32Derivation reason) := by
  simp only [estimateFee, estimateMass, nonContextualFeeMass,
    Outcome.bind_eq_err, checkedSum_ne_err, nonContextualMasses_ne_err,
    Outcome.pure_ne_err, and_false, exists_false, or_false,
    false_or] at failed
  obtain ⟨total, -, generated⟩ := failed
  exact error_of_generateUnsignedTransaction generated

theorem error_of_firstFee {request : SelectionRequest}
    {utxos : List WalletUtxo} {error : WalletError}
    (failed : generator.firstFee upstream request utxos =
      Outcome.err error) :
    ∃ reason, error = .crypto (.bip32Derivation reason) := by
  cases utxos with
  | nil => cases failed
  | cons first rest => exact error_of_estimateFee failed

end Errors

section Loop

variable {upstream : Upstream} {generator : TransactionGenerator}
  {request : SelectionRequest} {manager : UtxoManager}
  {virtualDaaScore : UInt64}

instance decidableUsable (manager : UtxoManager) (virtualDaaScore : UInt64)
    (fromAddresses : List WalletAddress) :
    DecidablePred (Usable manager virtualDaaScore fromAddresses) :=
  fun utxo => inferInstanceAs (Decidable
    (manager.isUtxoUnspendable utxo virtualDaaScore = .ok false ∧
      isFromAddresses fromAddresses utxo = true))

/-- The spendable UTXOs that match the filter, in their order. -/
def usableUtxos (manager : UtxoManager) (virtualDaaScore : UInt64)
    (fromAddresses : List WalletAddress)
    (availableUtxos : List WalletUtxo) : List WalletUtxo :=
  availableUtxos.filter fun utxo =>
    decide (Usable manager virtualDaaScore fromAddresses utxo)

/-- The conditions on which the loop breaks: no change is left, or the change
is large enough and there are two inputs. -/
def Breaks (request : SelectionRequest) (feePerUtxo : UInt64)
    (picked : List WalletUtxo) : Prop :=
  totalAmount picked =
      request.amount.toNat + picked.length * feePerUtxo.toNat ∨
    request.amount.toNat + picked.length * feePerUtxo.toNat +
        minChangeTarget.toNat ≤ totalAmount picked ∧
      1 < picked.length

variable (upstream generator request) in
/-- The loop breaks once it has picked the UTXOs. -/
def Stops (picked : List WalletUtxo) : Prop :=
  request.isSendAll = false ∧
    ∃ feePerUtxo,
      generator.firstFee upstream request picked = .ok feePerUtxo ∧
        Breaks request feePerUtxo picked

theorem shouldContinue_eq_ok {feePerUtxo totalValue totalSpend : UInt64}
    {picked : List WalletUtxo} {continues : Bool}
    (total : totalValue.toNat = totalAmount picked)
    (spend : totalSpend.toNat =
      request.amount.toNat + picked.length * feePerUtxo.toNat)
    (asked : request.shouldContinue totalValue totalSpend picked.length =
      .ok continues) :
    continues = false ↔
      request.isSendAll = false ∧ Breaks request feePerUtxo picked := by
  unfold SelectionRequest.shouldContinue at asked
  unfold Breaks
  rw [← total, ← spend]
  split at asked
  · rename_i all
    cases asked
    simp [all]
  · rename_i notAll
    rw [Bool.not_eq_true] at notAll
    split at asked
    · rename_i same
      cases asked
      simp [notAll, same]
    · rename_i differs
      have apart : totalValue.toNat ≠ totalSpend.toNat := fun same =>
        differs (UInt64.toNat_inj.mp same)
      simp only [Outcome.bind_eq_ok, checkedAdd_eq_ok,
        Outcome.pure_eq_ok] at asked
      obtain ⟨target, sum, rfl⟩ := asked
      simp only [notAll, apart, sum, true_and, false_or, Bool.not_eq_false',
        Bool.and_eq_true, decide_eq_true_eq, UInt64.le_iff_toNat_le]

theorem continues_of_selectUtxo {selection next : Selection}
    {utxo : WalletUtxo} {continues : Bool}
    (accounts : selection.Accounts upstream generator request)
    (selected : generator.selectUtxo upstream request selection utxo =
      .ok (next, continues)) :
    continues = false ↔
      Stops upstream generator request next.selectedUtxos := by
  obtain ⟨grown, nextAccounts⟩ := selectUtxo_accounts accounts selected
  obtain ⟨feePerUtxo, first, charged, -⟩ := nextAccounts.fee
  simp only [selectUtxo, Outcome.bind_eq_ok, checkedAdd_eq_ok,
    Outcome.pure_eq_ok, Prod.mk.injEq] at selected
  obtain ⟨totalValue, -, fee, -, sum, -, totalSpend, spend, asking, asked,
    rfl, rfl⟩ := selected
  dsimp only at charged first ⊢
  rw [charged] at spend
  rw [shouldContinue_eq_ok nextAccounts.total spend.symm asked]
  constructor
  · rintro ⟨notAll, breaks⟩
    exact ⟨notAll, feePerUtxo, first, breaks⟩
  · rintro ⟨notAll, other, otherFirst, breaks⟩
    obtain rfl : feePerUtxo = other := by
      simpa [first] using otherFirst
    exact ⟨notAll, breaks⟩

/-- The loop has picked all usable UTXOs, and stopped at none of them, or it
has stopped at the last one that it picked. -/
theorem selectionLoop_ends {available : List WalletUtxo}
    {selection final : Selection}
    (accounts : selection.Accounts upstream generator request)
    (looped : generator.selectionLoop upstream request manager
      virtualDaaScore available selection = .ok final) :
    (final.selectedUtxos = selection.selectedUtxos ++
        usableUtxos manager virtualDaaScore request.fromAddresses available ∧
      ∀ front, front <+: usableUtxos manager virtualDaaScore
          request.fromAddresses available → front ≠ [] →
        ¬Stops upstream generator request
          (selection.selectedUtxos ++ front)) ∨
    ∃ front, front <+: usableUtxos manager virtualDaaScore
        request.fromAddresses available ∧ front ≠ [] ∧
      final.selectedUtxos = selection.selectedUtxos ++ front ∧
      Stops upstream generator request final.selectedUtxos := by
  induction available generalizing selection with
  | nil =>
      simp only [selectionLoop, Except.ok.injEq] at looped
      subst looped
      refine .inl ⟨by simp [usableUtxos], ?_⟩
      intro front isPrefix nonempty
      exact absurd (List.prefix_nil.mp isPrefix) nonempty
  | cons utxo rest ih =>
      simp only [selectionLoop, Outcome.bind_eq_ok, Prod.exists] at looped
      obtain ⟨next, continues, stepped, remaining⟩ := looped
      rcases selectionStep_cases stepped with ⟨rfl, rfl, unusable⟩ |
        ⟨usable, selected⟩
      · rw [usableUtxos, List.filter_cons_of_neg (by simpa using unusable)]
        exact ih accounts remaining
      · obtain ⟨grown, nextAccounts⟩ := selectUtxo_accounts accounts selected
        have stops := continues_of_selectUtxo accounts selected
        rw [usableUtxos, List.filter_cons_of_pos (by simpa using usable)]
        cases continues with
        | false =>
            simp only [Bool.false_eq_true, if_false,
              Outcome.pure_eq_ok] at remaining
            subst remaining
            exact .inr ⟨[utxo], ⟨_, rfl⟩, by simp, grown, stops.mp rfl⟩
        | true =>
            have goesOn : ¬Stops upstream generator request
                (selection.selectedUtxos ++ [utxo]) := by
              rw [← grown, ← stops]
              simp
            rcases ih nextAccounts remaining with ⟨all, never⟩ |
              ⟨front, isPrefix, nonempty, picked, stopped⟩
            · refine .inl ⟨by simp [all, grown, usableUtxos], ?_⟩
              intro front isPrefix nonempty
              cases front with
              | nil => exact absurd rfl nonempty
              | cons first front =>
                  obtain ⟨rfl, later⟩ := List.cons_prefix_cons.mp isPrefix
                  cases front with
                  | nil => exact goesOn
                  | cons second front =>
                      have stays := never _ later (List.cons_ne_nil _ _)
                      rwa [grown, List.append_assoc] at stays
            · refine .inr ⟨utxo :: front, ?_, by simp, ?_, stopped⟩
              · exact (List.prefix_cons_inj utxo).mpr isPrefix
              · rw [picked, grown, List.append_assoc]
                rfl

/-- The loop has stopped no later than at a prefix that lets it stop. -/
theorem selectionLoop_stops {available front : List WalletUtxo}
    {selection final : Selection}
    (accounts : selection.Accounts upstream generator request)
    (looped : generator.selectionLoop upstream request manager
      virtualDaaScore available selection = .ok final)
    (isPrefix : front <+: usableUtxos manager virtualDaaScore
      request.fromAddresses available)
    (nonempty : front ≠ [])
    (stops : Stops upstream generator request
      (selection.selectedUtxos ++ front)) :
    final.selectedUtxos <+: selection.selectedUtxos ++ front := by
  induction available generalizing selection front with
  | nil => exact absurd (List.prefix_nil.mp isPrefix) nonempty
  | cons utxo rest ih =>
      simp only [selectionLoop, Outcome.bind_eq_ok, Prod.exists] at looped
      obtain ⟨next, continues, stepped, remaining⟩ := looped
      rcases selectionStep_cases stepped with ⟨rfl, rfl, unusable⟩ |
        ⟨usable, selected⟩
      · rw [usableUtxos, List.filter_cons_of_neg (by simpa using unusable)]
          at isPrefix
        exact ih accounts remaining isPrefix nonempty stops
      · obtain ⟨grown, nextAccounts⟩ := selectUtxo_accounts accounts selected
        have halts := continues_of_selectUtxo accounts selected
        rw [usableUtxos, List.filter_cons_of_pos (by simpa using usable)]
          at isPrefix
        obtain ⟨first, front, rfl⟩ := List.exists_cons_of_ne_nil nonempty
        obtain ⟨rfl, later⟩ := List.cons_prefix_cons.mp isPrefix
        have split : selection.selectedUtxos ++ first :: front =
            next.selectedUtxos ++ front := by
          rw [grown, List.append_assoc]
          rfl
        rw [split] at stops ⊢
        cases continues with
        | false =>
            simp only [Bool.false_eq_true, if_false,
              Outcome.pure_eq_ok] at remaining
            rw [← remaining]
            exact List.prefix_append _ _
        | true =>
            have some : front ≠ [] := by
              rintro rfl
              rw [List.append_nil, ← halts] at stops
              cases stops
            exact ih nextAccounts remaining later some stops

private theorem isUtxoUnspendable_ne_err (utxo : WalletUtxo)
    (error : WalletError) :
    manager.isUtxoUnspendable utxo virtualDaaScore ≠ Outcome.err error := by
  unfold UtxoManager.isUtxoUnspendable UtxoManager.isUtxoUnspendableWith
  split
  · simp
  · split
    · simp
    · simp

private theorem shouldContinue_ne_err (totalValue totalSpend : UInt64)
    (count : Nat)
    (error : WalletError) :
    request.shouldContinue totalValue totalSpend count ≠
      Outcome.err error := by
  unfold SelectionRequest.shouldContinue
  split
  · simp
  · split
    · simp
    · simp

theorem selectionStep_err {selection : Selection} {utxo : WalletUtxo}
    {error : WalletError}
    (failed : generator.selectionStep upstream request manager
      virtualDaaScore selection utxo = Outcome.err error) :
    Usable manager virtualDaaScore request.fromAddresses utxo ∧
      selection.feePerUtxo = none ∧
      ∃ totalValue,
        selection.totalValue.toNat + utxo.amount.toNat = totalValue.toNat ∧
        generator.estimateFee upstream (selection.selectedUtxos ++ [utxo])
          request.feeRate request.maxFee
          (request.estimatedRecipientValue totalValue) request.payload =
            Outcome.err error := by
  unfold selectionStep at failed
  split at failed
  · cases failed
  · rename_i isFrom
    simp only [Bool.not_eq_true', Bool.not_eq_false] at isFrom
    simp only [Outcome.bind_eq_err, isUtxoUnspendable_ne_err,
      false_or] at failed
    obtain ⟨unspendable, asked, failed⟩ := failed
    cases unspendable with
    | true => cases failed
    | false =>
        simp only [Bool.false_eq_true, if_false, selectUtxo,
          Outcome.bind_eq_err, checkedAdd_ne_err, shouldContinue_ne_err,
          Outcome.pure_ne_err, and_false, exists_false, or_false,
          false_or, checkedAdd_eq_ok] at failed
        obtain ⟨totalValue, sum, estimated⟩ := failed
        unfold feeOfNextUtxo at estimated
        split at estimated
        · cases estimated
        · rename_i fresh
          exact ⟨⟨asked, isFrom⟩, fresh, totalValue, sum, estimated⟩

theorem feePerUtxo_of_selectUtxo {selection next : Selection}
    {utxo : WalletUtxo} {continues : Bool}
    (selected : generator.selectUtxo upstream request selection utxo =
      .ok (next, continues)) : next.feePerUtxo ≠ none := by
  simp only [selectUtxo, Outcome.bind_eq_ok, Outcome.pure_eq_ok,
    Prod.mk.injEq] at selected
  obtain ⟨-, -, fee, -, -, -, -, -, -, -, rfl, -⟩ := selected
  exact Option.some_ne_none fee

theorem selectionLoop_ne_err {available : List WalletUtxo}
    {selection : Selection} (estimated : selection.feePerUtxo ≠ none)
    (error : WalletError) :
    generator.selectionLoop upstream request manager virtualDaaScore
      available selection ≠ Outcome.err error := by
  induction available generalizing selection with
  | nil => simp [selectionLoop]
  | cons utxo rest ih =>
      intro failed
      simp only [selectionLoop, Outcome.bind_eq_err, Prod.exists] at failed
      rcases failed with failed | ⟨next, continues, stepped, failed⟩
      · exact estimated (selectionStep_err failed).2.1
      · cases continues with
        | false => cases failed
        | true =>
            rcases selectionStep_cases stepped with ⟨rfl, -, -⟩ |
              ⟨-, selected⟩
            · exact ih estimated failed
            · exact ih (feePerUtxo_of_selectUtxo selected) failed

theorem firstFee_of_selectionLoop_err {available : List WalletUtxo}
    {error : WalletError}
    (failed : generator.selectionLoop upstream request manager
      virtualDaaScore available .empty = Outcome.err error) :
    generator.firstFee upstream request (usableUtxos manager virtualDaaScore
      request.fromAddresses available) = Outcome.err error := by
  induction available with
  | nil => cases failed
  | cons utxo rest ih =>
      simp only [selectionLoop, Outcome.bind_eq_err, Prod.exists] at failed
      rcases failed with failed | ⟨next, continues, stepped, failed⟩
      · obtain ⟨usable, -, totalValue, sum, estimated⟩ :=
          selectionStep_err failed
        have same : utxo.amount = totalValue := by
          have zero : Selection.empty.totalValue.toNat = 0 := rfl
          rw [← UInt64.toNat_inj]
          omega
        rw [usableUtxos, List.filter_cons_of_pos (by simpa using usable),
          firstFee, same]
        exact estimated
      · cases continues with
        | false => cases failed
        | true =>
            rcases selectionStep_cases stepped with ⟨rfl, -, unusable⟩ |
              ⟨-, selected⟩
            · rw [usableUtxos,
                List.filter_cons_of_neg (by simpa using unusable)]
              exact ih failed
            · exact absurd failed (selectionLoop_ne_err
                (feePerUtxo_of_selectUtxo selected) error)

end Loop

section Funds

variable {upstream : Upstream} {generator : TransactionGenerator}
  {request : SelectionRequest} {manager : UtxoManager}
  {replies : NodeReplies} {availableUtxos : List WalletUtxo}

variable (upstream generator request) in
/-- All usable UTXOs together are worth less than the amount and their fees,
and no prefix of them lets the loop break. -/
def Short (usable : List WalletUtxo) : Prop :=
  ∃ feePerUtxo,
    generator.firstFee upstream request usable = .ok feePerUtxo ∧
      totalAmount usable <
        request.amount.toNat + usable.length * feePerUtxo.toNat ∧
      ∀ front, front <+: usable → front ≠ [] →
        ¬Breaks request feePerUtxo front

theorem firstFee_of_initial {front usable : List WalletUtxo}
    (isPrefix : front <+: usable) (nonempty : front ≠ []) :
    generator.firstFee upstream request front =
      generator.firstFee upstream request usable := by
  obtain ⟨back, rfl⟩ := isPrefix
  cases front with
  | nil => exact absurd rfl nonempty
  | cons first front => rfl

private theorem le_totalAmount_of_breaks {feePerUtxo : UInt64}
    {picked : List WalletUtxo} (breaks : Breaks request feePerUtxo picked) :
    request.amount.toNat + picked.length * feePerUtxo.toNat ≤
      totalAmount picked := by
  rcases breaks with same | ⟨target, -⟩ <;> omega

theorem short_iff {virtualDaaScore : UInt64} {final : Selection}
    (exactAmount : request.isSendAll = false)
    (looped : generator.selectionLoop upstream request manager
      virtualDaaScore availableUtxos .empty = .ok final) :
    final.totalValue.toNat < request.amount.toNat + final.fee.toNat ↔
      Short upstream generator request (usableUtxos manager virtualDaaScore
        request.fromAddresses availableUtxos) := by
  obtain ⟨_, _, _, _, accounts⟩ :=
    selectionLoop_picks Selection.accounts_empty looped
  obtain ⟨feePerUtxo, first, charged, -⟩ := accounts.fee
  rw [accounts.total, charged]
  rcases selectionLoop_ends Selection.accounts_empty looped with
    ⟨all, never⟩ | ⟨front, isPrefix, nonempty, picked, stopped⟩
  · simp only [Selection.empty, List.nil_append] at all never
    rw [all] at first ⊢
    constructor
    · intro less
      refine ⟨feePerUtxo, first, less, ?_⟩
      intro front isPrefix nonempty breaks
      refine never front isPrefix nonempty ⟨exactAmount, feePerUtxo, ?_,
        breaks⟩
      rw [firstFee_of_initial isPrefix nonempty, first]
    · rintro ⟨other, otherFirst, less, -⟩
      obtain rfl : feePerUtxo = other := by simpa [first] using otherFirst
      exact less
  · simp only [Selection.empty, List.nil_append] at picked
    rw [picked] at first stopped ⊢
    obtain ⟨-, other, otherFirst, breaks⟩ := stopped
    obtain rfl : feePerUtxo = other := by simpa [first] using otherFirst
    have enough := le_totalAmount_of_breaks breaks
    constructor
    · intro less
      omega
    · rintro ⟨known, knownFirst, -, never⟩
      obtain rfl : feePerUtxo = known := by
        rw [firstFee_of_initial isPrefix nonempty] at first
        simpa [first] using knownFirst
      exact absurd breaks (never front isPrefix nonempty)

theorem insufficientFunds_iff (exactAmount : request.isSendAll = false)
    (noOverflow : (generator.selectUtxos upstream replies manager
      availableUtxos request).Settled) :
    (∃ required available,
      generator.selectUtxos upstream replies manager availableUtxos request =
        Outcome.err (.transaction (.insufficientFunds required available))) ↔
      ∃ virtualDaaScore,
        replies.virtualDaaScore 0 = .ok virtualDaaScore ∧
          Short upstream generator request (usableUtxos manager
            virtualDaaScore request.fromAddresses availableUtxos) := by
  unfold selectUtxos at noOverflow ⊢
  cases asked : replies.virtualDaaScore 0 with
  | error reason =>
      constructor
      · rintro ⟨required, available, failed⟩
        cases failed
      · rintro ⟨virtualDaaScore, answered, -⟩
        cases answered
  | ok virtualDaaScore =>
      simp only [asked, transportError, mapError, Outcome.ok_bind]
        at noOverflow ⊢
      simp only [Except.ok.injEq, exists_eq_left']
      rcases noOverflow.of_bind with ⟨final, looped⟩ | ⟨error, failed⟩
      · rw [← short_iff exactAmount looped]
        simp only [looped, Outcome.ok_bind, SelectionRequest.totals,
          exactAmount, Bool.false_eq_true, if_false, bind_assoc,
          pure_bind] at noOverflow ⊢
        rcases noOverflow.of_bind with ⟨totalSpend, spend⟩ | ⟨error, failed⟩
        · simp only [spend, Outcome.ok_bind, Bool.false_and,
            Bool.false_eq_true, if_false]
          rw [checkedAdd_eq_ok] at spend
          rw [spend, ← UInt64.lt_iff_toNat_lt]
          constructor
          · rintro ⟨required, available, failed⟩
            split at failed
            · assumption
            · cases failed
          · intro less
            rw [if_pos less]
            exact ⟨_, _, rfl⟩
        · exact absurd failed (checkedAdd_ne_err _ _ _)
      · have first := firstFee_of_selectionLoop_err failed
        obtain ⟨reason, rfl⟩ := error_of_firstFee first
        simp only [failed]
        constructor
        · rintro ⟨required, available, failed⟩
          cases failed
        · rintro ⟨feePerUtxo, estimated, -⟩
          rw [first] at estimated
          cases estimated

end Funds

section Result

variable {upstream : Upstream} {generator : TransactionGenerator}
  {request : SelectionRequest} {manager : UtxoManager}
  {replies : NodeReplies} {order : IterationOrder WalletOutpoint WalletUtxo}
  {preselectedUtxos : HashMap WalletOutpoint WalletUtxo}

private theorem mem_availableUtxos_preselected {utxo : WalletUtxo}
    (nonempty : preselectedUtxos.entries ≠ []) :
    utxo ∈ availableUtxos order manager preselectedUtxos ↔
      ∃ outpoint, preselectedUtxos.lookup outpoint = some utxo := by
  have order_perm := (order.perm preselectedUtxos).map Prod.snd
  rw [availableUtxos, List.isEmpty_eq_false_iff.mpr nonempty,
    if_neg Bool.false_ne_true, order_perm.mem_iff,
    ← HashMap.mem_values_iff, HashMap.values, List.map_map]
  rfl

theorem nodup_availableUtxos (consistent : manager.Consistent)
    (keyed : HashMap.Keyed WalletUtxo.outpoint preselectedUtxos) :
    ((availableUtxos order manager preselectedUtxos).map
      WalletUtxo.outpoint).Nodup := by
  unfold availableUtxos
  split
  · exact consistent.distinct
  · have order_perm := (order.perm preselectedUtxos).map Prod.snd
    have values : ((preselectedUtxos.entries.map
        fun entry => (entry.1, entry.2)).map Prod.snd) =
          HashMap.values preselectedUtxos := by
      rw [HashMap.values, List.map_map]
      rfl
    rw [values] at order_perm
    exact (order_perm.map WalletUtxo.outpoint).nodup_iff.mpr
      keyed.nodup_values

variable (upstream generator request manager replies order
  preselectedUtxos) in
/-- What `select_utxos` promises of the UTXOs, the amount and the change that
it returns. -/
structure Postconditions (selectedUtxos : List WalletUtxo)
    (amountSentToRecipient changeSompi : UInt64) : Prop where
  distinct : (selectedUtxos.map WalletUtxo.outpoint).Nodup
  preselected : preselectedUtxos.entries ≠ [] →
    ∀ utxo ∈ selectedUtxos,
      ∃ outpoint, preselectedUtxos.lookup outpoint = some utxo
  owned : preselectedUtxos.entries = [] →
    ∀ utxo ∈ selectedUtxos, utxo ∈ manager.utxosSortedByAmount
  usable : ∃ virtualDaaScore,
    replies.virtualDaaScore 0 = .ok virtualDaaScore ∧
      (∀ utxo ∈ selectedUtxos,
        Usable manager virtualDaaScore request.fromAddresses utxo) ∧
      (request.isSendAll = true →
        ∀ utxo ∈ availableUtxos order manager preselectedUtxos,
          Usable manager virtualDaaScore request.fromAddresses utxo →
            utxo ∈ selectedUtxos)
  sums : ∃ feePerUtxo,
    generator.firstFee upstream request selectedUtxos = .ok feePerUtxo ∧
      totalAmount selectedUtxos =
        amountSentToRecipient.toNat +
          selectedUtxos.length * feePerUtxo.toNat + changeSompi.toNat
  exactAmount : request.isSendAll = false →
    amountSentToRecipient = request.amount
  sendAll : request.isSendAll = true → changeSompi = 0

theorem postconditions_of_selectUtxos (consistent : manager.Consistent)
    (keyed : HashMap.Keyed WalletUtxo.outpoint preselectedUtxos)
    {selectedUtxos : List WalletUtxo}
    {amountSentToRecipient changeSompi : UInt64}
    (returned : generator.selectUtxos upstream replies manager
      (availableUtxos order manager preselectedUtxos) request =
        .ok (selectedUtxos, amountSentToRecipient, changeSompi)) :
    Postconditions upstream generator request manager replies order
      preselectedUtxos selectedUtxos amountSentToRecipient changeSompi := by
  have selected := selected_of_selectUtxos returned
  have keepsNothing (all : request.isSendAll = true) :=
    changeSompi_of_isSendAll all returned
  obtain ⟨feePerUtxo, first, balance⟩ := selected.balance
  simp only [selectUtxos, Outcome.bind_eq_ok, Prod.exists, Outcome.err,
    Outcome.guarded_eq_ok, Outcome.pure_eq_ok, Prod.mk.injEq, transportError,
    mapError_eq_ok] at returned
  obtain ⟨virtualDaaScore, asked, final, looped, totalSpend, totalReceived,
    totals, -, -, rfl, rfl, rfl⟩ := returned
  refine
    { distinct := (selected.sublist.map WalletUtxo.outpoint).nodup
        (nodup_availableUtxos consistent keyed)
      preselected := fun nonempty utxo member =>
        (mem_availableUtxos_preselected nonempty).mp
          (selected.sublist.subset member)
      owned := ?_
      usable := ⟨virtualDaaScore, asked, ?_, ?_⟩
      sums := ⟨feePerUtxo, first, by omega⟩
      exactAmount := selected.recipient
      sendAll := keepsNothing }
  · intro empty utxo member
    have available := selected.sublist.subset member
    rwa [availableUtxos, empty] at available
  · obtain ⟨score, answered, usable⟩ := selected.usable
    obtain rfl : virtualDaaScore = score := by simpa [asked] using answered
    exact usable
  · intro all utxo member usable
    rcases selectionLoop_ends Selection.accounts_empty looped with
      ⟨picked, -⟩ | ⟨-, -, -, -, notAll, -⟩
    · rw [picked]
      exact List.mem_append_right _
        (List.mem_filter.mpr ⟨member, decide_eq_true usable⟩)
    · rw [all] at notAll
      cases notAll

/-- What `select_utxos` returns, and when it reports insufficient funds. -/
theorem selectUtxos_correct (consistent : manager.Consistent)
    (keyed : HashMap.Keyed WalletUtxo.outpoint preselectedUtxos)
    (noOverflow : (generator.selectUtxos upstream replies manager
      (availableUtxos order manager preselectedUtxos) request).Settled) :
    (∀ selectedUtxos amountSentToRecipient changeSompi,
      generator.selectUtxos upstream replies manager
          (availableUtxos order manager preselectedUtxos) request =
        .ok (selectedUtxos, amountSentToRecipient, changeSompi) →
      Postconditions upstream generator request manager replies order
        preselectedUtxos selectedUtxos amountSentToRecipient changeSompi) ∧
    (request.isSendAll = false →
      ((∃ required available,
        generator.selectUtxos upstream replies manager
            (availableUtxos order manager preselectedUtxos) request =
          Outcome.err (.transaction
            (.insufficientFunds required available))) ↔
        ∃ virtualDaaScore,
          replies.virtualDaaScore 0 = .ok virtualDaaScore ∧
            Short upstream generator request (usableUtxos manager
              virtualDaaScore request.fromAddresses
              (availableUtxos order manager preselectedUtxos)))) :=
  ⟨fun _ _ _ returned =>
      postconditions_of_selectUtxos consistent keyed returned,
    fun exactAmount => insufficientFunds_iff exactAmount noOverflow⟩

/-- A payment of 47000 sompi. -/
def smallPayment : SelectionRequest where
  amount := 47000
  isSendAll := false
  feeRate := 1.0
  maxFee := sompiPerKaspa
  fromAddresses := []
  payload := []

private theorem smallPayment_run :
    ((sampleGenerator 1).selectUtxos devnet (sampleReplies 1.0)
      overfundedStore (availableUtxos (.stored _ _) overfundedStore ∅)
      smallPayment).Returns fun result =>
        result.1.length = 2 ∧ result.2 = (47000, 58884) := by
  decide +kernel

theorem smallPayment_correct :
    ∃ selectedUtxos amountSentToRecipient changeSompi,
      (sampleGenerator 1).selectUtxos devnet (sampleReplies 1.0)
          overfundedStore (availableUtxos (.stored _ _) overfundedStore ∅)
          smallPayment =
        .ok (selectedUtxos, amountSentToRecipient, changeSompi) ∧
      Postconditions devnet (sampleGenerator 1) smallPayment overfundedStore
        (sampleReplies 1.0) (.stored _ _) ∅ selectedUtxos
        amountSentToRecipient changeSompi := by
  obtain ⟨⟨selectedUtxos, amount, change⟩, returned, -⟩ := smallPayment_run
  have correct := selectUtxos_correct
    (UtxoManager.consistent_rebuild (.new 100) (by decide))
    (HashMap.keyed_empty WalletUtxo.outpoint) (.inl ⟨_, returned⟩)
  exact ⟨_, _, _, returned, correct.1 _ _ _ returned⟩

end Result

end TransactionGenerator

end Kaswallet
