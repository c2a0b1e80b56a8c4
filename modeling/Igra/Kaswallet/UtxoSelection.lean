import Igra.Kaswallet.ProtoConvert
import Igra.Kaswallet.TransactionGenerator
import Igra.Kaswallet.UtxoManager

/-!
# Choosing UTXOs

The fee limits of a request and `select_utxos`, which walks the available
UTXOs in ascending order and charges every chosen one the fee estimated for
the first.
-/

open Kaspa Rust

namespace Kaswallet

/-- The `oneof` of `proto::FeePolicy`. -/
inductive FeePolicy where
  | maxFeeRate (rate : Float)
  | exactFeeRate (rate : Float)
  | maxFee (sompi : UInt64)

structure TransactionDescription where
  toAddress : String
  amount : UInt64
  isSendAll : Bool
  payload : List UInt8
  fromAddresses : List String
  utxos : List Proto.Outpoint
  useExistingChangeAddress : Bool
  /-- the message, then its `oneof` -/
  feePolicy : Option (Option FeePolicy)

/-- What the node answers while one request is served.  Query 0 for the DAG
info is made by `select_utxos`, query `round + 1` by the merge transaction of
a compounding round. -/
structure NodeReplies where
  virtualDaaScore : Nat → Except String UInt64
  priorityFeeRate : Except String Float

/-- `map_err` of a failed request to the node. -/
def transportError {α : Type} : Except String α → WalletResult α :=
  mapError fun reason => .rpc (.transport reason)

/-- `MIN_FEE_RATE`. -/
def minFeeRate : Float := 1.0

/-- `MIN_CHANGE_TARGET`. -/
def minChangeTarget : UInt64 := sompiPerKaspa * 10

namespace TransactionGenerator

/-- `default_fee_rate`. -/
def defaultFeeRate (replies : NodeReplies) : WalletResult (Float × UInt64) := do
  let feeRate ← transportError replies.priorityFeeRate
  pure (feeRate, sompiPerKaspa)

/-- `calculate_fee_limits`: the fee rate and the bound on a fee. -/
def calculateFeeLimits (replies : NodeReplies) :
    Option (Option FeePolicy) → WalletResult (Float × UInt64)
  | some (some (.maxFeeRate requested)) =>
      if requested < minFeeRate then
        Outcome.err (.transaction (.feeTooLow requested.toUInt64
          minFeeRate.toUInt64))
      else do
        let feeRate ← transportError replies.priorityFeeRate
        pure (floatMin feeRate requested, 0xffffffffffffffff)
  | some (some (.exactFeeRate requested)) =>
      if requested < minFeeRate then
        Outcome.err (.transaction (.feeTooLow requested.toUInt64
          minFeeRate.toUInt64))
      else .ok (requested, 0xffffffffffffffff)
  | some (some (.maxFee requested)) => do
      let feeRate ← transportError replies.priorityFeeRate
      pure (feeRate, requested)
  | some none => defaultFeeRate replies
  | none => defaultFeeRate replies

/-- What a call of `select_utxos` is asked for. -/
structure SelectionRequest where
  amount : UInt64
  isSendAll : Bool
  feeRate : Float
  maxFee : UInt64
  fromAddresses : List WalletAddress
  payload : List UInt8

/-- The variables that the loop of `select_utxos` updates. -/
structure Selection where
  totalValue : UInt64
  selectedUtxos : List WalletUtxo
  fee : UInt64
  feePerUtxo : Option UInt64

def Selection.empty : Selection :=
  ⟨0, [], 0, none⟩

/-- `from_addresses` is empty or contains the address of the UTXO. -/
def isFromAddresses (fromAddresses : List WalletAddress)
    (utxo : WalletUtxo) : Bool :=
  fromAddresses.isEmpty || decide (utxo.address ∈ fromAddresses)

section Upstream

variable (upstream : Upstream) (generator : TransactionGenerator)

/-- The value the fee estimate assumes to be sent. -/
def SelectionRequest.estimatedRecipientValue (request : SelectionRequest)
    (totalValue : UInt64) : UInt64 :=
  if request.isSendAll then totalValue else request.amount

/-- The fee per UTXO is estimated once, for the first UTXO. -/
def feeOfNextUtxo (request : SelectionRequest) (selection : Selection)
    (totalValue : UInt64) (selectedUtxos : List WalletUtxo) :
    WalletResult UInt64 :=
  match selection.feePerUtxo with
  | some feePerUtxo => .ok feePerUtxo
  | none =>
      generator.estimateFee upstream selectedUtxos request.feeRate
        request.maxFee (request.estimatedRecipientValue totalValue)
        request.payload

/-- Whether the loop looks for more UTXOs: change is either avoided or large
enough. -/
def SelectionRequest.shouldContinue (request : SelectionRequest)
    (totalValue totalSpend : UInt64) (count : Nat) : WalletResult Bool :=
  if request.isSendAll then .ok true
  else if totalValue = totalSpend then .ok false
  else do
    let target ← checkedAdd totalSpend minChangeTarget
    pure (!(decide (target ≤ totalValue) && decide (1 < count)))

/-- The part of an iteration that is reached for a usable UTXO. -/
def selectUtxo (request : SelectionRequest) (selection : Selection)
    (utxo : WalletUtxo) : WalletResult (Selection × Bool) := do
  let selectedUtxos := selection.selectedUtxos ++ [utxo]
  let totalValue ← checkedAdd selection.totalValue utxo.amount
  let feePerUtxo ← generator.feeOfNextUtxo upstream request selection
    totalValue selectedUtxos
  let fee ← checkedAdd selection.fee feePerUtxo
  let totalSpend ← checkedAdd request.amount fee
  let continues ←
    request.shouldContinue totalValue totalSpend selectedUtxos.length
  pure (⟨totalValue, selectedUtxos, fee, some feePerUtxo⟩, continues)

/-- One `iteration` of `select_utxos`. -/
def selectionStep (request : SelectionRequest) (manager : UtxoManager)
    (virtualDaaScore : UInt64) (selection : Selection) (utxo : WalletUtxo) :
    WalletResult (Selection × Bool) :=
  if !isFromAddresses request.fromAddresses utxo then .ok (selection, true)
  else do
    let unspendable ← manager.isUtxoUnspendable utxo virtualDaaScore
    if unspendable then pure (selection, true)
    else generator.selectUtxo upstream request selection utxo

/-- The loop over `available_utxos`. -/
def selectionLoop (request : SelectionRequest) (manager : UtxoManager)
    (virtualDaaScore : UInt64) :
    List WalletUtxo → Selection → WalletResult Selection
  | [], selection => .ok selection
  | utxo :: rest, selection => do
      let (next, continues) ← generator.selectionStep upstream request manager
        virtualDaaScore selection utxo
      if continues then
        selectionLoop request manager virtualDaaScore rest next
      else pure next

/-- The totals after the loop: what is spent and what the recipient gets. -/
def SelectionRequest.totals (request : SelectionRequest)
    (selection : Selection) : WalletResult (UInt64 × UInt64) :=
  if request.isSendAll then do
    let totalReceived ← checkedSub selection.totalValue selection.fee
    pure (selection.totalValue, totalReceived)
  else do
    let totalSpend ← checkedAdd request.amount selection.fee
    pure (totalSpend, request.amount)

/-- `select_utxos`: the UTXOs, the recipient's amount and the change. -/
def selectUtxos (replies : NodeReplies) (manager : UtxoManager)
    (availableUtxos : List WalletUtxo) (request : SelectionRequest) :
    WalletResult (List WalletUtxo × UInt64 × UInt64) := do
  let virtualDaaScore ← transportError (replies.virtualDaaScore 0)
  let selection ← generator.selectionLoop upstream request manager
    virtualDaaScore availableUtxos .empty
  let (totalSpend, totalReceived) ← request.totals selection
  if selection.totalValue < totalSpend then
    Outcome.err (.transaction
      (.insufficientFunds totalSpend selection.totalValue))
  else if request.isSendAll && selection.totalValue == 0 then
    Outcome.err (.transaction (.insufficientFunds 0 0))
  else
    pure (selection.selectedUtxos, totalReceived,
      selection.totalValue - totalSpend)

/-- The fee estimated for the first of the selected UTXOs. -/
def firstFee (request : SelectionRequest) :
    List WalletUtxo → WalletResult UInt64
  | [] => .ok 0
  | first :: _ =>
      generator.estimateFee upstream [first] request.feeRate request.maxFee
        (request.estimatedRecipientValue first.amount) request.payload

end Upstream

section SelectionInvariant

variable {upstream : Upstream} {generator : TransactionGenerator}
  {request : SelectionRequest} {manager : UtxoManager}
  {virtualDaaScore : UInt64}

/-- A UTXO that the selection may pick. -/
def Usable (manager : UtxoManager) (virtualDaaScore : UInt64)
    (fromAddresses : List WalletAddress) (utxo : WalletUtxo) : Prop :=
  manager.isUtxoUnspendable utxo virtualDaaScore = .ok false ∧
    isFromAddresses fromAddresses utxo = true

/-- The running totals of the loop: every picked UTXO is charged the fee of
the first. -/
structure Selection.Accounts (upstream : Upstream)
    (generator : TransactionGenerator) (request : SelectionRequest)
    (selection : Selection) : Prop where
  total : selection.totalValue.toNat = totalAmount selection.selectedUtxos
  fee : ∃ feePerUtxo,
    generator.firstFee upstream request selection.selectedUtxos =
        .ok feePerUtxo ∧
      selection.fee.toNat =
        selection.selectedUtxos.length * feePerUtxo.toNat ∧
      selection.feePerUtxo =
        if selection.selectedUtxos.isEmpty then none else some feePerUtxo

theorem Selection.accounts_empty :
    Selection.empty.Accounts upstream generator request where
  total := rfl
  fee := ⟨0, rfl, rfl, rfl⟩

theorem selectUtxo_accounts {selection next : Selection}
    {utxo : WalletUtxo} {continues : Bool}
    (accounts : selection.Accounts upstream generator request)
    (selected : generator.selectUtxo upstream request selection utxo =
      .ok (next, continues)) :
    next.selectedUtxos = selection.selectedUtxos ++ [utxo] ∧
      next.Accounts upstream generator request := by
  simp only [selectUtxo, Outcome.bind_eq_ok, checkedAdd_eq_ok,
    Outcome.pure_eq_ok, Prod.mk.injEq] at selected
  obtain ⟨totalValue, total, feePerUtxo, estimated, fee, charged, _, _, _, _,
    rfl, -⟩ := selected
  obtain ⟨known, first, knownFee, perUtxo⟩ := accounts.fee
  refine ⟨rfl, ⟨by simp [← total, accounts.total], feePerUtxo, ?_, ?_, by
    simp⟩⟩
  · cases empty : selection.selectedUtxos with
    | nil =>
        have nothing := accounts.total
        rw [empty, totalAmount_nil] at nothing
        obtain rfl : totalValue = utxo.amount := by
          rw [← UInt64.toNat_inj]
          omega
        simpa [feeOfNextUtxo, perUtxo, empty, firstFee] using estimated
    | cons head tail =>
        have same : known = feePerUtxo := by
          simpa [feeOfNextUtxo, perUtxo, empty] using estimated
        simpa [empty, firstFee, same] using first
  · cases empty : selection.selectedUtxos with
    | nil =>
        rw [empty] at knownFee
        simp only [List.length_nil, Nat.zero_mul] at knownFee
        simp only [List.nil_append, List.length_singleton, Nat.one_mul]
        omega
    | cons head tail =>
        obtain rfl : known = feePerUtxo := by
          simpa [feeOfNextUtxo, perUtxo, empty] using estimated
        rw [empty] at knownFee
        simp only [List.length_append, List.length_singleton, Nat.add_mul,
          Nat.one_mul]
        omega

/-- An iteration picks the UTXO, if it is usable, or changes nothing. -/
theorem selectionStep_cases {selection next : Selection}
    {utxo : WalletUtxo} {continues : Bool}
    (stepped : generator.selectionStep upstream request manager
      virtualDaaScore selection utxo = .ok (next, continues)) :
    (next = selection ∧ continues = true ∧
        ¬Usable manager virtualDaaScore request.fromAddresses utxo) ∨
      Usable manager virtualDaaScore request.fromAddresses utxo ∧
        generator.selectUtxo upstream request selection utxo =
          .ok (next, continues) := by
  by_cases isFrom : isFromAddresses request.fromAddresses utxo = true
  · simp only [selectionStep, isFrom, Bool.not_true, Bool.false_eq_true,
      if_false, Outcome.bind_eq_ok] at stepped
    obtain ⟨unspendable, asked, remaining⟩ := stepped
    cases unspendable with
    | true =>
        simp only [if_true, Outcome.pure_eq_ok, Prod.mk.injEq] at remaining
        refine .inl ⟨remaining.1.symm, remaining.2.symm, ?_⟩
        intro usable
        have same := asked.symm.trans usable.1
        cases same
    | false => exact .inr ⟨⟨asked, isFrom⟩, remaining⟩
  · simp only [selectionStep, isFrom, Bool.not_false, if_true,
      Except.ok.injEq, Prod.mk.injEq] at stepped
    exact .inl ⟨stepped.1.symm, stepped.2.symm, fun usable => isFrom usable.2⟩

/-- The loop picks usable UTXOs in the order in which they are available. -/
theorem selectionLoop_picks {available : List WalletUtxo}
    {selection final : Selection}
    (accounts : selection.Accounts upstream generator request)
    (looped : generator.selectionLoop upstream request manager
      virtualDaaScore available selection = .ok final) :
    ∃ picked, final.selectedUtxos = selection.selectedUtxos ++ picked ∧
      picked.Sublist available ∧
      (∀ utxo ∈ picked,
        Usable manager virtualDaaScore request.fromAddresses utxo) ∧
      final.Accounts upstream generator request := by
  induction available generalizing selection with
  | nil =>
      simp only [selectionLoop, Except.ok.injEq] at looped
      subst looped
      exact ⟨[], by simp, .slnil, by simp, accounts⟩
  | cons utxo rest ih =>
      simp only [selectionLoop, Outcome.bind_eq_ok, Prod.exists] at looped
      obtain ⟨next, continues, stepped, remaining⟩ := looped
      rcases selectionStep_cases stepped with ⟨rfl, rfl, -⟩ |
        ⟨usable, selected⟩
      · obtain ⟨picked, final_eq, sublist, usable, accounts⟩ :=
          ih accounts remaining
        exact ⟨picked, final_eq, sublist.cons _, usable, accounts⟩
      · obtain ⟨grown, nextAccounts⟩ :=
          selectUtxo_accounts accounts selected
        cases continues with
        | true =>
            obtain ⟨picked, final_eq, sublist, laterUsable, accounts⟩ :=
              ih nextAccounts remaining
            refine ⟨utxo :: picked, by simp [final_eq, grown],
              sublist.cons_cons _, ?_, accounts⟩
            intro other member
            rcases List.mem_cons.mp member with rfl | later
            · exact usable
            · exact laterUsable other later
        | false =>
            simp only [Bool.false_eq_true, if_false,
              Outcome.pure_eq_ok] at remaining
            subst remaining
            exact ⟨[utxo], grown, List.singleton_sublist.mpr (by simp),
              by simpa using usable, nextAccounts⟩

/-- The outcome of `select_utxos` in the arithmetic of the natural
numbers. -/
structure Selected (upstream : Upstream) (generator : TransactionGenerator)
    (replies : NodeReplies) (manager : UtxoManager)
    (availableUtxos : List WalletUtxo) (request : SelectionRequest)
    (selectedUtxos : List WalletUtxo)
    (amountSentToRecipient changeSompi : UInt64) : Prop where
  sublist : selectedUtxos.Sublist availableUtxos
  usable : ∃ virtualDaaScore,
    replies.virtualDaaScore 0 = .ok virtualDaaScore ∧
      ∀ utxo ∈ selectedUtxos,
        Usable manager virtualDaaScore request.fromAddresses utxo
  recipient : request.isSendAll = false →
    amountSentToRecipient = request.amount
  balance : ∃ feePerUtxo,
    generator.firstFee upstream request selectedUtxos = .ok feePerUtxo ∧
      totalAmount selectedUtxos =
        amountSentToRecipient.toNat + changeSompi.toNat +
          selectedUtxos.length * feePerUtxo.toNat

theorem selected_of_selectUtxos {replies : NodeReplies}
    {availableUtxos selectedUtxos : List WalletUtxo}
    {amountSentToRecipient changeSompi : UInt64}
    (selected : generator.selectUtxos upstream replies manager availableUtxos
      request = .ok (selectedUtxos, amountSentToRecipient, changeSompi)) :
    Selected upstream generator replies manager availableUtxos request
      selectedUtxos amountSentToRecipient changeSompi := by
  simp only [selectUtxos, Outcome.bind_eq_ok, Prod.exists, Outcome.err,
    Outcome.guarded_eq_ok, Outcome.pure_eq_ok, Prod.mk.injEq, transportError,
    mapError_eq_ok] at selected
  obtain ⟨virtualDaaScore, asked, final, looped, totalSpend, totalReceived,
    totals, enough, -, rfl, rfl, rfl⟩ := selected
  obtain ⟨picked, final_eq, sublist, usable, accounts⟩ :=
    selectionLoop_picks Selection.accounts_empty looped
  obtain rfl : final.selectedUtxos = picked := by
    simpa [Selection.empty] using final_eq
  obtain ⟨feePerUtxo, first, charged, -⟩ := accounts.fee
  rw [not_lt, UInt64.le_iff_toNat_le] at enough
  have change :=
    UInt64.toNat_sub_of_le _ _ (UInt64.le_iff_toNat_le.mpr enough)
  refine ⟨sublist, ⟨virtualDaaScore, asked, usable⟩, ?_, feePerUtxo, first,
    ?_⟩
  · intro notAll
    simp only [SelectionRequest.totals, notAll, Bool.false_eq_true, if_false,
      Outcome.bind_eq_ok, Outcome.pure_eq_ok, Prod.mk.injEq] at totals
    obtain ⟨_, _, -, received⟩ := totals
    exact received.symm
  · rw [← accounts.total, ← charged, change]
    cases all : request.isSendAll with
    | true =>
        simp only [SelectionRequest.totals, all, if_true, Outcome.bind_eq_ok,
          checkedSub_eq_ok, Outcome.pure_eq_ok, Prod.mk.injEq] at totals
        obtain ⟨received, split, rfl, rfl⟩ := totals
        omega
    | false =>
        simp only [SelectionRequest.totals, all, Bool.false_eq_true, if_false,
          Outcome.bind_eq_ok, checkedAdd_eq_ok, Outcome.pure_eq_ok,
          Prod.mk.injEq] at totals
        obtain ⟨spend, split, rfl, rfl⟩ := totals
        omega

theorem changeSompi_of_isSendAll {replies : NodeReplies}
    {availableUtxos selectedUtxos : List WalletUtxo}
    {amountSentToRecipient changeSompi : UInt64}
    (all : request.isSendAll = true)
    (selected : generator.selectUtxos upstream replies manager availableUtxos
      request = .ok (selectedUtxos, amountSentToRecipient, changeSompi)) :
    changeSompi = 0 := by
  simp only [selectUtxos, Outcome.bind_eq_ok, Prod.exists, Outcome.err,
    Outcome.guarded_eq_ok, Outcome.pure_eq_ok, Prod.mk.injEq,
    SelectionRequest.totals, all, if_true] at selected
  obtain ⟨_, _, final, _, _, _, ⟨_, _, rfl, _⟩, _, _, _, _, rfl⟩ := selected
  exact UInt64.sub_self _

end SelectionInvariant

/-- A node with one DAA score and one fee rate. -/
def sampleReplies (feeRate : Float) : NodeReplies where
  virtualDaaScore _ := .ok 1000
  priorityFeeRate := .ok feeRate

end TransactionGenerator

end Kaswallet
