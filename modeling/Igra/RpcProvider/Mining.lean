import Igra.RpcProvider.Lane
import Mathlib.Data.List.Basic

/-!
# Mining

The miner writes nonces into the last bytes of the payload until the id of the
transaction starts with the wanted prefix.  When all nonces are used up it
lowers an output value by one and starts over, a few times.
-/

open Kaspa Rust

namespace RpcProvider

structure MiningConfig where
  txIdPrefix : List UInt8
  timeoutSeconds : UInt64

structure MiningStats where
  noncesTried : UInt32
  finalTransactionId : TransactionId
deriving DecidableEq

abbrev MiningResult := AppResult (SignableTransaction × MiningStats)

/-- `nonce.to_be_bytes()`. -/
def nonceBytes (nonce : UInt32) : List UInt8 :=
  [(nonce >>> 24).toUInt8, (nonce >>> 16).toUInt8, (nonce >>> 8).toUInt8,
    nonce.toUInt8]

/-- `u32::MAX`. -/
def maxNonce : UInt32 := 0xffffffff

/-- `MAX_NONCE_EXHAUSTION_ATTEMPTS`. -/
def maxNonceExhaustionAttempts : UInt8 := 3

/-- `payload[payload_length - nonce_length..].copy_from_slice(..)`. -/
def writeNonce (payload : List UInt8) (nonce : UInt32) :
    AppResult (List UInt8) :=
  if payload.length < nonceLen then Outcome.panic
  else .ok (payload.take (payload.length - nonceLen) ++ nonceBytes nonce)

def withPayload (transaction : SignableTransaction)
    (payload : List UInt8) : SignableTransaction :=
  { transaction with tx := { transaction.tx with payload } }

/-- `value.saturating_sub(1)` of a positive value. -/
def lowerValue (output : TransactionOutput) : TransactionOutput :=
  if 0 < output.value then { output with value := output.value - 1 }
  else output

/-- The fallback when all nonces failed. -/
def perturbOutput (transaction : SignableTransaction)
    (nonceExhaustionCount : UInt8) : SignableTransaction :=
  if transaction.tx.outputs.isEmpty then transaction
  else
    { transaction with
      tx :=
        { transaction.tx with
          outputs := transaction.tx.outputs.modify
            (nonceExhaustionCount.toNat % transaction.tx.outputs.length)
            lowerValue } }

section Search

variable (upstream : Upstream) (txIdPrefix : List UInt8)

/-- The loop of `mine_blocking`. -/
def mineLoop :
    Nat → UInt8 → UInt32 → SignableTransaction → MiningResult
  | 0, _, _, _ => Outcome.unfinished
  | fuel + 1, nonceExhaustionCount, nonce, transaction => do
      let payload ← writeNonce transaction.tx.payload nonce
      let candidate := withPayload transaction payload
      if idStartsWith upstream candidate.tx txIdPrefix then
        pure (candidate, ⟨nonce, upstream.transactionId candidate.tx⟩)
      else if nonce ≠ maxNonce then
        mineLoop fuel nonceExhaustionCount (nonce + 1) candidate
      else if maxNonceExhaustionAttempts ≤ nonceExhaustionCount then
        Outcome.err (.nonceExhaustion maxNonce)
      else
        mineLoop fuel (nonceExhaustionCount + 1) 0
          (perturbOutput candidate nonceExhaustionCount)

/-- The number of ids that are computed at most. -/
def nonceBudget : Nat := 4 * 2 ^ 32

def mineBlocking (transaction : SignableTransaction) : MiningResult :=
  let payloadBase := transaction.tx.payload.take
    (transaction.tx.payload.length - nonceLen)
  mineLoop upstream txIdPrefix nonceBudget 0 0
    (withPayload transaction (payloadBase ++ nonceBytes 0))

end Search

/-- How the task that mines ends, as the runtime sees it. -/
inductive MiningTask where
  | completed
  | timedOut
  | failed (reason : String)

/-- `mine_transaction`. -/
def mineTransaction (upstream : Upstream) (config : MiningConfig)
    (task : MiningTask) (transaction : SignableTransaction) : MiningResult :=
  match task with
  | .completed => mineBlocking upstream config.txIdPrefix transaction
  | .timedOut => Outcome.err (.miningTimeout config.timeoutSeconds)
  | .failed reason =>
      Outcome.err (.miningInvalidState ("Mining task failed: " ++ reason))

section Frame

/-- The output with a value that is not larger. -/
def LoweredOutput (before after : TransactionOutput) : Prop :=
  ∃ value ≤ before.value, after = { before with value }

/-- What mining keeps of a transaction: everything but the last payload bytes,
which hold the nonce, and output values, which only get smaller. -/
structure Reworked (original : SignableTransaction) (nonce : UInt32)
    (mined : SignableTransaction) : Prop where
  outputs : List.Forall₂ LoweredOutput original.tx.outputs mined.tx.outputs
  rest : mined =
    { original with
      tx :=
        { original.tx with
          outputs := mined.tx.outputs
          payload := original.tx.payload.take
            (original.tx.payload.length - nonceLen) ++ nonceBytes nonce } }

@[simp] theorem nonceBytes_length (nonce : UInt32) :
    (nonceBytes nonce).length = nonceLen :=
  rfl

theorem LoweredOutput.refl (output : TransactionOutput) :
    LoweredOutput output output :=
  ⟨output.value, UInt64.le_refl _, rfl⟩

private theorem loweredOutput_lowerValue {before after : TransactionOutput}
    (lowered : LoweredOutput before after) :
    LoweredOutput before (lowerValue after) := by
  obtain ⟨value, bound, rfl⟩ := lowered
  by_cases positive : 0 < value
  · refine ⟨value - 1, ?_, by simp [lowerValue, positive]⟩
    have one : (1 : UInt64) ≤ value := by
      rw [UInt64.le_iff_toNat_le]
      exact UInt64.lt_iff_toNat_lt.mp positive
    rw [UInt64.le_iff_toNat_le] at bound ⊢
    rw [UInt64.toNat_sub_of_le _ _ one]
    exact Nat.le_trans (Nat.sub_le _ _) bound
  · exact ⟨value, bound, by simp [lowerValue, positive]⟩

private theorem loweredOutputs_modify {before after : List TransactionOutput}
    (lowered : List.Forall₂ LoweredOutput before after) (index : Nat) :
    List.Forall₂ LoweredOutput before (after.modify index lowerValue) := by
  induction lowered generalizing index with
  | nil => simp
  | cons first rest ih =>
      cases index with
      | zero => exact .cons (loweredOutput_lowerValue first) rest
      | succ index => exact .cons first (ih index)

namespace Reworked

variable {original mined : SignableTransaction} {nonce : UInt32}

theorem payload (reworked : Reworked original nonce mined) :
    mined.tx.payload = original.tx.payload.take
      (original.tx.payload.length - nonceLen) ++ nonceBytes nonce := by
  rw [reworked.rest]

/-- The transaction with the first nonce written. -/
theorem start (original : SignableTransaction) :
    Reworked original 0 (withPayload original
      (original.tx.payload.take (original.tx.payload.length - nonceLen) ++
        nonceBytes 0)) :=
  ⟨List.forall₂_same.mpr fun output _ => LoweredOutput.refl output, rfl⟩

/-- Writing another nonce finds the slot of the last one. -/
theorem writeNonce (reworked : Reworked original nonce mined)
    (next : UInt32) :
    writeNonce mined.tx.payload next =
      .ok (original.tx.payload.take
        (original.tx.payload.length - nonceLen) ++ nonceBytes next) := by
  have base : (original.tx.payload.take
      (original.tx.payload.length - nonceLen)).length =
        original.tx.payload.length - nonceLen := by
    rw [List.length_take]
    exact Nat.min_eq_left (Nat.sub_le _ _)
  have length : mined.tx.payload.length =
      original.tx.payload.length - nonceLen + nonceLen := by
    rw [reworked.payload, List.length_append, base, nonceBytes_length]
  have room : ¬mined.tx.payload.length < nonceLen := by
    rw [length]
    exact Nat.not_lt.mpr (Nat.le_add_left _ _)
  rw [RpcProvider.writeNonce, if_neg room, length, Nat.add_sub_cancel,
    reworked.payload, List.take_left' base]

theorem withNonce (reworked : Reworked original nonce mined)
    (next : UInt32) :
    Reworked original next (withPayload mined
      (original.tx.payload.take (original.tx.payload.length - nonceLen) ++
        nonceBytes next)) := by
  refine ⟨reworked.outputs, ?_⟩
  rw [reworked.rest]
  rfl

theorem perturbed (reworked : Reworked original nonce mined)
    (nonceExhaustionCount : UInt8) :
    Reworked original nonce (perturbOutput mined nonceExhaustionCount) := by
  by_cases empty : mined.tx.outputs.isEmpty
  · rwa [perturbOutput, if_pos empty]
  · rw [perturbOutput, if_neg empty]
    refine ⟨loweredOutputs_modify reworked.outputs _, ?_⟩
    rw [reworked.rest]

end Reworked

end Frame

section Correctness

variable {upstream : Upstream} {txIdPrefix : List UInt8}

/-- Each round of the loop starts from a reworked transaction, and so does the
one that succeeds. -/
theorem reworked_of_mineLoop {fuel : Nat} {nonceExhaustionCount : UInt8}
    {written nonce : UInt32}
    {original transaction mined : SignableTransaction} {stats : MiningStats}
    (reworked : Reworked original written transaction)
    (succeeded : mineLoop upstream txIdPrefix fuel nonceExhaustionCount nonce
      transaction = .ok (mined, stats)) :
    Reworked original stats.noncesTried mined ∧
      txIdPrefix <+: (upstream.transactionId mined.tx).bytes ∧
      stats.finalTransactionId = upstream.transactionId mined.tx := by
  induction fuel generalizing nonceExhaustionCount written nonce
      transaction with
  | zero => exact absurd succeeded (Outcome.unfinished_ne_ok _)
  | succ fuel ih =>
      have candidate := reworked.withNonce nonce
      simp only [mineLoop, reworked.writeNonce nonce, Outcome.ok_bind]
        at succeeded
      split at succeeded
      · rename_i found
        rw [Outcome.pure_eq_ok, Prod.mk.injEq] at succeeded
        obtain ⟨rfl, rfl⟩ := succeeded
        exact ⟨candidate, idStartsWith_eq_true.mp found, rfl⟩
      · split at succeeded
        · exact ih candidate succeeded
        · split at succeeded
          · exact absurd succeeded (Outcome.err_ne_ok _ _)
          · exact ih (candidate.perturbed _) succeeded

theorem reworked_of_mineBlocking {original mined : SignableTransaction}
    {stats : MiningStats}
    (succeeded : mineBlocking upstream txIdPrefix original =
      .ok (mined, stats)) :
    Reworked original stats.noncesTried mined ∧
      txIdPrefix <+: (upstream.transactionId mined.tx).bytes ∧
      stats.finalTransactionId = upstream.transactionId mined.tx :=
  reworked_of_mineLoop (Reworked.start original) succeeded

/-- The ids that the loop may still compute. -/
def remainingNonces (nonceExhaustionCount : UInt8) (nonce : UInt32) : Nat :=
  (maxNonceExhaustionAttempts.toNat - nonceExhaustionCount.toNat) * 2 ^ 32 +
    (2 ^ 32 - nonce.toNat)

private theorem remainingNonces_next {nonceExhaustionCount : UInt8}
    {nonce : UInt32} {fuel : Nat} (more : nonce ≠ maxNonce)
    (enough : remainingNonces nonceExhaustionCount nonce ≤ fuel + 1) :
    remainingNonces nonceExhaustionCount (nonce + 1) ≤ fuel := by
  have below : nonce.toNat + 1 < 2 ^ 32 := by
    have bound := nonce.toNat_lt
    have notMax : nonce.toNat ≠ 0xffffffff := fun equal =>
      more (UInt32.toNat_inj.mp equal)
    omega
  have next : (nonce + 1).toNat = nonce.toNat + 1 := by
    rw [UInt32.toNat_add]
    exact Nat.mod_eq_of_lt below
  rw [remainingNonces] at enough ⊢
  omega

private theorem remainingNonces_again {nonceExhaustionCount : UInt8}
    {fuel : Nat} (again : ¬maxNonceExhaustionAttempts ≤ nonceExhaustionCount)
    (enough : remainingNonces nonceExhaustionCount maxNonce ≤ fuel + 1) :
    remainingNonces (nonceExhaustionCount + 1) 0 ≤ fuel := by
  have few : nonceExhaustionCount.toNat < 3 :=
    UInt8.lt_iff_toNat_lt.mp (UInt8.not_le.mp again)
  have next : (nonceExhaustionCount + 1).toNat =
      nonceExhaustionCount.toNat + 1 := by
    rw [UInt8.toNat_add]
    exact Nat.mod_eq_of_lt (Nat.lt_of_lt_of_le (Nat.succ_lt_succ few)
      (by decide))
  have attempts : maxNonceExhaustionAttempts.toNat = 3 := rfl
  have last : maxNonce.toNat = 2 ^ 32 - 1 := rfl
  have first : (0 : UInt32).toNat = 0 := rfl
  have rounds : 3 - nonceExhaustionCount.toNat =
      3 - (nonceExhaustionCount.toNat + 1) + 1 :=
    (Nat.sub_add_cancel (Nat.sub_pos_of_lt few)).symm
  rw [remainingNonces, attempts, last, rounds, Nat.succ_mul] at enough
  rw [remainingNonces, attempts, next, first]
  exact Nat.le_of_succ_le_succ enough

theorem mineLoop_ends {fuel : Nat} {nonceExhaustionCount : UInt8}
    {written nonce : UInt32} {original transaction : SignableTransaction}
    (reworked : Reworked original written transaction)
    (enough : remainingNonces nonceExhaustionCount nonce ≤ fuel) :
    (∃ found, mineLoop upstream txIdPrefix fuel nonceExhaustionCount nonce
        transaction = .ok found) ∨
      mineLoop upstream txIdPrefix fuel nonceExhaustionCount nonce
        transaction = Outcome.err (.nonceExhaustion maxNonce) := by
  induction fuel generalizing nonceExhaustionCount written nonce
      transaction with
  | zero =>
      have bound := nonce.toNat_lt
      unfold remainingNonces at enough
      omega
  | succ fuel ih =>
      have candidate := reworked.withNonce nonce
      simp only [mineLoop, reworked.writeNonce nonce, Outcome.ok_bind]
      split
      · exact .inl ⟨_, rfl⟩
      · split
        · rename_i more
          exact ih candidate (remainingNonces_next more enough)
        · split
          · exact .inr rfl
          · rename_i last again
            apply ih (candidate.perturbed _)
            obtain rfl := not_not.mp last
            exact remainingNonces_again again enough

/-- Mining ends with a transaction or without nonces, and it does not
panic. -/
theorem mineBlocking_ends (original : SignableTransaction) :
    (∃ found, mineBlocking upstream txIdPrefix original = .ok found) ∨
      mineBlocking upstream txIdPrefix original =
        Outcome.err (.nonceExhaustion maxNonce) := by
  have enough : remainingNonces 0 0 ≤ nonceBudget := by decide
  exact mineLoop_ends (Reworked.start original) enough

theorem exists_mineBlocking_of_mineTransaction {config : MiningConfig}
    {task : MiningTask} {transaction : SignableTransaction}
    {found : SignableTransaction × MiningStats}
    (succeeded : mineTransaction upstream config task transaction =
      .ok found) :
    mineBlocking upstream config.txIdPrefix transaction = .ok found := by
  cases task with
  | completed => exact succeeded
  | timedOut => exact absurd succeeded (Outcome.err_ne_ok _ _)
  | failed reason => exact absurd succeeded (Outcome.err_ne_ok _ _)

theorem mineTransaction_settled {config : MiningConfig} {task : MiningTask}
    {transaction : SignableTransaction} :
    (mineTransaction upstream config task transaction).Settled := by
  cases task with
  | completed =>
      rcases mineBlocking_ends transaction with found | exhausted
      · exact .inl found
      · exact .inr ⟨_, exhausted⟩
  | timedOut => exact Outcome.settled_err _
  | failed reason => exact Outcome.settled_err _

end Correctness

end RpcProvider
