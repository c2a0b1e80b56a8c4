import Igra.Kaspa.Devnet
import Igra.RpcProvider.Mining

/-!
# The search for a nonce

Every transaction that the miner looks at is one of a few output variants of
the original with a nonce.  It finds one of them or has looked at all.
-/

open Kaspa Rust

namespace RpcProvider

section Candidates

/-- The original after some of the fallbacks. -/
def outputVariant (original : SignableTransaction) :
    Nat → SignableTransaction
  | 0 => original
  | count + 1 =>
      perturbOutput (outputVariant original count) (UInt8.ofNat count)

/-- An output variant with a nonce. -/
def candidate (original : SignableTransaction) (count : Nat)
    (nonce : UInt32) : SignableTransaction :=
  withPayload (outputVariant original count)
    (original.tx.payload.take (original.tx.payload.length - nonceLen) ++
      nonceBytes nonce)

/-- The sum of the output values. -/
def outputTotal (transaction : SignableTransaction) : Nat :=
  (transaction.tx.outputs.map fun output => output.value.toNat).sum

variable {original : SignableTransaction}

private theorem perturbOutput_withPayload (transaction : SignableTransaction)
    (payload : List UInt8) (count : UInt8) :
    perturbOutput (withPayload transaction payload) count =
      withPayload (perturbOutput transaction count) payload := by
  unfold perturbOutput withPayload
  dsimp only
  split <;> rfl

theorem candidate_succ (count : Nat) (nonce : UInt32) :
    candidate original (count + 1) nonce =
      perturbOutput (candidate original count nonce) (UInt8.ofNat count) := by
  rw [candidate, candidate, perturbOutput_withPayload, outputVariant]

theorem candidate_reworked (count : Nat) (nonce : UInt32) :
    Reworked original nonce (candidate original count nonce) := by
  induction count with
  | zero => exact (Reworked.start original).withNonce nonce
  | succ count ih =>
      rw [candidate_succ]
      exact ih.perturbed _

theorem sum_modify_lowerValue (outputs : List TransactionOutput)
    (index : Nat) :
    (outputs.map fun output => output.value.toNat).sum ≤
      ((outputs.modify index lowerValue).map
        fun output => output.value.toNat).sum + 1 := by
  have lowered (output : TransactionOutput) :
      output.value.toNat ≤ (lowerValue output).value.toNat + 1 := by
    unfold lowerValue
    split
    · rename_i positive
      have one : (1 : UInt64) ≤ output.value :=
        UInt64.le_iff_toNat_le.mpr (UInt64.lt_iff_toNat_lt.mp positive)
      have less := UInt64.toNat_sub_of_le _ _ one
      have unit : (1 : UInt64).toNat = 1 := rfl
      dsimp only
      omega
    · exact Nat.le_succ _
  induction outputs generalizing index with
  | nil => simp
  | cons output rest ih =>
      cases index with
      | zero =>
          have first := lowered output
          simp only [List.modify_zero_cons, List.map_cons, List.sum_cons]
          omega
      | succ index =>
          have others := ih index
          simp only [List.modify_succ_cons, List.map_cons, List.sum_cons]
          omega

theorem outputTotal_candidate (count : Nat) (nonce : UInt32) :
    outputTotal original ≤
      outputTotal (candidate original count nonce) + count := by
  induction count with
  | zero => exact Nat.le_refl _
  | succ count ih =>
      have step : outputTotal (candidate original count nonce) ≤
          outputTotal (candidate original (count + 1) nonce) + 1 := by
        rw [candidate_succ, perturbOutput]
        split
        · exact Nat.le_succ _
        · exact sum_modify_lowerValue _ _
      omega

end Candidates

section Search

variable {upstream : Upstream} {txIdPrefix : List UInt8}
  {original : SignableTransaction}

theorem mineLoop_candidate (fuel : Nat) (count : UInt8)
    (written nonce : UInt32) :
    mineLoop upstream txIdPrefix (fuel + 1) count nonce
        (candidate original count.toNat written) =
      (if idStartsWith upstream (candidate original count.toNat nonce).tx
          txIdPrefix then
        pure (candidate original count.toNat nonce,
          ⟨nonce, upstream.transactionId
            (candidate original count.toNat nonce).tx⟩)
      else if nonce ≠ maxNonce then
        mineLoop upstream txIdPrefix fuel count (nonce + 1)
          (candidate original count.toNat nonce)
      else if maxNonceExhaustionAttempts ≤ count then
        Outcome.err (.nonceExhaustion maxNonce)
      else
        mineLoop upstream txIdPrefix fuel (count + 1) 0
          (candidate original (count.toNat + 1) nonce)) := by
  have again : perturbOutput (candidate original count.toNat nonce) count =
      candidate original (count.toNat + 1) nonce := by
    rw [candidate_succ, UInt8.ofNat_toNat]
  simp only [mineLoop, (candidate_reworked count.toNat written).writeNonce,
    Outcome.ok_bind]
  rw [← again]
  rfl

/-- The position of a candidate in the search. -/
def NotBefore (count : Nat) (nonce : UInt32) (laterCount : Nat)
    (laterNonce : UInt32) : Prop :=
  count < laterCount ∨ count = laterCount ∧ nonce ≤ laterNonce

private theorem nonce_succ_le {nonce other : UInt32} (below : nonce ≤ other)
    (distinct : nonce ≠ other) : nonce + 1 ≤ other := by
  have less : nonce.toNat < other.toNat :=
    Nat.lt_of_le_of_ne (UInt32.le_iff_toNat_le.mp below)
      fun same => distinct (UInt32.toNat_inj.mp same)
  have bound := other.toNat_lt
  have unit : (1 : UInt32).toNat = 1 := rfl
  rw [UInt32.le_iff_toNat_le, UInt32.toNat_add, unit,
    Nat.mod_eq_of_lt (by omega)]
  exact less

private theorem eq_of_maxNonce_le {nonce : UInt32} (above : maxNonce ≤ nonce) :
    maxNonce = nonce := by
  have last : maxNonce.toNat = 2 ^ 32 - 1 := rfl
  have bound := nonce.toNat_lt
  have least := UInt32.le_iff_toNat_le.mp above
  apply UInt32.toNat_inj.mp
  omega

theorem toNat_succ_of_few {count : UInt8}
    (few : ¬maxNonceExhaustionAttempts ≤ count) :
    (count + 1).toNat = count.toNat + 1 ∧ count.toNat + 1 ≤ 3 := by
  have below : count.toNat < 3 :=
    UInt8.lt_iff_toNat_lt.mp (UInt8.not_le.mp few)
  rw [UInt8.toNat_add]
  exact ⟨Nat.mod_eq_of_lt (Nat.lt_of_lt_of_le (Nat.succ_lt_succ below)
    (by decide)), below⟩

theorem exists_candidate_of_mineLoop {fuel : Nat} {count : UInt8}
    {written nonce : UInt32} {mined : SignableTransaction}
    {stats : MiningStats} (few : count.toNat ≤ 3)
    (succeeded : mineLoop upstream txIdPrefix fuel count nonce
      (candidate original count.toNat written) = .ok (mined, stats)) :
    ∃ k ≤ 3, ∃ found, mined = candidate original k found ∧
      idStartsWith upstream mined.tx txIdPrefix = true := by
  induction fuel generalizing count written nonce with
  | zero => exact absurd succeeded (Outcome.unfinished_ne_ok _)
  | succ fuel ih =>
      rw [mineLoop_candidate] at succeeded
      split at succeeded
      · rename_i found
        rw [Outcome.pure_eq_ok, Prod.mk.injEq] at succeeded
        obtain ⟨rfl, -⟩ := succeeded
        exact ⟨count.toNat, few, nonce, rfl, found⟩
      · split at succeeded
        · exact ih few succeeded
        · split at succeeded
          · exact absurd succeeded (Outcome.err_ne_ok _ _)
          · rename_i again
            obtain ⟨next, fewer⟩ := toNat_succ_of_few again
            rw [← next] at succeeded fewer
            exact ih fewer succeeded

/-- A search that ends in exhaustion has looked at all candidates from where it
started. -/
theorem none_of_mineLoop {fuel : Nat} {count : UInt8}
    {written nonce : UInt32} {error : AppError}
    (exhausted : mineLoop upstream txIdPrefix fuel count nonce
      (candidate original count.toNat written) = Outcome.err error)
    {k : Nat} (few : k ≤ 3) {other : UInt32}
    (ahead : NotBefore count.toNat nonce k other) :
    idStartsWith upstream (candidate original k other).tx txIdPrefix =
      false := by
  induction fuel generalizing count written nonce with
  | zero => cases exhausted
  | succ fuel ih =>
      rw [mineLoop_candidate] at exhausted
      split at exhausted
      · cases exhausted
      · rename_i missed
        by_cases here : count.toNat = k ∧ nonce = other
        · obtain ⟨rfl, rfl⟩ := here
          exact Bool.eq_false_iff.mpr missed
        · split at exhausted
          · rename_i more
            apply ih exhausted
            rcases ahead with later | ⟨rfl, below⟩
            · exact .inl later
            · exact .inr ⟨rfl, nonce_succ_le below fun same => here ⟨rfl, same⟩⟩
          · rename_i last
            obtain rfl := not_not.mp last
            have later : count.toNat < k := by
              rcases ahead with later | ⟨rfl, below⟩
              · exact later
              · exact absurd ⟨rfl, eq_of_maxNonce_le below⟩ here
            split at exhausted
            · rename_i enough
              have three : 3 ≤ count.toNat := UInt8.le_iff_toNat_le.mp enough
              omega
            · rename_i again
              obtain ⟨next, -⟩ := toNat_succ_of_few again
              rw [← next] at exhausted
              apply ih exhausted
              rw [next]
              rcases Nat.lt_or_eq_of_le later with more | same
              · exact .inl more
              · exact .inr ⟨same, UInt32.zero_le⟩

/-- What a mined transaction has to do with the original. -/
structure MinedFrom (upstream : Upstream) (txIdPrefix : List UInt8)
    (original mined : SignableTransaction) : Prop where
  prefixed : txIdPrefix <+: (upstream.transactionId mined.tx).bytes
  rest : mined =
    { original with
      tx :=
        { original.tx with
          outputs := mined.tx.outputs
          payload := mined.tx.payload } }
  outputs : List.Forall₂
    (fun before after => after.scriptPublicKey = before.scriptPublicKey ∧
      after.value ≤ before.value) original.tx.outputs mined.tx.outputs
  decrease : outputTotal original ≤ outputTotal mined + 3
  payloadLength : mined.tx.payload.length =
    max original.tx.payload.length 4
  payloadFront : 4 ≤ original.tx.payload.length →
    mined.tx.payload.take (original.tx.payload.length - 4) =
      original.tx.payload.take (original.tx.payload.length - 4)

theorem minedFrom_candidate {k : Nat} (few : k ≤ 3) {nonce : UInt32}
    (found : idStartsWith upstream (candidate original k nonce).tx
      txIdPrefix = true) :
    MinedFrom upstream txIdPrefix original (candidate original k nonce) := by
  have reworked := @candidate_reworked original k nonce
  have base : (original.tx.payload.take
      (original.tx.payload.length - nonceLen)).length =
        original.tx.payload.length - nonceLen := by
    rw [List.length_take]
    exact Nat.min_eq_left (Nat.sub_le _ _)
  have four : nonceLen = 4 := rfl
  refine ⟨idStartsWith_eq_true.mp found, ?_, ?_, ?_, ?_, ?_⟩
  · rw [reworked.rest]
  · apply reworked.outputs.imp
    rintro before after ⟨value, lower, rfl⟩
    exact ⟨rfl, lower⟩
  · have total := @outputTotal_candidate original k nonce
    omega
  · rw [reworked.payload, List.length_append, base, nonceBytes_length]
    omega
  · intro _
    rw [reworked.payload, ← four, List.take_left' base]

/-- What mining returns comes from the original, and when the nonces run out
no candidate has the prefix.  It ends in one of these ways. -/
theorem mineBlocking_correct :
    (∀ mined stats,
      mineBlocking upstream txIdPrefix original = .ok (mined, stats) →
        MinedFrom upstream txIdPrefix original mined) ∧
    (∀ noncesTried, mineBlocking upstream txIdPrefix original =
        Outcome.err (.nonceExhaustion noncesTried) →
      ∀ k ≤ 3, ∀ nonce, ¬txIdPrefix <+:
        (upstream.transactionId (candidate original k nonce).tx).bytes) ∧
    ((∃ mined stats,
        mineBlocking upstream txIdPrefix original = .ok (mined, stats)) ∨
      mineBlocking upstream txIdPrefix original =
        Outcome.err (.nonceExhaustion maxNonce)) := by
  refine ⟨?_, ?_, ?_⟩
  · intro mined stats succeeded
    obtain ⟨k, few, nonce, rfl, found⟩ :=
      @exists_candidate_of_mineLoop upstream txIdPrefix original nonceBudget
        0 0 0 mined stats (Nat.zero_le 3) succeeded
    exact minedFrom_candidate few found
  · intro noncesTried exhausted k few nonce starts
    have ahead : NotBefore 0 0 k nonce := by
      rcases Nat.eq_zero_or_pos k with rfl | later
      · exact .inr ⟨rfl, UInt32.zero_le⟩
      · exact .inl later
    have missed := @none_of_mineLoop upstream txIdPrefix original nonceBudget
      0 0 0 _ exhausted k few nonce ahead
    rw [← Bool.not_eq_true] at missed
    exact missed (idStartsWith_eq_true.mpr starts)
  · rcases mineBlocking_ends original with ⟨⟨mined, stats⟩, found⟩ | exhausted
    · exact .inl ⟨mined, stats, found⟩
    · exact .inr exhausted

/-- A payment whose payload ends with a slot for the nonce. -/
def unminedPayment : SignableTransaction where
  tx :=
    { version := 1
      inputs := [⟨⟨FixedBytes.zero 32, 3⟩, [], 0, .computeBudget 10⟩]
      outputs := [.new 900 ⟨0, [0x20, 0xac]⟩, .new 50 ⟨0, [0x21, 0xac]⟩]
      lockTime := 0
      subnetworkId := ⟨List.replicate 20 5, rfl⟩
      gas := 0
      payload := [0x94, 1, 0, 0, 0, 0]
      storageMass := 0 }
  entries := [some ⟨1000, ⟨0, [0x20, 0xac]⟩, 10, false, none⟩]
  calculatedFee := none
  calculatedNonContextualMasses := none

/-- The fourth nonce gives an id with the first prefix.  No id is as long as
the other. -/
theorem unminedPayment_correct :
    (∃ mined stats,
      mineBlocking devnet [235] unminedPayment = .ok (mined, stats) ∧
        stats.noncesTried = 3 ∧
        MinedFrom devnet [235] unminedPayment mined) ∧
    mineBlocking devnet (List.replicate 33 0) unminedPayment =
        Outcome.err (.nonceExhaustion maxNonce) ∧
      ∀ k ≤ 3, ∀ nonce, ¬List.replicate 33 0 <+:
        (devnet.transactionId (candidate unminedPayment k nonce).tx).bytes := by
  constructor
  · have ran : (mineBlocking devnet [235] unminedPayment).Returns
        fun found => found.2.noncesTried = 3 := by
      decide +kernel
    obtain ⟨⟨mined, stats⟩, found, third⟩ := ran
    exact ⟨mined, stats, found, third,
      mineBlocking_correct.1 mined stats found⟩
  · obtain ⟨mines, misses, ends⟩ := @mineBlocking_correct devnet
      (List.replicate 33 0) unminedPayment
    rcases ends with ⟨mined, stats, found⟩ | exhausted
    · have longer := (mines mined stats found).prefixed.length_le
      rw [FixedBytes.size, List.length_replicate] at longer
      omega
    · exact ⟨exhausted, misses _ exhausted⟩

end Search

end RpcProvider
