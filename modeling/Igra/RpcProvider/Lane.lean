import Igra.Kaspa.Transaction

/-!
# The lane

Every L2 transaction that the provider submits has to be on the configured
lane.  `validateLaneTransaction` checks this twice, before mining without the
id and before broadcasting with it.
-/

open Kaspa Rust

namespace RpcProvider

/-- The errors of the provider that the modelled functions return. -/
inductive AppError where
  | invalidTransactionFormat
  | serializationError (reason : String)
  | miningTimeout (timeoutSeconds : UInt64)
  | nonceExhaustion (noncesTried : UInt32)
  | miningInvalidState (reason : String)
  | internal (reason : String)
  | retryExhausted (attempts : UInt32) (reason : String)
  | laneEnforcementFailed (reason : String)
deriving DecidableEq

abbrev AppResult := Outcome AppError

/-- A lane and a prefix of transaction ids.  An empty prefix, which every id
starts with, is not allowed. -/
structure LaneEnforcement where
  lane : SubnetworkId
  txIdPrefix : List UInt8
  nonempty : txIdPrefix ≠ []
deriving DecidableEq

def LaneEnforcement.new (lane : SubnetworkId) (txIdPrefix : List UInt8) :
    Except String LaneEnforcement :=
  if empty : txIdPrefix = [] then
    .error ("LaneEnforcement: tx_id_prefix must be non-empty (an empty " ++
      "prefix makes the post-mining invariant vacuously true)")
  else .ok ⟨lane, txIdPrefix, empty⟩

/-- `NONCE_LEN`. -/
def nonceLen : Nat := 4

/-- `MIN_LANE_PAYLOAD_LEN`. -/
def minLanePayloadLen : Nat := nonceLen + 1

inductive Stage where
  | preMining
  | preBroadcast
deriving DecidableEq

/-- `Stage::as_str`. -/
def Stage.asStr : Stage → String
  | .preMining => "pre-mining"
  | .preBroadcast => "pre-broadcast"

section Validation

variable (upstream : Upstream)

/-- `transaction.id().as_bytes().starts_with(tx_id_prefix)`. -/
def idStartsWith (tx : Transaction) (txIdPrefix : List UInt8) : Bool :=
  txIdPrefix.isPrefixOf (upstream.transactionId tx).bytes

/-- `validate_lane_transaction`. -/
def validateLaneTransaction (tx : SignableTransaction)
    (expectedLane : SubnetworkId) (txIdPrefix : List UInt8)
    (stage : Stage) : AppResult Unit :=
  if tx.tx.version < txVersionToccata then
    Outcome.err (.laneEnforcementFailed (stage.asStr ++ ": version"))
  else if tx.tx.subnetworkId ≠ expectedLane then
    Outcome.err (.laneEnforcementFailed (stage.asStr ++ ": subnetwork"))
  else if tx.tx.payload.length < minLanePayloadLen then
    Outcome.err (.laneEnforcementFailed (stage.asStr ++ ": payload"))
  else if stage = .preBroadcast ∧ !idStartsWith upstream tx.tx txIdPrefix then
    Outcome.err (.laneEnforcementFailed "pre-broadcast: prefix")
  else .ok ()

/-- The invariants that do not depend on the id. -/
structure OnLane (lane : SubnetworkId) (tx : Transaction) : Prop where
  version : txVersionToccata ≤ tx.version
  subnetwork : tx.subnetworkId = lane
  payload : minLanePayloadLen ≤ tx.payload.length

/-- A transaction that may be signed under an enforced lane. -/
structure LaneConforming (enforcement : LaneEnforcement)
    (tx : Transaction) : Prop extends OnLane enforcement.lane tx where
  txId : enforcement.txIdPrefix <+: (upstream.transactionId tx).bytes

end Validation

section Rules

variable {upstream : Upstream} {tx : SignableTransaction}
  {lane : SubnetworkId} {txIdPrefix : List UInt8} {stage : Stage}

theorem idStartsWith_eq_true {tx : Transaction} :
    idStartsWith upstream tx txIdPrefix = true ↔
      txIdPrefix <+: (upstream.transactionId tx).bytes :=
  List.isPrefixOf_iff_prefix

theorem validateLaneTransaction_eq_ok :
    validateLaneTransaction upstream tx lane txIdPrefix stage = .ok () ↔
      OnLane lane tx.tx ∧
        (stage = .preBroadcast →
          txIdPrefix <+: (upstream.transactionId tx.tx).bytes) := by
  unfold validateLaneTransaction Outcome.err
  simp only [Outcome.guarded_eq_ok, and_true, not_not, not_and,
    Bool.not_eq_true', Bool.not_eq_false, idStartsWith_eq_true, not_lt,
    UInt16.not_lt]
  constructor
  · rintro ⟨version, subnetwork, payload, txId⟩
    exact ⟨⟨version, subnetwork, payload⟩, txId⟩
  · rintro ⟨⟨version, subnetwork, payload⟩, txId⟩
    exact ⟨version, subnetwork, payload, txId⟩

/-- Before broadcasting all four invariants are checked. -/
theorem laneConforming_of_validateLaneTransaction
    {enforcement : LaneEnforcement}
    (validated : validateLaneTransaction upstream tx enforcement.lane
      enforcement.txIdPrefix .preBroadcast = .ok ()) :
    LaneConforming upstream enforcement tx.tx := by
  obtain ⟨onLane, txId⟩ := validateLaneTransaction_eq_ok.mp validated
  exact ⟨onLane, txId rfl⟩

/-- A transaction off the lane is an error, which names the stage and the
invariant, and never a panic. -/
theorem exists_error_of_validateLaneTransaction
    (rejected : validateLaneTransaction upstream tx lane txIdPrefix stage ≠
      .ok ()) :
    ∃ invariant ∈ ["version", "subnetwork", "payload", "prefix"],
      validateLaneTransaction upstream tx lane txIdPrefix stage =
        Outcome.err (.laneEnforcementFailed
          (stage.asStr ++ ": " ++ invariant)) := by
  unfold validateLaneTransaction at rejected ⊢
  by_cases version : tx.tx.version < txVersionToccata
  · refine ⟨"version", by simp, ?_⟩
    rw [if_pos version, String.append_assoc]
    rfl
  rw [if_neg version] at rejected ⊢
  by_cases subnetwork : tx.tx.subnetworkId ≠ lane
  · refine ⟨"subnetwork", by simp, ?_⟩
    rw [if_pos subnetwork, String.append_assoc]
    rfl
  rw [if_neg subnetwork] at rejected ⊢
  by_cases payload : tx.tx.payload.length < minLanePayloadLen
  · refine ⟨"payload", by simp, ?_⟩
    rw [if_pos payload, String.append_assoc]
    rfl
  rw [if_neg payload] at rejected ⊢
  by_cases unmined :
      stage = .preBroadcast ∧ !idStartsWith upstream tx.tx txIdPrefix
  · refine ⟨"prefix", by simp, ?_⟩
    rw [if_pos unmined, unmined.1]
    rfl
  · rw [if_neg unmined] at rejected
    exact absurd rfl rejected

theorem validateLaneTransaction_settled :
    (validateLaneTransaction upstream tx lane txIdPrefix stage).Settled := by
  by_cases valid :
      validateLaneTransaction upstream tx lane txIdPrefix stage = .ok ()
  · exact .inl ⟨(), valid⟩
  · obtain ⟨invariant, -, failure⟩ :=
      exists_error_of_validateLaneTransaction valid
    exact .inr ⟨_, failure⟩

end Rules

end RpcProvider
