import Igra.RpcProvider.PayloadIntegrity

/-!
# Accepted transactions

What the accept path checks of a raw transaction.  The type that the fees are
checked against comes from the first byte, the fees from the decoder; the
bytes behind the transaction are not looked at.
-/

open Kaspa Rust Kaswallet

namespace RpcProvider

section FeeFloor

/-- The fees of a transaction cover the base fee; a blob transaction has none
that would. -/
def CoversBaseFee (baseFee : Nat) : TxEnvelope → Prop
  | .legacy gasPrice => baseFee ≤ gasPrice
  | .eip2930 gasPrice => baseFee ≤ gasPrice
  | .eip1559 maxFeePerGas maxPriorityFeePerGas =>
      baseFee ≤ maxPriorityFeePerGas ∧ maxPriorityFeePerGas ≤ maxFeePerGas
  | .eip4844 => False
  | .eip7702 maxFeePerGas maxPriorityFeePerGas =>
      baseFee ≤ maxPriorityFeePerGas ∧ maxPriorityFeePerGas ≤ maxFeePerGas

/-- The type of the first byte has the fee fields of the transaction. -/
def FitsType (txType : UInt8) : TxEnvelope → Prop
  | .legacy _ => txType = TxTypes.legacy ∨ txType = TxTypes.eip2930
  | .eip2930 _ => txType = TxTypes.legacy ∨ txType = TxTypes.eip2930
  | .eip1559 _ _ => txType = TxTypes.eip1559 ∨ txType = TxTypes.eip7702
  | .eip4844 => False
  | .eip7702 _ _ => txType = TxTypes.eip1559 ∨ txType = TxTypes.eip7702

theorem requireGasPrice_eq_ok {gasPrice minProtocolFee : Nat} :
    requireGasPrice gasPrice minProtocolFee = .ok () ↔
      minProtocolFee ≤ gasPrice := by
  rw [requireGasPrice, Outcome.err, Outcome.guarded_eq_ok, Nat.not_lt]
  simp

theorem requireDynamicFees_eq_ok
    {maxFeePerGas maxPriorityFeePerGas minProtocolFee : Nat} :
    requireDynamicFees maxFeePerGas maxPriorityFeePerGas minProtocolFee =
        .ok () ↔
      minProtocolFee ≤ maxPriorityFeePerGas ∧
        maxPriorityFeePerGas ≤ maxFeePerGas := by
  rw [requireDynamicFees, Outcome.err, Outcome.guarded_eq_ok, Nat.not_lt]
  simp only [Outcome.bind_eq_ok, requireGasPrice_eq_ok]
  constructor
  · rintro ⟨ordered, ⟨⟩, -, covered⟩
    exact ⟨covered, ordered⟩
  · rintro ⟨covered, ordered⟩
    exact ⟨ordered, (),
      requireGasPrice_eq_ok.mpr (Nat.le_trans covered ordered), covered⟩

theorem validateLegacyOrEip2930_eq_ok {tx : TxEnvelope}
    {minProtocolFee : Nat} {txType : UInt8} :
    validateLegacyOrEip2930 tx minProtocolFee txType = .ok () ↔
      FitsType TxTypes.legacy tx ∧ CoversBaseFee minProtocolFee tx := by
  cases tx with
  | legacy gasPrice =>
      simp [validateLegacyOrEip2930, requireGasPrice_eq_ok, FitsType,
        CoversBaseFee]
  | eip2930 gasPrice =>
      simp [validateLegacyOrEip2930, requireGasPrice_eq_ok, FitsType,
        CoversBaseFee]
  | eip1559 maxFeePerGas maxPriorityFeePerGas =>
      simp [validateLegacyOrEip2930, FitsType, TxTypes.legacy,
        TxTypes.eip1559, TxTypes.eip7702]
  | eip4844 => simp [validateLegacyOrEip2930, FitsType]
  | eip7702 maxFeePerGas maxPriorityFeePerGas =>
      simp [validateLegacyOrEip2930, FitsType, TxTypes.legacy,
        TxTypes.eip1559, TxTypes.eip7702]

theorem validateEip1559_eq_ok {tx : TxEnvelope} {minProtocolFee : Nat} :
    validateEip1559 tx minProtocolFee = .ok () ↔
      FitsType TxTypes.eip1559 tx ∧ CoversBaseFee minProtocolFee tx := by
  cases tx with
  | legacy gasPrice =>
      simp [validateEip1559, FitsType, TxTypes.legacy, TxTypes.eip1559,
        TxTypes.eip2930]
  | eip2930 gasPrice =>
      simp [validateEip1559, FitsType, TxTypes.legacy, TxTypes.eip1559,
        TxTypes.eip2930]
  | eip1559 maxFeePerGas maxPriorityFeePerGas =>
      simp [validateEip1559, requireDynamicFees_eq_ok, FitsType,
        CoversBaseFee]
  | eip4844 => simp [validateEip1559, FitsType]
  | eip7702 maxFeePerGas maxPriorityFeePerGas =>
      simp [validateEip1559, requireDynamicFees_eq_ok, FitsType,
        CoversBaseFee]

theorem validateGasFeeWithType_eq_ok {tx : TxEnvelope}
    {minProtocolFee : Nat} {txType : UInt8} :
    validateGasFeeWithType tx minProtocolFee txType = .ok () ↔
      FitsType txType tx ∧ CoversBaseFee minProtocolFee tx := by
  unfold validateGasFeeWithType
  split
  · rename_i single
    rw [validateLegacyOrEip2930_eq_ok]
    rcases single with rfl | rfl
    · rfl
    · cases tx <;> simp [FitsType, TxTypes.legacy, TxTypes.eip2930,
        TxTypes.eip1559, TxTypes.eip7702]
  · rename_i notSingle
    split
    · rename_i dynamic
      rw [validateEip1559_eq_ok]
      rcases dynamic with rfl | rfl
      · rfl
      · cases tx <;> simp [FitsType, TxTypes.legacy, TxTypes.eip2930,
          TxTypes.eip1559, TxTypes.eip7702]
    · rename_i notDynamic
      simp only [Outcome.err_ne_ok, false_iff]
      rintro ⟨fits, -⟩
      cases tx with
      | legacy gasPrice => exact notSingle fits
      | eip2930 gasPrice => exact notSingle fits
      | eip1559 maxFeePerGas maxPriorityFeePerGas => exact notDynamic fits
      | eip4844 => exact fits
      | eip7702 maxFeePerGas maxPriorityFeePerGas => exact notDynamic fits

end FeeFloor

section Acceptance

variable {decodeEnvelope : EnvelopeDecoder}

theorem parseRlpTransaction_eq_ok {data : List UInt8} {tx : TxEnvelope}
    {txType : UInt8} :
    parseRlpTransaction decodeEnvelope data = .ok (tx, txType) ↔
      data.length ≤ maxTransactionSize ∧
        detectTransactionType data = .ok txType ∧
        ¬(txType = TxTypes.blob ∨ TxTypes.eip7702 < txType) ∧
        ∃ rest, decodeEnvelope data = .ok (tx, rest) := by
  rw [parseRlpTransaction, Outcome.err, Outcome.guarded_eq_ok, Nat.not_lt]
  simp only [Outcome.bind_eq_ok, Outcome.err, Outcome.guarded_eq_ok]
  constructor
  · rintro ⟨small, other, detected, supported, decoded⟩
    split at decoded
    · rename_i tx rest consumed
      cases decoded
      exact ⟨small, detected, supported, rest, consumed⟩
    · cases decoded
  · rintro ⟨small, detected, supported, rest, consumed⟩
    refine ⟨small, txType, detected, supported, ?_⟩
    rw [consumed]
    rfl

/-- The bytes that a request submits. -/
def Submits (param : Option String) (txBytes : List UInt8) : Prop :=
  ∃ rawTx, extractRawTransaction param = .ok rawTx ∧
    decodeHexTransaction rawTx = .ok txBytes

/-- What the accept path checks of the bytes. -/
def Acceptable (decodeEnvelope : EnvelopeDecoder) (baseFee : Nat)
    (data : List UInt8) : Prop :=
  data.length ≤ maxTransactionSize ∧
    ∃ tx txType rest, detectTransactionType data = .ok txType ∧
      decodeEnvelope data = .ok (tx, rest) ∧ FitsType txType tx ∧
      CoversBaseFee baseFee tx

theorem FitsType.supported {txType : UInt8} {tx : TxEnvelope}
    (fits : FitsType txType tx) :
    ¬(txType = TxTypes.blob ∨ TxTypes.eip7702 < txType) := by
  cases tx with
  | legacy gasPrice => rcases fits with rfl | rfl <;> decide
  | eip2930 gasPrice => rcases fits with rfl | rfl <;> decide
  | eip1559 maxFeePerGas maxPriorityFeePerGas =>
      rcases fits with rfl | rfl <;> decide
  | eip4844 => exact fits.elim
  | eip7702 maxFeePerGas maxPriorityFeePerGas =>
      rcases fits with rfl | rfl <;> decide

theorem validateComprehensiveTransaction_eq_ok {baseFee : Nat}
    {data : List UInt8} :
    validateComprehensiveTransaction decodeEnvelope (some baseFee) data =
        .ok () ↔
      Acceptable decodeEnvelope baseFee data := by
  simp only [validateComprehensiveTransaction, parseTransactionWithContext,
    Outcome.bind_eq_ok, Outcome.mapErr_eq_ok, Prod.exists,
    parseRlpTransaction_eq_ok, validateGasFeeWithType_eq_ok]
  constructor
  · rintro ⟨tx, txType, ⟨small, detected, -, rest, decoded⟩, fits, covers⟩
    exact ⟨small, tx, txType, rest, detected, decoded, fits, covers⟩
  · rintro ⟨small, tx, txType, rest, detected, decoded, fits, covers⟩
    exact ⟨tx, txType, ⟨small, detected, fits.supported, rest, decoded⟩,
      fits, covers⟩

/-- Acceptable bytes pass the check without a base fee as well. -/
theorem Acceptable.format {baseFee : Nat} {data : List UInt8}
    (acceptable : Acceptable decodeEnvelope baseFee data) :
    validateComprehensiveTransaction decodeEnvelope none data = .ok () := by
  obtain ⟨small, tx, txType, rest, detected, decoded, fits, -⟩ := acceptable
  have parsed := parseRlpTransaction_eq_ok.mpr
    ⟨small, detected, fits.supported, rest, decoded⟩
  rw [validateComprehensiveTransaction, parseTransactionWithContext, parsed]
  rfl

theorem validateAcceptRequest_eq_ok
    {effectiveBaseFee : Except String Nat} {param : Option String}
    {txBytes : List UInt8} :
    validateAcceptRequest decodeEnvelope effectiveBaseFee param =
        .ok txBytes ↔
      Submits param txBytes ∧ ∃ baseFee, effectiveBaseFee = .ok baseFee ∧
        Acceptable decodeEnvelope baseFee txBytes := by
  simp only [validateAcceptRequest, Outcome.bind_eq_ok]
  constructor
  · rintro ⟨rawTx, extracted, other, decoded, ⟨⟩, -, accepted⟩
    cases effectiveBaseFee with
    | error reason => exact absurd accepted (Outcome.err_ne_ok _ _)
    | ok baseFee =>
        simp only [Outcome.bind_eq_ok, Outcome.mapErr_eq_ok,
          Outcome.pure_eq_ok] at accepted
        obtain ⟨⟨⟩, validated, rfl⟩ := accepted
        exact ⟨⟨rawTx, extracted, decoded⟩, baseFee, rfl,
          validateComprehensiveTransaction_eq_ok.mp validated⟩
  · rintro ⟨⟨rawTx, extracted, decoded⟩, baseFee, rfl, acceptable⟩
    refine ⟨rawTx, extracted, txBytes, decoded, (), ?_, ?_⟩
    · exact Outcome.mapErr_eq_ok.mpr acceptable.format
    · simp only [Outcome.bind_eq_ok, Outcome.mapErr_eq_ok,
        Outcome.pure_eq_ok]
      exact ⟨_, validateComprehensiveTransaction_eq_ok.mpr acceptable,
        trivial⟩

/-- Whatever the first byte suggests, an accepted transaction is not a blob
and its fees cover the base fee. -/
theorem covers_of_validateAcceptRequest
    {effectiveBaseFee : Except String Nat} {param : Option String}
    {txBytes : List UInt8}
    (accepted : validateAcceptRequest decodeEnvelope effectiveBaseFee param =
      .ok txBytes) :
    ∃ baseFee tx rest, effectiveBaseFee = .ok baseFee ∧
      decodeEnvelope txBytes = .ok (tx, rest) ∧ CoversBaseFee baseFee tx := by
  obtain ⟨-, baseFee, fetched, -, tx, -, rest, -, decoded, -, covers⟩ :=
    validateAcceptRequest_eq_ok.mp accepted
  exact ⟨baseFee, tx, rest, fetched, decoded, covers⟩

theorem submits_encode (bytes : List UInt8) :
    Submits (some ("0x" ++ Hex.encode bytes)) bytes :=
  ⟨_, extractRawTransaction_encode bytes, decodeHexTransaction_encode bytes⟩

private theorem legacyTx_acceptable :
    Acceptable legacyProvider.decodeEnvelope 1000000000 legacyTx := by
  refine ⟨by decide, .legacy 20000000000, TxTypes.legacy, [], rfl, rfl,
    .inl rfl, ?_⟩
  exact Nat.le_of_ble_eq_true rfl

/-- The base fee is one gwei, the gas price is twenty. -/
theorem legacyTx_covers :
    ∃ baseFee tx rest,
      (.ok 1000000000 : Except String Nat) = .ok baseFee ∧
        legacyProvider.decodeEnvelope legacyTx = .ok (tx, rest) ∧
        CoversBaseFee baseFee tx :=
  covers_of_validateAcceptRequest
    (validateAcceptRequest_eq_ok.mpr
      ⟨submits_encode legacyTx, _, rfl, legacyTx_acceptable⟩)

end Acceptance

section Encodings

/-- How transactions are written: each encoding by itself, or one that starts
with its type inside a string. -/
structure EnvelopeFormat where
  Encodes : TxEnvelope → List UInt8 → Prop
  /-- the header of the string around an encoding -/
  header : List UInt8 → List UInt8

/-- A legacy transaction is a list, any other starts with its type. -/
def StartsWith (first : UInt8) : TxEnvelope → Prop
  | .legacy _ => 0xc0 ≤ first
  | .eip2930 _ => first = TxTypes.eip2930
  | .eip1559 _ _ => first = TxTypes.eip1559
  | .eip4844 => first = TxTypes.blob
  | .eip7702 _ _ => first = TxTypes.eip7702

def IsTyped : TxEnvelope → Prop
  | .legacy _ => False
  | _ => True

/-- The decoder takes one encoded transaction from the front of the bytes and
returns the rest. -/
structure Consumes (decodeEnvelope : EnvelopeDecoder)
    (format : EnvelopeFormat) : Prop where
  decodes : ∀ data tx rest, decodeEnvelope data = .ok (tx, rest) ↔
    ∃ encoding, format.Encodes tx encoding ∧
      (data = encoding ++ rest ∨
        IsTyped tx ∧ data = format.header encoding ++ (encoding ++ rest))
  starts : ∀ tx encoding, format.Encodes tx encoding →
    ∃ first more, encoding = first :: more ∧ StartsWith first tx
  wraps : ∀ encoding, ∃ first more, format.header encoding = first :: more ∧
    0x80 ≤ first

/-- The bytes that a request submits are one transaction, and it is the hash of
its encoding that the client gets. -/
def HashesOneTransaction (format : EnvelopeFormat) (upstream : Upstream)
    (provider : Provider) (effectiveBaseFee : Except String Nat)
    (param : Option String) : Prop :=
  ∀ queue daemon task hash,
    (sendRawTransaction upstream provider effectiveBaseFee queue daemon task
      param).response = .ok hash →
    ∀ txBytes, Submits param txBytes →
      hash = transactionHash provider txBytes ∧
        ∃ tx, provider.decodeEnvelope txBytes = .ok (tx, []) ∧
          format.Encodes tx txBytes

/-- A transaction that could be accepted by itself, with more bytes behind
it. -/
def Overlong (format : EnvelopeFormat) (baseFee : Nat)
    (data : List UInt8) : Prop :=
  ∃ tx encoding rest, format.Encodes tx encoding ∧
    CoversBaseFee baseFee tx ∧ rest ≠ [] ∧ data = encoding ++ rest

/-- A transaction of EIP-2930 inside a string. -/
def Wrapped (format : EnvelopeFormat) (baseFee : Nat)
    (data : List UInt8) : Prop :=
  ∃ gasPrice encoding rest, format.Encodes (.eip2930 gasPrice) encoding ∧
    baseFee ≤ gasPrice ∧
      data = format.header encoding ++ (encoding ++ rest)

variable {decodeEnvelope : EnvelopeDecoder} {format : EnvelopeFormat}

private theorem detectTransactionType_of_low {first : UInt8}
    (low : first < 0x80)
    (more : List UInt8) :
    detectTransactionType (first :: more) = .ok first :=
  if_pos low

theorem detectTransactionType_of_high {first : UInt8} (high : 0x80 ≤ first)
    (more : List UInt8) :
    detectTransactionType (first :: more) = .ok TxTypes.legacy :=
  if_neg (UInt8.not_lt.mpr high)

theorem exists_fitsType {tx : TxEnvelope} {first : UInt8} {baseFee : Nat}
    (starts : StartsWith first tx) (covers : CoversBaseFee baseFee tx)
    (more : List UInt8) :
    ∃ txType, detectTransactionType (first :: more) = .ok txType ∧
      FitsType txType tx := by
  cases tx with
  | legacy gasPrice =>
      have high : (0x80 : UInt8) ≤ first :=
        UInt8.le_trans (by decide) starts
      exact ⟨_, detectTransactionType_of_high high more, .inl rfl⟩
  | eip2930 gasPrice =>
      obtain rfl := starts
      exact ⟨_, detectTransactionType_of_low (by decide) more, .inr rfl⟩
  | eip1559 maxFeePerGas maxPriorityFeePerGas =>
      obtain rfl := starts
      exact ⟨_, detectTransactionType_of_low (by decide) more, .inl rfl⟩
  | eip4844 => exact covers.elim
  | eip7702 maxFeePerGas maxPriorityFeePerGas =>
      obtain rfl := starts
      exact ⟨_, detectTransactionType_of_low (by decide) more, .inr rfl⟩

/-- Only a transaction of EIP-2930 is taken for a legacy one. -/
theorem exists_eip2930 {tx : TxEnvelope} (typed : IsTyped tx)
    (fits : FitsType TxTypes.legacy tx) :
    ∃ gasPrice, tx = .eip2930 gasPrice := by
  cases tx with
  | legacy gasPrice => exact typed.elim
  | eip2930 gasPrice => exact ⟨gasPrice, rfl⟩
  | eip1559 maxFeePerGas maxPriorityFeePerGas =>
      exact absurd fits (by simp [FitsType, TxTypes.legacy, TxTypes.eip1559,
        TxTypes.eip7702])
  | eip4844 => exact fits.elim
  | eip7702 maxFeePerGas maxPriorityFeePerGas =>
      exact absurd fits (by simp [FitsType, TxTypes.legacy, TxTypes.eip1559,
        TxTypes.eip7702])

theorem Consumes.acceptable_iff (consumes : Consumes decodeEnvelope format)
    {baseFee : Nat} {data : List UInt8} :
    Acceptable decodeEnvelope baseFee data ↔
      data.length ≤ maxTransactionSize ∧
        ((∃ tx encoding rest, format.Encodes tx encoding ∧
            CoversBaseFee baseFee tx ∧ data = encoding ++ rest) ∨
          Wrapped format baseFee data) := by
  constructor
  · rintro ⟨small, tx, txType, rest, detected, decoded, fits, covers⟩
    refine ⟨small, ?_⟩
    obtain ⟨encoding, encodes, front | ⟨typed, inside⟩⟩ :=
      (consumes.decodes _ _ _).mp decoded
    · exact .inl ⟨tx, encoding, rest, encodes, covers, front⟩
    · obtain ⟨first, more, opening, high⟩ := consumes.wraps encoding
      rw [inside, opening, List.cons_append,
        detectTransactionType_of_high high] at detected
      cases detected
      obtain ⟨gasPrice, rfl⟩ := exists_eip2930 typed fits
      exact .inr ⟨gasPrice, encoding, rest, encodes, covers, inside⟩
  · rintro ⟨small, ⟨tx, encoding, rest, encodes, covers, front⟩ |
      ⟨gasPrice, encoding, rest, encodes, covers, inside⟩⟩
    · have decoded := (consumes.decodes data tx rest).mpr
        ⟨encoding, encodes, .inl front⟩
      obtain ⟨first, more, opening, starts⟩ :=
        consumes.starts tx encoding encodes
      obtain ⟨txType, detected, fits⟩ :=
        exists_fitsType starts covers (more ++ rest)
      rw [← List.cons_append, ← opening, ← front] at detected
      exact ⟨small, tx, txType, rest, detected, decoded, fits, covers⟩
    · have decoded := (consumes.decodes data _ rest).mpr
        ⟨encoding, encodes, .inr ⟨trivial, inside⟩⟩
      obtain ⟨first, more, opening, high⟩ := consumes.wraps encoding
      have detected := detectTransactionType_of_high high
        (more ++ (encoding ++ rest))
      rw [← List.cons_append, ← opening, ← inside] at detected
      exact ⟨small, _, _, rest, detected, decoded, .inl rfl, covers⟩

theorem Submits.unique {param : Option String} {first second : List UInt8}
    (one : Submits param first) (other : Submits param second) :
    first = second := by
  obtain ⟨rawTx, extracted, decoded⟩ := one
  obtain ⟨otherTx, otherExtracted, otherDecoded⟩ := other
  obtain rfl := Except.ok.inj (extracted.symm.trans otherExtracted)
  exact Except.ok.inj (decoded.symm.trans otherDecoded)

end Encodings

section Hashes

variable {upstream : Upstream} {provider : Provider}
  {effectiveBaseFee : Except String Nat} {param : Option String}

theorem accepted_of_response {queue : QueueReply} {daemon : WalletDaemon}
    {task : MiningTask} {hash : String}
    (responded : (sendRawTransaction upstream provider effectiveBaseFee queue
      daemon task param).response = .ok hash) :
    ∃ txBytes, validateAcceptRequest provider.decodeEnvelope
        effectiveBaseFee param = .ok txBytes ∧
      hash = transactionHash provider txBytes := by
  unfold sendRawTransaction at responded
  cases accepted : validateAcceptRequest provider.decodeEnvelope
      effectiveBaseFee param with
  | error fault =>
      rw [accepted] at responded
      cases responded
  | ok txBytes =>
      rw [accepted] at responded
      cases queue with
      | accepted =>
          cases responded
          exact ⟨txBytes, rfl, rfl⟩
      | full => exact absurd responded (Outcome.err_ne_ok _ _)
      | closed => exact absurd responded (Outcome.err_ne_ok _ _)

/-- A wallet that does not answer. -/
def silentDaemon : WalletDaemon where
  createUnsignedTransactions := fun _ _ => .timedOut
  sign := fun _ _ => .timedOut
  broadcast := fun _ => .timedOut

theorem response_of_accepted {txBytes : List UInt8}
    (accepted : validateAcceptRequest provider.decodeEnvelope
      effectiveBaseFee param = .ok txBytes) :
    (sendRawTransaction upstream provider effectiveBaseFee .accepted
        silentDaemon .completed param).response =
      .ok (transactionHash provider txBytes) := by
  rw [sendRawTransaction, accepted]

/-- The client gets the hash of one transaction exactly when nothing follows an
acceptable transaction and none is wrapped in a string. -/
theorem hashesOneTransaction_iff {format : EnvelopeFormat}
    (consumes : Consumes provider.decodeEnvelope format) :
    HashesOneTransaction format upstream provider effectiveBaseFee param ↔
      ∀ txBytes baseFee, Submits param txBytes →
        effectiveBaseFee = .ok baseFee →
        txBytes.length ≤ maxTransactionSize →
          ¬Overlong format baseFee txBytes ∧
            ¬Wrapped format baseFee txBytes := by
  constructor
  · intro hashes txBytes baseFee submits fetched small
    have one (acceptable : Acceptable provider.decodeEnvelope baseFee
        txBytes) :
        ∃ tx, provider.decodeEnvelope txBytes = .ok (tx, []) ∧
          format.Encodes tx txBytes :=
      (hashes _ _ _ _ (response_of_accepted
        (validateAcceptRequest_eq_ok.mpr
          ⟨submits, baseFee, fetched, acceptable⟩)) txBytes submits).2
    constructor
    · rintro ⟨tx, encoding, rest, encodes, covers, more, front⟩
      have acceptable := consumes.acceptable_iff.mpr
        ⟨small, .inl ⟨tx, encoding, rest, encodes, covers, front⟩⟩
      obtain ⟨alone, decoded, -⟩ := one acceptable
      have consumed := (consumes.decodes txBytes tx rest).mpr
        ⟨encoding, encodes, .inl front⟩
      rw [decoded] at consumed
      cases consumed
      exact more rfl
    · intro wrapped
      have acceptable := consumes.acceptable_iff.mpr ⟨small, .inr wrapped⟩
      obtain ⟨gasPrice, encoding, rest, encodes, covers, inside⟩ := wrapped
      obtain ⟨tx, decoded, encodesAll⟩ := one acceptable
      have consumed := (consumes.decodes txBytes (.eip2930 gasPrice) rest).mpr
        ⟨encoding, encodes, .inr ⟨trivial, inside⟩⟩
      rw [decoded] at consumed
      cases consumed
      -- an encoding starts with its type, the string with a larger byte
      obtain ⟨first, more, opening, starts⟩ :=
        consumes.starts _ _ encodesAll
      obtain ⟨high, others, wraps, above⟩ := consumes.wraps encoding
      rw [inside, wraps, List.cons_append] at opening
      obtain ⟨rfl, -⟩ := List.cons_eq_cons.mp opening
      obtain rfl := starts
      exact absurd above (by decide)
  · intro single queue daemon task hash responded txBytes submits
    obtain ⟨others, accepted, rfl⟩ := accepted_of_response responded
    obtain ⟨submitsOthers, baseFee, fetched, acceptable⟩ :=
      validateAcceptRequest_eq_ok.mp accepted
    obtain rfl := submits.unique submitsOthers
    obtain ⟨small, whole⟩ := consumes.acceptable_iff.mp acceptable
    obtain ⟨notOverlong, notWrapped⟩ :=
      single txBytes baseFee submits fetched small
    refine ⟨rfl, ?_⟩
    rcases whole with ⟨tx, encoding, rest, encodes, covers, front⟩ | wrapped
    · have nothing : rest = [] := by
        by_contra more
        exact notOverlong ⟨tx, encoding, rest, encodes, covers, more, front⟩
      subst nothing
      rw [List.append_nil] at front
      subst front
      refine ⟨tx, (consumes.decodes _ tx []).mpr ?_, encodes⟩
      exact ⟨txBytes, encodes, .inl (List.append_nil _).symm⟩
    · exact absurd wrapped notWrapped

/-- A format with the one legacy transaction. -/
def legacyFormat : EnvelopeFormat where
  Encodes tx encoding := tx = .legacy 20000000000 ∧ encoding = legacyTx
  header encoding := [0xb8, UInt8.ofNat encoding.length]

def frontProvider : Provider :=
  { legacyProvider with
    decodeEnvelope := fun data =>
      if legacyTx.isPrefixOf data then
        .ok (.legacy 20000000000, data.drop legacyTx.length)
      else .error "unexpected type" }

theorem consumes_frontProvider :
    Consumes frontProvider.decodeEnvelope legacyFormat where
  decodes := by
    intro data tx rest
    simp only [frontProvider, List.isPrefixOf_iff_prefix, legacyFormat]
    constructor
    · intro decoded
      split at decoded
      · rename_i opening
        cases decoded
        refine ⟨legacyTx, ⟨rfl, rfl⟩, .inl ?_⟩
        exact List.prefix_iff_eq_append.mp opening |>.symm
      · cases decoded
    · rintro ⟨encoding, ⟨rfl, rfl⟩, rfl | ⟨typed, -⟩⟩
      · rw [if_pos (List.prefix_append legacyTx rest), List.drop_left]
      · exact typed.elim
  starts := by
    rintro tx encoding ⟨rfl, rfl⟩
    have list : (0xc0 : UInt8) ≤ 0xf8 := by decide
    exact ⟨0xf8, _, rfl, list⟩
  wraps := fun encoding => ⟨0xb8, _, rfl, by decide⟩

theorem legacyTx_hashed :
    HashesOneTransaction legacyFormat devnet frontProvider (.ok 1000000000)
      (some ("0x" ++ Hex.encode legacyTx)) := by
  apply (hashesOneTransaction_iff consumes_frontProvider).mpr
  intro txBytes baseFee submits fetched small
  obtain rfl := submits.unique (submits_encode legacyTx)
  constructor
  · rintro ⟨tx, encoding, rest, ⟨-, rfl⟩, -, more, whole⟩
    exact more (List.append_right_eq_self.mp whole.symm)
  · rintro ⟨gasPrice, encoding, rest, ⟨other, -⟩, -, -⟩
    cases other

/-- One more byte behind the transaction changes the hash that the client
gets. -/
theorem overlongTx_not_hashed :
    ¬HashesOneTransaction legacyFormat devnet frontProvider (.ok 1000000000)
      (some ("0x" ++ Hex.encode (legacyTx ++ [0]))) := by
  intro hashes
  have submits := submits_encode (legacyTx ++ [0])
  have acceptable : Acceptable frontProvider.decodeEnvelope 1000000000
      (legacyTx ++ [0]) := by
    apply consumes_frontProvider.acceptable_iff.mpr
    refine ⟨by decide, .inl ⟨_, legacyTx, [0], ⟨rfl, rfl⟩, ?_, rfl⟩⟩
    exact Nat.le_of_ble_eq_true rfl
  have accepted := validateAcceptRequest_eq_ok.mpr
    ⟨submits, _, rfl, acceptable⟩
  obtain ⟨-, tx, -, -, same⟩ :=
    hashes _ _ _ _ (response_of_accepted accepted) _ submits
  exact absurd same (by decide)

end Hashes

end RpcProvider
