import Igra.RpcProvider.LaneSafety
import Igra.RpcProvider.Transaction

/-!
# Payload integrity

The bytes of an accepted raw transaction travel through a payload, a batch of
the wallet, the miner, the wallet's signer and its submission.  What reaches
the node still carries them.
-/

open Kaspa Rust Kaswallet

namespace RpcProvider

section Framing

variable {zlib : Zlib} {txBytes framed : List UInt8}

/-- The payload with the nonce that mining wrote. -/
def minedPayload (zlib : Zlib) (txBytes : List UInt8) (nonce : UInt32) :
    IgraPayload :=
  { igraPayload zlib txBytes with nonce := ⟨nonceBytes nonce, rfl⟩ }

/-- Writing a nonce over the end of the framed payload frames the payload with
that nonce. -/
theorem serializePayload_minedPayload
    (serialized : serializePayload (igraPayload zlib txBytes) = .ok framed)
    (nonce : UInt32) :
    serializePayload (minedPayload zlib txBytes nonce) =
      .ok (framed.take (framed.length - nonceLen) ++ nonceBytes nonce) := by
  obtain ⟨filled, small, rfl⟩ := serializePayload_eq_ok.mp serialized
  apply serializePayload_eq_ok.mpr
  refine ⟨filled, small, ?_⟩
  rw [← List.cons_append, List.length_append,
    (igraPayload zlib txBytes).nonce.size, nonceLen, Nat.add_sub_cancel,
    List.take_left]
  rfl

theorem rawTransactionOf_minedPayload (inverts : zlib.Inverts)
    (nonce : UInt32) :
    rawTransactionOf zlib (minedPayload zlib txBytes nonce) = some txBytes :=
  rawTransactionOf_igraPayload inverts txBytes

end Framing

section Batches

variable (upstream : Upstream)

/-- The replies to create and to sign are those of wallet services. -/
structure ServedByWallet (daemon : WalletDaemon) : Prop where
  creates : ∀ attempt description unsigned,
    daemon.createUnsignedTransactions attempt description =
        .response unsigned →
      ∃ service moment fuel,
        KasWalletService.createUnsignedTransactions upstream service moment
          (some description) fuel = .ok unsigned
  signs : SignsAsWallet upstream daemon

/-- Only the last message has a payload. -/
def CarriesLast (messages : List Proto.WalletSignableTransaction)
    (payload : List UInt8) : Prop :=
  ∃ front carrier, messages = front ++ [carrier] ∧
    (∀ message ∈ front, protoPayload message = []) ∧
    protoPayload carrier = payload

variable {upstream} {caller : WalletCaller} {daemon : WalletDaemon}
  {miner : MiningConfig} {task : MiningTask}
  {unsigned batch : List Proto.WalletSignableTransaction}
  {payload : List UInt8}

theorem carriesLast_of_createUnsignedTransactions
    {service : KasWalletService} {moment : KasWalletService.CreateMoment}
    {description : TransactionDescription} {fuel : Nat}
    (created : service.createUnsignedTransactions upstream moment
      (some description) fuel = .ok unsigned) :
    CarriesLast unsigned description.payload := by
  obtain ⟨front, last, rfl, splits, carrier⟩ :=
    KasWalletService.generated_of_createUnsignedTransactions created
  refine ⟨front.map (walletSignableTransactionToProto upstream),
    walletSignableTransactionToProto upstream last, by simp, ?_, ?_⟩
  · intro message member
    obtain ⟨split, inFront, rfl⟩ := List.mem_map.mp member
    rw [protoPayload_walletSignableTransactionToProto]
    exact (splits split inFront).carries
  · rw [protoPayload_walletSignableTransactionToProto]
    exact carrier.carries

/-- Mining replaces the last bytes of the last payload. -/
theorem CarriesLast.mined (carries : CarriesLast unsigned payload)
    (prepared : minedBatch upstream caller miner task unsigned =
      .ok batch) :
    ∃ nonce, CarriesLast batch
      (payload.take (payload.length - nonceLen) ++ nonceBytes nonce) := by
  obtain ⟨front, carrier, rfl, empty, rfl⟩ := carries
  obtain ⟨staging, last, updated, same, rfl, -, ⟨message⟩⟩ :=
    exists_of_minedBatch prepared
  obtain ⟨rfl, ⟨⟩⟩ := List.append_inj' same rfl
  refine ⟨message.stats.noncesTried, front, updated, rfl, empty, ?_⟩
  rw [← payload_of_protoToSignableTransaction message.decoded,
    ← message.reworked.payload, protoPayload, message.innerTransaction]
  rfl

/-- Signing keeps it. -/
theorem CarriesLast.signed {service : KasWalletService}
    {signatures : Signatures} {password : String}
    {response : List Proto.WalletSignableTransaction}
    (carries : CarriesLast batch payload)
    (succeeded : service.sign upstream signatures batch password =
      .ok response) :
    CarriesLast response payload := by
  obtain ⟨front, carrier, rfl, empty, rfl⟩ := carries
  obtain ⟨start, finish, rfl, before, last⟩ :=
    split_last (KasWalletService.signedMessages_of_sign succeeded)
  refine ⟨start, finish, rfl, ?_, protoPayload_of_signedMessage last⟩
  clear succeeded
  induction before with
  | nil => simp
  | @cons request response _ _ one _ ih =>
      intro message member
      rcases List.mem_cons.mp member with rfl | later
      · rw [protoPayload_of_signedMessage one]
        exact empty request List.mem_cons_self
      · exact ih (fun other inRest =>
          empty other (List.mem_cons_of_mem _ inRest)) message later

/-- The payloads sent to the node are those of the messages, from the front
on, and all of them when the submission succeeds. -/
theorem payloads_of_broadcast (service : KasWalletService)
    (surroundings : SubmitSurroundings) (manager : UtxoManager)
    (messages : List Proto.WalletSignableTransaction) :
    let submission :=
      service.broadcast upstream surroundings manager messages
    submission.sent.map Transaction.payload <+:
        messages.map protoPayload ∧
      ∀ ids, submission.result = .ok ids →
        submission.sent.map Transaction.payload =
          messages.map protoPayload := by
  intro submission
  cases decoding : Outcome.collect
      (walletSignableTransactionFromProto upstream) messages with
  | error fault =>
      have stopped : submission = ⟨.error fault, manager, []⟩ := by
        simp only [submission, KasWalletService.broadcast, decoding]
      rw [stopped]
      exact ⟨List.nil_prefix, fun _ done => by cases done⟩
  | ok decoded =>
      have payloads : (decoded.map WalletSignableTransaction.tx).map
          Transaction.payload = messages.map protoPayload := by
        have aligned := Outcome.collect_eq_ok.mp decoding
        clear decoding
        induction aligned with
        | nil => rfl
        | cons first _ ih =>
            simp only [List.map_cons]
            rw [ih, payload_of_walletSignableTransactionFromProto first]
      have submitted : submission = submitTransactions upstream
          service.configuredSubnetworkId surroundings 0 manager decoded := by
        simp only [submission, KasWalletService.broadcast, decoding]
      obtain ⟨sent, all⟩ := @sent_of_submitTransactions upstream
        service.configuredSubnetworkId surroundings 0 manager decoded
      rw [submitted, ← payloads]
      exact ⟨sent.map _, fun ids done => by rw [all ids done]⟩

end Batches

section Requests

variable {upstream : Upstream} {provider : Provider}
  {effectiveBaseFee : Except String Nat} {queue : QueueReply}
  {daemon : WalletDaemon} {task : MiningTask} {param : Option String}
  {txBytes : List UInt8}

/-- The worker is called with the accepted bytes. -/
theorem calls_of_accepted
    (accepted : validateAcceptRequest provider.decodeEnvelope
      effectiveBaseFee param = .ok txBytes) :
    (sendRawTransaction upstream provider effectiveBaseFee .accepted daemon
        task param).calls =
      (processWalletCall upstream provider daemon task txBytes).calls := by
  rw [sendRawTransaction, accepted]

/-- A broadcast batch is the daemon's signature of a mined batch that was
created for the payload of the accepted bytes. -/
theorem exists_of_broadcast
    {signed : List Proto.WalletSignableTransaction}
    (accepted : validateAcceptRequest provider.decodeEnvelope
      effectiveBaseFee param = .ok txBytes)
    (broadcasting : .broadcast signed ∈ (sendRawTransaction upstream provider
      effectiveBaseFee queue daemon task param).calls) :
    ∃ framed attempt description unsigned batch,
      serializePayload (igraPayload provider.zlib txBytes) = .ok framed ∧
        description.payload = framed ∧
        daemon.createUnsignedTransactions attempt description =
          .response unsigned ∧
        minedBatch upstream provider.caller provider.miner task unsigned =
          .ok batch ∧
        daemon.sign batch provider.caller.password = .response signed := by
  cases queue with
  | full =>
      rw [sendRawTransaction, accepted] at broadcasting
      cases broadcasting
  | closed =>
      rw [sendRawTransaction, accepted] at broadcasting
      cases broadcasting
  | accepted =>
      simp only [calls_of_accepted accepted, processWalletCall]
        at broadcasting
      cases serialized :
          serializePayload (igraPayload provider.zlib txBytes) with
      | error fault =>
          rw [serialized] at broadcasting
          cases broadcasting
      | ok framed =>
          simp only [serialized, mineAndSendTransactionWithRetry]
            at broadcasting
          split at broadcasting
          · cases broadcasting
          · rename_i unsigned created
            obtain ⟨attempt, -, replied⟩ :=
              exists_attempt_of_createAttempts created
            obtain ⟨batch, prepared, same | ⟨reply, same, signs⟩⟩ :=
              calls_of_completeTransactionFlow broadcasting
            · cases same
            · cases same
              exact ⟨framed, attempt, _, unsigned, batch, rfl, rfl, replied,
                prepared, signs⟩

/-- A wallet call that succeeds has broadcast a batch. -/
theorem exists_broadcast_of_processWalletCall {hash : String}
    (succeeded : (processWalletCall upstream provider daemon task
      txBytes).result = .ok hash) :
    ∃ signed, .broadcast signed ∈
      (processWalletCall upstream provider daemon task txBytes).calls := by
  unfold processWalletCall at succeeded ⊢
  cases serialized : serializePayload (igraPayload provider.zlib txBytes) with
  | error fault =>
      simp only [serialized, Outcome.mapErr_eq_ok] at succeeded
      cases succeeded
  | ok framed =>
      simp only [serialized, Outcome.map_eq_ok,
        Outcome.mapErr_eq_ok] at succeeded
      obtain ⟨transactionId, ended, -⟩ := succeeded
      dsimp only
      unfold mineAndSendTransactionWithRetry at ended ⊢
      split at ended
      · cases ended
      · exact broadcast_mem_calls ended

/-- Whatever mining does, the batch that is broadcast for an accepted raw
transaction carries a payload that reads back as those bytes, and mining has
changed only its last four bytes. -/
theorem broadcast_carries_rawTransaction
    (inverts : provider.zlib.Inverts) (served : ServedByWallet upstream daemon)
    (accepted : validateAcceptRequest provider.decodeEnvelope
      effectiveBaseFee param = .ok txBytes)
    {signed : List Proto.WalletSignableTransaction}
    (broadcasting : .broadcast signed ∈ (sendRawTransaction upstream provider
      effectiveBaseFee queue daemon task param).calls) :
    ∃ framed nonce payload view,
      serializePayload (igraPayload provider.zlib txBytes) = .ok framed ∧
        payload = framed.take (framed.length - nonceLen) ++
          nonceBytes nonce ∧
        payload.length = framed.length ∧
        readPayload payload = some view ∧
        view.version = payloadVersion ∧
        view.nonce.bytes = nonceBytes nonce ∧
        rawTransactionOf provider.zlib view = some txBytes ∧
        CarriesLast signed payload ∧
        ∀ service surroundings manager,
          let submission := KasWalletService.broadcast upstream service
            surroundings manager signed
          submission.sent.map Transaction.payload <+:
              signed.map protoPayload ∧
            ∀ ids, submission.result = .ok ids →
              submission.sent.map Transaction.payload =
                signed.map protoPayload := by
  obtain ⟨framed, attempt, description, unsigned, batch, serialized, carried,
    created, prepared, signs⟩ := exists_of_broadcast accepted broadcasting
  obtain ⟨creator, moment, fuel, made⟩ :=
    served.creates attempt description unsigned created
  obtain ⟨signer, signatures, succeeded⟩ := served.signs _ _ _ signs
  have unmined := carriesLast_of_createUnsignedTransactions made
  rw [carried] at unmined
  obtain ⟨nonce, mined⟩ := unmined.mined prepared
  have minedSerialized := serializePayload_minedPayload serialized nonce
  refine ⟨framed, nonce, _, minedPayload provider.zlib txBytes nonce,
    serialized, rfl, ?_, readPayload_serializePayload minedSerialized, rfl,
    rfl, rawTransactionOf_minedPayload inverts nonce,
    mined.signed succeeded, ?_⟩
  · obtain ⟨-, -, shape⟩ := serializePayload_eq_ok.mp serialized
    have room : nonceLen ≤ framed.length := by
      rw [shape, List.length_cons, List.length_append,
        FixedBytes.size, nonceLen]
      omega
    rw [List.length_append, List.length_take, nonceBytes_length,
      Nat.min_eq_left (Nat.sub_le _ _), Nat.sub_add_cancel room]
  · intro service surroundings manager
    exact payloads_of_broadcast service surroundings manager signed

end Requests

section LegacyRun

/-- A signed legacy transaction with a gas price of 20 gwei. -/
def legacyTx : List UInt8 :=
  [0xf8, 0x6c, 0x09, 0x85, 0x04, 0xa8, 0x17, 0xc8, 0x00, 0x82, 0x52, 0x08,
   0x94, 0x35, 0x35, 0x35, 0x35, 0x35, 0x35, 0x35, 0x35, 0x35, 0x35, 0x35,
   0x35, 0x35, 0x35, 0x35, 0x35, 0x35, 0x35, 0x35, 0x35, 0x88, 0x0d, 0xe0,
   0xb6, 0xb3, 0xa7, 0x64, 0x00, 0x00, 0x80, 0x25, 0xa0, 0x28, 0xef, 0x61,
   0x34, 0x0b, 0xd9, 0x39, 0xbc, 0x21, 0x95, 0xfe, 0x53, 0x75, 0x67, 0x86,
   0x60, 0x03, 0xe1, 0xa1, 0x5d, 0x3c, 0x71, 0xff, 0x63, 0xe1, 0x59, 0x06,
   0x20, 0xaa, 0x63, 0x62, 0x76, 0xa0, 0x67, 0xcb, 0xe9, 0xd8, 0x99, 0x7f,
   0x76, 0x1a, 0xec, 0xb7, 0x03, 0x30, 0x4b, 0x38, 0x00, 0xcc, 0xf5, 0x55,
   0xc9, 0xf3, 0xdc, 0x64, 0x21, 0x4b, 0x29, 0x7f, 0xb1, 0x96, 0x6a, 0x3b,
   0x6d, 0x83]

/-- Its zlib stream. -/
def zippedLegacyTx : List UInt8 :=
  [0x78, 0x9c, 0xfb, 0x91, 0xc3, 0xd9, 0xca, 0xb2, 0x42, 0xfc, 0x04, 0x43,
   0x53, 0x10, 0xc7, 0x14, 0x53, 0x2c, 0xa0, 0x83, 0xf7, 0xc1, 0xb6, 0xcd,
   0xcb, 0x53, 0x18, 0x18, 0x1a, 0x54, 0x17, 0x68, 0xbc, 0x4f, 0x34, 0xe1,
   0xbe, 0x69, 0xb9, 0x47, 0x71, 0xea, 0xbf, 0xe0, 0xd2, 0xf4, 0xb6, 0x04,
   0xe6, 0x87, 0x0b, 0x63, 0x6d, 0x0a, 0xff, 0x27, 0x3f, 0x8c, 0x64, 0x53,
   0x58, 0x95, 0x9c, 0x54, 0xb6, 0x20, 0xfd, 0xf4, 0xcb, 0x1b, 0x33, 0xeb,
   0xcb, 0xa4, 0xde, 0x6c, 0x67, 0x36, 0xf0, 0xb6, 0x60, 0x38, 0xf3, 0x35,
   0xf4, 0xe4, 0xe7, 0x3b, 0x29, 0x8a, 0xde, 0x9a, 0xf5, 0x1b, 0xa7, 0x65,
   0x59, 0xe7, 0x36, 0x03, 0x00, 0xde, 0x3b, 0x2d, 0x5a]

def legacyZlib : Zlib where
  compress data :=
    if data = legacyTx then .ok zippedLegacyTx
    else .error "Failed to compress data"
  decompress compressed :=
    if compressed = zippedLegacyTx then some legacyTx else none

theorem inverts_legacyZlib : legacyZlib.Inverts := by
  intro data compressed succeeded
  unfold legacyZlib at succeeded ⊢
  by_cases known : data = legacyTx
  · simp only [known, if_true, Except.ok.injEq] at succeeded ⊢
    rw [if_pos succeeded.symm]
  · simp only [known, if_false] at succeeded
    cases succeeded

/-- The hash of the transaction. -/
def legacyTxHash : FixedBytes 32 where
  bytes :=
    [0x33, 0x46, 0x9b, 0x22, 0xe9, 0xf6, 0x36, 0x35, 0x6c, 0x41, 0x60,
     0xa8, 0x7e, 0xb1, 0x9d, 0xf5, 0x2b, 0x74, 0x12, 0xe8, 0xea, 0xc3,
     0x2a, 0x4a, 0x55, 0xff, 0xe8, 0x8e, 0xa8, 0x35, 0x07, 0x88]
  size := rfl

def legacyProvider : Provider where
  zlib := legacyZlib
  keccak256 _ := legacyTxHash
  decodeEnvelope data :=
    if data = legacyTx then .ok (.legacy 20000000000, [])
    else .error "unexpected length"
  caller := laneCaller
  miner := laneMiner
  maxAttempts := 3

theorem servedByWallet_laneDaemon : ServedByWallet devnet laneDaemon where
  creates _ _ _ replied :=
    ⟨laneService, laneMoment, 1, replyOf_eq_response replied⟩
  signs := signsAsWallet_laneDaemon

/-- The request is made while the base fee is one gwei. -/
def legacyRequest : SentTransaction :=
  sendRawTransaction devnet legacyProvider (.ok 1000000000) .accepted
    laneDaemon .completed (some ("0x" ++ Hex.encode legacyTx))

theorem legacyRequest_accepted :
    validateAcceptRequest legacyProvider.decodeEnvelope (.ok 1000000000)
      (some ("0x" ++ Hex.encode legacyTx)) = .ok legacyTx := by
  rw [validateAcceptRequest, extractRawTransaction_encode, Outcome.ok_bind,
    decodeHexTransaction_encode, Outcome.ok_bind]
  decide +kernel

theorem legacyRequest_run :
    (processWalletCall devnet legacyProvider laneDaemon .completed
      legacyTx).result.Returns fun _ => True := by
  unfold legacyProvider laneDaemon laneCaller
  rw [devnet_eq_quick]
  decide +kernel

/-- The transaction is compressed, mined to its fourth nonce and broadcast. -/
theorem legacyRequest_carries_legacyTx :
    ∃ signed payload view,
      .broadcast signed ∈ legacyRequest.calls ∧
        CarriesLast signed payload ∧
        readPayload payload = some view ∧
        rawTransactionOf legacyZlib view = some legacyTx := by
  obtain ⟨hash, succeeded, -⟩ := legacyRequest_run
  obtain ⟨signed, made⟩ := exists_broadcast_of_processWalletCall succeeded
  have broadcasting : .broadcast signed ∈ legacyRequest.calls := by
    rw [legacyRequest, calls_of_accepted legacyRequest_accepted]
    exact made
  obtain ⟨framed, nonce, payload, view, -, -, -, read, -, -, carried,
    carries, -⟩ :=
    broadcast_carries_rawTransaction inverts_legacyZlib
      servedByWallet_laneDaemon legacyRequest_accepted broadcasting
  exact ⟨signed, payload, view, broadcasting, carries, read, carried⟩

end LegacyRun

end RpcProvider
