import Igra.Kaswallet.FeeCap
import Igra.Kaswallet.Service
import Igra.RpcProvider.WalletCaller

/-!
# Lane safety

With lane enforcement on, no batch is signed or broadcast unless its last
transaction is on the lane and the others carry no payload.
-/

open Kaspa Rust Kaswallet

namespace RpcProvider

section Batches

variable (upstream : Upstream)

/-- The last message holds a transaction on the lane, the others no
payload. -/
def LaneBatch (enforcement : LaneEnforcement)
    (messages : List Proto.WalletSignableTransaction) : Prop :=
  ∃ staging last tx,
    messages = staging ++ [last] ∧
      (∀ message ∈ staging, protoPayloadLen message = 0) ∧
      carriedTransaction last = .ok tx ∧
      LaneConforming upstream enforcement tx

/-- The message encodes a transaction that the wallet can hold. -/
def FromWallet (message : Proto.WalletSignableTransaction) : Prop :=
  ∃ transaction : WalletSignableTransaction,
    SignableEncodable transaction.transaction.inner ∧
      message = walletSignableTransactionToProto upstream transaction

/-- The replies to sign are those of a wallet service. -/
def SignsAsWallet (daemon : WalletDaemon) : Prop :=
  ∀ batch password signed, daemon.sign batch password = .response signed →
    ∃ service signatures,
      KasWalletService.sign upstream service signatures batch password =
        .ok signed

end Batches

section Signing

variable {upstream : Upstream} {caller : WalletCaller}
  {daemon : WalletDaemon} {miner : MiningConfig} {task : MiningTask}
  {enforcement : LaneEnforcement}

theorem carriedTransaction_of_innerTransaction
    {message : Proto.WalletSignableTransaction} {tx : Transaction}
    (encodable : TransactionEncodable tx) (massless : tx.storageMass = 0)
    (inner : innerTransaction message =
      some (transactionToProto upstream tx)) :
    carriedTransaction message = .ok tx := by
  rw [carriedTransaction, inner, Outcome.ofOption, Outcome.ok_bind,
    protoTransactionToKaspa_transactionToProto encodable, ← massless]

private theorem laneBatch_of_minedBatch
    {unsigned batch : List Proto.WalletSignableTransaction}
    (enforced : caller.laneEnforcement = some enforcement)
    (prepared : minedBatch upstream caller miner task unsigned =
      .ok batch) :
    LaneBatch upstream enforcement batch := by
  obtain ⟨staging, last, updated, -, rfl, empty, ⟨message⟩⟩ :=
    exists_of_minedBatch prepared
  exact ⟨staging, updated, message.mined.tx, rfl, empty,
    carriedTransaction_of_innerTransaction message.encodable.tx
      message.massless message.innerTransaction,
    laneConforming_of_enforceLane enforced message.passed⟩

/-- Signatures change nothing that the lane asks for. -/
theorem LaneConforming.signed {before after : SignableTransaction}
    (ignored : upstream.IdsIgnoreSignatures)
    (conforming : LaneConforming upstream enforcement before.tx)
    (same : SameUnsigned before after) :
    LaneConforming upstream enforcement after.tx where
  version := by
    rw [same.version]
    exact conforming.version
  subnetwork := by
    rw [same.subnetworkId]
    exact conforming.subnetwork
  payload := by
    rw [same.payload]
    exact conforming.payload
  txId := by
    rw [same.transactionId ignored]
    exact conforming.txId

/-- Lists that are related item by item end together. -/
theorem split_last {α β : Type} {related : α → β → Prop}
    {front : List α} {last : α} {items : List β}
    (aligned : List.Forall₂ related (front ++ [last]) items) :
    ∃ start finish, items = start ++ [finish] ∧
      List.Forall₂ related front start ∧ related last finish := by
  induction front generalizing items with
  | nil =>
      obtain ⟨finish, nothing, first, rest, rfl⟩ :=
        List.forall₂_cons_left_iff.mp aligned
      obtain rfl := List.forall₂_nil_left_iff.mp rest
      exact ⟨[], finish, rfl, .nil, first⟩
  | cons head front ih =>
      obtain ⟨item, items, first, rest, rfl⟩ :=
        List.forall₂_cons_left_iff.mp aligned
      obtain ⟨start, finish, rfl, before, ended⟩ := ih rest
      exact ⟨item :: start, finish, rfl, .cons first before, ended⟩

/-- Signing keeps the payload. -/
theorem protoPayload_of_signedMessage
    {request response : Proto.WalletSignableTransaction}
    (signed : KasWalletService.SignedMessage upstream request response) :
    protoPayload response = protoPayload request := by
  obtain ⟨before, after, decoded, kept, rfl⟩ := signed
  have payload : after.tx.payload = before.tx.payload := kept.same.payload
  rw [protoPayload_walletSignableTransactionToProto, payload,
    payload_of_walletSignableTransactionFromProto decoded]

theorem payloadFree_of_signedMessages
    {staging signed : List Proto.WalletSignableTransaction}
    (aligned : List.Forall₂ (KasWalletService.SignedMessage upstream) staging
      signed)
    (empty : ∀ message ∈ staging, protoPayloadLen message = 0) :
    ∀ message ∈ signed, protoPayloadLen message = 0 := by
  induction aligned with
  | nil => simp
  | @cons request response _ _ one _ ih =>
      intro message member
      rcases List.mem_cons.mp member with rfl | later
      · rw [protoPayloadLen_eq, protoPayload_of_signedMessage one,
          ← protoPayloadLen_eq]
        exact empty request List.mem_cons_self
      · exact ih (fun other inRest =>
          empty other (List.mem_cons_of_mem _ inRest)) message later

theorem laneBatch_of_sign
    {unsigned batch signed : List Proto.WalletSignableTransaction}
    {service : KasWalletService} {signatures : Signatures}
    {password : String}
    (ignored : upstream.IdsIgnoreSignatures)
    (enforced : caller.laneEnforcement = some enforcement)
    (prepared : minedBatch upstream caller miner task unsigned = .ok batch)
    (succeeded : service.sign upstream signatures batch password =
      .ok signed) :
    LaneBatch upstream enforcement signed := by
  obtain ⟨staging, last, updated, -, rfl, empty, ⟨message⟩⟩ :=
    exists_of_minedBatch prepared
  obtain ⟨start, finish, rfl, front, before, after, decoded, kept, rfl⟩ :=
    split_last (KasWalletService.signedMessages_of_sign succeeded)
  have found := message.decode decoded
  have conforming : LaneConforming upstream enforcement before.tx := by
    rw [found]
    exact laneConforming_of_enforceLane enforced message.passed
  have encodable : TransactionEncodable before.tx := by
    rw [found]
    exact message.encodable.tx
  have massless : after.tx.storageMass = 0 := by
    have same : after.tx.storageMass = before.tx.storageMass :=
      kept.same.storageMass
    rw [same, found]
    exact message.massless
  have carried : carriedTransaction
      (walletSignableTransactionToProto upstream after) = .ok after.tx :=
    carriedTransaction_of_innerTransaction
      (kept.same.transactionEncodable encodable) massless
      (innerTransaction_walletSignableTransactionToProto after)
  exact ⟨start, _, after.tx, rfl, payloadFree_of_signedMessages front empty,
    carried, conforming.signed ignored kept.same⟩

end Signing

section Failures

variable {upstream : Upstream} {caller : WalletCaller}
  {daemon : WalletDaemon} {miner : MiningConfig} {task : MiningTask}

private theorem updateProtoWithMinedTransaction_settled
    {last : Proto.WalletSignableTransaction} {mined : SignableTransaction}
    (encodable : SignableEncodable mined) :
    (updateProtoWithMinedTransaction upstream last mined).Settled := by
  unfold updateProtoWithMinedTransaction
  apply (Outcome.settled_ofOption _ _).bind
  intro signed _
  rw [kaspaSignableToProto_eq upstream encodable, Outcome.ok_bind]
  exact Outcome.settled_ok _

/-- If the last message can be decoded or refused, mining it ends with a
message or an error. -/
theorem mineMessage_settled {last : Proto.WalletSignableTransaction}
    (readable : (protoToSignableTransaction last).Settled) :
    (mineMessage upstream caller miner task last).Settled := by
  unfold mineMessage
  apply readable.mapErr.bind
  intro signable decoded
  apply enforceLane_settled.bind
  intro _ _
  apply mineTransaction_settled.mapErr.bind
  intro found mined
  have search := exists_mineBlocking_of_mineTransaction
    (Outcome.mapErr_eq_ok.mp mined)
  have reworked := (reworked_of_mineBlocking search).1
  have encodable := reworked.encodable
    (encodable_of_protoToSignableTransaction
      (Outcome.mapErr_eq_ok.mp decoded)).1
  apply enforceLane_settled.bind
  intro _ _
  exact (updateProtoWithMinedTransaction_settled encodable).mapErr

theorem minedBatch_settled
    {unsigned : List Proto.WalletSignableTransaction}
    (readable : ∀ last, unsigned.getLast? = some last →
      (protoToSignableTransaction last).Settled) :
    (minedBatch upstream caller miner task unsigned).Settled := by
  unfold minedBatch
  split
  · exact Outcome.settled_err _
  · rename_i last ending
    apply (checkStaging_settled _ _).bind
    intro _ _
    apply (mineMessage_settled (readable last ending)).bind
    intro updated _
    exact Outcome.settled_ok _

/-- Decoding a message of the wallet does not panic. -/
theorem FromWallet.settled {message : Proto.WalletSignableTransaction}
    (fromWallet : FromWallet upstream message) :
    (protoToSignableTransaction message).Settled := by
  obtain ⟨⟨signed, paths, inputs, outputs⟩, encodable, rfl⟩ := fromWallet
  cases signed with
  | fully signable => exact Outcome.settled_err _
  | partially signable =>
      exact .inl ⟨_, protoSignableToKaspa_signableTransactionToProto upstream
        encodable⟩

theorem fromWallet_of_createUnsignedTransactions
    {service : KasWalletService} {moment : KasWalletService.CreateMoment}
    {description : TransactionDescription} {fuel : Nat}
    {messages : List Proto.WalletSignableTransaction}
    (created : service.createUnsignedTransactions upstream moment
      (some description) fuel = .ok messages) :
    ∀ message ∈ messages, FromWallet upstream message := by
  obtain ⟨front, last, rfl, splits, carrier⟩ :=
    KasWalletService.generated_of_createUnsignedTransactions created
  intro message member
  obtain ⟨transaction, inBatch, rfl⟩ := List.mem_map.mp member
  have generated : ∃ payload, TransactionGenerator.Generated upstream
      service.generator payload transaction := by
    rcases List.mem_append.mp inBatch with isSplit | isLast
    · exact ⟨_, splits transaction isSplit⟩
    · obtain rfl := List.mem_singleton.mp isLast
      exact ⟨_, carrier⟩
  obtain ⟨payload, payments, selectedUtxos, built⟩ := generated
  exact ⟨transaction,
    signableEncodable_of_generateUnsignedTransaction built, rfl⟩

end Failures

section Flows

variable {upstream : Upstream} {caller : WalletCaller}
  {daemon : WalletDaemon} {miner : MiningConfig} {task : MiningTask}
  {enforcement : LaneEnforcement}

/-- With enforcement on, only batches on the lane are signed, and only the
reply to that is broadcast.  When nothing is signed the flow has returned an
error; only a message that no wallet writes can make the decoder panic.  A
batch that the wallet service created is never such. -/
theorem completeTransactionFlow_laneSafe
    (enforced : caller.laneEnforcement = some enforcement)
    (unsigned : List Proto.WalletSignableTransaction) :
    let flow :=
      completeTransactionFlow upstream caller daemon miner task unsigned
    (∀ batch, .sign batch ∈ flow.calls →
      LaneBatch upstream enforcement batch) ∧
    (∀ signed, .broadcast signed ∈ flow.calls →
      ∃ batch, .sign batch ∈ flow.calls ∧
        daemon.sign batch caller.password = .response signed) ∧
    (upstream.IdsIgnoreSignatures → SignsAsWallet upstream daemon →
      ∀ signed, .broadcast signed ∈ flow.calls →
        LaneBatch upstream enforcement signed) ∧
    (flow.calls = [] →
      (∃ error, flow.result = Outcome.err error) ∨
        ∃ last, unsigned.getLast? = some last ∧
          ¬FromWallet upstream last ∧
          ¬(protoToSignableTransaction last).Settled) ∧
    ((∃ service moment description fuel,
        KasWalletService.createUnsignedTransactions upstream service moment
          (some description) fuel = .ok unsigned) →
      flow.calls = [] → ∃ error, flow.result = Outcome.err error) := by
  intro flow
  have stops (uncalled : flow.calls = []) :
      (∃ error, flow.result = Outcome.err error) ∨
        ∃ last, unsigned.getLast? = some last ∧
          ¬FromWallet upstream last ∧
          ¬(protoToSignableTransaction last).Settled := by
    obtain ⟨fault, stopped, ended⟩ := result_of_no_calls uncalled
    by_cases readable : ∀ last, unsigned.getLast? = some last →
        (protoToSignableTransaction last).Settled
    · obtain ⟨error, failure⟩ :=
        (minedBatch_settled readable).exists_err fun batch ready => by
          rw [stopped] at ready
          cases ready
      rw [stopped] at failure
      cases failure
      exact .inl ⟨error, ended⟩
    · push Not at readable
      obtain ⟨last, ending, panics⟩ := readable
      exact .inr ⟨last, ending, fun fromWallet => panics fromWallet.settled,
        panics⟩
  refine ⟨?_, ?_, ?_, stops, ?_⟩
  · intro batch signing
    obtain ⟨prepared, ready, same | ⟨signed, same, -⟩⟩ :=
      calls_of_completeTransactionFlow signing
    · cases same
      exact laneBatch_of_minedBatch enforced ready
    · cases same
  · intro signed broadcasting
    obtain ⟨batch, ready, same | ⟨reply, same, replied⟩⟩ :=
      calls_of_completeTransactionFlow broadcasting
    · cases same
    · cases same
      exact ⟨batch, sign_mem_calls ready, replied⟩
  · intro ignored asWallet signed broadcasting
    obtain ⟨batch, ready, same | ⟨reply, same, replied⟩⟩ :=
      calls_of_completeTransactionFlow broadcasting
    · cases same
    · cases same
      obtain ⟨service, signatures, succeeded⟩ := asWallet _ _ _ replied
      exact laneBatch_of_sign ignored enforced ready succeeded
  · rintro ⟨service, moment, description, fuel, created⟩ uncalled
    rcases stops uncalled with failed | ⟨last, ending, foreign, -⟩
    · exact failed
    · exact absurd (fromWallet_of_createUnsignedTransactions created last
        (List.mem_of_getLast? ending)) foreign

end Flows

section LaneRun

open TransactionGenerator

def sampleLane : SubnetworkId :=
  ⟨0x97 :: 0xb1 :: List.replicate 18 0, rfl⟩

/-- A generator for the lane. -/
def laneGenerator : TransactionGenerator :=
  { sampleGenerator 1 with
    subnetworkId := sampleLane
    txVersion := txVersionToccata }

example :
    TransactionGenerator.new devnet (sampleKeys 1) false .devnet sampleLane
      1000 = .ok laneGenerator :=
  rfl

def laneService : KasWalletService where
  generator := laneGenerator
  decryptMnemonics _ := .ok [⟨"legal winner thank year wave sausage"⟩]
  configuredSubnetworkId := sampleLane

/-- Every key of a path is its last child, repeated, and is its own public
key. -/
def sampleSignatures : Signatures where
  extendedPrivateKey _ := .ok ⟨[]⟩
  derivePath key path :=
    .ok ⟨key.serialized ++ path.children.map UInt32.toUInt8⟩
  secretBytes key :=
    ⟨List.replicate 32 (key.serialized.getLastD 0), List.length_replicate⟩
  xOnlyPublicKey := some
  signSchnorr key _ _ :=
    ⟨key.bytes ++ key.bytes, by rw [List.length_append, key.size]⟩
  verify _ := .ok ()

def laneMoment : KasWalletService.CreateMoment where
  isSynced := true
  surroundings := sampleSurroundings 1.0
  manager := sampleStore [sampleUtxo 1 74000]
  addressManager := sampleBook 1

def laneSurroundings : SubmitSurroundings where
  replies _ := .ok (FixedBytes.zero 32)
  addresses _ := ∅

def replyOf {α : Type} : WalletResult α → GrpcReply α
  | .ok value => .response value
  | .error _ => .status ⟨.internal, ""⟩

theorem replyOf_eq_response {α : Type} {result : WalletResult α} {value : α}
    (replied : replyOf result = .response value) : result = .ok value := by
  cases result with
  | ok other =>
      cases replied
      rfl
  | error fault => cases replied

/-- A daemon that one service answers for. -/
def laneDaemon : WalletDaemon where
  createUnsignedTransactions _ description :=
    replyOf (laneService.createUnsignedTransactions devnet laneMoment
      (some description) 1)
  sign batch password :=
    replyOf (laneService.sign devnet sampleSignatures batch password)
  broadcast batch :=
    replyOf (laneService.broadcast devnet laneSurroundings laneMoment.manager
      batch).result

theorem signsAsWallet_laneDaemon : SignsAsWallet devnet laneDaemon :=
  fun _ _ _ replied =>
    ⟨laneService, sampleSignatures, replyOf_eq_response replied⟩

def laneEnforcement : LaneEnforcement :=
  ⟨sampleLane, [0x97], by simp⟩

def laneCaller : WalletCaller where
  toAddress := devnet.addressToString (sampleAddress 8)
  password := "password"
  laneEnforcement := some laneEnforcement

def laneMiner : MiningConfig where
  txIdPrefix := laneEnforcement.txIdPrefix
  timeoutSeconds := 300

/-- A split without a payload. -/
def laneStaging : WalletResult WalletSignableTransaction :=
  laneGenerator.generateUnsignedTransaction devnet
    [⟨sampleAddress 9, 48000⟩] [sampleUtxo 1 50000] []

def laneCarrier : WalletResult WalletSignableTransaction :=
  laneGenerator.generateUnsignedTransaction devnet
    [⟨sampleAddress 8, 58000⟩] [sampleUtxo 2 60000] [0x94, 5, 0, 0, 0, 1]

def laneFlow (staging carrier : WalletSignableTransaction) : Flow :=
  completeTransactionFlow devnet laneCaller laneDaemon laneMiner .completed
    ([staging, carrier].map (walletSignableTransactionToProto devnet))

private theorem laneFlow_run :
    laneStaging.Returns fun staging =>
      laneCarrier.Returns fun carrier =>
        (laneFlow staging carrier).result.Returns fun _ => True := by
  unfold laneStaging laneCarrier laneFlow laneDaemon laneCaller
  rw [devnet_eq_quick]
  decide +kernel

/-- A batch with a split is mined, signed and broadcast on the lane. -/
theorem laneFlow_laneSafe :
    ∃ staging carrier batch signed,
      .sign batch ∈ (laneFlow staging carrier).calls ∧
        LaneBatch devnet laneEnforcement batch ∧
        .broadcast signed ∈ (laneFlow staging carrier).calls ∧
        LaneBatch devnet laneEnforcement signed := by
  obtain ⟨staging, -, carrier, -, transactionId, succeeded, -⟩ := laneFlow_run
  obtain ⟨signed, broadcasting⟩ := broadcast_mem_calls succeeded
  obtain ⟨signs, replies, broadcasts, -⟩ :=
    @completeTransactionFlow_laneSafe devnet laneCaller laneDaemon laneMiner
      .completed laneEnforcement rfl
      ([staging, carrier].map (walletSignableTransactionToProto devnet))
  obtain ⟨batch, signing, -⟩ := replies signed broadcasting
  exact ⟨staging, carrier, batch, signed, signing, signs batch signing,
    broadcasting, broadcasts idsIgnoreSignatures_devnet
      signsAsWallet_laneDaemon signed broadcasting⟩

end LaneRun

end RpcProvider
