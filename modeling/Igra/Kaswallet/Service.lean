import Igra.Kaswallet.Signing
import Igra.Kaswallet.Splits

/-!
# The wallet service

The calls that a client makes to have a payment built, signed and submitted.
A batch is submitted in order; the first failure ends the call.
-/

open Kaspa Rust

namespace Kaswallet

structure KasWalletService where
  generator : TransactionGenerator
  /-- `Keys::decrypt_mnemonics` -/
  decryptMnemonics : String → WalletResult (List Mnemonic)
  configuredSubnetworkId : SubnetworkId

/-- `ensure_subnetwork_id_matches`: a daemon without a lane lets every
transaction through. -/
def ensureSubnetworkIdMatches (configured txSubnetworkId : SubnetworkId) :
    WalletResult Unit :=
  if configured.isNative ∨ txSubnetworkId = configured then .ok ()
  else
    Outcome.err (.userInput (.invalidArgument
      ("transaction subnetwork_id " ++ Hex.encode txSubnetworkId.bytes ++
        " does not match daemon's configured subnetwork_id " ++
        Hex.encode configured.bytes)))

section Submission

/-- `NODE_MESSAGE_MAX_LEN`. -/
def nodeMessageMaxLen : Nat := 512

/-- `char::is_control`. -/
def isControl (character : Char) : Bool :=
  let code := character.toNat
  decide (code < 0x20 ∨ (0x7f ≤ code ∧ code < 0xa0))

def sanitizeNodeMessage (raw : String) : String :=
  let cleaned := raw.toList.filter fun character => !isControl character
  if nodeMessageMaxLen < (String.ofList cleaned).utf8ByteSize then
    String.ofList (cleaned.take nodeMessageMaxLen ++ ['…'])
  else String.ofList cleaned

/-- `classify_submit_rpc_error`, from the text of the node's error. -/
def classifySubmitRpcError (txId : TransactionId) (raw : String) :
    TransactionError :=
  let message := raw.toLower
  if textContains message "is an orphan" ||
      textContains message "tx orphan" then
    .orphan txId
  else if textContains message "already spent" ||
      textContains message "double-spend" then
    .doubleSpend txId none
  else if textContains message "rejected by mempool" ||
      textContains message "transaction rejected" ||
      textContains message "mempool rejected" then
    .rejected txId (sanitizeNodeMessage raw)
  else
    .submitRpc txId (.kaspadStatus "submit_transaction" .unknown
      (sanitizeNodeMessage raw))

/-- The node's replies and the address book, for each transaction of a
batch. -/
structure SubmitSurroundings where
  replies : Nat → Except String TransactionId
  addresses : Nat → AddressSet

/-- What a submission leaves behind. -/
structure Submission where
  result : WalletResult (List String)
  manager : UtxoManager
  /-- the transactions sent to the node, in order -/
  sent : List Transaction

/-- The sums behind the fee that is logged. -/
def feeSompi (signable : SignableTransaction) : WalletResult UInt64 := do
  let paid ← checkedSum (signable.entries.map fun slot =>
    (slot.map UtxoEntry.amount).getD 0)
  let received ← checkedSum (signable.tx.outputs.map TransactionOutput.value)
  pure (if received ≤ paid then paid - received else 0)

/-- The checks of `submit_transactions` before a transaction is sent. -/
def submittable (configured : SubnetworkId)
    (transaction : WalletSignableTransaction) :
    WalletResult SignableTransaction :=
  match transaction.transaction with
  | .partially _ => Outcome.err (.transaction .notFullySigned)
  | .fully signable => do
      ensureSubnetworkIdMatches configured signable.tx.subnetworkId
      let _ ← feeSompi signable
      pure signable

/-- `submit_transactions`. -/
def submitTransactions (upstream : Upstream) (configured : SubnetworkId)
    (surroundings : SubmitSurroundings) :
    Nat → UtxoManager → List WalletSignableTransaction → Submission
  | _, manager, [] => ⟨.ok [], manager, []⟩
  | index, manager, transaction :: rest =>
      match submittable configured transaction with
      | .error fault => ⟨.error fault, manager, []⟩
      | .ok signable =>
          match surroundings.replies index with
          | .error raw =>
              ⟨Outcome.err (.transaction (classifySubmitRpcError
                (upstream.transactionId signable.tx) raw)), manager,
                [signable.tx]⟩
          | .ok transactionId =>
              match manager.addMempoolTransaction upstream
                  (surroundings.addresses index) transaction with
              | .error fault => ⟨.error fault, manager, [signable.tx]⟩
              | .ok tracked =>
                  let later := submitTransactions upstream configured
                    surroundings (index + 1) tracked rest
                  ⟨(Hex.encode transactionId.bytes :: ·) <$> later.result,
                    later.manager, signable.tx :: later.sent⟩

/-- A submission sends a prefix of the batch, and all of it when it
succeeds. -/
theorem sent_of_submitTransactions {upstream : Upstream}
    {configured : SubnetworkId} {surroundings : SubmitSurroundings}
    (index : Nat) (manager : UtxoManager)
    (batch : List WalletSignableTransaction) :
    (submitTransactions upstream configured surroundings index manager
        batch).sent <+: batch.map WalletSignableTransaction.tx ∧
      ∀ ids, (submitTransactions upstream configured surroundings index
          manager batch).result = .ok ids →
        (submitTransactions upstream configured surroundings index manager
          batch).sent = batch.map WalletSignableTransaction.tx := by
  induction batch generalizing index manager with
  | nil => exact ⟨List.prefix_refl _, fun _ _ => rfl⟩
  | cons transaction rest ih =>
      rw [submitTransactions]
      cases checked : submittable configured transaction with
      | error fault => exact ⟨List.nil_prefix, fun _ done => by cases done⟩
      | ok signable =>
          have sameTx : signable.tx = transaction.tx := by
            unfold submittable at checked
            unfold WalletSignableTransaction.tx
            cases state : transaction.transaction with
            | partially other =>
                rw [state] at checked
                exact absurd checked (Outcome.err_ne_ok _ _)
            | fully other =>
                simp only [state, Outcome.bind_eq_ok,
                  Outcome.pure_eq_ok] at checked
                obtain ⟨-, -, -, -, rfl⟩ := checked
                rfl
          have first : [signable.tx] <+:
              (transaction :: rest).map WalletSignableTransaction.tx := by
            rw [List.map_cons, sameTx]
            exact List.prefix_append [transaction.tx] _
          cases reply : surroundings.replies index with
          | error raw =>
              exact ⟨first, fun _ done => by cases done⟩
          | ok transactionId =>
              dsimp only
              cases tracking : manager.addMempoolTransaction upstream
                  (surroundings.addresses index) transaction with
              | error fault =>
                  exact ⟨first, fun _ done => by cases done⟩
              | ok tracked =>
                  obtain ⟨sent, all⟩ := ih (index + 1) tracked
                  dsimp only
                  rw [List.map_cons, sameTx]
                  refine ⟨(List.prefix_cons_inj _).mpr sent, ?_⟩
                  intro ids done
                  obtain ⟨later, ended, -⟩ := Outcome.map_eq_ok.mp done
                  rw [all later ended]

end Submission

namespace TransactionGenerator

section Batches

variable {upstream : Upstream} {generator : TransactionGenerator}
  {request : CompoundingRequest} {payload : List UInt8}

/-- A transaction that the generator built around the payload. -/
def Generated (upstream : Upstream) (generator : TransactionGenerator)
    (payload : List UInt8) (transaction : WalletSignableTransaction) : Prop :=
  ∃ payments selectedUtxos,
    generator.generateUnsignedTransaction upstream payments selectedUtxos
      payload = .ok transaction

theorem Generated.carries {transaction : WalletSignableTransaction}
    (generated : Generated upstream generator payload transaction) :
    transaction.tx.payload = payload := by
  obtain ⟨payments, selectedUtxos, built⟩ := generated
  rw [tx_of_generateUnsignedTransaction built]
  rfl

/-- Compounding hands the payload on to the last transaction; the splits carry
none. -/
theorem Compounds.generated {replies : NodeReplies} {manager : UtxoManager}
    {round : Nat} {original : WalletSignableTransaction}
    {compounding : Compounding}
    (compounds : Compounds upstream generator request replies manager round
      original compounding)
    (built : Generated upstream generator payload original) :
    (∀ split ∈ compounding.rounds.flatMap CompoundRound.splits,
        Generated upstream generator [] split) ∧
      Generated upstream generator payload compounding.last := by
  induction compounds with
  | light => exact ⟨by simp, built⟩
  | @heavy round original transactionMass done rest compounded _ ih =>
      obtain ⟨made, -, merged, -⟩ := compoundRound_eq_ok.mp compounded
      rw [buildMerge, built.carries] at merged
      obtain ⟨later, last⟩ := ih ⟨_, _, merged⟩
      refine ⟨?_, last⟩
      rw [List.flatMap_cons]
      intro split member
      rcases List.mem_append.mp member with first | other
      · exact ((partitions_of_splitTransactions made).2 split first).generated
      · exact later split other

/-- Whatever is requested, the payload is in the last transaction of the batch
and in no other. -/
theorem generated_of_createUnsignedTransactions
    {surroundings : Surroundings} {manager : UtxoManager}
    {addressManager : AddressManager} {description : TransactionDescription}
    {fuel : Nat} {batch : List WalletSignableTransaction}
    (created : (generator.createUnsignedTransactions upstream surroundings
      manager addressManager description fuel).1 = .ok batch) :
    ∃ front last, batch = front ++ [last] ∧
      (∀ transaction ∈ front, Generated upstream generator [] transaction) ∧
      Generated upstream generator description.payload last := by
  obtain ⟨request, unsigned, compounding, made, compounded, rfl⟩ :=
    exists_compounding created
  obtain ⟨prepared⟩ := prepared_of_prepare made
  obtain ⟨splits, last⟩ := (compounds_of_compound compounded).generated
    ⟨_, _, prepared.generated⟩
  exact ⟨_, _, rfl, splits, last⟩

end Batches

end TransactionGenerator

namespace KasWalletService

section Calls

variable (upstream : Upstream) (service : KasWalletService)

/-- What `create_unsigned_transactions` finds when it runs. -/
structure CreateMoment where
  isSynced : Bool
  surroundings : TransactionGenerator.Surroundings
  manager : UtxoManager
  addressManager : AddressManager

def createUnsignedTransactions (moment : CreateMoment)
    (transactionDescription : Option TransactionDescription) (fuel : Nat) :
    WalletResult (List Proto.WalletSignableTransaction) := do
  let description ← Outcome.ofOption
    (.userInput (.missingField "transaction_description"))
    transactionDescription
  if !moment.isSynced then Outcome.err (.sync .notYetSynced)
  else do
    let unsigned ← (service.generator.createUnsignedTransactions upstream
      moment.surroundings moment.manager moment.addressManager description
      fuel).1
    pure (unsigned.map (walletSignableTransactionToProto upstream))

def sign (signatures : Signatures)
    (unsignedTransactions : List Proto.WalletSignableTransaction)
    (password : String) :
    WalletResult (List Proto.WalletSignableTransaction) := do
  let unsigned ← Outcome.collect
    (walletSignableTransactionFromProto upstream) unsignedTransactions
  let _ ← Outcome.collect
    (fun transaction => ensureSubnetworkIdMatches
      service.configuredSubnetworkId transaction.tx.subnetworkId) unsigned
  let signed ← signTransactions signatures
    (service.decryptMnemonics password) unsigned
  pure (signed.map (walletSignableTransactionToProto upstream))

def broadcast (surroundings : SubmitSurroundings) (manager : UtxoManager)
    (transactions : List Proto.WalletSignableTransaction) : Submission :=
  match Outcome.collect (walletSignableTransactionFromProto upstream)
      transactions with
  | .error fault => ⟨.error fault, manager, []⟩
  | .ok signed =>
      submitTransactions upstream service.configuredSubnetworkId surroundings
        0 manager signed

end Calls

section Effects

variable {upstream : Upstream} {service : KasWalletService}

/-- What a client receives encodes a batch with the payload in its last
transaction. -/
theorem generated_of_createUnsignedTransactions {moment : CreateMoment}
    {description : TransactionDescription} {fuel : Nat}
    {messages : List Proto.WalletSignableTransaction}
    (created : service.createUnsignedTransactions upstream moment
      (some description) fuel = .ok messages) :
    ∃ front last,
      messages =
          (front ++ [last]).map (walletSignableTransactionToProto upstream) ∧
        (∀ transaction ∈ front,
          TransactionGenerator.Generated upstream service.generator []
            transaction) ∧
        TransactionGenerator.Generated upstream service.generator
          description.payload last := by
  rw [createUnsignedTransactions, Outcome.ofOption, Outcome.ok_bind]
    at created
  split at created
  · exact absurd created (Outcome.err_ne_ok _ _)
  · simp only [Outcome.bind_eq_ok, Outcome.pure_eq_ok] at created
    obtain ⟨unsigned, made, rfl⟩ := created
    obtain ⟨front, last, rfl, splits, carrier⟩ :=
      TransactionGenerator.generated_of_createUnsignedTransactions made
    exact ⟨front, last, rfl, splits, carrier⟩

/-- The response encodes a signed form of what the request decodes to. -/
def SignedMessage (upstream : Upstream)
    (request response : Proto.WalletSignableTransaction) : Prop :=
  ∃ unsigned signed,
    walletSignableTransactionFromProto upstream request = .ok unsigned ∧
      SignedFrom unsigned signed ∧
      response = walletSignableTransactionToProto upstream signed

theorem signedMessages_of_sign {signatures : Signatures}
    {unsignedTransactions signedTransactions :
      List Proto.WalletSignableTransaction} {password : String}
    (succeeded : service.sign upstream signatures unsignedTransactions
      password = .ok signedTransactions) :
    List.Forall₂ (SignedMessage upstream) unsignedTransactions
      signedTransactions := by
  simp only [sign, Outcome.bind_eq_ok, Outcome.pure_eq_ok] at succeeded
  obtain ⟨unsigned, decoded, -, -, signed, made, rfl⟩ := succeeded
  have requests := Outcome.collect_eq_ok.mp decoded
  have kept := signedFrom_of_signTransactions made
  rw [List.forall₂_map_right_iff]
  clear made decoded
  induction kept generalizing unsignedTransactions with
  | nil =>
      cases requests
      exact .nil
  | cons first _ ih =>
      cases requests with
      | cons request requests =>
          exact .cons ⟨_, _, request, first, rfl⟩ (ih requests)

end Effects

end KasWalletService

end Kaswallet
