import Igra.Kaswallet.StatusMapping
import Igra.RpcProvider.WalletCaller

/-!
# Retrying when funds run out

The provider asks again when the status of the daemon reads like exhausted
funds.  The status that the wallet has for missing funds does not read so.
-/

open Kaspa Rust Kaswallet

namespace RpcProvider

section Classification

private theorem not_textContains_of_wording {text pattern : String}
    {wording : List Char}
    (reads : text.toList.filter (!·.isDigit) = wording)
    (worded : pattern.toList.filter (!·.isDigit) = pattern.toList)
    (absent : ¬pattern.toList <:+: wording) :
    textContains text pattern = false := by
  rw [← Bool.not_eq_true, textContains_iff]
  intro found
  apply absent
  rw [← reads, ← worded]
  exact found.filter _

/-- The status that the wallet daemon answers when funds are missing. -/
def insufficientFundsStatus (texts : Texts)
    (requiredSompi availableSompi : UInt64) : Proto.Status :=
  (WalletError.transaction
    (.insufficientFunds requiredSompi availableSompi)).toStatus texts

/-- The wallet's status for missing funds is not taken for one. -/
theorem isNoFundsError_insufficientFunds (texts : Texts)
    (requiredSompi availableSompi : UInt64) :
    isNoFundsError (insufficientFundsStatus texts requiredSompi
      availableSompi) = false := by
  have reads := wording_insufficientFunds texts requiredSompi availableSompi
  have otherCode := WalletError.code_ne_resourceExhausted
    (.transaction (.insufficientFunds requiredSompi availableSompi))
  have noFunds := @not_textContains_of_wording _ "no funds" _ reads
    (by decide) (by decide)
  have exhausted := @not_textContains_of_wording _ "utxo exhausted" _ reads
    (by decide) (by decide)
  have insufficient := @not_textContains_of_wording _ "insufficient utxo" _
    reads (by decide) (by decide)
  simp only [isNoFundsError, insufficientFundsStatus, WalletError.toStatus,
    WalletError.userMessage, otherCode, noFunds, exhausted, insufficient,
    decide_false, Bool.or_self]

end Classification

section Runs

/-- How a retry loop ends, and the attempts it made. -/
structure RetryRun where
  result : CallerResult (List Proto.WalletSignableTransaction)
  attempts : Nat

variable (daemon : WalletDaemon) (params : TransactionParams)
  (maxAttempts : UInt32)

/-- The loop of `create_unsigned_transaction_with_retry`, counting its
attempts. -/
def countedAttempts : List Nat → Option WalletCallerError → RetryRun
  | [], lastError =>
      ⟨Outcome.err (attemptsExhausted maxAttempts lastError), 0⟩
  | attempt :: attempts, _ =>
      match createUnsignedTransaction daemon attempt params with
      | .ok result => ⟨.ok result, 1⟩
      | .error (.error error) =>
          if isUtxoExhaustionError error then
            let later := countedAttempts attempts (some error)
            ⟨later.result, later.attempts + 1⟩
          else ⟨Outcome.err error, 1⟩
      | .error fault => ⟨.error fault, 1⟩

theorem countedAttempts_result (attempts : List Nat)
    (lastError : Option WalletCallerError) :
    (countedAttempts daemon params maxAttempts attempts lastError).result =
      createAttempts daemon params maxAttempts attempts lastError := by
  induction attempts generalizing lastError with
  | nil => rfl
  | cons attempt attempts ih =>
      cases replied : createUnsignedTransaction daemon attempt params with
      | ok result => simp only [countedAttempts, createAttempts, replied]
      | error fault =>
          cases fault with
          | error error =>
              simp only [countedAttempts, createAttempts, replied]
              split
              · exact ih _
              · rfl
          | panic => simp only [countedAttempts, createAttempts, replied]
          | unfinished => simp only [countedAttempts, createAttempts, replied]

def retryRun : RetryRun :=
  countedAttempts daemon params maxAttempts
    (List.range' 1 maxAttempts.toNat) none

private theorem retryRun_result :
    (retryRun daemon params maxAttempts).result =
      createUnsignedTransactionWithRetry daemon params maxAttempts :=
  countedAttempts_result daemon params maxAttempts _ _

/-- The daemon answers the attempt that funds are missing. -/
def FundsMissing (texts : Texts) (attempt : Nat) : Prop :=
  ∃ requiredSompi availableSompi,
    daemon.createUnsignedTransactions attempt params.description =
      .status (insufficientFundsStatus texts requiredSompi availableSompi)

/-- What a retry for missing funds comes to. -/
structure RetriesMissingFunds (texts : Texts) : Prop where
  succeeds : ∀ k < maxAttempts.toNat,
    (∀ i < k, FundsMissing daemon params texts (i + 1)) →
    ∀ unsigned, daemon.createUnsignedTransactions (k + 1)
        params.description = .response unsigned →
      retryRun daemon params maxAttempts = ⟨.ok unsigned, k + 1⟩
  gives_up : (∀ i < maxAttempts.toNat,
      FundsMissing daemon params texts (i + 1)) →
    ∃ reason, retryRun daemon params maxAttempts =
      ⟨Outcome.err (.miningFailed (.retryExhausted maxAttempts reason)),
        maxAttempts.toNat⟩
  other : 0 < maxAttempts.toNat → ∀ failure,
    daemon.createUnsignedTransactions 1 params.description =
        .status failure →
      ¬FundsMissing daemon params texts 1 →
      retryRun daemon params maxAttempts =
        ⟨Outcome.err (.transactionCreationFailed failure), 1⟩

/-- The first answer is a status of another kind that reads like exhausted
funds. -/
def MistakenForMissingFunds (texts : Texts) : Prop :=
  ¬FundsMissing daemon params texts 1 ∧
    ∃ failure, daemon.createUnsignedTransactions 1 params.description =
        .status failure ∧ isNoFundsError failure = true

/-- The answers that funds are missing end with one that is not a
response. -/
def MissingFundsInterrupted (texts : Texts) : Prop :=
  ∃ k < maxAttempts.toNat,
    (∀ i < k, FundsMissing daemon params texts (i + 1)) ∧
      ¬FundsMissing daemon params texts (k + 1) ∧
      ∀ unsigned, daemon.createUnsignedTransactions (k + 1)
        params.description ≠ .response unsigned

variable {daemon params maxAttempts}

private theorem retryRun_of_zero (untried : maxAttempts.toNat = 0) :
    retryRun daemon params maxAttempts =
      ⟨Outcome.err (attemptsExhausted maxAttempts none), 0⟩ := by
  rw [retryRun, untried]
  rfl

theorem retryRun_of_pos (positive : 0 < maxAttempts.toNat) :
    ∃ later, retryRun daemon params maxAttempts =
      countedAttempts daemon params maxAttempts (1 :: later) none := by
  obtain ⟨fewer, all⟩ := Nat.exists_eq_add_of_lt positive
  rw [Nat.zero_add] at all
  exact ⟨_, by rw [retryRun, all, List.range'_succ]⟩

private theorem retryRun_of_response
    {unsigned : List Proto.WalletSignableTransaction}
    (positive : 0 < maxAttempts.toNat)
    (replied : daemon.createUnsignedTransactions 1 params.description =
      .response unsigned) :
    retryRun daemon params maxAttempts = ⟨.ok unsigned, 1⟩ := by
  obtain ⟨later, first⟩ := retryRun_of_pos positive
  rw [first, countedAttempts, createUnsignedTransaction, replied]
  rfl

/-- A status that does not read like exhausted funds ends the loop. -/
theorem retryRun_of_status {failure : Proto.Status}
    (positive : 0 < maxAttempts.toNat)
    (replied : daemon.createUnsignedTransactions 1 params.description =
      .status failure)
    (plain : isNoFundsError failure = false) :
    retryRun daemon params maxAttempts =
      ⟨Outcome.err (.transactionCreationFailed failure), 1⟩ := by
  obtain ⟨later, first⟩ := retryRun_of_pos positive
  rw [first, countedAttempts, createUnsignedTransaction, replied]
  simp [GrpcReply.toResult, Outcome.err, isUtxoExhaustionError, plain]

theorem retryRun_ne_of_noFunds {failure : Proto.Status}
    (positive : 0 < maxAttempts.toNat)
    (replied : daemon.createUnsignedTransactions 1 params.description =
      .status failure)
    (mistaken : isNoFundsError failure = true) :
    retryRun daemon params maxAttempts ≠
      ⟨Outcome.err (.transactionCreationFailed failure), 1⟩ := by
  obtain ⟨later, first⟩ := retryRun_of_pos positive
  rw [first, countedAttempts, createUnsignedTransaction, replied]
  simp only [GrpcReply.toResult, Outcome.err, isUtxoExhaustionError, mistaken,
    if_true]
  cases later with
  | nil => simp [countedAttempts, attemptsExhausted, Outcome.err]
  | cons attempt attempts =>
      rw [countedAttempts]
      split
      · simp
      · split <;> simp
      · simp

theorem retryRun_of_fundsMissing {texts : Texts}
    (positive : 0 < maxAttempts.toNat)
    (missing : FundsMissing daemon params texts 1) :
    ∃ failure, retryRun daemon params maxAttempts =
      ⟨Outcome.err (.transactionCreationFailed failure), 1⟩ := by
  obtain ⟨requiredSompi, availableSompi, replied⟩ := missing
  exact ⟨_, retryRun_of_status positive replied
    (isNoFundsError_insufficientFunds texts _ _)⟩

end Runs

section Condition

variable {daemon : WalletDaemon} {params : TransactionParams}
  {maxAttempts : UInt32} {texts : Texts}

theorem FundsMissing.ne_response {attempt : Nat}
    (missing : FundsMissing daemon params texts attempt)
    (unsigned : List Proto.WalletSignableTransaction) :
    daemon.createUnsignedTransactions attempt params.description ≠
      .response unsigned := by
  obtain ⟨_, _, replied⟩ := missing
  rw [replied]
  exact fun same => by cases same

/-- Where the loop makes an attempt, missing funds are retried only if the
answers are not put to the test. -/
theorem RetriesMissingFunds.interrupted
    (retries : RetriesMissingFunds daemon params maxAttempts texts)
    (positive : 0 < maxAttempts.toNat)
    (missing : FundsMissing daemon params texts 1) :
    MissingFundsInterrupted daemon params maxAttempts texts := by
  obtain ⟨failure, ended⟩ := retryRun_of_fundsMissing positive missing
  have ends : ∃ k, k < maxAttempts.toNat ∧
      ¬FundsMissing daemon params texts (k + 1) := by
    by_contra always
    push Not at always
    obtain ⟨reason, exhausted⟩ := retries.gives_up always
    rw [ended] at exhausted
    simp [Outcome.err] at exhausted
  classical
  obtain ⟨below, here⟩ := Nat.find_spec ends
  have before : ∀ i < Nat.find ends,
      FundsMissing daemon params texts (i + 1) := by
    intro i earlier
    by_contra notMissing
    exact Nat.find_min ends earlier ⟨by omega, notMissing⟩
  refine ⟨Nat.find ends, below, before, here, ?_⟩
  intro unsigned replied
  have succeeded := retries.succeeds _ below before unsigned replied
  rw [ended] at succeeded
  simp [Outcome.err] at succeeded

theorem RetriesMissingFunds.of_interrupted
    (missing : FundsMissing daemon params texts 1)
    (interrupted : MissingFundsInterrupted daemon params maxAttempts texts) :
    RetriesMissingFunds daemon params maxAttempts texts := by
  obtain ⟨k, below, before, here, unanswered⟩ := interrupted
  constructor
  · intro other _ earlier unsigned replied
    rcases Nat.lt_trichotomy other k with less | rfl | more
    · exact absurd replied ((before other less).ne_response unsigned)
    · exact absurd replied (unanswered unsigned)
    · exact absurd (earlier k more) here
  · exact fun always => absurd (always k below) here
  · exact fun _ _ _ notMissing => absurd missing notMissing

/-- The counted loop returns what the loop of the source does.  Retrying for
missing funds works exactly when they are never missing at first, or nothing
comes of it. -/
theorem retriesMissingFunds_iff :
    (retryRun daemon params maxAttempts).result =
        createUnsignedTransactionWithRetry daemon params maxAttempts ∧
      (RetriesMissingFunds daemon params maxAttempts texts ↔
        maxAttempts.toNat = 0 ∨
          (¬FundsMissing daemon params texts 1 ∧
            ¬MistakenForMissingFunds daemon params texts) ∨
          (FundsMissing daemon params texts 1 ∧
            MissingFundsInterrupted daemon params maxAttempts texts)) := by
  refine ⟨retryRun_result daemon params maxAttempts, ?_⟩
  constructor
  · intro retries
    rcases Nat.eq_zero_or_pos maxAttempts.toNat with untried | positive
    · exact .inl untried
    · right
      by_cases missing : FundsMissing daemon params texts 1
      · exact .inr ⟨missing, retries.interrupted positive missing⟩
      · refine .inl ⟨missing, ?_⟩
        rintro ⟨_, failure, replied, mistaken⟩
        exact retryRun_ne_of_noFunds positive replied mistaken
          (retries.other positive failure replied missing)
  · rintro (untried | ⟨notMissing, notMistaken⟩ | ⟨missing, interrupted⟩)
    · constructor
      · intro k below
        omega
      · intro _
        rw [retryRun_of_zero untried, untried]
        exact ⟨_, rfl⟩
      · intro positive
        omega
    · constructor
      · intro k below before unsigned replied
        rcases Nat.eq_zero_or_pos k with rfl | later
        · exact retryRun_of_response below replied
        · exact absurd (before 0 later) notMissing
      · intro always
        rcases Nat.eq_zero_or_pos maxAttempts.toNat with untried | positive
        · rw [retryRun_of_zero untried, untried]
          exact ⟨_, rfl⟩
        · exact absurd (always 0 positive) notMissing
      · intro positive failure replied _
        apply retryRun_of_status positive replied
        rw [← Bool.not_eq_true]
        exact fun mistaken =>
          notMistaken ⟨notMissing, failure, replied, mistaken⟩
    · exact .of_interrupted missing interrupted

/-- A wallet that is short of funds once. -/
def briefShortage (texts : Texts) : WalletDaemon where
  createUnsignedTransactions := fun attempt _ =>
    if attempt = 1 then .status (insufficientFundsStatus texts 1000 500)
    else .response []
  sign := fun batch _ => .response batch
  broadcast := fun _ => .response []

def plainTexts : Texts where
  debugString := id
  outpoint := fun outpoint => Hex.encode outpoint.transactionId.bytes

theorem briefShortage_not_retried :
    ¬RetriesMissingFunds (briefShortage plainTexts)
      (.sendAll "kaspa:wallet" [] none) 3 plainTexts := by
  intro retries
  have missing : FundsMissing (briefShortage plainTexts)
      (.sendAll "kaspa:wallet" [] none) plainTexts 1 := ⟨1000, 500, rfl⟩
  have succeeded := retries.succeeds 1 (by decide)
    (fun i first => by rwa [Nat.lt_one_iff.mp first]) [] rfl
  obtain ⟨failure, ended⟩ := @retryRun_of_fundsMissing _ _ 3 _ (by decide)
    missing
  rw [ended] at succeeded
  simp [Outcome.err] at succeeded

end Condition

end RpcProvider
