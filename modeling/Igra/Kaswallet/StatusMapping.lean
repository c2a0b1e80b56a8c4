import Igra.Kaswallet.Model
import Igra.Rust.Bytes

/-!
# Errors as statuses

The status of gRPC that a client of the wallet sees for an error: a code for
the kind of the error, and its message without source locations.
-/

open Kaspa Rust

namespace Kaswallet

/-- The texts of values that other crates print. -/
structure Texts where
  /-- `{:?}` of a string -/
  debugString : String → String
  outpoint : TransactionOutpoint → String

/-- `{:?}` of a code. -/
def Proto.Code.debug : Proto.Code → String
  | .ok => "Ok"
  | .cancelled => "Cancelled"
  | .unknown => "Unknown"
  | .invalidArgument => "InvalidArgument"
  | .deadlineExceeded => "DeadlineExceeded"
  | .notFound => "NotFound"
  | .alreadyExists => "AlreadyExists"
  | .permissionDenied => "PermissionDenied"
  | .resourceExhausted => "ResourceExhausted"
  | .failedPrecondition => "FailedPrecondition"
  | .aborted => "Aborted"
  | .outOfRange => "OutOfRange"
  | .unimplemented => "Unimplemented"
  | .internal => "Internal"
  | .unavailable => "Unavailable"
  | .dataLoss => "DataLoss"
  | .unauthenticated => "Unauthenticated"

section Messages

variable (texts : Texts)

def UserInputError.userMessage : UserInputError → String
  | .invalidAddress input reason =>
      "invalid address " ++ texts.debugString input ++ ": " ++ reason
  | .invalidArgument reason => reason
  | .missingField field => "missing field " ++ field

/-- `KEY_DECRYPT_FAILED_MSG`. -/
def keyDecryptFailedMsg : String := "wrong password or corrupt keys file"

def CryptoError.userMessage : CryptoError → String
  | .bip32Derivation reason => "bip32 derivation failed: " ++ reason
  | .scriptError stage reason =>
      "script error at " ++ stage ++ ": " ++ reason
  | .wrongPassword => keyDecryptFailedMsg
  | .keyFileMalformed path reason =>
      "keys file is malformed at " ++ path ++ ": " ++ reason
  | .keyFileCorrupt _ => keyDecryptFailedMsg
  | .encryptionFailed _ => "failed to encrypt mnemonic"

def RpcError.userMessage : RpcError → String
  | .transport reason => "transport error: " ++ reason
  | .kaspadStatus operation code message =>
      "kaspad rpc " ++ operation ++ " failed [" ++ code.debug ++ "]: " ++
        message

def StorageError.userMessage : StorageError → String
  | .io path reason => "i/o error at " ++ path ++ ": " ++ reason

def TransactionError.userMessage : TransactionError → String
  | .buildFailed reason => "transaction build failed: " ++ reason
  | .insufficientFunds requiredSompi availableSompi =>
      "insufficient funds: required " ++ Nat.repr requiredSompi.toNat ++
        " sompi, available " ++ Nat.repr availableSompi.toNat ++ " sompi"
  | .utxoNotFound outpoint => "utxo not found: " ++ texts.outpoint outpoint
  | .feeTooLow providedSompi requiredSompi =>
      "fee too low: provided " ++ Nat.repr providedSompi.toNat ++
        " sompi, required at least " ++ Nat.repr requiredSompi.toNat ++
        " sompi"
  | .notFullySigned => "transaction is not fully signed"
  | .verifyFailed reason =>
      "transaction failed signature verification: " ++ reason
  | .rejected txId nodeMessage =>
      "transaction " ++ Hex.encode txId.bytes ++ " rejected by node: " ++
        nodeMessage
  | .orphan txId =>
      "transaction " ++ Hex.encode txId.bytes ++ " is an orphan"
  | .doubleSpend txId (some outpoint) =>
      "transaction " ++ Hex.encode txId.bytes ++ " double-spends " ++
        texts.outpoint outpoint
  | .doubleSpend txId none =>
      "transaction " ++ Hex.encode txId.bytes ++ " attempts a double spend"
  | .submitRpc txId source =>
      "rpc submit failed for transaction " ++ Hex.encode txId.bytes ++ ": " ++
        source.userMessage

def SyncError.userMessage : SyncError → String
  | .notYetSynced => "wallet is not yet synced"

def WalletError.userMessage : WalletError → String
  | .userInput error => error.userMessage texts
  | .crypto error => error.userMessage
  | .rpc error => error.userMessage
  | .storage error => error.userMessage
  | .transaction error => error.userMessage texts
  | .sync error => error.userMessage

end Messages

/-- The code in `to_status`. -/
def WalletError.code : WalletError → Proto.Code
  | .userInput _ => .invalidArgument
  | .crypto .wrongPassword => .unauthenticated
  | .crypto (.keyFileCorrupt _) => .unauthenticated
  | .crypto _ => .internal
  | .rpc _ => .unavailable
  | .storage _ => .internal
  | .sync .notYetSynced => .failedPrecondition
  | .transaction (.insufficientFunds _ _) => .invalidArgument
  | .transaction (.feeTooLow _ _) => .invalidArgument
  | .transaction (.doubleSpend _ _) => .invalidArgument
  | .transaction .notFullySigned => .invalidArgument
  | .transaction (.rejected _ _) => .aborted
  | .transaction (.orphan _) => .aborted
  | .transaction _ => .internal

def WalletError.toStatus (texts : Texts) (error : WalletError) :
    Proto.Status :=
  ⟨error.code, error.userMessage texts⟩

/-- No error of the wallet has the code for an exhausted resource. -/
theorem WalletError.code_ne_resourceExhausted (error : WalletError) :
    error.code ≠ .resourceExhausted := by
  intro exhausted
  cases error with
  | userInput error => cases exhausted
  | crypto error => cases error <;> cases exhausted
  | rpc error => cases exhausted
  | storage error => cases exhausted
  | transaction error => cases error <;> cases exhausted
  | sync error => cases error; cases exhausted

section Wording

/-- The message about missing funds, without the two amounts. -/
def insufficientFundsWording : List Char :=
  "insufficient funds: required  sompi, available  sompi".toList

private theorem toLower_of_isDigit {character : Char}
    (numeral : character.isDigit = true) :
    character.toLower = character := by
  rw [Char.isDigit, Bool.and_eq_true, decide_eq_true_iff,
    decide_eq_true_iff] at numeral
  have notUpper : ¬(character.val ≥ 'A'.val ∧ character.val ≤ 'Z'.val) := by
    intro upper
    exact absurd (UInt32.le_trans upper.1 numeral.2) (by decide)
  exact dif_neg notUpper

private theorem filter_digits_repr (number : Nat) :
    (number.repr.toList.map Char.toLower).filter (!·.isDigit) = [] := by
  rw [Nat.toList_repr, List.filter_eq_nil_iff]
  intro character member
  obtain ⟨digit, isDigit, rfl⟩ := List.mem_map.mp member
  have numeral : digit.isDigit = true :=
    Nat.isDigit_of_mem_toDigits (by decide) (by decide) isDigit
  simp [toLower_of_isDigit numeral, numeral]

theorem wording_insufficientFunds (texts : Texts)
    (requiredSompi availableSompi : UInt64) :
    ((TransactionError.insufficientFunds requiredSompi
        availableSompi).userMessage texts).toLower.toList.filter
      (!·.isDigit) = insufficientFundsWording := by
  have message : (TransactionError.insufficientFunds requiredSompi
      availableSompi).userMessage texts =
        "insufficient funds: required " ++ Nat.repr requiredSompi.toNat ++
          " sompi, available " ++ Nat.repr availableSompi.toNat ++
          " sompi" :=
    rfl
  have lowered (text : String) :
      text.toLower.toList = text.toList.map Char.toLower :=
    String.toList_map
  rw [message, lowered]
  simp only [String.toList_append, List.map_append, List.filter_append,
    filter_digits_repr]
  decide

end Wording

end Kaswallet
