import Mathlib.Data.List.Basic

/-!
# Messages

The messages of `wallet.proto` that carry a transaction, and the status of a
failed call.  A message field is optional, a scalar field is not, and an
enumeration is its number.
-/

namespace Kaswallet

namespace Proto

/-- The status codes of gRPC. -/
inductive Code where
  | ok
  | cancelled
  | unknown
  | invalidArgument
  | deadlineExceeded
  | notFound
  | alreadyExists
  | permissionDenied
  | resourceExhausted
  | failedPrecondition
  | aborted
  | outOfRange
  | unimplemented
  | internal
  | unavailable
  | dataLoss
  | unauthenticated
deriving DecidableEq

structure Status where
  code : Code
  message : String
deriving DecidableEq

structure Outpoint where
  transactionId : String
  index : UInt32
deriving DecidableEq

structure ScriptPublicKey where
  version : UInt32
  scriptPublicKey : String
deriving DecidableEq

structure UtxoEntry where
  amount : UInt64
  scriptPublicKey : Option ScriptPublicKey
  blockDaaScore : UInt64
  isCoinbase : Bool
deriving DecidableEq

structure OptionalUtxoEntry where
  entry : Option UtxoEntry
deriving DecidableEq

structure NonContextualMasses where
  computeMass : UInt64
  transientMass : UInt64
deriving DecidableEq

structure TransactionOutpoint where
  transactionId : List UInt8
  index : UInt32
deriving DecidableEq

structure TransactionInput where
  previousOutpoint : Option TransactionOutpoint
  signatureScript : List UInt8
  sequence : UInt64
  sigOpCount : UInt32
  computeBudget : UInt32
deriving DecidableEq

structure TransactionOutput where
  value : UInt64
  scriptPublicKey : Option ScriptPublicKey
deriving DecidableEq

structure Transaction where
  version : UInt32
  inputs : List TransactionInput
  outputs : List TransactionOutput
  lockTime : UInt64
  subnetworkId : List UInt8
  gas : UInt64
  payload : List UInt8
  mass : UInt64
  id : List UInt8
deriving DecidableEq

structure SignableTransaction where
  tx : Option Transaction
  entries : List OptionalUtxoEntry
  calculatedFee : Option UInt64
  calculatedNonContextualMasses : Option NonContextualMasses
deriving DecidableEq

/-- The `oneof` of `SignedTransaction`. -/
inductive Signed where
  | fully (tx : SignableTransaction)
  | partially (tx : SignableTransaction)
deriving DecidableEq

structure SignedTransaction where
  signed : Option Signed
deriving DecidableEq

structure WalletAddress where
  index : UInt32
  cosignerIndex : UInt32
  keychain : Int32
deriving DecidableEq

structure DerivationPath where
  path : List UInt32
deriving DecidableEq

structure WalletSignableTransaction where
  transaction : Option SignedTransaction
  derivationPaths : List DerivationPath
  addressByInputIndex : List WalletAddress
  addressByOutputIndex : List String
deriving DecidableEq

section Defaults

def ScriptPublicKey.default : ScriptPublicKey :=
  ⟨0, ""⟩

def TransactionOutpoint.default : TransactionOutpoint :=
  ⟨[], 0⟩

def Transaction.default : Transaction where
  version := 0
  inputs := []
  outputs := []
  lockTime := 0
  subnetworkId := []
  gas := 0
  payload := []
  mass := 0
  id := []

def SignedTransaction.default : SignedTransaction :=
  ⟨none⟩

end Defaults

end Proto

end Kaswallet
