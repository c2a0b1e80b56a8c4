import Igra.Tables
import Mathlib.Data.Fintype.OfMap
import Mathlib.Data.Fintype.Basic
import Mathlib.Algebra.Ring.Int.Defs

/-!
# The indexer's store

The rows that the token and attestation handlers read and write.  A search by a
column that is the id of its table is a search by key.  An insert fails when the
id is taken; where the code inserts under an id that it has just searched for in
vain, it cannot.
-/

open Tables

namespace Degov

/-- Twenty bytes.  Its text, as events are decoded to, is in lower case, so
`toLowerCase` leaves it alone, and the id of a `Delegate` is the pair of the two
addresses that it joins. -/
structure Address where
  value : Fin (2 ^ 160)
deriving DecidableEq

def zeroAddress : Address := ⟨0⟩

instance Address.fintype : Fintype Address :=
  .ofEquiv (Fin (2 ^ 160)) ⟨Address.mk, Address.value, fun _ => rfl,
    fun _ => rfl⟩

/-- Where the log stands that a row was last written for. -/
structure Stamp where
  blockNumber : Nat
  blockTimestamp : Nat
  transactionHash : String
deriving DecidableEq

structure DelegateChanged where
  id : String
  delegator : Address
  fromDelegate : Address
  toDelegate : Address
  stamp : Stamp
deriving DecidableEq

structure DelegateVotesChanged where
  id : String
  delegate : Address
  previousVotes : Int
  newVotes : Int
  stamp : Stamp
deriving DecidableEq

structure TokenTransfer where
  id : String
  fromAccount : Address
  toAccount : Address
  value : Int
  standard : String
  stamp : Stamp
deriving DecidableEq

/-- Its id is the account that delegates. -/
structure DelegateMapping where
  fromAccount : Address
  toAccount : Address
  power : Int
  stamp : Stamp
deriving DecidableEq

structure DelegateRolling where
  id : String
  delegator : Address
  fromDelegate : Address
  toDelegate : Address
  stamp : Stamp
  fromPreviousVotes : Option Int
  fromNewVotes : Option Int
  toPreviousVotes : Option Int
  toNewVotes : Option Int
deriving DecidableEq

structure Delegate where
  fromDelegate : Address
  toDelegate : Address
  power : Int
  stamp : Stamp
deriving DecidableEq

def Delegate.id (delegate : Delegate) : Address × Address :=
  (delegate.fromDelegate, delegate.toDelegate)

structure Contributor where
  id : Address
  power : Int
  delegatesCountAll : Int
  delegatesCountEffective : Int
  stamp : Stamp
deriving DecidableEq

/-- The row with the id `global`. -/
structure DataMetric where
  proposalsCount : Option Int
  votesCount : Option Int
  votesWithParamsCount : Option Int
  votesWithoutParamsCount : Option Int
  votesWeightForSum : Option Int
  votesWeightAgainstSum : Option Int
  votesWeightAbstainSum : Option Int
  powerSum : Option Int
  memberCount : Option Int
deriving DecidableEq

/-- `new DataMetric({ id: MetricsId.global })`. -/
def DataMetric.global : DataMetric :=
  ⟨none, none, none, none, none, none, none, none, none⟩

structure Store where
  delegateChangeds : Keyed DelegateChanged.id
  delegateVotesChangeds : Keyed DelegateVotesChanged.id
  tokenTransfers : Keyed TokenTransfer.id
  delegateMappings : Keyed DelegateMapping.fromAccount
  delegateRollings : Keyed DelegateRolling.id
  delegates : Keyed Delegate.id
  contributors : Keyed Contributor.id
  dataMetric : Option DataMetric

inductive StoreError where
  | duplicateId
deriving DecidableEq

namespace Store

def empty : Store where
  delegateChangeds := .empty _
  delegateVotesChangeds := .empty _
  tokenTransfers := .empty _
  delegateMappings := .empty _
  delegateRollings := .empty _
  delegates := .empty _
  contributors := .empty _
  dataMetric := none

section Sums

variable (store : Store)

/-- The power of a contributor, 0 when there is none. -/
def powerOf (account : Address) : Int :=
  store.contributors.worthAt Contributor.power account

/-- The power of a `Delegate` record, 0 when there is none. -/
def delegatePower (fromDelegate toDelegate : Address) : Int :=
  store.delegates.worthAt Delegate.power (fromDelegate, toDelegate)

/-- The powers of all `Delegate` records to an account. -/
def powerTo (account : Address) : Int :=
  store.delegates.sum fun delegate =>
    if delegate.toDelegate = account then delegate.power else 0

def totalPower : Int :=
  store.delegates.sum Delegate.power

/-- The global `powerSum`, as the code reads it. -/
def powerSum : Int :=
  (store.dataMetric.bind DataMetric.powerSum).getD 0

/-- The global `memberCount`, as the code reads it. -/
def memberCount : Int :=
  (store.dataMetric.bind DataMetric.memberCount).getD 0

/-- The account that a mapping row sends the power of another to. -/
def mappedTo (account : Address) : Option Address :=
  (store.delegateMappings.find account).map DelegateMapping.toAccount

end Sums

end Store

/-- `store.insert(row)`. -/
def insertRow {Key Row : Type} [DecidableEq Key] {key : Row → Key}
    (table : Keyed key) (row : Row) : Except StoreError (Keyed key) :=
  match table.find (key row) with
  | some _ => .error .duplicateId
  | none => .ok (table.save row)

theorem insertRow_eq_ok {Key Row : Type} [DecidableEq Key] {key : Row → Key}
    {table inserted : Keyed key} {row : Row} :
    insertRow table row = .ok inserted ↔
      table.find (key row) = none ∧ table.save row = inserted := by
  unfold insertRow
  cases table.find (key row) with
  | none => simp
  | some _ => simp

theorem bind_eq_ok {ε α β : Type} {first : Except ε α}
    {rest : α → Except ε β} {result : β} :
    first >>= rest = .ok result ↔
      ∃ value, first = .ok value ∧ rest value = .ok result := by
  cases first with
  | error error =>
      constructor
      · intro impossible
        cases impossible
      · rintro ⟨_, impossible, _⟩
        cases impossible
  | ok value =>
      constructor
      · intro holds
        exact ⟨value, rfl, holds⟩
      · rintro ⟨other, same, holds⟩
        cases same
        exact holds

/-- A log of a contract, with its event decoded. -/
structure EvmLog (Event : Type) where
  id : String
  height : Nat
  timestamp : Nat
  transactionHash : String
  event : Event

def EvmLog.stamp {Event : Type} (log : EvmLog Event) : Stamp :=
  ⟨log.height, log.timestamp, log.transactionHash⟩

end Degov
