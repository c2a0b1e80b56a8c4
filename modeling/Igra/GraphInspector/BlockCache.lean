import Igra.GraphInspector.Database
import Mathlib.Data.List.AList

/-!
# The cache in front of the blocks

The graph inspector keeps the ids and heights of blocks in memory.  The cache
is filled inside transactions, from rows that are read and from rows that are
inserted, and it is not restored when a transaction is rolled back.
-/

namespace GraphInspector

/-- What is cached of a row. -/
structure BlockBase where
  id : Nat
  height : Nat
deriving DecidableEq

def BlockRow.base (row : BlockRow) : BlockBase :=
  ⟨row.id, row.height⟩

structure LRUCache (T : Type) where
  cache : AList fun _ : Hash => T
  capacity : Nat

namespace LRUCache

variable {T : Type}

def new (capacity : Nat) : LRUCache T :=
  ⟨∅, capacity⟩

def get (lru : LRUCache T) (key : Hash) : Option T :=
  lru.cache.lookup key

def has (lru : LRUCache T) (key : Hash) : Bool :=
  (lru.get key).isSome

def remove (lru : LRUCache T) (key : Hash) : LRUCache T :=
  { lru with cache := lru.cache.erase key }

/-- `first` is the key that a loop over the map comes to first. -/
def evictRandom (lru : LRUCache T) (first : List Hash → Hash) : LRUCache T :=
  lru.remove (first lru.cache.keys)

def add (lru : LRUCache T) (first : List Hash → Hash) (key : Hash)
    (value : T) : LRUCache T :=
  let added := { lru with cache := lru.cache.insert key value }
  if added.capacity < added.cache.keys.length then added.evictRandom first
  else added

end LRUCache

/-- What does not depend on the program: whether the server answers each
statement of an operation, and the order of Go's maps. -/
structure Environment where
  answers : Nat → Bool
  first : List Hash → Hash

inductive QueryError where
  | refused
  | duplicateKey
  | noRows
  | blockHashNotFound (hash : Hash) (cause : QueryError)
deriving DecidableEq

/-- A transaction: the tables as it sees them, whether a statement has failed,
after which the server refuses all others, and the cache. -/
structure Session where
  tables : Database
  aborted : Bool
  blockBaseCache : LRUCache BlockBase

namespace Session

section Operations

variable (environment : Environment)

def answers (session : Session) (statement : Nat) : Bool :=
  !session.aborted && environment.answers statement

def abort (session : Session) : Session :=
  { session with aborted := true }

/-- `db.blockBaseCache.Add(..)`. -/
def remember (session : Session) (blockHash : Hash) (base : BlockBase) :
    Session :=
  { session with
    blockBaseCache :=
      session.blockBaseCache.add environment.first blockHash base }

def clearCache (session : Session) : Session :=
  { session with blockBaseCache := .new session.blockBaseCache.capacity }

def loadCache (session : Session) (minHeight : Nat) :
    Except QueryError Unit × Session :=
  if session.answers environment 0 then
    (.ok (), (session.tables.blocks.rows.filter fun row =>
        minHeight ≤ row.height).foldl
      (fun session row => session.remember environment row.blockHash row.base)
      session.clearCache)
  else (.error .refused, session.abort)

def doesBlockExist (session : Session) (blockHash : Hash) :
    Except QueryError Bool × Session :=
  if session.blockBaseCache.has blockHash then (.ok true, session)
  else if session.answers environment 0 then
    match session.tables.blocks.find? blockHash with
    | none => (.ok false, session)
    | some row =>
        (.ok true, session.remember environment blockHash row.base)
  else (.error .refused, session.abort)

/-- The server gives the row its id.  Callers pass the hash that the row
has. -/
def insertBlock (session : Session) (row : BlockRow) :
    Except QueryError Unit × Session :=
  if session.answers environment 0 then
    match session.tables.insertBlock row with
    | .error _ => (.error .duplicateKey, session.abort)
    | .ok tables =>
        (.ok (), { session with tables := tables }.remember environment
          row.blockHash ⟨session.tables.blocks.nextID, row.height⟩)
  else (.error .refused, session.abort)

def blockBaseByHash (session : Session) (blockHash : Hash) :
    Except QueryError BlockBase × Session :=
  match session.blockBaseCache.get blockHash with
  | some base => (.ok base, session)
  | none =>
      if session.answers environment 0 then
        match session.tables.blocks.find? blockHash with
        | none => (.error (.blockHashNotFound blockHash .noRows), session)
        | some row =>
            (.ok row.base, session.remember environment blockHash row.base)
      else (.error (.blockHashNotFound blockHash .refused), session.abort)

def blockIDByHash (session : Session) (blockHash : Hash) :
    Except QueryError Nat × Session :=
  let (result, after) := session.blockBaseByHash environment blockHash
  (result.map BlockBase.id, after)

def blockHeightByHash (session : Session) (blockHash : Hash) :
    Except QueryError Nat × Session :=
  let (result, after) := session.blockBaseByHash environment blockHash
  (result.map BlockBase.height, after)

/-- Three statements; the tables before the one that fails are emptied. -/
def clear (session : Session) : Except QueryError Unit × Session :=
  let cleared := session.clearCache
  if cleared.answers environment 0 then
    let blocksCleared :=
      { cleared with
        tables :=
          { cleared.tables with blocks := cleared.tables.clear.blocks } }
    if cleared.answers environment 1 then
      let edgesCleared :=
        { blocksCleared with
          tables := { blocksCleared.tables with edges := [] } }
      if cleared.answers environment 2 then
        (.ok (), { edgesCleared with tables := cleared.tables.clear })
      else (.error .refused, edgesCleared.abort)
    else (.error .refused, blocksCleared.abort)
  else (.error .refused, cleared.abort)

end Operations

end Session

inductive Operation where
  | insertBlock (row : BlockRow)
  | doesBlockExist (blockHash : Hash)
  | blockIDByHash (blockHash : Hash)
  | blockHeightByHash (blockHash : Hash)
  | loadCache (minHeight : Nat)
  | clear

/-- Whether the operation returns without an error, and what it leaves. -/
def Operation.perform (environment : Environment) (session : Session) :
    Operation → Bool × Session
  | .insertBlock row =>
      (session.insertBlock environment row).map Except.isOk id
  | .doesBlockExist blockHash =>
      (session.doesBlockExist environment blockHash).map Except.isOk id
  | .blockIDByHash blockHash =>
      (session.blockIDByHash environment blockHash).map Except.isOk id
  | .blockHeightByHash blockHash =>
      (session.blockHeightByHash environment blockHash).map Except.isOk id
  | .loadCache minHeight =>
      (session.loadCache environment minHeight).map Except.isOk id
  | .clear => (session.clear environment).map Except.isOk id

/-- The operations with whether each returned without an error. -/
def Session.performAll (session : Session) :
    List (Operation × Environment) → List (Operation × Bool) × Session
  | [] => ([], session)
  | (operation, environment) :: later =>
      let (succeeded, after) := operation.perform environment session
      let (trace, last) := after.performAll later
      ((operation, succeeded) :: trace, last)

/-- One `RunInTransaction`: the operations of its function, and whether the
function or the commit returns an error. -/
structure Call where
  operations : List (Operation × Environment)
  returnsError : Bool

/-- Sequences are not part of a transaction. -/
def Blocks.skipTo (blocks : Blocks) (nextID : Nat) : Blocks :=
  { blocks with
    nextID := max blocks.nextID nextID
    id_lt := fun row member =>
      Nat.lt_of_lt_of_le (blocks.id_lt row member) (Nat.le_max_left _ _) }

structure CachedDatabase where
  database : Database
  blockBaseCache : LRUCache BlockBase

namespace CachedDatabase

def blockbaseCacheCapacity : Nat := 400000

def new (database : Database) : CachedDatabase :=
  ⟨database, .new blockbaseCacheCapacity⟩

def beginTransaction (db : CachedDatabase) : Session :=
  ⟨db.database, false, db.blockBaseCache⟩

/-- A commit after a failed statement rolls back, too. -/
def rollsBack (db : CachedDatabase) (call : Call) : Bool :=
  call.returnsError ||
    (db.beginTransaction.performAll call.operations).2.aborted

def runInTransaction (db : CachedDatabase) (call : Call) : CachedDatabase :=
  let session := (db.beginTransaction.performAll call.operations).2
  { database :=
      if db.rollsBack call then
        { db.database with
          blocks := db.database.blocks.skipTo session.tables.blocks.nextID }
      else session.tables
    blockBaseCache := session.blockBaseCache }

/-- Every entry is the row of its hash. -/
def Coherent (db : CachedDatabase) : Prop :=
  ∀ hash base, db.blockBaseCache.get hash = some base →
    ∃ row, db.database.blocks.find? hash = some row ∧ base = row.base

end CachedDatabase

end GraphInspector
