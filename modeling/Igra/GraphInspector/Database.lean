import Mathlib.Data.List.Nodup
import Mathlib.Data.List.Basic

/-!
# The database of the graph inspector

The tables of blocks, edges and height groups.  A hash and an id stand in at
most one row of the blocks, and new ids are greater than all that were given.
The cache in front of the blocks has a model of its own; while it is coherent,
reading it is reading the rows.
-/

namespace GraphInspector

abbrev Hash := BitVec 256

scoped instance hash_lawfulBEq : LawfulBEq Hash := inferInstance

inductive Color where
  | gray
  | red
  | blue
deriving DecidableEq

/-- A block as it is stored.  A merge set is JSON's null where the ids could not
be found. -/
structure BlockRow where
  id : Nat
  blockHash : Hash
  timestamp : Int
  parentIDs : List Nat
  daaScore : Nat
  height : Nat
  heightGroupIndex : Nat
  selectedParentID : Option Nat
  color : Color
  isInVirtualSelectedParentChain : Bool
  mergeSetRedIDs : Option (List Nat)
  mergeSetBlueIDs : Option (List Nat)
deriving DecidableEq

structure Edge where
  fromBlockID : Nat
  toBlockID : Nat
  fromHeight : Nat
  toHeight : Nat
  fromHeightGroupIndex : Nat
  toHeightGroupIndex : Nat
deriving DecidableEq

structure HeightGroup where
  height : Nat
  size : Nat
deriving DecidableEq

inductive NodeError where
  | notFound
  | other
deriving DecidableEq

inductive Failure where
  | blockHashNotFound (hash : Hash)
  | noRows
  | duplicateKey
  | node (error : NodeError)
deriving DecidableEq

theorem bind_eq_ok {ε α β : Type} {action : Except ε α} {rest : α → Except ε β}
    {result : β} :
    (action >>= rest) = .ok result ↔
      ∃ value, action = .ok value ∧ rest value = .ok result := by
  cases action with
  | error fault =>
      constructor
      · rintro ⟨⟩
      · rintro ⟨value, ⟨⟩, -⟩
  | ok value =>
      constructor
      · intro given
        exact ⟨value, rfl, given⟩
      · rintro ⟨_, ⟨⟩, given⟩
        exact given

theorem map_eq_ok {ε α β : Type} {action : Except ε α} {change : α → β}
    {result : β} (mapped : action.map change = .ok result) :
    ∃ value, action = .ok value ∧ change value = result := by
  cases action with
  | error fault => cases mapped
  | ok value => exact ⟨value, rfl, Except.ok.inj mapped⟩

theorem mapM_eq_ok {ε α β : Type} {action : α → Except ε β} {list : List α}
    {results : List β} :
    list.mapM action = .ok results ↔
      List.Forall₂ (fun value result => action value = .ok result) list
        results := by
  induction list generalizing results with
  | nil =>
      rw [List.mapM_nil, List.forall₂_nil_left_iff]
      constructor
      · rintro ⟨⟩
        rfl
      · rintro rfl
        rfl
  | cons value rest ih =>
      rw [List.mapM_cons, bind_eq_ok, List.forall₂_cons_left_iff]
      constructor
      · rintro ⟨result, first, others⟩
        obtain ⟨later, mapped, ⟨⟩⟩ := bind_eq_ok.mp others
        exact ⟨result, later, first, ih.mp mapped, rfl⟩
      · rintro ⟨result, later, first, mapped, rfl⟩
        exact ⟨result, first, bind_eq_ok.mpr ⟨later, ih.mpr mapped, rfl⟩⟩

theorem exists_of_forall₂ {α β : Type} {related : α → β → Prop} {left : List α}
    {right : List β} (pairs : List.Forall₂ related left right) {value : α}
    (member : value ∈ left) : ∃ other ∈ right, related value other := by
  induction pairs with
  | nil => cases member
  | @cons first second _ _ holds _ ih =>
      cases List.mem_cons.mp member with
      | inl same => exact ⟨second, List.mem_cons_self, same ▸ holds⟩
      | inr later =>
          obtain ⟨other, otherMember, otherHolds⟩ := ih later
          exact ⟨other, List.mem_cons_of_mem _ otherMember, otherHolds⟩

section Rows

theorem find?_column_eq_some_iff {Row Value : Type} [DecidableEq Value]
    {column : Row → Value} {rows : List Row} {row : Row} {value : Value}
    (unique : (rows.map column).Nodup) :
    (rows.find? fun row => column row = value) = some row ↔
      row ∈ rows ∧ column row = value := by
  constructor
  · intro found
    exact ⟨List.mem_of_find?_eq_some found, by
      simpa using List.find?_some found⟩
  · rintro ⟨member, rfl⟩
    cases found : rows.find? fun other => column other = column row with
    | none =>
        have fails := List.find?_eq_none.mp found row member
        simp at fails
    | some other =>
        have same : column other = column row := by
          simpa using List.find?_some found
        rw [List.inj_on_of_nodup_map unique (List.mem_of_find?_eq_some found)
          member same]

/-- The rows of the blocks with the id that the next one gets. -/
structure Blocks where
  rows : List BlockRow
  nextID : Nat
  uniqueHash : (rows.map (·.blockHash)).Nodup
  uniqueID : (rows.map (·.id)).Nodup
  id_lt : ∀ row ∈ rows, row.id < nextID

namespace Blocks

def hashes (blocks : Blocks) : List Hash := blocks.rows.map (·.blockHash)

def find? (blocks : Blocks) (hash : Hash) : Option BlockRow :=
  blocks.rows.find? fun row => row.blockHash = hash

def findID? (blocks : Blocks) (id : Nat) : Option BlockRow :=
  blocks.rows.find? fun row => row.id = id

variable {blocks : Blocks} {hash : Hash} {row other : BlockRow}

theorem eq_of_blockHash_eq (member : row ∈ blocks.rows)
    (otherMember : other ∈ blocks.rows)
    (same : row.blockHash = other.blockHash) : row = other :=
  List.inj_on_of_nodup_map blocks.uniqueHash member otherMember same

theorem eq_of_id_eq (member : row ∈ blocks.rows)
    (otherMember : other ∈ blocks.rows) (same : row.id = other.id) :
    row = other :=
  List.inj_on_of_nodup_map blocks.uniqueID member otherMember same

theorem find?_eq_some_iff :
    blocks.find? hash = some row ↔ row ∈ blocks.rows ∧ row.blockHash = hash :=
  find?_column_eq_some_iff blocks.uniqueHash

theorem findID?_eq_some_iff {id : Nat} :
    blocks.findID? id = some row ↔ row ∈ blocks.rows ∧ row.id = id :=
  find?_column_eq_some_iff blocks.uniqueID

theorem mem_hashes_iff :
    hash ∈ blocks.hashes ↔ ∃ row ∈ blocks.rows, row.blockHash = hash :=
  List.mem_map

/-- A row gets the next id. -/
def insert (blocks : Blocks) (row : BlockRow)
    (new : row.blockHash ∉ blocks.hashes) : Blocks where
  rows := blocks.rows ++ [{ row with id := blocks.nextID }]
  nextID := blocks.nextID + 1
  uniqueHash := by
    rw [List.map_append, List.nodup_append]
    refine ⟨blocks.uniqueHash, List.nodup_singleton _, ?_⟩
    rintro hash member other single rfl
    rw [List.mem_singleton.mp single] at member
    exact new member
  uniqueID := by
    rw [List.map_append, List.nodup_append]
    refine ⟨blocks.uniqueID, List.nodup_singleton _, ?_⟩
    rintro id member other single rfl
    obtain ⟨older, olderMember, rfl⟩ := List.mem_map.mp member
    have less := blocks.id_lt older olderMember
    have same : older.id = blocks.nextID := List.mem_singleton.mp single
    omega
  id_lt := by
    intro stored member
    cases List.mem_append.mp member with
    | inl older =>
        have less := blocks.id_lt stored older
        omega
    | inr last =>
        rw [List.mem_singleton.mp last]
        exact Nat.lt_succ_self _

/-- The row with an id is changed in other columns. -/
def update (blocks : Blocks) (id : Nat) (change : BlockRow → BlockRow)
    (keepsHash : ∀ row, (change row).blockHash = row.blockHash)
    (keepsID : ∀ row, (change row).id = row.id) : Blocks where
  rows := blocks.rows.map fun row => if row.id = id then change row else row
  nextID := blocks.nextID
  uniqueHash := by
    have same : (blocks.rows.map fun row =>
        if row.id = id then change row else row).map (·.blockHash) =
        blocks.rows.map (·.blockHash) := by
      rw [List.map_map]
      apply List.map_congr_left
      intro row _
      simp only [Function.comp_apply, apply_ite BlockRow.blockHash, keepsHash,
        ite_self]
    rw [same]
    exact blocks.uniqueHash
  uniqueID := by
    have same : (blocks.rows.map fun row =>
        if row.id = id then change row else row).map (·.id) =
        blocks.rows.map (·.id) := by
      rw [List.map_map]
      apply List.map_congr_left
      intro row _
      simp only [Function.comp_apply, apply_ite BlockRow.id, keepsID, ite_self]
    rw [same]
    exact blocks.uniqueID
  id_lt := by
    intro row member
    obtain ⟨older, olderMember, rfl⟩ := List.mem_map.mp member
    simp only [apply_ite BlockRow.id, keepsID, ite_self]
    exact blocks.id_lt older olderMember

end Blocks

end Rows

structure Database where
  blocks : Blocks
  edges : List Edge
  heightGroups : List HeightGroup

namespace Database

section Operations

def doesBlockExist (db : Database) (blockHash : Hash) : Bool :=
  (db.blocks.find? blockHash).isSome

def insertBlock (db : Database) (row : BlockRow) : Except Failure Database :=
  if new : row.blockHash ∉ db.blocks.hashes then
    .ok { db with blocks := db.blocks.insert row new }
  else .error .duplicateKey

def updateBlockSelectedParent (db : Database) (blockID selectedParentID : Nat) :
    Database :=
  { db with
    blocks := db.blocks.update blockID
      (fun row => { row with selectedParentID := some selectedParentID })
      (fun _ => rfl) fun _ => rfl }

def updateBlockMergeSet (db : Database) (blockID : Nat)
    (mergeSetRedIDs mergeSetBlueIDs : Option (List Nat)) : Database :=
  { db with
    blocks := db.blocks.update blockID
      (fun row => { row with
        mergeSetRedIDs := mergeSetRedIDs
        mergeSetBlueIDs := mergeSetBlueIDs })
      (fun _ => rfl) fun _ => rfl }

/-- The rows are updated one by one, as a map from ids to values is iterated. -/
def updateEach {Value : Type} (change : Value → BlockRow → BlockRow)
    (keepsHash : ∀ value row, (change value row).blockHash = row.blockHash)
    (keepsID : ∀ value row, (change value row).id = row.id) (db : Database)
    (entries : List (Nat × Value)) : Database :=
  entries.foldl (fun db entry =>
    { db with
      blocks := db.blocks.update entry.1 (change entry.2) (keepsHash entry.2)
        (keepsID entry.2) }) db

def updateBlockIsInVirtualSelectedParentChain :
    Database → List (Nat × Bool) → Database :=
  updateEach
    (fun flag row => { row with isInVirtualSelectedParentChain := flag })
    (fun _ _ => rfl) fun _ _ => rfl

def updateBlockColors : Database → List (Nat × Color) → Database :=
  updateEach (fun color row => { row with color := color }) (fun _ _ => rfl)
    fun _ _ => rfl

def blockBaseByHash (db : Database) (blockHash : Hash) :
    Except Failure (Nat × Nat) :=
  match db.blocks.find? blockHash with
  | some row => .ok (row.id, row.height)
  | none => .error (.blockHashNotFound blockHash)

def blockIDByHash (db : Database) (blockHash : Hash) : Except Failure Nat := do
  let base ← db.blockBaseByHash blockHash
  pure base.1

def blockIDsByHashes (db : Database) (blockHashes : List Hash) :
    Except Failure (List Nat) :=
  blockHashes.mapM db.blockIDByHash

def blockIDsAndHeightsByHashes (db : Database) (blockHashes : List Hash) :
    Except Failure (List Nat × List Nat) := do
  let bases ← blockHashes.mapM db.blockBaseByHash
  pure (bases.map Prod.fst, bases.map Prod.snd)

def heightGroupSize (db : Database) (height : Nat) : Nat :=
  match db.heightGroups.find? fun group => group.height = height with
  | some group => group.size
  | none => 0

def blockHeight (db : Database) (blockID : Nat) : Except Failure Nat :=
  match db.blocks.findID? blockID with
  | some row => .ok row.height
  | none => .error .noRows

def blockHeightGroupIndex (db : Database) (blockID : Nat) :
    Except Failure Nat :=
  match db.blocks.findID? blockID with
  | some row => .ok row.heightGroupIndex
  | none => .error .noRows

def insertEdge (db : Database) (edge : Edge) : Except Failure Database :=
  if ∃ stored ∈ db.edges, stored.fromBlockID = edge.fromBlockID ∧
      stored.toBlockID = edge.toBlockID then
    .error .duplicateKey
  else .ok { db with edges := db.edges ++ [edge] }

def insertOrUpdateHeightGroup (db : Database) (group : HeightGroup) : Database :=
  { db with
    heightGroups :=
      if ∃ stored ∈ db.heightGroups, stored.height = group.height then
        db.heightGroups.map fun stored =>
          if stored.height = group.height then group else stored
      else db.heightGroups ++ [group] }

/-- The tables are emptied; the sequence of ids goes on. -/
def clear (db : Database) : Database where
  blocks := ⟨[], db.blocks.nextID, List.nodup_nil, List.nodup_nil, by simp⟩
  edges := []
  heightGroups := []

end Operations

variable {db after : Database} {hash : Hash} {row : BlockRow}

def hashes (db : Database) : List Hash := db.blocks.hashes

theorem doesBlockExist_iff : db.doesBlockExist hash = true ↔ hash ∈ db.hashes := by
  rw [doesBlockExist, Option.isSome_iff_exists, hashes, Blocks.mem_hashes_iff]
  constructor
  · rintro ⟨row, found⟩
    exact ⟨row, Blocks.find?_eq_some_iff.mp found⟩
  · rintro ⟨row, found⟩
    exact ⟨row, Blocks.find?_eq_some_iff.mpr found⟩

theorem blockBaseByHash_eq_ok {base : Nat × Nat} :
    db.blockBaseByHash hash = .ok base ↔
      ∃ row ∈ db.blocks.rows, row.blockHash = hash ∧
        base = (row.id, row.height) := by
  unfold blockBaseByHash
  split
  · rename_i row found
    have stored := Blocks.find?_eq_some_iff.mp found
    constructor
    · rintro ⟨⟩
      exact ⟨row, stored.1, stored.2, rfl⟩
    · rintro ⟨other, member, same, rfl⟩
      rw [Blocks.eq_of_blockHash_eq member stored.1 (same.trans stored.2.symm)]
  · rename_i missing
    constructor
    · rintro ⟨⟩
    · rintro ⟨row, member, same, -⟩
      rw [Blocks.find?_eq_some_iff.mpr ⟨member, same⟩] at missing
      cases missing

theorem blockIDByHash_eq_ok {id : Nat} :
    db.blockIDByHash hash = .ok id ↔
      ∃ row ∈ db.blocks.rows, row.blockHash = hash ∧ row.id = id := by
  unfold blockIDByHash
  rw [bind_eq_ok]
  constructor
  · rintro ⟨base, found, ⟨⟩⟩
    obtain ⟨row, member, same, rfl⟩ := blockBaseByHash_eq_ok.mp found
    exact ⟨row, member, same, rfl⟩
  · rintro ⟨row, member, same, rfl⟩
    exact ⟨_, blockBaseByHash_eq_ok.mpr ⟨row, member, same, rfl⟩, rfl⟩

theorem blockIDsAndHeightsByHashes_eq_ok {hashes : List Hash}
    {ids heights : List Nat}
    (resolved : db.blockIDsAndHeightsByHashes hashes = .ok (ids, heights))
    (member : row ∈ db.blocks.rows) (named : row.blockHash ∈ hashes) :
    row.id ∈ ids ∧ row.height ∈ heights := by
  unfold blockIDsAndHeightsByHashes at resolved
  obtain ⟨bases, mapped, ⟨⟩⟩ := bind_eq_ok.mp resolved
  obtain ⟨base, baseMember, found⟩ :=
    exists_of_forall₂ (mapM_eq_ok.mp mapped) named
  obtain ⟨other, otherMember, same, rfl⟩ := blockBaseByHash_eq_ok.mp found
  obtain rfl := Blocks.eq_of_blockHash_eq otherMember member same
  exact ⟨List.mem_map_of_mem baseMember, List.mem_map_of_mem baseMember⟩

end Database

section AsStored

/-- A row as its block was first stored.  What is left out is updated later. -/
def BlockRow.asStored (row : BlockRow) : BlockRow :=
  { row with
    selectedParentID := none
    mergeSetRedIDs := some []
    mergeSetBlueIDs := some [] }

/-- The rows in the order in which they were stored. -/
def Database.storedRows (db : Database) : List BlockRow :=
  db.blocks.rows.map BlockRow.asStored

namespace Database

variable {db after : Database} {row : BlockRow}

theorem map_blockHash_storedRows :
    db.storedRows.map (·.blockHash) = db.hashes := by
  unfold storedRows hashes Blocks.hashes
  rw [List.map_map]
  rfl

theorem storedRows_update (id : Nat) (change : BlockRow → BlockRow)
    (keepsHash : ∀ row, (change row).blockHash = row.blockHash)
    (keepsID : ∀ row, (change row).id = row.id)
    (keeps : ∀ row, (change row).asStored = row.asStored) :
    storedRows { db with
      blocks := db.blocks.update id change keepsHash keepsID } =
      db.storedRows := by
  unfold storedRows Blocks.update
  rw [List.map_map]
  apply List.map_congr_left
  intro row _
  simp only [Function.comp_apply, apply_ite BlockRow.asStored, keeps, ite_self]

@[simp] theorem storedRows_updateBlockSelectedParent (id parent : Nat) :
    (db.updateBlockSelectedParent id parent).storedRows = db.storedRows :=
  storedRows_update id _ _ _ fun _ => rfl

@[simp] theorem storedRows_updateBlockMergeSet (id : Nat)
    (reds blues : Option (List Nat)) :
    (db.updateBlockMergeSet id reds blues).storedRows = db.storedRows :=
  storedRows_update id _ _ _ fun _ => rfl

theorem insertBlock_eq_ok :
    db.insertBlock row = .ok after ↔
      ∃ new : row.blockHash ∉ db.blocks.hashes,
        after = { db with blocks := db.blocks.insert row new } := by
  unfold insertBlock
  split
  · rename_i new
    constructor
    · rintro ⟨⟩
      exact ⟨new, rfl⟩
    · rintro ⟨_, rfl⟩
      rfl
  · rename_i taken
    constructor
    · rintro ⟨⟩
    · rintro ⟨new, -⟩
      exact absurd new taken

theorem blockIDByHash_insert (new : row.blockHash ∉ db.blocks.hashes) :
    blockIDByHash { db with blocks := db.blocks.insert row new } row.blockHash =
      .ok db.blocks.nextID :=
  blockIDByHash_eq_ok.mpr ⟨{ row with id := db.blocks.nextID },
    List.mem_append_right _ (List.mem_singleton_self _), rfl, rfl⟩

theorem storedRows_insert (new : row.blockHash ∉ db.blocks.hashes) :
    storedRows { db with blocks := db.blocks.insert row new } =
      db.storedRows ++ [BlockRow.asStored { row with id := db.blocks.nextID }] :=
  List.map_append

theorem insertEdge_eq_ok {edge : Edge} (inserted : db.insertEdge edge = .ok after) :
    after = { db with edges := db.edges ++ [edge] } := by
  unfold insertEdge at inserted
  split at inserted
  · cases inserted
  · cases inserted
    rfl

end Database

end AsStored

end GraphInspector
