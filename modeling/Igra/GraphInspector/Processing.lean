import Igra.GraphInspector.Database

/-!
# Processing of blocks

A block is stored together with the ancestors that the database misses.  They
are collected in a batch, parents behind the block that has them, and processed
from the end of the batch.
-/

namespace GraphInspector

section Node

/-- A block by its header, with the hash of the header. -/
structure Block where
  hash : Hash
  timeInMilliseconds : Int
  daaScore : Nat
  directParents : List Hash
deriving DecidableEq

inductive BlockStatus where
  | headerOnly
  | withBody
deriving DecidableEq

structure GhostdagData where
  selectedParent : Hash
  mergeSetBlues : List Hash
  mergeSetReds : List Hash
deriving DecidableEq

/-- What the node answers.  It knows finitely many blocks, each under its own
hash, and their parents are older. -/
structure Node where
  getBlockEvenIfHeaderOnly : Hash → Except NodeError Block
  getBlockInfo : Hash → Except NodeError BlockStatus
  blockGHOSTDAGData : Hash → Except NodeError GhostdagData
  known : List Hash
  mem_known : ∀ hash block, getBlockEvenIfHeaderOnly hash = .ok block →
    hash ∈ known
  hash_eq : ∀ hash block, getBlockEvenIfHeaderOnly hash = .ok block →
    block.hash = hash
  acyclic : ∃ age : Hash → Nat, ∀ hash block,
    getBlockEvenIfHeaderOnly hash = .ok block →
      ∀ parent ∈ block.directParents, age parent < age hash

end Node

section Collecting

structure BlockAndHash where
  block : Block
  hash : Hash

structure Batch where
  blocks : List BlockAndHash
  pruningBlock : Option Block

namespace Batch

def hashes (batch : Batch) : List Hash := batch.blocks.map (·.hash)

def inScope (pruningBlock : Option Block) (block : Block) : Bool :=
  match pruningBlock with
  | none => true
  | some pruning => pruning.daaScore ≤ block.daaScore

def add (batch : Batch) (hash : Hash) (block : Block) : Batch :=
  if hash ∉ batch.hashes ∧ inScope batch.pruningBlock block then
    { batch with blocks := batch.blocks ++ [⟨block, hash⟩] }
  else batch

/-- A parent that the node does not find is left out. -/
def collectParent (node : Node) (db : Database) (batch : Batch)
    (parentHash : Hash) : Except Failure Batch :=
  if db.doesBlockExist parentHash then .ok batch
  else
    match node.getBlockEvenIfHeaderOnly parentHash with
    | .ok parentBlock => .ok (batch.add parentHash parentBlock)
    | .error .notFound => .ok batch
    | .error .other => .error (.node .other)

def collectDirectDependencies (node : Node) (db : Database) (batch : Batch)
    (block : Block) : Except Failure Batch :=
  block.directParents.foldlM (collectParent node db) batch

/-- The blocks from a position on are taken, those that are added on the way
included. -/
def collectFrom (node : Node) (db : Database) :
    Nat → Batch → Nat → Except Failure Batch
  | 0, batch, _ => .ok batch
  | rounds + 1, batch, position =>
      match batch.blocks[position]? with
      | none => .ok batch
      | some item => do
          let batch ← batch.collectDirectDependencies node db item.block
          collectFrom node db rounds batch (position + 1)

/-- A round for each block that the node knows is enough. -/
def collectBlockAndDependencies (node : Node) (db : Database) (batch : Batch)
    (hash : Hash) (block : Block) : Except Failure Batch :=
  collectFrom node db node.known.length (batch.add hash block) 0

end Batch

end Collecting

section Storing

/-- One more than the greatest height. -/
def heightOver (parentHeights : List Nat) : Nat :=
  parentHeights.foldl (fun height parent => max height (parent + 1)) 0

def storeEdge (blockID blockHeight blockHeightGroupIndex : Nat) (db : Database)
    (parentID : Nat) : Except Failure Database := do
  let parentHeight ← db.blockHeight parentID
  let parentHeightGroupIndex ← db.blockHeightGroupIndex parentID
  db.insertEdge
    { fromBlockID := blockID
      toBlockID := parentID
      fromHeight := blockHeight
      toHeight := parentHeight
      fromHeightGroupIndex := blockHeightGroupIndex
      toHeightGroupIndex := parentHeightGroupIndex }

/-- The row of a new block; its id is given when it is inserted. -/
def newRow (block : Block) (parentIDs : List Nat)
    (blockHeight blockHeightGroupIndex : Nat) : BlockRow where
  id := 0
  blockHash := block.hash
  timestamp := block.timeInMilliseconds
  parentIDs := parentIDs
  daaScore := block.daaScore
  height := blockHeight
  heightGroupIndex := blockHeightGroupIndex
  selectedParentID := none
  color := .gray
  isInVirtualSelectedParentChain := false
  mergeSetRedIDs := some []
  mergeSetBlueIDs := some []

/-- The block that is not yet in the database, with those of its parents that
are. -/
def storeBlock (db : Database) (block : Block) : Except Failure Database := do
  let existingParentHashes := block.directParents.filter db.doesBlockExist
  let (parentIDs, parentHeights) ←
    db.blockIDsAndHeightsByHashes existingParentHashes
  let blockHeight := heightOver parentHeights
  let blockHeightGroupIndex := db.heightGroupSize blockHeight
  let db ← db.insertBlock
    (newRow block parentIDs blockHeight blockHeightGroupIndex)
  let blockID ← db.blockIDByHash block.hash
  let db := db.insertOrUpdateHeightGroup
    ⟨blockHeight, blockHeightGroupIndex + 1⟩
  parentIDs.foldlM (storeEdge blockID blockHeight blockHeightGroupIndex) db

/-- Ids of merge sets that cannot be found are only logged. -/
def updateGhostdagData (node : Node) (db : Database) (blockHash : Hash) :
    Except Failure Database := do
  let data ← (node.blockGHOSTDAGData blockHash).mapError Failure.node
  let selectedParentID ← db.blockIDByHash data.selectedParent
  let blockID ← db.blockIDByHash blockHash
  let db := db.updateBlockSelectedParent blockID selectedParentID
  let mergeSetRedIDs := (db.blockIDsByHashes data.mergeSetReds).toOption
  let mergeSetBlueIDs := (db.blockIDsByHashes data.mergeSetBlues).toOption
  pure (db.updateBlockMergeSet blockID mergeSetRedIDs mergeSetBlueIDs)

def processBlock (node : Node) (db : Database) (block : Block) :
    Except Failure Database := do
  let blockExists := db.doesBlockExist block.hash
  let isIncompleteBlock := !blockExists &&
    block.directParents.any fun parent => !db.doesBlockExist parent
  let db ← (if blockExists then .ok db else storeBlock db block)
  let status ← (node.getBlockInfo block.hash).mapError Failure.node
  if status = .headerOnly ∨ isIncompleteBlock then pure db
  else updateGhostdagData node db block.hash

/-- The blocks of the batch are popped, the last one first. -/
def processBatch (node : Node) (db : Database) (batch : Batch) :
    Except Failure Database :=
  batch.blocks.reverse.foldlM (fun db item => processBlock node db item.block) db

def processBlockAndDependencies (node : Node) (db : Database) (hash : Hash)
    (block : Block) (pruningBlock : Option Block) : Except Failure Database := do
  let batch ← Batch.collectBlockAndDependencies node db ⟨[], pruningBlock⟩ hash
    block
  processBatch node db batch

/-- The database as a resynchronisation from scratch leaves it. -/
def storePruningPoint (db : Database) (pruningPoint : Hash)
    (timeInMilliseconds : Int) : Except Failure Database := do
  let db ← db.clear.insertBlock
    { newRow ⟨pruningPoint, timeInMilliseconds, 0, []⟩ [] 0 0 with
      isInVirtualSelectedParentChain := true }
  pure (db.insertOrUpdateHeightGroup ⟨0, 1⟩)

end Storing

section Stored

variable {node : Node} {db after : Database} {block : Block} {row : BlockRow}

/-- A row names a parent, has an edge to it and stands above it. -/
structure Linked (edges : List Edge) (row parent : BlockRow) : Prop where
  parentIDs : parent.id ∈ row.parentIDs
  edge : ∃ edge ∈ edges, edge.fromBlockID = row.id ∧ edge.toBlockID = parent.id
  height : parent.height < row.height

theorem Linked.mono {edges more : List Edge} {parent : BlockRow}
    (linked : Linked edges row parent) (subset : edges ⊆ more) :
    Linked more row parent where
  parentIDs := linked.parentIDs
  edge := by
    obtain ⟨edge, member, ends⟩ := linked.edge
    exact ⟨edge, subset member, ends⟩
  height := linked.height

/-- A new block stands behind the stored ones and is linked to those of its
parents that are among them. -/
structure Stored (db after : Database) (block : Block) (row : BlockRow) :
    Prop where
  rows : after.storedRows = db.storedRows ++ [row]
  blockHash : row.blockHash = block.hash
  color : row.color = .gray
  isInVirtualSelectedParentChain : row.isInVirtualSelectedParentChain = false
  parents : ∀ parent ∈ db.storedRows, parent.blockHash ∈ block.directParents →
    Linked after.edges row parent
  edges : db.edges ⊆ after.edges

private theorem le_heightFold (heights : List Nat) (start : Nat) :
    start ≤ heights.foldl (fun height parent => max height (parent + 1)) start := by
  induction heights generalizing start with
  | nil => exact Nat.le_refl start
  | cons height heights ih => exact Nat.le_trans (Nat.le_max_left _ _) (ih _)

theorem lt_heightOver {heights : List Nat} {height : Nat}
    (member : height ∈ heights) : height < heightOver heights := by
  unfold heightOver
  generalize 0 = start
  induction heights generalizing start with
  | nil => cases member
  | cons first heights ih =>
      rw [List.foldl_cons]
      cases List.mem_cons.mp member with
      | inl same =>
          have above := le_heightFold heights (max start (first + 1))
          rw [same]
          omega
      | inr later => exact ih later _

/-- An edge for each parent is added. -/
theorem storeEdges_eq_ok {blockID blockHeight blockHeightGroupIndex : Nat}
    {parentIDs : List Nat}
    (stored : parentIDs.foldlM
      (storeEdge blockID blockHeight blockHeightGroupIndex) db = .ok after) :
    after.blocks = db.blocks ∧ db.edges ⊆ after.edges ∧
      ∀ id ∈ parentIDs, ∃ edge ∈ after.edges,
        edge.fromBlockID = blockID ∧ edge.toBlockID = id := by
  induction parentIDs generalizing db with
  | nil =>
      cases stored
      exact ⟨rfl, List.Subset.refl _, by simp⟩
  | cons parentID parentIDs ih =>
      rw [List.foldlM_cons, bind_eq_ok] at stored
      obtain ⟨middle, first, rest⟩ := stored
      obtain ⟨blocks, edges, others⟩ := ih rest
      unfold storeEdge at first
      obtain ⟨parentHeight, -, first⟩ := bind_eq_ok.mp first
      obtain ⟨parentIndex, -, inserted⟩ := bind_eq_ok.mp first
      rw [Database.insertEdge_eq_ok inserted] at blocks edges
      refine ⟨blocks, List.Subset.trans (List.subset_append_left _ _) edges, ?_⟩
      intro id member
      cases List.mem_cons.mp member with
      | inl same =>
          have last := edges (List.mem_append_right _ (List.mem_singleton_self _))
          exact ⟨_, last, rfl, same.symm⟩
      | inr later => exact others id later

theorem storeBlock_eq_ok (stored : storeBlock db block = .ok after) :
    ∃ row, Stored db after block row := by
  unfold storeBlock at stored
  obtain ⟨⟨parentIDs, parentHeights⟩, resolved, stored⟩ := bind_eq_ok.mp stored
  obtain ⟨inserted, insertion, stored⟩ := bind_eq_ok.mp stored
  obtain ⟨blockID, found, stored⟩ := bind_eq_ok.mp stored
  obtain ⟨new, rfl⟩ := Database.insertBlock_eq_ok.mp insertion
  obtain ⟨blocks, edges, linked⟩ := storeEdges_eq_ok stored
  have given := found.symm.trans (Database.blockIDByHash_insert new)
  cases given
  have rows := Database.storedRows_insert new
  refine ⟨BlockRow.asStored { newRow block parentIDs (heightOver parentHeights)
      (db.heightGroupSize (heightOver parentHeights)) with
        id := db.blocks.nextID }, ?_, rfl, rfl, rfl, ?_, edges⟩
  · unfold Database.storedRows at rows ⊢
    rw [blocks]
    exact rows
  · intro parent member isParent
    obtain ⟨older, olderMember, rfl⟩ := List.mem_map.mp member
    have existing : older.blockHash ∈
        block.directParents.filter db.doesBlockExist := by
      rw [List.mem_filter, Database.doesBlockExist_iff]
      exact ⟨isParent, List.mem_map_of_mem olderMember⟩
    obtain ⟨id, height⟩ := Database.blockIDsAndHeightsByHashes_eq_ok resolved
      olderMember existing
    exact ⟨id, linked _ id, lt_heightOver height⟩

private theorem updateGhostdagData_eq_ok {hash : Hash}
    (updated : updateGhostdagData node db hash = .ok after) :
    after.storedRows = db.storedRows ∧ after.edges = db.edges := by
  unfold updateGhostdagData at updated
  obtain ⟨data, -, updated⟩ := bind_eq_ok.mp updated
  obtain ⟨selectedParentID, -, updated⟩ := bind_eq_ok.mp updated
  obtain ⟨blockID, -, ⟨⟩⟩ := bind_eq_ok.mp updated
  constructor
  · simp
  · rfl

/-- What processing a block does to the rows as they were stored. -/
theorem processBlock_eq_ok (processed : processBlock node db block = .ok after) :
    block.hash ∈ db.hashes ∧ after.storedRows = db.storedRows ∧
        after.edges = db.edges ∨
      block.hash ∉ db.hashes ∧ ∃ row, Stored db after block row := by
  unfold processBlock at processed
  obtain ⟨middle, first, processed⟩ := bind_eq_ok.mp processed
  obtain ⟨status, -, processed⟩ := bind_eq_ok.mp processed
  have rest : after.storedRows = middle.storedRows ∧
      after.edges = middle.edges := by
    split at processed
    · cases processed
      exact ⟨rfl, rfl⟩
    · exact updateGhostdagData_eq_ok processed
  by_cases blockExists : db.doesBlockExist block.hash = true
  · rw [if_pos blockExists] at first
    cases first
    exact .inl ⟨Database.doesBlockExist_iff.mp blockExists, rest⟩
  · rw [if_neg blockExists] at first
    obtain ⟨row, stored⟩ := storeBlock_eq_ok first
    rw [Database.doesBlockExist_iff] at blockExists
    refine .inr ⟨blockExists, row, ?_⟩
    exact
      { stored with
        rows := rest.1.trans stored.rows
        parents := rest.2 ▸ stored.parents
        edges := rest.2 ▸ stored.edges }

end Stored

section Samples

/-- A node that knows blocks whose hashes increase along the DAG. -/
def nodeOf (blocks : List Block)
    (older : ∀ block ∈ blocks, ∀ parent ∈ block.directParents,
      parent < block.hash) (data : Hash → Option GhostdagData) : Node where
  getBlockEvenIfHeaderOnly hash :=
    match blocks.find? fun block => block.hash = hash with
    | some block => .ok block
    | none => .error .notFound
  getBlockInfo _ := .ok .withBody
  blockGHOSTDAGData hash :=
    match data hash with
    | some found => .ok found
    | none => .error .notFound
  known := blocks.map (·.hash)
  mem_known := by
    intro hash block found
    split at found
    · rename_i block known
      cases found
      have same : block.hash = hash := by simpa using List.find?_some known
      rw [← same]
      exact List.mem_map_of_mem (List.mem_of_find?_eq_some known)
    · cases found
  hash_eq := by
    intro hash block found
    split at found
    · rename_i block known
      cases found
      simpa using List.find?_some known
    · cases found
  acyclic := by
    refine ⟨BitVec.toNat, ?_⟩
    intro hash block found parent isParent
    split at found
    · rename_i block known
      cases found
      have same : block.hash = hash := by simpa using List.find?_some known
      rw [← same]
      exact older block (List.mem_of_find?_eq_some known) parent isParent
    · cases found

def dataOf (table : List (Hash × GhostdagData)) (hash : Hash) :
    Option GhostdagData :=
  (table.find? fun entry => entry.1 = hash).map Prod.snd

def emptyDatabase : Database where
  blocks := ⟨[], 1, List.nodup_nil, List.nodup_nil, by simp⟩
  edges := []
  heightGroups := []

def prunedRow : BlockRow :=
  { newRow ⟨0, 0, 0, []⟩ [] 0 0 with
    id := 1
    isInVirtualSelectedParentChain := true }

private theorem prunedRow_id_lt : ∀ row ∈ [prunedRow], row.id < 2 := by
  intro row member
  rw [List.mem_singleton.mp member]
  exact Nat.lt_succ_self 1

/-- The database that has the pruning point 0. -/
def prunedDatabase : Database where
  blocks := ⟨[prunedRow], 2, List.nodup_singleton _, List.nodup_singleton _,
    prunedRow_id_lt⟩
  edges := []
  heightGroups := [⟨0, 1⟩]

theorem storePruningPoint_emptyDatabase :
    storePruningPoint emptyDatabase 0 0 = .ok prunedDatabase := rfl

end Samples

end GraphInspector
