import Igra.GraphInspector.DependencyOrder
import Igra.Runs

/-!
# The layout of the graph

A block stands one height above its parents, at the next free index of that
height, and an edge repeats where its two blocks stand.  Nothing of it is
updated when a block is processed again.
-/

open Runs

namespace GraphInspector

/-- One more than the greatest height, and 0 when there is none. -/
def aboveHeights (heights : List Nat) : Nat :=
  match heights.max? with
  | none => 0
  | some height => height + 1

def edgeBetween (source target : BlockRow) : Edge where
  fromBlockID := source.id
  toBlockID := target.id
  fromHeight := source.height
  toHeight := target.height
  fromHeightGroupIndex := source.heightGroupIndex
  toHeightGroupIndex := target.heightGroupIndex

/-- The rows that the ids stand for. -/
structure Resolved (db : Database) (ids : List Nat) (parents : List BlockRow) :
    Prop where
  stored : parents ⊆ db.blocks.rows
  ids : parents.map (·.id) = ids

/-- The parents of a row are those with which it was stored. -/
structure Layout (db : Database) : Prop where
  indexes : ∀ height,
    (db.blocks.rows.filter fun row => row.height = height).map
      (·.heightGroupIndex) = List.range (db.heightGroupSize height)
  heights : ∀ row ∈ db.blocks.rows, ∃ parents,
    Resolved db row.parentIDs parents ∧
    row.height = aboveHeights (parents.map (·.height))
  edges : ∀ edge ∈ db.edges, ∃ source ∈ db.blocks.rows,
    ∃ target ∈ db.blocks.rows,
      edge = edgeBetween source target ∧ target.height < source.height

/-- A call, with the node as it is then.  One that fails is rolled back. -/
def Step (db : Database) (call : Node × Block) (next : Database) : Prop :=
  processBlock call.1 db call.2 = .ok next ∨
    (∃ failure, processBlock call.1 db call.2 = .error failure) ∧ next = db

section Heights

theorem heightFold_eq (heights : List Nat) (start : Nat) :
    heights.foldl (fun height parent => max height (parent + 1)) start =
      max start (aboveHeights heights) := by
  induction heights generalizing start with
  | nil => exact (Nat.max_zero start).symm
  | cons height heights ih =>
      rw [List.foldl_cons, ih]
      unfold aboveHeights
      rw [List.max?_cons]
      cases heights.max? with
      | none => simp
      | some greatest =>
          simp only [Option.elim_some]
          omega

theorem heightOver_eq (heights : List Nat) :
    heightOver heights = aboveHeights heights :=
  (heightFold_eq heights 0).trans (Nat.zero_max _)

end Heights

section Updates

/-- The columns that decide where a block stands. -/
structure SamePlace (left right : BlockRow) : Prop where
  id : left.id = right.id
  blockHash : left.blockHash = right.blockHash
  parentIDs : left.parentIDs = right.parentIDs
  height : left.height = right.height
  heightGroupIndex : left.heightGroupIndex = right.heightGroupIndex

variable {db middle after : Database}

theorem SamePlace.edgeBetween {left right source target : BlockRow}
    (first : SamePlace left source) (second : SamePlace right target) :
    edgeBetween left right = edgeBetween source target := by
  simp [GraphInspector.edgeBetween, first.id, first.height,
    first.heightGroupIndex, second.id, second.height, second.heightGroupIndex]

/-- Only other columns of the blocks differ. -/
structure Redrawn (db after : Database) (change : BlockRow → BlockRow) :
    Prop where
  same : ∀ row, SamePlace (change row) row
  rows : after.blocks.rows = db.blocks.rows.map change
  edges : after.edges = db.edges
  heightGroups : after.heightGroups = db.heightGroups

theorem Redrawn.refl (db : Database) : Redrawn db db id where
  same _ := ⟨rfl, rfl, rfl, rfl, rfl⟩
  rows := (List.map_id _).symm
  edges := rfl
  heightGroups := rfl

theorem Redrawn.trans {first second : BlockRow → BlockRow}
    (earlier : Redrawn db middle first) (later : Redrawn middle after second) :
    Redrawn db after (second ∘ first) where
  same row := by
    have inner := earlier.same row
    have outer := later.same (first row)
    exact ⟨outer.id.trans inner.id, outer.blockHash.trans inner.blockHash,
      outer.parentIDs.trans inner.parentIDs, outer.height.trans inner.height,
      outer.heightGroupIndex.trans inner.heightGroupIndex⟩
  rows := by rw [later.rows, earlier.rows, List.map_map]
  edges := later.edges.trans earlier.edges
  heightGroups := later.heightGroups.trans earlier.heightGroups

private theorem redrawn_of_updateGhostdagData {node : Node} {hash : Hash}
    (updated : updateGhostdagData node db hash = .ok after) :
    ∃ change, Redrawn db after change := by
  unfold updateGhostdagData at updated
  obtain ⟨data, -, updated⟩ := bind_eq_ok.mp updated
  obtain ⟨selectedParentID, -, updated⟩ := bind_eq_ok.mp updated
  obtain ⟨blockID, -, ⟨⟩⟩ := bind_eq_ok.mp updated
  have selected : Redrawn db
      (db.updateBlockSelectedParent blockID selectedParentID) _ :=
    ⟨fun row => by split <;> exact ⟨rfl, rfl, rfl, rfl, rfl⟩, rfl, rfl, rfl⟩
  exact ⟨_, selected.trans
    ⟨fun row => by split <;> exact ⟨rfl, rfl, rfl, rfl, rfl⟩, rfl, rfl, rfl⟩⟩

theorem Layout.redrawn {change : BlockRow → BlockRow} (layout : Layout db)
    (redrawn : Redrawn db after change) : Layout after := by
  constructor
  · intro height
    have sizes : after.heightGroupSize height = db.heightGroupSize height := by
      unfold Database.heightGroupSize
      rw [redrawn.heightGroups]
    rw [redrawn.rows, sizes, List.filter_map, List.map_map,
      ← layout.indexes height]
    simp only [Function.comp_def, (redrawn.same _).height,
      (redrawn.same _).heightGroupIndex]
  · intro row member
    rw [redrawn.rows] at member
    obtain ⟨older, olderMember, rfl⟩ := List.mem_map.mp member
    obtain ⟨parents, resolved, above⟩ := layout.heights older olderMember
    refine ⟨parents.map change, ⟨?_, ?_⟩, ?_⟩
    · rw [redrawn.rows]
      exact List.map_subset change resolved.stored
    · rw [(redrawn.same older).parentIDs, ← resolved.ids, List.map_map]
      simp only [Function.comp_def, (redrawn.same _).id]
    · rw [(redrawn.same older).height, above, List.map_map]
      simp only [Function.comp_def, (redrawn.same _).height]
  · intro edge member
    rw [redrawn.edges] at member
    obtain ⟨source, sourceMember, target, targetMember, between, below⟩ :=
      layout.edges edge member
    rw [redrawn.rows]
    refine ⟨change source, List.mem_map_of_mem sourceMember, change target,
      List.mem_map_of_mem targetMember, ?_, ?_⟩
    · rw [(redrawn.same source).edgeBetween (redrawn.same target)]
      exact between
    · rw [(redrawn.same target).height, (redrawn.same source).height]
      exact below

end Updates

section Storing

variable {db after : Database} {block : Block}

theorem resolved_of_ok {hashes : List Hash} {ids heights : List Nat}
    (found : db.blockIDsAndHeightsByHashes hashes = .ok (ids, heights)) :
    ∃ parents, Resolved db ids parents ∧
      parents.map (·.blockHash) = hashes ∧
      parents.map (·.height) = heights := by
  unfold Database.blockIDsAndHeightsByHashes at found
  obtain ⟨bases, mapped, ⟨⟩⟩ := bind_eq_ok.mp found
  have pairs := mapM_eq_ok.mp mapped
  clear mapped found
  induction pairs with
  | nil => exact ⟨[], ⟨List.nil_subset _, rfl⟩, rfl, rfl⟩
  | cons first _ ih =>
      obtain ⟨row, member, rfl, rfl⟩ :=
        Database.blockBaseByHash_eq_ok.mp first
      obtain ⟨parents, resolved, rfl, heights⟩ := ih
      refine ⟨row :: parents, ⟨?_, ?_⟩, rfl, ?_⟩
      · exact List.cons_subset.mpr ⟨member, resolved.stored⟩
      · rw [List.map_cons, List.map_cons, resolved.ids]
      · rw [List.map_cons, List.map_cons, heights]

theorem find?_replaced (groups : List HeightGroup) (group : HeightGroup)
    (height : Nat) :
    (groups.map fun stored =>
        if stored.height = group.height then group else stored).find?
        (fun stored => stored.height = height) =
      if height = group.height then
        (groups.find? fun stored => stored.height = height).map fun _ => group
      else groups.find? fun stored => stored.height = height := by
  induction groups with
  | nil => simp
  | cons first groups ih =>
      rw [List.map_cons, List.find?_cons, List.find?_cons, ih]
      by_cases same : first.height = group.height
      · by_cases here : height = group.height
        · simp [same, here]
        · have other : ¬group.height = height := Ne.symm here
          simp [same, here, other]
      · by_cases here : first.height = height
        · have other : ¬height = group.height := here ▸ same
          simp [here, other]
        · simp [same, here]

theorem heightGroupSize_insertOrUpdate (group : HeightGroup) (height : Nat) :
    (db.insertOrUpdateHeightGroup group).heightGroupSize height =
      if height = group.height then group.size
      else db.heightGroupSize height := by
  unfold Database.heightGroupSize Database.insertOrUpdateHeightGroup
  by_cases present : ∃ stored ∈ db.heightGroups, stored.height = group.height
  · simp only [present, if_true, find?_replaced]
    by_cases here : height = group.height
    · obtain ⟨stored, member, same⟩ := present
      subst here
      cases found : db.heightGroups.find?
          fun stored => stored.height = group.height with
      | none => simpa [same] using List.find?_eq_none.mp found stored member
      | some other => simp
    · simp [here]
  · simp only [present, if_false, List.find?_append]
    by_cases here : height = group.height
    · subst here
      have none : (db.heightGroups.find?
          fun stored => stored.height = group.height) = none := by
        rw [List.find?_eq_none]
        intro stored member same
        exact present ⟨stored, member, by simpa using same⟩
      simp [none]
    · have other : ¬group.height = height := Ne.symm here
      simp [here, other]

/-- What storing the edges of a block adds: each goes to the row of a parent. -/
theorem edges_of_storeEdges {blockID blockHeight blockHeightGroupIndex : Nat}
    {parentIDs : List Nat}
    (stored : parentIDs.foldlM
      (storeEdge blockID blockHeight blockHeightGroupIndex) db = .ok after) :
    after.heightGroups = db.heightGroups ∧
    ∀ edge ∈ after.edges, edge ∈ db.edges ∨
      ∃ parent ∈ db.blocks.rows, parent.id ∈ parentIDs ∧
        edge = ⟨blockID, parent.id, blockHeight, parent.height,
          blockHeightGroupIndex, parent.heightGroupIndex⟩ := by
  induction parentIDs generalizing db with
  | nil =>
      cases stored
      exact ⟨rfl, fun edge member => .inl member⟩
  | cons parentID parentIDs ih =>
      rw [List.foldlM_cons, bind_eq_ok] at stored
      obtain ⟨middle, first, rest⟩ := stored
      unfold storeEdge at first
      obtain ⟨parentHeight, height, first⟩ := bind_eq_ok.mp first
      obtain ⟨parentIndex, index, inserted⟩ := bind_eq_ok.mp first
      obtain rfl := Database.insertEdge_eq_ok inserted
      obtain ⟨groups, edges⟩ := ih rest
      refine ⟨groups, ?_⟩
      intro edge member
      rcases edges edge member with older | ⟨parent, parentMember, named, same⟩
      · rcases List.mem_append.mp older with oldest | new
        · exact .inl oldest
        · right
          unfold Database.blockHeight at height
          unfold Database.blockHeightGroupIndex at index
          cases found : db.blocks.findID? parentID with
          | none =>
              rw [found] at height
              cases height
          | some parent =>
              rw [found] at height index
              cases height
              cases index
              obtain ⟨parentMember, rfl⟩ := Blocks.findID?_eq_some_iff.mp found
              exact ⟨parent, parentMember, List.mem_cons_self,
                List.mem_singleton.mp new⟩
      · exact .inr ⟨parent, parentMember, List.mem_cons_of_mem _ named, same⟩

private theorem lt_aboveHeights {heights : List Nat} {height : Nat}
    (member : height ∈ heights) : height < aboveHeights heights := by
  rw [← heightOver_eq]
  exact lt_heightOver member

/-- A new block takes the next index of the height above its parents. -/
structure NewlyPlaced (db after : Database) (block : Block) (row : BlockRow) :
    Prop where
  rows : after.blocks.rows = db.blocks.rows ++ [row]
  blockHash : row.blockHash = block.hash
  parents : ∃ parents, Resolved db row.parentIDs parents ∧
    parents.map (·.blockHash) =
      block.directParents.filter db.doesBlockExist ∧
    row.height = aboveHeights (parents.map (·.height))
  heightGroupIndex : row.heightGroupIndex = db.heightGroupSize row.height
  heightGroupSize : ∀ height, after.heightGroupSize height =
    if height = row.height then row.heightGroupIndex + 1
    else db.heightGroupSize height
  edges : ∀ edge ∈ after.edges, edge ∈ db.edges ∨
    ∃ parent ∈ db.blocks.rows, parent.id ∈ row.parentIDs ∧
      edge = edgeBetween row parent

theorem newlyPlaced_of_storeBlock (stored : storeBlock db block = .ok after) :
    ∃ row, NewlyPlaced db after block row := by
  unfold storeBlock at stored
  obtain ⟨⟨parentIDs, parentHeights⟩, resolved, stored⟩ := bind_eq_ok.mp stored
  obtain ⟨inserted, insertion, stored⟩ := bind_eq_ok.mp stored
  obtain ⟨blockID, found, stored⟩ := bind_eq_ok.mp stored
  obtain ⟨new, rfl⟩ := Database.insertBlock_eq_ok.mp insertion
  obtain ⟨blocks, -, -⟩ := storeEdges_eq_ok stored
  obtain ⟨groups, edges⟩ := edges_of_storeEdges stored
  have given := found.symm.trans (Database.blockIDByHash_insert new)
  cases given
  obtain ⟨parents, rows, hashes, rfl⟩ := resolved_of_ok resolved
  let row : BlockRow :=
    { newRow block parentIDs (heightOver (parents.map (·.height)))
        (db.heightGroupSize (heightOver (parents.map (·.height)))) with
      id := db.blocks.nextID }
  refine ⟨row, ?_, rfl, ⟨parents, rows, hashes, heightOver_eq _⟩, rfl, ?_, ?_⟩
  · rw [blocks]
    rfl
  · intro height
    unfold Database.heightGroupSize
    rw [groups]
    exact heightGroupSize_insertOrUpdate _ height
  · intro edge member
    rcases edges edge member with older | ⟨parent, parentMember, named, same⟩
    · exact .inl older
    · right
      rcases List.mem_append.mp parentMember with old | last
      · exact ⟨parent, old, named, same⟩
      · -- The ids of the parents were given earlier.
        rw [List.mem_singleton.mp last, ← rows.ids] at named
        obtain ⟨earlier, listed, equal⟩ := List.mem_map.mp named
        have less := db.blocks.id_lt earlier (rows.stored listed)
        exact absurd equal (Nat.ne_of_lt less)

theorem Layout.place {row : BlockRow} (layout : Layout db)
    (placed : NewlyPlaced db after block row) : Layout after := by
  have rowsSubset : db.blocks.rows ⊆ after.blocks.rows := by
    rw [placed.rows]
    exact List.subset_append_left _ _
  have last : row ∈ after.blocks.rows := by
    rw [placed.rows]
    exact List.mem_append_right _ (List.mem_singleton_self _)
  obtain ⟨parents, resolved, -, above⟩ := placed.parents
  constructor
  · intro height
    rw [placed.rows, List.filter_append, List.map_append,
      layout.indexes height, placed.heightGroupSize height]
    by_cases here : row.height = height
    · subst here
      simp [placed.heightGroupIndex, List.range_succ]
    · have other : ¬height = row.height := Ne.symm here
      simp [here, other]
  · intro other member
    rw [placed.rows] at member
    rcases List.mem_append.mp member with old | new
    · obtain ⟨others, found, height⟩ := layout.heights other old
      exact ⟨others, ⟨List.Subset.trans found.stored rowsSubset, found.ids⟩,
        height⟩
    · rw [List.mem_singleton.mp new]
      exact ⟨parents, ⟨List.Subset.trans resolved.stored rowsSubset,
        resolved.ids⟩, above⟩
  · intro edge member
    rcases placed.edges edge member with old | ⟨parent, parentMember, named,
      between⟩
    · obtain ⟨source, sourceMember, target, targetMember, between, below⟩ :=
        layout.edges edge old
      exact ⟨source, rowsSubset sourceMember, target, rowsSubset targetMember,
        between, below⟩
    · refine ⟨row, last, parent, rowsSubset parentMember, between, ?_⟩
      rw [← resolved.ids] at named
      obtain ⟨listed, listedMember, same⟩ := List.mem_map.mp named
      obtain rfl := Blocks.eq_of_id_eq (resolved.stored listedMember)
        parentMember same
      rw [above]
      exact lt_aboveHeights (List.mem_map_of_mem listedMember)

theorem layout_of_storePruningPoint {pruningPoint : Hash} {time : Int}
    (cleared : storePruningPoint db pruningPoint time = .ok after) :
    Layout after := by
  unfold storePruningPoint at cleared
  obtain ⟨inserted, insertion, ⟨⟩⟩ := bind_eq_ok.mp cleared
  obtain ⟨new, rfl⟩ := Database.insertBlock_eq_ok.mp insertion
  constructor
  · intro height
    rw [heightGroupSize_insertOrUpdate]
    by_cases here : height = 0
    · subst here
      rfl
    · have other : ¬0 = height := Ne.symm here
      simp [Database.insertOrUpdateHeightGroup, Blocks.insert, Database.clear,
        Database.heightGroupSize, newRow, here, other]
  · intro row member
    refine ⟨[], ⟨List.nil_subset _, ?_⟩, ?_⟩
    all_goals
      rw [List.mem_singleton.mp member]
      rfl
  · intro edge member
    cases member

end Storing

section Processing

variable {node : Node} {db after : Database} {block : Block}

/-- The stored parents with which a block stands in the database. -/
def StoredWith (db after : Database) (block : Block) : Prop :=
  ∃ row ∈ after.blocks.rows, row.blockHash = block.hash ∧
    ∃ parents, Resolved db row.parentIDs parents ∧
      parents.map (·.blockHash) = block.directParents.filter db.doesBlockExist

theorem StoredWith.redrawn {middle : Database} {change : BlockRow → BlockRow}
    (stored : StoredWith db middle block)
    (redrawn : Redrawn middle after change) : StoredWith db after block := by
  obtain ⟨row, member, named, parents, resolved, hashes⟩ := stored
  refine ⟨change row, ?_, ?_, parents, ?_, hashes⟩
  · rw [redrawn.rows]
    exact List.mem_map_of_mem member
  · rw [(redrawn.same row).blockHash]
    exact named
  · rw [(redrawn.same row).parentIDs]
    exact resolved

theorem processBlock_layout (layout : Layout db)
    (processed : processBlock node db block = .ok after) :
    Layout after ∧ (block.hash ∉ db.hashes → StoredWith db after block) := by
  unfold processBlock at processed
  obtain ⟨middle, first, processed⟩ := bind_eq_ok.mp processed
  obtain ⟨status, -, processed⟩ := bind_eq_ok.mp processed
  have rest : ∃ change, Redrawn middle after change := by
    split at processed
    · cases processed
      exact ⟨id, .refl _⟩
    · exact redrawn_of_updateGhostdagData processed
  obtain ⟨change, redrawn⟩ := rest
  by_cases blockExists : db.doesBlockExist block.hash = true
  · rw [if_pos blockExists] at first
    cases first
    exact ⟨layout.redrawn redrawn, fun missing =>
      absurd (Database.doesBlockExist_iff.mp blockExists) missing⟩
  · rw [if_neg blockExists] at first
    obtain ⟨row, placed⟩ := newlyPlaced_of_storeBlock first
    refine ⟨(layout.place placed).redrawn redrawn, fun _ => ?_⟩
    obtain ⟨parents, resolved, hashes, -⟩ := placed.parents
    have stored : StoredWith db middle block := by
      refine ⟨row, ?_, placed.blockHash, parents, resolved, hashes⟩
      rw [placed.rows]
      exact List.mem_append_right _ (List.mem_singleton_self _)
    exact stored.redrawn redrawn

/-- In every database that processing blocks leads to from the pruning point,
the blocks and edges are laid out; a new block is stored with those of its
parents that are stored by then. -/
theorem layout_of_run {old start : Database} {pruningPoint : Hash}
    {time : Int} {calls : List (Node × Block)}
    (cleared : storePruningPoint old pruningPoint time = .ok start)
    (run : Run Step start calls db) :
    Layout db ∧ ∀ node block after, processBlock node db block = .ok after →
      block.hash ∉ db.hashes → StoredWith db after block := by
  have layout : Layout db := by
    refine run.preserves (layout_of_storePruningPoint cleared) ?_
    rintro state call next before (processed | ⟨-, rfl⟩)
    · exact (processBlock_layout before processed).1
    · exact before
  exact ⟨layout, fun node block after processed =>
    (processBlock_layout layout processed).2⟩

end Processing

section LayoutSamples

/-- The database after a call, whether or not it fails. -/
def processed (node : Node) (db : Database) (block : Block) : Database :=
  match processBlock node db block with
  | .ok next => next
  | .error _ => db

private theorem step_processed (node : Node) (db : Database) (block : Block) :
    Step db (node, block) (processed node db block) := by
  unfold Step processed
  cases processBlock node db block with
  | ok next => exact .inl rfl
  | error failure => exact .inr ⟨⟨failure, rfl⟩, rfl⟩

/-- The block 3 comes before its parent 1, for which another node is asked. -/
def lateDatabase : Database :=
  processed chainNode (processed forkedNode prunedDatabase ⟨3, 2, 2, [1]⟩)
    ⟨1, 1, 1, [0]⟩

theorem layout_lateDatabase :
    Layout lateDatabase ∧
      lateDatabase.blocks.rows.map (fun row => (row.blockHash, row.height)) =
        [(0, 0), (3, 0), (1, 1)] := by
  have run : Run Step prunedDatabase
      [(forkedNode, ⟨3, 2, 2, [1]⟩), (chainNode, ⟨1, 1, 1, [0]⟩)]
      lateDatabase :=
    .extend (.extend .start (step_processed _ _ _)) (step_processed _ _ _)
  exact ⟨(layout_of_run storePruningPoint_emptyDatabase run).1,
    by decide +kernel⟩

end LayoutSamples

end GraphInspector
