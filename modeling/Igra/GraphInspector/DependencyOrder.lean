import Igra.BreadthFirst
import Igra.GraphInspector.Processing
import Mathlib.Data.List.Perm.Subperm

/-!
# The order of dependencies

A batch is a breadth-first search through the missing ancestors of a block.  It
is processed from its end, so a block comes after its parents when the search
finds it before them.
-/

namespace GraphInspector

open BreadthFirst

section Dependencies

/-- A parent that is missing, known to the node and in scope. -/
def isDependency (node : Node) (db : Database) (pruningBlock : Option Block)
    (parent : Hash) : Bool :=
  !db.doesBlockExist parent &&
    match node.getBlockEvenIfHeaderOnly parent with
    | .ok block => Batch.inScope pruningBlock block
    | .error _ => false

def dependencies (node : Node) (db : Database) (pruningBlock : Option Block)
    (hash : Hash) : List Hash :=
  match node.getBlockEvenIfHeaderOnly hash with
  | .ok block =>
      block.directParents.filter (isDependency node db pruningBlock)
  | .error _ => []

variable {node : Node} {db : Database} {pruningBlock : Option Block}
  {hash parent : Hash} {block : Block}

private theorem dependencies_of_known
    (known : node.getBlockEvenIfHeaderOnly hash = .ok block) :
    dependencies node db pruningBlock hash =
      block.directParents.filter (isDependency node db pruningBlock) := by
  rw [dependencies, known]

theorem mem_dependencies_iff :
    parent ∈ dependencies node db pruningBlock hash ↔
      ∃ block, node.getBlockEvenIfHeaderOnly hash = .ok block ∧
        parent ∈ block.directParents ∧
        isDependency node db pruningBlock parent = true := by
  unfold dependencies
  cases node.getBlockEvenIfHeaderOnly hash with
  | error fault => simp
  | ok block => simp

private theorem missing_of_isDependency
    (dependency : isDependency node db pruningBlock parent = true) :
    parent ∉ db.hashes := by
  intro stored
  rw [← Database.doesBlockExist_iff] at stored
  simp [isDependency, stored] at dependency

theorem ne_of_mem_dependencies
    (dependency : parent ∈ dependencies node db pruningBlock hash) :
    hash ≠ parent := by
  rintro rfl
  obtain ⟨block, known, isParent, -⟩ := mem_dependencies_iff.mp dependency
  obtain ⟨age, older⟩ := node.acyclic
  exact absurd (older hash block known hash isParent) (lt_irrefl _)

end Dependencies

section Collecting

variable {node : Node} {db : Database} {pruningBlock : Option Block}
  {batch after : Batch} {hash parent root : Hash} {block : Block}
  {position : Nat}

/-- The batch has the blocks that the node knows under the hashes. -/
structure Collected (node : Node) (pruningBlock : Option Block) (batch : Batch) :
    Prop where
  pruningBlock : batch.pruningBlock = pruningBlock
  known : ∀ item ∈ batch.blocks,
    node.getBlockEvenIfHeaderOnly item.hash = .ok item.block

theorem Collected.known_hash (collected : Collected node pruningBlock batch)
    (member : hash ∈ batch.hashes) :
    ∃ block, node.getBlockEvenIfHeaderOnly hash = .ok block := by
  obtain ⟨item, itemMember, rfl⟩ := List.mem_map.mp member
  exact ⟨item.block, collected.known item itemMember⟩

theorem collected_add (collected : Collected node pruningBlock batch)
    (known : node.getBlockEvenIfHeaderOnly hash = .ok block) :
    Collected node pruningBlock (batch.add hash block) := by
  unfold Batch.add
  split
  · refine ⟨collected.pruningBlock, ?_⟩
    intro item member
    cases List.mem_append.mp member with
    | inl older => exact collected.known item older
    | inr last =>
        rw [List.mem_singleton.mp last]
        exact known
  · exact collected

theorem hashes_add (collected : Collected node pruningBlock batch) :
    (batch.add hash block).hashes =
      if hash ∉ batch.hashes ∧ Batch.inScope pruningBlock block then
        batch.hashes ++ [hash]
      else batch.hashes := by
  unfold Batch.add
  rw [collected.pruningBlock]
  split
  · exact List.map_append
  · rfl

theorem collectParent_eq_ok (collected : Collected node pruningBlock batch)
    (done : batch.collectParent node db parent = .ok after) :
    Collected node pruningBlock after ∧
      after.hashes =
        if parent ∉ batch.hashes ∧
            isDependency node db pruningBlock parent = true then
          batch.hashes ++ [parent]
        else batch.hashes := by
  unfold Batch.collectParent at done
  unfold isDependency
  cases exists_ : db.doesBlockExist parent with
  | true =>
      rw [if_pos exists_] at done
      cases done
      exact ⟨collected, by simp⟩
  | false =>
      rw [if_neg (by simp [exists_])] at done
      cases known : node.getBlockEvenIfHeaderOnly parent with
      | ok block =>
          rw [known] at done
          cases done
          refine ⟨collected_add collected known, ?_⟩
          rw [hashes_add collected]
          simp
      | error fault =>
          rw [known] at done
          cases fault with
          | notFound =>
              cases done
              exact ⟨collected, by simp⟩
          | other => cases done

theorem searching_collectParents
    (known : node.getBlockEvenIfHeaderOnly hash = .ok block)
    {looked rest : List Hash} (splits : block.directParents = looked ++ rest)
    (collected : Collected node pruningBlock batch)
    (stands : batch.hashes[position]? = some hash)
    (searching : Searching (dependencies node db pruningBlock) root
      batch.hashes position
      (looked.filter (isDependency node db pruningBlock)).length)
    (done : rest.foldlM (Batch.collectParent node db) batch = .ok after) :
    Collected node pruningBlock after ∧
      Searching (dependencies node db pruningBlock) root after.hashes
        (position + 1) 0 := by
  have all : dependencies node db pruningBlock hash = _ :=
    dependencies_of_known known
  induction rest generalizing looked batch with
  | nil =>
      cases done
      rw [splits, List.append_nil] at all
      refine ⟨collected, searching.done stands ?_⟩
      rw [all]
      exact List.getElem?_eq_none (Nat.le_refl _)
  | cons parent rest ih =>
      rw [List.foldlM_cons, bind_eq_ok] at done
      obtain ⟨middle, first, done⟩ := done
      obtain ⟨collectedMiddle, hashes⟩ := collectParent_eq_ok collected first
      have splitsMiddle : block.directParents = (looked ++ [parent]) ++ rest := by
        rw [splits, List.append_assoc, List.singleton_append]
      have inside : position < batch.hashes.length :=
        (List.getElem?_eq_some_iff.mp stands).1
      have standsMiddle : middle.hashes[position]? = some hash := by
        rw [hashes]
        split
        · rw [List.getElem?_append_left inside, stands]
        · exact stands
      apply ih splitsMiddle collectedMiddle standsMiddle _ done
      cases dependency : isDependency node db pruningBlock parent with
      | false =>
          rw [if_neg (by simp [dependency])] at hashes
          rw [hashes, List.filter_append, List.filter_singleton, dependency]
          simpa using searching
      | true =>
          have follows : (dependencies node db pruningBlock hash)[
              (looked.filter (isDependency node db pruningBlock)).length]? =
              some parent := by
            rw [all, splits, List.filter_append,
              List.filter_cons_of_pos dependency, List.getElem?_append_right
                (Nat.le_refl _), Nat.sub_self]
            rfl
          rw [List.filter_append, List.filter_singleton, dependency,
            List.length_append]
          by_cases member : parent ∈ batch.hashes
          · rw [if_neg (by simp [member])] at hashes
            rw [hashes]
            exact searching.known stands follows member
          · rw [if_pos ⟨member, dependency⟩] at hashes
            rw [hashes]
            exact searching.added stands follows member

theorem searching_collectFrom {rounds : Nat}
    (collected : Collected node pruningBlock batch)
    (searching : Searching (dependencies node db pruningBlock) root
      batch.hashes position 0)
    (done : Batch.collectFrom node db rounds batch position = .ok after) :
    Collected node pruningBlock after ∧
      ∃ last, Searching (dependencies node db pruningBlock) root after.hashes
        last 0 ∧ (after.hashes.length ≤ last ∨ last = position + rounds) := by
  induction rounds generalizing batch position with
  | zero =>
      cases done
      exact ⟨collected, position, searching, .inr rfl⟩
  | succ rounds ih =>
      unfold Batch.collectFrom at done
      cases stands : batch.blocks[position]? with
      | none =>
          rw [stands] at done
          cases done
          have beyond := List.getElem?_eq_none_iff.mp stands
          refine ⟨collected, position, searching, .inl ?_⟩
          rw [Batch.hashes, List.length_map]
          exact beyond
      | some item =>
          rw [stands] at done
          obtain ⟨middle, first, rest⟩ := bind_eq_ok.mp done
          have known := collected.known item (List.mem_of_getElem? stands)
          have standsHash : batch.hashes[position]? = some item.hash := by
            rw [Batch.hashes, List.getElem?_map, stands]
            rfl
          obtain ⟨collectedMiddle, searchingMiddle⟩ :=
            @searching_collectParents node db pruningBlock batch middle
              item.hash root item.block position known [] _ rfl collected
              standsHash searching first
          obtain ⟨collectedAfter, last, searchingAfter, ends⟩ :=
            ih collectedMiddle searchingMiddle rest
          refine ⟨collectedAfter, last, searchingAfter, ?_⟩
          omega

/-- The batch of a block in scope is a whole search. -/
theorem searching_collect
    (known : node.getBlockEvenIfHeaderOnly root = .ok block)
    (scope : Batch.inScope pruningBlock block = true)
    (done : Batch.collectBlockAndDependencies node db ⟨[], pruningBlock⟩ root
      block = .ok after) :
    Collected node pruningBlock after ∧
      Searching (dependencies node db pruningBlock) root after.hashes
        after.hashes.length 0 := by
  have empty : Collected node pruningBlock ⟨[], pruningBlock⟩ :=
    ⟨rfl, by simp⟩
  have started : (Batch.add ⟨[], pruningBlock⟩ root block).hashes = [root] := by
    rw [hashes_add empty, if_pos ⟨by simp [Batch.hashes], scope⟩]
    rfl
  obtain ⟨collected, last, searching, ends⟩ :=
    @searching_collectFrom node db pruningBlock _ after root 0 _
      (collected_add empty known) (started ▸ Searching.start) done
  have all : after.hashes ⊆ node.known := by
    intro hash member
    obtain ⟨block, knownHash⟩ := collected.known_hash member
    exact node.mem_known hash block knownHash
  have few : after.hashes.length ≤ node.known.length :=
    (List.subperm_of_subset searching.nodup all).length_le
  have inside := searching.position_le
  have whole : last = after.hashes.length := by omega
  exact ⟨collected, whole ▸ searching⟩

end Collecting

section Processing

variable {node : Node} {db after : Database} {items : List BlockAndHash}

/-- What a batch adds to the database when its items are processed in turn. -/
structure Appended (db after : Database) (items : List BlockAndHash) : Prop where
  edges : db.edges ⊆ after.edges
  hashes : after.hashes = db.hashes ++
    (items.map (·.hash)).filter fun hash => hash ∉ db.hashes
  linked : ∀ earlier row later, after.storedRows = earlier ++ row :: later →
    row.blockHash ∉ db.hashes →
    ∃ item ∈ items, item.hash = row.blockHash ∧
      ∀ parent ∈ earlier, parent.blockHash ∈ item.block.directParents →
        Linked after.edges row parent

theorem Appended.subset (appended : Appended db after items) :
    db.hashes ⊆ after.hashes := by
  rw [appended.hashes]
  exact List.subset_append_left _ _

theorem appended_processBlock {middle : Database} {item : BlockAndHash}
    (appended : Appended db middle items)
    (notEarlier : item.hash ∉ items.map (·.hash))
    (own : item.block.hash = item.hash)
    (processed : processBlock node middle item.block = .ok after) :
    Appended db after (items ++ [item]) := by
  have older : ∀ earlier row later,
      middle.storedRows = earlier ++ row :: later → row.blockHash ∉ db.hashes →
      middle.edges ⊆ after.edges →
      ∃ item' ∈ items ++ [item], item'.hash = row.blockHash ∧
        ∀ parent ∈ earlier, parent.blockHash ∈ item'.block.directParents →
          Linked after.edges row parent := by
    intro earlier row later splits new edges
    obtain ⟨other, member, same, linked⟩ :=
      appended.linked earlier row later splits new
    exact ⟨other, List.mem_append_left _ member, same,
      fun parent before isParent => (linked parent before isParent).mono edges⟩
  rcases processBlock_eq_ok processed with
    ⟨stored, rows, edges⟩ | ⟨new, row, stored⟩
  · -- the block was in the database before the batch
    have before : item.hash ∈ db.hashes := by
      rw [own, appended.hashes] at stored
      cases List.mem_append.mp stored with
      | inl before => exact before
      | inr added =>
          exact absurd (List.mem_filter.mp added).1 notEarlier
    refine ⟨edges ▸ appended.edges, ?_, ?_⟩
    · rw [← Database.map_blockHash_storedRows, rows,
        Database.map_blockHash_storedRows, appended.hashes, List.map_append,
        List.filter_append]
      simp [before]
    · intro earlier row later splits new
      exact older earlier row later (rows ▸ splits) new
        (edges ▸ List.Subset.refl _)
  · have fresh : item.hash ∉ db.hashes := fun before =>
      new (own ▸ appended.subset before)
    refine ⟨List.Subset.trans appended.edges stored.edges, ?_, ?_⟩
    · rw [← Database.map_blockHash_storedRows, stored.rows, List.map_append,
        Database.map_blockHash_storedRows, appended.hashes, List.map_append,
        List.filter_append]
      simp [fresh, stored.blockHash, own]
    · intro earlier other later splits otherNew
      rw [stored.rows] at splits
      cases later using List.reverseRecOn with
      | nil =>
          obtain ⟨rfl, same⟩ := List.append_inj' splits rfl
          obtain rfl := List.head_eq_of_cons_eq same
          refine ⟨item, List.mem_append_right _ (List.mem_singleton_self _), ?_,
            stored.parents⟩
          rw [stored.blockHash, own]
      | append_singleton later last =>
          rw [← List.cons_append, ← List.append_assoc] at splits
          obtain ⟨splits, -⟩ := List.append_inj' splits rfl
          exact older earlier other later splits otherNew stored.edges

theorem appended_foldlM
    (distinct : (items.map (·.hash)).Nodup)
    (own : ∀ item ∈ items, item.block.hash = item.hash)
    (processed : items.foldlM
      (fun db item => processBlock node db item.block) db = .ok after) :
    Appended db after items := by
  induction items using List.reverseRecOn generalizing after with
  | nil =>
      cases processed
      refine ⟨List.Subset.refl _, by simp, ?_⟩
      intro earlier row later splits new
      have member : row.blockHash ∈ db.hashes := by
        rw [← Database.map_blockHash_storedRows, splits]
        simp
      exact absurd member new
  | append_singleton items item ih =>
      rw [List.foldlM_append, bind_eq_ok] at processed
      obtain ⟨middle, first, last⟩ := processed
      rw [List.map_append, List.map_singleton, List.nodup_append] at distinct
      obtain ⟨distinct, -, apart⟩ := distinct
      have appended := ih distinct
        (fun item member => own item (List.mem_append_left _ member)) first
      have notEarlier : item.hash ∉ items.map (·.hash) := fun member =>
        apart _ member _ (List.mem_singleton_self _) rfl
      apply appended_processBlock appended notEarlier
      · exact own item (List.mem_append_right _ (List.mem_singleton_self _))
      · simpa using last

end Processing

section Claimed

variable {node : Node} {db after : Database} {root : Hash} {block : Block}
  {pruningBlock : Option Block} {batch : Batch}

/-- Each stored block of a batch stands behind those of its parents that were in
the database or in the batch, and is linked to them. -/
def StoredInOrder (node : Node) (db after : Database) (batch : Batch) : Prop :=
  ∀ earlier row later, after.storedRows = earlier ++ row :: later →
    row.blockHash ∉ db.hashes →
    ∀ block, node.getBlockEvenIfHeaderOnly row.blockHash = .ok block →
    ∀ parent ∈ block.directParents, parent ∈ db.hashes ∨ parent ∈ batch.hashes →
      ∃ parentRow ∈ earlier, parentRow.blockHash = parent ∧
        Linked after.edges row parentRow

/-- A dependency is never reached before the blocks that it is a parent of. -/
def ReachedInOrder (node : Node) (db : Database) (pruningBlock : Option Block)
    (root : Hash) : Prop :=
  ∀ hash, Reached (dependencies node db pruningBlock) root hash →
    ∀ parent ∈ dependencies node db pruningBlock hash,
      Sooner (dependencies node db pruningBlock) root hash parent

private theorem dependency_of_reached {hash : Hash}
    (reached : Reached (dependencies node db pruningBlock) root hash)
    (different : hash ≠ root) :
    isDependency node db pruningBlock hash = true := by
  have cases_ := reached.preserves
    (motive := fun hash => hash = root ∨
      isDependency node db pruningBlock hash = true) (.inl rfl)
    fun parent child _ member => .inr (by
      obtain ⟨block, -, -, dependency⟩ := mem_dependencies_iff.mp member
      exact dependency)
  exact cases_.resolve_left different

theorem ne_root_of_parent {hash parent : Hash} {block : Block}
    (reached : Reached (dependencies node db pruningBlock) root hash)
    (known : node.getBlockEvenIfHeaderOnly hash = .ok block)
    (isParent : parent ∈ block.directParents) : parent ≠ root := by
  obtain ⟨age, older⟩ := node.acyclic
  have notOlder := reached.preserves
    (motive := fun hash => age hash ≤ age root) (le_refl _)
    fun above child le member => by
      obtain ⟨block, known, isParent, -⟩ := mem_dependencies_iff.mp member
      exact (older above block known child isParent).le.trans le
  rintro rfl
  exact absurd (older hash block known _ isParent) (not_lt.mpr notOlder)

theorem pair_sublist_appended (appended : Appended db after batch.blocks.reverse)
    {left right : Hash} (leftNew : left ∉ db.hashes)
    (rightNew : right ∉ db.hashes) :
    [left, right].Sublist after.hashes ↔ [right, left].Sublist batch.hashes := by
  have reversed : batch.blocks.reverse.map (·.hash) = batch.hashes.reverse :=
    List.map_reverse
  have turned : [left, right].Sublist batch.hashes.reverse ↔
      [right, left].Sublist batch.hashes :=
    @List.reverse_sublist _ [right, left] batch.hashes
  rw [appended.hashes, reversed, ← turned]
  constructor
  · intro sublist
    obtain ⟨first, second, splits, firstPart, secondPart⟩ :=
      List.sublist_append_iff.mp sublist
    cases first with
    | nil =>
        rw [List.nil_append] at splits
        exact splits ▸ secondPart.trans List.filter_sublist
    | cons head tail =>
        have same : left = head := (List.cons.inj splits).1
        exact absurd (firstPart.subset (same ▸ List.mem_cons_self)) leftNew
  · intro sublist
    have kept := sublist.filter fun hash => decide (hash ∉ db.hashes)
    have both : [left, right].filter
        (fun hash => decide (hash ∉ db.hashes)) = [left, right] := by
      simp [leftNew, rightNew]
    rw [both] at kept
    exact kept.trans (List.sublist_append_right _ _)

theorem appended_of_collected
    (known : node.getBlockEvenIfHeaderOnly root = .ok block)
    (scope : Batch.inScope pruningBlock block = true)
    (collected : Batch.collectBlockAndDependencies node db ⟨[], pruningBlock⟩
      root block = .ok batch)
    (processed : processBatch node db batch = .ok after) :
    Appended db after batch.blocks.reverse := by
  obtain ⟨blocks, searching⟩ := searching_collect known scope collected
  apply appended_foldlM _ _ processed
  · rw [List.map_reverse]
    exact List.nodup_reverse.mpr searching.nodup
  · intro item member
    exact node.hash_eq _ _ (blocks.known item (List.mem_reverse.mp member))

theorem StoredInOrder.pair_sublist (inOrder : StoredInOrder node db after batch)
    {hash parent : Hash} {block : Block} (stored : hash ∈ after.hashes)
    (new : hash ∉ db.hashes)
    (known : node.getBlockEvenIfHeaderOnly hash = .ok block)
    (isParent : parent ∈ block.directParents)
    (held : parent ∈ db.hashes ∨ parent ∈ batch.hashes) :
    [parent, hash].Sublist after.hashes := by
  rw [← Database.map_blockHash_storedRows] at stored ⊢
  obtain ⟨row, rowMember, rfl⟩ := List.mem_map.mp stored
  obtain ⟨earlier, later, splits⟩ := List.append_of_mem rowMember
  obtain ⟨parentRow, before, rfl, -⟩ :=
    inOrder earlier row later splits new block known parent isParent held
  rw [splits, List.map_append, List.map_cons]
  exact (List.singleton_sublist.mpr (List.mem_map_of_mem before)).append
    (List.singleton_sublist.mpr List.mem_cons_self)

theorem linked_of_pair_sublist
    (blocks : Collected node pruningBlock batch)
    (appended : Appended db after batch.blocks.reverse)
    {earlier later : List BlockRow} {row : BlockRow}
    (splits : after.storedRows = earlier ++ row :: later)
    (new : row.blockHash ∉ db.hashes) {block : Block} {parent : Hash}
    (known : node.getBlockEvenIfHeaderOnly row.blockHash = .ok block)
    (isParent : parent ∈ block.directParents)
    (ordered : [parent, row.blockHash].Sublist after.hashes) :
    ∃ parentRow ∈ earlier, parentRow.blockHash = parent ∧
      Linked after.edges row parentRow := by
  have hashes := congrArg (List.map (·.blockHash)) splits
  rw [Database.map_blockHash_storedRows, List.map_append, List.map_cons]
    at hashes
  have distinct : (earlier.map (·.blockHash) ++
      row.blockHash :: later.map (·.blockHash)).Nodup :=
    hashes ▸ after.blocks.uniqueHash
  rw [hashes, pair_sublist_append_cons_iff distinct] at ordered
  obtain ⟨parentRow, parentBefore, rfl⟩ := List.mem_map.mp ordered
  obtain ⟨item, itemMember, same, linked⟩ :=
    appended.linked earlier row later splits new
  have knownItem := blocks.known item (List.mem_reverse.mp itemMember)
  rw [same, known] at knownItem
  cases knownItem
  exact ⟨parentRow, parentBefore, rfl, linked parentRow parentBefore isParent⟩

theorem storedInOrder_iff
    (known : node.getBlockEvenIfHeaderOnly root = .ok block)
    (scope : Batch.inScope pruningBlock block = true)
    (collected : Batch.collectBlockAndDependencies node db ⟨[], pruningBlock⟩
      root block = .ok batch)
    (processed : processBatch node db batch = .ok after) :
    StoredInOrder node db after batch ↔
      ReachedInOrder node db pruningBlock root := by
  obtain ⟨blocks, searching⟩ := searching_collect known scope collected
  have reversed : batch.blocks.reverse.map (·.hash) = batch.hashes.reverse :=
    List.map_reverse
  have appended := appended_of_collected known scope collected processed
  constructor
  · intro inOrder hash reached parent member
    by_cases itself : hash = root
    · rw [itself] at member ⊢
      exact sooner_root _ _ (ne_of_mem_dependencies member)
    · have new := missing_of_isDependency
        (dependency_of_reached reached itself)
      obtain ⟨known, knownHash, isParent, dependency⟩ :=
        mem_dependencies_iff.mp member
      have found := searching.mem_iff.mpr reached
      have parentFound := searching.mem_iff.mpr (reached.child member)
      have stored : hash ∈ after.hashes := by
        rw [appended.hashes, reversed]
        simp [found, new]
      have ordered := inOrder.pair_sublist stored new knownHash isParent
        (.inr parentFound)
      rw [pair_sublist_appended appended (missing_of_isDependency dependency) new]
        at ordered
      exact (searching.pair_sublist_iff found parentFound
        (ne_of_mem_dependencies member)).mp ordered
  · intro inOrder earlier row later splits new block knownRow parent isParent held
    have stored : row.blockHash ∈ after.hashes := by
      rw [← Database.map_blockHash_storedRows, splits]
      simp
    apply linked_of_pair_sublist blocks appended splits new knownRow isParent
    rw [appended.hashes] at stored
    have added := (List.mem_append.mp stored).resolve_left new
    by_cases before : parent ∈ db.hashes
    · rw [appended.hashes]
      exact (List.singleton_sublist.mpr before).append
        (List.singleton_sublist.mpr added)
    · have found : row.blockHash ∈ batch.hashes := by
        rw [reversed] at added
        simpa [new] using added
      have parentFound := held.resolve_left before
      have dependency := dependency_of_reached
        (searching.mem_iff.mp parentFound)
        (ne_root_of_parent (searching.mem_iff.mp found) knownRow isParent)
      have member : parent ∈ dependencies node db pruningBlock row.blockHash :=
        mem_dependencies_iff.mpr ⟨block, knownRow, isParent, dependency⟩
      rw [pair_sublist_appended appended before new,
        searching.pair_sublist_iff found parentFound
          (ne_of_mem_dependencies member)]
      exact inOrder _ (searching.mem_iff.mp found) parent member

theorem batch_of_out_of_scope
    (scope : ¬Batch.inScope pruningBlock block = true)
    (collected : Batch.collectBlockAndDependencies node db ⟨[], pruningBlock⟩
      root block = .ok batch) : batch = ⟨[], pruningBlock⟩ := by
  have unchanged : Batch.add ⟨[], pruningBlock⟩ root block =
      ⟨[], pruningBlock⟩ := if_neg fun both => scope both.2
  unfold Batch.collectBlockAndDependencies at collected
  rw [unchanged] at collected
  cases rounds : node.known.length with
  | zero =>
      rw [rounds] at collected
      cases collected
      rfl
  | succ rounds' =>
      rw [rounds] at collected
      cases collected
      rfl

/-- The blocks of a batch are stored behind their parents exactly when no
dependency is reached before a block that it is a parent of. -/
theorem processBlockAndDependencies_storedInOrder_iff
    (known : node.getBlockEvenIfHeaderOnly root = .ok block)
    (processed : processBlockAndDependencies node db root block pruningBlock =
      .ok after) :
    (∀ batch, Batch.collectBlockAndDependencies node db ⟨[], pruningBlock⟩ root
        block = .ok batch → StoredInOrder node db after batch) ↔
      (Batch.inScope pruningBlock block = true →
        ReachedInOrder node db pruningBlock root) := by
  obtain ⟨batch, collected, popped⟩ := bind_eq_ok.mp processed
  constructor
  · intro inOrder scope
    exact (storedInOrder_iff known scope collected popped).mp
      (inOrder batch collected)
  · intro inOrder other otherCollected
    cases otherCollected.symm.trans collected
    by_cases scope : Batch.inScope pruningBlock block = true
    · exact (storedInOrder_iff known scope collected popped).mpr (inOrder scope)
    · obtain rfl := batch_of_out_of_scope scope collected
      cases popped
      intro earlier row later splits new
      have member : row.blockHash ∈ db.hashes := by
        rw [← Database.map_blockHash_storedRows, splits]
        simp
      exact absurd member new

end Claimed

section Samples

/-- Paths of two and of three blocks lead from the block 5 to the block 1. -/
def forkedBlocks : List Block :=
  [⟨0, 0, 0, []⟩, ⟨1, 1, 1, [0]⟩, ⟨2, 2, 2, [1]⟩, ⟨3, 2, 2, [1]⟩,
    ⟨4, 3, 3, [3]⟩, ⟨5, 4, 4, [2, 4]⟩]

def forkedNode : Node :=
  nodeOf forkedBlocks (by simp [forkedBlocks])
    (dataOf [(1, ⟨0, [0], []⟩), (2, ⟨1, [1], []⟩), (3, ⟨1, [1], []⟩),
      (4, ⟨3, [3], []⟩), (5, ⟨4, [4, 2], []⟩)])

def chainBlocks : List Block := [⟨0, 0, 0, []⟩, ⟨1, 1, 1, [0]⟩, ⟨2, 2, 2, [1]⟩]

def chainNode : Node :=
  nodeOf chainBlocks (by simp [chainBlocks])
    (dataOf [(1, ⟨0, [0], []⟩), (2, ⟨1, [1], []⟩)])

/-- The rows that are stored behind a block, with what they are linked by. -/
def rowsAfter (node : Node) (hash : Hash) (block : Block) :
    Except Failure (List (Hash × List Nat × Nat)) :=
  (processBlockAndDependencies node prunedDatabase hash block none).map
    fun after => after.storedRows.map fun row =>
      (row.blockHash, row.parentIDs, row.height)

theorem rowsAfter_forkedNode :
    rowsAfter forkedNode 5 ⟨5, 4, 4, [2, 4]⟩ =
      .ok [(0, [], 0), (3, [], 0), (1, [1], 1), (4, [2], 1), (2, [3], 2),
        (5, [5, 4], 3)] := by
  decide +kernel

private theorem collected_forkedNode :
    (Batch.collectBlockAndDependencies forkedNode prunedDatabase ⟨[], none⟩ 5
      ⟨5, 4, 4, [2, 4]⟩).map Batch.hashes = .ok [5, 2, 4, 1, 3] := by
  decide +kernel

theorem forked_not_storedInOrder :
    ∃ after batch,
      storePruningPoint emptyDatabase 0 0 = .ok prunedDatabase ∧
      forkedNode.getBlockEvenIfHeaderOnly 5 = .ok ⟨5, 4, 4, [2, 4]⟩ ∧
      processBlockAndDependencies forkedNode prunedDatabase 5
        ⟨5, 4, 4, [2, 4]⟩ none = .ok after ∧
      Batch.collectBlockAndDependencies forkedNode prunedDatabase ⟨[], none⟩ 5
        ⟨5, 4, 4, [2, 4]⟩ = .ok batch ∧
      ¬StoredInOrder forkedNode prunedDatabase after batch := by
  obtain ⟨after, processed, rows⟩ := map_eq_ok rowsAfter_forkedNode
  obtain ⟨batch, collected, hashes⟩ := map_eq_ok collected_forkedNode
  refine ⟨after, batch, rfl, rfl, processed, collected, ?_⟩
  intro inOrder
  obtain ⟨first, rest, splits, firstIs, rows⟩ := List.map_eq_cons_iff.mp rows
  obtain ⟨second, later, rfl, secondIs, -⟩ := List.map_eq_cons_iff.mp rows
  have firstHash : first.blockHash = 0 := congrArg Prod.fst firstIs
  have secondHash : second.blockHash = 3 := congrArg Prod.fst secondIs
  have new : second.blockHash ∉ prunedDatabase.hashes := by
    rw [secondHash]
    decide
  obtain ⟨parent, before, isParent, -⟩ := inOrder [first] second later splits new
    ⟨3, 2, 2, [1]⟩ (by rw [secondHash]; rfl) 1 (by decide)
    (.inr (by rw [hashes]; decide))
  rw [List.mem_singleton.mp before, firstHash] at isParent
  exact absurd isParent (by decide)

theorem chain_storedInOrder :
    ∃ after, processBlockAndDependencies chainNode prunedDatabase 2
        ⟨2, 2, 2, [1]⟩ none = .ok after ∧
      ((∀ batch, Batch.collectBlockAndDependencies chainNode prunedDatabase
          ⟨[], none⟩ 2 ⟨2, 2, 2, [1]⟩ = .ok batch →
          StoredInOrder chainNode prunedDatabase after batch) ↔
        (Batch.inScope none ⟨2, 2, 2, [1]⟩ = true →
          ReachedInOrder chainNode prunedDatabase none 2)) := by
  have rows : rowsAfter chainNode 2 ⟨2, 2, 2, [1]⟩ =
      .ok [(0, [], 0), (1, [1], 1), (2, [2], 2)] := by decide +kernel
  obtain ⟨after, processed, -⟩ := map_eq_ok rows
  exact ⟨after, processed,
    processBlockAndDependencies_storedInOrder_iff rfl processed⟩

end Samples

end GraphInspector
