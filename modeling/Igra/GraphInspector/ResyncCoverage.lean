import Igra.GraphInspector.DependencyOrder

/-!
# Resynchronisation of a kept database

The node lists the blocks after the pruning point in the order of the DAG.  A
binary search finds a stored one, and the blocks from 600 before it are
processed.  The search is right although stored and missing blocks may be mixed
over 600 places.
-/

namespace GraphInspector

section Search

/-- The loop of the search.  The index it looks at is below the upper one. -/
def findLatestFrom (db : Database) (blockHashes : List Hash) (low high : Nat) :
    Nat :=
  if 1 < high - low then
    let cur := (high + low) / 2
    if blockHashes[cur]?.any db.doesBlockExist then
      findLatestFrom db blockHashes cur high
    else findLatestFrom db blockHashes low cur
  else low
termination_by high - low

def findLatestStoredBlockIndex (db : Database) (blockHashes : List Hash) :
    Nat :=
  findLatestFrom db blockHashes 0 blockHashes.length

/-- About ten minutes earlier. -/
def startIndex (db : Database) (blockHashes : List Hash) : Nat :=
  findLatestStoredBlockIndex db blockHashes - 600

/-- The search ends where it begins or at a stored block. -/
theorem findLatestFrom_spec (db : Database) (blockHashes : List Hash)
    (low high : Nat) :
    findLatestFrom db blockHashes low high = low ∨
      ∃ hash ∈ db.hashes,
        blockHashes[findLatestFrom db blockHashes low high]? = some hash := by
  fun_induction findLatestFrom db blockHashes low high with
  | case1 low high wide cur stored ih =>
      right
      rcases ih with same | later
      · rw [same]
        obtain ⟨hash, here, exists_⟩ := (Option.any_eq_true _ _).mp stored
        exact ⟨hash, Database.doesBlockExist_iff.mp exists_, here⟩
      · exact later
  | case2 low high wide cur missing ih => exact ih
  | case3 low high narrow => exact .inl rfl

end Search

section Resync

/-- One round of the loop that processes the listed blocks. -/
def resyncBlock (node : Node) (pruningPointBlock : Block) (db : Database)
    (blockHash : Hash) : Except Failure Database := do
  let block ← (node.getBlockEvenIfHeaderOnly blockHash).mapError Failure.node
  processBlockAndDependencies node db blockHash block (some pruningPointBlock)

def resyncFrom (node : Node) (pruningPointBlock : Block) (db : Database)
    (blockHashes : List Hash) (startIndex : Nat) : Except Failure Database :=
  (blockHashes.drop startIndex).foldlM (resyncBlock node pruningPointBlock) db

structure ResyncConfig where
  clearDB : Bool
  resync : Bool

/-- `ResyncDatabase` up to the end of the loop. -/
def resyncDatabase (node : Node) (config : ResyncConfig) (db : Database)
    (pruningPointBlock : Block) (blockHashes : List Hash) :
    Except Failure Database := do
  let keepDatabase :=
    db.doesBlockExist pruningPointBlock.hash && !config.clearDB
  let db ← (if keepDatabase then .ok db
    else storePruningPoint db pruningPointBlock.hash
      pruningPointBlock.timeInMilliseconds)
  resyncFrom node pruningPointBlock db blockHashes
    (if keepDatabase && !config.resync then startIndex db blockHashes else 0)

/-- All hashes before an index are stored, and none from 600 after it on. -/
structure StoredUpTo (db : Database) (blockHashes : List Hash) (m : Nat) :
    Prop where
  below : ∀ index < m, ∀ hash, blockHashes[index]? = some hash →
    hash ∈ db.hashes
  above : ∀ index, m + 600 ≤ index → ∀ hash, blockHashes[index]? = some hash →
    hash ∉ db.hashes

/-- A block that is older than the pruning point by its DAA score. -/
def Earlier (node : Node) (pruningPointBlock : Block) (hash : Hash) : Prop :=
  ∃ block, node.getBlockEvenIfHeaderOnly hash = .ok block ∧
    block.daaScore < pruningPointBlock.daaScore

variable {node : Node} {pruningPointBlock : Block} {db after : Database}
  {blockHashes : List Hash} {hash : Hash} {m : Nat}

theorem startIndex_le (upTo : StoredUpTo db blockHashes m) :
    startIndex db blockHashes ≤ m := by
  unfold startIndex findLatestStoredBlockIndex
  rcases findLatestFrom_spec db blockHashes 0 blockHashes.length with
    none | ⟨hash, stored, here⟩
  · rw [none]
    exact Nat.zero_le m
  · have close := mt (upTo.above _ · hash here) (not_not.mpr stored)
    omega

theorem resyncBlock_eq_ok
    (processed : resyncBlock node pruningPointBlock db hash = .ok after) :
    db.hashes ⊆ after.hashes ∧
      (hash ∈ after.hashes ∨ Earlier node pruningPointBlock hash) := by
  unfold resyncBlock at processed
  obtain ⟨block, found, processed⟩ := bind_eq_ok.mp processed
  have known : node.getBlockEvenIfHeaderOnly hash = .ok block := by
    cases answer : node.getBlockEvenIfHeaderOnly hash with
    | error fault =>
        rw [answer] at found
        cases found
    | ok block =>
        rw [answer] at found
        cases found
        rfl
  obtain ⟨batch, collected, popped⟩ := bind_eq_ok.mp processed
  by_cases scope : Batch.inScope (some pruningPointBlock) block = true
  · have appended := appended_of_collected known scope collected popped
    refine ⟨appended.subset, .inl ?_⟩
    obtain ⟨-, searching⟩ := searching_collect known scope collected
    have listed : hash ∈ batch.hashes := searching.mem_iff.mpr ⟨[], rfl⟩
    rw [appended.hashes, List.map_reverse]
    by_cases stored : hash ∈ db.hashes
    · exact List.mem_append_left _ stored
    · apply List.mem_append_right
      exact List.mem_filter.mpr
        ⟨List.mem_reverse.mpr listed, by simpa using stored⟩
  · obtain rfl := batch_of_out_of_scope scope collected
    cases popped
    refine ⟨List.Subset.refl _, .inr ⟨block, known, ?_⟩⟩
    simpa [Batch.inScope] using scope

theorem resyncFold_eq_ok {hashes : List Hash}
    (processed : hashes.foldlM (resyncBlock node pruningPointBlock) db =
      .ok after) :
    db.hashes ⊆ after.hashes ∧ ∀ hash ∈ hashes,
      hash ∈ after.hashes ∨ Earlier node pruningPointBlock hash := by
  induction hashes generalizing db with
  | nil =>
      cases processed
      exact ⟨List.Subset.refl _, by simp⟩
  | cons first hashes ih =>
      rw [List.foldlM_cons, bind_eq_ok] at processed
      obtain ⟨middle, taken, rest⟩ := processed
      obtain ⟨kept, stored⟩ := resyncBlock_eq_ok taken
      obtain ⟨later, others⟩ := ih rest
      refine ⟨List.Subset.trans kept later, ?_⟩
      intro hash member
      rcases List.mem_cons.mp member with rfl | listed
      · exact stored.imp (fun here => later here) id
      · exact others hash listed

/-- A database with the pruning point is kept, and the search is used. -/
theorem resyncDatabase_kept
    (kept : db.doesBlockExist pruningPointBlock.hash = true) :
    resyncDatabase node ⟨false, false⟩ db pruningPointBlock blockHashes =
      resyncFrom node pruningPointBlock db blockHashes
        (startIndex db blockHashes) := by
  simp [resyncDatabase, kept, Bind.bind, Except.bind]

theorem resyncFrom_eq_ok {start : Nat}
    (before : ∀ index < start, ∀ hash, blockHashes[index]? = some hash →
      hash ∈ db.hashes)
    (processed : resyncFrom node pruningPointBlock db blockHashes start =
      .ok after) (member : hash ∈ blockHashes) :
    hash ∈ after.hashes ∨ Earlier node pruningPointBlock hash := by
  obtain ⟨kept, stored⟩ := resyncFold_eq_ok processed
  obtain ⟨index, here⟩ := List.mem_iff_getElem?.mp member
  by_cases early : index < start
  · exact .inl (kept (before index early hash here))
  · refine stored hash (List.mem_of_getElem? (i := index - start) ?_)
    rw [List.getElem?_drop, Nat.add_sub_cancel' (Nat.le_of_not_lt early)]
    exact here

/-- The search starts the loop early enough, and a resynchronisation leaves
every listed block stored that is not older than the pruning point. -/
theorem resync_covers (upTo : StoredUpTo db blockHashes m) :
    startIndex db blockHashes ≤ m ∧
    ∀ config after,
      resyncDatabase node config db pruningPointBlock blockHashes = .ok after →
      ∀ hash ∈ blockHashes,
        hash ∈ after.hashes ∨ Earlier node pruningPointBlock hash := by
  have early := startIndex_le upTo
  refine ⟨early, ?_⟩
  intro config after processed hash member
  unfold resyncDatabase at processed
  obtain ⟨middle, first, looped⟩ := bind_eq_ok.mp processed
  refine resyncFrom_eq_ok ?_ looped member
  intro index before other here
  split at before
  · rename_i kept
    rw [if_pos (Bool.and_eq_true_iff.mp kept).1] at first
    cases first
    exact upTo.below index (by omega) other here
  · exact absurd before (Nat.not_lt_zero index)

end Resync

section ResyncSamples

/-- A block beside the pruning point whose DAA score is smaller. -/
def earlyNode : Node :=
  nodeOf [⟨0, 0, 5, []⟩, ⟨2, 0, 3, [1]⟩] (by simp) (dataOf [])

theorem storedUpTo_prunedDatabase {first : Hash} {rest : List Hash}
    (few : rest.length < 599) : StoredUpTo prunedDatabase (first :: rest) 0 where
  below index before := absurd before (Nat.not_lt_zero index)
  above index beyond hash here := by
    have inside := (List.getElem?_eq_some_iff.mp here).1
    rw [List.length_cons] at inside
    omega

/-- The earlier block is listed and stays away. -/
theorem resync_skips_earlier :
    StoredUpTo prunedDatabase [2] 0 ∧
      resyncDatabase earlyNode ⟨false, false⟩ prunedDatabase ⟨0, 0, 5, []⟩ [2] =
        .ok prunedDatabase ∧
      2 ∉ prunedDatabase.hashes := by
  have upTo : StoredUpTo prunedDatabase [2] 0 :=
    storedUpTo_prunedDatabase (by decide)
  refine ⟨upTo, ?_, by decide⟩
  rw [resyncDatabase_kept rfl, Nat.le_zero.mp (startIndex_le upTo)]
  rfl

/-- Two blocks after the pruning point. -/
theorem resync_covers_chain :
    startIndex prunedDatabase [1, 2] ≤ 0 ∧
    ∃ after, resyncDatabase chainNode ⟨false, false⟩ prunedDatabase
        ⟨0, 0, 0, []⟩ [1, 2] = .ok after ∧
      1 ∈ after.hashes := by
  have upTo : StoredUpTo prunedDatabase [1, 2] 0 :=
    storedUpTo_prunedDatabase (by decide)
  have done : ∃ after, resyncDatabase chainNode ⟨false, false⟩ prunedDatabase
      ⟨0, 0, 0, []⟩ [1, 2] = .ok after := by
    rw [resyncDatabase_kept rfl, Nat.le_zero.mp (startIndex_le upTo)]
    exact ⟨_, rfl⟩
  obtain ⟨after, processed⟩ := done
  obtain ⟨early, covers⟩ := @resync_covers chainNode ⟨0, 0, 0, []⟩ _ _ _ upTo
  refine ⟨early, after, processed, ?_⟩
  refine (covers _ after processed 1 (by decide)).resolve_right ?_
  rintro ⟨block, -, earlier⟩
  exact Nat.not_lt_zero _ earlier

end ResyncSamples

end GraphInspector
