import Igra.GraphInspector.Processing
import Igra.Runs
import Mathlib.Data.List.AList
import Mathlib.Data.List.Chain
import Mathlib.Data.List.Pairwise

/-!
# The colours of the blocks

A block has the colour that the block of the selected parent chain gives it
which merges it.  A change of the chain recolours what the added blocks merge;
what only removed blocks merged keeps its colour.
-/

namespace GraphInspector

open Runs

section Changes

/-- How the virtual selected parent chain changes. -/
structure ChainChanges where
  removed : List Hash
  added : List Hash

/-- A map of Go, which is iterated in any order. -/
abbrev IDMap (Value : Type) := AList fun _ : Nat => Value

structure Iteration (Value : Type) where
  entries : IDMap Value → List (Nat × Value)
  perm : ∀ map : IDMap Value, (entries map).Perm
    (map.entries.map fun entry => (entry.1, entry.2))

/-- Hashes that are not in the database are only logged. -/
def setByHash {Value : Type} (db : Database) (value : Value)
    (map : IDMap Value) (hash : Hash) : IDMap Value :=
  match db.blockIDByHash hash with
  | .ok id => map.insert id value
  | .error _ => map

def setAll {Value : Type} (db : Database) (value : Value) (hashes : List Hash)
    (map : IDMap Value) : IDMap Value :=
  hashes.foldl (setByHash db value) map

def colorMergeSet (node : Node) (db : Database) (blockColors : IDMap Color)
    (addedBlockHash : Hash) : Except Failure (IDMap Color) := do
  let data ← (node.blockGHOSTDAGData addedBlockHash).mapError Failure.node
  pure (setAll db .red data.mergeSetReds
    (setAll db .blue data.mergeSetBlues blockColors))

def processVirtualChange (node : Node) (flagOrder : Iteration Bool)
    (colorOrder : Iteration Color) (db : Database)
    (changes : Option ChainChanges) : Except Failure Database :=
  match changes with
  | none => .ok db
  | some changes => do
      let blockColors := setAll db .gray changes.removed ∅
      let blockIsInVirtualSelectedParentChain :=
        setAll db true changes.added (setAll db false changes.removed ∅)
      let db := db.updateBlockIsInVirtualSelectedParentChain
        (flagOrder.entries blockIsInVirtualSelectedParentChain)
      let blockColors ←
        changes.added.foldlM (colorMergeSet node db) blockColors
      pure (db.updateBlockColors (colorOrder.entries blockColors))

end Changes

section Maps

variable {Value : Type} {db : Database} {map : IDMap Value} {row : BlockRow}

theorem lookup_setByHash (member : row ∈ db.blocks.rows) (value : Value)
    (hash : Hash) :
    (setByHash db value map hash).lookup row.id =
      if hash = row.blockHash then some value else map.lookup row.id := by
  unfold setByHash
  split
  · rename_i id found
    obtain ⟨other, otherMember, rfl, rfl⟩ := Database.blockIDByHash_eq_ok.mp found
    by_cases same : row.id = other.id
    · obtain rfl := Blocks.eq_of_id_eq member otherMember same
      rw [AList.lookup_insert, if_pos rfl]
    · rw [AList.lookup_insert_ne same, if_neg]
      intro hashes
      rw [Blocks.eq_of_blockHash_eq otherMember member hashes] at same
      exact same rfl
  · rename_i fault missing
    rw [if_neg]
    rintro rfl
    have found := Database.blockIDByHash_eq_ok.mpr ⟨row, member, rfl, rfl⟩
    rw [found] at missing
    cases missing

theorem lookup_setAll (member : row ∈ db.blocks.rows) (value : Value)
    (hashes : List Hash) :
    (setAll db value hashes map).lookup row.id =
      if row.blockHash ∈ hashes then some value else map.lookup row.id := by
  unfold setAll
  induction hashes generalizing map with
  | nil => simp
  | cons hash hashes ih =>
      rw [List.foldl_cons, ih, lookup_setByHash member]
      by_cases later : row.blockHash ∈ hashes
      · simp [later]
      · by_cases same : hash = row.blockHash
        · simp [same]
        · simp [later, same, Ne.symm same]

end Maps

section Updates

variable {Value : Type} {change : Value → BlockRow → BlockRow}
  {keepsHash : ∀ value row, (change value row).blockHash = row.blockHash}
  {keepsID : ∀ value row, (change value row).id = row.id}

/-- One entry of a map is written to the row that has its id. -/
def writeEntry (change : Value → BlockRow → BlockRow) (row : BlockRow)
    (entry : Nat × Value) : BlockRow :=
  if row.id = entry.1 then change entry.2 row else row

private theorem rows_updateEach (db : Database) (entries : List (Nat × Value)) :
    (db.updateEach change keepsHash keepsID entries).blocks.rows =
      db.blocks.rows.map fun row => entries.foldl (writeEntry change) row := by
  unfold Database.updateEach
  induction entries generalizing db with
  | nil => simp
  | cons entry entries ih =>
      rw [List.foldl_cons, ih]
      unfold Blocks.update
      rw [List.map_map]
      rfl

theorem foldl_writeEntry_of_notMem (row : BlockRow)
    {entries : List (Nat × Value)} (absent : row.id ∉ entries.map Prod.fst) :
    entries.foldl (writeEntry change) row = row := by
  induction entries with
  | nil => rfl
  | cons entry entries ih =>
      rw [List.map_cons, List.mem_cons, not_or] at absent
      rw [List.foldl_cons, writeEntry, if_neg absent.1]
      exact ih absent.2

theorem foldl_writeEntry_of_mem
    (keepsID : ∀ value row, (change value row).id = row.id) (row : BlockRow)
    {entries : List (Nat × Value)} (distinct : (entries.map Prod.fst).Nodup)
    {value : Value} (member : (row.id, value) ∈ entries) :
    entries.foldl (writeEntry change) row = change value row := by
  induction entries with
  | nil => cases member
  | cons entry entries ih =>
      rw [List.map_cons, List.nodup_cons] at distinct
      rw [List.foldl_cons]
      cases List.mem_cons.mp member with
      | inl same =>
          subst same
          rw [writeEntry, if_pos rfl]
          apply foldl_writeEntry_of_notMem
          rw [keepsID]
          exact distinct.1
      | inr later =>
          have different : row.id ≠ entry.1 := by
            intro same
            exact distinct.1 (same ▸ List.mem_map_of_mem later)
          rw [writeEntry, if_neg different]
          exact ih distinct.2 later

theorem rows_updateEach_entries
    (keepsHash : ∀ value row, (change value row).blockHash = row.blockHash)
    (keepsID : ∀ value row, (change value row).id = row.id)
    (iteration : Iteration Value) (db : Database) (map : IDMap Value) :
    (db.updateEach change keepsHash keepsID (iteration.entries map)).blocks.rows =
      db.blocks.rows.map fun row =>
        (map.lookup row.id).elim row fun value => change value row := by
  rw [rows_updateEach]
  apply List.map_congr_left
  intro row _
  have entries := iteration.perm map
  have keys := entries.map Prod.fst
  rw [List.map_map] at keys
  have distinct : ((iteration.entries map).map Prod.fst).Nodup :=
    keys.nodup_iff.mpr map.nodupKeys
  cases found : map.lookup row.id with
  | none =>
      apply foldl_writeEntry_of_notMem
      rw [keys.mem_iff]
      exact AList.lookup_eq_none.mp found
  | some value =>
      apply foldl_writeEntry_of_mem keepsID row distinct
      rw [entries.mem_iff]
      have member := AList.mem_lookup_iff.mp (Option.mem_def.mpr found)
      exact List.mem_map_of_mem member

theorem mem_updateEach_entries
    (keepsHash : ∀ value row, (change value row).blockHash = row.blockHash)
    (keepsID : ∀ value row, (change value row).id = row.id)
    (iteration : Iteration Value) (db : Database) (map : IDMap Value) {after : BlockRow}
    (member : after ∈
      (db.updateEach change keepsHash keepsID (iteration.entries map)).blocks.rows) :
    ∃ row ∈ db.blocks.rows, after.blockHash = row.blockHash ∧
      after.id = row.id ∧
      after = (map.lookup row.id).elim row fun value => change value row := by
  rw [rows_updateEach_entries] at member
  obtain ⟨row, rowMember, rfl⟩ := List.mem_map.mp member
  refine ⟨row, rowMember, ?_, ?_, rfl⟩
  · cases map.lookup row.id with
    | none => rfl
    | some value => exact keepsHash value row
  · cases map.lookup row.id with
    | none => rfl
    | some value => exact keepsID value row

theorem hashes_updateEach (db : Database) (entries : List (Nat × Value)) :
    (db.updateEach change keepsHash keepsID entries).hashes = db.hashes := by
  unfold Database.updateEach
  induction entries generalizing db with
  | nil => rfl
  | cons entry entries ih =>
      rw [List.foldl_cons, ih]
      unfold Database.hashes Blocks.hashes Blocks.update
      rw [List.map_map]
      apply List.map_congr_left
      intro row _
      simp only [Function.comp_apply, apply_ite BlockRow.blockHash, keepsHash,
        ite_self]

end Updates

section Ghostdag

/-- GHOSTDAG data as a fixed function of the block, over the pasts of the
blocks.  What a block merges is in its past but not in that of its selected
parent. -/
structure Ghostdag where
  data : Hash → Option GhostdagData
  past : Hash → Hash → Prop
  past_irrefl : ∀ hash, ¬past hash hash
  past_trans : ∀ {upper middle lower}, past upper middle → past middle lower →
    past upper lower
  selectedParent_past : ∀ {hash found}, data hash = some found →
    past hash found.selectedParent
  merged_past : ∀ {hash found merged}, data hash = some found →
    merged ∈ found.mergeSetBlues ++ found.mergeSetReds → past hash merged
  merged_new : ∀ {hash found merged}, data hash = some found →
    merged ∈ found.mergeSetBlues ++ found.mergeSetReds →
    ¬past found.selectedParent merged
  blue_not_red : ∀ {hash found merged}, data hash = some found →
    merged ∈ found.mergeSetBlues → merged ∉ found.mergeSetReds

namespace Ghostdag

def Merges (ghostdag : Ghostdag) (hash merged : Hash) : Prop :=
  ∃ found, ghostdag.data hash = some found ∧
    merged ∈ found.mergeSetBlues ++ found.mergeSetReds

/-- Each block of the chain has the one before it as its selected parent. -/
def IsSelectedParentChain (ghostdag : Ghostdag) (chain : List Hash) : Prop :=
  chain.IsChain fun lower upper => ∃ found,
    ghostdag.data upper = some found ∧ found.selectedParent = lower

/-- The node answers with the data. -/
def Answers (ghostdag : Ghostdag) (node : Node) : Prop :=
  ∀ hash found, node.blockGHOSTDAGData hash = .ok found →
    ghostdag.data hash = some found

variable {ghostdag : Ghostdag} {chain : List Hash} {hash merged : Hash}

/-- A block further down a chain is in the past, and what it merges is not
merged again. -/
def Under (ghostdag : Ghostdag) (lower upper : Hash) : Prop :=
  ghostdag.past upper lower ∧
    ∀ found, ghostdag.data upper = some found →
      found.selectedParent = lower ∨ ghostdag.past found.selectedParent lower

instance : Trans ghostdag.Under ghostdag.Under ghostdag.Under where
  trans := by
    rintro lower middle upper ⟨middlePast, -⟩ ⟨upperPast, upperParent⟩
    refine ⟨ghostdag.past_trans upperPast middlePast, ?_⟩
    intro found data
    cases upperParent found data with
    | inl same => exact .inr (same ▸ middlePast)
    | inr past => exact .inr (ghostdag.past_trans past middlePast)

theorem IsSelectedParentChain.pairwise
    (isChain : ghostdag.IsSelectedParentChain chain) :
    chain.Pairwise ghostdag.Under := by
  apply List.IsChain.pairwise
  apply isChain.imp
  rintro lower upper ⟨found, data, rfl⟩
  refine ⟨ghostdag.selectedParent_past data, ?_⟩
  intro other otherData
  cases data.symm.trans otherData
  exact .inl rfl

theorem Under.not_merges {lower upper : Hash}
    (under : ghostdag.Under lower upper) (merges : ghostdag.Merges lower merged) :
    ¬ghostdag.Merges upper merged := by
  rintro ⟨upperFound, upperData, upperMember⟩
  obtain ⟨found, data, member⟩ := merges
  have past := ghostdag.merged_past data member
  apply ghostdag.merged_new upperData upperMember
  cases under.2 upperFound upperData with
  | inl same => exact same ▸ past
  | inr above => exact ghostdag.past_trans above past

theorem Under.not_merges_upper {lower upper : Hash}
    (under : ghostdag.Under lower upper) : ¬ghostdag.Merges lower upper := by
  rintro ⟨found, data, member⟩
  exact ghostdag.past_irrefl _
    (ghostdag.past_trans under.1 (ghostdag.merged_past data member))

theorem IsSelectedParentChain.nodup
    (isChain : ghostdag.IsSelectedParentChain chain) : chain.Nodup := by
  apply isChain.pairwise.imp
  rintro lower upper under rfl
  exact ghostdag.past_irrefl _ under.1

/-- A block is merged by one block of a chain at most. -/
theorem IsSelectedParentChain.merges_unique
    (isChain : ghostdag.IsSelectedParentChain chain) {left right : Hash}
    (leftMember : left ∈ chain) (rightMember : right ∈ chain)
    (leftMerges : ghostdag.Merges left merged)
    (rightMerges : ghostdag.Merges right merged) : left = right := by
  by_contra different
  have apart : chain.Pairwise fun left right =>
      ¬(ghostdag.Merges left merged ∧ ghostdag.Merges right merged) :=
    isChain.pairwise.imp fun under both => under.not_merges both.1 both.2
  have symmetric : Std.Symm fun left right =>
      ¬(ghostdag.Merges left merged ∧ ghostdag.Merges right merged) :=
    ⟨fun _ _ neither both => neither both.symm⟩
  exact apart.forall leftMember rightMember different ⟨leftMerges, rightMerges⟩

end Ghostdag

end Ghostdag

section Colours

variable {ghostdag : Ghostdag} {node : Node} {db : Database} {row : BlockRow}

/-- The colour of a row is that of the last added block that merges it. -/
theorem lookup_colorMergeSets (answers : ghostdag.Answers node)
    (member : row ∈ db.blocks.rows) {added : List Hash}
    {start colors : IDMap Color}
    (folded : added.foldlM (colorMergeSet node db) start = .ok colors) :
    (∀ hash ∈ added, ¬ghostdag.Merges hash row.blockHash) ∧
        colors.lookup row.id = start.lookup row.id ∨
      ∃ hash ∈ added, ∃ found, ghostdag.data hash = some found ∧
        (row.blockHash ∈ found.mergeSetReds ∧
            colors.lookup row.id = some .red ∨
          row.blockHash ∈ found.mergeSetBlues ∧
            row.blockHash ∉ found.mergeSetReds ∧
            colors.lookup row.id = some .blue) := by
  induction added generalizing start with
  | nil =>
      cases folded
      exact .inl ⟨by simp, rfl⟩
  | cons hash added ih =>
      rw [List.foldlM_cons, bind_eq_ok] at folded
      obtain ⟨middle, first, rest⟩ := folded
      unfold colorMergeSet at first
      obtain ⟨found, answered, ⟨⟩⟩ := bind_eq_ok.mp first
      have data : ghostdag.data hash = some found := by
        cases asked : node.blockGHOSTDAGData hash with
        | error fault =>
            rw [asked] at answered
            cases answered
        | ok other =>
            rw [asked] at answered
            cases answered
            exact answers hash found asked
      rcases ih rest with ⟨others, same⟩ | ⟨other, otherMember, colored⟩
      · rw [lookup_setAll member, lookup_setAll member] at same
        by_cases red : row.blockHash ∈ found.mergeSetReds
        · rw [if_pos red] at same
          exact .inr ⟨hash, List.mem_cons_self, found, data, .inl ⟨red, same⟩⟩
        · rw [if_neg red] at same
          by_cases blue : row.blockHash ∈ found.mergeSetBlues
          · rw [if_pos blue] at same
            exact .inr ⟨hash, List.mem_cons_self, found, data,
              .inr ⟨blue, red, same⟩⟩
          · rw [if_neg blue] at same
            refine .inl ⟨?_, same⟩
            rintro other otherMember ⟨otherFound, otherData, merged⟩
            cases List.mem_cons.mp otherMember with
            | inl itself =>
                rw [itself] at otherData
                cases data.symm.trans otherData
                simp [red, blue] at merged
            | inr later =>
                exact others other later ⟨otherFound, otherData, merged⟩
      · exact .inr ⟨other, List.mem_cons_of_mem _ otherMember, colored⟩

/-- What a change of the chain does to a row. -/
structure Changed (ghostdag : Ghostdag) (changes : ChainChanges)
    (row after : BlockRow) : Prop where
  blockHash : after.blockHash = row.blockHash
  flag : after.isInVirtualSelectedParentChain =
    if row.blockHash ∈ changes.added then true
    else if row.blockHash ∈ changes.removed then false
    else row.isInVirtualSelectedParentChain
  color : (∀ hash ∈ changes.added, ¬ghostdag.Merges hash row.blockHash) ∧
        after.color =
          (if row.blockHash ∈ changes.removed then .gray else row.color) ∨
      ∃ hash ∈ changes.added, ∃ found, ghostdag.data hash = some found ∧
        (row.blockHash ∈ found.mergeSetReds ∧ after.color = .red ∨
          row.blockHash ∈ found.mergeSetBlues ∧
            row.blockHash ∉ found.mergeSetReds ∧ after.color = .blue)

theorem processVirtualChange_eq_ok {flagOrder : Iteration Bool}
    {colorOrder : Iteration Color} {after : Database} {changes : ChainChanges}
    (answers : ghostdag.Answers node)
    (processed : processVirtualChange node flagOrder colorOrder db
      (some changes) = .ok after) :
    after.hashes = db.hashes ∧
      ∀ changedRow ∈ after.blocks.rows, ∃ row ∈ db.blocks.rows,
        Changed ghostdag changes row changedRow := by
  simp only [processVirtualChange] at processed
  obtain ⟨colors, folded, ⟨⟩⟩ := bind_eq_ok.mp processed
  refine ⟨(hashes_updateEach _ _).trans (hashes_updateEach _ _), ?_⟩
  intro changedRow member
  obtain ⟨flagged, flaggedMember, colorHash, -, recolored⟩ :=
    mem_updateEach_entries _ _ colorOrder _ colors member
  obtain ⟨row, rowMember, flagHash, flagID, reflagged⟩ :=
    mem_updateEach_entries _ _ flagOrder db _ flaggedMember
  have grays := @lookup_setAll _ db ∅ row rowMember Color.gray changes.removed
  have colored := lookup_colorMergeSets answers flaggedMember folded
  rw [flagHash, flagID, grays, AList.lookup_empty] at colored
  rw [lookup_setAll rowMember, lookup_setAll rowMember, AList.lookup_empty]
    at reflagged
  rw [flagID] at recolored
  have keepsColor : flagged.color = row.color := by
    rw [reflagged]
    split
    · rfl
    · split
      · rfl
      · rfl
  refine ⟨row, rowMember, colorHash.trans flagHash, ?_, ?_⟩
  · have keepsFlag : changedRow.isInVirtualSelectedParentChain =
        flagged.isInVirtualSelectedParentChain := by
      rw [recolored]
      cases colors.lookup row.id with
      | none => rfl
      | some color => rfl
    rw [keepsFlag, reflagged]
    split
    · rfl
    · split
      · rfl
      · rfl
  · rcases colored with ⟨others, same⟩ |
      ⟨hash, added, found, data, ⟨red, same⟩ | ⟨blue, notRed, same⟩⟩
    · refine .inl ⟨others, ?_⟩
      rw [recolored, same]
      split
      · rfl
      · exact keepsColor
    · refine .inr ⟨hash, added, found, data, .inl ⟨red, ?_⟩⟩
      rw [recolored, same]
      rfl
    · refine .inr ⟨hash, added, found, data, .inr ⟨blue, notRed, ?_⟩⟩
      rw [recolored, same]
      rfl

end Colours

section Invariant

variable {ghostdag : Ghostdag} {pruningPoint : Hash} {chain next : List Hash}
  {db after : Database} {row changedRow : BlockRow} {changes : ChainChanges}

/-- A row is flagged when its block is on the chain.  Off the chain it has the
colour that the block of the chain gives it which merges it. -/
structure Coloured (ghostdag : Ghostdag) (pruningPoint : Hash)
    (chain : List Hash) (row : BlockRow) : Prop where
  flag : row.isInVirtualSelectedParentChain = true ↔
    row.blockHash ∈ pruningPoint :: chain
  blue : row.blockHash ∉ pruningPoint :: chain → ∀ hash ∈ chain, ∀ found,
    ghostdag.data hash = some found → row.blockHash ∈ found.mergeSetBlues →
    row.color = .blue
  red : row.blockHash ∉ pruningPoint :: chain → ∀ hash ∈ chain, ∀ found,
    ghostdag.data hash = some found → row.blockHash ∈ found.mergeSetReds →
    row.color = .red
  gray : row.blockHash ∉ pruningPoint :: chain →
    (∀ hash ∈ chain, ¬ghostdag.Merges hash row.blockHash) → row.color = .gray

/-- The chain and what its blocks merge is stored. -/
structure Placed (ghostdag : Ghostdag) (pruningPoint : Hash) (db : Database)
    (chain : List Hash) : Prop where
  isChain : ghostdag.IsSelectedParentChain (pruningPoint :: chain)
  stored : ∀ hash ∈ pruningPoint :: chain, hash ∈ db.hashes
  mergedStored : ∀ hash ∈ chain, ∀ merged, ghostdag.Merges hash merged →
    merged ∈ db.hashes

/-- A suffix of the chain is replaced by stored blocks, which merge stored
blocks. -/
structure Moves (ghostdag : Ghostdag) (pruningPoint : Hash) (db : Database)
    (chain : List Hash) (changes : ChainChanges) (next : List Hash) : Prop where
  suffix : ∃ kept, changes.removed.Perm (chain.drop kept) ∧
    next = chain.take kept ++ changes.added
  isChain : ghostdag.IsSelectedParentChain (pruningPoint :: next)
  stored : ∀ hash ∈ changes.added, hash ∈ db.hashes
  mergedStored : ∀ hash ∈ changes.added, ∀ merged,
    ghostdag.Merges hash merged → merged ∈ db.hashes

/-- What a removed block merges is on the chain before or after, or merged by an
added block. -/
def Remerges (ghostdag : Ghostdag) (pruningPoint : Hash) (chain : List Hash)
    (changes : ChainChanges) : Prop :=
  ∀ removed ∈ changes.removed, ∀ merged, ghostdag.Merges removed merged →
    merged ∈ pruningPoint :: chain ∨ merged ∈ changes.added ∨
      ∃ added ∈ changes.added, ghostdag.Merges added merged

theorem Placed.moves (placed : Placed ghostdag pruningPoint db chain)
    (moves : Moves ghostdag pruningPoint db chain changes next) :
    Placed ghostdag pruningPoint db next := by
  obtain ⟨kept, removed, rfl⟩ := moves.suffix
  refine ⟨moves.isChain, ?_, ?_⟩
  · intro hash member
    rw [List.mem_cons, List.mem_append] at member
    rcases member with rfl | earlier | added
    · exact placed.stored _ List.mem_cons_self
    · exact placed.stored hash
        (List.mem_cons_of_mem _ (List.mem_of_mem_take earlier))
    · exact moves.stored hash added
  · intro hash member
    cases List.mem_append.mp member with
    | inl earlier => exact placed.mergedStored hash (List.mem_of_mem_take earlier)
    | inr added => exact moves.mergedStored hash added

/-- What stays of the chain, what is cut off, and how they lie. -/
structure Cut (ghostdag : Ghostdag) (pruningPoint : Hash) (chain : List Hash)
    (changes : ChainChanges) (next front : List Hash) : Prop where
  next_eq : next = front ++ changes.added
  mem_chain : ∀ hash, hash ∈ chain ↔ hash ∈ front ∨ hash ∈ changes.removed
  under : ∀ lower ∈ pruningPoint :: front, ∀ upper ∈ changes.removed,
    ghostdag.Under lower upper

theorem Placed.cut (placed : Placed ghostdag pruningPoint db chain)
    (moves : Moves ghostdag pruningPoint db chain changes next) :
    ∃ front, Cut ghostdag pruningPoint chain changes next front := by
  obtain ⟨kept, removed, rfl⟩ := moves.suffix
  have whole : pruningPoint :: chain =
      (pruningPoint :: chain.take kept) ++ chain.drop kept := by
    rw [List.cons_append, List.take_append_drop]
  have pairs := placed.isChain.pairwise
  rw [whole, List.pairwise_append] at pairs
  refine ⟨chain.take kept, rfl, ?_, ?_⟩
  · intro hash
    rw [removed.mem_iff, ← List.mem_append, List.take_append_drop]
  · intro lower lowerMember upper upperMember
    exact pairs.2.2 lower lowerMember upper (removed.mem_iff.mp upperMember)

theorem Cut.notMem_of_removed {front : List Hash} {hash : Hash}
    (cut : Cut ghostdag pruningPoint chain changes next front)
    (removed : hash ∈ changes.removed) : hash ∉ pruningPoint :: front := by
  intro kept
  exact ghostdag.past_irrefl hash (cut.under hash kept hash removed).1

theorem flag_changed {front : List Hash}
    (cut : Cut ghostdag pruningPoint chain changes next front)
    (coloured : Coloured ghostdag pruningPoint chain row)
    (changed : Changed ghostdag changes row changedRow) :
    changedRow.isInVirtualSelectedParentChain = true ↔
      changedRow.blockHash ∈ pruningPoint :: next := by
  rw [changed.flag, changed.blockHash, cut.next_eq]
  have before := coloured.flag
  rw [List.mem_cons, cut.mem_chain] at before
  split
  · rename_i added
    simp [added]
  · rename_i notAdded
    split
    · rename_i removed
      have notKept := cut.notMem_of_removed removed
      rw [List.mem_cons] at notKept
      simp [notAdded, not_or.mp notKept]
    · rename_i notRemoved
      rw [before]
      simp [notAdded, notRemoved]

/-- Off the chain and not merged by an added block a row is gray when it is
removed, and keeps its colour otherwise. -/
theorem notMem_chain {front : List Hash} {hash : Hash}
    (cut : Cut ghostdag pruningPoint chain changes next front)
    (off : hash ∉ pruningPoint :: next) (notRemoved : hash ∉ changes.removed) :
    hash ∉ pruningPoint :: chain := by
  rw [cut.next_eq, List.mem_cons, List.mem_append] at off
  rw [List.mem_cons, cut.mem_chain]
  tauto

private theorem merged_not_removed {front : List Hash} {hash merged : Hash}
    (cut : Cut ghostdag pruningPoint chain changes next front)
    (member : hash ∈ front) (merges : ghostdag.Merges hash merged) :
    merged ∉ changes.removed := by
  intro removed
  exact (cut.under hash (List.mem_cons_of_mem _ member) merged
    removed).not_merges_upper merges

theorem Changed.cases_color (changed : Changed ghostdag changes row changedRow) :
    (∀ hash ∈ changes.added, ¬ghostdag.Merges hash row.blockHash) ∧
        changedRow.color =
          (if row.blockHash ∈ changes.removed then .gray else row.color) ∨
      ∃ hash ∈ changes.added, ghostdag.Merges hash row.blockHash ∧
        ∀ found, ghostdag.data hash = some found →
          (row.blockHash ∈ found.mergeSetBlues → changedRow.color = .blue) ∧
            (row.blockHash ∈ found.mergeSetReds → changedRow.color = .red) := by
  rcases changed.color with others |
    ⟨hash, added, found, data, ⟨red, same⟩ | ⟨blue, notRed, same⟩⟩
  · exact .inl others
  · refine .inr ⟨hash, added, ⟨found, data, List.mem_append_right _ red⟩, ?_⟩
    intro other otherData
    cases data.symm.trans otherData
    exact ⟨fun blue => absurd red (ghostdag.blue_not_red data blue),
      fun _ => same⟩
  · refine .inr ⟨hash, added, ⟨found, data, List.mem_append_left _ blue⟩, ?_⟩
    intro other otherData
    cases data.symm.trans otherData
    exact ⟨fun _ => same, fun red => absurd red notRed⟩

theorem coloured_changed {front : List Hash}
    (cut : Cut ghostdag pruningPoint chain changes next front)
    (isChain : ghostdag.IsSelectedParentChain (pruningPoint :: next))
    (coloured : Coloured ghostdag pruningPoint chain row)
    (remerges : Remerges ghostdag pruningPoint chain changes)
    (changed : Changed ghostdag changes row changedRow) :
    Coloured ghostdag pruningPoint next changedRow := by
  have unique : ∀ left ∈ next, ∀ right ∈ next,
      ghostdag.Merges left row.blockHash → ghostdag.Merges right row.blockHash →
      left = right := fun left leftMember right rightMember =>
    isChain.merges_unique (List.mem_cons_of_mem _ leftMember)
      (List.mem_cons_of_mem _ rightMember)
  have kept : ∀ hash ∈ next, (∀ hash ∈ changes.added,
      ¬ghostdag.Merges hash row.blockHash) →
      ghostdag.Merges hash row.blockHash → hash ∈ front := by
    intro hash member others merges
    rw [cut.next_eq, List.mem_append] at member
    exact member.resolve_right fun added => others hash added merges
  have added_next : ∀ hash ∈ changes.added, hash ∈ next := by
    intro hash added
    rw [cut.next_eq]
    exact List.mem_append_right _ added
  refine ⟨flag_changed cut coloured changed, ?_, ?_, ?_⟩
  · intro off hash member found data blue
    rw [changed.blockHash] at off blue
    have merges : ghostdag.Merges hash row.blockHash :=
      ⟨found, data, List.mem_append_left _ blue⟩
    rcases changed.cases_color with ⟨others, same⟩ |
      ⟨other, added, merged, colored⟩
    · have early := kept hash member others merges
      have notRemoved := merged_not_removed cut early merges
      rw [same, if_neg notRemoved]
      exact coloured.blue (notMem_chain cut off notRemoved) hash
        ((cut.mem_chain hash).mpr (.inl early)) found data blue
    · obtain rfl := unique hash member other (added_next other added) merges
        merged
      exact (colored found data).1 blue
  · intro off hash member found data red
    rw [changed.blockHash] at off red
    have merges : ghostdag.Merges hash row.blockHash :=
      ⟨found, data, List.mem_append_right _ red⟩
    rcases changed.cases_color with ⟨others, same⟩ |
      ⟨other, added, merged, colored⟩
    · have early := kept hash member others merges
      have notRemoved := merged_not_removed cut early merges
      rw [same, if_neg notRemoved]
      exact coloured.red (notMem_chain cut off notRemoved) hash
        ((cut.mem_chain hash).mpr (.inl early)) found data red
    · obtain rfl := unique hash member other (added_next other added) merges
        merged
      exact (colored found data).2 red
  · intro off unmerged
    rw [changed.blockHash] at off unmerged
    rcases changed.cases_color with ⟨others, same⟩ |
      ⟨other, added, merged, -⟩
    · rw [same]
      split
      · rfl
      · rename_i notRemoved
        apply coloured.gray (notMem_chain cut off notRemoved)
        intro hash member merges
        cases (cut.mem_chain hash).mp member with
        | inl early =>
            apply unmerged hash _ merges
            rw [cut.next_eq]
            exact List.mem_append_left _ early
        | inr removed =>
            rcases remerges hash removed row.blockHash merges with
              old | added | ⟨other, added, merged⟩
            · exact notMem_chain cut off notRemoved old
            · exact off (List.mem_cons_of_mem _ (added_next _ added))
            · exact others other added merged
    · exact absurd merged (unmerged other (added_next other added))

/-- A row that only a removed block merged keeps its colour. -/
theorem remerged_of_coloured {front : List Hash} {removed : Hash}
    (cut : Cut ghostdag pruningPoint chain changes next front)
    (coloured : Coloured ghostdag pruningPoint chain row)
    (changed : Changed ghostdag changes row changedRow)
    (recoloured : Coloured ghostdag pruningPoint next changedRow)
    (member : removed ∈ changes.removed)
    (merges : ghostdag.Merges removed row.blockHash) :
    row.blockHash ∈ pruningPoint :: chain ∨ row.blockHash ∈ changes.added ∨
      ∃ added ∈ changes.added, ghostdag.Merges added row.blockHash := by
  by_contra none_
  simp only [not_or, not_exists, not_and] at none_
  obtain ⟨old, notAdded, others⟩ := none_
  have notRemoved : row.blockHash ∉ changes.removed := fun removed =>
    old (List.mem_cons_of_mem _ ((cut.mem_chain _).mpr (.inr removed)))
  have off : changedRow.blockHash ∉ pruningPoint :: next := by
    rw [changed.blockHash, cut.next_eq]
    rw [List.mem_cons, cut.mem_chain] at old
    rw [List.mem_cons, List.mem_append]
    tauto
  have gray : changedRow.color = .gray := by
    apply recoloured.gray off
    rw [changed.blockHash, cut.next_eq]
    intro hash present
    cases List.mem_append.mp present with
    | inl early =>
        intro merged
        exact (cut.under hash (List.mem_cons_of_mem _ early) removed
          member).not_merges merged merges
    | inr added => exact others hash added
  have same : changedRow.color = row.color := by
    rcases changed.cases_color with ⟨-, same⟩ | ⟨hash, added, merged, -⟩
    · rw [same, if_neg notRemoved]
    · exact absurd merged (others hash added)
  have present := (cut.mem_chain removed).mpr (.inr member)
  obtain ⟨found, data, mergeSet⟩ := merges
  rw [same] at gray
  cases List.mem_append.mp mergeSet with
  | inl blue =>
      rw [coloured.blue old removed present found data blue] at gray
      cases gray
  | inr red =>
      rw [coloured.red old removed present found data red] at gray
      cases gray

end Invariant

section Additions

variable {node : Node} {db after : Database} {row : BlockRow}

/-- New rows stand behind the stored ones, gray and not flagged. -/
def Extended (db after : Database) : Prop :=
  ∃ added, after.storedRows = db.storedRows ++ added ∧
    ∀ row ∈ added, row.color = .gray ∧
      row.isInVirtualSelectedParentChain = false

theorem Extended.refl (db : Database) : Extended db db :=
  ⟨[], by simp⟩

theorem Extended.trans {middle : Database} (first : Extended db middle)
    (second : Extended middle after) : Extended db after := by
  obtain ⟨added, rows, grays⟩ := first
  obtain ⟨later, laterRows, laterGrays⟩ := second
  refine ⟨added ++ later, ?_, ?_⟩
  · rw [laterRows, rows, List.append_assoc]
  · intro row member
    cases List.mem_append.mp member with
    | inl early => exact grays row early
    | inr late => exact laterGrays row late

private theorem extended_processBlock {block : Block}
    (processed : processBlock node db block = .ok after) : Extended db after := by
  rcases processBlock_eq_ok processed with ⟨-, rows, -⟩ | ⟨-, row, stored⟩
  · exact ⟨[], by simpa using rows⟩
  · refine ⟨[row], stored.rows, ?_⟩
    intro other member
    rw [List.mem_singleton.mp member]
    exact ⟨stored.color, stored.isInVirtualSelectedParentChain⟩

theorem extended_processBlockAndDependencies {hash : Hash} {block : Block}
    {pruningBlock : Option Block}
    (processed : processBlockAndDependencies node db hash block pruningBlock =
      .ok after) : Extended db after := by
  obtain ⟨batch, -, popped⟩ := bind_eq_ok.mp processed
  unfold processBatch at popped
  clear processed
  generalize batch.blocks.reverse = items at popped
  induction items generalizing db with
  | nil =>
      cases popped
      exact Extended.refl _
  | cons item items ih =>
      rw [List.foldlM_cons, bind_eq_ok] at popped
      obtain ⟨middle, first, rest⟩ := popped
      exact (extended_processBlock first).trans (ih rest)

theorem Extended.subset (extended : Extended db after) :
    db.hashes ⊆ after.hashes := by
  obtain ⟨added, rows, -⟩ := extended
  rw [← Database.map_blockHash_storedRows, ← Database.map_blockHash_storedRows,
    rows, List.map_append]
  exact List.subset_append_left _ _

variable {ghostdag : Ghostdag} {pruningPoint : Hash} {chain : List Hash}

theorem Placed.extended (placed : Placed ghostdag pruningPoint db chain)
    (extended : Extended db after) :
    Placed ghostdag pruningPoint after chain where
  isChain := placed.isChain
  stored := fun hash member => extended.subset (placed.stored hash member)
  mergedStored := fun hash member merged merges =>
    extended.subset (placed.mergedStored hash member merged merges)

theorem coloured_extended (placed : Placed ghostdag pruningPoint db chain)
    (coloured : ∀ row ∈ db.blocks.rows, Coloured ghostdag pruningPoint chain row)
    (extended : Extended db after) (member : row ∈ after.blocks.rows) :
    Coloured ghostdag pruningPoint chain row := by
  have distinct : after.hashes.Nodup := after.blocks.uniqueHash
  obtain ⟨added, rows, grays⟩ := extended
  have hashes := congrArg (List.map (·.blockHash)) rows
  rw [List.map_append, Database.map_blockHash_storedRows,
    Database.map_blockHash_storedRows] at hashes
  have apart := (List.nodup_append.mp (hashes ▸ distinct)).2.2
  have stored : row.asStored ∈ db.storedRows ++ added :=
    rows ▸ List.mem_map_of_mem member
  cases List.mem_append.mp stored with
  | inl early =>
      obtain ⟨older, olderMember, same⟩ := List.mem_map.mp early
      have before := coloured older olderMember
      have asStored : Coloured ghostdag pruningPoint chain older.asStored :=
        ⟨before.flag, before.blue, before.red, before.gray⟩
      rw [same] at asStored
      exact ⟨asStored.flag, asStored.blue, asStored.red, asStored.gray⟩
  | inr late =>
      obtain ⟨gray, unflagged⟩ := grays _ late
      have new : row.blockHash ∉ db.hashes := fun old =>
        apart _ old _ (List.mem_map_of_mem late) rfl
      have unmerged : ∀ hash ∈ chain, ¬ghostdag.Merges hash row.blockHash :=
        fun hash onChain merges =>
          new (placed.mergedStored hash onChain _ merges)
      refine ⟨?_, ?_, ?_, fun _ _ => gray⟩
      · constructor
        · intro flagged
          cases flagged.symm.trans unflagged
        · intro onChain
          exact absurd (placed.stored _ onChain) new
      · intro _ hash onChain found data blue
        exact absurd ⟨found, data, List.mem_append_left _ blue⟩
          (unmerged hash onChain)
      · intro _ hash onChain found data red
        exact absurd ⟨found, data, List.mem_append_right _ red⟩
          (unmerged hash onChain)

end Additions

section Histories

/-- A block that is added, or a change of the chain, as the node reports it. -/
inductive Event where
  | blockAdded (node : Node) (hash : Hash) (block : Block)
      (pruningBlock : Option Block)
  | virtualChanged (node : Node) (flagOrder : Iteration Bool)
      (colorOrder : Iteration Color) (changes : Option ChainChanges)

def Event.node : Event → Node
  | .blockAdded node _ _ _ => node
  | .virtualChanged node _ _ _ => node

def Event.changes : Event → Option ChainChanges
  | .blockAdded _ _ _ _ => none
  | .virtualChanged _ _ _ changes => changes

def process (db : Database) : Event → Except Failure Database
  | .blockAdded node hash block pruningBlock =>
      processBlockAndDependencies node db hash block pruningBlock
  | .virtualChanged node flagOrder colorOrder changes =>
      processVirtualChange node flagOrder colorOrder db changes

/-- An event is processed, with the chain as the node has it. -/
structure Follows (ghostdag : Ghostdag) (pruningPoint : Hash)
    (state : Database × List Hash) (event : Event)
    (next : Database × List Hash) : Prop where
  answers : ghostdag.Answers event.node
  processed : process state.1 event = .ok next.1
  unchanged : event.changes = none → next.2 = state.2
  moves : ∀ changes, event.changes = some changes →
    Moves ghostdag pruningPoint state.1 state.2 changes next.2

/-- The event, when it changes the chain, recolours all that it should. -/
def Recolours (ghostdag : Ghostdag) (pruningPoint : Hash)
    (state : Database × List Hash) (event : Event) : Prop :=
  ∀ changes, event.changes = some changes →
    Remerges ghostdag pruningPoint state.2 changes

variable {ghostdag : Ghostdag} {pruningPoint : Hash}
  {state next : Database × List Hash} {event : Event}

/-- Every row has its flag and its colour. -/
def AllColoured (ghostdag : Ghostdag) (pruningPoint : Hash)
    (state : Database × List Hash) : Prop :=
  ∀ row ∈ state.1.blocks.rows, Coloured ghostdag pruningPoint state.2 row

/-- An event that leaves the chain only adds rows. -/
theorem extended_follows (follows : Follows ghostdag pruningPoint state event next)
    (unchanged : event.changes = none) : Extended state.1 next.1 := by
  have processed := follows.processed
  cases event with
  | blockAdded node hash block pruningBlock =>
      exact extended_processBlockAndDependencies processed
  | virtualChanged node flagOrder colorOrder changes =>
      cases unchanged
      have same : state.1 = next.1 := Except.ok.inj processed
      rw [← same]
      exact Extended.refl _

theorem changed_follows {changes : ChainChanges}
    (follows : Follows ghostdag pruningPoint state event next)
    (given : event.changes = some changes) :
    next.1.hashes = state.1.hashes ∧
      ∀ changedRow ∈ next.1.blocks.rows, ∃ row ∈ state.1.blocks.rows,
        Changed ghostdag changes row changedRow := by
  have processed := follows.processed
  have answers := follows.answers
  cases event with
  | blockAdded node hash block pruningBlock => cases given
  | virtualChanged node flagOrder colorOrder changes =>
      cases given
      exact processVirtualChange_eq_ok answers processed

private theorem placed_follows
    (placed : Placed ghostdag pruningPoint state.1 state.2)
    (follows : Follows ghostdag pruningPoint state event next) :
    Placed ghostdag pruningPoint next.1 next.2 := by
  cases given : event.changes with
  | none =>
      rw [follows.unchanged given]
      exact placed.extended (extended_follows follows given)
  | some changes =>
      have moved := placed.moves (follows.moves changes given)
      have hashes := (changed_follows follows given).1
      exact ⟨moved.isChain, hashes ▸ moved.stored, hashes ▸ moved.mergedStored⟩

/-- One event keeps the colours exactly when it recolours all that it should. -/
theorem allColoured_follows_iff
    (placed : Placed ghostdag pruningPoint state.1 state.2)
    (coloured : AllColoured ghostdag pruningPoint state)
    (follows : Follows ghostdag pruningPoint state event next) :
    AllColoured ghostdag pruningPoint next ↔
      Recolours ghostdag pruningPoint state event := by
  cases given : event.changes with
  | none =>
      constructor
      · intro _ changes some_
        cases given.symm.trans some_
      · intro _ row member
        rw [follows.unchanged given]
        exact coloured_extended placed coloured (extended_follows follows given)
          member
  | some changes =>
      have moves := follows.moves changes given
      obtain ⟨front, cut⟩ := placed.cut moves
      obtain ⟨hashes, rows⟩ := changed_follows follows given
      constructor
      · intro recoloured other otherGiven removed member merged merges
        cases given.symm.trans otherGiven
        have onChain := (cut.mem_chain removed).mpr (.inr member)
        have stored := placed.mergedStored removed onChain merged merges
        rw [← hashes] at stored
        obtain ⟨changedRow, changedMember, rfl⟩ := List.mem_map.mp stored
        obtain ⟨row, rowMember, changed⟩ := rows changedRow changedMember
        rw [changed.blockHash] at merges ⊢
        exact remerged_of_coloured cut (coloured row rowMember) changed
          (recoloured changedRow changedMember) member merges
      · intro recolours changedRow changedMember
        obtain ⟨row, rowMember, changed⟩ := rows changedRow changedMember
        exact coloured_changed cut moves.isChain (coloured row rowMember)
          (recolours changes given) changed

variable {start : Database} {db : Database} {timeInMilliseconds : Int}

theorem rows_of_reset
    (reset : storePruningPoint db pruningPoint timeInMilliseconds = .ok start)
    {row : BlockRow} (member : row ∈ start.blocks.rows) :
    row.blockHash = pruningPoint ∧
      row.isInVirtualSelectedParentChain = true := by
  obtain ⟨inserted, insertion, ⟨⟩⟩ := bind_eq_ok.mp reset
  obtain ⟨new, rfl⟩ := Database.insertBlock_eq_ok.mp insertion
  rw [List.mem_singleton.mp member]
  exact ⟨rfl, rfl⟩

private theorem placed_of_reset
    (reset : storePruningPoint db pruningPoint timeInMilliseconds = .ok start) :
    Placed ghostdag pruningPoint start [] := by
  obtain ⟨inserted, insertion, ⟨⟩⟩ := bind_eq_ok.mp reset
  obtain ⟨new, rfl⟩ := Database.insertBlock_eq_ok.mp insertion
  refine ⟨List.isChain_singleton _, ?_, ?_⟩
  · intro hash member
    exact member
  · intro hash member
    cases member

private theorem allColoured_of_reset
    (reset : storePruningPoint db pruningPoint timeInMilliseconds = .ok start) :
    AllColoured ghostdag pruningPoint (start, []) := by
  intro row member
  obtain ⟨isPruningPoint, flagged⟩ := rows_of_reset reset member
  have onChain : row.blockHash ∈ [pruningPoint] :=
    isPruningPoint ▸ List.mem_singleton_self _
  exact ⟨by simp [flagged, isPruningPoint], fun off => absurd onChain off,
    fun off => absurd onChain off, fun off => absurd onChain off⟩

/-- Along every history whose changes recolour all that they should, every row
has its flag and its colour, and the first change that does not breaks it. -/
theorem allColoured_of_run
    (reset : storePruningPoint db pruningPoint timeInMilliseconds = .ok start)
    {events : List Event} {finish : Database × List Hash}
    (run : Run (restrict (Recolours ghostdag pruningPoint)
      (Follows ghostdag pruningPoint)) (start, []) events finish) :
    AllColoured ghostdag pruningPoint finish ∧
      ∀ event next, Follows ghostdag pruningPoint finish event next →
        (AllColoured ghostdag pruningPoint next ↔
          Recolours ghostdag pruningPoint finish event) := by
  have invariant : Placed ghostdag pruningPoint finish.1 finish.2 ∧
      AllColoured ghostdag pruningPoint finish := by
    apply run.preserves ⟨placed_of_reset reset, allColoured_of_reset reset⟩
    rintro state event next ⟨placed, coloured⟩ ⟨recolours, follows⟩
    exact ⟨placed_follows placed follows,
      (allColoured_follows_iff placed coloured follows).mpr recolours⟩
  refine ⟨invariant.2, ?_⟩
  intro event next follows
  exact allColoured_follows_iff invariant.1 invariant.2 follows

end Histories

section Samples

/-- GHOSTDAG data and pasts from tables. -/
def ghostdagOf (table : List (Hash × GhostdagData)) (pasts : List (Hash × Hash))
    (irrefl : ∀ pair ∈ pasts, pair.1 ≠ pair.2)
    (trans : ∀ first ∈ pasts, ∀ second ∈ pasts, first.2 = second.1 →
      (first.1, second.2) ∈ pasts)
    (lawful : ∀ entry ∈ table, (entry.1, entry.2.selectedParent) ∈ pasts ∧
      (∀ merged ∈ entry.2.mergeSetBlues ++ entry.2.mergeSetReds,
        (entry.1, merged) ∈ pasts ∧
          (entry.2.selectedParent, merged) ∉ pasts) ∧
      ∀ merged ∈ entry.2.mergeSetBlues, merged ∉ entry.2.mergeSetReds) :
    Ghostdag :=
  have listed : ∀ {hash found}, dataOf table hash = some found →
      (hash, found) ∈ table := by
    intro hash found data
    obtain ⟨entry, first, rfl⟩ := Option.map_eq_some_iff.mp data
    have same : entry.1 = hash := by simpa using List.find?_some first
    rw [← same]
    exact List.mem_of_find?_eq_some first
  { data := dataOf table
    past := fun upper lower => (upper, lower) ∈ pasts
    past_irrefl := fun _ member => irrefl _ member rfl
    past_trans := fun first second => trans _ first _ second rfl
    selectedParent_past := fun data => (lawful _ (listed data)).1
    merged_past := fun data member =>
      ((lawful _ (listed data)).2.1 _ member).1
    merged_new := fun data member =>
      ((lawful _ (listed data)).2.1 _ member).2
    blue_not_red := fun data member => (lawful _ (listed data)).2.2 _ member }

def reorgBlocks : List Block :=
  [⟨0, 0, 0, []⟩, ⟨1, 1, 1, [0]⟩, ⟨2, 1, 1, [0]⟩, ⟨3, 2, 2, [1, 2]⟩,
    ⟨4, 2, 2, [1]⟩, ⟨5, 3, 3, [4]⟩, ⟨6, 4, 4, [4, 3]⟩]

def reorgTable : List (Hash × GhostdagData) :=
  [(1, ⟨0, [0], []⟩), (2, ⟨0, [0], []⟩), (3, ⟨1, [1, 2], []⟩),
    (4, ⟨1, [1], []⟩), (5, ⟨4, [4], []⟩), (6, ⟨4, [4], [3, 2]⟩)]

def reorgPasts : List (Hash × Hash) :=
  [(1, 0), (2, 0), (3, 0), (3, 1), (3, 2), (4, 0), (4, 1), (5, 0), (5, 1),
    (5, 4), (6, 0), (6, 1), (6, 2), (6, 3), (6, 4)]

def reorgGhostdag : Ghostdag :=
  ghostdagOf reorgTable reorgPasts (by simp [reorgPasts])
    (by simp [reorgPasts]) (by simp [reorgTable, reorgPasts])

def reorgNode : Node :=
  nodeOf reorgBlocks (by simp [reorgBlocks]) (dataOf reorgTable)

def storedOrder (Value : Type) : Iteration Value where
  entries map := map.entries.map fun entry => (entry.1, entry.2)
  perm _ := List.Perm.refl _

def added (block : Block) : Event := .blockAdded reorgNode block.hash block none

def moved (removed added : List Hash) : Event :=
  .virtualChanged reorgNode (storedOrder Bool) (storedOrder Color)
    (some ⟨removed, added⟩)

/-- The hashes before each change, and the rows at the end. -/
def reorgTrace (tip : Block) (chain : List Hash) :
    Except Failure (List Hash × List Hash × List (Hash × Color × Bool)) := do
  let first ← process prunedDatabase (added ⟨3, 2, 2, [1, 2]⟩)
  let second ← process first (moved [] [1, 3])
  let third ← process second (added tip)
  let fourth ← process third (moved [3] chain)
  pure (first.hashes, third.hashes, fourth.blocks.rows.map fun row =>
    (row.blockHash, row.color, row.isInVirtualSelectedParentChain))

/-- The block 6 merges the block 2 again. -/
theorem reorgTrace_remerged :
    reorgTrace ⟨6, 4, 4, [4, 3]⟩ [4, 6] =
      .ok ([0, 2, 1, 3], [0, 2, 1, 3, 4, 6],
        [(0, .blue, true), (2, .red, false), (1, .blue, true),
          (3, .red, false), (4, .blue, true), (6, .gray, true)]) := by
  decide +kernel

/-- The block 2 stays blue. -/
theorem reorgTrace_stale :
    reorgTrace ⟨5, 3, 3, [4]⟩ [4, 5] =
      .ok ([0, 2, 1, 3], [0, 2, 1, 3, 4, 5],
        [(0, .blue, true), (2, .blue, false), (1, .blue, true),
          (3, .gray, false), (4, .blue, true), (5, .gray, true)]) := by
  decide +kernel

private theorem reorgGhostdag_answers : reorgGhostdag.Answers reorgNode := by
  intro hash found answered
  simp only [reorgNode, nodeOf] at answered
  split at answered
  · rename_i other data
    cases answered
    exact data
  · cases answered

/-- What a block of the sample merges. -/
def reorgMergeSet (hash : Hash) : List Hash :=
  match dataOf reorgTable hash with
  | some found => found.mergeSetBlues ++ found.mergeSetReds
  | none => []

theorem reorgGhostdag_merges_iff {hash merged : Hash} :
    reorgGhostdag.Merges hash merged ↔ merged ∈ reorgMergeSet hash := by
  unfold reorgMergeSet
  have same : reorgGhostdag.data hash = dataOf reorgTable hash := rfl
  unfold Ghostdag.Merges
  rw [same]
  cases dataOf reorgTable hash with
  | none => simp
  | some found => simp

/-- The blocks and what they merge is stored. -/
def mergesWithin (chain stored : List Hash) : Bool :=
  chain.all fun hash => decide (hash ∈ stored) &&
    (reorgMergeSet hash).all fun merged => decide (merged ∈ stored)

private theorem stored_of_mergesWithin {chain stored : List Hash}
    (within : mergesWithin chain stored = true) {hash : Hash}
    (member : hash ∈ chain) :
    hash ∈ stored ∧
      ∀ merged, reorgGhostdag.Merges hash merged → merged ∈ stored := by
  have both := List.all_eq_true.mp within hash member
  rw [Bool.and_eq_true, decide_eq_true_iff] at both
  refine ⟨both.1, ?_⟩
  intro merged merges
  have held := List.all_eq_true.mp both.2 merged
    (reorgGhostdag_merges_iff.mp merges)
  exact of_decide_eq_true held

theorem run_of_reorgTrace {tip : Block} {chain stored : List Hash}
    {rows : List (Hash × Color × Bool)}
    (trace : reorgTrace tip chain = .ok ([0, 2, 1, 3], stored, rows))
    (isChain : reorgGhostdag.IsSelectedParentChain (0 :: 1 :: chain))
    (within : mergesWithin chain stored = true) :
    ∃ third fourth,
      Run (restrict (Recolours reorgGhostdag 0) (Follows reorgGhostdag 0))
        (prunedDatabase, [])
        [added ⟨3, 2, 2, [1, 2]⟩, moved [] [1, 3], added tip] (third, [1, 3]) ∧
      Follows reorgGhostdag 0 (third, [1, 3]) (moved [3] chain)
        (fourth, 1 :: chain) ∧
      fourth.blocks.rows.map (fun row =>
        (row.blockHash, row.color, row.isInVirtualSelectedParentChain)) =
        rows := by
  unfold reorgTrace at trace
  obtain ⟨first, firstDone, trace⟩ := bind_eq_ok.mp trace
  obtain ⟨second, secondDone, trace⟩ := bind_eq_ok.mp trace
  obtain ⟨third, thirdDone, trace⟩ := bind_eq_ok.mp trace
  obtain ⟨fourth, fourthDone, trace⟩ := bind_eq_ok.mp trace
  obtain ⟨firstHashes, thirdHashes, fourthRows⟩ :
      first.hashes = [0, 2, 1, 3] ∧ third.hashes = stored ∧ _ = rows := by
    simpa using Except.ok.inj trace
  have adds (state next : Database) (chain : List Hash) (block : Block)
      (done : process state (added block) = .ok next) :
      restrict (Recolours reorgGhostdag 0) (Follows reorgGhostdag 0)
        (state, chain) (added block) (next, chain) :=
    ⟨fun _ given => (by cases given),
      ⟨reorgGhostdag_answers, done, fun _ => rfl,
        fun _ given => (by cases given)⟩⟩
  have earlier : mergesWithin [1, 3] [0, 2, 1, 3] = true := by decide +kernel
  have moves : restrict (Recolours reorgGhostdag 0) (Follows reorgGhostdag 0)
      (first, []) (moved [] [1, 3]) (second, [1, 3]) := by
    refine ⟨?_, reorgGhostdag_answers, secondDone, fun given => (by cases given),
      ?_⟩
    · rintro changes ⟨⟩ removed member
      cases member
    · rintro changes ⟨⟩
      refine ⟨⟨0, List.Perm.refl _, rfl⟩, ?_, ?_, ?_⟩
      · simp only [Ghostdag.IsSelectedParentChain, List.isChain_cons_cons]
        exact ⟨⟨_, rfl, rfl⟩, ⟨_, rfl, rfl⟩, List.isChain_singleton _⟩
      · intro hash member
        rw [firstHashes]
        exact (stored_of_mergesWithin earlier member).1
      · intro hash member
        rw [firstHashes]
        exact (stored_of_mergesWithin earlier member).2
  refine ⟨third, fourth, ?_, ?_, fourthRows⟩
  · apply Run.cons (adds _ first [] _ firstDone)
    apply Run.cons moves
    exact Run.cons (adds _ third _ _ thirdDone) .start
  · refine ⟨reorgGhostdag_answers, fourthDone, fun given => (by cases given),
      ?_⟩
    rintro changes ⟨⟩
    refine ⟨⟨1, List.Perm.refl _, rfl⟩, isChain, ?_, ?_⟩
    · intro hash member
      rw [thirdHashes]
      exact (stored_of_mergesWithin within member).1
    · intro hash member
      rw [thirdHashes]
      exact (stored_of_mergesWithin within member).2

theorem allColoured_remerged :
    ∃ finish, Run (restrict (Recolours reorgGhostdag 0) (Follows reorgGhostdag 0))
        (prunedDatabase, [])
        ([added ⟨3, 2, 2, [1, 2]⟩, moved [] [1, 3], added ⟨6, 4, 4, [4, 3]⟩] ++
          [moved [3] [4, 6]]) finish ∧
      AllColoured reorgGhostdag 0 finish := by
  obtain ⟨third, fourth, run, last, -⟩ :=
    run_of_reorgTrace reorgTrace_remerged
      (by
        simp only [Ghostdag.IsSelectedParentChain, List.isChain_cons_cons]
        exact ⟨⟨_, rfl, rfl⟩, ⟨_, rfl, rfl⟩, ⟨_, rfl, rfl⟩,
          List.isChain_singleton _⟩)
      (by decide +kernel)
  have recolours : Recolours reorgGhostdag 0 (third, [1, 3])
      (moved [3] [4, 6]) := by
    rintro changes ⟨⟩ removed member merged merges
    rw [List.mem_singleton.mp member, reorgGhostdag_merges_iff] at merges
    have mergeSet : reorgMergeSet 3 = [1, 2] := rfl
    rw [mergeSet, List.mem_pair] at merges
    rcases merges with rfl | rfl
    · exact .inl (by simp)
    · exact .inr (.inr ⟨6, by simp, reorgGhostdag_merges_iff.mpr (by
        have remerged : reorgMergeSet 6 = [4, 3, 2] := rfl
        rw [remerged]
        simp)⟩)
  have whole := Run.extend run ⟨recolours, last⟩
  exact ⟨_, whole,
    (allColoured_of_run storePruningPoint_emptyDatabase whole).1⟩

theorem stale_not_coloured :
    ∃ finish, Run (Follows reorgGhostdag 0) (prunedDatabase, [])
        ([added ⟨3, 2, 2, [1, 2]⟩, moved [] [1, 3], added ⟨5, 3, 3, [4]⟩] ++
          [moved [3] [4, 5]]) finish ∧
      ¬AllColoured reorgGhostdag 0 finish := by
  obtain ⟨third, fourth, run, last, rows⟩ :=
    run_of_reorgTrace reorgTrace_stale
      (by
        simp only [Ghostdag.IsSelectedParentChain, List.isChain_cons_cons]
        exact ⟨⟨_, rfl, rfl⟩, ⟨_, rfl, rfl⟩, ⟨_, rfl, rfl⟩,
          List.isChain_singleton _⟩)
      (by decide +kernel)
  refine ⟨_, Run.extend run.unrestrict last, ?_⟩
  intro coloured
  have stale : ((2, .blue, false) : Hash × Color × Bool) ∈
      fourth.blocks.rows.map fun row =>
        (row.blockHash, row.color, row.isInVirtualSelectedParentChain) := by
    rw [rows]
    simp
  obtain ⟨row, member, same⟩ := List.mem_map.mp stale
  have hash : row.blockHash = 2 := congrArg Prod.fst same
  have color : row.color = .blue := congrArg (fun triple => triple.2.1) same
  have gray := (coloured row member).gray
  rw [hash, color] at gray
  have unmerged : ∀ hash ∈ ([1, 4, 5] : List Hash),
      ¬reorgGhostdag.Merges hash 2 := by
    intro hash member merges
    rw [reorgGhostdag_merges_iff] at merges
    have sets : ([1, 4, 5] : List Hash).all
        (fun hash => decide (2 ∉ reorgMergeSet hash)) = true := by decide +kernel
    exact of_decide_eq_true (List.all_eq_true.mp sets hash member) merges
  cases gray (by simp) unmerged

end Samples

end GraphInspector
