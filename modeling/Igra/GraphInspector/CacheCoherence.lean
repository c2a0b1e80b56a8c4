import Igra.GraphInspector.BlockCache
import Igra.GraphInspector.Processing
import Igra.Runs

/-!
# Coherence of the block cache

Inside a transaction the cache has rows that the transaction sees.  When it is
rolled back, the rows that it inserted are gone, so the cache stays coherent
exactly if none of those is left in it.
-/

namespace GraphInspector

section Exposure

/-- The hashes and heights of the blocks that a transaction inserted since it
last emptied the tables, and the hashes of those that may be cached. -/
structure Exposure where
  inserted : List (Hash × Nat)
  exposed : List Hash

namespace Exposure

/-- A block that was inserted is cached again when it is looked up. -/
def lookedUp (exposure : Exposure) (blockHash : Hash) : Exposure :=
  if blockHash ∈ exposure.inserted.map Prod.fst then
    { exposure with exposed := exposure.exposed ++ [blockHash] }
  else exposure

/-- What an operation changes, given whether it succeeded. -/
def after (exposure : Exposure) : Operation × Bool → Exposure
  | (.insertBlock row, true) =>
      ⟨exposure.inserted ++ [(row.blockHash, row.height)],
        exposure.exposed ++ [row.blockHash]⟩
  | (.doesBlockExist blockHash, true) => exposure.lookedUp blockHash
  | (.blockIDByHash blockHash, true) => exposure.lookedUp blockHash
  | (.blockHeightByHash blockHash, true) => exposure.lookedUp blockHash
  | (.loadCache minHeight, true) =>
      { exposure with
        exposed := (exposure.inserted.filter fun block =>
          minHeight ≤ block.2).map Prod.fst }
  | (.clear, _) => ⟨[], []⟩
  | (_, false) => exposure

theorem after_blockIDByHash (exposure : Exposure) (blockHash : Hash)
    (succeeded : Bool) :
    exposure.after (.blockIDByHash blockHash, succeeded) =
      if succeeded then exposure.lookedUp blockHash else exposure := by
  cases succeeded <;> rfl

theorem after_blockHeightByHash (exposure : Exposure) (blockHash : Hash)
    (succeeded : Bool) :
    exposure.after (.blockHeightByHash blockHash, succeeded) =
      if succeeded then exposure.lookedUp blockHash else exposure := by
  cases succeeded <;> rfl

end Exposure

/-- The blocks of a transaction that may be cached when it ends. -/
def exposedBlocks (trace : List (Operation × Bool)) : List Hash :=
  (trace.foldl Exposure.after ⟨[], []⟩).exposed

/-- If the call is rolled back, it leaves no block that it inserted within
reach of the cache. -/
def CachedDatabase.LeavesNone (db : CachedDatabase) (call : Call) : Prop :=
  db.rollsBack call = true →
    exposedBlocks (db.beginTransaction.performAll call.operations).1 = []

end Exposure

namespace LRUCache

variable {T : Type} {lru : LRUCache T} {first : List Hash → Hash}
  {key hash : Hash} {value found : T}

private theorem lookup_of_lookup_erase {entries : AList fun _ : Hash => T}
    (kept : (entries.erase key).lookup hash = some found) :
    entries.lookup hash = some found := by
  by_cases same : hash = key
  · rw [same, AList.lookup_erase] at kept
    cases kept
  · rwa [AList.lookup_erase_ne same] at kept

theorem get_add (cached : (lru.add first key value).get hash = some found) :
    hash = key ∧ found = value ∨ hash ≠ key ∧ lru.get hash = some found := by
  have inserted : (lru.cache.insert key value).lookup hash = some found := by
    unfold add at cached
    dsimp only at cached
    split at cached
    · exact lookup_of_lookup_erase cached
    · exact cached
  by_cases same : hash = key
  · subst same
    rw [AList.lookup_insert] at inserted
    exact .inl ⟨rfl, (Option.some.inj inserted).symm⟩
  · rw [AList.lookup_insert_ne same] at inserted
    exact .inr ⟨same, inserted⟩

end LRUCache

namespace Session

/-- The cache has rows of the tables. -/
def CachesRows (session : Session) : Prop :=
  ∀ hash base, session.blockBaseCache.get hash = some base →
    ∃ row ∈ session.tables.blocks.rows,
      row.blockHash = hash ∧ base = row.base

/-- How the cache of a transaction relates to the blocks that were stored
before it. -/
structure Tracks (stored : Blocks) (exposure : Exposure)
    (session : Session) : Prop where
  cached : session.CachesRows
  old : ∀ row ∈ session.tables.blocks.rows,
    row.id < stored.nextID → row ∈ stored.rows
  sequence : stored.nextID ≤ session.tables.blocks.nextID
  inserted : session.aborted = false →
    ∀ row ∈ session.tables.blocks.rows, stored.nextID ≤ row.id →
      (row.blockHash, row.height) ∈ exposure.inserted
  exposed : ∀ hash base, session.blockBaseCache.get hash = some base →
    stored.nextID ≤ base.id → hash ∈ exposure.exposed

variable {stored : Blocks} {exposure wider : Exposure} {session : Session}
  {environment : Environment}

theorem Tracks.mono (tracks : session.Tracks stored exposure)
    (inserted : exposure.inserted ⊆ wider.inserted)
    (exposed : exposure.exposed ⊆ wider.exposed) :
    session.Tracks stored wider :=
  { tracks with
    inserted := fun runs row member new =>
      inserted (tracks.inserted runs row member new)
    exposed := fun hash base found new =>
      exposed (tracks.exposed hash base found new) }

theorem Tracks.abort (tracks : session.Tracks stored exposure) :
    session.abort.Tracks stored exposure :=
  { tracks with
    inserted := by
      intro runs
      cases runs }

/-- An emptied cache exposes nothing. -/
theorem Tracks.clearCache (tracks : session.Tracks stored exposure)
    (exposed : List Hash) :
    session.clearCache.Tracks stored
      { exposure with exposed := exposed } :=
  { tracks with
    cached := by
      intro hash base found
      cases found
    exposed := by
      intro hash base found
      cases found }

theorem CachesRows.remember {row : BlockRow} (caches : session.CachesRows)
    (member : row ∈ session.tables.blocks.rows) :
    (session.remember environment row.blockHash row.base).CachesRows := by
  intro hash base found
  rcases LRUCache.get_add found with ⟨rfl, rfl⟩ | ⟨-, older⟩
  · exact ⟨row, member, rfl, rfl⟩
  · exact caches hash base older

theorem Tracks.remember {row : BlockRow}
    (tracks : session.Tracks stored exposure)
    (member : row ∈ session.tables.blocks.rows)
    (exposed : stored.nextID ≤ row.id →
      row.blockHash ∈ exposure.exposed) :
    (session.remember environment row.blockHash row.base).Tracks stored
      exposure :=
  { tracks with
    cached := tracks.cached.remember member
    exposed := by
      intro hash base found new
      rcases LRUCache.get_add found with ⟨rfl, rfl⟩ | ⟨-, older⟩
      · exact exposed new
      · exact tracks.exposed hash base older new }

theorem answers_eq_true {statement : Nat} :
    session.answers environment statement = true ↔
      session.aborted = false ∧ environment.answers statement = true := by
  rw [answers, Bool.and_eq_true, Bool.not_eq_true']

private theorem subset_lookedUp (exposure : Exposure) (blockHash : Hash) :
    exposure.inserted ⊆ (exposure.lookedUp blockHash).inserted ∧
      exposure.exposed ⊆ (exposure.lookedUp blockHash).exposed := by
  unfold Exposure.lookedUp
  split
  · exact ⟨List.Subset.refl _, List.subset_append_left _ _⟩
  · exact ⟨List.Subset.refl _, List.Subset.refl _⟩

theorem Tracks.lookedUp (tracks : session.Tracks stored exposure)
    (blockHash : Hash) :
    session.Tracks stored (exposure.lookedUp blockHash) :=
  tracks.mono (subset_lookedUp exposure blockHash).1
    (subset_lookedUp exposure blockHash).2

theorem Tracks.rememberFound {row : BlockRow} {blockHash : Hash}
    (tracks : session.Tracks stored exposure)
    (runs : session.aborted = false)
    (found : session.tables.blocks.find? blockHash = some row) :
    (session.remember environment blockHash row.base).Tracks stored
      (exposure.lookedUp blockHash) := by
  obtain ⟨member, rfl⟩ := Blocks.find?_eq_some_iff.mp found
  apply (tracks.lookedUp row.blockHash).remember member
  intro new
  have inserted : row.blockHash ∈ exposure.inserted.map Prod.fst :=
    List.mem_map_of_mem (tracks.inserted runs row member new)
  rw [Exposure.lookedUp, if_pos inserted]
  exact List.mem_append_right _ (List.mem_singleton_self _)

theorem Tracks.doesBlockExist (tracks : session.Tracks stored exposure)
    (blockHash : Hash) :
    let result := session.doesBlockExist environment blockHash
    result.2.Tracks stored
      (exposure.after (.doesBlockExist blockHash, result.1.isOk)) := by
  unfold Session.doesBlockExist
  split
  · exact tracks.lookedUp blockHash
  · split
    · rename_i answered
      split
      · exact tracks.lookedUp blockHash
      · rename_i row found
        exact tracks.rememberFound (answers_eq_true.mp answered).1 found
    · exact tracks.abort

theorem Tracks.blockBaseByHash (tracks : session.Tracks stored exposure)
    (blockHash : Hash) :
    let result := session.blockBaseByHash environment blockHash
    result.2.Tracks stored
      (if result.1.isOk then exposure.lookedUp blockHash else exposure) := by
  unfold Session.blockBaseByHash
  split
  · exact tracks.lookedUp blockHash
  · split
    · rename_i answered
      split
      · exact tracks
      · rename_i row found
        exact tracks.rememberFound (answers_eq_true.mp answered).1 found
    · exact tracks.abort

theorem isOk_map {ε α β : Type} (result : Except ε α) (change : α → β) :
    (result.map change).isOk = result.isOk := by
  cases result <;> rfl

theorem Tracks.mapBlockBase (tracks : session.Tracks stored exposure)
    (blockHash : Hash) (change : BlockBase → Nat) :
    let result := session.blockBaseByHash environment blockHash
    result.2.Tracks stored
      (if (result.1.map change).isOk then exposure.lookedUp blockHash
        else exposure) := by
  intro result
  rw [isOk_map]
  exact tracks.blockBaseByHash blockHash

/-- A new row has an id that no stored row has. -/
theorem Tracks.insertRow (tracks : session.Tracks stored exposure)
    {row : BlockRow} (new : row.blockHash ∉ session.tables.blocks.hashes) :
    ({ session with
        tables :=
          { session.tables with
            blocks := session.tables.blocks.insert row new } } :
      Session).Tracks stored
        { exposure with
          inserted :=
            exposure.inserted ++ [(row.blockHash, row.height)] } where
  cached := by
    intro hash base found
    obtain ⟨older, member, named⟩ := tracks.cached hash base found
    exact ⟨older, List.mem_append_left _ member, named⟩
  old := by
    intro older member before
    rcases List.mem_append.mp member with kept | added
    · exact tracks.old older kept before
    · have sequence := tracks.sequence
      rw [List.mem_singleton.mp added] at before
      exact absurd before (Nat.not_lt_of_le sequence)
  sequence := Nat.le_succ_of_le tracks.sequence
  inserted := by
    intro runs older member after
    rcases List.mem_append.mp member with kept | added
    · exact List.mem_append_left _
        (tracks.inserted runs older kept after)
    · rw [List.mem_singleton.mp added]
      exact List.mem_append_right _ (List.mem_singleton_self _)
  exposed := tracks.exposed

theorem Tracks.insertBlock (tracks : session.Tracks stored exposure)
    (row : BlockRow) :
    let result := session.insertBlock environment row
    result.2.Tracks stored
      (exposure.after (.insertBlock row, result.1.isOk)) := by
  unfold Session.insertBlock Database.insertBlock
  by_cases answered : session.answers environment 0 = true
  · rw [if_pos answered]
    by_cases new : row.blockHash ∉ session.tables.blocks.hashes
    · rw [dif_pos new]
      have member : { row with id := session.tables.blocks.nextID } ∈
          (session.tables.blocks.insert row new).rows :=
        List.mem_append_right _ (List.mem_singleton_self _)
      have wider : Tracks stored (exposure.after (.insertBlock row, true))
          _ :=
        (tracks.insertRow new).mono (List.Subset.refl _)
          (List.subset_append_left exposure.exposed [row.blockHash])
      exact wider.remember member fun _ =>
        List.mem_append_right _ (List.mem_singleton_self _)
    · rw [dif_neg new]
      exact tracks.abort
  · rw [if_neg answered]
    exact tracks.abort

theorem Tracks.rememberAll {rows : List BlockRow}
    (tracks : session.Tracks stored exposure)
    (subset : rows ⊆ session.tables.blocks.rows)
    (exposed : ∀ row ∈ rows, stored.nextID ≤ row.id →
      row.blockHash ∈ exposure.exposed) :
    (rows.foldl (fun session row =>
      session.remember environment row.blockHash row.base)
        session).Tracks stored exposure := by
  induction rows generalizing session with
  | nil => exact tracks
  | cons row rows ih =>
      have first : (session.remember environment row.blockHash
          row.base).Tracks stored exposure :=
        tracks.remember (subset List.mem_cons_self)
          (exposed row List.mem_cons_self)
      exact ih first (List.subset_of_cons_subset subset)
        fun other member => exposed other (List.mem_cons_of_mem _ member)

theorem Tracks.loadCache (tracks : session.Tracks stored exposure)
    (minHeight : Nat) :
    let result := session.loadCache environment minHeight
    result.2.Tracks stored
      (exposure.after (.loadCache minHeight, result.1.isOk)) := by
  unfold Session.loadCache
  split
  · rename_i answered
    have runs := (answers_eq_true.mp answered).1
    apply (tracks.clearCache _).rememberAll
    · exact List.filter_subset_self _
    · intro row member new
      obtain ⟨stored, high⟩ := List.mem_filter.mp member
      refine List.mem_map.mpr ⟨(row.blockHash, row.height), ?_, rfl⟩
      exact List.mem_filter.mpr
        ⟨tracks.inserted runs row stored new, high⟩
  · exact tracks.abort

theorem Tracks.clear (tracks : session.Tracks stored exposure) :
    (session.clear environment).2.Tracks stored ⟨[], []⟩ := by
  have emptied := tracks.clearCache []
  have truncated {tables : Database} {aborted : Bool}
      (blocks : tables.blocks = session.tables.clear.blocks) :
      (⟨tables, aborted, .new session.blockBaseCache.capacity⟩ :
        Session).Tracks stored ⟨[], []⟩ :=
    { cached := by
        intro hash base found
        cases found
      old := by
        rw [blocks]
        intro row member
        cases member
      sequence := by
        rw [blocks]
        exact tracks.sequence
      inserted := by
        rw [blocks]
        intro _ row member
        cases member
      exposed := by
        intro hash base found
        cases found }
  unfold Session.clear
  dsimp only
  split
  · split
    · split
      · exact truncated rfl
      · exact truncated rfl
    · exact truncated rfl
  · exact
      { emptied.abort with
        inserted := by
          intro runs
          cases runs }

theorem Tracks.perform (tracks : session.Tracks stored exposure)
    (operation : Operation) :
    let result := operation.perform environment session
    result.2.Tracks stored (exposure.after (operation, result.1)) := by
  cases operation with
  | insertBlock row => exact tracks.insertBlock row
  | doesBlockExist blockHash => exact tracks.doesBlockExist blockHash
  | blockIDByHash blockHash =>
      intro result
      rw [Exposure.after_blockIDByHash]
      exact tracks.mapBlockBase blockHash BlockBase.id
  | blockHeightByHash blockHash =>
      intro result
      rw [Exposure.after_blockHeightByHash]
      exact tracks.mapBlockBase blockHash BlockBase.height
  | loadCache minHeight => exact tracks.loadCache minHeight
  | clear => exact tracks.clear

theorem Tracks.performAll (tracks : session.Tracks stored exposure)
    (operations : List (Operation × Environment)) :
    (session.performAll operations).2.Tracks stored
      ((session.performAll operations).1.foldl Exposure.after
        exposure) := by
  induction operations generalizing session exposure with
  | nil => exact tracks
  | cons operation operations ih => exact ih (tracks.perform operation.1)

/-- The blocks that count as inserted are rows, and those that count as
exposed are cached. -/
structure Exposes (stored : Blocks) (exposure : Exposure)
    (session : Session) : Prop where
  inserted : ∀ block ∈ exposure.inserted,
    ∃ row ∈ session.tables.blocks.rows, row.blockHash = block.1 ∧
      row.height = block.2 ∧ stored.nextID ≤ row.id
  exposed : ∀ hash ∈ exposure.exposed,
    ∃ base, session.blockBaseCache.get hash = some base ∧
      stored.nextID ≤ base.id

/-- The blocks fit in the cache, with room for as many more. -/
def Fits (session : Session) (more : Nat) : Prop :=
  session.tables.blocks.rows.length + more ≤
    session.blockBaseCache.capacity

theorem Fits.remember {blockHash : Hash} {base : BlockBase} {more : Nat}
    (fits : session.Fits more) :
    (session.remember environment blockHash base).Fits more := by
  have capacity : (session.blockBaseCache.add environment.first blockHash
      base).capacity = session.blockBaseCache.capacity := by
    unfold LRUCache.add
    dsimp only
    split <;> rfl
  unfold Fits Session.remember
  rwa [capacity]

theorem Fits.rememberAll {rows : List BlockRow} {more : Nat}
    (fits : session.Fits more) :
    (rows.foldl (fun session row =>
      session.remember environment row.blockHash row.base)
        session).Fits more := by
  induction rows generalizing session with
  | nil => exact fits
  | cons row rows ih => exact ih fits.remember

/-- An operation adds at most one row. -/
theorem Fits.perform {more : Nat} (fits : session.Fits (more + 1))
    (operation : Operation) :
    (operation.perform environment session).2.Fits more := by
  have less : session.Fits more := Nat.le_of_succ_le fits
  have looked (blockHash : Hash) :
      (session.blockBaseByHash environment blockHash).2.Fits more := by
    unfold Session.blockBaseByHash
    split
    · exact less
    · split
      · split
        · exact less
        · exact less.remember
      · exact less
  cases operation with
  | insertBlock row =>
      change (session.insertBlock environment row).2.Fits more
      unfold Session.insertBlock Database.insertBlock
      by_cases answered : session.answers environment 0 = true
      · rw [if_pos answered]
        by_cases new : row.blockHash ∉ session.tables.blocks.hashes
        · rw [dif_pos new]
          apply Fits.remember
          simp only [Fits, Blocks.insert, List.length_append,
            List.length_singleton] at fits ⊢
          omega
        · rw [dif_neg new]
          exact less
      · rw [if_neg answered]
        exact less
  | doesBlockExist blockHash =>
      change (session.doesBlockExist environment blockHash).2.Fits more
      unfold Session.doesBlockExist
      split
      · exact less
      · split
        · split
          · exact less
          · exact less.remember
        · exact less
  | blockIDByHash blockHash => exact looked blockHash
  | blockHeightByHash blockHash => exact looked blockHash
  | loadCache minHeight =>
      change (session.loadCache environment minHeight).2.Fits more
      unfold Session.loadCache
      split
      · exact Fits.rememberAll less
      · exact less
  | clear =>
      have emptied : 0 + more ≤ session.blockBaseCache.capacity :=
        Nat.le_trans (Nat.add_le_add_right (Nat.zero_le _) more) less
      change (session.clear environment).2.Fits more
      unfold Session.clear
      dsimp only
      split
      · split
        · split
          · exact emptied
          · exact emptied
        · exact emptied
      · exact less

private theorem tables_rememberAll (rows : List BlockRow) (session : Session) :
    (rows.foldl (fun session row =>
      session.remember environment row.blockHash row.base) session).tables =
        session.tables := by
  induction rows generalizing session with
  | nil => rfl
  | cons row rows ih => exact ih _

/-- While all blocks fit in the cache nothing is evicted. -/
theorem CachesRows.get_remember {row : BlockRow} {hash : Hash}
    (caches : session.CachesRows)
    (member : row ∈ session.tables.blocks.rows) (fits : session.Fits 0) :
    (session.remember environment row.blockHash
        row.base).blockBaseCache.get hash =
      if hash = row.blockHash then some row.base
      else session.blockBaseCache.get hash := by
  have keys : (session.blockBaseCache.cache.insert row.blockHash
      row.base).keys ⊆ session.tables.blocks.hashes := by
    intro key found
    rw [← AList.mem_keys, AList.mem_insert] at found
    rcases found with rfl | older
    · exact List.mem_map_of_mem member
    · obtain ⟨base, cached⟩ := Option.isSome_iff_exists.mp
        (AList.lookup_isSome.mpr older)
      obtain ⟨other, otherMember, rfl, -⟩ := caches key base cached
      exact List.mem_map_of_mem otherMember
  have size := (List.subperm_of_subset (AList.keys_nodup _)
    keys).length_le
  rw [Blocks.hashes, List.length_map] at size
  have room : ¬session.blockBaseCache.capacity <
      (session.blockBaseCache.cache.insert row.blockHash
        row.base).keys.length :=
    Nat.not_lt_of_le (Nat.le_trans size fits)
  simp only [Session.remember, LRUCache.add, if_neg room, LRUCache.get]
  by_cases same : hash = row.blockHash
  · rw [if_pos same, same, AList.lookup_insert]
  · rw [if_neg same, AList.lookup_insert_ne same]

theorem Exposes.remember {row : BlockRow}
    (exposes : session.Exposes stored exposure)
    (tracks : session.Tracks stored exposure)
    (member : row ∈ session.tables.blocks.rows) (fits : session.Fits 0) :
    (session.remember environment row.blockHash row.base).Exposes stored
      exposure where
  inserted := exposes.inserted
  exposed := by
    intro hash exposed
    obtain ⟨base, cached, new⟩ := exposes.exposed hash exposed
    rw [tracks.cached.get_remember member fits]
    by_cases same : hash = row.blockHash
    · obtain ⟨other, otherMember, named, rfl⟩ :=
        tracks.cached hash base cached
      have equal := Blocks.eq_of_blockHash_eq otherMember member
        (named.trans same)
      exact ⟨row.base, if_pos same, equal ▸ new⟩
    · exact ⟨base, (if_neg same).trans cached, new⟩

theorem Exposes.abort (exposes : session.Exposes stored exposure) :
    session.abort.Exposes stored exposure :=
  ⟨exposes.inserted, exposes.exposed⟩

theorem Exposes.expose {hash : Hash} {base : BlockBase}
    (exposes : session.Exposes stored exposure)
    (cached : session.blockBaseCache.get hash = some base)
    (new : stored.nextID ≤ base.id) :
    session.Exposes stored
      { exposure with exposed := exposure.exposed ++ [hash] } where
  inserted := exposes.inserted
  exposed := by
    intro other exposed
    rcases List.mem_append.mp exposed with older | added
    · exact exposes.exposed other older
    · rw [List.mem_singleton.mp added]
      exact ⟨base, cached, new⟩

theorem Exposes.lookedUp {blockHash : Hash}
    (exposes : session.Exposes stored exposure)
    (cached : ∀ row ∈ session.tables.blocks.rows,
      row.blockHash = blockHash →
        session.blockBaseCache.get blockHash = some row.base) :
    session.Exposes stored (exposure.lookedUp blockHash) := by
  unfold Exposure.lookedUp
  split
  · rename_i counted
    obtain ⟨block, inserted, rfl⟩ := List.mem_map.mp counted
    obtain ⟨row, member, named, -, new⟩ := exposes.inserted block inserted
    exact exposes.expose (cached row member named) new
  · exact exposes

theorem Tracks.get_of_row {row : BlockRow} {hash : Hash} {base : BlockBase}
    (tracks : session.Tracks stored exposure)
    (cached : session.blockBaseCache.get hash = some base)
    (member : row ∈ session.tables.blocks.rows)
    (named : row.blockHash = hash) : base = row.base := by
  obtain ⟨other, otherMember, otherNamed, rfl⟩ :=
    tracks.cached hash base cached
  rw [Blocks.eq_of_blockHash_eq otherMember member
    (otherNamed.trans named.symm)]

theorem Exposes.rememberFound {row : BlockRow} {blockHash : Hash}
    (exposes : session.Exposes stored exposure)
    (tracks : session.Tracks stored exposure)
    (found : session.tables.blocks.find? blockHash = some row)
    (fits : session.Fits 0) :
    (session.remember environment blockHash row.base).Exposes stored
      (exposure.lookedUp blockHash) := by
  obtain ⟨member, rfl⟩ := Blocks.find?_eq_some_iff.mp found
  apply (exposes.remember tracks member fits).lookedUp
  intro other otherMember named
  rw [tracks.cached.get_remember member fits, if_pos rfl,
    Blocks.eq_of_blockHash_eq otherMember member named]

theorem Exposes.doesBlockExist (exposes : session.Exposes stored exposure)
    (tracks : session.Tracks stored exposure) (blockHash : Hash)
    (fits : session.Fits 0) :
    let result := session.doesBlockExist environment blockHash
    result.2.Exposes stored
      (exposure.after (.doesBlockExist blockHash, result.1.isOk)) := by
  unfold Session.doesBlockExist
  split
  · rename_i hit
    obtain ⟨base, cached⟩ := Option.isSome_iff_exists.mp hit
    apply exposes.lookedUp
    intro row member named
    rw [cached, tracks.get_of_row cached member named]
  · split
    · split
      · rename_i missing
        apply exposes.lookedUp
        intro row member named
        rw [Blocks.find?_eq_some_iff.mpr ⟨member, named⟩] at missing
        cases missing
      · rename_i row found
        exact exposes.rememberFound tracks found fits
    · exact exposes.abort

theorem Exposes.mapBlockBase (exposes : session.Exposes stored exposure)
    (tracks : session.Tracks stored exposure) (blockHash : Hash)
    (fits : session.Fits 0) (change : BlockBase → Nat) :
    let result := session.blockBaseByHash environment blockHash
    result.2.Exposes stored
      (if (result.1.map change).isOk then exposure.lookedUp blockHash
        else exposure) := by
  intro result
  rw [isOk_map]
  show (session.blockBaseByHash environment blockHash).2.Exposes stored
    (if (session.blockBaseByHash environment blockHash).1.isOk then
      exposure.lookedUp blockHash else exposure)
  unfold Session.blockBaseByHash
  split
  · rename_i base cached
    apply exposes.lookedUp
    intro row member named
    rw [cached, tracks.get_of_row cached member named]
  · split
    · split
      · exact exposes
      · rename_i row found
        exact exposes.rememberFound tracks found fits
    · exact exposes.abort

theorem Exposes.insertRow (exposes : session.Exposes stored exposure)
    (sequence : stored.nextID ≤ session.tables.blocks.nextID)
    {row : BlockRow} (new : row.blockHash ∉ session.tables.blocks.hashes) :
    ({ session with
        tables :=
          { session.tables with
            blocks := session.tables.blocks.insert row new } } :
      Session).Exposes stored
        { exposure with
          inserted :=
            exposure.inserted ++ [(row.blockHash, row.height)] } where
  inserted := by
    intro block counted
    rcases List.mem_append.mp counted with older | last
    · obtain ⟨other, member, found⟩ := exposes.inserted block older
      exact ⟨other, List.mem_append_left _ member, found⟩
    · rw [List.mem_singleton.mp last]
      exact ⟨{ row with id := session.tables.blocks.nextID },
        List.mem_append_right _ (List.mem_singleton_self _), rfl, rfl,
        sequence⟩
  exposed := exposes.exposed

theorem Exposes.insertBlock (exposes : session.Exposes stored exposure)
    (tracks : session.Tracks stored exposure) (row : BlockRow)
    (fits : session.Fits 1) :
    let result := session.insertBlock environment row
    result.2.Exposes stored
      (exposure.after (.insertBlock row, result.1.isOk)) := by
  unfold Session.insertBlock Database.insertBlock
  by_cases answered : session.answers environment 0 = true
  · rw [if_pos answered]
    by_cases new : row.blockHash ∉ session.tables.blocks.hashes
    · rw [dif_pos new]
      have member : { row with id := session.tables.blocks.nextID } ∈
          (session.tables.blocks.insert row new).rows :=
        List.mem_append_right _ (List.mem_singleton_self _)
      have room : (session.tables.blocks.insert row new).rows.length ≤
          session.blockBaseCache.capacity := by
        rw [Blocks.insert, List.length_append, List.length_singleton]
        exact fits
      have grown := tracks.insertRow new
      have kept := exposes.insertRow tracks.sequence new
      refine @Exposes.expose _ _ _ row.blockHash
        ⟨session.tables.blocks.nextID, row.height⟩
        (kept.remember grown member room) ?_ tracks.sequence
      rw [grown.cached.get_remember member room]
      exact if_pos rfl
    · rw [dif_neg new]
      exact exposes.abort
  · rw [if_neg answered]
    exact exposes.abort

theorem CachesRows.get_rememberAll {rows : List BlockRow} {row : BlockRow}
    (caches : session.CachesRows)
    (subset : rows ⊆ session.tables.blocks.rows) (fits : session.Fits 0)
    (cached : row ∈ rows ∨
      session.blockBaseCache.get row.blockHash = some row.base)
    (stands : row ∈ session.tables.blocks.rows) :
    (rows.foldl (fun session row =>
      session.remember environment row.blockHash row.base)
        session).blockBaseCache.get row.blockHash = some row.base := by
  induction rows generalizing session with
  | nil =>
      rcases cached with absent | cached
      · cases absent
      · exact cached
  | cons first rows ih =>
      have member := subset List.mem_cons_self
      refine ih (caches.remember member)
        (List.subset_of_cons_subset subset) fits.remember ?_ stands
      rw [caches.get_remember member fits]
      rcases cached with listed | cached
      · rcases List.mem_cons.mp listed with rfl | later
        · exact .inr (if_pos rfl)
        · exact .inl later
      · by_cases same : row.blockHash = first.blockHash
        · rw [if_pos same, Blocks.eq_of_blockHash_eq stands member same]
          exact .inr rfl
        · rw [if_neg same]
          exact .inr cached

theorem Exposes.loadCache (exposes : session.Exposes stored exposure)
    (tracks : session.Tracks stored exposure) (minHeight : Nat)
    (fits : session.Fits 0) :
    let result := session.loadCache environment minHeight
    result.2.Exposes stored
      (exposure.after (.loadCache minHeight, result.1.isOk)) := by
  unfold Session.loadCache
  split
  · have emptied := tracks.clearCache []
    constructor
    · intro block counted
      rw [tables_rememberAll]
      exact exposes.inserted block counted
    · intro hash exposed
      obtain ⟨block, counted, rfl⟩ := List.mem_map.mp exposed
      obtain ⟨inserted, high⟩ := List.mem_filter.mp counted
      obtain ⟨row, member, named, height, new⟩ :=
        exposes.inserted block inserted
      have listed : row ∈ session.tables.blocks.rows.filter fun row =>
          minHeight ≤ row.height :=
        List.mem_filter.mpr ⟨member, height ▸ high⟩
      rw [← named]
      exact ⟨row.base, emptied.cached.get_rememberAll
        (List.filter_subset_self _) fits (.inl listed) member, new⟩
  · exact exposes.abort

theorem Exposes.perform (exposes : session.Exposes stored exposure)
    (tracks : session.Tracks stored exposure) (operation : Operation)
    (fits : session.Fits 1) :
    let result := operation.perform environment session
    result.2.Exposes stored (exposure.after (operation, result.1)) := by
  have fitsNow : session.Fits 0 := Nat.le_of_succ_le fits
  cases operation with
  | insertBlock row => exact exposes.insertBlock tracks row fits
  | doesBlockExist blockHash =>
      exact exposes.doesBlockExist tracks blockHash fitsNow
  | blockIDByHash blockHash =>
      intro result
      rw [Exposure.after_blockIDByHash]
      exact exposes.mapBlockBase tracks blockHash fitsNow BlockBase.id
  | blockHeightByHash blockHash =>
      intro result
      rw [Exposure.after_blockHeightByHash]
      exact exposes.mapBlockBase tracks blockHash fitsNow BlockBase.height
  | loadCache minHeight =>
      exact exposes.loadCache tracks minHeight fitsNow
  | clear =>
      constructor
      · intro block counted
        cases counted
      · intro hash exposed
        cases exposed

theorem Exposes.performAll (exposes : session.Exposes stored exposure)
    (tracks : session.Tracks stored exposure)
    {operations : List (Operation × Environment)}
    (fits : session.Fits operations.length) :
    (session.performAll operations).2.Exposes stored
      ((session.performAll operations).1.foldl Exposure.after
        exposure) := by
  induction operations generalizing session exposure with
  | nil => exact exposes
  | cons operation operations ih =>
      have first : session.Fits 1 :=
        Nat.le_trans (Nat.add_le_add_left (Nat.succ_le_succ
          (Nat.zero_le _)) _) fits
      exact ih (exposes.perform tracks operation.1 first)
        (tracks.perform operation.1) (fits.perform operation.1)

end Session

namespace CachedDatabase

variable {db start : CachedDatabase} {call : Call} {calls : List Call}

theorem Coherent.beginTransaction (coherent : db.Coherent) :
    db.beginTransaction.Tracks db.database.blocks ⟨[], []⟩ where
  cached := by
    intro hash base found
    obtain ⟨row, stored, rfl⟩ := coherent hash base found
    obtain ⟨member, named⟩ := Blocks.find?_eq_some_iff.mp stored
    exact ⟨row, member, named, rfl⟩
  old row member _ := member
  sequence := Nat.le_refl _
  inserted := by
    intro _ row member new
    exact absurd (db.database.blocks.id_lt row member)
      (Nat.not_lt_of_le new)
  exposed := by
    intro hash base found new
    obtain ⟨row, stored, rfl⟩ := coherent hash base found
    have member := (Blocks.find?_eq_some_iff.mp stored).1
    exact absurd (db.database.blocks.id_lt row member)
      (Nat.not_lt_of_le new)

/-- A call that leaves no block behind keeps the cache coherent. -/
theorem Coherent.runInTransaction (coherent : db.Coherent)
    (leavesNone : db.LeavesNone call) :
    (db.runInTransaction call).Coherent := by
  have tracks := coherent.beginTransaction.performAll call.operations
  intro hash base found
  obtain ⟨row, member, named, rfl⟩ := tracks.cached hash base found
  refine ⟨row, Blocks.find?_eq_some_iff.mpr ⟨?_, named⟩, rfl⟩
  unfold CachedDatabase.runInTransaction
  dsimp only
  split
  · rename_i rolledBack
    have none := leavesNone rolledBack
    apply tracks.old row member
    by_contra new
    have exposed := tracks.exposed hash row.base found (Nat.le_of_not_lt new)
    rw [exposedBlocks] at none
    rw [none] at exposed
    cases exposed
  · exact member

/-- A block that a call leaves behind is cached and not stored. -/
theorem Coherent.leavesNone (coherent : db.Coherent)
    (fits : db.database.blocks.rows.length + call.operations.length ≤
      db.blockBaseCache.capacity)
    (after : (db.runInTransaction call).Coherent) : db.LeavesNone call := by
  intro rolledBack
  have exposes : db.beginTransaction.Exposes db.database.blocks ⟨[], []⟩ := by
    constructor
    · intro block counted
      cases counted
    · intro hash exposed
      cases exposed
  have left := exposes.performAll coherent.beginTransaction fits
  rw [List.eq_nil_iff_forall_not_mem]
  intro hash exposed
  obtain ⟨base, cached, new⟩ := left.exposed hash exposed
  obtain ⟨row, found, rfl⟩ := after hash base cached
  unfold CachedDatabase.runInTransaction at found
  dsimp only at found
  rw [if_pos rolledBack] at found
  have stored : row ∈ db.database.blocks.rows :=
    (Blocks.find?_eq_some_iff.mp found).1
  exact absurd (db.database.blocks.id_lt row stored)
    (Nat.not_lt_of_le new)

private theorem coherent_new (database : Database) :
    (new database).Coherent := by
  intro hash base found
  cases found

/-- What a lookup answers from a coherent cache is stored. -/
theorem Coherent.blockBaseByHash (coherent : db.Coherent)
    {environment : Environment} {hash : Hash} {base : BlockBase}
    (answered : (db.beginTransaction.blockBaseByHash environment hash).1 =
      .ok base) :
    ∃ row, db.database.blocks.find? hash = some row ∧ base = row.base := by
  unfold Session.blockBaseByHash at answered
  split at answered
  · rename_i cached found
    cases answered
    exact coherent hash base found
  · split at answered
    · split at answered
      · cases answered
      · rename_i row found
        cases answered
        exact ⟨row, found, rfl⟩
    · cases answered

theorem Coherent.doesBlockExist (coherent : db.Coherent)
    {environment : Environment} {hash : Hash}
    (answered : (db.beginTransaction.doesBlockExist environment hash).1 =
      .ok true) :
    ∃ row, db.database.blocks.find? hash = some row := by
  unfold Session.doesBlockExist at answered
  split at answered
  · rename_i hit
    obtain ⟨base, cached⟩ := Option.isSome_iff_exists.mp hit
    obtain ⟨row, found, -⟩ := coherent hash base cached
    exact ⟨row, found⟩
  · split at answered
    · split at answered
      · cases answered
      · rename_i row found
        exact ⟨row, found⟩
    · cases answered

/-- In each run in which no rolled-back call leaves a block that it inserted
within reach of the cache, the cache agrees with the stored blocks after each
call, and so do the answers of the next transaction.  While the blocks fit in
the cache, no other call keeps it so. -/
theorem coherent_of_leavesNone {database : Database}
    (run : Runs.Run (Runs.restrict LeavesNone
        fun db call next => next = db.runInTransaction call)
      (new database) calls db) :
    db.Coherent ∧
      (∀ environment hash,
        (db.beginTransaction.doesBlockExist environment hash).1 = .ok true →
          ∃ row, db.database.blocks.find? hash = some row) ∧
      (∀ environment hash base,
        (db.beginTransaction.blockBaseByHash environment hash).1 =
            .ok base →
          ∃ row, db.database.blocks.find? hash = some row ∧
            base = row.base) ∧
      ∀ call : Call,
        db.database.blocks.rows.length + call.operations.length ≤
            db.blockBaseCache.capacity →
          ((db.runInTransaction call).Coherent ↔ db.LeavesNone call) := by
  have coherent : db.Coherent := by
    apply run.preserves (coherent_new database)
    rintro state call next coherent ⟨leavesNone, rfl⟩
    exact coherent.runInTransaction leavesNone
  refine ⟨coherent, fun _ _ => coherent.doesBlockExist,
    fun _ _ _ => coherent.blockBaseByHash, ?_⟩
  intro call fits
  exact ⟨coherent.leavesNone fits, coherent.runInTransaction⟩

end CachedDatabase

section Samples

open CachedDatabase

/-- A server that answers every statement. -/
def steady : Environment where
  answers _ := true
  first keys := keys.headD 0

/-- A block is inserted, and a later step of the call fails. -/
def failedInsertion : Call :=
  ⟨[(.insertBlock prunedRow, steady)], true⟩

/-- The tables are emptied and filled again in a call that fails. -/
def failedReset : Call :=
  ⟨[(.insertBlock prunedRow, steady), (.doesBlockExist 0, steady),
    (.clear, steady)], true⟩

theorem failedInsertion_incoherent :
    ((new emptyDatabase).runInTransaction failedInsertion).database.blocks.rows
        = [] ∧
      (((new emptyDatabase).runInTransaction
          failedInsertion).beginTransaction.doesBlockExist steady 0).1 =
        .ok true ∧
      ¬((new emptyDatabase).runInTransaction failedInsertion).Coherent := by
  refine ⟨rfl, rfl, ?_⟩
  intro coherent
  obtain ⟨row, found, -⟩ := coherent 0 ⟨1, 0⟩ rfl
  cases found

theorem coherent_of_leavesNone_two :
    (((new emptyDatabase).runInTransaction failedReset).runInTransaction
      ⟨[(.insertBlock prunedRow, steady)], false⟩).Coherent := by
  have run : Runs.Run (Runs.restrict LeavesNone
      fun db call next => next = db.runInTransaction call)
      (new emptyDatabase)
      [failedReset, ⟨[(.insertBlock prunedRow, steady)], false⟩] _ :=
    .extend (.extend .start ⟨fun _ => rfl, rfl⟩)
      ⟨fun rolledBack => absurd rolledBack (by decide), rfl⟩
  exact (coherent_of_leavesNone run).1

end Samples

end GraphInspector
