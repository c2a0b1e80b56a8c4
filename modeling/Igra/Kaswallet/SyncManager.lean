import Igra.Kaswallet.AddressFreshness

/-!
# Scanning for used addresses

One task scans: `collect_recent_addresses` from index 0 and
`collect_far_addresses` from a cursor.  Between any two of its accesses to
shared data, requests may allocate addresses and ask whether the wallet is
synced.  The task alone writes the cursor, so loading and storing it is one
step.
-/

open Kaspa Rust

namespace Kaswallet

namespace SyncManager

def numIndexesToQueryForFarAddresses : UInt32 := 100

def numIndexesToQueryForRecentAddresses : UInt32 := 1000

/-- A balance query, with the manager that chose its addresses. -/
structure BalanceQuery where
  manager : AddressManager
  start : UInt32
  stop : UInt32
  addressSet : AddressSet

/-- The query asks for every address with the index. -/
structure BalanceQuery.Covers (upstream : Upstream) (query : BalanceQuery)
    (index : UInt32) : Prop where
  start : query.start ≤ index
  stop : index < query.stop
  asked : ∀ cosignerIndex : UInt16,
    cosignerIndex.toNat < query.manager.keysFile.publicKeys.length % 2 ^ 16 →
    ∀ keychain : Keychain, ∃ address left,
      query.manager.kaspaAddressFromWalletAddress upstream
        ⟨index, cosignerIndex, keychain⟩ false = .ok (address, left) ∧
      upstream.addressToString address ∈ query.addressSet

/-- Where the scanning task is. -/
inductive ScanTask where
  | idle
  | loopTest (index maxUsedIndex : UInt32)
  | awaitingRecent (query : BalanceQuery)
  | readingExternal (index : UInt32)
  | readingInternal (index external : UInt32)
  | awaitingFar (query : BalanceQuery)

/-- How far a call of `is_synced` is. -/
inductive SyncCheck where
  | none
  | loadedNext (next : UInt32)
  | loadedExternal (next external : UInt32)
  | loadedInternal (next external internal : UInt32)
  | reported (external internal : UInt32) (synced : Bool)

structure ScanState where
  addressManager : AddressManager
  nextSyncStartIndex : UInt32
  firstSyncDone : Bool
  task : ScanTask
  check : SyncCheck
  answered : List BalanceQuery

inductive ScanEvent where
  | callRecent
  | queryRecent
  | answerRecent
  | readExternal
  | readInternal
  | returnRecent
  | callFar
  | answerFar
  | fail
  | finishFirstSync
  | address (call : AddressCall) (save : WalletResult Unit)
  | loadNext
  | loadExternal
  | loadInternal
  | report

section Steps

variable (upstream : Upstream)

/-- The test of the loop of `collect_recent_addresses`. -/
def insideWindow (index maxUsedIndex : UInt32) : WalletResult Bool := do
  let bound ←
    checkedAdd32 maxUsedIndex numIndexesToQueryForRecentAddresses
  pure (decide (index < bound))

/-- What a scan asks the node for. -/
def ScanState.query (state : ScanState) (start count : UInt32) :
    WalletResult BalanceQuery := do
  let stop ← checkedAdd32 start count
  let addressSet ← state.addressManager.addressesToQuery upstream start stop
  pure ⟨state.addressManager, start, stop, addressSet⟩

/-- The node's answer is recorded. -/
def ScanState.answer (state : ScanState) (query : BalanceQuery)
    (response : List RpcBalancesByAddressesEntry)
    (save : WalletResult Unit) : WalletResult Unit × ScanState :=
  let (result, left) :=
    state.addressManager.updateAddressesAndLastUsedIndexes upstream
      query.addressSet response save
  (result,
    { state with
      addressManager := left
      answered := query :: state.answered })

inductive ScanStep : ScanState → ScanEvent → ScanState → Prop where
  | callRecent {state : ScanState} :
      state.task = .idle →
      ScanStep state .callRecent { state with task := .loopTest 0 0 }
  | queryRecent {state : ScanState} {index maxUsedIndex : UInt32}
      {query : BalanceQuery} :
      state.task = .loopTest index maxUsedIndex →
      insideWindow index maxUsedIndex = .ok true →
      state.query upstream index numIndexesToQueryForRecentAddresses =
        .ok query →
      ScanStep state .queryRecent
        { state with task := .awaitingRecent query }
  | failRecent {state : ScanState} {index maxUsedIndex : UInt32}
      {error : WalletError} :
      state.task = .loopTest index maxUsedIndex →
      insideWindow index maxUsedIndex = .ok true →
      state.query upstream index numIndexesToQueryForRecentAddresses =
        .err error →
      ScanStep state .fail { state with task := .idle }
  | answerRecent {state next : ScanState} {query : BalanceQuery}
      {response : List RpcBalancesByAddressesEntry}
      {save : WalletResult Unit} :
      state.task = .awaitingRecent query →
      state.answer upstream query response save = (.ok (), next) →
      ScanStep state .answerRecent
        { next with
          -- the loop index advances to the end of the query
          task := .readingExternal query.stop }
  | readExternal {state : ScanState} {index : UInt32} :
      state.task = .readingExternal index →
      ScanStep state .readExternal
        { state with
          task := .readingInternal index
            state.addressManager.keysFile.lastUsedExternalIndex }
  | readInternal {state : ScanState} {index external : UInt32} :
      state.task = .readingInternal index external →
      ScanStep state .readInternal
        { state with
          task := .loopTest index
            (max external
              state.addressManager.keysFile.lastUsedInternalIndex) }
  | returnRecent {state : ScanState} {index maxUsedIndex : UInt32} :
      state.task = .loopTest index maxUsedIndex →
      insideWindow index maxUsedIndex = .ok false →
      ScanStep state .returnRecent
        { state with
          nextSyncStartIndex :=
            if state.nextSyncStartIndex < index then index
            else state.nextSyncStartIndex
          task := .idle }
  | callFar {state : ScanState} {query : BalanceQuery} :
      state.task = .idle →
      state.query upstream state.nextSyncStartIndex
        numIndexesToQueryForFarAddresses = .ok query →
      ScanStep state .callFar { state with task := .awaitingFar query }
  | failFar {state : ScanState} {error : WalletError} :
      state.task = .idle →
      state.query upstream state.nextSyncStartIndex
        numIndexesToQueryForFarAddresses = .err error →
      ScanStep state .fail state
  | answerFar {state next : ScanState} {query : BalanceQuery}
      {response : List RpcBalancesByAddressesEntry}
      {save : WalletResult Unit} :
      state.task = .awaitingFar query →
      state.answer upstream query response save = (.ok (), next) →
      ScanStep state .answerFar
        { next with
          nextSyncStartIndex :=
            next.nextSyncStartIndex + numIndexesToQueryForFarAddresses
          task := .idle }
  | failTransport {state : ScanState} {query : BalanceQuery} :
      state.task = .awaitingRecent query ∨ state.task = .awaitingFar query →
      ScanStep state .fail { state with task := .idle }
  | failSave {state next : ScanState} {query : BalanceQuery}
      {response : List RpcBalancesByAddressesEntry} {error : WalletError} :
      state.task = .awaitingRecent query ∨ state.task = .awaitingFar query →
      state.answer upstream query response (.err error) =
        (.err error, next) →
      ScanStep state .fail { next with task := .idle }
  | finishFirstSync {state : ScanState} :
      state.task = .idle →
      ScanStep state .finishFirstSync { state with firstSyncDone := true }
  | address {state : ScanState} {call : AddressCall}
      {save : WalletResult Unit} :
      ScanStep state (.address call save)
        { state with
          addressManager :=
            (call.perform upstream state.addressManager save).2 }
  | loadNext {state : ScanState} :
      ScanStep state .loadNext
        { state with check := .loadedNext state.nextSyncStartIndex }
  | loadExternal {state : ScanState} {next : UInt32} :
      state.check = .loadedNext next →
      ScanStep state .loadExternal
        { state with
          check := .loadedExternal next
            state.addressManager.keysFile.lastUsedExternalIndex }
  | loadInternal {state : ScanState} {next external : UInt32} :
      state.check = .loadedExternal next external →
      ScanStep state .loadInternal
        { state with
          check := .loadedInternal next external
            state.addressManager.keysFile.lastUsedInternalIndex }
  | report {state : ScanState} {next external internal : UInt32} :
      state.check = .loadedInternal next external internal →
      ScanStep state .report
        { state with
          check := .reported external internal
            (decide (max external internal < next) &&
              state.firstSyncDone) }

end Steps

/-- `last_used_index`, when nothing happens between its two reads. -/
def ScanState.lastUsedIndex (state : ScanState) : UInt32 :=
  max state.addressManager.keysFile.lastUsedExternalIndex
    state.addressManager.keysFile.lastUsedInternalIndex

/-- The daemon has just started. -/
structure ScanState.Started (state : ScanState) : Prop where
  nextSyncStartIndex : state.nextSyncStartIndex = 0
  firstSyncDone : state.firstSyncDone = false
  task : state.task = .idle
  check : state.check = .none
  answered : state.answered = []

/-- The index was in a query that the node answered. -/
def ScanState.Queried (upstream : Upstream) (state : ScanState)
    (index : UInt32) : Prop :=
  ∃ query ∈ state.answered, query.Covers upstream index

section Coverage

variable {upstream : Upstream} {state next : ScanState}

theorem mem_walletAddressesBetween {manager : AddressManager}
    {start stop index : UInt32} {cosignerIndex : UInt16}
    (after : start ≤ index) (before : index < stop)
    (cosigner : cosignerIndex.toNat <
      manager.keysFile.publicKeys.length % 2 ^ 16)
    (keychain : Keychain) :
    ⟨index, cosignerIndex, keychain⟩ ∈
      manager.walletAddressesBetween start stop := by
  rw [UInt32.le_iff_toNat_le] at after
  rw [UInt32.lt_iff_toNat_lt] at before
  unfold AddressManager.walletAddressesBetween
  refine List.mem_flatMap.mpr ⟨index.toNat, ?_, ?_⟩
  · rw [List.mem_range'_1]
    omega
  · refine List.mem_flatMap.mpr
      ⟨cosignerIndex.toNat, List.mem_range.mpr cosigner, ?_⟩
    refine List.mem_map.mpr ⟨keychain, ?_, by simp⟩
    cases keychain <;> simp

theorem asked_of_foldlM_askFor {manager : AddressManager}
    {walletAddresses : List WalletAddress} {found addressSet : AddressSet}
    (asked : walletAddresses.foldlM (manager.askFor upstream) found =
      .ok addressSet) :
    ∀ walletAddress ∈ walletAddresses, ∃ address left,
      manager.kaspaAddressFromWalletAddress upstream walletAddress false =
        .ok (address, left) ∧
      upstream.addressToString address ∈ addressSet := by
  induction walletAddresses generalizing found with
  | nil => simp
  | cons first rest ih =>
      rw [List.foldlM_cons] at asked
      obtain ⟨extended, derived, asked⟩ := Outcome.bind_eq_ok.mp asked
      obtain ⟨⟨address, left⟩, derives, entered⟩ :=
        Outcome.bind_eq_ok.mp derived
      cases entered
      intro walletAddress member
      rcases List.mem_cons.mp member with rfl | later
      · refine ⟨address, left, derives, ?_⟩
        -- a later insertion keeps the keys of the set
        have stays (addresses : AddressSet) (item : WalletAddress)
            (next : AddressSet)
            (kept : upstream.addressToString address ∈ addresses)
            (inserted : manager.askFor upstream addresses item = .ok next) :
            upstream.addressToString address ∈ next := by
          obtain ⟨_, _, inserted⟩ := Outcome.bind_eq_ok.mp inserted
          cases inserted
          exact (AList.mem_insert _).mpr (.inr kept)
        exact Outcome.foldlM_preserves stays
          ((AList.mem_insert _).mpr (.inl rfl)) asked
      · exact ih asked walletAddress later

theorem covers_of_query {start count : UInt32} {query : BalanceQuery}
    (asked : state.query upstream start count = .ok query) :
    query.start = start ∧ query.stop.toNat = start.toNat + count.toNat ∧
    ∀ index, start ≤ index → index < query.stop →
      query.Covers upstream index := by
  unfold ScanState.query at asked
  obtain ⟨stop, fits, asked⟩ := Outcome.bind_eq_ok.mp asked
  obtain ⟨addressSet, found, asked⟩ := Outcome.bind_eq_ok.mp asked
  cases asked
  refine ⟨rfl, (checkedAdd32_eq_ok.mp fits).symm, ?_⟩
  intro index after before
  refine ⟨after, before, ?_⟩
  intro cosignerIndex cosigner keychain
  exact asked_of_foldlM_askFor found _
    (mem_walletAddressesBetween after before cosigner keychain)

private theorem index_lt_of_insideWindow {index maxUsedIndex : UInt32}
    (outside : insideWindow index maxUsedIndex = .ok false) :
    maxUsedIndex.toNat + numIndexesToQueryForRecentAddresses.toNat ≤
      index.toNat := by
  unfold insideWindow at outside
  obtain ⟨bound, fits, tested⟩ := Outcome.bind_eq_ok.mp outside
  have passed : ¬ index < bound := by simpa using tested
  rw [UInt32.lt_iff_toNat_lt] at passed
  rw [checkedAdd32_eq_ok] at fits
  omega

/-- Every index below `bound` was in an answered query. -/
def ScanState.QueriedBelow (upstream : Upstream) (state : ScanState)
    (bound : UInt32) : Prop :=
  ∀ index < bound, state.Queried upstream index

/-- The query asks for all the indexes from `start` on. -/
def BalanceQuery.Complete (upstream : Upstream) (query : BalanceQuery)
    (start : UInt32) : Prop :=
  query.start = start ∧
    ∀ index, start ≤ index → index < query.stop →
      query.Covers upstream index

/-- What was queried, by where the task is. -/
def ScanTask.Covered (upstream : Upstream) (state : ScanState) :
    ScanTask → Prop
  | .idle => True
  | .loopTest index _ => state.QueriedBelow upstream index
  | .awaitingRecent query =>
      state.QueriedBelow upstream query.start ∧
        query.Complete upstream query.start
  | .readingExternal index => state.QueriedBelow upstream index
  | .readingInternal index _ => state.QueriedBelow upstream index
  | .awaitingFar query =>
      query.Complete upstream state.nextSyncStartIndex ∧
        query.stop = state.nextSyncStartIndex +
          numIndexesToQueryForFarAddresses

/-- What was queried, by how far a call of `is_synced` is. -/
def SyncCheck.Covered (upstream : Upstream) (state : ScanState) :
    SyncCheck → Prop
  | .none => True
  | .loadedNext next => state.QueriedBelow upstream next
  | .loadedExternal next _ => state.QueriedBelow upstream next
  | .loadedInternal next _ _ => state.QueriedBelow upstream next
  | .reported external internal synced => synced = true →
      ∀ index ≤ max external internal, state.Queried upstream index

structure ScanState.Covered (upstream : Upstream) (state : ScanState) :
    Prop where
  next : state.QueriedBelow upstream state.nextSyncStartIndex
  task : state.task.Covered upstream state
  check : state.check.Covered upstream state

theorem ScanState.Started.covered (started : state.Started) :
    state.Covered upstream := by
  constructor
  · intro index below
    rw [started.nextSyncStartIndex] at below
    exact absurd below (by simp)
  · rw [started.task]
    trivial
  · rw [started.check]
    trivial

theorem SyncCheck.Covered.mono {check : SyncCheck}
    (covered : check.Covered upstream state)
    (grows : ∀ index, state.Queried upstream index →
      next.Queried upstream index) :
    check.Covered upstream next := by
  cases check with
  | none => trivial
  | loadedNext _ => exact fun index below => grows index (covered index below)
  | loadedExternal _ _ =>
      exact fun index below => grows index (covered index below)
  | loadedInternal _ _ _ =>
      exact fun index below => grows index (covered index below)
  | reported external internal synced =>
      exact fun positive index within =>
        grows index (covered positive index within)

theorem queried_of_answer {query : BalanceQuery}
    {response : List RpcBalancesByAddressesEntry}
    {save result : WalletResult Unit}
    (answered : state.answer upstream query response save = (result, next)) :
    (∀ index, state.Queried upstream index → next.Queried upstream index) ∧
    (∀ index, query.Covers upstream index → next.Queried upstream index) ∧
    next.nextSyncStartIndex = state.nextSyncStartIndex ∧
    next.check = state.check := by
  cases answered
  refine ⟨?_, ?_, rfl, rfl⟩
  · rintro index ⟨earlier, member, covers⟩
    exact ⟨earlier, List.mem_cons_of_mem _ member, covers⟩
  · intro index covers
    exact ⟨query, List.mem_cons_self, covers⟩

/-- What was queried below the start of an answered query extends to its
end. -/
theorem queriedBelow_of_answer {query : BalanceQuery} {start : UInt32}
    (grows : ∀ index, state.Queried upstream index →
      next.Queried upstream index)
    (answered : ∀ index, query.Covers upstream index →
      next.Queried upstream index)
    (below : state.QueriedBelow upstream start)
    (complete : query.Complete upstream start) :
    next.QueriedBelow upstream query.stop := by
  intro index before
  by_cases earlier : index < start
  · exact grows index (below index earlier)
  · exact answered index
      (complete.2 index (UInt32.not_lt.mp earlier) before)

theorem kept_of_answer {query : BalanceQuery}
    {response : List RpcBalancesByAddressesEntry}
    {save result : WalletResult Unit}
    (answered : state.answer upstream query response save = (result, next))
    (below : state.QueriedBelow upstream state.nextSyncStartIndex)
    (check : state.check.Covered upstream state) :
    next.QueriedBelow upstream next.nextSyncStartIndex ∧
      next.check.Covered upstream next := by
  obtain ⟨grows, -, sameNext, sameCheck⟩ := queried_of_answer answered
  constructor
  · intro index before
    exact grows index (below index (sameNext ▸ before))
  · have kept := check.mono grows
    rw [← sameCheck] at kept
    exact kept

theorem ScanState.Covered.step {event : ScanEvent}
    (covered : state.Covered upstream)
    (taken : ScanStep upstream state event next) :
    next.Covered upstream := by
  obtain ⟨below, task, check⟩ := covered
  cases taken with
  | callRecent idle =>
      exact ⟨below, fun index before => absurd before (by simp), check⟩
  | @queryRecent index maxUsedIndex query testing inside asked =>
      rw [testing] at task
      obtain ⟨starts, _, covers⟩ := covers_of_query asked
      refine ⟨below, ⟨?_, ⟨rfl, ?_⟩⟩, check⟩
      · rw [starts]
        exact task
      · rw [starts]
        exact covers
  | failRecent testing inside failed => exact ⟨below, trivial, check⟩
  | @answerRecent next query response save awaiting answered =>
      rw [awaiting] at task
      obtain ⟨grows, covered, -, -⟩ := queried_of_answer answered
      obtain ⟨belowNext, checkNext⟩ := kept_of_answer answered below check
      exact ⟨belowNext,
        queriedBelow_of_answer grows covered task.1 task.2, checkNext⟩
  | readExternal reading =>
      rw [reading] at task
      exact ⟨below, task, check⟩
  | readInternal reading =>
      rw [reading] at task
      exact ⟨below, task, check⟩
  | @returnRecent index maxUsedIndex testing outside =>
      rw [testing] at task
      refine ⟨?_, trivial, check⟩
      dsimp only
      split
      · exact task
      · exact below
  | @callFar query idle asked =>
      obtain ⟨starts, stops, covers⟩ := covers_of_query asked
      have stopped : query.stop = state.nextSyncStartIndex +
          numIndexesToQueryForFarAddresses := by
        rw [← UInt32.toNat_inj, UInt32.toNat_add, stops]
        have bound := query.stop.toNat_lt
        omega
      exact ⟨below, ⟨⟨starts, covers⟩, stopped⟩, check⟩
  | failFar idle failed => exact ⟨below, task, check⟩
  | @answerFar next query response save awaiting answered =>
      rw [awaiting] at task
      obtain ⟨grows, covered, sameNext, -⟩ := queried_of_answer answered
      obtain ⟨complete, stops⟩ := task
      refine ⟨?_, trivial, (kept_of_answer answered below check).2⟩
      dsimp only
      rw [sameNext, ← stops]
      exact queriedBelow_of_answer grows covered below complete
  | failTransport awaiting => exact ⟨below, trivial, check⟩
  | @failSave next query response error awaiting answered =>
      obtain ⟨belowNext, checkNext⟩ := kept_of_answer answered below check
      exact ⟨belowNext, trivial, checkNext⟩
  | finishFirstSync idle => exact ⟨below, task, check⟩
  | address => exact ⟨below, task, check⟩
  | loadNext => exact ⟨below, task, below⟩
  | loadExternal loaded =>
      rw [loaded] at check
      exact ⟨below, task, check⟩
  | loadInternal loaded =>
      rw [loaded] at check
      exact ⟨below, task, check⟩
  | @report cursor external internal loaded =>
      rw [loaded] at check
      refine ⟨below, task, ?_⟩
      intro synced index within
      have ahead : max external internal < cursor := by
        simpa using (Bool.and_eq_true_iff.mp synced).1
      exact check index (UInt32.lt_of_le_of_lt within ahead)

/-- In each state that a run reaches, every index below the cursor was in an
answered query, and where `is_synced` has returned true so was every index up
to the last used indexes that it read.  When `collect_recent_addresses`
returns, so was every index within the window after the last used index that
it read last. -/
theorem scans_cover_last_used_indexes {start : ScanState}
    {events : List ScanEvent} (started : start.Started)
    (run : Runs.Run (ScanStep upstream) start events state) :
    (∀ index < state.nextSyncStartIndex, state.Queried upstream index) ∧
    (∀ external internal, state.check = .reported external internal true →
      ∀ index ≤ max external internal, state.Queried upstream index) ∧
    (∀ index maxUsedIndex next,
      state.task = .loopTest index maxUsedIndex →
      ScanStep upstream state .returnRecent next →
      ∀ within : UInt32,
        within.toNat < maxUsedIndex.toNat +
          numIndexesToQueryForRecentAddresses.toNat →
        next.Queried upstream within) := by
  have covered : state.Covered upstream :=
    run.preserves started.covered fun _ _ _ covered taken =>
      covered.step taken
  refine ⟨covered.next, ?_, ?_⟩
  · intro external internal reported index within
    have check := covered.check
    rw [reported] at check
    exact check rfl index within
  · intro index maxUsedIndex next testing returned within bound
    have task := covered.task
    rw [testing] at task
    cases returned with
    | returnRecent tested outside =>
        rw [testing] at tested
        cases tested
        have passed := index_lt_of_insideWindow outside
        apply task within
        rw [UInt32.lt_iff_toNat_lt]
        omega

end Coverage

section SampleScans

/-- A wallet with one key, on a network where every path derives. -/
def Derives (manager : AddressManager) : Prop :=
  manager.isMultisig = false ∧ manager.keysFile.publicKeys ≠ []

theorem exists_address_of_derives {manager : AddressManager}
    (derives : Derives manager) (walletAddress : WalletAddress) :
    ∃ address left, manager.kaspaAddressFromWalletAddress devnet
      walletAddress false = .ok (address, left) := by
  obtain ⟨single, keyed⟩ := derives
  obtain ⟨key, rest, keys⟩ := List.exists_cons_of_ne_nil keyed
  unfold AddressManager.kaspaAddressFromWalletAddress
  cases manager.addressCache.lookup walletAddress with
  | some address => exact ⟨address, manager, rfl⟩
  | none =>
      simp [AddressManager.calculateAddressPath,
        AddressManager.kaspaAddressFromPath, AddressManager.p2pkAddress,
        devnet, mapError, single, keys, Outcome.ofOption, bind, Except.bind,
        pure, Except.pure]

theorem exists_addressSet_of_derives {manager : AddressManager}
    (derives : Derives manager) (walletAddresses : List WalletAddress)
    (found : AddressSet) :
    ∃ addressSet, walletAddresses.foldlM (manager.askFor devnet) found =
      .ok addressSet := by
  induction walletAddresses generalizing found with
  | nil => exact ⟨found, rfl⟩
  | cons first rest ih =>
      obtain ⟨address, left, derived⟩ :=
        exists_address_of_derives derives first
      obtain ⟨addressSet, asked⟩ := ih
        (found.insert (devnet.addressToString address) first)
      refine ⟨addressSet, ?_⟩
      rw [List.foldlM_cons]
      exact Outcome.bind_eq_ok.mpr ⟨_, Outcome.bind_eq_ok.mpr
        ⟨(address, left), derived, rfl⟩, asked⟩

theorem exists_query_of_derives (state : ScanState)
    (start count stop : UInt32) (derives : Derives state.addressManager)
    (fits : start.toNat + count.toNat = stop.toNat) :
    ∃ query, state.query devnet start count = .ok query ∧
      query.stop = stop := by
  obtain ⟨addressSet, asked⟩ :=
    exists_addressSet_of_derives derives
      (state.addressManager.walletAddressesBetween start stop) ∅
  exact ⟨⟨state.addressManager, start, stop, addressSet⟩,
    Outcome.bind_eq_ok.mpr ⟨stop, checkedAdd32_eq_ok.mpr fits,
      Outcome.bind_eq_ok.mpr ⟨addressSet, asked, rfl⟩⟩, rfl⟩

theorem run_of_first_window {state : ScanState}
    (derives : Derives state.addressManager) (idle : state.task = .idle)
    (unused : state.addressManager.keysFile.lastUsedExternalIndex = 0 ∧
      state.addressManager.keysFile.lastUsedInternalIndex = 0) :
    ∃ query : BalanceQuery, query.stop = 1000 ∧
      Runs.Run (ScanStep devnet) state
        [.callRecent, .queryRecent, .answerRecent, .readExternal,
          .readInternal]
        { state with
          task := .loopTest 1000 0
          answered := query :: state.answered } := by
  obtain ⟨external, internal⟩ := unused
  obtain ⟨query, asked, stops⟩ := exists_query_of_derives
    { state with task := .loopTest 0 0 } 0
    numIndexesToQueryForRecentAddresses 1000 derives (by decide)
  refine ⟨query, stops, ?_⟩
  have called : ScanStep devnet state .callRecent
      { state with task := .loopTest 0 0 } :=
    .callRecent idle
  have sent : ScanStep devnet { state with task := .loopTest 0 0 }
      .queryRecent { state with task := .awaitingRecent query } :=
    .queryRecent rfl rfl asked
  have silent : ({ state with task := .awaitingRecent query } :
        ScanState).answer devnet query [] (.ok ()) =
      (.ok (),
        { state with
          task := .awaitingRecent query
          answered := query :: state.answered }) := rfl
  have answered : ScanStep devnet
      { state with task := .awaitingRecent query } .answerRecent
      { state with
        task := .readingExternal 1000
        answered := query :: state.answered } := by
    rw [← stops]
    exact .answerRecent rfl silent
  have readExternal : ScanStep devnet
      { state with
        task := .readingExternal 1000
        answered := query :: state.answered } .readExternal
      { state with
        task := .readingInternal 1000 0
        answered := query :: state.answered } := by
    rw [← external]
    exact .readExternal rfl
  have readInternal : ScanStep devnet
      { state with
        task := .readingInternal 1000 0
        answered := query :: state.answered } .readInternal
      { state with
        task := .loopTest 1000
          (max 0 state.addressManager.keysFile.lastUsedInternalIndex)
        answered := query :: state.answered } :=
    .readInternal rfl
  rw [internal] at readInternal
  exact .extend (.extend (.extend (.extend (.extend .start called) sent)
    answered) readExternal) readInternal

theorem run_of_allocations (count : Nat) (state : ScanState) :
    ∃ manager : AddressManager,
      Runs.Run (ScanStep devnet) state
        (List.replicate count (.address .newAddress (.ok ())))
        { state with addressManager := manager } ∧
      manager.keysFile.lastUsedExternalIndex =
        state.addressManager.keysFile.lastUsedExternalIndex +
          UInt32.ofNat count := by
  induction count with
  | zero => exact ⟨state.addressManager, .start, by simp⟩
  | succ count ih =>
      obtain ⟨manager, run, taken⟩ := ih
      refine ⟨(AddressCall.newAddress.perform devnet manager (.ok ())).2,
        ?_, ?_⟩
      · rw [List.replicate_succ']
        exact run.extend .address
      · dsimp only [AddressCall.perform]
        rw [AddressManager.newAddress_keysFile]
        dsimp only [AddressManager.nextExternalIndex]
        rw [taken, UInt32.add_assoc, UInt32.ofNat_add]
        rfl

def scanStart : ScanState where
  addressManager := .new (TransactionGenerator.sampleKeys 1) .devnet
  nextSyncStartIndex := 0
  firstSyncDone := false
  task := .idle
  check := .none
  answered := []

theorem derives_scanStart : Derives scanStart.addressManager := by
  constructor <;> decide +kernel

theorem scans_cover_last_used_indexes_first :
    ∃ events state next,
      Runs.Run (ScanStep devnet) scanStart events state ∧
      ScanStep devnet state .returnRecent next ∧
      next.nextSyncStartIndex = 1000 ∧ next.Queried devnet 0 ∧
      next.Queried devnet 999 := by
  have started : scanStart.Started := ⟨rfl, rfl, rfl, rfl, rfl⟩
  obtain ⟨query, stops, run⟩ :=
    run_of_first_window derives_scanStart rfl ⟨rfl, rfl⟩
  have covered := (scans_cover_last_used_indexes started run).2.2 1000 0 _
    rfl (.returnRecent rfl rfl)
  exact ⟨_, _, _, run, .returnRecent rfl rfl, rfl,
    covered 0 (by decide), covered 999 (by decide)⟩

/-- The daemon after the first sync, which found no used address. -/
def syncedAfter (query : BalanceQuery) : ScanState :=
  { scanStart with
    nextSyncStartIndex := 1000
    firstSyncDone := true
    answered := [query] }

theorem run_of_first_sync :
    ∃ events query, query.stop = 1000 ∧
      Runs.Run (ScanStep devnet) scanStart events (syncedAfter query) := by
  obtain ⟨query, stops, window⟩ :=
    run_of_first_window derives_scanStart rfl ⟨rfl, rfl⟩
  exact ⟨_, query, stops, (window.extend (.returnRecent rfl rfl)).extend
    (.finishFirstSync rfl)⟩

/-- The daemon after the first sync and a far scan without answers. -/
def scannedFar (first far : BalanceQuery) : ScanState :=
  { syncedAfter first with
    nextSyncStartIndex := 1100
    answered := [far, first] }

theorem run_of_far_scan :
    ∃ events first far, first.stop = 1000 ∧ far.stop = 1100 ∧
      Runs.Run (ScanStep devnet) scanStart events (scannedFar first far) := by
  obtain ⟨events, first, firstStops, syncedRun⟩ := run_of_first_sync
  obtain ⟨far, asked, farStops⟩ :=
    exists_query_of_derives (syncedAfter first) 1000
      numIndexesToQueryForFarAddresses 1100 derives_scanStart (by decide)
  have silent : ({ syncedAfter first with task := .awaitingFar far } :
        ScanState).answer devnet far [] (.ok ()) =
      (.ok (),
        { syncedAfter first with
          task := .awaitingFar far
          answered := [far, first] }) := rfl
  exact ⟨_, first, far, firstStops, farStops,
    (syncedRun.extend (.callFar rfl asked)).extend (.answerFar rfl silent)⟩

/-- Addresses are allocated between the last read of the last used index and
the return.  After the first sync and a far scan, 101 of them move the window
to index 1101, and index 1100 was never queried. -/
theorem exists_unqueried_at_return :
    ∃ events state next,
      Runs.Run (ScanStep devnet) scanStart events state ∧
      ScanStep devnet state .returnRecent next ∧
      ∃ index : UInt32,
        index.toNat < next.lastUsedIndex.toNat +
          numIndexesToQueryForRecentAddresses.toNat ∧
        ¬ next.Queried devnet index := by
  obtain ⟨events, first, far, firstStops, farStops, farRun⟩ := run_of_far_scan
  obtain ⟨second, secondStops, secondWindow⟩ :=
    run_of_first_window
      (show Derives (scannedFar first far).addressManager from
        derives_scanStart)
      rfl ⟨rfl, rfl⟩
  obtain ⟨manager, allocations, taken⟩ := run_of_allocations 101
    { scannedFar first far with
      task := .loopTest 1000 0
      answered := [second, far, first] }
  refine ⟨_, _, _, (farRun.trans secondWindow).trans allocations,
    .returnRecent rfl rfl, 1100, ?_, ?_⟩
  · have last : manager.keysFile.lastUsedExternalIndex = 101 := taken
    unfold ScanState.lastUsedIndex
    rw [UInt32.toNat_max]
    simp only [last]
    exact Nat.lt_of_lt_of_le (by decide) (Nat.add_le_add_right
      (le_max_left _ _) _)
  · rintro ⟨query, member, covers⟩
    have stopped : query.stop = 1000 ∨ query.stop = 1100 := by
      rcases List.mem_cons.mp member with rfl | member
      · exact .inl secondStops
      · rcases List.mem_pair.mp member with rfl | rfl
        · exact .inr farStops
        · exact .inl firstStops
    have before := covers.stop
    rcases stopped with stops | stops <;>
      exact absurd (stops ▸ before) (by decide)

/-- Addresses are allocated between the reads of `is_synced` and its answer:
after the first sync, 1000 of them take the last used index to the cursor. -/
theorem exists_unqueried_at_report :
    ∃ events state external internal,
      Runs.Run (ScanStep devnet) scanStart events state ∧
      state.check = .reported external internal true ∧
      ∃ index : UInt32,
        index ≤ state.lastUsedIndex ∧ ¬ state.Queried devnet index := by
  obtain ⟨events, first, stops, syncedRun⟩ := run_of_first_sync
  obtain ⟨manager, allocations, taken⟩ := run_of_allocations 1000
    { syncedAfter first with check := .loadedInternal 1000 0 0 }
  refine ⟨_, _, 0, 0, (Runs.Run.trans (((syncedRun.extend .loadNext).extend
    (.loadExternal rfl)).extend (.loadInternal rfl)) allocations).extend
    (.report rfl), rfl, 1000, ?_, ?_⟩
  · have last : manager.keysFile.lastUsedExternalIndex = 1000 := taken
    unfold ScanState.lastUsedIndex
    rw [UInt32.le_iff_toNat_le, UInt32.toNat_max]
    simp only [last]
    exact le_max_left 1000 _
  · rintro ⟨query, member, covers⟩
    obtain rfl := List.mem_singleton.mp member
    exact absurd (stops ▸ covers.stop) (by decide)

/-- Neither `is_synced` nor `collect_recent_addresses` answers for addresses
allocated after it has read the last used indexes. -/
theorem late_allocations_not_queried :
    scanStart.Started ∧
    (∃ events state next,
      Runs.Run (ScanStep devnet) scanStart events state ∧
      ScanStep devnet state .returnRecent next ∧
      ∃ index : UInt32,
        index.toNat < next.lastUsedIndex.toNat +
          numIndexesToQueryForRecentAddresses.toNat ∧
        ¬ next.Queried devnet index) ∧
    (∃ events state external internal,
      Runs.Run (ScanStep devnet) scanStart events state ∧
      state.check = .reported external internal true ∧
      ∃ index : UInt32,
        index ≤ state.lastUsedIndex ∧ ¬ state.Queried devnet index) :=
  ⟨⟨rfl, rfl, rfl, rfl, rfl⟩, exists_unqueried_at_return,
    exists_unqueried_at_report⟩

end SampleScans

end SyncManager

end Kaswallet
