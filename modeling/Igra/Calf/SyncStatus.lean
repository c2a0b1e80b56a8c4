import Igra.Calf.SyncTracker
import Igra.Runs

/-!
# What the sync status promises

The status is complete when nothing is tracked.  Every message keeps what was
asked for and not received among the tracked objects; so would the retries, did
they not drop what they ask for again.
-/

open Rust

namespace Calf.SyncTracker

variable {crypto : Crypto} {state next : State} {entries : List Entry}

section Coverage

/-- The entry finds the object missing or asks for it. -/
def Entry.Asks : Entry → SyncObject → Prop
  | .missing objects, object => object ∈ objects
  | .fetch objects _, object => object ∈ objects
  | .syncDigests digests, .batch id => id ∈ digests
  | _, _ => False

/-- How the log is read. -/
def reading : Requests.Reading Entry SyncObject where
  asks := Entry.Asks
  answers entry object := entry = .received object

def State.Tracks (state : State) : SyncObject → Prop
  | .certificate id => state.missingCertificates.contains id = true
  | .header id => state.missingHeaders.contains id = true
  | .batch id => state.missingBatchesDigests.contains id = true

/-- What is unanswered is tracked, and nothing was unanswered whenever the
status was published as complete. -/
structure Sound (state : State) : Prop where
  covered : ∀ object, Requests.Unanswered reading state.log object →
    state.Tracks object
  settled : Requests.SettledAt reading (· = .published .complete) state.log

/-- A part of the loop that publishes nothing. -/
theorem Sound.extend (sound : Sound state)
    (grown : next.log = state.log ++ entries)
    (silent : ∀ entry ∈ entries, entry ≠ .published .complete)
    (asked : ∀ entry ∈ entries, ∀ object, entry.Asks object →
      next.Tracks object)
    (kept : ∀ object, state.Tracks object →
      (∀ entry ∈ entries, entry ≠ .received object) → next.Tracks object) :
    Sound next := by
  constructor
  · intro object unanswered
    rw [grown] at unanswered
    rcases unanswered.of_append with ⟨entry, member, asks⟩ | ⟨old, unmet⟩
    · exact asked entry member object asks
    · exact kept object (sound.covered object old) unmet
  · rw [grown]
    exact sound.settled.append silent

theorem contains_fetchMissingDataChecked {α : Type} [DecidableEq α]
    (kind : α → SyncObject) (missingData : Finset α)
    (trackedData : TrackedSet α) (source : Source) (clock : α → Int64)
    {data : α} :
    (fetchMissingDataChecked kind missingData trackedData source
        clock).1.contains data = true ↔
      trackedData.contains data = true ∨ data ∈ missingData := by
  simp only [fetchMissingDataChecked, TrackedSet.contains_extend,
    Finset.mem_filter]
  cases trackedData.contains data <;> simp

theorem mem_fetchMissingDataChecked {α : Type} [DecidableEq α]
    {kind : α → SyncObject} {missingData : Finset α}
    {trackedData : TrackedSet α} {source : Source} {clock : α → Int64}
    {entry : Entry}
    (member : entry ∈ (fetchMissingDataChecked kind missingData trackedData
      source clock).2) :
    ∃ objects ⊆ missingData.image kind,
      entry = .missing objects ∨ entry = .fetch objects source := by
  simp only [fetchMissingDataChecked, List.mem_cons] at member
  rcases member with rfl | member
  · exact ⟨_, Finset.Subset.refl _, .inl rfl⟩
  · split at member
    · cases member
    · rw [List.mem_singleton] at member
      exact ⟨_, Finset.image_subset_image (Finset.filter_subset _ _),
        .inr member⟩

/-- Asking for missing data that is tracked from then on. -/
theorem Sound.fetch {α : Type} [DecidableEq α] {kind : α → SyncObject}
    {missingData : Finset α} {trackedData : TrackedSet α} {source : Source}
    {clock : α → Int64} (sound : Sound state)
    (grown : next.log = state.log ++ (fetchMissingDataChecked kind
      missingData trackedData source clock).2)
    (tracked : ∀ data ∈ missingData, next.Tracks (kind data))
    (kept : ∀ object, state.Tracks object → next.Tracks object) :
    Sound next := by
  refine sound.extend grown ?_ ?_ fun object old _ => kept object old
  · intro entry member
    obtain ⟨objects, _, rfl | rfl⟩ := mem_fetchMissingDataChecked member
    · simp
    · simp
  · intro entry member object asks
    obtain ⟨objects, subset, same⟩ := mem_fetchMissingDataChecked member
    have asked : object ∈ objects := by
      rcases same with rfl | rfl
      · exact asks
      · exact asks
    obtain ⟨data, isMissing, rfl⟩ := Finset.mem_image.mp (subset asked)
    exact tracked data isMissing

theorem Sound.fetchCertificates (sound : Sound state)
    (missingData : Finset CertificateId) (source : Source)
    (clock : CertificateId → Int64) :
    Sound { state with
      missingCertificates := (fetchMissingDataChecked .certificate missingData
        state.missingCertificates source clock).1
      log := state.log ++ (fetchMissingDataChecked .certificate missingData
        state.missingCertificates source clock).2 } := by
  apply @Sound.fetch _ _ _ _ SyncObject.certificate missingData
    state.missingCertificates source clock sound rfl
  · intro id member
    exact (contains_fetchMissingDataChecked .certificate missingData _ source
      clock).mpr (.inr member)
  · intro object tracked
    cases object with
    | certificate id =>
        exact (contains_fetchMissingDataChecked .certificate missingData _
          source clock).mpr (.inl tracked)
    | header id => exact tracked
    | batch id => exact tracked

theorem Sound.fetchHeaders (sound : Sound state)
    (missingData : Finset HeaderId) (source : Source)
    (clock : HeaderId → Int64) :
    Sound { state with
      missingHeaders := (fetchMissingDataChecked .header missingData
        state.missingHeaders source clock).1
      log := state.log ++ (fetchMissingDataChecked .header missingData
        state.missingHeaders source clock).2 } := by
  apply @Sound.fetch _ _ _ _ SyncObject.header missingData
    state.missingHeaders source clock sound rfl
  · intro id member
    exact (contains_fetchMissingDataChecked .header missingData _ source
      clock).mpr (.inr member)
  · intro object tracked
    cases object with
    | certificate id => exact tracked
    | header id =>
        exact (contains_fetchMissingDataChecked .header missingData _ source
          clock).mpr (.inl tracked)
    | batch id => exact tracked

theorem Sound.syncDigests (sound : Sound state) (digests : Finset BatchId)
    (clock : BatchId → Int64) :
    Sound { state with
      missingBatchesDigests :=
        state.missingBatchesDigests.extend digests clock
      log := state.log ++
        [.missing (digests.image .batch), .syncDigests digests] } := by
  refine sound.extend rfl (by simp) ?_ ?_
  · intro entry member object asks
    have asked : object ∈ digests.image SyncObject.batch := by
      rcases List.mem_cons.mp member with rfl | last
      · exact asks
      · rw [List.mem_singleton.mp last] at asks
        cases object with
        | certificate id => cases asks
        | header id => cases asks
        | batch id => exact Finset.mem_image_of_mem _ asks
    obtain ⟨id, isMissing, rfl⟩ := Finset.mem_image.mp asked
    exact TrackedSet.contains_extend.mpr (.inr isMissing)
  · intro object tracked _
    cases object with
    | certificate id => exact tracked
    | header id => exact tracked
    | batch id => exact TrackedSet.contains_extend.mpr (.inl tracked)

private theorem mem_processIncompleteHeaders {headers : List IncompleteHeader}
    {entry : Entry} (member : entry ∈ (processIncompleteHeaders headers).2) :
    ∃ header sender, entry = .dispatched header sender := by
  obtain ⟨header, _, rfl⟩ := List.mem_map.mp member
  exact ⟨_, _, rfl⟩

/-- An object comes in and is tracked no longer. -/
theorem Sound.answer {object : SyncObject} {headers : List IncompleteHeader}
    (sound : Sound state)
    (grown : next.log = state.log ++ .received object ::
      (processIncompleteHeaders headers).2)
    (kept : ∀ other, state.Tracks other → other ≠ object →
      next.Tracks other) : Sound next := by
  refine sound.extend grown ?_ ?_ ?_
  · intro entry member
    rcases List.mem_cons.mp member with rfl | dispatched
    · simp
    · obtain ⟨header, sender, rfl⟩ := mem_processIncompleteHeaders dispatched
      simp
  · intro entry member other asks
    rcases List.mem_cons.mp member with rfl | dispatched
    · cases asks
    · obtain ⟨header, sender, rfl⟩ := mem_processIncompleteHeaders dispatched
      cases asks
  · intro other old unmet
    apply kept other old
    rintro rfl
    exact unmet _ List.mem_cons_self rfl

end Coverage

section Messages

theorem Sound.publishSyncStatus (sound : Sound state) :
    Sound (publishSyncStatus state) := by
  constructor
  · intro object unanswered
    rcases Requests.unanswered_concat.mp unanswered with asks | ⟨old, _⟩
    · cases asks
    · exact sound.covered object old
  · apply sound.settled.concat
    intro complete object unanswered
    have tracked := sound.covered object unanswered
    rw [Entry.published.injEq] at complete
    split at complete
    · rename_i empty
      simp only [Bool.and_eq_true] at empty
      cases object with
      | certificate id =>
          rw [State.Tracks,
            TrackedSet.not_contains_of_isEmpty empty.1.1] at tracked
          cases tracked
      | header id =>
          rw [State.Tracks,
            TrackedSet.not_contains_of_isEmpty empty.1.2] at tracked
          cases tracked
      | batch id =>
          rw [State.Tracks,
            TrackedSet.not_contains_of_isEmpty empty.2] at tracked
          cases tracked
    · cases complete

/-- No tracked object is found timed out. -/
structure NoneTimedOut (state : State) (clock : RetryClock) : Prop where
  batches : state.missingBatchesDigests.Fresh clock.batches
  certificates : state.missingCertificates.Fresh clock.certificates
  headers : state.missingHeaders.Fresh clock.headers

private theorem retryTimedOutFetch_of_noneTimedOut {clock : RetryClock}
    (none : NoneTimedOut state clock) :
    retryTimedOutFetch state clock = state := by
  simp [retryTimedOutFetch, TrackedSet.drainTimedOut_of_fresh none.batches,
    TrackedSet.drainTimedOut_of_fresh none.certificates,
    TrackedSet.drainTimedOut_of_fresh none.headers]

theorem Sound.receiveOrphan (sound : Sound state)
    (orphan : ReceivedObject OrphanCertificate)
    (clock : CertificateId → Int64) :
    Sound (receiveOrphan state orphan clock) := by
  exact sound.fetchCertificates orphan.object.missingParents
    (.peer orphan.sender) clock

theorem contains_retain_ne {α : Type} [DecidableEq α]
    {tracked : TrackedSet α} {object other : α}
    (old : tracked.contains other = true) (different : other ≠ object) :
    (tracked.retain (· != object)).contains other = true :=
  TrackedSet.contains_retain.mpr ⟨old, by simpa using different⟩

theorem contains_dropped {α : Type} [DecidableEq α] {tracked : TrackedSet α}
    {object other : α} (old : tracked.contains other = true)
    (different : other ≠ object) :
    (if tracked.contains object then tracked.retain (· != object)
      else tracked).contains other = true := by
  split
  · exact contains_retain_ne old different
  · exact old

theorem Sound.receiveDigest (sound : Sound state)
    (digest : ReceivedObject BatchId) :
    Sound (receiveDigest state digest) := by
  refine sound.answer rfl ?_
  intro other old different
  cases other with
  | certificate id => exact old
  | header id => exact old
  | batch id => exact contains_dropped old fun same => different (by rw [same])

theorem Sound.receiveCertificate (sound : Sound state)
    (certificate : ReceivedObject Certificate) (database : Database)
    (clock : HeaderId → Int64) :
    Sound (receiveCertificate crypto state certificate database clock) := by
  let headers := state.incompleteHeaders.map fun header =>
    { header with
      missingCertificates :=
        header.missingCertificates.erase (certificate.object.id crypto) }
  let seen : State :=
    { state with
      missingCertificates := state.missingCertificates.retain
        (· != certificate.object.id crypto)
      incompleteHeaders := (processIncompleteHeaders headers).1
      log := state.log ++ .received
        (.certificate (certificate.object.id crypto)) ::
          (processIncompleteHeaders headers).2 }
  have seenSound : Sound seen := by
    refine sound.answer rfl ?_
    intro other old different
    cases other with
    | certificate id =>
        exact contains_retain_ne old fun same => different (by rw [same])
    | header id => exact old
    | batch id => exact old
  unfold SyncTracker.receiveCertificate
  cases certificate.object.header with
  | none => exact seenSound
  | some headerId =>
      dsimp only
      split
      · exact seenSound
      · exact seenSound.fetchHeaders _ (.peer certificate.sender) clock

theorem Sound.receiveHeader (sound : Sound state)
    (header : ReceivedObject BlockHeader) (database : Database)
    (certificateClock : CertificateId → Int64)
    (batchClock : BatchId → Int64) :
    Sound (receiveHeader crypto state header database certificateClock
      batchClock) := by
  let id := header.object.digest crypto
  let seen : State :=
    { state with
      headers := state.headers.insert (Hex.encode id.bytes) header.object
      missingHeaders :=
        if state.missingHeaders.contains id then
          state.missingHeaders.retain (· != id)
        else state.missingHeaders
      log := state.log ++ [.received (.header id)] }
  have seenSound : Sound seen := by
    refine @Sound.answer state seen (.header id) [] sound rfl ?_
    intro other old different
    cases other with
    | certificate id => exact old
    | header id =>
        exact contains_dropped old fun same => different (by rw [same])
    | batch id => exact old
  unfold SyncTracker.receiveHeader
  cases headerMissingData header.object header.sender database with
  | none => exact seenSound
  | some incomplete =>
      let middle : State :=
        { seen with
          missingCertificates :=
            (if incomplete.missingCertificates = ∅ then
              (seen.missingCertificates, [])
            else fetchMissingDataChecked .certificate
              incomplete.missingCertificates seen.missingCertificates
              (.peer header.sender) certificateClock).1
          log := seen.log ++
            (if incomplete.missingCertificates = ∅ then
              (seen.missingCertificates, [])
            else fetchMissingDataChecked .certificate
              incomplete.missingCertificates seen.missingCertificates
              (.peer header.sender) certificateClock).2 }
      have middleSound : Sound middle := by
        by_cases none : incomplete.missingCertificates = ∅
        · simp only [middle, if_pos none, List.append_nil]
          exact seenSound
        · simp only [middle, if_neg none]
          exact seenSound.fetchCertificates _ _ _
      by_cases none : incomplete.missingBatches = ∅
      · simp only [if_pos none, List.append_nil]
        exact ⟨middleSound.covered, middleSound.settled⟩
      · simp only [if_neg none]
        have last := middleSound.syncDigests incomplete.missingBatches batchClock
        exact ⟨last.covered, last.settled⟩

theorem Sound.receive (sound : Sound state) {event : Event}
    (kept : event ≠ .reset) : Sound (receive crypto state event) := by
  cases event with
  | orphan received clock => exact sound.receiveOrphan received clock
  | certificate received database clock =>
      exact sound.receiveCertificate received database clock
  | digest received => exact sound.receiveDigest received
  | header received database certificateClock batchClock =>
      exact sound.receiveHeader received database certificateClock batchClock
  | reset => exact absurd rfl kept

end Messages

section Runs

/-- There is no reset, and no tracked object is found timed out. -/
def KeepsTracking (state : State) : Label → Prop
  | .publish => True
  | .retry clock => NoneTimedOut state clock
  | .select event => event ≠ .reset

theorem Sound.step {label : Label} (sound : Sound state)
    (kept : KeepsTracking state label)
    (step : Step crypto state label next) : Sound next := by
  cases step with
  | publish _ =>
      have published := sound.publishSyncStatus
      exact ⟨published.covered, published.settled⟩
  | retry _ =>
      rw [retryTimedOutFetch_of_noneTimedOut kept]
      exact ⟨sound.covered, sound.settled⟩
  | select _ =>
      have received := @Sound.receive crypto _ sound _ kept
      exact ⟨received.covered, received.settled⟩

/-- In every run without a reset in which no tracked object is found timed
out, whatever was found missing or asked for before the status was published
as complete had been received since. -/
theorem complete_settled_of_run {labels : List Label}
    (run : Runs.Run (Runs.restrict KeepsTracking (Step crypto)) start labels
      state) :
    Requests.SettledAt reading (· = .published .complete) state.log := by
  have sound : Sound state := by
    refine run.preserves ?_ fun _ _ _ sound taken =>
      sound.step taken.1 taken.2
    exact ⟨fun object unanswered =>
      absurd unanswered Requests.not_unanswered_nil, Requests.settledAt_nil⟩
  exact sound.settled

/-- A pass that reads the same time everywhere. -/
def retryAt (now : Int64) : RetryClock :=
  ⟨⟨fun _ => now, fun _ => now⟩, ⟨fun _ => now, fun _ => now⟩,
    ⟨fun _ => now, fun _ => now⟩⟩

/-- An orphan whose parent is the genesis, at time 0. -/
def orphanOfGenesis : Event :=
  .orphan
    ⟨⟨FixedBytes.zero 32, {DagProcessor.genesis.id sampleCrypto}⟩, []⟩
    fun _ => 0

/-- An unrelated batch. -/
def otherBatch : Event := .digest ⟨FixedBytes.zero 32, []⟩

def genesisArrives : Event :=
  .certificate ⟨DagProcessor.genesis, []⟩ (fun _ _ => false) fun _ => 0

/-- The state after an event, the status and the retries before it. -/
def pass (state : State) (now : Int64) (event : Event) : State :=
  { receive sampleCrypto
      { retryTimedOutFetch
          { publishSyncStatus state with phase := .retry } (retryAt now) with
        phase := .select } event with
    phase := .publish }

theorem pass_run {allowed : State → Label → Prop} {start state : State}
    {labels : List Label} {now : Int64} {event : Event}
    (run : Runs.Run (Runs.restrict allowed (Step sampleCrypto)) start labels
      state)
    (ready : state.phase = .publish)
    (publishes : allowed state .publish)
    (retries : allowed { publishSyncStatus state with phase := .retry }
      (.retry (retryAt now)))
    (selects : allowed
      { retryTimedOutFetch
          { publishSyncStatus state with phase := .retry } (retryAt now) with
        phase := .select } (.select event)) :
    Runs.Run (Runs.restrict allowed (Step sampleCrypto)) start
      (labels ++ [.publish] ++ [.retry (retryAt now)] ++ [.select event])
      (pass state now event) :=
  .extend (.extend (.extend run ⟨publishes, .publish ready⟩)
    ⟨retries, .retry rfl⟩) ⟨selects, .select rfl⟩

/-- After two seconds the parent is asked for again and forgotten, so the next
status is complete although it has not come. -/
theorem retriedParent_unanswered :
    ∃ labels state,
      Runs.Run (Step sampleCrypto) start labels state ∧
      (∀ label ∈ labels, label ≠ .select .reset) ∧
      ¬Requests.SettledAt reading (· = .published .complete) state.log := by
  let asked := pass start 0 orphanOfGenesis
  let retried := pass asked 2000 otherBatch
  have run : Runs.Run
      (Runs.restrict (fun _ label => label ≠ .select .reset)
        (Step sampleCrypto)) start _ retried :=
    pass_run (pass_run .start rfl (by simp) (by simp)
      (by simp [orphanOfGenesis])) rfl (by simp) (by simp)
      (by simp [otherBatch])
  let parent : SyncObject :=
    .certificate (DagProcessor.genesis.id sampleCrypto)
  have log : (publishSyncStatus retried).log =
      [.published .complete, .missing {parent}, .fetch {parent} (.peer []),
        .published .incomplete, .fetch {parent} .peers,
        .received (.batch (FixedBytes.zero 32)), .published .complete] := by
    decide +kernel
  refine ⟨_, { publishSyncStatus retried with phase := .retry },
    .extend run.unrestrict (.publish rfl), ?_, ?_⟩
  · intro label member
    simp only [List.mem_append, List.mem_singleton, List.not_mem_nil,
      false_or] at member
    rcases member with (((((rfl | rfl) | rfl) | rfl) | rfl) | rfl) | rfl <;>
      simp [orphanOfGenesis, otherBatch]
  · intro settled
    refine settled [.published .complete, .missing {parent},
      .fetch {parent} (.peer []), .published .incomplete,
      .fetch {parent} .peers, .received (.batch (FixedBytes.zero 32))] _ []
      log rfl parent ?_
    exact ⟨[.published .complete], .missing {parent}, _, rfl,
      Finset.mem_singleton_self _, by simp [reading, parent]⟩

theorem complete_settled_of_run_genesisArrives :
    ∃ state : State, Requests.SettledAt reading (· = .published .complete)
        state.log ∧
      state.log.getLast? = some (.published .complete) := by
  let asked := pass start 0 orphanOfGenesis
  let arrived := pass asked 500 genesisArrives
  have run : Runs.Run (Runs.restrict KeepsTracking (Step sampleCrypto))
      start _ arrived :=
    pass_run
      (pass_run .start rfl trivial
        ⟨by decide +kernel, by decide +kernel, by decide +kernel⟩
        (by simp [KeepsTracking, orphanOfGenesis]))
      rfl trivial
      ⟨by decide +kernel, by decide +kernel, by decide +kernel⟩
      (by simp [KeepsTracking, genesisArrives])
  have last : Runs.restrict KeepsTracking (Step sampleCrypto) arrived .publish
      { publishSyncStatus arrived with phase := .retry } :=
    ⟨trivial, .publish rfl⟩
  refine ⟨_, complete_settled_of_run (.extend run last), ?_⟩
  decide +kernel

end Runs

end Calf.SyncTracker
