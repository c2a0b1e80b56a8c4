import Igra.Calf.HeaderElector
import Igra.Requests

/-!
# The sync tracker

One task keeps the objects that were found missing and asked for.  Each pass
through its loop publishes whether any is left, asks again for those that have
timed out, and then takes one message.  An error of the database or of a
channel ends the task.
-/

open Rust

namespace Calf

abbrev HeaderId := Digest

inductive SyncStatus where
  | complete
  | incomplete
deriving DecidableEq

structure TimestampedObject (α : Type) where
  object : α
  /-- milliseconds since the epoch -/
  timestamp : Int64
deriving DecidableEq

/-- `timed_out`, with the time that it reads. -/
def TimestampedObject.timedOut {α : Type} (timeout : UInt64)
    (item : TimestampedObject α) (now : Int64) : Bool :=
  decide ((now - item.timestamp).toUInt64 > timeout)

structure TrackedSet (α : Type) where
  objects : Finset (TimestampedObject α)
  timeout : UInt64

/-- The times that the two passes of `drain_timed_out` read. -/
structure DrainClock (α : Type) where
  collect : TimestampedObject α → Int64
  retain : TimestampedObject α → Int64

namespace TrackedSet

section Operations

variable {α : Type} [DecidableEq α]

def new (timeout : UInt64) : TrackedSet α := ⟨∅, timeout⟩

def contains (tracked : TrackedSet α) (object : α) : Bool :=
  decide (∃ item ∈ tracked.objects, item.object = object)

/-- An object that is tracked keeps its timestamp. -/
def insert (tracked : TrackedSet α) (object : α) (now : Int64) :
    TrackedSet α × Bool :=
  if tracked.contains object then (tracked, false)
  else ({ tracked with objects := Insert.insert ⟨object, now⟩ tracked.objects },
    true)

/-- The objects may be there already, under another timestamp. -/
def extend (tracked : TrackedSet α) (objects : Finset α)
    (clock : α → Int64) : TrackedSet α :=
  { tracked with
    objects := tracked.objects ∪
      objects.image fun object => ⟨object, clock object⟩ }

def retain (tracked : TrackedSet α) (keep : α → Bool) : TrackedSet α :=
  { tracked with objects := tracked.objects.filter (keep ·.object) }

def getTimedOut (tracked : TrackedSet α)
    (clock : TimestampedObject α → Int64) : Finset α :=
  (tracked.objects.filter fun item =>
    item.timedOut tracked.timeout (clock item)).image
      TimestampedObject.object

def drainTimedOut (tracked : TrackedSet α) (clock : DrainClock α) :
    Finset α × TrackedSet α :=
  (tracked.getTimedOut clock.collect,
    { tracked with
      objects := tracked.objects.filter fun item =>
        !item.timedOut tracked.timeout (clock.retain item) })

def isEmpty (tracked : TrackedSet α) : Bool :=
  decide (tracked.objects = ∅)

/-- No object is found timed out in either pass. -/
def Fresh (tracked : TrackedSet α) (clock : DrainClock α) : Prop :=
  ∀ item ∈ tracked.objects,
    item.timedOut tracked.timeout (clock.collect item) = false ∧
      item.timedOut tracked.timeout (clock.retain item) = false

instance Fresh.decidable (tracked : TrackedSet α) (clock : DrainClock α) :
    Decidable (tracked.Fresh clock) :=
  inferInstanceAs (Decidable (∀ item ∈ tracked.objects, _))

variable {tracked : TrackedSet α} {object : α}

theorem contains_iff :
    tracked.contains object = true ↔
      ∃ item ∈ tracked.objects, item.object = object := by
  simp [contains]

@[simp] theorem contains_extend {objects : Finset α} {clock : α → Int64} :
    (tracked.extend objects clock).contains object = true ↔
      tracked.contains object = true ∨ object ∈ objects := by
  simp only [contains_iff, extend, Finset.mem_union, Finset.mem_image]
  constructor
  · rintro ⟨item, old | ⟨other, member, rfl⟩, rfl⟩
    · exact .inl ⟨item, old, rfl⟩
    · exact .inr member
  · rintro (⟨item, old, same⟩ | member)
    · exact ⟨item, .inl old, same⟩
    · exact ⟨_, .inr ⟨object, member, rfl⟩, rfl⟩

@[simp] theorem contains_retain {keep : α → Bool} :
    (tracked.retain keep).contains object = true ↔
      tracked.contains object = true ∧ keep object = true := by
  simp only [contains_iff, retain, Finset.mem_filter]
  constructor
  · rintro ⟨item, ⟨member, kept⟩, rfl⟩
    exact ⟨⟨item, member, rfl⟩, kept⟩
  · rintro ⟨⟨item, member, rfl⟩, kept⟩
    exact ⟨item, ⟨member, kept⟩, rfl⟩

theorem not_contains_of_isEmpty (empty : tracked.isEmpty = true) :
    tracked.contains object = false := by
  have none : tracked.objects = ∅ := by simpa [isEmpty] using empty
  simp [contains, none]

theorem drainTimedOut_of_fresh {clock : DrainClock α}
    (fresh : tracked.Fresh clock) :
    tracked.drainTimedOut clock = (∅, tracked) := by
  have collected : tracked.getTimedOut clock.collect = ∅ := by
    rw [getTimedOut, Finset.image_eq_empty, Finset.filter_eq_empty_iff]
    intro item member
    simp [(fresh item member).1]
  have kept : (tracked.objects.filter fun item =>
      !item.timedOut tracked.timeout (clock.retain item)) =
        tracked.objects := by
    rw [Finset.filter_eq_self]
    intro item member
    simp [(fresh item member).2]
  rw [drainTimedOut, collected, kept]

end Operations

end TrackedSet

/-- `header`, the id of the header that a certificate is for. -/
def Certificate.header : Certificate → Option HeaderId
  | .derived certificate => some certificate.headerHash
  | _ => none

/-- Nothing that the header names is missing any more. -/
def IncompleteHeader.completed (header : IncompleteHeader) : Bool :=
  decide (header.missingCertificates = ∅ ∧ header.missingBatches = ∅)

namespace SyncTracker

/-- `TRACKED_OBJECT_TIMEOUT`. -/
def trackedObjectTimeout : UInt64 := 1000

/-- An object that can be missing. -/
inductive SyncObject where
  | certificate (id : CertificateId)
  | header (id : HeaderId)
  | batch (id : BatchId)
deriving DecidableEq

/-- Whom the fetcher asks. -/
inductive Source where
  | peer (id : PeerId)
  | peers
deriving DecidableEq

/-- What the task takes in, finds out and sends. -/
inductive Entry where
  | received (object : SyncObject)
  | missing (objects : Finset SyncObject)
  /-- on `fetcher_commands_tx` -/
  | fetch (objects : Finset SyncObject) (source : Source)
  /-- on `network_tx`, to the workers -/
  | syncDigests (digests : Finset BatchId)
  /-- to the router of the node, as if it came from the sender -/
  | dispatched (header : BlockHeader) (sender : PeerId)
  /-- on `sync_status_tx` -/
  | published (status : SyncStatus)
deriving DecidableEq

/-- Where the task is in its loop. -/
inductive Phase where
  | publish
  | retry
  | select
deriving DecidableEq

structure State where
  missingHeaders : TrackedSet HeaderId
  incompleteHeaders : List IncompleteHeader
  missingCertificates : TrackedSet CertificateId
  missingBatchesDigests : TrackedSet BatchId
  previousSyncStatus : SyncStatus
  phase : Phase
  /-- `Column::Headers` of the database, as far as the tracker writes it -/
  headers : HashMap String BlockHeader
  log : List Entry

def start : State where
  missingHeaders := .new trackedObjectTimeout
  incompleteHeaders := []
  missingCertificates := .new trackedObjectTimeout
  missingBatchesDigests := .new trackedObjectTimeout
  previousSyncStatus := .complete
  phase := .publish
  headers := ∅
  log := []

def publishSyncStatus (state : State) : State :=
  let status : SyncStatus :=
    if state.missingCertificates.isEmpty && state.missingHeaders.isEmpty &&
        state.missingBatchesDigests.isEmpty then .complete
    else .incomplete
  { state with
    previousSyncStatus := status
    log := state.log ++ [.published status] }

structure RetryClock where
  batches : DrainClock BatchId
  certificates : DrainClock CertificateId
  headers : DrainClock HeaderId

/-- Timed-out objects are asked for again, and no longer tracked. -/
def retryTimedOutFetch (state : State) (clock : RetryClock) : State :=
  let (timedOutBatches, missingBatchesDigests) :=
    state.missingBatchesDigests.drainTimedOut clock.batches
  let (timedOutCertificates, missingCertificates) :=
    state.missingCertificates.drainTimedOut clock.certificates
  let (timedOutHeaders, missingHeaders) :=
    state.missingHeaders.drainTimedOut clock.headers
  { state with
    missingBatchesDigests
    missingCertificates
    missingHeaders
    log := state.log ++
      (if timedOutCertificates = ∅ then []
        else [.fetch (timedOutCertificates.image .certificate) .peers]) ++
      (if timedOutHeaders = ∅ then []
        else [.fetch (timedOutHeaders.image .header) .peers]) ++
      (if timedOutBatches = ∅ then []
        else [.syncDigests timedOutBatches]) }

/-- `fetch_missing_data_checked`, with the kind of the objects and the times at
which they are inserted.  Its loop inserts objects that are not tracked, so it
may go through them in any order. -/
def fetchMissingDataChecked {α : Type} [DecidableEq α]
    (kind : α → SyncObject) (missingData : Finset α)
    (trackedData : TrackedSet α) (source : Source) (clock : α → Int64) :
    TrackedSet α × List Entry :=
  let untracked := missingData.filter fun data => !trackedData.contains data
  (trackedData.extend untracked clock,
    .missing (missingData.image kind) ::
      if untracked = ∅ then [] else [.fetch (untracked.image kind) source])

def checkHeaderStorage (database : Database) (id : HeaderId) : Bool :=
  database .headers (Hex.encode id.bytes)

def headerMissingData (header : BlockHeader) (sender : PeerId)
    (database : Database) : Option IncompleteHeader :=
  let missingBatches := missingFrom database .digests header.digests
  let missingCertificates :=
    missingFrom database .certificates header.certificatesIds
  if missingCertificates = ∅ ∧ missingBatches = ∅ then none
  else some ⟨missingCertificates, missingBatches, header, sender⟩

/-- Headers that miss nothing any more are sent to the elector again. -/
def processIncompleteHeaders (headers : List IncompleteHeader) :
    List IncompleteHeader × List Entry :=
  (headers.filter fun header => !header.completed,
    (headers.filter IncompleteHeader.completed).map fun header =>
      .dispatched header.header header.sender)

/-- The messages, with what the task reads of the database and of the time as
it handles them. -/
inductive Event where
  | orphan (received : ReceivedObject OrphanCertificate)
      (clock : CertificateId → Int64)
  | certificate (received : ReceivedObject Certificate)
      (database : Database) (clock : HeaderId → Int64)
  | digest (received : ReceivedObject BatchId)
  | header (received : ReceivedObject BlockHeader) (database : Database)
      (certificateClock : CertificateId → Int64)
      (batchClock : BatchId → Int64)
  | reset

def receiveOrphan (state : State)
    (orphan : ReceivedObject OrphanCertificate)
    (clock : CertificateId → Int64) : State :=
  let (missingCertificates, entries) := fetchMissingDataChecked .certificate
    orphan.object.missingParents state.missingCertificates
    (.peer orphan.sender) clock
  { state with missingCertificates, log := state.log ++ entries }

def receiveCertificate (crypto : Crypto) (state : State)
    (certificate : ReceivedObject Certificate) (database : Database)
    (clock : HeaderId → Int64) : State :=
  let id := certificate.object.id crypto
  let (incompleteHeaders, dispatched) := processIncompleteHeaders
    (state.incompleteHeaders.map fun header =>
      { header with
        missingCertificates := header.missingCertificates.erase id })
  let seen : State :=
    { state with
      missingCertificates := state.missingCertificates.retain (· != id)
      incompleteHeaders
      log := state.log ++ .received (.certificate id) :: dispatched }
  match certificate.object.header with
  | none => seen
  | some headerId =>
      if checkHeaderStorage database headerId then seen
      else
        let (missingHeaders, entries) := fetchMissingDataChecked .header
          {headerId} seen.missingHeaders (.peer certificate.sender) clock
        { seen with missingHeaders, log := seen.log ++ entries }

def receiveDigest (state : State) (digest : ReceivedObject BatchId) : State :=
  let (incompleteHeaders, dispatched) := processIncompleteHeaders
    (state.incompleteHeaders.map fun header =>
      { header with
        missingBatches := header.missingBatches.erase digest.object })
  { state with
    incompleteHeaders
    missingBatchesDigests :=
      if state.missingBatchesDigests.contains digest.object then
        state.missingBatchesDigests.retain (· != digest.object)
      else state.missingBatchesDigests
    log := state.log ++ .received (.batch digest.object) :: dispatched }

def receiveHeader (crypto : Crypto) (state : State)
    (header : ReceivedObject BlockHeader) (database : Database)
    (certificateClock : CertificateId → Int64)
    (batchClock : BatchId → Int64) : State :=
  let id := header.object.digest crypto
  let seen : State :=
    { state with
      headers := state.headers.insert (Hex.encode id.bytes) header.object
      missingHeaders :=
        if state.missingHeaders.contains id then
          state.missingHeaders.retain (· != id)
        else state.missingHeaders
      log := state.log ++ [.received (.header id)] }
  match headerMissingData header.object header.sender database with
  | none => seen
  | some incomplete =>
      let (missingCertificates, certificateEntries) :=
        if incomplete.missingCertificates = ∅ then
          (seen.missingCertificates, [])
        else fetchMissingDataChecked .certificate
          incomplete.missingCertificates seen.missingCertificates
          (.peer header.sender) certificateClock
      let (missingBatchesDigests, batchEntries) :=
        if incomplete.missingBatches = ∅ then
          (seen.missingBatchesDigests, [])
        else
          (seen.missingBatchesDigests.extend incomplete.missingBatches
              batchClock,
            [.missing (incomplete.missingBatches.image .batch),
              .syncDigests incomplete.missingBatches])
      { seen with
        missingCertificates
        missingBatchesDigests
        incompleteHeaders := seen.incompleteHeaders ++ [incomplete]
        log := seen.log ++ certificateEntries ++ batchEntries }

def reset (state : State) : State :=
  { start with
    phase := state.phase
    headers := state.headers
    log := state.log }

def receive (crypto : Crypto) (state : State) : Event → State
  | .orphan received clock => receiveOrphan state received clock
  | .certificate received database clock =>
      receiveCertificate crypto state received database clock
  | .digest received => receiveDigest state received
  | .header received database certificateClock batchClock =>
      receiveHeader crypto state received database certificateClock batchClock
  | .reset => reset state

inductive Label where
  | publish
  | retry (clock : RetryClock)
  | select (event : Event)

/-- The loop, one part at a time. -/
inductive Step (crypto : Crypto) : State → Label → State → Prop where
  | publish {state : State} :
      state.phase = .publish →
      Step crypto state .publish
        { publishSyncStatus state with phase := .retry }
  | retry {state : State} {clock : RetryClock} :
      state.phase = .retry →
      Step crypto state (.retry clock)
        { retryTimedOutFetch state clock with phase := .select }
  | select {state : State} {event : Event} :
      state.phase = .select →
      Step crypto state (.select event)
        { receive crypto state event with phase := .publish }

end SyncTracker

end Calf
