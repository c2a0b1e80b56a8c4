import Igra.Calf.Network
import Igra.Runs

/-!
# Batches of a worker

Two tasks of a worker share its database.  The quorum waiter keeps the batches
of its own node until enough peers have acknowledged them, then it sends the
digest to the primary and stores the batch.  The batch receiver acknowledges
the batches of other nodes, sends their digests to the primary and stores them.
A message that cannot be sent ends the task that sends it.
-/

open Rust

namespace Calf

namespace Worker

structure WaitingBatch where
  /-- a set, in some order -/
  acknowledgers : List PeerId
  batch : Batch Transaction
  digest : Digest
  /-- in nanoseconds -/
  timestamp : Nat
deriving DecidableEq

namespace WaitingBatch

def new (crypto : Crypto) (batch : Batch Transaction) (now : Nat) :
    WaitingBatch :=
  ⟨[], batch, digestOf crypto batch, now⟩

def acknowledge (waiting : WaitingBatch) (sender : PeerId) : WaitingBatch :=
  { waiting with acknowledgers := waiting.acknowledgers.insert sender }

@[simp] theorem acknowledge_digest (waiting : WaitingBatch)
    (sender : PeerId) : (waiting.acknowledge sender).digest = waiting.digest :=
  rfl

@[simp] theorem acknowledge_batch (waiting : WaitingBatch)
    (sender : PeerId) : (waiting.acknowledge sender).batch = waiting.batch :=
  rfl

end WaitingBatch

structure Config where
  crypto : Crypto
  quorumThreshold : Nat
  /-- in milliseconds -/
  quorumTimeout : Nat

/-- What the quorum waiter does with a batch, which was received at one time
and put on the list at another. -/
def receiveBatch (config : Config) (batch : Batch Transaction)
    (received now : Nat) (batches : List WaitingBatch) : List WaitingBatch :=
  let waiting := WaitingBatch.new config.crypto batch received
  let batches :=
    if batches.any fun other => other.digest == waiting.digest then batches
    else batches ++ [waiting]
  batches.filter fun other =>
    (now - other.timestamp) / 1000000 < config.quorumTimeout

/-- What the quorum waiter does with an acknowledgment: the batches that still
wait, and the one that has reached its quorum. -/
def receiveAcknowledgment (config : Config) (ack : Acknowledgment)
    (sender : PeerId) (batches : List WaitingBatch) :
    List WaitingBatch × Option WaitingBatch :=
  match batches.findIdx? fun waiting => ack.verify waiting.digest with
  | none => (batches, none)
  | some index =>
      let batches := batches.modify index (·.acknowledge sender)
      match batches[index]? with
      | none => (batches, none)
      | some waiting =>
          -- the number of peers is cast to 32 bits
          if config.quorumThreshold ≤ waiting.acknowledgers.length % 2 ^ 32 then
            (batches.eraseIdx index, some waiting)
          else (batches, none)

/-- Where the quorum waiter is. -/
inductive Waiter where
  | selecting
  | inserting (waiting : WaitingBatch)
  | stopped
deriving DecidableEq

/-- Where the batch receiver is. -/
inductive Receiver where
  | receiving
  | acknowledging (batch : Batch Transaction) (sender : PeerId)
  | announcing (batch : Batch Transaction)
  | storing (batch : Batch Transaction)
  | stopped
deriving DecidableEq

/-- The column of the batches, where the last value put under a digest comes
first. -/
abbrev Database := List (Digest × Batch Transaction)

structure State where
  batches : List WaitingBatch
  waiter : Waiter
  receiver : Receiver
  /-- the requests sent so far by both tasks -/
  requests : List NetworkRequest
  database : Database
deriving DecidableEq

def start (database : Database) : State :=
  ⟨[], .selecting, .receiving, [], database⟩

inductive Event where
  /-- the quorum waiter gets a batch -/
  | batch (batch : Batch Transaction) (received now : Nat)
  /-- the quorum waiter gets an acknowledgment -/
  | acknowledgment (ack : Acknowledgment) (sender : PeerId) (sent : Bool)
  /-- the quorum waiter stores a batch, or fails to -/
  | insert (stored : Bool)
  /-- the batch receiver gets a batch -/
  | receive (batch : Batch Transaction) (sender : PeerId)
  | acknowledge (sent : Bool)
  | announce (sent : Bool)
  /-- the batch receiver stores a batch, or fails to -/
  | store (stored : Bool)
deriving DecidableEq

/-- The digest that the quorum waiter sends. -/
def waiterDigest (digest : Digest) : NetworkRequest :=
  .sendToPrimary (.digest digest .sameNode)

/-- One step of one of the tasks. -/
def perform (config : Config) (state : State) : Event → Option State
  | .batch batch received now =>
      if state.waiter = .selecting then
        some { state with
          batches := receiveBatch config batch received now state.batches }
      else none
  | .acknowledgment ack sender sent =>
      if state.waiter = .selecting then
        match receiveAcknowledgment config ack sender state.batches with
        | (batches, none) => some { state with batches := batches }
        | (batches, some waiting) =>
            if sent then
              some { state with
                batches := batches
                waiter := .inserting waiting
                requests := state.requests ++ [waiterDigest waiting.digest] }
            else some { state with waiter := .stopped }
      else none
  | .insert stored =>
      match state.waiter with
      | .inserting waiting =>
          -- A failure is logged.
          some { state with
            waiter := .selecting
            database :=
              if stored then (waiting.digest, waiting.batch) :: state.database
              else state.database }
      | _ => none
  | .receive batch sender =>
      if state.receiver = .receiving then
        some { state with receiver := .acknowledging batch sender }
      else none
  | .acknowledge sent =>
      match state.receiver with
      | .acknowledging batch sender =>
          if sent then
            some { state with
              receiver := .announcing batch
              requests := state.requests ++ [.sendTo sender
                (.acknowledgment ⟨digestOf config.crypto batch⟩)] }
          else some { state with receiver := .stopped }
      | _ => none
  | .announce sent =>
      match state.receiver with
      | .announcing batch =>
          if sent then
            some { state with
              receiver := .storing batch
              requests := state.requests ++ [.sendToPrimary
                (.digest (digestOf config.crypto batch) .counterpart)] }
          else some { state with receiver := .stopped }
      | _ => none
  | .store stored =>
      match state.receiver with
      | .storing batch =>
          if stored then
            some { state with
              receiver := .receiving
              database :=
                (digestOf config.crypto batch, batch) :: state.database }
          else some { state with receiver := .stopped }
      | _ => none

def Step (config : Config) (state : State) (event : Event) (next : State) :
    Prop :=
  perform config state event = some next

theorem step_deterministic {config : Config} (state : State) (event : Event)
    (next another : State) (taken : Step config state event next)
    (again : Step config state event another) : next = another :=
  Option.some.inj (taken.symm.trans again)

/-- The steps, one by one. -/
inductive Performs (config : Config) (state : State) :
    Event → State → Prop where
  | batch {batch : Batch Transaction} {received now : Nat}
      (selecting : state.waiter = .selecting) :
      Performs config state (.batch batch received now)
        { state with
          batches := receiveBatch config batch received now state.batches }
  | counted {ack : Acknowledgment} {sender : PeerId} {sent : Bool}
      {batches : List WaitingBatch} (selecting : state.waiter = .selecting)
      (counted : receiveAcknowledgment config ack sender state.batches =
        (batches, none)) :
      Performs config state (.acknowledgment ack sender sent)
        { state with batches := batches }
  | reached {ack : Acknowledgment} {sender : PeerId}
      {batches : List WaitingBatch} {waiting : WaitingBatch}
      (selecting : state.waiter = .selecting)
      (reached : receiveAcknowledgment config ack sender state.batches =
        (batches, some waiting)) :
      Performs config state (.acknowledgment ack sender true)
        { state with
          batches := batches
          waiter := .inserting waiting
          requests := state.requests ++ [waiterDigest waiting.digest] }
  | unsent {ack : Acknowledgment} {sender : PeerId}
      (selecting : state.waiter = .selecting) :
      Performs config state (.acknowledgment ack sender false)
        { state with waiter := .stopped }
  | inserted {waiting : WaitingBatch}
      (inserting : state.waiter = .inserting waiting) :
      Performs config state (.insert true)
        { state with
          waiter := .selecting
          database := (waiting.digest, waiting.batch) :: state.database }
  | notInserted {waiting : WaitingBatch}
      (inserting : state.waiter = .inserting waiting) :
      Performs config state (.insert false)
        { state with waiter := .selecting }
  | receive {batch : Batch Transaction} {sender : PeerId}
      (receiving : state.receiver = .receiving) :
      Performs config state (.receive batch sender)
        { state with receiver := .acknowledging batch sender }
  | acknowledge {batch : Batch Transaction} {sender : PeerId}
      (acknowledging : state.receiver = .acknowledging batch sender) :
      Performs config state (.acknowledge true)
        { state with
          receiver := .announcing batch
          requests := state.requests ++ [.sendTo sender
            (.acknowledgment ⟨digestOf config.crypto batch⟩)] }
  | notAcknowledged :
      Performs config state (.acknowledge false)
        { state with receiver := .stopped }
  | announce {batch : Batch Transaction}
      (announcing : state.receiver = .announcing batch) :
      Performs config state (.announce true)
        { state with
          receiver := .storing batch
          requests := state.requests ++ [.sendToPrimary
            (.digest (digestOf config.crypto batch) .counterpart)] }
  | notAnnounced :
      Performs config state (.announce false)
        { state with receiver := .stopped }
  | store {batch : Batch Transaction}
      (storing : state.receiver = .storing batch) :
      Performs config state (.store true)
        { state with
          receiver := .receiving
          database := (digestOf config.crypto batch, batch) :: state.database }
  | notStored :
      Performs config state (.store false)
        { state with receiver := .stopped }

theorem Step.performs {config : Config} {state next : State} {event : Event}
    (taken : Step config state event next) :
    Performs config state event next := by
  unfold Step at taken
  cases event with
  | batch batch received now =>
      simp only [perform] at taken
      split at taken
      · rename_i selecting
        cases taken
        exact .batch selecting
      · cases taken
  | acknowledgment ack sender sent =>
      simp only [perform] at taken
      split at taken
      · rename_i selecting
        rcases result : receiveAcknowledgment config ack sender state.batches
          with ⟨batches, _ | waiting⟩
        · rw [result] at taken
          cases taken
          exact .counted selecting result
        · rw [result] at taken
          cases sent with
          | true =>
              cases taken
              exact .reached selecting result
          | false =>
              cases taken
              exact .unsent selecting
      · cases taken
  | insert stored =>
      simp only [perform] at taken
      split at taken
      · rename_i waiting inserting
        cases stored with
        | true =>
            cases taken
            exact .inserted inserting
        | false =>
            cases taken
            exact .notInserted inserting
      · cases taken
  | receive batch sender =>
      simp only [perform] at taken
      split at taken
      · rename_i receiving
        cases taken
        exact .receive receiving
      · cases taken
  | acknowledge sent =>
      simp only [perform] at taken
      split at taken
      · rename_i acknowledging
        cases sent with
        | true =>
            cases taken
            exact .acknowledge acknowledging
        | false =>
            cases taken
            exact .notAcknowledged
      · cases taken
  | announce sent =>
      simp only [perform] at taken
      split at taken
      · rename_i announcing
        cases sent with
        | true =>
            cases taken
            exact .announce announcing
        | false =>
            cases taken
            exact .notAnnounced
      · cases taken
  | store stored =>
      simp only [perform] at taken
      split at taken
      · rename_i storing
        cases stored with
        | true =>
            cases taken
            exact .store storing
        | false =>
            cases taken
            exact .notStored
      · cases taken

section Lists

variable {config : Config}

/-- A batch whose digest does not wait is put on the list, and old batches are
dropped. -/
theorem mem_receiveBatch {batch : Batch Transaction} {received now : Nat}
    {batches : List WaitingBatch} {waiting : WaitingBatch}
    (member : waiting ∈ receiveBatch config batch received now batches) :
    waiting ∈ batches ∨
      (waiting = WaitingBatch.new config.crypto batch received ∧
        ∀ other ∈ batches, other.digest ≠ digestOf config.crypto batch) := by
  unfold receiveBatch at member
  have listed := (List.mem_filter.mp member).1
  split at listed
  · exact .inl listed
  · rename_i none
    rcases List.mem_append.mp listed with old | new
    · exact .inl old
    · refine .inr ⟨List.mem_singleton.mp new, ?_⟩
      simpa [WaitingBatch.new] using none

/-- An acknowledgment is counted for the first batch with its digest, which
leaves the list when its quorum is reached. -/
theorem receiveAcknowledgment_cases (config : Config) (ack : Acknowledgment)
    (sender : PeerId) (batches : List WaitingBatch) :
    ((∀ waiting ∈ batches, waiting.digest ≠ ack.digest) ∧
      receiveAcknowledgment config ack sender batches = (batches, none)) ∨
    ∃ front waiting back, batches = front ++ waiting :: back ∧
      waiting.digest = ack.digest ∧
      ((config.quorumThreshold ≤
          (waiting.acknowledge sender).acknowledgers.length % 2 ^ 32 ∧
        receiveAcknowledgment config ack sender batches =
          (front ++ back, some (waiting.acknowledge sender))) ∨
      ((waiting.acknowledge sender).acknowledgers.length % 2 ^ 32 <
          config.quorumThreshold ∧
        receiveAcknowledgment config ack sender batches =
          (front ++ waiting.acknowledge sender :: back, none))) := by
  cases found : batches.findIdx? fun waiting => ack.verify waiting.digest with
  | none =>
      left
      constructor
      · intro waiting member same
        have other := List.findIdx?_eq_none_iff.mp found waiting member
        rw [Acknowledgment.verify_iff.mpr same] at other
        cases other
      · simp [receiveAcknowledgment, found]
  | some index =>
      right
      obtain ⟨bound, verified, -⟩ := List.findIdx?_eq_some_iff_getElem.mp found
      let front := batches.take index
      let waiting := batches[index]
      let back := batches.drop (index + 1)
      have apart : batches = front ++ waiting :: back := by
        simp [front, waiting, back]
      have position : front.length = index :=
        List.length_take_of_le (Nat.le_of_lt bound)
      refine ⟨front, waiting, back, apart, by simpa using verified, ?_⟩
      have modified : batches.modify index (·.acknowledge sender) =
          front ++ waiting.acknowledge sender :: back :=
        List.modify_eq_take_cons_drop bound
      have present : (batches.modify index (·.acknowledge sender))[index]? =
          some (waiting.acknowledge sender) := by
        rw [modified, ← position]
        simp
      simp only [receiveAcknowledgment, found, present]
      split
      · rename_i reached
        refine .inl ⟨reached, ?_⟩
        rw [modified, ← position, List.eraseIdx_append_of_length_le le_rfl]
        simp
      · rename_i short
        rw [modified]
        exact .inr ⟨by omega, rfl⟩

/-- No two batches that wait have one digest. -/
def Distinct (batches : List WaitingBatch) : Prop :=
  (batches.map WaitingBatch.digest).Nodup

theorem Distinct.receiveBatch {batch : Batch Transaction}
    {received now : Nat} {batches : List WaitingBatch}
    (distinct : Distinct batches) :
    Distinct (receiveBatch config batch received now batches) := by
  refine (List.Sublist.map _ List.filter_sublist).nodup ?_
  split
  · exact distinct
  · rename_i none
    rw [List.map_append, List.map_cons, List.map_nil,
      ← List.concat_eq_append]
    refine List.Nodup.concat ?_ distinct
    simpa [WaitingBatch.new] using none

theorem Distinct.receiveAcknowledgment {ack : Acknowledgment}
    {sender : PeerId} {batches : List WaitingBatch}
    (distinct : Distinct batches) :
    Distinct (receiveAcknowledgment config ack sender batches).1 := by
  rcases receiveAcknowledgment_cases config ack sender batches with
    ⟨-, same⟩ | ⟨front, waiting, back, rfl, -, ⟨-, left⟩ | ⟨-, kept⟩⟩
  · rw [same]
    exact distinct
  · rw [left]
    exact (List.Sublist.map _
      (List.Sublist.append_left (List.sublist_cons_self _ _) _)).nodup distinct
  · rw [kept]
    simpa [Distinct] using distinct

theorem Distinct.step {state next : State} {event : Event}
    (distinct : Distinct state.batches)
    (taken : Step config state event next) : Distinct next.batches := by
  cases taken.performs with
  | batch selecting => exact distinct.receiveBatch
  | @counted ack sender _ _ _ counted =>
      have left := @Distinct.receiveAcknowledgment config ack sender _ distinct
      rw [counted] at left
      exact left
  | @reached ack sender _ _ _ reached =>
      have left := @Distinct.receiveAcknowledgment config ack sender _ distinct
      rw [reached] at left
      exact left
  | _ => exact distinct

/-- A batch that waits is the only one with its digest. -/
theorem Distinct.unique {batches : List WaitingBatch}
    (distinct : Distinct batches) {left right : WaitingBatch}
    (first : left ∈ batches) (second : right ∈ batches)
    (same : left.digest = right.digest) : left = right :=
  List.inj_on_of_nodup_map distinct first second same

end Lists

end Worker

end Calf
