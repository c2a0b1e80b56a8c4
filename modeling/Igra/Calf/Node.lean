import Igra.Calf.AnnouncedBatches
import Igra.Calf.VotePromises

/-!
# A node

A node is a primary and its workers, which send it the digests of their
batches.  The primary takes digests from any peer, so what it knows of a batch
is what the sender of the digest knows.
-/

open Rust Runs

namespace Calf

namespace Node

structure Config where
  primary : Primary.Config
  /-- the peer ids of the node's workers -/
  address : UInt32 → PeerId

/-- `QUORUM_TIMEOUT`, and the threshold of the committee. -/
def Config.worker (config : Config) : Worker.Config :=
  ⟨config.primary.crypto, config.primary.committee.quorum, 1000⟩

structure State where
  primary : Primary.State
  workers : UInt32 → Worker.State

inductive Event where
  | primary (event : Primary.Event)
  | worker (id : UInt32) (event : Worker.Event)

/-- A digest that comes from one of the workers was sent by it. -/
def Delivered (config : Config) (state : State) : Primary.Event → Prop
  | .digest received =>
      ∀ id, received.sender = config.address id →
        .sendToPrimary (.digest received.object.1 received.object.2) ∈
          (state.workers id).requests
  | _ => True

inductive Step (config : Config) (state : State) : Event → State → Prop where
  | primary {event : Primary.Event} {next : Primary.State}
      (delivered : Delivered config state event)
      (taken : Primary.Step config.primary state.primary event next) :
      Step config state (.primary event) { state with primary := next }
  | worker {id : UInt32} {event : Worker.Event} {next : Worker.State}
      (taken : Worker.Step config.worker (state.workers id) event next) :
      Step config state (.worker id event)
        { state with workers := Function.update state.workers id next }

/-- The workers start with what is in their databases. -/
def start (primary : Primary.State) (databases : UInt32 → Worker.Database) :
    State :=
  ⟨primary, fun id => Worker.start (databases id)⟩

def primaryEvents (events : List Event) : List Primary.Event :=
  events.filterMap fun
    | .primary event => some event
    | _ => none

def workerEvents (id : UInt32) (events : List Event) : List Worker.Event :=
  events.filterMap fun
    | .worker other event => if other = id then some event else none
    | _ => none

variable {config : Config} {initial : Primary.State}
  {databases : UInt32 → Worker.Database} {state next : State}
  {event : Event} {events : List Event}

theorem primary_run
    (run : Run (Step config) (start initial databases) events state) :
    Run (Primary.Step config.primary) initial (primaryEvents events)
      state.primary := by
  induction run with
  | start => exact .start
  | extend _ taken ih =>
      unfold primaryEvents at ih ⊢
      rw [List.filterMap_append]
      cases taken with
      | primary delivered taken => exact ih.extend taken
      | worker taken =>
          rw [show List.filterMap _ [Event.worker _ _] =
            ([] : List Primary.Event) from rfl, List.append_nil]
          exact ih

theorem requests_subset_of_step {worker : Worker.Config}
    {before after : Worker.State} {event : Worker.Event}
    (taken : Worker.Step worker before event after) :
    before.requests ⊆ after.requests := by
  cases taken.performs with
  | reached _ _ => exact List.subset_append_left _ _
  | acknowledge _ => exact List.subset_append_left _ _
  | announce _ => exact List.subset_append_left _ _
  | _ => exact List.Subset.refl _

/-- Each digest in the database of the primary came in a message, which one of
the workers has sent if it is from one. -/
def Sourced (config : Config) (events : List Event) (state : State) : Prop :=
  ∀ key ∈ state.primary.digests, ∃ received,
    .primary (.digest received) ∈ events ∧
    key = Hex.encode received.object.1.bytes ∧
    ∀ id, received.sender = config.address id →
      .sendToPrimary (.digest received.object.1 received.object.2) ∈
        (state.workers id).requests

theorem Sourced.step (sourced : Sourced config events state)
    (taken : Step config state event next) :
    Sourced config (events ++ [event]) next := by
  have kept (digests : next.primary.digests = state.primary.digests)
      (requests : ∀ id,
        (state.workers id).requests ⊆ (next.workers id).requests) :
      Sourced config (events ++ [event]) next := by
    intro key member
    rw [digests] at member
    obtain ⟨received, came, named, sent⟩ := sourced key member
    exact ⟨received, List.mem_append_left _ came, named,
      fun id isWorker => requests id (sent id isWorker)⟩
  cases taken with
  | primary delivered taken =>
      cases taken with
      | own sent taken => exact kept rfl fun _ => List.Subset.refl _
      | peer taken => exact kept rfl fun _ => List.Subset.refl _
      | header distinct iterated => exact kept rfl fun _ => List.Subset.refl _
      | @digest received after taken =>
          obtain ⟨buffer, rfl, _⟩ := Primary.receiveDigest_eq_ok taken
          intro key member
          rcases AList.mem_insert _ |>.mp member with same | old
          · exact ⟨received, List.mem_append_right _
              (List.mem_singleton_self _), same, delivered⟩
          · obtain ⟨earlier, came, named, sent⟩ := sourced key old
            exact ⟨earlier, List.mem_append_left _ came, named, sent⟩
      | builder taken =>
          obtain ⟨_, _, rfl, _⟩ := Primary.performBuilder_eq_some taken
          exact kept rfl fun _ => List.Subset.refl _
  | @worker moved event after taken =>
      refine kept rfl ?_
      intro id
      show (state.workers id).requests ⊆
        (Function.update state.workers moved after id).requests
      by_cases same : id = moved
      · subst same
        rw [Function.update_self]
        exact requests_subset_of_step taken
      · rw [Function.update_of_ne same]
        exact List.Subset.refl _

/-- The batch is held by the workers from which the digest came, unless the
database of one of them has failed to store it. -/
def Backed (config : Config) (databases : UInt32 → Worker.Database)
    (events : List Event) (state : State) (digest : Digest) : Prop :=
  ∃ source sender,
    .primary (.digest ⟨(digest, source), sender⟩) ∈ events ∧
    ∀ id, sender = config.address id →
      Worker.Held config.primary.crypto (state.workers id) digest ∨
        Worker.Lost config.worker (Worker.start (databases id))
          (workerEvents id events) digest

/-- What a vote for a header promises. -/
structure Promises (config : Config) (databases : UInt32 → Worker.Database)
    (events : List Event) (state : State) (header : BlockHeader) : Prop where
  batches : ∀ digest ∈ header.digests,
    Backed config databases events state digest
  parents : ∀ parent ∈ header.certificatesIds,
    Hex.encode parent.bytes ∈ state.primary.processor.dag.vertices ∧
      ∀ earlier, Histories.Reaches state.primary.processor.dag.view
          (Hex.encode parent.bytes) earlier →
        earlier ∈ state.primary.processor.dag.vertices
  round : ∃ certificates,
    (header.round, certificates) ∈ state.primary.processor.published ∧
      (2 ≤ header.round → config.primary.committee.quorum - 1 ≤
        (HeaderElector.namedParents config.primary.crypto certificates
          header).card)

end Node

end Calf
