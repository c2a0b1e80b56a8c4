import Igra.Calf.ElectorAgreement
import Igra.Calf.Network
import Igra.Calf.SyncTracker
import Igra.Calf.VoteCollection

/-!
# The header builder

One task wakes up when a round is published, waits until the node is in sync,
reads the round that is shown then, and builds a header from its certificates
and the digests that are in the buffer a second later.  Each header gets a task
of its own that collects votes until there is a certificate.  The tasks are
detached, so that cancelling them does not stop them.
-/

open Rust

namespace Calf

/-- `BlockHeader::new`, with the time that it reads. -/
def BlockHeader.new (author : PublicKey) (digests : List BatchId)
    (certificatesIds : List CertificateId) (round : Round)
    (timestampMs : BitVec 128) : BlockHeader where
  author
  round
  timestampMs
  digests
  certificatesIds

/-- What the watch channel of the rounds shows after these were published. -/
def shownRound (published : List (Round × Finset Certificate)) :
    Round × Finset Certificate :=
  published.getLast?.getD (0, ∅)

namespace HeaderBuilder

structure Config where
  crypto : Crypto
  committee : Committee
  keypair : Keypair

/-- Where the loop of the builder is. -/
inductive Phase where
  | waiting
  | syncing
  | sleeping (round : Round) (certificates : Finset Certificate)
deriving DecidableEq

/-- A task that collects votes for a header. -/
structure Collector where
  header : BlockHeader
  /-- what was received since the header was last broadcast -/
  received : List VoteReceipt
  finished : Bool
deriving DecidableEq

structure State where
  /-- how many of the published rounds the builder has been woken for -/
  seen : Nat
  phase : Phase
  collectors : List Collector
  /-- what was sent on `network_tx`; it may arrive at any time, or never -/
  requests : List NetworkRequest
  /-- what was sent on `certificate_tx` -/
  certificates : List Certificate

def start : State := ⟨0, .waiting, [], [], []⟩

inductive Event where
  | wake
  | check (status : SyncStatus)
  /-- the time, and the certificates in the order in which they are iterated -/
  | build (timestampMs : BitVec 128) (certificates : List Certificate)
  | receive (collector : Nat) (receipt : VoteReceipt)
  | timeout (collector : Nat)

variable (published : List (Round × Finset Certificate))

/-- `header_trigger_rx.changed()`. -/
def wake (state : State) : Option State :=
  if state.phase = .waiting ∧ state.seen < published.length then
    some { state with seen := published.length, phase := .syncing }
  else none

/-- The wait for the synchronization, and `header_trigger_rx.borrow()`. -/
def check (status : SyncStatus) (state : State) : Option State :=
  if state.phase = .syncing then
    match status with
    | .incomplete => some state
    | .complete =>
        let (round, certificates) := shownRound published
        some { state with phase := .sleeping round certificates }
  else none

/-- The header, and the task that broadcasts it. -/
def build (config : Config) (timestampMs : BitVec 128)
    (parents : List Certificate) (digests : List BatchId) (state : State) :
    Option State :=
  match state.phase with
  | .sleeping round certificates =>
      if parents.Nodup ∧ parents.toFinset = certificates then
        let header := BlockHeader.new config.keypair.publicKey digests
          (parents.map (Certificate.id config.crypto)) round timestampMs
        some { state with
          phase := .waiting
          collectors := state.collectors ++ [⟨header, [], false⟩]
          requests :=
            state.requests ++ [.broadcastCounterparts (.header header)] }
      else none
  | _ => none

/-- A collector receives a vote, or an error. -/
def receive (config : Config) (index : Nat) (receipt : VoteReceipt)
    (state : State) : Option State :=
  match state.collectors[index]? with
  | some ⟨header, received, false⟩ =>
      let received := received ++ [receipt]
      match waitForQuorum config.crypto header config.committee.quorum received
          config.keypair with
      | .waiting _ =>
          some { state with
            collectors :=
              state.collectors.set index ⟨header, received, false⟩ }
      | .failed _ =>
          some { state with
            collectors := state.collectors.set index ⟨header, received, true⟩ }
      | .reached votes =>
          let certificate := Certificate.ofHeader config.crypto header.round
            config.keypair.publicKey votes header
          some { state with
            collectors := state.collectors.set index ⟨header, received, true⟩
            certificates := state.certificates ++ [certificate]
            requests := state.requests ++
              [.broadcastCounterparts (.certificate certificate)] }
  | _ => none

/-- A collector gives up waiting and broadcasts its header again. -/
def timeout (index : Nat) (state : State) : Option State :=
  match state.collectors[index]? with
  | some ⟨header, _, false⟩ =>
      some { state with
        collectors := state.collectors.set index ⟨header, [], false⟩
        requests :=
          state.requests ++ [.broadcastCounterparts (.header header)] }
  | _ => none

/-- One step, with what the buffer would give if it were drained. -/
def perform (config : Config) (digests : List BatchId) (state : State) :
    Event → Option State
  | .wake => wake published state
  | .check status => check published status state
  | .build timestampMs parents =>
      build config timestampMs parents digests state
  | .receive index receipt => receive config index receipt state
  | .timeout index => timeout index state

/-- The headers that were built, in order. -/
def headers (state : State) : List BlockHeader :=
  state.collectors.map Collector.header

section Steps

variable {published} {config : Config} {digests : List BatchId}
  {state next : State}

theorem headers_set {index : Nat} {collector : Collector}
    (same : (state.collectors[index]?).map Collector.header =
      some collector.header) :
    (state.collectors.set index collector).map Collector.header =
      state.collectors.map Collector.header := by
  rw [List.map_set]
  apply List.ext_getElem?
  intro place
  rw [List.getElem?_set]
  split
  · rename_i here
    subst here
    rw [List.getElem?_map, same]
    obtain ⟨old, found, _⟩ := Option.map_eq_some_iff.mp same
    have bound := (List.getElem?_eq_some_iff.mp found).1
    rw [List.length_map, if_pos bound]
  · rfl

/-- What a step does to the list of collectors and to what they certify. -/
inductive Advances (published : List (Round × Finset Certificate))
    (config : Config) (digests : List BatchId) (state : State) :
    Event → State → Prop where
  | wake (waiting : state.phase = .waiting)
      (unseen : state.seen < published.length) :
      Advances published config digests state .wake
        { state with seen := published.length, phase := .syncing }
  | syncing (waits : state.phase = .syncing) :
      Advances published config digests state (.check .incomplete) state
  | read (waits : state.phase = .syncing) :
      Advances published config digests state (.check .complete)
        { state with phase :=
            .sleeping (shownRound published).1 (shownRound published).2 }
  | build {timestampMs : BitVec 128} {parents : List Certificate}
      {round : Round} {certificates : Finset Certificate}
      (sleeping : state.phase = .sleeping round certificates)
      (distinct : parents.Nodup)
      (iterated : parents.toFinset = certificates) :
      Advances published config digests state (.build timestampMs parents)
        { state with
          phase := .waiting
          collectors := state.collectors ++
            [⟨.new config.keypair.publicKey digests
              (parents.map (Certificate.id config.crypto)) round timestampMs,
              [], false⟩]
          requests := state.requests ++ [.broadcastCounterparts (.header
            (.new config.keypair.publicKey digests
              (parents.map (Certificate.id config.crypto)) round
              timestampMs))] }
  | collect {index : Nat} {receipt : VoteReceipt} {header : BlockHeader}
      {received : List VoteReceipt} {finished : Bool}
      (found : state.collectors[index]? = some ⟨header, received, false⟩) :
      Advances published config digests state (.receive index receipt)
        { state with
          collectors := state.collectors.set index
            ⟨header, received ++ [receipt], finished⟩ }
  | certify {index : Nat} {receipt : VoteReceipt} {header : BlockHeader}
      {received : List VoteReceipt} {votes : List Vote}
      (found : state.collectors[index]? = some ⟨header, received, false⟩)
      (reached : waitForQuorum config.crypto header config.committee.quorum
        (received ++ [receipt]) config.keypair = .reached votes) :
      Advances published config digests state (.receive index receipt)
        { state with
          collectors := state.collectors.set index
            ⟨header, received ++ [receipt], true⟩
          certificates := state.certificates ++
            [.ofHeader config.crypto header.round config.keypair.publicKey
              votes header]
          requests := state.requests ++
            [.broadcastCounterparts (.certificate
              (.ofHeader config.crypto header.round config.keypair.publicKey
                votes header))] }
  | timeout {index : Nat} {header : BlockHeader}
      {received : List VoteReceipt}
      (found : state.collectors[index]? = some ⟨header, received, false⟩) :
      Advances published config digests state (.timeout index)
        { state with
          collectors := state.collectors.set index ⟨header, [], false⟩
          requests :=
            state.requests ++ [.broadcastCounterparts (.header header)] }

theorem advances_of_perform {event : Event}
    (performed : perform published config digests state event = some next) :
    Advances published config digests state event next := by
  cases event with
  | wake =>
      simp only [perform, HeaderBuilder.wake] at performed
      split at performed
      · rename_i ready
        cases performed
        exact .wake ready.1 ready.2
      · cases performed
  | check status =>
      simp only [perform, check] at performed
      split at performed
      · rename_i syncing
        cases status with
        | incomplete =>
            cases performed
            exact .syncing syncing
        | complete =>
            cases performed
            exact .read syncing
      · cases performed
  | build timestampMs parents =>
      simp only [perform, HeaderBuilder.build] at performed
      split at performed
      · rename_i round certificates sleeping
        split at performed
        · rename_i iterated
          cases performed
          exact .build sleeping iterated.1 iterated.2
        · cases performed
      · cases performed
  | receive index receipt =>
      simp only [perform, receive] at performed
      split at performed
      · rename_i header received found
        split at performed
        · cases performed
          exact .collect found
        · cases performed
          exact .collect found
        · rename_i votes reached
          cases performed
          exact .certify found reached
      · cases performed
  | timeout index =>
      simp only [perform, HeaderBuilder.timeout] at performed
      split at performed
      · rename_i header received found
        cases performed
        exact .timeout found
      · cases performed

end Steps

end HeaderBuilder

end Calf
