import Igra.Calf.CircularBuffer
import Igra.Calf.HeaderBuilder

/-!
# A primary

The tasks of a primary share the database, the buffer of digests and the
channel on which the rounds are shown.  The digest receiver stores every digest
and keeps those of its own node for the next header; the builder turns them
into headers; the elector votes for the headers of others, as far as the
database has what they name; and the DAG processor takes the certificates of
both sides and publishes the rounds.
-/

open Rust

namespace Calf

namespace Primary

structure Config where
  crypto : Crypto
  committee : Committee
  /-- the keypair of the network, by which the builder signs -/
  keypair : Keypair
  validatorKeypair : Keypair

def Config.builder (config : Config) : HeaderBuilder.Config :=
  ⟨config.crypto, config.committee, config.keypair⟩

/-- `MAX_DIGESTS_IN_HEADER`. -/
def maxDigestsInHeader : Nat := 100

structure State where
  processor : DagProcessor.State
  elector : HeaderElector.State
  builder : HeaderBuilder.State
  /-- `Column::Digests` of the database -/
  digests : HashMap String BatchId
  buffer : CircularBuffer BatchId

/-- The processor has published its first round, and nothing was received. -/
def start (crypto : Crypto) : Outcome Empty State := do
  let processor ← DagProcessor.start crypto
  let (round, certificates) := shownRound processor.published
  pure
    { processor
      elector := { HeaderElector.start with round, certificates }
      builder := HeaderBuilder.start
      digests := ∅
      buffer := .new maxDigestsInHeader }

/-- What the elector finds in the columns that it looks at.  A stored
certificate can be decoded as an id: it has 32 bytes or more. -/
def database (state : State) : Database
  | .digests, key => decide (key ∈ state.digests)
  | .certificates, key => decide (key ∈ state.processor.stored)
  | _, _ => false

inductive Event where
  /-- the DAG processor takes a certificate -/
  | certificate (event : DagProcessor.Event)
  /-- the elector takes a header, with the order in which it goes through the
  potential parents -/
  | header (received : ReceivedObject BlockHeader)
      (potentialParents : List CertificateId)
  /-- the digest receiver takes a digest -/
  | digest (received : ReceivedObject (BatchId × ObjectSource))
  | builder (event : HeaderBuilder.Event)

/-- The elector borrows what the channel shows. -/
def showRound (processor : DagProcessor.State) (elector : HeaderElector.State) :
    HeaderElector.State :=
  let (round, certificates) := shownRound processor.published
  { elector with round, certificates }

/-- What the digest receiver does with a digest. -/
def receiveDigest (state : State)
    (received : ReceivedObject (BatchId × ObjectSource)) :
    Outcome Empty State :=
  let (digest, source) := received.object
  let digests := state.digests.insert (Hex.encode digest.bytes) digest
  if source = .sameNode then do
    let buffer ← state.buffer.push digest
    pure { state with digests, buffer }
  else .ok { state with digests }

/-- Only a header that is built drains the buffer. -/
def performBuilder (config : Config) (state : State)
    (event : HeaderBuilder.Event) : Option State :=
  let (drained, buffer) := state.buffer.drain
  (HeaderBuilder.perform state.processor.published config.builder drained
    state.builder event).map fun builder =>
      match event with
      | .build _ _ => { state with builder, buffer }
      | _ => { state with builder }

/-- A step of one of the tasks.  An error of a channel or of the database ends
the task.  The certificates of the node itself come from its builder. -/
inductive Step (config : Config) (state : State) : Event → State → Prop where
  | own {certificate : Certificate} {processor : DagProcessor.State}
      (sent : certificate ∈ state.builder.certificates)
      (taken : DagProcessor.Step config.crypto config.committee
        state.processor (.own certificate) processor) :
      Step config state (.certificate (.own certificate))
        { state with
          processor
          elector := showRound processor state.elector }
  | peer {received : ReceivedObject Certificate}
      {processor : DagProcessor.State}
      (taken : DagProcessor.Step config.crypto config.committee
        state.processor (.peer received) processor) :
      Step config state (.certificate (.peer received))
        { state with
          processor
          elector := showRound processor state.elector }
  | header {received : ReceivedObject BlockHeader}
      {potentialParents : List CertificateId}
      (distinct : potentialParents.Nodup)
      (iterated : potentialParents.toFinset =
        state.elector.certificates.image (Certificate.id config.crypto)) :
      Step config state (.header received potentialParents)
        { state with
          elector := HeaderElector.elect config.crypto config.committee
            config.validatorKeypair state.elector received (database state)
            potentialParents }
  | digest {received : ReceivedObject (BatchId × ObjectSource)}
      {next : State} (taken : receiveDigest state received = .ok next) :
      Step config state (.digest received) next
  | builder {event : HeaderBuilder.Event} {next : State}
      (taken : performBuilder config state event = some next) :
      Step config state (.builder event) next

/-- The DAG processor takes a certificate, and the elector sees the round. -/
def takeCertificate (config : Config) (state : State)
    (event : DagProcessor.Event) : Option State :=
  (DagProcessor.handle config.crypto config.committee state.processor
    event).toOption.map fun processor =>
      { state with
        processor
        elector := showRound processor state.elector }

/-- The state after the event, if the event can happen. -/
def perform (config : Config) (state : State) : Event → Option State
  | .certificate (.own certificate) =>
      if certificate ∈ state.builder.certificates then
        takeCertificate config state (.own certificate)
      else none
  | .certificate (.peer received) =>
      takeCertificate config state (.peer received)
  | .header received potentialParents =>
      if potentialParents.Nodup ∧ potentialParents.toFinset =
          state.elector.certificates.image (Certificate.id config.crypto) then
        some { state with
          elector := HeaderElector.elect config.crypto config.committee
            config.validatorKeypair state.elector received (database state)
            potentialParents }
      else none
  | .digest received => (receiveDigest state received).toOption
  | .builder event => performBuilder config state event

private theorem takeCertificate_eq_some {config : Config} {state next : State}
    {event : DagProcessor.Event}
    (taken : takeCertificate config state event = some next) :
    ∃ processor,
      DagProcessor.Step config.crypto config.committee state.processor event
        processor ∧
      next = { state with
        processor
        elector := showRound processor state.elector } := by
  obtain ⟨processor, handled, rfl⟩ := Option.map_eq_some_iff.mp taken
  exact ⟨processor, Outcome.toOption_eq_some.mp handled, rfl⟩

theorem step_of_perform {config : Config} {state next : State} {event : Event}
    (performed : perform config state event = some next) :
    Step config state event next := by
  cases event with
  | certificate event =>
      cases event with
      | own certificate =>
          simp only [perform, Option.ite_none_right_eq_some] at performed
          obtain ⟨sent, taken⟩ := performed
          obtain ⟨processor, step, rfl⟩ := takeCertificate_eq_some taken
          exact .own sent step
      | peer received =>
          obtain ⟨processor, step, rfl⟩ := takeCertificate_eq_some performed
          exact .peer step
  | header received potentialParents =>
      simp only [perform, Option.ite_none_right_eq_some] at performed
      obtain ⟨⟨distinct, iterated⟩, same⟩ := performed
      cases same
      exact .header distinct iterated
  | digest received => exact .digest (Outcome.toOption_eq_some.mp performed)
  | builder event => exact .builder performed

/-- The events of the DAG processor. -/
def certificateEvents (events : List Event) : List DagProcessor.Event :=
  events.filterMap fun
    | .certificate event => some event
    | _ => none

variable {config : Config} {initial state next : State} {event : Event}
  {events : List Event}

theorem certificateEvents_append (events : List Event) (event : Event) :
    certificateEvents (events ++ [event]) =
      certificateEvents events ++ certificateEvents [event] :=
  List.filterMap_append

theorem start_eq_ok {crypto : Crypto} (started : start crypto = .ok initial) :
    DagProcessor.start crypto = .ok initial.processor ∧
      initial.elector =
        showRound initial.processor HeaderElector.start ∧
      initial.builder = HeaderBuilder.start ∧ initial.digests = ∅ ∧
      initial.buffer = .new maxDigestsInHeader := by
  obtain ⟨processor, begun, same⟩ := Outcome.bind_eq_ok.mp started
  cases same
  exact ⟨begun, rfl, rfl, rfl, rfl⟩

theorem receiveDigest_eq_ok
    {received : ReceivedObject (BatchId × ObjectSource)}
    (taken : receiveDigest state received = .ok next) :
    ∃ buffer, next = { state with
        digests := state.digests.insert
          (Hex.encode received.object.1.bytes) received.object.1
        buffer } ∧
      ((received.object.2 = .sameNode ∧
          state.buffer.push received.object.1 = .ok buffer) ∨
        (received.object.2 = .counterpart ∧ buffer = state.buffer)) := by
  obtain ⟨⟨digest, source⟩, sender⟩ := received
  cases source with
  | sameNode =>
      simp only [receiveDigest, if_true] at taken
      obtain ⟨buffer, pushed, same⟩ := Outcome.bind_eq_ok.mp taken
      cases same
      exact ⟨buffer, rfl, .inl ⟨rfl, pushed⟩⟩
  | counterpart =>
      simp only [receiveDigest, reduceCtorEq, if_false] at taken
      cases taken
      exact ⟨state.buffer, rfl, .inr ⟨rfl, rfl⟩⟩

/-- The builder's steps leave everything but the builder alone; one that
builds a header takes what is in the buffer. -/
theorem performBuilder_eq_some {event : HeaderBuilder.Event}
    (taken : performBuilder config state event = some next) :
    ∃ builder buffer, next = { state with builder, buffer } ∧
      HeaderBuilder.Advances state.processor.published config.builder
        state.buffer.drain.1 state.builder event builder ∧
      (((∃ timestampMs parents, event = .build timestampMs parents) ∧
          buffer = state.buffer.drain.2) ∨
        ((∀ timestampMs parents, event ≠ .build timestampMs parents) ∧
          buffer = state.buffer)) := by
  unfold performBuilder at taken
  obtain ⟨builder, performed, same⟩ := Option.map_eq_some_iff.mp taken
  have advances := HeaderBuilder.advances_of_perform performed
  cases event with
  | build timestampMs parents =>
      subst same
      exact ⟨builder, _, rfl, advances, .inl ⟨⟨_, _, rfl⟩, rfl⟩⟩
  | _ =>
      subst same
      exact ⟨builder, state.buffer, rfl, advances,
        .inr ⟨by simp, rfl⟩⟩

/-- What is seen of the processor along a run is a run of it. -/
theorem processor_run {allowed : State → Event → Prop}
    (permitted : DagProcessor.State → DagProcessor.Event → Prop)
    (implied : ∀ state event, allowed state (.certificate event) →
      permitted state.processor event)
    (run : Runs.Run (Runs.restrict allowed (Step config)) initial events
      state) :
    Runs.Run (Runs.restrict permitted
        (DagProcessor.Step config.crypto config.committee))
      initial.processor (certificateEvents events) state.processor := by
  induction run with
  | start => exact .start
  | extend _ taken ih =>
      obtain ⟨granted, step⟩ := taken
      rw [certificateEvents_append]
      cases step with
      | own _ taken => exact ih.extend ⟨implied _ _ granted, taken⟩
      | peer taken => exact ih.extend ⟨implied _ _ granted, taken⟩
      | header _ _ =>
          rw [show certificateEvents [Event.header _ _] = [] from rfl,
            List.append_nil]
          exact ih
      | digest taken =>
          obtain ⟨_, rfl, _⟩ := receiveDigest_eq_ok taken
          rw [show certificateEvents [Event.digest _] = [] from rfl,
            List.append_nil]
          exact ih
      | builder taken =>
          obtain ⟨_, _, rfl, _⟩ := performBuilder_eq_some taken
          rw [show certificateEvents [Event.builder _] = [] from rfl,
            List.append_nil]
          exact ih

end Primary

end Calf
