import Igra.Calf.Certificate
import Igra.Calf.Dag
import Igra.Runs

/-!
# The DAG processor

One task owns the graph.  It takes the node's own certificates and those of
its peers one at a time, inserts them, and publishes the next round as soon as
the current layer has a quorum of vertices.  An error of the database or of a
channel ends the task, so every step of a run is one in which they worked.
-/

open Rust

namespace Calf

structure ReceivedObject (α : Type) where
  object : α
  sender : PeerId
deriving DecidableEq

/-- The missing parents are sent as a vector and collected into a set by the
sync tracker. -/
structure OrphanCertificate where
  id : CertificateId
  missingParents : Finset CertificateId
deriving DecidableEq

/-- `CertificateId::try_from(String)`, without its error texts. -/
def certificateIdOfText (text : String) : Option CertificateId :=
  match Hex.decode text with
  | .ok bytes => FixedBytes.ofList? 32 bytes
  | .error _ => none

/-- `Vertex::from(certificate)`. -/
def vertexOf (crypto : Crypto) (certificate : Certificate) :
    Vertex Certificate where
  data := certificate
  layer := certificate.round
  parents := certificate.parentsAsHex
  id := Hex.encode (certificate.digest crypto).bytes

namespace DagProcessor

/-- The state of the task and what it has written and sent. -/
structure State where
  dag : Dag Certificate
  currentRound : Round
  /-- `Column::Certificates` of the database -/
  stored : HashMap String Certificate
  /-- what was sent on `rounds_tx` -/
  published : List (Round × Finset Certificate)
  /-- what was sent on `oprhans_tx` -/
  orphans : List (ReceivedObject OrphanCertificate)
  /-- what was sent on `certificates_tx` -/
  tracked : List (ReceivedObject Certificate)

/-- What wakes the task. -/
inductive Event where
  | own (certificate : Certificate)
  | peer (received : ReceivedObject Certificate)

/-- `Certificate::genesis(GENESIS_SEED)`. -/
def genesis : Certificate := .genesis (FixedBytes.zero 32)

def start (crypto : Crypto) : Outcome Empty State := do
  let dag ← Dag.newWithRoot 0
    ⟨genesis, 0, ∅, Hex.encode (genesis.digest crypto).bytes⟩
  let currentRound ← checkedAdd dag.height 1
  pure
    { dag
      currentRound
      stored := (∅ : HashMap String Certificate).insert
        (genesis.idAsHex crypto) genesis
      published := [(currentRound, {genesis})]
      orphans := []
      tracked := [] }

def enoughParents (committee : Committee) (certificate : Certificate) : Bool :=
  decide (committee.quorum ≤ certificate.parentsNumber) ||
    decide (certificate.round = 1)

/-- The round check at the end of the loop body. -/
def completeRound (committee : Committee) (state : State) :
    Outcome Empty State :=
  if committee.quorum ≤ state.dag.layerSize state.currentRound then do
    let certificates := state.dag.layerData state.currentRound
    let currentRound ← checkedAdd state.currentRound 1
    pure { state with
      currentRound
      published := state.published ++ [(currentRound, certificates)] }
  else .ok state

def store (crypto : Crypto) (state : State) (certificate : Certificate)
    (dag : Dag Certificate) : State :=
  { state with
    dag
    stored := state.stored.insert (certificate.idAsHex crypto) certificate }

/-- A certificate that the node built itself; its votes are not checked.
`none` is `continue`, which skips the round check. -/
def receiveOwn (crypto : Crypto) (committee : Committee) (state : State)
    (certificate : Certificate) : Option State :=
  if !enoughParents committee certificate then none
  else
    match state.dag.insertChecked (vertexOf crypto certificate) with
    | (dag, .ok ()) => some (store crypto state certificate dag)
    | (dag, .error _) => some { state with dag }

/-- What the checks say of a certificate from a peer. -/
inductive Verdict where
  | notEnoughParents
  | invalidVotes (error : CertificateError)
  | orphan (missingParents : Finset String)
  | accepted
deriving DecidableEq

def judge (crypto : Crypto) (committee : Committee) (dag : Dag Certificate)
    (certificate : Certificate) : Verdict :=
  if !enoughParents committee certificate then .notEnoughParents
  else
    match certificate.verifyVotes crypto committee with
    | .error error => .invalidVotes error
    | .ok () =>
        match dag.checkParents (vertexOf crypto certificate) with
        | .ok () => .accepted
        | .error (.missingParents parents) => .orphan parents

def receivePeer (crypto : Crypto) (committee : Committee) (state : State)
    (received : ReceivedObject Certificate) : Option State :=
  match judge crypto committee state.dag received.object with
  | .notEnoughParents => none
  | .invalidVotes _ => none
  | .accepted =>
      let inserted := store crypto state received.object
        (state.dag.insert (vertexOf crypto received.object)).1
      some { inserted with tracked := state.tracked ++ [received] }
  | .orphan parents =>
      let orphan : OrphanCertificate :=
        ⟨received.object.id crypto,
          Finset.eraseNone (parents.image certificateIdOfText)⟩
      some
        { state with
          orphans := state.orphans ++ [⟨orphan, received.sender⟩]
          tracked := state.tracked ++ [received] }

def receive (crypto : Crypto) (committee : Committee) (state : State) :
    Event → Option State
  | .own certificate => receiveOwn crypto committee state certificate
  | .peer received => receivePeer crypto committee state received

def handle (crypto : Crypto) (committee : Committee) (state : State)
    (event : Event) : Outcome Empty State :=
  match receive crypto committee state event with
  | none => .ok state
  | some received => completeRound committee received

/-- A pass through the loop that does not end the task. -/
def Step (crypto : Crypto) (committee : Committee) (state : State)
    (event : Event) (next : State) : Prop :=
  handle crypto committee state event = .ok next

/-- The certificate that an event brings. -/
def Event.certificate : Event → Certificate
  | .own certificate => certificate
  | .peer received => received.object

/-- The certificate passes the checks of its path and is inserted. -/
def Inserts (crypto : Crypto) (committee : Committee) (state : State) :
    Event → Prop
  | .own certificate =>
      enoughParents committee certificate = true ∧
        state.dag.checkParents (vertexOf crypto certificate) = .ok ()
  | .peer received =>
      judge crypto committee state.dag received.object = .accepted

variable {crypto : Crypto} {committee : Committee} {state next : State}
  {event : Event}

theorem judge_eq_accepted {dag : Dag Certificate}
    {certificate : Certificate} :
    judge crypto committee dag certificate = .accepted ↔
      enoughParents committee certificate = true ∧
        certificate.verifyVotes crypto committee = .ok () ∧
        dag.checkParents (vertexOf crypto certificate) = .ok () := by
  unfold judge
  by_cases enough : enoughParents committee certificate = true
  · rw [if_neg (by simp [enough])]
    cases certificate.verifyVotes crypto committee with
    | error error => simp [enough]
    | ok _ =>
        cases dag.checkParents (vertexOf crypto certificate) with
        | error error =>
            cases error
            simp [enough]
        | ok _ => simp [enough]
  · simp [enough]

theorem Inserts.enoughParents
    (inserts : Inserts crypto committee state event) :
    enoughParents committee event.certificate = true := by
  cases event with
  | own certificate => exact inserts.1
  | peer received => exact (judge_eq_accepted.mp inserts).1

theorem Inserts.checkParents
    (inserts : Inserts crypto committee state event) :
    state.dag.checkParents (vertexOf crypto event.certificate) = .ok () := by
  cases event with
  | own certificate => exact inserts.2
  | peer received => exact (judge_eq_accepted.mp inserts).2.2

/-- Only a derived certificate is ever inserted. -/
theorem exists_derived_of_enoughParents {certificate : Certificate}
    (enough : enoughParents committee certificate = true) :
    ∃ derived, certificate = .derived derived := by
  have threshold := @Committee.one_le_quorum committee
  cases certificate with
  | derived certificate => exact ⟨certificate, rfl⟩
  | dummy =>
      simp [enoughParents, Certificate.parentsNumber,
        Certificate.round] at enough
      omega
  | genesis seed =>
      simp [enoughParents, Certificate.parentsNumber,
        Certificate.round] at enough
      omega

/-- The round check changes nothing but the round, and only with a quorum of
vertices in the current layer. -/
theorem completeRound_cases (completed : completeRound committee state =
      .ok next) :
    next = state ∨
      (committee.quorum ≤ state.dag.layerSize state.currentRound ∧
        ∃ following : Round,
          following.toNat = state.currentRound.toNat + 1 ∧
          next = { state with
            currentRound := following
            published := state.published ++
              [(following, state.dag.layerData state.currentRound)] }) := by
  unfold completeRound at completed
  split at completed
  · rename_i full
    obtain ⟨following, added, same⟩ := Outcome.bind_eq_ok.mp completed
    cases same
    rw [checkedAdd_eq_ok] at added
    exact .inr ⟨full, following, added.symm, rfl⟩
  · left
    cases completed
    rfl

/-- Receiving a certificate leaves the round alone, and the graph too unless
the certificate is inserted. -/
theorem receive_eq_some {received : State}
    (taken : receive crypto committee state event = some received) :
    received.currentRound = state.currentRound ∧
      received.published = state.published ∧
      ((¬Inserts crypto committee state event ∧ received.dag = state.dag) ∨
        (Inserts crypto committee state event ∧
          received.dag = (state.dag.insert
            (vertexOf crypto event.certificate)).1)) := by
  cases event with
  | own certificate =>
      simp only [receive, receiveOwn] at taken
      split at taken
      · cases taken
      · rename_i enough
        simp only [Bool.not_eq_true] at enough
        cases found :
          state.dag.checkParents (vertexOf crypto certificate) with
        | ok _ =>
            rw [Dag.insertChecked_of_ok found] at taken
            simp only [Dag.insert, found] at taken
            cases taken
            exact ⟨rfl, rfl, .inr ⟨⟨by simpa using enough, found⟩, rfl⟩⟩
        | error error =>
            simp only [Dag.insertChecked, found] at taken
            cases taken
            refine ⟨rfl, rfl, .inl ⟨?_, rfl⟩⟩
            rintro ⟨_, present⟩
            rw [found] at present
            cases present
  | peer peerReceived =>
      simp only [receive, receivePeer] at taken
      cases verdict : judge crypto committee state.dag peerReceived.object with
      | notEnoughParents => simp [verdict] at taken
      | invalidVotes error => simp [verdict] at taken
      | accepted =>
          simp only [verdict, Option.some.injEq] at taken
          subst taken
          exact ⟨rfl, rfl, .inr ⟨verdict, rfl⟩⟩
      | orphan parents =>
          simp only [verdict, Option.some.injEq] at taken
          subst taken
          exact ⟨rfl, rfl, .inl ⟨by simp [Inserts, verdict], rfl⟩⟩

theorem not_inserts_of_receive_eq_none
    (skipped : receive crypto committee state event = none) :
    ¬Inserts crypto committee state event := by
  cases event with
  | own certificate =>
      rintro ⟨enough, found⟩
      simp only [receive, receiveOwn, enough] at skipped
      rw [Dag.insertChecked_of_ok found] at skipped
      simp [Dag.insert, found] at skipped
  | peer received =>
      intro accepted
      simp only [Inserts] at accepted
      simp [receive, receivePeer, accepted] at skipped

/-- What a step does to the graph. -/
theorem Step.dag_cases (step : Step crypto committee state event next) :
    (¬Inserts crypto committee state event ∧ next.dag = state.dag) ∨
      (Inserts crypto committee state event ∧
        next.dag = (state.dag.insert
          (vertexOf crypto event.certificate)).1) := by
  unfold Step handle at step
  split at step
  · rename_i skipped
    cases step
    exact .inl ⟨not_inserts_of_receive_eq_none skipped, rfl⟩
  · rename_i received taken
    obtain ⟨_, _, graph⟩ := receive_eq_some taken
    rcases completeRound_cases step with rfl | ⟨_, _, _, rfl⟩
    · exact graph
    · exact graph

/-- What a step publishes: nothing, or the next round with the vertices of the
current layer, of which there is a quorum. -/
theorem Step.published_cases
    (step : Step crypto committee state event next) :
    (next.currentRound = state.currentRound ∧
        next.published = state.published) ∨
      (committee.quorum ≤ next.dag.layerSize state.currentRound ∧
        next.currentRound.toNat = state.currentRound.toNat + 1 ∧
        next.published = state.published ++
          [(next.currentRound, next.dag.layerData state.currentRound)]) := by
  unfold Step handle at step
  split at step
  · cases step
    exact .inl ⟨rfl, rfl⟩
  · rename_i received taken
    obtain ⟨round, published, _⟩ := receive_eq_some taken
    rcases completeRound_cases step with rfl | ⟨full, following, one, rfl⟩
    · exact .inl ⟨round, published⟩
    · rw [round] at full one
      exact .inr ⟨full, one, by simp [round, published]⟩

end DagProcessor

end Calf
