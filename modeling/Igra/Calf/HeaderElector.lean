import Igra.Calf.CertificateChecks

/-!
# The header elector

One task votes for the headers of its peers.  It checks a header against the
published round, the database and the certificates of the round, and sends a
vote to the peer that the header came from.  It does not look up whether it has
voted for the author in this round before.
-/

open Rust

namespace Calf

/-- The columns of the database. -/
inductive Column where
  | batches
  | headers
  | digests
  | certificates
deriving DecidableEq

/-- Whether `db.get(column, key)` finds an entry and can decode it. -/
abbrev Database := Column → String → Bool

/-- `ed25519::Keypair`. -/
structure Keypair where
  publicKey : PublicKey
  sign : Digest → Signature

def Vote.fromHeader (crypto : Crypto) (header : BlockHeader)
    (keypair : Keypair) : Vote :=
  ⟨keypair.publicKey, keypair.sign (header.digest crypto)⟩

/-- The error of `verify_parents`. -/
inductive HeaderError where
  | notEnoughParents
deriving DecidableEq

/-- `verify_parents`, with the set of potential parents in the order in which
it is iterated.  The threshold is at least 1. -/
def BlockHeader.verifyParents (header : BlockHeader)
    (potentialParents : List CertificateId) (quorumThreshold : Nat) :
    Except HeaderError Unit :=
  if header.round = 1 then
    match potentialParents, header.certificatesIds with
    | potentialParent :: _, parent :: _ =>
        if parent = potentialParent then .ok ()
        else .error .notEnoughParents
    | _, _ => .error .notEnoughParents
  else
    let common := potentialParents.filter fun parent =>
      decide (parent ∈ header.certificatesIds)
    if quorumThreshold - 1 ≤ common.length then .ok ()
    else .error .notEnoughParents

structure IncompleteHeader where
  missingCertificates : Finset CertificateId
  missingBatches : Finset BatchId
  header : BlockHeader
  sender : PeerId
deriving DecidableEq

/-- The ids of a list that a column of the database does not have. -/
def missingFrom (database : Database) (column : Column)
    (ids : List Digest) : Finset Digest :=
  (ids.filter fun id => !database column (Hex.encode id.bytes)).toFinset

def processHeader (header : BlockHeader) (sender : PeerId)
    (database : Database) : Except IncompleteHeader Unit :=
  let missingBatches := missingFrom database .digests header.digests
  let missingCertificates :=
    missingFrom database .certificates header.certificatesIds
  if missingCertificates = ∅ ∧ missingBatches = ∅ then .ok ()
  else .error ⟨missingCertificates, missingBatches, header, sender⟩

namespace HeaderElector

/-- A vote that was sent, with the header that it is for. -/
structure SentVote where
  receiver : PeerId
  vote : Vote
  header : BlockHeader
deriving DecidableEq

structure State where
  /-- what `round_rx` shows -/
  round : Round
  certificates : Finset Certificate
  /-- the votes sent on `network_tx` -/
  sent : List SentVote
  /-- `Column::Headers` of the database, as far as the elector writes it -/
  headers : HashMap String BlockHeader

/-- The round channel before the first round. -/
def start : State := ⟨0, ∅, [], ∅⟩

inductive Event where
  | round (round : Round) (certificates : Finset Certificate)
  /-- a header, with the database as the elector finds it and the order in
  which it iterates over the potential parents -/
  | header (received : ReceivedObject BlockHeader) (database : Database)
      (potentialParents : List CertificateId)

/-- The header passes the three checks. -/
def approves (committee : Committee) (state : State)
    (received : ReceivedObject BlockHeader) (database : Database)
    (potentialParents : List CertificateId) : Bool :=
  decide (received.object.round = state.round) &&
    (processHeader received.object received.sender database).isOk &&
    (received.object.verifyParents potentialParents committee.quorum).isOk

def elect (crypto : Crypto) (committee : Committee) (keypair : Keypair)
    (state : State) (received : ReceivedObject BlockHeader)
    (database : Database) (potentialParents : List CertificateId) : State :=
  if approves committee state received database potentialParents then
    { state with
      sent := state.sent ++
        [⟨received.sender, .fromHeader crypto received.object keypair,
          received.object⟩]
      headers := state.headers.insert
        (Hex.encode (received.object.digest crypto).bytes) received.object }
  else state

/-- A step of the elector or of the channel that it watches.  An error of a
channel or of the database ends the task. -/
inductive Step (crypto : Crypto) (committee : Committee)
    (keypair : Keypair) : State → Event → State → Prop where
  | round {state : State} {round : Round}
      {certificates : Finset Certificate} :
      state.round < round →
      Step crypto committee keypair state (.round round certificates)
        { state with round, certificates }
  | header {state : State} {received : ReceivedObject BlockHeader}
      {database : Database} {potentialParents : List CertificateId} :
      potentialParents.Nodup →
      potentialParents.toFinset =
        state.certificates.image (Certificate.id crypto) →
      Step crypto committee keypair state
        (.header received database potentialParents)
        (elect crypto committee keypair state received database
          potentialParents)

variable {crypto : Crypto} {committee : Committee} {keypair : Keypair}
  {state next : State} {event : Event} {events : List Event}

private theorem certificates_elect (received : ReceivedObject BlockHeader)
    (database : Database) (potentialParents : List CertificateId) :
    (elect crypto committee keypair state received database
      potentialParents).certificates = state.certificates := by
  unfold elect
  split
  · rfl
  · rfl

section Uniqueness

/-- At most one header for each author and round was voted for. -/
def VotesOnce (state : State) : Prop :=
  ∀ first ∈ state.sent, ∀ second ∈ state.sent,
    first.header.author = second.header.author →
    first.header.round = second.header.round →
    first.header = second.header

/-- The headers among the events. -/
def receivedHeaders (events : List Event) : List BlockHeader :=
  events.filterMap fun event =>
    match event with
    | .round _ _ => none
    | .header received _ _ => some received.object

/-- No author sends two different headers for one round. -/
def OneHeaderEach (headers : List BlockHeader) : Prop :=
  ∀ first ∈ headers, ∀ second ∈ headers,
    first.author = second.author → first.round = second.round →
    first = second

private theorem receivedHeaders_append (events : List Event) (event : Event) :
    receivedHeaders (events ++ [event]) =
      receivedHeaders events ++ receivedHeaders [event] :=
  List.filterMap_append

/-- A step votes for nothing but the header that it receives. -/
theorem Step.sent (step : Step crypto committee keypair state event next) :
    ∀ vote ∈ next.sent,
      vote ∈ state.sent ∨ vote.header ∈ receivedHeaders [event] := by
  cases step with
  | round _ => exact fun vote earlier => .inl earlier
  | @header received database potentialParents _ _ =>
      unfold elect
      split
      · intro vote member
        rcases List.mem_append.mp member with earlier | new
        · exact .inl earlier
        · obtain rfl := List.mem_singleton.mp new
          exact .inr (List.mem_singleton_self _)
      · exact fun vote earlier => .inl earlier

theorem sent_of_run
    (run : Runs.Run (Step crypto committee keypair) start events state) :
    ∀ vote ∈ state.sent, vote.header ∈ receivedHeaders events := by
  induction run with
  | start =>
      intro vote member
      cases member
  | extend _ step ih =>
      intro vote member
      rw [receivedHeaders_append]
      rcases step.sent vote member with earlier | new
      · exact List.mem_append_left _ (ih vote earlier)
      · exact List.mem_append_right _ new

theorem votesOnce_of_run
    (run : Runs.Run (Step crypto committee keypair) start events state)
    (each : OneHeaderEach (receivedHeaders events)) : VotesOnce state :=
  fun first firstIn second secondIn =>
    each _ (sent_of_run run first firstIn) _ (sent_of_run run second secondIn)

end Uniqueness

section Agreement

variable {electors : committee.Seat → State}
  {faulty : Finset committee.Seat} {header : BlockHeader}

/-- A quorum of seats whose honest members have voted for the header. -/
def Gathers (committee : Committee) (electors : committee.Seat → State)
    (faulty : Finset committee.Seat) (header : BlockHeader) : Prop :=
  ∃ voters : Finset committee.Seat, committee.quorum ≤ voters.card ∧
    ∀ seat ∈ voters, seat ∉ faulty →
      ∃ sent ∈ (electors seat).sent, sent.header = header

/-- A quorum of seats whose honest members have sent a vote that signs the
header's digest. -/
def GathersSignatures (crypto : Crypto) (committee : Committee)
    (electors : committee.Seat → State) (faulty : Finset committee.Seat)
    (header : BlockHeader) : Prop :=
  ∃ voters : Finset committee.Seat, committee.quorum ≤ voters.card ∧
    ∀ seat ∈ voters, seat ∉ faulty →
      ∃ sent ∈ (electors seat).sent,
        sent.header.digest crypto = header.digest crypto

/-- With `3f + 1` seats, two quorums share an honest one. -/
theorem exists_honest_voter {faults : Nat}
    (size : committee.authorities.length = 3 * faults + 1)
    (fits : faults < 2 ^ 31) (few : faulty.card ≤ faults)
    {first second : Finset committee.Seat}
    (firstQuorum : committee.quorum ≤ first.card)
    (secondQuorum : committee.quorum ≤ second.card) :
    ∃ seat ∈ first, seat ∈ second ∧ seat ∉ faulty := by
  have counted := Quorum.card_add_card_le first second
  rw [Fintype.card_fin] at counted
  have threshold : committee.quorum = 2 * faults + 1 := by
    rw [Committee.quorum_eq, size]
    split <;> omega
  apply Quorum.exists_honest
  omega

/-- When no honest elector receives two different headers of one author and
round, each votes at most once, and no two headers of one author and round
gather votes of a quorum; nor do two digests, among headers without
collisions. -/
theorem votes_unique {faults : Nat} {keypairs : committee.Seat → Keypair}
    (size : committee.authorities.length = 3 * faults + 1)
    (fits : faults < 2 ^ 31) (few : faulty.card ≤ faults)
    (runs : ∀ seat, seat ∉ faulty → ∃ events,
      Runs.Run (Step crypto committee (keypairs seat)) start events
          (electors seat) ∧
        OneHeaderEach (receivedHeaders events)) :
    (∀ seat, seat ∉ faulty → VotesOnce (electors seat)) ∧
      ∀ first second : BlockHeader,
        first.author = second.author → first.round = second.round →
        (Gathers committee electors faulty first →
          Gathers committee electors faulty second → first = second) ∧
        ((∀ seat, seat ∉ faulty → ∀ sent ∈ (electors seat).sent,
            ∀ header ∈ [first, second],
              sent.header.digest crypto = header.digest crypto →
              sent.header.bytes = header.bytes) →
          GathersSignatures crypto committee electors faulty first →
          GathersSignatures crypto committee electors faulty second →
          first.digest crypto = second.digest crypto) := by
  have once : ∀ seat, seat ∉ faulty → VotesOnce (electors seat) := by
    intro seat honest
    obtain ⟨events, run, each⟩ := runs seat honest
    exact votesOnce_of_run run each
  refine ⟨once, ?_⟩
  intro first second author round
  constructor
  · rintro ⟨firstVoters, firstQuorum, votedFirst⟩
      ⟨secondVoters, secondQuorum, votedSecond⟩
    obtain ⟨seat, inFirst, inSecond, honest⟩ :=
      exists_honest_voter size fits few firstQuorum secondQuorum
    obtain ⟨sentFirst, firstIn, rfl⟩ := votedFirst seat inFirst honest
    obtain ⟨sentSecond, secondIn, rfl⟩ := votedSecond seat inSecond honest
    exact once seat honest sentFirst firstIn sentSecond secondIn author round
  · rintro collisionFree ⟨firstVoters, firstQuorum, votedFirst⟩
      ⟨secondVoters, secondQuorum, votedSecond⟩
    obtain ⟨seat, inFirst, inSecond, honest⟩ :=
      exists_honest_voter size fits few firstQuorum secondQuorum
    obtain ⟨sentFirst, firstIn, firstDigest⟩ :=
      votedFirst seat inFirst honest
    obtain ⟨sentSecond, secondIn, secondDigest⟩ :=
      votedSecond seat inSecond honest
    have firstBytes := BlockHeader.bytes_eq_iff.mp
      (collisionFree seat honest sentFirst firstIn first (by simp)
        firstDigest)
    have secondBytes := BlockHeader.bytes_eq_iff.mp
      (collisionFree seat honest sentSecond secondIn second (by simp)
        secondDigest)
    have same := once seat honest sentFirst firstIn sentSecond secondIn
      (by rw [firstBytes.1, secondBytes.1, author])
      (by rw [firstBytes.2.1, secondBytes.2.1, round])
    rw [← firstDigest, same, secondDigest]

end Agreement

section Equivocation

/-- `firstHeader` with another timestamp. -/
def equivocatingHeader : BlockHeader :=
  { firstHeader with timestampMs := 1 }

def sampleKeypair (place : Nat) : Keypair where
  publicKey := Committee.seatKey place
  sign digest := (Committee.seatKey place).bytes ++ digest.bytes

/-- The state after round 1 is published and a header is received with all that
it names in the database. -/
def electFirst (place : Nat) (state : State) (header : BlockHeader) : State :=
  elect sampleCrypto (.ofSize 4) (sampleKeypair place) state ⟨header, []⟩
    (fun _ _ => true) [DagProcessor.genesis.id sampleCrypto]

/-- The start of round 1. -/
def firstRound : State :=
  { start with round := 1, certificates := {DagProcessor.genesis} }

def receiveFirst (header : BlockHeader) : Event :=
  .header ⟨header, []⟩ (fun _ _ => true)
    [DagProcessor.genesis.id sampleCrypto]

theorem electFirst_step (place : Nat) {state : State} (header : BlockHeader)
    (genesisOnly : state.certificates = {DagProcessor.genesis}) :
    Step sampleCrypto (.ofSize 4) (sampleKeypair place) state
      (receiveFirst header) (electFirst place state header) := by
  apply Step.header (List.nodup_singleton _)
  rw [genesisOnly]
  rfl

/-- An elector votes for two headers of one author and round. -/
theorem equivocation_voted_twice :
    ∃ state, Runs.Run
        (Step sampleCrypto (.ofSize 4) (sampleKeypair 1)) start
        [.round 1 {DagProcessor.genesis}, receiveFirst firstHeader,
          receiveFirst equivocatingHeader] state ∧
      ¬VotesOnce state := by
  have voted : (electFirst 1 (electFirst 1 firstRound firstHeader)
      equivocatingHeader).sent.map SentVote.header =
        [firstHeader, equivocatingHeader] := by
    decide +kernel
  refine ⟨_, .extend (.extend (.extend .start (.round (by decide)))
    (electFirst_step 1 _ rfl))
    (electFirst_step 1 _ (by rw [electFirst, certificates_elect])), ?_⟩
  intro once
  obtain ⟨first, firstIn, isFirst⟩ := List.mem_map.mp
    (voted ▸ List.mem_cons_self)
  obtain ⟨second, secondIn, isSecond⟩ := List.mem_map.mp
    (voted ▸ List.mem_cons_of_mem _ (List.mem_singleton_self _))
  have same := once first firstIn second secondIn
    (by rw [isFirst, isSecond]; rfl) (by rw [isFirst, isSecond]; rfl)
  rw [isFirst, isSecond] at same
  revert same
  decide

/-- The three honest authorities of four vote for one header. -/
theorem votes_unique_firstHeader :
    let electors : (Committee.ofSize 4).Seat → State :=
      fun seat => electFirst seat.val firstRound firstHeader
    let faulty : Finset (Committee.ofSize 4).Seat :=
      Finset.univ.filter fun seat => seat.val = 3
    Gathers (.ofSize 4) electors faulty firstHeader ∧
      ∀ second : BlockHeader, firstHeader.author = second.author →
        firstHeader.round = second.round →
        Gathers (.ofSize 4) electors faulty second →
        firstHeader = second := by
  intro electors faulty
  have voted (seat : (Committee.ofSize 4).Seat) :
      (electors seat).sent.map SentVote.header = [firstHeader] := by
    revert seat
    decide +kernel
  have gathers : Gathers (.ofSize 4) electors faulty firstHeader := by
    refine ⟨Finset.univ, by decide, ?_⟩
    intro seat _ _
    exact List.mem_map.mp (voted seat ▸ List.mem_cons_self)
  refine ⟨gathers, ?_⟩
  intro second author round
  have run (seat : (Committee.ofSize 4).Seat) :
      Runs.Run (Step sampleCrypto (.ofSize 4) (sampleKeypair seat.val)) start
        [.round 1 {DagProcessor.genesis}, receiveFirst firstHeader]
        (electors seat) :=
    .extend (.extend .start (.round (by decide)))
      (electFirst_step seat.val firstHeader rfl)
  have each : OneHeaderEach (receivedHeaders
      [.round 1 {DagProcessor.genesis}, receiveFirst firstHeader]) := by
    intro one oneIn other otherIn _ _
    rw [List.mem_singleton.mp oneIn, List.mem_singleton.mp otherIn]
  have unique := @votes_unique sampleCrypto (.ofSize 4) electors faulty 1
    (fun seat => sampleKeypair seat.val) (by decide) (by decide) (by decide)
    fun seat _ => ⟨_, run seat, each⟩
  exact (unique.2 firstHeader second author round).1 gathers

end Equivocation

end HeaderElector

end Calf
