import Igra.Calf.Node

/-!
# Certified headers are available

Some of the seats are faulty and do whatever they like, but cannot sign for
the others.  A certificate that an honest node has in its graph was voted for
by the honest seats whose votes it carries, so that a certificate with votes of
a quorum of seats stands for `f + 1` honest nodes with the batches and the
parents of its header.
-/

open Rust Runs

namespace Calf

namespace Committee

variable {committee : Committee}

end Committee

namespace Network

variable {crypto : Crypto} {committee : Committee}

/-- What the nodes of the seats are. -/
structure Config (crypto : Crypto) (committee : Committee) where
  keypair : committee.Seat → Keypair
  validatorKeypair : committee.Seat → Keypair
  address : committee.Seat → UInt32 → PeerId

def Config.node (config : Config crypto committee) (seat : committee.Seat) :
    Node.Config :=
  ⟨⟨crypto, committee, config.keypair seat, config.validatorKeypair seat⟩,
    config.address seat⟩

/-- The honest seats run the node, each from what its workers had stored. -/
structure Execution (config : Config crypto committee)
    (faulty : Finset committee.Seat) where
  initial : Primary.State
  databases : committee.Seat → UInt32 → Worker.Database
  events : committee.Seat → List Node.Event
  nodes : committee.Seat → Node.State
  started : Primary.start crypto = .ok initial
  runs : ∀ seat, seat ∉ faulty →
    Run (Node.Step (config.node seat)) (Node.start initial (databases seat))
      (events seat) (nodes seat)

variable {config : Config crypto committee} {faulty : Finset committee.Seat}

/-- The certificates that a node has met have no collisions. -/
def Execution.CollisionFree (execution : Execution config faulty) : Prop :=
  ∀ seat, seat ∉ faulty → DagProcessor.CollisionFree crypto
    (Primary.certificateEvents (Node.primaryEvents (execution.events seat)))

/-- The votes of the certificate are enough and verify, and each honest seat
among the voters keeps what its vote promises. -/
structure Execution.Available (execution : Execution config faulty)
    (faults : Nat) (certificate : DerivedCertificate)
    (voters : Finset committee.Seat) : Prop where
  enough : committee.quorum ≤ certificate.votes.length
  verified : ∀ vote ∈ certificate.votes,
    vote.verify crypto certificate.headerHash = some true
  promised : ∀ seat ∈ voters \ faulty, ∃ header,
    header.digest crypto = certificate.headerHash ∧
      Node.Promises (config.node seat) (execution.databases seat)
        (execution.events seat) (execution.nodes seat) header
  honest : committee.quorum ≤ voters.card → faults + 1 ≤ (voters \ faulty).card

section Faulty

open HeaderElector (sampleKeypair)

/-- Four authorities, no peer of whose nodes has the empty id. -/
def fourConfig : Config sampleCrypto (.ofSize 4) where
  keypair seat := sampleKeypair seat.val
  validatorKeypair seat := sampleKeypair seat.val
  address _ id := [id.toUInt8]

end Faulty

end Network

end Calf
