import Igra.Calf.DagProcessor

/-!
# What the checks of a peer's certificate establish

A certificate from a peer is inserted when it has enough parents, enough votes
that verify over its header hash, and its parents in the layer below.  Nothing
ties the votes to distinct members of the committee, nor the author, round and
parents of the certificate to the header that the votes sign.
-/

open Rust

namespace Calf

open DagProcessor

section Signers

/-- The key is that of an authority. -/
def Committee.HasKey (committee : Committee) (key : PublicKey) : Prop :=
  ∃ authority ∈ committee.authorities,
    authority.authorityPubkey = Hex.encode key.bytes

instance (committee : Committee) : DecidablePred committee.HasKey :=
  fun key => inferInstanceAs
    (Decidable (∃ authority ∈ committee.authorities,
      authority.authorityPubkey = Hex.encode key.bytes))

namespace DerivedCertificate

/-- The votes hold valid signatures over the header hash by a quorum of
distinct members. -/
def QuorumSigned (crypto : Crypto) (committee : Committee)
    (certificate : DerivedCertificate) : Prop :=
  ∃ signers : Finset PublicKey, committee.quorum ≤ signers.card ∧
    ∀ key ∈ signers, committee.HasKey key ∧
      ∃ vote ∈ certificate.votes, vote.authority = key ∧
        vote.verify crypto certificate.headerHash = some true

/-- The distinct members that the votes name. -/
def namedMembers (committee : Committee)
    (certificate : DerivedCertificate) : Finset PublicKey :=
  (certificate.votes.map Vote.authority).toFinset.filter committee.HasKey

variable {crypto : Crypto} {committee : Committee}
  {certificate : DerivedCertificate}

theorem quorumSigned_iff_of_verified
    (verified : ∀ vote ∈ certificate.votes,
      vote.verify crypto certificate.headerHash = some true) :
    certificate.QuorumSigned crypto committee ↔
      committee.quorum ≤ (certificate.namedMembers committee).card := by
  constructor
  · rintro ⟨signers, enough, signed⟩
    apply enough.trans
    apply Finset.card_le_card
    intro key member
    obtain ⟨seated, vote, inVotes, rfl, _⟩ := signed key member
    simp only [namedMembers, Finset.mem_filter, List.mem_toFinset]
    exact ⟨List.mem_map_of_mem inVotes, seated⟩
  · intro enough
    refine ⟨_, enough, ?_⟩
    intro key member
    simp only [namedMembers, Finset.mem_filter, List.mem_toFinset,
      List.mem_map] at member
    obtain ⟨⟨vote, inVotes, same⟩, seated⟩ := member
    exact ⟨seated, vote, inVotes, same, verified vote inVotes⟩

end DerivedCertificate

namespace Certificate

/-- A certificate without votes is signed by nobody. -/
def QuorumSigned (crypto : Crypto) (committee : Committee) :
    Certificate → Prop
  | .derived certificate => certificate.QuorumSigned crypto committee
  | _ => False

def namedMembers (committee : Committee) : Certificate → Finset PublicKey
  | .derived certificate => certificate.namedMembers committee
  | _ => ∅

/-- The certificate passes every check that a peer's certificate meets. -/
def Admissible (crypto : Crypto) (committee : Committee)
    (dag : Dag Certificate) (certificate : Certificate) : Prop :=
  enoughParents committee certificate = true ∧
    certificate.verifyVotes crypto committee = .ok () ∧
    dag.checkParents (vertexOf crypto certificate) = .ok ()

/-- An inserted certificate is signed by a quorum exactly when it names one:
the code counts the votes and not the members. -/
theorem accepted_quorumSigned_iff (crypto : Crypto) (committee : Committee)
    (dag : Dag Certificate) (certificate : Certificate) :
    (judge crypto committee dag certificate = .accepted →
        certificate.QuorumSigned crypto committee) ↔
      ¬certificate.Admissible crypto committee dag ∨
        committee.quorum ≤ (certificate.namedMembers committee).card := by
  rw [judge_eq_accepted]
  by_cases admissible : certificate.Admissible crypto committee dag
  · obtain ⟨derived, rfl⟩ := exists_derived_of_enoughParents admissible.1
    have verified := (verifyVotes_eq_ok.mp admissible.2.1).2
    have counted := @DerivedCertificate.quorumSigned_iff_of_verified _
      committee _ verified
    simp only [admissible, not_true_eq_false, false_or]
    exact ⟨fun holds => counted.mp (holds admissible),
      fun named _ => counted.mpr named⟩
  · simp only [admissible, not_false_eq_true, true_or, iff_true]
    intro passes
    exact absurd passes admissible

end Certificate

end Signers

section Binding

namespace DerivedCertificate

/-- The fields that the graph is built from are those of the header. -/
structure Binds (certificate : DerivedCertificate)
    (header : BlockHeader) : Prop where
  author : certificate.author = header.author
  round : certificate.round = header.round
  parents : certificate.parents = header.certificatesIds

variable {crypto : Crypto} {committee : Committee}
  {certificate : DerivedCertificate}

/-- The headers with the hash have the same bytes. -/
def HashFixesBytes (crypto : Crypto) (headerHash : Digest) : Prop :=
  ∀ first second : BlockHeader, first.digest crypto = headerHash →
    second.digest crypto = headerHash → first.bytes = second.bytes

/-- The certificate was made from the header, which names no batches and no
parents. -/
structure MadeFromBare (crypto : Crypto) (certificate : DerivedCertificate)
    (header : BlockHeader) : Prop where
  made : .derived certificate = Certificate.ofHeader crypto header.round
    header.author certificate.votes header
  noBatches : header.digests = []
  noParents : header.certificatesIds = []

/-- The bytes of a header do not say where its batch digests end, so with any
digests or parents another header has the same hash and other parents. -/
theorem unnamed_of_binds {header : BlockHeader}
    (hashed : header.digest crypto = certificate.headerHash)
    (binds : ∀ other : BlockHeader,
      other.digest crypto = certificate.headerHash →
        certificate.Binds other) :
    header.digests = [] ∧ header.certificatesIds = [] := by
  let allBatches : BlockHeader :=
    { header with
      digests := header.digests ++ header.certificatesIds
      certificatesIds := [] }
  have batchBytes : allBatches.bytes = header.bytes := by
    rw [BlockHeader.bytes_eq_iff]
    exact ⟨rfl, rfl, rfl, List.append_nil _⟩
  let allParents : BlockHeader :=
    { header with
      digests := []
      certificatesIds := header.digests ++ header.certificatesIds }
  have parentBytes : allParents.bytes = header.bytes := by
    rw [BlockHeader.bytes_eq_iff]
    exact ⟨rfl, rfl, rfl, rfl⟩
  have noParents := (binds allBatches
    ((congrArg crypto.hash batchBytes).trans hashed)).parents
  have allOfThem := (binds allParents
    ((congrArg crypto.hash parentBytes).trans hashed)).parents
  exact List.append_eq_nil_iff.mp (allOfThem.symm.trans noParents)

theorem MadeFromBare.binds {made other : BlockHeader}
    (fixed : HashFixesBytes crypto certificate.headerHash)
    (bare : certificate.MadeFromBare crypto made)
    (hashed : other.digest crypto = certificate.headerHash) :
    certificate.Binds other := by
  obtain ⟨author, round, -, headerHash, parents⟩ :=
    DerivedCertificate.mk.inj (Certificate.derived.inj bare.made)
  obtain ⟨sameAuthor, sameRound, -, sameIds⟩ :=
    BlockHeader.bytes_eq_iff.mp (fixed made other headerHash.symm hashed)
  rw [bare.noBatches, bare.noParents, List.append_nil] at sameIds
  have noIds := (List.append_eq_nil_iff.mp sameIds.symm).2
  exact ⟨author.trans sameAuthor, round.trans sameRound,
    parents.trans (bare.noParents.trans noIds.symm)⟩

/-- An inserted certificate is bound to every header with its header hash, if
there is one, exactly when it was made from a header that names no batches and
no parents. -/
theorem accepted_binds_iff (dag : Dag Certificate)
    (fixed : HashFixesBytes crypto certificate.headerHash) :
    (judge crypto committee dag (.derived certificate) = .accepted →
        ∀ header : BlockHeader,
          header.digest crypto = certificate.headerHash →
          certificate.Binds header) ↔
      ¬(Certificate.derived certificate).Admissible crypto committee dag ∨
        (∀ header : BlockHeader,
          header.digest crypto ≠ certificate.headerHash) ∨
        ∃ header, certificate.MadeFromBare crypto header := by
  rw [judge_eq_accepted]
  constructor
  · intro binds
    by_cases admissible :
      (Certificate.derived certificate).Admissible crypto committee dag
    · right
      by_cases hashed : ∃ header : BlockHeader,
        header.digest crypto = certificate.headerHash
      · obtain ⟨header, hashed⟩ := hashed
        obtain ⟨noBatches, noParents⟩ :=
          unnamed_of_binds hashed (binds admissible)
        obtain ⟨author, round, parents⟩ := binds admissible header hashed
        refine .inr ⟨header, ?_, noBatches, noParents⟩
        rw [Certificate.ofHeader, hashed, ← author, ← round, ← parents]
      · exact .inl fun header same => hashed ⟨header, same⟩
    · exact .inl admissible
  · rintro (rejected | unsigned | ⟨made, bare⟩) admissible header hashed
    · exact absurd admissible rejected
    · exact absurd hashed (unsigned header)
    · exact bare.binds fixed hashed

end DerivedCertificate

end Binding

section SampleCertificates

/-- A polynomial hash, and signatures that spell out who signed what. -/
def sampleCrypto : Crypto where
  hash bytes :=
    ⟨leBytes 32 (bytes.foldl
      (fun value byte => (value * 257 + byte.toNat + 1) % (2 ^ 255 - 19)) 0),
      length_leBytes _ _⟩
  validKey _ := true
  verify key digest signature := decide (signature = key.bytes ++ digest.bytes)

/-- The vote of the authority at a place. -/
def seatVote (place : Nat) (headerHash : Digest) : Vote :=
  ⟨Committee.seatKey place,
    (Committee.seatKey place).bytes ++ headerHash.bytes⟩

/-- A header of the first authority for round 1. -/
def firstHeader : BlockHeader where
  author := Committee.seatKey 0
  round := 1
  timestampMs := 0
  digests := []
  certificatesIds := [genesis.id sampleCrypto]

/-- Three copies of one vote, by a key outside the committee of four. -/
def repeatedForeignVote : DerivedCertificate where
  author := Committee.seatKey 0
  round := 1
  votes := List.replicate 3
    (seatVote 9 (firstHeader.digest sampleCrypto))
  headerHash := firstHeader.digest sampleCrypto
  parents := [genesis.id sampleCrypto]

theorem repeatedForeignVote_accepted :
    ∃ state, start sampleCrypto = .ok state ∧
      judge sampleCrypto (.ofSize 4) state.dag
        (.derived repeatedForeignVote) = .accepted ∧
      ¬(Certificate.derived repeatedForeignVote).QuorumSigned
        sampleCrypto (.ofSize 4) := by
  have accepted : (start sampleCrypto).Returns fun state =>
      judge sampleCrypto (.ofSize 4) state.dag
        (.derived repeatedForeignVote) = .accepted := by
    decide +kernel
  obtain ⟨state, started, passes⟩ := accepted
  refine ⟨state, started, passes, ?_⟩
  have verified := (Certificate.verifyVotes_eq_ok.mp
    (judge_eq_accepted.mp passes).2.1).2
  have counted := @DerivedCertificate.quorumSigned_iff_of_verified _
    (.ofSize 4) _ verified
  have few : ¬(Committee.ofSize 4).quorum ≤
      (repeatedForeignVote.namedMembers (.ofSize 4)).card := by
    decide +kernel
  exact fun signed => few (counted.mp signed)

/-- Votes of three members for `firstHeader`. -/
def firstCertificate : DerivedCertificate where
  author := firstHeader.author
  round := firstHeader.round
  votes := [0, 1, 2].map fun place =>
    seatVote place (firstHeader.digest sampleCrypto)
  headerHash := firstHeader.digest sampleCrypto
  parents := firstHeader.certificatesIds

theorem firstCertificate_quorumSigned :
    ∃ state, start sampleCrypto = .ok state ∧
      judge sampleCrypto (.ofSize 4) state.dag
        (.derived firstCertificate) = .accepted ∧
      (Certificate.derived firstCertificate).QuorumSigned sampleCrypto
        (.ofSize 4) := by
  have accepted : (start sampleCrypto).Returns fun state =>
      judge sampleCrypto (.ofSize 4) state.dag
        (.derived firstCertificate) = .accepted := by
    decide +kernel
  obtain ⟨state, started, passes⟩ := accepted
  have exactly := Certificate.accepted_quorumSigned_iff sampleCrypto
    (.ofSize 4) state.dag (.derived firstCertificate)
  have named : (Committee.ofSize 4).quorum ≤
      ((Certificate.derived firstCertificate).namedMembers
        (.ofSize 4)).card := by
    decide +kernel
  exact ⟨state, started, passes, exactly.mpr (.inr named) passes⟩

/-- The same votes under another author and without the parent. -/
def relabelledCertificate : DerivedCertificate :=
  { firstCertificate with author := Committee.seatKey 3, parents := [] }

theorem relabelledCertificate_accepted :
    ∃ state, start sampleCrypto = .ok state ∧
      judge sampleCrypto (.ofSize 4) state.dag
        (.derived relabelledCertificate) = .accepted ∧
      firstHeader.digest sampleCrypto = relabelledCertificate.headerHash ∧
      ¬relabelledCertificate.Binds firstHeader := by
  have accepted : (start sampleCrypto).Returns fun state =>
      judge sampleCrypto (.ofSize 4) state.dag
        (.derived relabelledCertificate) = .accepted := by
    decide +kernel
  obtain ⟨state, started, passes⟩ := accepted
  refine ⟨state, started, passes, rfl, ?_⟩
  intro binds
  have sameAuthor := binds.author
  revert sameAuthor
  decide

/-- `firstHeader` without its parent. -/
def bareHeader : BlockHeader :=
  { firstHeader with certificatesIds := [] }

/-- The sample hash, except that only the bytes of the bare header have its
digest. -/
def singledOutHash (bytes : List UInt8) : Digest :=
  let hash := sampleCrypto.hash bytes
  if bytes ≠ bareHeader.bytes ∧ hash = sampleCrypto.hash bareHeader.bytes then
    FixedBytes.zero 32
  else hash

def singledOutCrypto : Crypto :=
  { sampleCrypto with hash := singledOutHash }

theorem hashFixesBytes_bareHeader :
    DerivedCertificate.HashFixesBytes singledOutCrypto
      (bareHeader.digest singledOutCrypto) := by
  have bareHash : singledOutHash bareHeader.bytes =
      sampleCrypto.hash bareHeader.bytes := by
    simp [singledOutHash]
  have notZero : FixedBytes.zero 32 ≠ sampleCrypto.hash bareHeader.bytes := by
    decide +kernel
  have isBare (header : BlockHeader)
      (hashed : singledOutHash header.bytes =
        singledOutHash bareHeader.bytes) :
      header.bytes = bareHeader.bytes := by
    by_contra apart
    rw [bareHash, singledOutHash] at hashed
    by_cases collides :
      sampleCrypto.hash header.bytes = sampleCrypto.hash bareHeader.bytes
    · rw [if_pos ⟨apart, collides⟩] at hashed
      exact notZero hashed
    · rw [if_neg fun both => collides both.2] at hashed
      exact collides hashed
  intro first second atFirst atSecond
  rw [isBare first atFirst, isBare second atSecond]

/-- The certificate that three votes make of the bare header. -/
def bareCertificate : DerivedCertificate where
  author := bareHeader.author
  round := bareHeader.round
  votes := [0, 1, 2].map fun place =>
    seatVote place (bareHeader.digest singledOutCrypto)
  headerHash := bareHeader.digest singledOutCrypto
  parents := []

theorem bareCertificate_binds :
    ∃ state, start singledOutCrypto = .ok state ∧
      judge singledOutCrypto (.ofSize 4) state.dag
        (.derived bareCertificate) = .accepted ∧
      ∀ header : BlockHeader,
        header.digest singledOutCrypto = bareCertificate.headerHash →
        bareCertificate.Binds header := by
  have accepted : (start singledOutCrypto).Returns fun state =>
      judge singledOutCrypto (.ofSize 4) state.dag
        (.derived bareCertificate) = .accepted := by
    decide +kernel
  obtain ⟨state, started, passes⟩ := accepted
  have exactly := @DerivedCertificate.accepted_binds_iff singledOutCrypto
    (.ofSize 4) bareCertificate state.dag hashFixesBytes_bareHeader
  exact ⟨state, started, passes,
    exactly.mpr (.inr (.inr ⟨bareHeader, rfl, rfl, rfl⟩)) passes⟩

end SampleCertificates

end Calf
