import Igra.Calf.Committee

/-!
# Headers, votes and certificates

A header and a certificate are identified by the hash of their bytes.  The
votes of a certificate sign a header hash that the certificate carries next to
its own author, round and parents.
-/

open Rust

namespace Calf

/-- The bytes of a signature as they come (`Vec<u8>`). -/
abbrev Signature := List UInt8

abbrev BatchId := Digest

abbrev CertificateId := Digest

/-- blake3 and the ed25519 of libp2p. -/
structure Crypto where
  hash : List UInt8 → Digest
  /-- `ed25519::PublicKey::try_from_bytes` accepts the bytes. -/
  validKey : PublicKey → Bool
  verify : PublicKey → Digest → Signature → Bool

section Header

structure BlockHeader where
  author : PublicKey
  round : Round
  timestampMs : BitVec 128
  digests : List BatchId
  certificatesIds : List CertificateId
deriving DecidableEq

namespace BlockHeader

def bytes (header : BlockHeader) : List UInt8 :=
  header.author.bytes ++ leBytes 8 header.round.toNat ++
    leBytes 16 header.timestampMs.toNat ++
    header.digests.flatMap FixedBytes.bytes ++
    header.certificatesIds.flatMap FixedBytes.bytes

def digest (crypto : Crypto) (header : BlockHeader) : Digest :=
  crypto.hash header.bytes

/-- Headers with the same bytes agree on everything but where the batch
digests end and the parents begin. -/
theorem bytes_eq_iff {left right : BlockHeader} :
    left.bytes = right.bytes ↔
      left.author = right.author ∧ left.round = right.round ∧
        left.timestampMs = right.timestampMs ∧
        left.digests ++ left.certificatesIds =
          right.digests ++ right.certificatesIds := by
  unfold bytes
  simp only [List.append_assoc, ← List.flatMap_append]
  constructor
  · intro equal
    obtain ⟨author, afterAuthor⟩ := List.append_inj equal
      (left.author.size.trans right.author.size.symm)
    obtain ⟨round, afterRound⟩ := List.append_inj afterAuthor (by simp)
    obtain ⟨timestamp, ids⟩ := List.append_inj afterRound (by simp)
    refine ⟨FixedBytes.ext author, ?_, ?_, ?_⟩
    · exact UInt64.toNat.inj (leBytes_injective left.round.toNat_lt
        right.round.toNat_lt round)
    · exact BitVec.eq_of_toNat_eq (leBytes_injective
        left.timestampMs.isLt right.timestampMs.isLt timestamp)
    · exact FixedBytes.flatMap_bytes_injective (by decide) ids
  · rintro ⟨author, round, timestamp, ids⟩
    rw [author, round, timestamp, ids]

end BlockHeader

end Header

section Vote

structure Vote where
  authority : PublicKey
  signature : Signature
deriving DecidableEq

namespace Vote

/-- `none` when the authority's bytes are no public key. -/
def verify (crypto : Crypto) (vote : Vote) (headerHash : Digest) :
    Option Bool :=
  if crypto.validKey vote.authority then
    some (crypto.verify vote.authority headerHash vote.signature)
  else none

def bytes (vote : Vote) : List UInt8 :=
  vote.authority.bytes ++ vote.signature

end Vote

end Vote

structure DerivedCertificate where
  author : PublicKey
  round : Round
  votes : List Vote
  headerHash : Digest
  parents : List CertificateId
deriving DecidableEq

inductive Certificate where
  | dummy
  | genesis (seed : Digest)
  | derived (certificate : DerivedCertificate)
deriving DecidableEq

/-- The errors of `verify_votes`. -/
inductive CertificateError where
  | invalidVote
  | notEnoughVotes
deriving DecidableEq

namespace Certificate

/-- `Certificate::derived`. -/
def ofHeader (crypto : Crypto) (round : Round) (author : PublicKey)
    (votes : List Vote) (header : BlockHeader) : Certificate :=
  .derived
    ⟨author, round, votes, header.digest crypto, header.certificatesIds⟩

def bytes : Certificate → List UInt8
  | .dummy => List.replicate 32 0
  | .genesis seed => seed.bytes
  | .derived certificate =>
      certificate.author.bytes ++ leBytes 8 certificate.round.toNat ++
        certificate.votes.flatMap Vote.bytes ++
        certificate.headerHash.bytes ++
        certificate.parents.flatMap FixedBytes.bytes

def digest (crypto : Crypto) (certificate : Certificate) : Digest :=
  crypto.hash certificate.bytes

def id (crypto : Crypto) : Certificate → CertificateId
  | .dummy => FixedBytes.zero 32
  | .genesis seed => crypto.hash seed.bytes
  | .derived certificate => digest crypto (.derived certificate)

def idAsHex (crypto : Crypto) (certificate : Certificate) : String :=
  Hex.encode (certificate.id crypto).bytes

def round : Certificate → Round
  | .derived certificate => certificate.round
  | _ => 0

def parents : Certificate → Finset CertificateId
  | .derived certificate => certificate.parents.toFinset
  | _ => ∅

def parentsAsHex : Certificate → Finset String
  | .derived certificate =>
      (certificate.parents.map fun parent =>
        Hex.encode parent.bytes).toFinset
  | _ => ∅

def parentsNumber : Certificate → Nat
  | .derived certificate => certificate.parents.length
  | _ => 0

def author : Certificate → Option PublicKey
  | .derived certificate => some certificate.author
  | _ => none

def verifyVotes (crypto : Crypto) (committee : Committee) :
    Certificate → Except CertificateError Unit
  | .derived certificate =>
      if certificate.votes.length < committee.quorum then
        .error .notEnoughVotes
      else if certificate.votes.all fun vote =>
          (vote.verify crypto certificate.headerHash).getD false then
        .ok ()
      else .error .invalidVote
  | _ => .ok ()

variable {crypto : Crypto} {committee : Committee}

theorem verifyVotes_eq_ok {certificate : DerivedCertificate} :
    verifyVotes crypto committee (.derived certificate) = .ok () ↔
      committee.quorum ≤ certificate.votes.length ∧
        ∀ vote ∈ certificate.votes,
          vote.verify crypto certificate.headerHash = some true := by
  simp only [verifyVotes]
  by_cases few : certificate.votes.length < committee.quorum
  · simp [few]
  · rw [if_neg few]
    have verified (vote : Vote) :
        (vote.verify crypto certificate.headerHash).getD false = true ↔
          vote.verify crypto certificate.headerHash = some true := by
      cases vote.verify crypto certificate.headerHash <;> simp
    simp [Nat.le_of_not_lt few, verified]

theorem mem_parentsAsHex {certificate : Certificate} {text : String} :
    text ∈ certificate.parentsAsHex ↔
      ∃ parent ∈ certificate.parents, text = Hex.encode parent.bytes := by
  cases certificate with
  | dummy => simp [parentsAsHex, parents]
  | genesis seed => simp [parentsAsHex, parents]
  | derived certificate => simp [parentsAsHex, parents, eq_comm]

theorem card_parentsAsHex (certificate : Certificate) :
    certificate.parentsAsHex.card = certificate.parents.card := by
  have image : certificate.parentsAsHex =
      certificate.parents.image fun parent => Hex.encode parent.bytes := by
    ext text
    rw [mem_parentsAsHex]
    simp [eq_comm]
  rw [image, Finset.card_image_of_injective]
  intro left right equal
  exact FixedBytes.ext (Hex.encode_injective equal)

/-- The bytes of a certificate fix its author and round: a derived certificate
is longer than any other and begins with the two. -/
theorem head_eq_of_bytes {left right : Certificate}
    (equal : left.bytes = right.bytes) :
    left.author = right.author ∧ left.round = right.round := by
  have sizes := congrArg List.length equal
  have longer (certificate : DerivedCertificate) :
      72 ≤ (derived certificate).bytes.length := by
    simp [bytes, certificate.author.size, certificate.headerHash.size]
    omega
  have shorter (seed : Digest) : (genesis seed).bytes.length = 32 := by
    simp [bytes, seed.size]
  have dummySize : dummy.bytes.length = 32 := by
    simp [bytes]
  cases left with
  | dummy =>
      cases right with
      | derived other =>
          have bound := longer other
          omega
      | _ => exact ⟨rfl, rfl⟩
  | genesis seed =>
      have size := shorter seed
      cases right with
      | derived other =>
          have bound := longer other
          omega
      | _ => exact ⟨rfl, rfl⟩
  | derived certificate =>
      have bound := longer certificate
      cases right with
      | derived other =>
          simp only [bytes, List.append_assoc] at equal
          obtain ⟨authors, afterAuthor⟩ := List.append_inj equal
            (certificate.author.size.trans other.author.size.symm)
          obtain ⟨rounds, _⟩ := List.append_inj afterAuthor (by simp)
          refine ⟨congrArg some (FixedBytes.ext authors), ?_⟩
          exact UInt64.toNat.inj (leBytes_injective
            certificate.round.toNat_lt other.round.toNat_lt rounds)
      | dummy => omega
      | genesis seed =>
          have size := shorter seed
          omega

end Certificate

end Calf
