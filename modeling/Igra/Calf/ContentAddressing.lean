import Igra.Calf.CertificateChecks

/-!
# Content addressing

A batch, a header and a certificate are addressed by the hash of their bytes.
The bytes put the parts back to back and keep no lengths, so they give the
contents as soon as it is known where the parts of variable length end.
-/

open Rust

namespace Calf

section Encodings

/-- The trait `AsBytes`, as far as `digest` uses it. -/
class AsBytes (α : Type) where
  bytes : α → List UInt8

/-- `Hash for T: AsBytes`. -/
def digestOf {α : Type} [AsBytes α] (crypto : Crypto) (object : α) : Digest :=
  crypto.hash (AsBytes.bytes object)

structure Transaction where
  data : List UInt8
deriving DecidableEq

instance Transaction.asBytes : AsBytes Transaction where
  bytes := Transaction.data

structure Batch (α : Type) where
  items : List α
deriving DecidableEq

def Batch.data {α : Type} [AsBytes α] (batch : Batch α) : List UInt8 :=
  batch.items.flatMap AsBytes.bytes

instance Batch.asBytes {α : Type} [AsBytes α] : AsBytes (Batch α) where
  bytes batch := batch.items.flatMap AsBytes.bytes

instance BlockHeader.asBytes : AsBytes BlockHeader where
  bytes := BlockHeader.bytes

instance Certificate.asBytes : AsBytes Certificate where
  bytes := Certificate.bytes

/-- Two byte strings have one hash only when they are the same. -/
def CollisionFreePair (crypto : Crypto) (left right : List UInt8) : Prop :=
  crypto.hash left = crypto.hash right → left = right

instance CollisionFreePair.decidable (crypto : Crypto)
    (left right : List UInt8) :
    Decidable (CollisionFreePair crypto left right) :=
  inferInstanceAs (Decidable (_ → _))

theorem digestOf_eq_iff {α : Type} [AsBytes α] {crypto : Crypto}
    {left right : α}
    (collisionFree : CollisionFreePair crypto (AsBytes.bytes left)
      (AsBytes.bytes right)) :
    digestOf crypto left = digestOf crypto right ↔
      AsBytes.bytes left = AsBytes.bytes right :=
  ⟨collisionFree, congrArg crypto.hash⟩

end Encodings

section Boundaries

/-- Batches with the same data are cut into transactions at the same places. -/
def Batch.CutAlike (left right : Batch Transaction) : Prop :=
  left.data = right.data →
    left.items.map (fun transaction => transaction.data.length) =
      right.items.map fun transaction => transaction.data.length

instance Batch.decidableCutAlike (left right : Batch Transaction) :
    Decidable (left.CutAlike right) :=
  inferInstanceAs (Decidable (_ → _))

/-- Headers of one author, round and time with the same ids in a row have the
same number of batch digests among them. -/
def BlockHeader.CutAlike (left right : BlockHeader) : Prop :=
  left.author = right.author → left.round = right.round →
    left.timestampMs = right.timestampMs →
    left.digests ++ left.certificatesIds =
      right.digests ++ right.certificatesIds →
    left.digests.length = right.digests.length

instance BlockHeader.decidableCutAlike (left right : BlockHeader) :
    Decidable (left.CutAlike right) :=
  inferInstanceAs (Decidable (_ → _))

/-- Certificates with the same bytes have votes with signatures of the same
lengths. -/
def DerivedCertificate.CutAlike (left right : DerivedCertificate) : Prop :=
  (Certificate.derived left).bytes = (Certificate.derived right).bytes →
    left.votes.map (fun vote => vote.signature.length) =
      right.votes.map fun vote => vote.signature.length

instance DerivedCertificate.decidableCutAlike
    (left right : DerivedCertificate) : Decidable (left.CutAlike right) :=
  inferInstanceAs (Decidable (_ → _))

theorem Batch.eq_of_data {left right : Batch Transaction}
    (sizes : left.items.map (fun transaction => transaction.data.length) =
      right.items.map fun transaction => transaction.data.length)
    (equal : left.data = right.data) : left = right := by
  have injective : Function.Injective Transaction.data := by
    rintro ⟨left⟩ ⟨right⟩ same
    exact congrArg Transaction.mk same
  have items := eq_of_flatMap_bytes injective sizes equal
  cases left
  cases right
  exact congrArg Batch.mk items

theorem BlockHeader.eq_of_bytes {left right : BlockHeader}
    (sizes : left.digests.length = right.digests.length)
    (equal : left.bytes = right.bytes) : left = right := by
  obtain ⟨author, round, timestamp, ids⟩ := bytes_eq_iff.mp equal
  obtain ⟨digests, certificatesIds⟩ := List.append_inj ids sizes
  cases left
  cases right
  simp only at author round timestamp digests certificatesIds
  rw [author, round, timestamp, digests, certificatesIds]

theorem Vote.bytes_injective : Function.Injective Vote.bytes := by
  rintro ⟨authority, signature⟩ ⟨otherAuthority, otherSignature⟩ equal
  obtain ⟨authorities, signatures⟩ := List.append_inj equal
    (authority.size.trans otherAuthority.size.symm)
  simp only at authorities signatures
  rw [FixedBytes.ext authorities, signatures]

theorem DerivedCertificate.eq_of_bytes {left right : DerivedCertificate}
    (sizes : left.votes.map (fun vote => vote.signature.length) =
      right.votes.map fun vote => vote.signature.length)
    (equal : (Certificate.derived left).bytes =
      (Certificate.derived right).bytes) : left = right := by
  have voteSizes : left.votes.map (fun vote => vote.bytes.length) =
      right.votes.map fun vote => vote.bytes.length := by
    have shifted := congrArg (List.map (32 + ·)) sizes
    simpa [Vote.bytes, FixedBytes.size, Function.comp_def] using shifted
  have voteBytes : (left.votes.flatMap Vote.bytes).length =
      (right.votes.flatMap Vote.bytes).length := by
    rw [List.length_flatMap, List.length_flatMap, voteSizes]
  simp only [Certificate.bytes, List.append_assoc] at equal
  obtain ⟨author, afterAuthor⟩ := List.append_inj equal
    (left.author.size.trans right.author.size.symm)
  obtain ⟨round, afterRound⟩ := List.append_inj afterAuthor (by simp)
  obtain ⟨votes, afterVotes⟩ := List.append_inj afterRound voteBytes
  obtain ⟨headerHash, parents⟩ := List.append_inj afterVotes
    (left.headerHash.size.trans right.headerHash.size.symm)
  have sameAuthor := FixedBytes.ext author
  have sameRound := UInt64.toNat.inj (leBytes_injective
    left.round.toNat_lt right.round.toNat_lt round)
  have sameVotes := eq_of_flatMap_bytes Vote.bytes_injective voteSizes votes
  have sameHash := FixedBytes.ext headerHash
  have sameParents := FixedBytes.flatMap_bytes_injective (by decide) parents
  cases left
  cases right
  simp only at sameAuthor sameRound sameVotes sameHash sameParents
  rw [sameAuthor, sameRound, sameVotes, sameHash, sameParents]

end Boundaries

section Addresses

/-- Equal digests mean equal contents exactly for the objects whose parts end
at the same places whenever their bytes agree. -/
theorem digests_determine_contents_iff (crypto : Crypto) :
    (∀ left right : Batch Transaction,
      CollisionFreePair crypto (AsBytes.bytes left) (AsBytes.bytes right) →
      ((digestOf crypto left = digestOf crypto right → left = right) ↔
        left.CutAlike right)) ∧
    (∀ left right : BlockHeader,
      CollisionFreePair crypto left.bytes right.bytes →
      ((left.digest crypto = right.digest crypto → left = right) ↔
        left.CutAlike right)) ∧
    (∀ left right : DerivedCertificate,
      CollisionFreePair crypto (Certificate.derived left).bytes
        (Certificate.derived right).bytes →
      (((Certificate.derived left).digest crypto =
          (Certificate.derived right).digest crypto → left = right) ↔
        left.CutAlike right)) := by
  refine ⟨?_, ?_, ?_⟩
  · intro left right collisionFree
    rw [digestOf_eq_iff collisionFree]
    constructor
    · intro determined equal
      rw [determined equal]
    · intro alike equal
      exact Batch.eq_of_data (alike equal) equal
  · intro left right collisionFree
    have sameBytes : left.digest crypto = right.digest crypto ↔
        left.bytes = right.bytes :=
      @digestOf_eq_iff BlockHeader _ crypto left right collisionFree
    rw [sameBytes]
    constructor
    · intro determined author round timestamp ids
      rw [determined (BlockHeader.bytes_eq_iff.mpr
        ⟨author, round, timestamp, ids⟩)]
    · intro alike equal
      obtain ⟨author, round, timestamp, ids⟩ :=
        BlockHeader.bytes_eq_iff.mp equal
      exact BlockHeader.eq_of_bytes (alike author round timestamp ids) equal
  · intro left right collisionFree
    have sameBytes : (Certificate.derived left).digest crypto =
          (Certificate.derived right).digest crypto ↔
        (Certificate.derived left).bytes =
          (Certificate.derived right).bytes :=
      @digestOf_eq_iff Certificate _ crypto (.derived left) (.derived right)
        collisionFree
    rw [sameBytes]
    constructor
    · intro determined equal
      rw [determined equal]
    · intro alike equal
      exact DerivedCertificate.eq_of_bytes (alike equal) equal

theorem digests_determine_contents_samples :
    let later : BlockHeader := { firstHeader with timestampMs := 1 }
    let voteless : DerivedCertificate :=
      { repeatedForeignVote with votes := [] }
    (digestOf sampleCrypto (Batch.mk [Transaction.mk [1]]) =
        digestOf sampleCrypto (Batch.mk [Transaction.mk [2]]) →
      Batch.mk [Transaction.mk [1]] = Batch.mk [Transaction.mk [2]]) ∧
    (firstHeader.digest sampleCrypto = later.digest sampleCrypto →
      firstHeader = later) ∧
    ((Certificate.derived repeatedForeignVote).digest sampleCrypto =
        (Certificate.derived voteless).digest sampleCrypto →
      repeatedForeignVote = voteless) := by
  intro later voteless
  obtain ⟨batches, headers, certificates⟩ :=
    digests_determine_contents_iff sampleCrypto
  refine ⟨?_, ?_, ?_⟩
  · exact (batches _ _ (by decide +kernel)).mpr (by decide +kernel)
  · exact (headers _ _ (by decide +kernel)).mpr (by decide +kernel)
  · exact (certificates _ _ (by decide +kernel)).mpr (by decide +kernel)

/-- One transaction of two bytes, and two of one byte each. -/
def oneTransaction : Batch Transaction := ⟨[⟨[1, 2]⟩]⟩

def twoTransactions : Batch Transaction := ⟨[⟨[1]⟩, ⟨[2]⟩]⟩

/-- `firstHeader` with its parent as a batch digest. -/
def parentAsBatch : BlockHeader :=
  { firstHeader with
    digests := firstHeader.certificatesIds
    certificatesIds := [] }

/-- Four members vote for `firstHeader`. -/
def fourVotes : DerivedCertificate where
  author := Committee.seatKey 0
  round := 1
  votes := [0, 1, 2, 3].map fun place =>
    seatVote place (firstHeader.digest sampleCrypto)
  headerHash := firstHeader.digest sampleCrypto
  parents := [DagProcessor.genesis.id sampleCrypto]

/-- The same bytes with the last vote read as a header hash and parents. -/
def threeVotes : DerivedCertificate :=
  { fourVotes with
    votes := fourVotes.votes.take 3
    headerHash := Committee.seatKey 3
    parents := [Committee.seatKey 3, fourVotes.headerHash,
      fourVotes.headerHash, DagProcessor.genesis.id sampleCrypto] }

/-- Objects of each kind that differ and have one digest. -/
theorem digests_shared :
    (digestOf sampleCrypto oneTransaction =
        digestOf sampleCrypto twoTransactions ∧
      oneTransaction ≠ twoTransactions) ∧
    (firstHeader.digest sampleCrypto = parentAsBatch.digest sampleCrypto ∧
      firstHeader ≠ parentAsBatch) ∧
    ((Certificate.derived fourVotes).digest sampleCrypto =
        (Certificate.derived threeVotes).digest sampleCrypto ∧
      fourVotes ≠ threeVotes) := by
  decide +kernel

end Addresses

end Calf
