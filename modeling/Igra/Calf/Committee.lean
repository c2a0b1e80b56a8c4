import Igra.Quorum
import Igra.Rust.Bytes

/-!
# The committee

The threshold is meant to be a Byzantine quorum: with `n` authorities of which
`(n - 1) / 3` may be faulty, two quorums share an honest authority and the
honest authorities are a quorum.
-/

open Rust

namespace Calf

abbrev Digest := FixedBytes 32

/-- An ed25519 public key, 32 bytes as they come. -/
abbrev PublicKey := FixedBytes 32

abbrev Round := UInt64

/-- A libp2p peer id. -/
abbrev PeerId := List UInt8

structure AuthorityInfo where
  authorityId : PeerId
  authorityPubkey : String
deriving DecidableEq

structure Committee where
  authorities : List AuthorityInfo
deriving DecidableEq

namespace Committee

/-- `(authorities.len() / 3 * 2 + 1) as u32`, with two authorities set apart. -/
def quorumThreshold (committee : Committee) : UInt32 :=
  if committee.authorities.length = 2 then 2
  else UInt32.ofNat (committee.authorities.length / 3 * 2 + 1)

/-- The quorum as the code compares it, `quorum_threshold() as usize`. -/
def quorum (committee : Committee) : Nat :=
  committee.quorumThreshold.toNat

/-- The number of authorities that may be faulty. -/
def maximumFaults (committee : Committee) : Nat :=
  (committee.authorities.length - 1) / 3

/-- The places of the authorities in the list. -/
abbrev Seat (committee : Committee) := Fin committee.authorities.length

/-- Two quorums share more seats than may be faulty, and the honest seats are
enough for a quorum. -/
structure ByzantineQuorum (committee : Committee) : Prop where
  intersect : ∀ first second : Finset committee.Seat,
    first.card = committee.quorum → second.card = committee.quorum →
    committee.maximumFaults + 1 ≤ (first ∩ second).card
  reachable : committee.quorum ≤
    committee.authorities.length - committee.maximumFaults

variable {committee : Committee}

theorem quorum_eq :
    committee.quorum =
      if committee.authorities.length = 2 then 2
      else (committee.authorities.length / 3 * 2 + 1) % 2 ^ 32 := by
  unfold quorum quorumThreshold
  split
  · rfl
  · rfl

/-- The threshold is odd or two, so it is never zero. -/
theorem one_le_quorum : 1 ≤ committee.quorum := by
  rw [quorum_eq]
  split
  · omega
  · omega

private theorem quorum_le_length (seated : 1 ≤ committee.authorities.length) :
    committee.quorum ≤ committee.authorities.length := by
  rw [quorum_eq]
  split
  · omega
  · have wrapped := Nat.mod_le (committee.authorities.length / 3 * 2 + 1)
      (2 ^ 32)
    omega

/-- Below the size at which the threshold wraps around, it is a Byzantine
quorum unless the size leaves 2 modulo 3, where it is one too small; two
authorities are the exception that the code handles. -/
theorem byzantineQuorum_iff (seated : 1 ≤ committee.authorities.length) :
    committee.ByzantineQuorum ↔
      committee.authorities.length < 3 * 2 ^ 31 ∧
        (committee.authorities.length % 3 ≠ 2 ∨
          committee.authorities.length = 2) := by
  have fits : committee.quorum ≤ Fintype.card committee.Seat := by
    rw [Fintype.card_fin]
    exact quorum_le_length seated
  have meets := @Quorum.meet_iff _ _ _ _ (committee.maximumFaults + 1) fits
  rw [Fintype.card_fin] at meets
  have counted : committee.ByzantineQuorum ↔
      (committee.maximumFaults + 1 = 0 ∨
          committee.maximumFaults + 1 + committee.authorities.length ≤
            2 * committee.quorum) ∧
        committee.quorum ≤
          committee.authorities.length - committee.maximumFaults := by
    rw [← meets]
    exact ⟨fun holds => ⟨holds.intersect, holds.reachable⟩,
      fun holds => ⟨holds.1, holds.2⟩⟩
  rw [counted, quorum_eq]
  unfold maximumFaults
  generalize committee.authorities.length = size at seated ⊢
  split
  · omega
  · omega

section FiveAuthorities

/-- The key of the authority at a place. -/
def seatKey (place : Nat) : PublicKey :=
  ⟨List.replicate 32 (UInt8.ofNat place), List.length_replicate⟩

/-- A committee of the given size, each authority with its place as its id. -/
def ofSize (size : Nat) : Committee :=
  ⟨(List.range size).map fun place =>
    ⟨[UInt8.ofNat place], Hex.encode (seatKey place).bytes⟩⟩

/-- Five authorities, one of them faulty: the first three and the last three
are quorums and share one authority. -/
theorem fiveAuthorities_share_one :
    (ofSize 5).quorum = 3 ∧ (ofSize 5).maximumFaults = 1 ∧
      ¬(ofSize 5).ByzantineQuorum := by
  refine ⟨by decide, by decide, ?_⟩
  intro byzantine
  have shared := byzantine.intersect
    (Finset.univ.filter fun seat => seat.val < 3)
    (Finset.univ.filter fun seat => 2 ≤ seat.val) (by decide) (by decide)
  revert shared
  decide

theorem byzantineQuorum_iff_four :
    1 ≤ (ofSize 4).authorities.length ∧
      ((ofSize 4).ByzantineQuorum ↔
        (ofSize 4).authorities.length < 3 * 2 ^ 31 ∧
          ((ofSize 4).authorities.length % 3 ≠ 2 ∨
            (ofSize 4).authorities.length = 2)) :=
  ⟨by decide, byzantineQuorum_iff (by decide)⟩

end FiveAuthorities

end Committee

end Calf
