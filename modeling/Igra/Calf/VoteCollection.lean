import Igra.Calf.HeaderElector
import Mathlib.Data.Finset.Card

/-!
# Vote collection

The author of a header collects votes for it until there are as many as the
threshold.  The loop counts the votes and not their authors, and a vote whose
authority is no public key ends it.
-/

open Rust

namespace Calf

/-- The errors of `votes_rx.recv()`. -/
inductive RecvError where
  | lagged (missed : UInt64)
  | closed
deriving DecidableEq

inductive QuorumError where
  | invalidKey
  | receive (error : RecvError)
deriving DecidableEq

/-- How `wait_for_quorum` stands when nothing more is received. -/
inductive Collection where
  | reached (votes : List Vote)
  | failed (error : QuorumError)
  | waiting (votes : List Vote)
deriving DecidableEq

/-- What the channel of the votes gives. -/
abbrev VoteReceipt := Except RecvError (ReceivedObject Vote)

section Collect

variable (crypto : Crypto)

/-- The loop of `wait_for_quorum`. -/
def collectVotes (headerHash : Digest) (threshold : Nat)
    (votes : List Vote) : List VoteReceipt → Collection
  | [] => .waiting votes
  | .error error :: _ => .failed (.receive error)
  | .ok vote :: rest =>
      match vote.object.verify crypto headerHash with
      | none => .failed .invalidKey
      | some valid =>
          let votes := if valid then votes ++ [vote.object] else votes
          if threshold ≤ votes.length then .reached votes
          else collectVotes headerHash threshold votes rest

/-- `wait_for_quorum`. -/
def waitForQuorum (waitingHeader : BlockHeader) (threshold : Nat)
    (received : List VoteReceipt) (keypair : Keypair) : Collection :=
  let headerHash := waitingHeader.digest crypto
  let myVote := Vote.fromHeader crypto waitingHeader keypair
  collectVotes crypto headerHash threshold [myVote] received

end Collect

section Votes

variable (crypto : Crypto) (headerHash : Digest)

def Vote.isValid (vote : Vote) : Bool :=
  vote.verify crypto headerHash == some true

/-- A vote whose authority is no public key. -/
def Vote.isMalformed (vote : Vote) : Bool :=
  vote.verify crypto headerHash == none

def validVotes (votes : List Vote) : List Vote :=
  votes.filter (Vote.isValid crypto headerHash)

/-- The authorities other than the author with a valid vote. -/
def otherVoters (author : PublicKey) (votes : List Vote) :
    Finset PublicKey :=
  ((validVotes crypto headerHash votes).map Vote.authority).toFinset.erase
    author

/-- The votes up to the last one needed.  One is read in any case. -/
def readVotes (needed : Nat) : List Vote → List Vote
  | [] => []
  | vote :: rest =>
      let left :=
        if vote.isValid crypto headerHash then needed - 1 else needed
      if left = 0 then [vote] else vote :: readVotes left rest

end Votes

/-- What a collection of votes for a header promises. -/
structure CollectsQuorum (crypto : Crypto) (header : BlockHeader)
    (threshold : Nat) (keypair : Keypair)
    (received : List (ReceivedObject Vote)) : Prop where
  quorum : ∀ votes,
    waitForQuorum crypto header threshold (received.map .ok) keypair =
        .reached votes →
      threshold ≤ (votes.map Vote.authority).toFinset.card ∧
        (∀ vote ∈ votes,
          vote.verify crypto (header.digest crypto) = some true) ∧
        Vote.fromHeader crypto header keypair ∈ votes
  returns : threshold ≤ (otherVoters crypto (header.digest crypto)
        keypair.publicKey (received.map ReceivedObject.object)).card + 1 →
    ∃ votes, waitForQuorum crypto header threshold (received.map .ok)
      keypair = .reached votes

/-- What a keypair signs verifies under its public key. -/
def Keypair.SignsFor (keypair : Keypair) (crypto : Crypto) : Prop :=
  crypto.validKey keypair.publicKey = true ∧
    ∀ digest,
      crypto.verify keypair.publicKey digest (keypair.sign digest) = true

/-- The votes that are read are well formed, unless the quorum is out of reach;
the valid ones come from different authorities, none of them the author; and
some vote is read even if none is needed. -/
structure ReadsQuorum (crypto : Crypto) (header : BlockHeader)
    (threshold : Nat) (keypair : Keypair) (votes : List Vote) : Prop where
  some : threshold ≤ 1 → votes ≠ []
  wellFormed :
    (readVotes crypto (header.digest crypto) (threshold - 1) votes).any
        (Vote.isMalformed crypto (header.digest crypto)) = true →
      (otherVoters crypto (header.digest crypto) keypair.publicKey
        votes).card + 1 < threshold
  distinct :
    (readVotes crypto (header.digest crypto) (threshold - 1) votes).any
        (Vote.isMalformed crypto (header.digest crypto)) = false →
      2 ≤ threshold →
      threshold ≤ (validVotes crypto (header.digest crypto)
        (readVotes crypto (header.digest crypto) (threshold - 1)
          votes)).length + 1 →
      (keypair.publicKey :: (validVotes crypto (header.digest crypto)
        (readVotes crypto (header.digest crypto) (threshold - 1)
          votes)).map Vote.authority).Nodup

section Loop

variable {crypto : Crypto} {headerHash : Digest} {threshold : Nat}

theorem length_validVotes_readVotes_le {needed : Nat} (some : 1 ≤ needed)
    (votes : List Vote) :
    (validVotes crypto headerHash
      (readVotes crypto headerHash needed votes)).length ≤ needed := by
  induction votes generalizing needed with
  | nil => simp [readVotes, validVotes]
  | cons vote rest ih =>
      unfold readVotes
      by_cases valid : vote.isValid crypto headerHash = true
      · simp only [valid, if_true]
        by_cases last : needed - 1 = 0
        · simp [last, validVotes, valid, some]
        · have others := @ih (needed - 1) (by omega)
          unfold validVotes at others ⊢
          simp only [last, if_false, List.filter_cons, valid, if_true,
            List.length_cons]
          omega
      · have others := @ih needed some
        unfold validVotes at others ⊢
        simpa [valid, show needed ≠ 0 by omega] using others

theorem readVotes_eq_self {needed : Nat} {votes : List Vote}
    (few : (validVotes crypto headerHash
      (readVotes crypto headerHash needed votes)).length < needed) :
    readVotes crypto headerHash needed votes = votes := by
  induction votes generalizing needed with
  | nil => rfl
  | cons vote rest ih =>
      unfold readVotes at few ⊢
      by_cases valid : vote.isValid crypto headerHash = true
      · simp only [valid, if_true] at few ⊢
        by_cases last : needed - 1 = 0
        · simp only [last, if_true, validVotes, List.filter_cons, valid,
            List.filter_nil, List.length_singleton] at few
          omega
        · simp only [last, if_false, validVotes, List.filter_cons, valid,
            if_true, List.length_cons] at few ⊢
          rw [ih (by unfold validVotes; omega)]
      · by_cases none : needed = 0
        · omega
        · simp only [valid, none, if_false, validVotes, List.filter_cons,
            Bool.false_eq_true] at few ⊢
          rw [ih few]

theorem collectVotes_eq (votes : List Vote)
    (received : List (ReceivedObject Vote)) :
    collectVotes crypto headerHash threshold votes (received.map .ok) =
      let read := readVotes crypto headerHash (threshold - votes.length)
        (received.map ReceivedObject.object)
      let collected := votes ++ validVotes crypto headerHash read
      if read.any (Vote.isMalformed crypto headerHash) = true then
        .failed .invalidKey
      else if received = [] ∨ collected.length < threshold then
        .waiting collected
      else .reached collected := by
  induction received generalizing votes with
  | nil => simp [collectVotes, readVotes, validVotes]
  | cons vote rest ih =>
      simp only [List.map_cons, collectVotes, readVotes, reduceCtorEq,
        false_or]
      cases verified : vote.object.verify crypto headerHash with
      | none =>
          have malformed :
              vote.object.isMalformed crypto headerHash = true := by
            simp [Vote.isMalformed, verified]
          by_cases last : (if vote.object.isValid crypto headerHash = true
              then threshold - votes.length - 1
              else threshold - votes.length) = 0
          · simp [last, malformed]
          · simp [last, malformed]
      | some valid =>
          have formed :
              vote.object.isMalformed crypto headerHash = false := by
            simp [Vote.isMalformed, verified]
          cases valid with
          | true =>
              have counted :
                  vote.object.isValid crypto headerHash = true := by
                simp [Vote.isValid, verified]
              by_cases enough : threshold ≤ votes.length + 1
              · have last : threshold - votes.length - 1 = 0 := by omega
                simp [counted, last, formed, validVotes, enough]
              · have more : threshold - votes.length - 1 ≠ 0 := by omega
                have step := ih (votes ++ [vote.object])
                have left : threshold - (votes ++ [vote.object]).length =
                    threshold - votes.length - 1 := by
                  simp only [List.length_append, List.length_singleton]
                  omega
                have ended : rest = [] → (votes ++ [vote.object] ++
                    validVotes crypto headerHash (readVotes crypto headerHash
                      (threshold - votes.length - 1)
                      (rest.map ReceivedObject.object))).length <
                    threshold := by
                  rintro rfl
                  simp only [List.map_nil, readVotes, validVotes,
                    List.filter_nil, List.append_nil, List.length_append,
                    List.length_singleton]
                  omega
                rw [left] at step
                simp only [or_iff_right_of_imp ended] at step
                simpa [counted, more, formed, validVotes, enough] using step
          | false =>
              have uncounted :
                  vote.object.isValid crypto headerHash = false := by
                simp [Vote.isValid, verified]
              by_cases enough : threshold ≤ votes.length
              · have last : threshold - votes.length = 0 := by omega
                simp [uncounted, last, formed, validVotes, enough]
              · have more : threshold - votes.length ≠ 0 := by omega
                have step := ih votes
                have ended : rest = [] → (votes ++
                    validVotes crypto headerHash (readVotes crypto headerHash
                      (threshold - votes.length)
                      (rest.map ReceivedObject.object))).length <
                    threshold := by
                  rintro rfl
                  simp only [List.map_nil, readVotes, validVotes,
                    List.filter_nil, List.append_nil]
                  omega
                simp only [or_iff_right_of_imp ended] at step
                simpa [uncounted, more, formed, validVotes, enough] using step

end Loop

section Quorum

variable {crypto : Crypto} {header : BlockHeader} {threshold : Nat}
  {keypair : Keypair} {received : List (ReceivedObject Vote)}

theorem isValid_iff {headerHash : Digest} {vote : Vote} :
    vote.isValid crypto headerHash = true ↔
      vote.verify crypto headerHash = some true :=
  beq_iff_eq

private theorem card_otherVoters_le {headerHash : Digest} (author : PublicKey)
    (votes : List Vote) :
    (otherVoters crypto headerHash author votes).card ≤
      (validVotes crypto headerHash votes).length := by
  have distinct := List.toFinset_card_le
    ((validVotes crypto headerHash votes).map Vote.authority)
  rw [List.length_map] at distinct
  exact Finset.card_erase_le.trans distinct

theorem card_toFinset_eq_length_iff {keys : List PublicKey} :
    keys.length ≤ keys.toFinset.card ↔ keys.Nodup := by
  have bound := List.toFinset_card_le keys
  constructor
  · intro full
    have same : keys.toFinset.card = keys.length := by omega
    exact (Multiset.toFinset_card_eq_card_iff_nodup
      (m := (keys : Multiset PublicKey))).mp same
  · intro nodup
    exact (List.toFinset_card_of_nodup nodup).ge

/-- The node's own vote counts as one. -/
theorem fromHeader_verify (signs : keypair.SignsFor crypto) :
    (Vote.fromHeader crypto header keypair).verify crypto
      (header.digest crypto) = some true := by
  simp [Vote.verify, Vote.fromHeader, signs.1, signs.2]

theorem collectsQuorum_iff_of_not_reached
    (unreached : ∀ votes, waitForQuorum crypto header threshold
      (received.map .ok) keypair ≠ .reached votes) :
    CollectsQuorum crypto header threshold keypair received ↔
      (otherVoters crypto (header.digest crypto) keypair.publicKey
        (received.map ReceivedObject.object)).card + 1 < threshold := by
  constructor
  · intro collects
    by_contra enough
    obtain ⟨votes, reached⟩ := collects.returns (by omega)
    exact unreached votes reached
  · intro scarce
    constructor
    · exact fun votes reached => absurd reached (unreached votes)
    · intro enough
      omega

/-- A collection with a result is right when the votes are by different
authorities, or one vote is enough. -/
theorem collectsQuorum_iff_of_reached (signs : keypair.SignsFor crypto)
    {valid : List Vote}
    (verified : ∀ vote ∈ valid,
      vote.isValid crypto (header.digest crypto) = true)
    (few : valid.length ≤ threshold - 1 ∨ threshold ≤ 1)
    (enough : threshold ≤ valid.length + 1)
    (reached : waitForQuorum crypto header threshold (received.map .ok)
      keypair = .reached (Vote.fromHeader crypto header keypair :: valid)) :
    CollectsQuorum crypto header threshold keypair received ↔
      (2 ≤ threshold →
        (keypair.publicKey :: valid.map Vote.authority).Nodup) := by
  have authorities : (Vote.fromHeader crypto header keypair :: valid).map
      Vote.authority = keypair.publicKey :: valid.map Vote.authority := rfl
  constructor
  · intro collects several
    have distinct := (collects.quorum _ reached).1
    rw [authorities] at distinct
    apply card_toFinset_eq_length_iff.mp
    rw [List.length_cons, List.length_map]
    omega
  · intro distinct
    constructor
    · intro votes same
      rw [reached] at same
      cases same
      refine ⟨?_, ?_, List.mem_cons_self⟩
      · rw [authorities]
        by_cases several : 2 ≤ threshold
        · have counted :=
            card_toFinset_eq_length_iff.mpr (distinct several)
          rw [List.length_cons, List.length_map] at counted
          omega
        · have own : 1 ≤ (keypair.publicKey ::
              valid.map Vote.authority).toFinset.card :=
            Finset.card_pos.mpr ⟨keypair.publicKey, by simp⟩
          omega
      · intro vote member
        rcases List.mem_cons.mp member with rfl | member
        · exact fromHeader_verify signs
        · exact isValid_iff.mp (verified vote member)
    · exact fun _ => ⟨_, reached⟩

/-- A collection keeps its promise exactly when the votes that it reads make a
quorum. -/
theorem collectsQuorum_iff (signs : keypair.SignsFor crypto)
    (header : BlockHeader) (threshold : Nat)
    (received : List (ReceivedObject Vote)) :
    CollectsQuorum crypto header threshold keypair received ↔
      ReadsQuorum crypto header threshold keypair
        (received.map ReceivedObject.object) := by
  have outcome := @collectVotes_eq crypto (header.digest crypto) threshold
    [Vote.fromHeader crypto header keypair] received
  simp only [List.singleton_append, List.length_cons] at outcome
  change waitForQuorum crypto header threshold (received.map .ok) keypair =
    _ at outcome
  have others := @card_otherVoters_le crypto (header.digest crypto)
    keypair.publicKey (received.map ReceivedObject.object)
  have allRead := @readVotes_eq_self crypto (header.digest crypto)
    (threshold - 1) (received.map ReceivedObject.object)
  have bounded := @length_validVotes_readVotes_le crypto
    (header.digest crypto) (threshold - 1)
  generalize votesRead : readVotes crypto (header.digest crypto)
    (threshold - 1) (received.map ReceivedObject.object) = read
    at outcome allRead
  cases malformed : read.any
      (Vote.isMalformed crypto (header.digest crypto)) with
  | true =>
      rw [malformed, if_pos rfl] at outcome
      rw [collectsQuorum_iff_of_not_reached (by simp [outcome])]
      constructor
      · intro scarce
        constructor
        · intro small
          omega
        · exact fun _ => scarce
        · rw [votesRead, malformed]
          exact fun formed => by cases formed
      · intro reads
        exact reads.wellFormed (by rw [votesRead]; exact malformed)
  | false =>
      rw [malformed, if_neg Bool.false_ne_true] at outcome
      by_cases waits : received = [] ∨ (validVotes crypto
          (header.digest crypto) read).length + 1 < threshold
      · rw [if_pos waits] at outcome
        rw [collectsQuorum_iff_of_not_reached (by simp [outcome])]
        constructor
        · intro scarce
          constructor
          · intro small
            omega
          · rw [votesRead, malformed]
            exact fun ill => by cases ill
          · rw [votesRead]
            intro _ several enough
            rcases waits with rfl | few
            · rw [List.map_nil, readVotes] at votesRead
              rw [← votesRead] at enough
              simp only [validVotes, List.filter_nil,
                List.length_nil] at enough
              omega
            · omega
        · intro reads
          rcases waits with rfl | few
          · have several : ¬threshold ≤ 1 := fun small =>
              reads.some small rfl
            simp only [List.map_nil, validVotes, List.filter_nil,
              List.length_nil] at others
            rw [List.map_nil]
            omega
          · have short : (validVotes crypto (header.digest crypto)
                read).length < threshold - 1 := by
              omega
            rw [allRead short] at few
            omega
      · rw [if_neg waits] at outcome
        obtain ⟨some, enough⟩ := not_or.mp waits
        have few : (validVotes crypto (header.digest crypto) read).length ≤
            threshold - 1 ∨ threshold ≤ 1 := by
          by_cases small : threshold ≤ 1
          · exact .inr small
          · have bound := bounded (by omega)
              (received.map ReceivedObject.object)
            rw [votesRead] at bound
            exact .inl bound
        have verified : ∀ vote ∈ validVotes crypto (header.digest crypto) read,
            vote.isValid crypto (header.digest crypto) = true :=
          fun vote member => (List.mem_filter.mp member).2
        rw [collectsQuorum_iff_of_reached signs verified few (by omega)
          outcome]
        constructor
        · intro distinct
          constructor
          · exact fun _ => mt List.map_eq_nil_iff.mp some
          · rw [votesRead, malformed]
            exact fun ill => by cases ill
          · rw [votesRead]
            exact fun _ several _ => distinct several
        · intro reads several
          have distinct := reads.distinct
          rw [votesRead] at distinct
          exact distinct malformed several (by omega)

end Quorum

section Samples

open HeaderElector

/-- The key of seat 9 is malformed. -/
def strictCrypto : Crypto :=
  { sampleCrypto with validKey := fun key => key != Committee.seatKey 9 }

def votesFrom (places : List Nat) : List (ReceivedObject Vote) :=
  places.map fun place =>
    ⟨seatVote place (firstHeader.digest strictCrypto), []⟩

/-- A vote that comes twice makes up a quorum of three, and a malformed vote
stops the collection of one. -/
theorem quorum_not_collected :
    ¬CollectsQuorum strictCrypto firstHeader 3 (sampleKeypair 0)
        (votesFrom [1, 1]) ∧
      ¬CollectsQuorum strictCrypto firstHeader 3 (sampleKeypair 0)
        (votesFrom [9, 1, 2]) := by
  constructor
  · intro collects
    have quorum := collects.quorum
      (([0, 1, 1] : List Nat).map fun place =>
        seatVote place (firstHeader.digest strictCrypto)) (by decide +kernel)
    exact absurd quorum.1 (by decide +kernel)
  · intro collects
    obtain ⟨votes, reached⟩ := collects.returns (by decide +kernel)
    have stopped : waitForQuorum strictCrypto firstHeader 3
        ((votesFrom [9, 1, 2]).map .ok) (sampleKeypair 0) =
          .failed .invalidKey := by
      decide +kernel
    rw [stopped] at reached
    cases reached

private theorem sampleKeypair_signs : (sampleKeypair 0).SignsFor strictCrypto :=
  ⟨by decide +kernel, fun _ => decide_eq_true rfl⟩

theorem quorum_collected :
    CollectsQuorum strictCrypto firstHeader 3 (sampleKeypair 0)
      (votesFrom [1, 2, 9]) := by
  refine (collectsQuorum_iff sampleKeypair_signs _ _ _).mpr ⟨?_, ?_, ?_⟩
  · decide +kernel
  · decide +kernel
  · decide +kernel

end Samples

end Calf
