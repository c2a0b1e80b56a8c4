import Igra.Calf.CausalHistory
import Igra.Calf.HeaderContents

/-!
# What a vote of a primary promises

The elector votes for a header when the database has the digests and the
parents that it names.  What the database has, it keeps; and what is stored as
a certificate is in the graph, with all that is below it.  The certificates of
the graph carry enough valid votes, those that the node built itself included.
-/

open Rust Runs

namespace Calf

section Votes

namespace HeaderElector

variable {header : BlockHeader} {sender : PeerId} {database : Database}

private theorem missingFrom_eq_empty {column : Column} {ids : List Digest} :
    missingFrom database column ids = ∅ ↔
      ∀ id ∈ ids, database column (Hex.encode id.bytes) = true := by
  simp [missingFrom, Finset.eq_empty_iff_forall_notMem]

theorem processHeader_isOk :
    (processHeader header sender database).isOk = true ↔
      (∀ digest ∈ header.digests,
        database .digests (Hex.encode digest.bytes) = true) ∧
      ∀ parent ∈ header.certificatesIds,
        database .certificates (Hex.encode parent.bytes) = true := by
  rw [← missingFrom_eq_empty, ← missingFrom_eq_empty, and_comm]
  unfold processHeader
  dsimp only
  split
  · rename_i complete
    simp [Except.isOk, Except.toBool, complete]
  · rename_i incomplete
    simp [Except.isOk, Except.toBool, incomplete]

end HeaderElector

/-- The votes of a collection that succeeds are as many as are needed, and
each was there before or verifies. -/
theorem collectVotes_reached {crypto : Crypto} {headerHash : Digest}
    {threshold : Nat} {votes result : List Vote}
    {receipts : List VoteReceipt}
    (reached : collectVotes crypto headerHash threshold votes receipts =
      .reached result) :
    threshold ≤ result.length ∧
      ∀ vote ∈ result, vote ∈ votes ∨
        vote.verify crypto headerHash = some true := by
  induction receipts generalizing votes with
  | nil => cases reached
  | cons receipt rest ih =>
      cases receipt with
      | error error => cases reached
      | ok received =>
          simp only [collectVotes] at reached
          cases verified : received.object.verify crypto headerHash with
          | none =>
              rw [verified] at reached
              cases reached
          | some valid =>
              rw [verified] at reached
              dsimp only at reached
              generalize counted : (if valid = true then
                votes ++ [received.object] else votes) = more at reached
              have added : ∀ vote ∈ more, vote ∈ votes ∨
                  vote.verify crypto headerHash = some true := by
                intro vote member
                rw [← counted] at member
                split at member
                · rename_i isValid
                  rcases List.mem_append.mp member with old | new
                  · exact .inl old
                  · rw [List.mem_singleton.mp new, verified, isValid]
                    exact .inr rfl
                · exact .inl member
              split at reached
              · rename_i enough
                cases reached
                exact ⟨enough, added⟩
              · obtain ⟨enough, collected⟩ := ih reached
                refine ⟨enough, ?_⟩
                intro vote member
                rcases collected vote member with old | valid
                · exact added vote old
                · exact .inr valid

namespace HeaderBuilder

/-- The certificates of a builder pass the check that its peers make. -/
theorem verifyVotes_of_reached {config : Config} {header : BlockHeader}
    {receipts : List VoteReceipt} {votes : List Vote}
    (signs : config.keypair.SignsFor config.crypto)
    (reached : waitForQuorum config.crypto header config.committee.quorum
      receipts config.keypair = .reached votes) :
    (Certificate.ofHeader config.crypto header.round config.keypair.publicKey
      votes header).verifyVotes config.crypto config.committee = .ok () := by
  obtain ⟨enough, collected⟩ := collectVotes_reached reached
  apply Certificate.verifyVotes_eq_ok.mpr
  refine ⟨enough, ?_⟩
  intro vote member
  rcases collected vote member with own | valid
  · rw [List.mem_singleton.mp own]
    exact fromHeader_verify signs
  · exact valid

end HeaderBuilder

end Votes

section Stored

namespace DagProcessor

variable {crypto : Crypto} {committee : Committee} {initial state next : State}
  {event : Event} {events : List Event}

theorem receive_stored {received : State}
    (taken : receive crypto committee state event = some received) :
    (received.stored = state.stored ∧ received.dag = state.dag) ∨
      (enoughParents committee event.certificate = true ∧
        received.stored = state.stored.insert
          (event.certificate.idAsHex crypto) event.certificate ∧
        received.dag = (state.dag.insert
          (vertexOf crypto event.certificate)).1) := by
  cases event with
  | own certificate =>
      simp only [receive, receiveOwn] at taken
      split at taken
      · cases taken
      · rename_i enough
        cases found :
          state.dag.checkParents (vertexOf crypto certificate) with
        | ok _ =>
            rw [Dag.insertChecked_of_ok found] at taken
            simp only [Dag.insert, found] at taken
            cases taken
            exact .inr ⟨by simpa [Event.certificate] using enough, rfl, rfl⟩
        | error error =>
            simp only [Dag.insertChecked, found] at taken
            cases taken
            exact .inl ⟨rfl, rfl⟩
  | peer peerReceived =>
      simp only [receive, receivePeer] at taken
      cases verdict : judge crypto committee state.dag peerReceived.object with
      | notEnoughParents => simp [verdict] at taken
      | invalidVotes error => simp [verdict] at taken
      | accepted =>
          simp only [verdict, Option.some.injEq] at taken
          subst taken
          exact .inr ⟨(judge_eq_accepted.mp verdict).1, rfl, rfl⟩
      | orphan parents =>
          simp only [verdict, Option.some.injEq] at taken
          subst taken
          exact .inl ⟨rfl, rfl⟩

theorem Step.stored_cases
    (step : Step crypto committee state event next) :
    (next.stored = state.stored ∧ next.dag = state.dag) ∨
      (enoughParents committee event.certificate = true ∧
        next.stored = state.stored.insert
          (event.certificate.idAsHex crypto) event.certificate ∧
        next.dag = (state.dag.insert
          (vertexOf crypto event.certificate)).1) := by
  unfold Step handle at step
  split at step
  · cases step
    exact .inl ⟨rfl, rfl⟩
  · rename_i middle taken
    have stored := receive_stored taken
    rcases completeRound_cases step with rfl | ⟨_, _, _, rfl⟩
    · exact stored
    · exact stored

theorem Step.stored_mono (step : Step crypto committee state event next)
    {key : String} (member : key ∈ state.stored) : key ∈ next.stored := by
  rcases step.stored_cases with ⟨same, _⟩ | ⟨_, grown, _⟩
  · rw [same]
    exact member
  · rw [grown]
    exact AList.mem_insert _ |>.mpr (.inr member)

/-- What is stored is in the graph. -/
def StoredInGraph (state : State) : Prop :=
  ∀ key ∈ state.stored, key ∈ state.dag.vertices

theorem StoredInGraph.step (stored : StoredInGraph state)
    (step : Step crypto committee state event next) :
    StoredInGraph next := by
  rcases step.stored_cases with ⟨same, graph⟩ | ⟨enough, grown, graph⟩
  · unfold StoredInGraph
    rw [same, graph]
    exact stored
  · obtain ⟨derived, isDerived⟩ := exists_derived_of_enoughParents enough
    have named : event.certificate.idAsHex crypto =
        (vertexOf crypto event.certificate).id := by
      rw [isDerived]
      rfl
    intro key member
    rw [grown] at member
    rw [graph]
    rcases AList.mem_insert _ |>.mp member with same | old
    · exact AList.mem_insert _ |>.mpr (.inl (same.trans named))
    · exact AList.mem_insert _ |>.mpr (.inr (stored key old))

end DagProcessor

end Stored

section Promises

namespace Primary

variable {config : Config} {initial state next : State} {event : Event}
  {events : List Event} {header : BlockHeader}

/-- The primary has what the header names, and the parents are of a round that
was published, all but one of a quorum of its certificates at least. -/
structure Backs (config : Config) (state : State) (header : BlockHeader) :
    Prop where
  digests : ∀ digest ∈ header.digests,
    Hex.encode digest.bytes ∈ state.digests
  parents : ∀ parent ∈ header.certificatesIds,
    Hex.encode parent.bytes ∈ state.processor.stored
  round : ∃ certificates,
    (header.round, certificates) ∈ state.processor.published ∧
      (2 ≤ header.round → config.committee.quorum - 1 ≤
        (HeaderElector.namedParents config.crypto certificates header).card)

/-- The elector sees the round that was published last. -/
def ShowsLast (state : State) : Prop :=
  (state.elector.round, state.elector.certificates) =
    shownRound state.processor.published

/-- What the elector has voted for is backed. -/
structure Voted (config : Config) (state : State) : Prop where
  shows : ShowsLast state
  backed : ∀ sent ∈ state.elector.sent,
    sent.vote = .fromHeader config.crypto sent.header config.validatorKeypair ∧
      Backs config state sent.header

theorem Backs.mono (backs : Backs config state header)
    (digests : ∀ key ∈ state.digests, key ∈ next.digests)
    (stored : ∀ key ∈ state.processor.stored, key ∈ next.processor.stored)
    (published :
      state.processor.published ⊆ next.processor.published) :
    Backs config next header where
  digests digest member := digests _ (backs.digests digest member)
  parents parent member := stored _ (backs.parents parent member)
  round := by
    obtain ⟨certificates, member, counted⟩ := backs.round
    exact ⟨certificates, published member, counted⟩

theorem backs_of_approves {received : ReceivedObject BlockHeader}
    {potentialParents : List CertificateId}
    (counts : DagProcessor.CountsRounds state.processor)
    (shows : ShowsLast state) (distinct : potentialParents.Nodup)
    (iterated : potentialParents.toFinset =
      state.elector.certificates.image (Certificate.id config.crypto))
    (approved : HeaderElector.approves config.committee state.elector received
      (database state) potentialParents = true) :
    Backs config state received.object := by
  obtain ⟨round, processed, verified⟩ :=
    HeaderElector.approves_eq_true.mp approved
  obtain ⟨digests, parents⟩ := HeaderElector.processHeader_isOk.mp processed
  refine ⟨?_, ?_, state.elector.certificates, ?_, ?_⟩
  · intro digest member
    exact of_decide_eq_true (digests digest member)
  · intro parent member
    exact of_decide_eq_true (parents parent member)
  · rw [round, show (state.elector.round, state.elector.certificates) = _ from
      shows]
    exact (shownRound_of_countsRounds counts).1
  · intro later
    exact HeaderElector.quorum_sub_one_le_of_verified distinct iterated later
      verified

theorem Voted.mono (voted : Voted config state)
    (sent : next.elector.sent = state.elector.sent) (shows : ShowsLast next)
    (digests : ∀ key ∈ state.digests, key ∈ next.digests)
    (stored : ∀ key ∈ state.processor.stored, key ∈ next.processor.stored)
    (published :
      state.processor.published ⊆ next.processor.published) :
    Voted config next where
  shows := shows
  backed := by
    rw [sent]
    intro vote member
    obtain ⟨signed, backs⟩ := voted.backed vote member
    exact ⟨signed, backs.mono digests stored published⟩

theorem Voted.step (voted : Voted config state)
    (counts : DagProcessor.CountsRounds state.processor)
    (taken : Step config state event next) : Voted config next := by
  cases taken with
  | own sent taken =>
      exact voted.mono rfl rfl (fun _ member => member)
        (fun _ => taken.stored_mono) (published_subset_of_step taken).subset
  | peer taken =>
      exact voted.mono rfl rfl (fun _ member => member)
        (fun _ => taken.stored_mono) (published_subset_of_step taken).subset
  | @header received potentialParents distinct iterated =>
      unfold HeaderElector.elect
      split
      · rename_i approved
        refine ⟨voted.shows, ?_⟩
        intro vote member
        rcases List.mem_append.mp member with old | new
        · obtain ⟨signed, backs⟩ := voted.backed vote old
          exact ⟨signed, backs.digests, backs.parents, backs.round⟩
        · rw [List.mem_singleton.mp new]
          have backs := backs_of_approves counts voted.shows distinct iterated
            approved
          exact ⟨rfl, backs.digests, backs.parents, backs.round⟩
      · exact voted
  | digest taken =>
      obtain ⟨_, rfl, _⟩ := receiveDigest_eq_ok taken
      exact voted.mono rfl voted.shows
        (fun _ member => AList.mem_insert _ |>.mpr (.inr member))
        (fun _ member => member) (List.Subset.refl _)
  | builder taken =>
      obtain ⟨_, _, rfl, _⟩ := performBuilder_eq_some taken
      exact voted.mono rfl voted.shows (fun _ member => member)
        (fun _ member => member) (List.Subset.refl _)

/-- The certificates of the builder, and those of the graph, pass the check
of their votes. -/
structure Verified (config : Config) (state : State) : Prop where
  built : ∀ certificate ∈ state.builder.certificates,
    certificate.verifyVotes config.crypto config.committee = .ok ()
  inserted : ∀ id vertex,
    state.processor.dag.vertices.lookup id = some vertex →
      vertex.data.verifyVotes config.crypto config.committee = .ok ()

theorem Verified.processor (verified : Verified config state)
    {event : DagProcessor.Event} {processor : DagProcessor.State}
    {elector : HeaderElector.State}
    (own : ∀ certificate, event = .own certificate →
      certificate ∈ state.builder.certificates)
    (taken : DagProcessor.Step config.crypto config.committee state.processor
      event processor) :
    Verified config { state with processor, elector } := by
  refine ⟨verified.built, ?_⟩
  show ∀ id vertex, processor.dag.vertices.lookup id = some vertex → _
  rcases taken.dag_cases with ⟨_, same⟩ | ⟨inserts, grown⟩
  · rw [same]
    exact verified.inserted
  · rw [grown]
    intro id vertex found
    rw [Dag.lookup_insert] at found
    split at found
    · cases found
      cases event with
      | own certificate => exact verified.built _ (own certificate rfl)
      | peer received =>
          exact (DagProcessor.judge_eq_accepted.mp inserts).2.1
    · exact verified.inserted id vertex found

theorem Verified.step (verified : Verified config state)
    (signs : config.keypair.SignsFor config.crypto)
    (taken : Step config state event next) : Verified config next := by
  cases taken with
  | own sent taken =>
      refine verified.processor ?_ taken
      rintro _ ⟨⟩
      exact sent
  | peer taken =>
      refine verified.processor ?_ taken
      rintro _ ⟨⟩
  | header distinct iterated => exact ⟨verified.built, verified.inserted⟩
  | digest taken =>
      obtain ⟨_, rfl, _⟩ := receiveDigest_eq_ok taken
      exact ⟨verified.built, verified.inserted⟩
  | builder taken =>
      obtain ⟨_, _, rfl, advances, _⟩ := performBuilder_eq_some taken
      refine ⟨?_, verified.inserted⟩
      cases advances with
      | certify found reached =>
          intro certificate member
          rcases List.mem_append.mp member with old | new
          · exact verified.built certificate old
          · rw [List.mem_singleton.mp new]
            exact @HeaderBuilder.verifyVotes_of_reached config.builder _ _ _
              signs reached
      | _ => exact verified.built

end Primary

end Promises

end Calf
