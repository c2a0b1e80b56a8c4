import Igra.Calf.DagRuns
import Igra.Calf.HeaderElector

/-!
# The elector and the graph

The elector counts the parents of a header that it finds in the published
round, and one less than the quorum is enough for it.  The DAG processor counts
the parents that the certificate names, whatever they are, and then wants all
of them in the layer below.  What the first accepts is accepted by the second
only if the header names nothing else, and not exactly one parent too few.
-/

open Rust

namespace Calf

namespace HeaderElector

open DagProcessor (genesis enoughParents)

variable {crypto : Crypto} {committee : Committee}
  {initial processor : DagProcessor.State} {elector : State}
  {events : List DagProcessor.Event} {header : BlockHeader}
  {certificates : Finset Certificate}

section Views

/-- The distinct parents of the header among the certificates. -/
def namedParents (crypto : Crypto) (certificates : Finset Certificate)
    (header : BlockHeader) : Finset CertificateId :=
  header.certificatesIds.toFinset.filter
    (· ∈ certificates.image (Certificate.id crypto))

/-- The elector sees a published round whose certificates are the layer below
it. -/
structure SharesView (processor : DagProcessor.State) (elector : State) :
    Prop where
  published : (elector.round, elector.certificates) ∈ processor.published
  layerBelow : elector.certificates =
    processor.dag.layerData (elector.round - 1)

/-- What a vote for the header should say about its parents. -/
structure Supported (crypto : Crypto) (committee : Committee)
    (processor : DagProcessor.State) (elector : State)
    (header : BlockHeader) : Prop where
  quorumOfParents : 2 ≤ header.round →
    committee.quorum ≤
      (namedParents crypto elector.certificates header).card
  genesisParent : header.round = 1 →
    genesis.id crypto ∈ namedParents crypto elector.certificates header
  accepted : ∀ author votes,
    let certificate :=
      Certificate.ofHeader crypto header.round author votes header
    enoughParents committee certificate = true ∧
      processor.dag.checkParents (vertexOf crypto certificate) = .ok ()

/-- The header names only certificates of the published round and, after the
first round, not exactly one less than the quorum. -/
def NamesRound (crypto : Crypto) (committee : Committee)
    (certificates : Finset Certificate) (header : BlockHeader) : Prop :=
  (∀ parent ∈ header.certificatesIds,
      parent ∈ certificates.image (Certificate.id crypto)) ∧
    (2 ≤ header.round →
      (namedParents crypto certificates header).card ≠ committee.quorum - 1)

theorem approves_eq_true {received : ReceivedObject BlockHeader}
    {database : Database} {potentialParents : List CertificateId} :
    approves committee elector received database potentialParents = true ↔
      received.object.round = elector.round ∧
        (processHeader received.object received.sender database).isOk ∧
        (received.object.verifyParents potentialParents
          committee.quorum).isOk := by
  simp [approves, and_assoc]

theorem length_common {potentialParents : List CertificateId}
    (distinct : potentialParents.Nodup)
    (fromRound : potentialParents.toFinset =
      certificates.image (Certificate.id crypto)) :
    (potentialParents.filter fun parent =>
      decide (parent ∈ header.certificatesIds)).length =
        (namedParents crypto certificates header).card := by
  rw [← List.toFinset_card_of_nodup (distinct.filter _), namedParents,
    ← fromRound]
  congr 1
  ext parent
  simp [and_comm]

theorem quorum_sub_one_le_of_verified {potentialParents : List CertificateId}
    (distinct : potentialParents.Nodup)
    (fromRound : potentialParents.toFinset =
      certificates.image (Certificate.id crypto))
    (later : 2 ≤ header.round)
    (verified :
      (header.verifyParents potentialParents committee.quorum).isOk) :
    committee.quorum - 1 ≤ (namedParents crypto certificates header).card := by
  have notFirst : header.round ≠ 1 := by
    intro first
    rw [first] at later
    exact absurd later (by decide)
  rw [← length_common distinct fromRound]
  unfold BlockHeader.verifyParents at verified
  rw [if_neg notFirst] at verified
  dsimp only at verified
  split at verified
  · assumption
  · cases verified

theorem first_mem_of_verified {potentialParents : List CertificateId}
    (first : header.round = 1)
    (verified :
      (header.verifyParents potentialParents committee.quorum).isOk) :
    ∃ parent ∈ potentialParents, parent ∈ header.certificatesIds := by
  unfold BlockHeader.verifyParents at verified
  rw [if_pos first] at verified
  cases potentialParents with
  | nil => cases verified
  | cons potentialParent _ =>
      cases named : header.certificatesIds with
      | nil =>
          rw [named] at verified
          cases verified
      | cons parent _ =>
          rw [named] at verified
          dsimp only at verified
          split at verified
          · rename_i same
            rw [same]
            exact ⟨potentialParent, List.mem_cons_self, List.mem_cons_self⟩
          · cases verified

end Views

section Graph

theorem genesis_published_of_run
    (started : DagProcessor.start crypto = .ok initial)
    (run : Runs.Run (DagProcessor.Step crypto committee) initial events
      processor) : (1, {genesis}) ∈ processor.published := by
  induction run with
  | start =>
      rw [(DagProcessor.start_eq_ok started).2.2]
      exact List.mem_singleton_self _
  | extend _ step kept =>
      rcases step.published_cases with ⟨_, same⟩ | ⟨_, _, grown⟩
      · rw [same]
        exact kept
      · rw [grown]
        exact List.mem_append_left _ kept

/-- Rounds are published once, from 1 on. -/
theorem published_of_run
    (started : DagProcessor.start crypto = .ok initial)
    (run : Runs.Run (DagProcessor.Step crypto committee) initial events
      processor) {round : Round}
    (published : (round, certificates) ∈ processor.published) :
    round ≠ 0 ∧ (round = 1 → certificates = {genesis}) := by
  have counts := DagProcessor.countsRounds_of_run started run.restrict_true
  have listed : round.toNat ∈ List.range' 1 processor.published.length := by
    rw [← counts.rounds]
    exact List.mem_map_of_mem published
  constructor
  · rintro rfl
    have above := (List.mem_range'_1.mp listed).1
    exact absurd above (by decide)
  · rintro rfl
    have distinct : (processor.published.map fun entry =>
        entry.1.toNat).Nodup := by
      rw [counts.rounds]
      exact List.nodup_range'
    have same := List.inj_on_of_nodup_map distinct published
      (genesis_published_of_run started run) rfl
    exact (Prod.mk.inj same).2

/-- The ids of a layer are those of its certificates. -/
theorem mem_ids_of_run (started : DagProcessor.start crypto = .ok initial)
    (run : Runs.Run (DagProcessor.Step crypto committee) initial events
      processor)
    (collisionFree : DagProcessor.CollisionFree crypto events)
    {layer : UInt64} {id : CertificateId} :
    Hex.encode id.bytes ∈ processor.dag.ids layer ↔
      id ∈ (processor.dag.layerData layer).image (Certificate.id crypto) := by
  have reached := DagProcessor.graph_of_run
    (fun dag => ∀ id vertex, dag.vertices.lookup id = some vertex →
      vertex.data.digest crypto = vertex.data.id crypto)
    started run.restrict_true collisionFree ?_ ?_
  · obtain ⟨made, identified⟩ := reached
    have atId {text : String} {vertex : Vertex Certificate}
        (found : processor.dag.vertices.lookup text = some vertex) :
        text = Hex.encode (vertex.data.id crypto).bytes := by
      rw [← identified text vertex found]
      exact made.id_eq found
    rw [Finset.mem_image]
    constructor
    · intro inLayer
      obtain ⟨vertex, found, _⟩ := (made.layered.listed _ _).mp inLayer
      refine ⟨vertex.data, Dag.mem_layerData.mpr
        ⟨_, inLayer, vertex, found, rfl⟩, ?_⟩
      exact (FixedBytes.ext (Hex.encode_injective (atId found))).symm
    · rintro ⟨certificate, inLayer, rfl⟩
      obtain ⟨text, listed, vertex, found, rfl⟩ :=
        Dag.mem_layerData.mp inLayer
      rw [← atId found]
      exact listed
  · intro text vertex found
    have made := (DagProcessor.madeFrom_start started).made text vertex found
    rw [List.mem_singleton.mp made.2]
    rfl
  · intro _ state event _ _ identified _ inserts text vertex found
    rw [Dag.lookup_insert] at found
    split at found
    · cases found
      obtain ⟨certificate, isDerived⟩ :=
        DagProcessor.exists_derived_of_enoughParents inserts.enoughParents
      show event.certificate.digest crypto = event.certificate.id crypto
      rw [isDerived]
      rfl
    · exact identified text vertex found

theorem accepts_ofHeader_iff
    (started : DagProcessor.start crypto = .ok initial)
    (run : Runs.Run (DagProcessor.Step crypto committee) initial events
      processor)
    (collisionFree : DagProcessor.CollisionFree crypto events)
    (above : header.round ≠ 0) (author : PublicKey) (votes : List Vote) :
    processor.dag.checkParents (vertexOf crypto
        (Certificate.ofHeader crypto header.round author votes header)) =
          .ok () ↔
      header.round - 1 ∈ processor.dag.verticesByLayers ∧
        ∀ parent ∈ header.certificatesIds,
          parent ∈ (processor.dag.layerData (header.round - 1)).image
            (Certificate.id crypto) := by
  have layer : (vertexOf crypto (Certificate.ofHeader crypto header.round
      author votes header)).layer = header.round := rfl
  have parents : (vertexOf crypto (Certificate.ofHeader crypto header.round
      author votes header)).parents =
        (header.certificatesIds.map fun parent =>
          Hex.encode parent.bytes).toFinset := rfl
  rw [Dag.checkParents_eq_ok, layer, parents]
  simp only [above, false_or]
  apply and_congr_right
  intro _
  constructor
  · intro contained parent named
    rw [← mem_ids_of_run started run collisionFree]
    apply contained
    rw [List.mem_toFinset]
    exact List.mem_map_of_mem named
  · intro among text member
    obtain ⟨parent, named, rfl⟩ :=
      List.mem_map.mp (List.mem_toFinset.mp member)
    rw [mem_ids_of_run started run collisionFree]
    exact among parent named

end Graph

section Agreement

private theorem layer_mem_of_named {layer : UInt64} {parent : CertificateId}
    (named : parent ∈ (processor.dag.layerData layer).image
      (Certificate.id crypto)) :
    layer ∈ processor.dag.verticesByLayers := by
  obtain ⟨certificate, stored, _⟩ := Finset.mem_image.mp named
  obtain ⟨id, listed, _⟩ := Dag.mem_layerData.mp stored
  exact Dag.layer_mem_of_mem_ids listed

private theorem two_le_of_ne {round : Round} (above : round ≠ 0)
    (later : round ≠ 1) : 2 ≤ round := by
  rw [UInt64.le_iff_toNat_le]
  have notZero : round.toNat ≠ 0 := fun zero => above (UInt64.toNat.inj zero)
  have notOne : round.toNat ≠ 1 := fun one => later (UInt64.toNat.inj one)
  have two : (2 : UInt64).toNat = 2 := rfl
  omega

/-- The certificate of a header that names the genesis, or a quorum of distinct
parents, has enough of them. -/
theorem enoughParents_ofHeader
    (enough : header.round ≠ 1 → committee.quorum ≤
      (namedParents crypto certificates header).card)
    (author : PublicKey) (votes : List Vote) :
    enoughParents committee
      (Certificate.ofHeader crypto header.round author votes header) =
        true := by
  by_cases first : header.round = 1
  · simp [enoughParents, Certificate.ofHeader, Certificate.round, first]
  · have counted : (namedParents crypto certificates header).card ≤
        header.certificatesIds.length :=
      (Finset.card_le_card (Finset.filter_subset _ _)).trans
        (List.toFinset_card_le _)
    have longEnough := (enough first).trans counted
    simp [enoughParents, Certificate.ofHeader, Certificate.parentsNumber,
      longEnough]

/-- A header that passes the elector's check and names certificates of the
round only, not one less than the quorum. -/
theorem supported_of_namesRound
    (started : DagProcessor.start crypto = .ok initial)
    (run : Runs.Run (DagProcessor.Step crypto committee) initial events
      processor)
    (collisionFree : DagProcessor.CollisionFree crypto events)
    (shares : SharesView processor elector)
    (round : header.round = elector.round)
    {potentialParents : List CertificateId}
    (distinct : potentialParents.Nodup)
    (fromRound : potentialParents.toFinset =
      elector.certificates.image (Certificate.id crypto))
    (verified :
      (header.verifyParents potentialParents committee.quorum).isOk)
    (names : NamesRound crypto committee elector.certificates header) :
    Supported crypto committee processor elector header := by
  obtain ⟨above, genesisOnly⟩ :=
    published_of_run started run shares.published
  rw [← round] at above genesisOnly
  have sameLayer : elector.certificates =
      processor.dag.layerData (header.round - 1) := by
    rw [round]
    exact shares.layerBelow
  have accepts := @accepts_ofHeader_iff _ _ _ _ _ header started run
    collisionFree above
  rw [← sameLayer] at accepts
  by_cases first : header.round = 1
  · have notLater : ¬2 ≤ header.round := by
      rw [first]
      decide
    obtain ⟨parent, potential, named⟩ := first_mem_of_verified first verified
    rw [← List.mem_toFinset, fromRound] at potential
    have layer := potential
    rw [sameLayer] at layer
    refine ⟨fun later => absurd later notLater, fun _ => ?_,
      fun author votes => ⟨@enoughParents_ofHeader _ _ _
        elector.certificates (fun other => absurd first other) author votes,
        (accepts author votes).mpr ⟨layer_mem_of_named layer, names.1⟩⟩⟩
    rw [namedParents, Finset.mem_filter, List.mem_toFinset]
    rw [genesisOnly first, Finset.image_singleton] at potential ⊢
    rw [← Finset.mem_singleton.mp potential]
    exact ⟨named, Finset.mem_singleton_self _⟩
  · have later := two_le_of_ne above first
    have counted :=
      quorum_sub_one_le_of_verified distinct fromRound later verified
    have notOneLess := names.2 later
    have threshold := @Committee.one_le_quorum committee
    have enough : committee.quorum ≤
        (namedParents crypto elector.certificates header).card := by
      omega
    obtain ⟨parent, member⟩ := Finset.card_pos.mp
      (lt_of_lt_of_le threshold enough)
    have layer := (Finset.mem_filter.mp member).2
    rw [sameLayer] at layer
    exact ⟨fun _ => enough, fun is => absurd is first,
      fun author votes => ⟨enoughParents_ofHeader (fun _ => enough) author
        votes, (accepts author votes).mpr
          ⟨layer_mem_of_named layer, names.1⟩⟩⟩

/-- A vote for a header means what it should exactly when the header names
certificates of the round only, and not one less than the quorum of them. -/
theorem approval_supported_iff
    (started : DagProcessor.start crypto = .ok initial)
    (run : Runs.Run (DagProcessor.Step crypto committee) initial events
      processor)
    (collisionFree : DagProcessor.CollisionFree crypto events)
    (shares : SharesView processor elector)
    (received : ReceivedObject BlockHeader) (database : Database)
    {potentialParents : List CertificateId}
    (distinct : potentialParents.Nodup)
    (fromRound : potentialParents.toFinset =
      elector.certificates.image (Certificate.id crypto)) :
    (approves committee elector received database potentialParents = true →
        Supported crypto committee processor elector received.object) ↔
      ¬(received.object.round = elector.round ∧
          (processHeader received.object received.sender database).isOk ∧
          (received.object.verifyParents potentialParents
            committee.quorum).isOk) ∨
        NamesRound crypto committee elector.certificates received.object := by
  rw [approves_eq_true]
  by_cases passes : received.object.round = elector.round ∧
      (processHeader received.object received.sender database).isOk ∧
      (received.object.verifyParents potentialParents
        committee.quorum).isOk
  · obtain ⟨round, processed, verified⟩ := passes
    have above := (published_of_run started run shares.published).1
    have threshold := @Committee.one_le_quorum committee
    simp only [round, processed, verified, and_self, not_true_eq_false,
      false_or, true_implies]
    constructor
    · intro supported
      obtain ⟨_, found⟩ := supported.accepted received.object.author []
      rw [accepts_ofHeader_iff started run collisionFree
        (by rw [round]; exact above), round, ← shares.layerBelow] at found
      refine ⟨found.2, ?_⟩
      intro later
      have enough := supported.quorumOfParents later
      omega
    · exact supported_of_namesRound started run collisionFree shares round
        distinct fromRound verified
  · simp only [passes, not_false_eq_true, true_or, iff_true]
    exact False.elim

/-- The certificates of the first round of `DagProcessor.twoRounds`. -/
def firstCertificates : List Certificate := DagProcessor.twoRounds.take 3

/-- The elector when they are published. -/
def atSecondRound : State :=
  { start with round := 2, certificates := firstCertificates.toFinset }

/-- A header of round 2 over some of them. -/
def secondHeader (parents : List Certificate) : BlockHeader :=
  ⟨Committee.seatKey 0, 2, 0, [],
    parents.map (Certificate.id sampleCrypto)⟩

theorem atSecondRound_shares_view :
    ∃ initial processor,
      DagProcessor.start sampleCrypto = .ok initial ∧
      Runs.Run (DagProcessor.Step sampleCrypto (.ofSize 4)) initial
        (firstCertificates.map DagProcessor.fromPeer) processor ∧
      DagProcessor.CollisionFree sampleCrypto
        (firstCertificates.map DagProcessor.fromPeer) ∧
      SharesView processor atSecondRound := by
  have performed : (DagProcessor.start sampleCrypto).Returns fun initial =>
      ((firstCertificates.map DagProcessor.fromPeer).foldlM
        (DagProcessor.handle sampleCrypto (.ofSize 4))
        initial).Returns fun processor =>
      (atSecondRound.round, atSecondRound.certificates) ∈
          processor.published ∧
        atSecondRound.certificates = processor.dag.layerData 1 := by
    decide +kernel
  obtain ⟨initial, started, processor, folded, published, layer⟩ := performed
  have run := Runs.Run.of_foldlM (fun _ _ => True) folded
    fun _ _ _ => trivial
  have fewer : firstCertificates.map DagProcessor.fromPeer ⊆
      DagProcessor.twoRounds.map DagProcessor.fromPeer :=
    List.map_subset _ (List.take_subset _ _)
  exact ⟨initial, processor, started, run.unrestrict,
    DagProcessor.twoRounds_collisionFree.mono fewer, published, layer⟩

/-- Of four authorities three are a quorum, and the elector approves a header
with two parents, whose certificate the processor turns away. -/
theorem twoParents_approved_unsupported :
    ∃ initial processor,
      DagProcessor.start sampleCrypto = .ok initial ∧
      Runs.Run (DagProcessor.Step sampleCrypto (.ofSize 4)) initial
        (firstCertificates.map DagProcessor.fromPeer) processor ∧
      DagProcessor.CollisionFree sampleCrypto
        (firstCertificates.map DagProcessor.fromPeer) ∧
      SharesView processor atSecondRound ∧
      approves (.ofSize 4) atSecondRound
        ⟨secondHeader (firstCertificates.take 2), []⟩ (fun _ _ => true)
        (firstCertificates.map (Certificate.id sampleCrypto)) = true ∧
      ¬Supported sampleCrypto (.ofSize 4) processor atSecondRound
        (secondHeader (firstCertificates.take 2)) := by
  obtain ⟨initial, processor, started, run, collisionFree, shares⟩ :=
    atSecondRound_shares_view
  refine ⟨initial, processor, started, run, collisionFree, shares,
    by decide +kernel, ?_⟩
  intro supported
  have enough := supported.quorumOfParents (by decide +kernel)
  revert enough
  decide +kernel

theorem approval_supported_iff_threeParents :
    ∃ processor, Supported sampleCrypto (.ofSize 4) processor atSecondRound
      (secondHeader firstCertificates) := by
  obtain ⟨initial, processor, started, run, collisionFree, shares⟩ :=
    atSecondRound_shares_view
  have supported := (approval_supported_iff started run collisionFree shares
    ⟨secondHeader firstCertificates, []⟩ (fun _ _ => true)
    (by decide +kernel :
      (firstCertificates.map (Certificate.id sampleCrypto)).Nodup)
    (by decide +kernel)).mpr (.inr (by
      unfold NamesRound
      decide +kernel))
  exact ⟨processor, supported (by decide +kernel)⟩

end Agreement

end HeaderElector

end Calf
