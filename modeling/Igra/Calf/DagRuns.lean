import Igra.Calf.CertificateChecks

/-!
# Runs of the DAG processor

Whatever certificates arrive, the graph stays layered, its vertices are made
from them, and the published rounds count up by one.  What the graph promises
beyond that, enough distinct parents and enough distinct authors, holds along
the runs whose certificates have them.
-/

open Rust

namespace Calf.DagProcessor

variable {crypto : Crypto} {committee : Committee}
  {initial state next : State} {event : Event} {events : List Event}

/-- Of the certificates that a run meets, the genesis included, those with the
same digest have the same bytes. -/
def CollisionFree (crypto : Crypto) (events : List Event) : Prop :=
  ∀ left ∈ genesis :: events.map Event.certificate,
    ∀ right ∈ genesis :: events.map Event.certificate,
      left.digest crypto = right.digest crypto → left.bytes = right.bytes

theorem CollisionFree.mono {more : List Event}
    (collisionFree : CollisionFree crypto more) (subset : events ⊆ more) :
    CollisionFree crypto events := by
  have fewer : genesis :: events.map Event.certificate ⊆
      genesis :: more.map Event.certificate :=
    List.cons_subset_cons _ (List.map_subset _ subset)
  intro left leftIn right rightIn
  exact collisionFree left (fewer leftIn) right (fewer rightIn)

section Graph

/-- The graph is layered and each vertex is made from a certificate that was
received. -/
structure MadeFrom (crypto : Crypto) (certificates : List Certificate)
    (dag : Dag Certificate) : Prop where
  layered : dag.Layered
  made : ∀ id vertex, dag.vertices.lookup id = some vertex →
    vertex = vertexOf crypto vertex.data ∧ vertex.data ∈ certificates

theorem MadeFrom.mono {certificates more : List Certificate}
    {dag : Dag Certificate} (made : MadeFrom crypto certificates dag)
    (subset : certificates ⊆ more) : MadeFrom crypto more dag where
  layered := made.layered
  made := fun id vertex found =>
    ⟨(made.made id vertex found).1, subset (made.made id vertex found).2⟩

theorem MadeFrom.id_eq {certificates : List Certificate}
    {dag : Dag Certificate} (made : MadeFrom crypto certificates dag)
    {id : String} {vertex : Vertex Certificate}
    (found : dag.vertices.lookup id = some vertex) :
    id = Hex.encode (vertex.data.digest crypto).bytes := by
  rw [← made.layered.keyed id vertex found, (made.made id vertex found).1]
  rfl

theorem MadeFrom.head_eq {certificates : List Certificate}
    {dag : Dag Certificate} (made : MadeFrom crypto certificates dag)
    {certificate : Certificate} {vertex : Vertex Certificate}
    (sameBytes : ∀ old ∈ certificates,
      old.digest crypto = certificate.digest crypto →
      old.bytes = certificate.bytes)
    (found : dag.vertices.lookup (vertexOf crypto certificate).id =
      some vertex) :
    vertex.data.author = certificate.author ∧
      vertex.layer = certificate.round := by
  have digests : vertex.data.digest crypto = certificate.digest crypto := by
    apply FixedBytes.ext
    exact Hex.encode_injective (made.id_eq found).symm
  obtain ⟨isVertex, among⟩ := made.made _ vertex found
  obtain ⟨author, round⟩ := Certificate.head_eq_of_bytes
    (sameBytes vertex.data among digests)
  refine ⟨author, ?_⟩
  rw [isVertex]
  exact round

theorem MadeFrom.insert {certificates : List Certificate}
    {dag : Dag Certificate} {certificate : Certificate}
    (made : MadeFrom crypto certificates dag)
    (sameBytes : ∀ old ∈ certificates,
      old.digest crypto = certificate.digest crypto →
      old.bytes = certificate.bytes)
    (found : dag.checkParents (vertexOf crypto certificate) = .ok ()) :
    MadeFrom crypto (certificates ++ [certificate])
      (dag.insert (vertexOf crypto certificate)).1 where
  layered := made.layered.insert found
    fun old stored => (made.head_eq sameBytes stored).2
  made := by
    intro id vertex stored
    rw [Dag.lookup_insert] at stored
    split at stored
    · cases stored
      exact ⟨rfl, by simp [vertexOf]⟩
    · have before := made.made id vertex stored
      exact ⟨before.1, List.mem_append_left _ before.2⟩

theorem start_eq_ok (started : start crypto = .ok initial) :
    initial.dag = ((Dag.new 0).insert (vertexOf crypto genesis)).1 ∧
      initial.currentRound = 1 ∧ initial.published = [(1, {genesis})] := by
  have root : Dag.newWithRoot 0
      ⟨genesis, 0, ∅, Hex.encode (genesis.digest crypto).bytes⟩ =
        .ok ((Dag.new 0).insert (vertexOf crypto genesis)).1 := by
    simp only [Dag.newWithRoot, Dag.insert, Dag.checkParents]
    rfl
  unfold start at started
  rw [root, Outcome.ok_bind, Outcome.bind_eq_ok] at started
  obtain ⟨currentRound, added, same⟩ := started
  cases same
  have one : currentRound = 1 := by
    rw [checkedAdd_eq_ok] at added
    exact UInt64.toNat.inj added.symm
  rw [one]
  exact ⟨rfl, rfl, rfl⟩

theorem madeFrom_start (started : start crypto = .ok initial) :
    MadeFrom crypto [genesis] initial.dag := by
  rw [(start_eq_ok started).1]
  refine ⟨Dag.layered_root rfl, ?_⟩
  intro id vertex found
  rw [Dag.lookup_root] at found
  split at found
  · cases found
    exact ⟨rfl, List.mem_singleton_self _⟩
  · cases found

theorem Step.madeFrom {certificates : List Certificate}
    (made : MadeFrom crypto certificates state.dag)
    (sameBytes : ∀ old ∈ certificates,
      old.digest crypto = event.certificate.digest crypto →
      old.bytes = event.certificate.bytes)
    (step : Step crypto committee state event next) :
    MadeFrom crypto (certificates ++ [event.certificate]) next.dag := by
  rcases step.dag_cases with ⟨_, same⟩ | ⟨inserts, grown⟩
  · rw [same]
    exact made.mono (List.subset_append_left _ _)
  · rw [grown]
    exact made.insert sameBytes inserts.checkParents

/-- What every insertion preserves holds of the graph in every state reached,
along with the graph being made from the certificates received. -/
theorem graph_of_run (property : Dag Certificate → Prop)
    {allowed : State → Event → Prop}
    (started : start crypto = .ok initial)
    (run : Runs.Run (Runs.restrict allowed (Step crypto committee))
      initial events state)
    (collisionFree : CollisionFree crypto events)
    (initially : property initial.dag)
    (preserved : ∀ certificates state event,
      MadeFrom crypto certificates state.dag →
      (∀ old ∈ certificates,
        old.digest crypto = event.certificate.digest crypto →
        old.bytes = event.certificate.bytes) →
      property state.dag → allowed state event →
      Inserts crypto committee state event →
      property (state.dag.insert (vertexOf crypto event.certificate)).1) :
    MadeFrom crypto (genesis :: events.map Event.certificate) state.dag ∧
      property state.dag := by
  induction run with
  | start => exact ⟨madeFrom_start started, initially⟩
  | @extend events state next event earlier taken ih =>
      obtain ⟨made, holds⟩ :=
        ih (collisionFree.mono (List.subset_append_left _ _))
      have sameBytes : ∀ old ∈ genesis :: events.map Event.certificate,
          old.digest crypto = event.certificate.digest crypto →
          old.bytes = event.certificate.bytes := by
        intro old among
        apply collisionFree old _ event.certificate (by simp)
        rw [List.map_append, ← List.cons_append]
        exact List.mem_append_left _ among
      rw [List.map_append, ← List.cons_append]
      refine ⟨taken.2.madeFrom made sameBytes, ?_⟩
      rcases taken.2.dag_cases with ⟨_, same⟩ | ⟨inserts, inserted⟩
      · rw [same]
        exact holds
      · rw [inserted]
        exact preserved _ state event made sameBytes holds taken.1 inserts

theorem madeFrom_of_run (started : start crypto = .ok initial)
    (run : Runs.Run (Step crypto committee) initial events state)
    (collisionFree : CollisionFree crypto events) :
    MadeFrom crypto (genesis :: events.map Event.certificate) state.dag :=
  (graph_of_run (fun _ => True) started run.restrict_true collisionFree
    trivial fun _ _ _ _ _ _ _ _ => trivial).1

end Graph

section Structure

/-- Every vertex is in the layer of its round, and its parents are in the layer
below. -/
structure Placed (dag : Dag Certificate) : Prop where
  parentsBelow : ∀ id vertex, dag.vertices.lookup id = some vertex →
    1 ≤ vertex.data.round → vertex.parents ⊆ dag.ids (vertex.data.round - 1)
  ownLayer : ∀ id layer, id ∈ dag.ids layer ↔
    ∃ vertex, dag.vertices.lookup id = some vertex ∧
      vertex.data.round = layer
  height : (dag.ids dag.height).Nonempty ∧
    ∀ layer, (dag.ids layer).Nonempty → layer ≤ dag.height

/-- What the graph is meant to be. -/
structure Structured (crypto : Crypto) (committee : Committee)
    (dag : Dag Certificate) : Prop extends Placed dag where
  genesisParent : ∀ id vertex, dag.vertices.lookup id = some vertex →
    vertex.data.round = 1 →
    Hex.encode (genesis.id crypto).bytes ∈ vertex.parents
  quorumOfParents : ∀ id vertex, dag.vertices.lookup id = some vertex →
    2 ≤ vertex.data.round → committee.quorum ≤ vertex.parents.card

/-- The certificate names the genesis in round 1, and a quorum of distinct
parents after it. -/
def WellParented (crypto : Crypto) (committee : Committee)
    (certificate : Certificate) : Prop :=
  (certificate.round = 1 → genesis.id crypto ∈ certificate.parents) ∧
    (2 ≤ certificate.round → committee.quorum ≤ certificate.parents.card)

instance (certificate : Certificate) :
    Decidable (WellParented crypto committee certificate) :=
  inferInstanceAs (Decidable (_ ∧ _))

/-- The certificate names no parents in round 0, some in round 1, and none of
them twice. -/
structure NamesParents (certificate : Certificate) : Prop where
  none : certificate.round = 0 → certificate.parents = ∅
  some : certificate.round = 1 → certificate.parents.Nonempty
  once : certificate.parentsNumber = certificate.parents.card

instance (certificate : Certificate) : Decidable (NamesParents certificate) :=
  decidable_of_iff
    ((certificate.round = 0 → certificate.parents = ∅) ∧
      (certificate.round = 1 → certificate.parents.Nonempty) ∧
      certificate.parentsNumber = certificate.parents.card)
    ⟨fun named => ⟨named.1, named.2.1, named.2.2⟩,
      fun named => ⟨named.none, named.some, named.once⟩⟩

/-- Layer 0 has the genesis only, and every vertex has the parents it should
have. -/
structure Parented (crypto : Crypto) (committee : Committee)
    (dag : Dag Certificate) : Prop where
  root : ∀ id vertex, dag.vertices.lookup id = some vertex →
    vertex.data.round = 0 → vertex.data = genesis
  parented : ∀ id vertex, dag.vertices.lookup id = some vertex →
    WellParented crypto committee vertex.data

variable {certificates : List Certificate} {dag : Dag Certificate}

theorem MadeFrom.layer_eq (made : MadeFrom crypto certificates dag)
    {id : String} {vertex : Vertex Certificate}
    (found : dag.vertices.lookup id = some vertex) :
    vertex.layer = vertex.data.round := by
  rw [(made.made id vertex found).1]
  rfl

theorem MadeFrom.placed (made : MadeFrom crypto certificates dag) :
    Placed dag where
  parentsBelow := by
    intro id vertex found above
    rw [← made.layer_eq found] at above ⊢
    apply made.layered.grounded id vertex found
    intro base
    rw [base] at above
    exact absurd above (by decide)
  ownLayer := by
    intro id layer
    rw [made.layered.listed]
    apply exists_congr
    intro vertex
    apply and_congr_right
    intro found
    rw [made.layer_eq found]
  height := ⟨made.layered.heightUsed, made.layered.heightLargest⟩

theorem MadeFrom.structured (made : MadeFrom crypto certificates dag)
    (parented : Parented crypto committee dag) :
    Structured crypto committee dag where
  toPlaced := made.placed
  genesisParent := by
    intro id vertex found first
    rw [(made.made id vertex found).1]
    exact Certificate.mem_parentsAsHex.mpr
      ⟨_, (parented.parented id vertex found).1 first, rfl⟩
  quorumOfParents := by
    intro id vertex found later
    rw [(made.made id vertex found).1]
    show committee.quorum ≤ vertex.data.parentsAsHex.card
    rw [Certificate.card_parentsAsHex]
    exact (parented.parented id vertex found).2 later

theorem NamesParents.quorum_le_card {certificate : Certificate}
    (named : NamesParents certificate)
    (enough : enoughParents committee certificate = true)
    (notFirst : certificate.round ≠ 1) :
    committee.quorum ≤ certificate.parents.card := by
  rw [← named.once]
  simpa [enoughParents, notFirst] using enough

theorem NamesParents.round_ne_zero {certificate : Certificate}
    (named : NamesParents certificate)
    (enough : enoughParents committee certificate = true) :
    certificate.round ≠ 0 := by
  intro zero
  have quorum := named.quorum_le_card enough (by rw [zero]; decide)
  rw [named.none zero, Finset.card_empty] at quorum
  have threshold := @Committee.one_le_quorum committee
  omega

theorem Parented.genesis_mem {certificate : Certificate}
    (parented : Parented crypto committee dag)
    (made : MadeFrom crypto certificates dag)
    (named : NamesParents certificate)
    (found : dag.checkParents (vertexOf crypto certificate) = .ok ())
    (first : certificate.round = 1) :
    genesis.id crypto ∈ certificate.parents := by
  obtain ⟨parent, isParent⟩ := named.some first
  have layer : (vertexOf crypto certificate).layer = 1 := first
  have below : certificate.parentsAsHex ⊆ dag.ids 0 := by
    rcases Dag.checkParents_eq_ok.mp found with base | ⟨-, parents⟩
    · rw [layer] at base
      exact absurd base (by decide)
    · rw [layer] at parents
      exact parents
  obtain ⟨vertex, stored, bottom⟩ := (made.layered.listed _ 0).mp
    (below (Certificate.mem_parentsAsHex.mpr ⟨parent, isParent, rfl⟩))
  have isGenesis := parented.root _ vertex stored
    ((made.layer_eq stored).symm.trans bottom)
  have sameText := made.id_eq stored
  rw [isGenesis] at sameText
  have same : parent = genesis.id crypto :=
    FixedBytes.ext (Hex.encode_injective sameText)
  rwa [same] at isParent

theorem Parented.insert {certificate : Certificate}
    (parented : Parented crypto committee dag)
    (made : MadeFrom crypto certificates dag)
    (named : NamesParents certificate)
    (enough : enoughParents committee certificate = true)
    (found : dag.checkParents (vertexOf crypto certificate) = .ok ()) :
    Parented crypto committee
      (dag.insert (vertexOf crypto certificate)).1 where
  root := by
    intro id vertex stored zero
    rw [Dag.lookup_insert] at stored
    split at stored
    · cases stored
      exact absurd zero (named.round_ne_zero enough)
    · exact parented.root id vertex stored zero
  parented := by
    intro id vertex stored
    rw [Dag.lookup_insert] at stored
    split at stored
    · cases stored
      refine ⟨parented.genesis_mem made named found, ?_⟩
      intro later
      apply named.quorum_le_card enough
      intro first
      rw [vertexOf, first] at later
      exact absurd later (by decide)
    · exact parented.parented id vertex stored

theorem parented_start (started : start crypto = .ok initial) :
    Parented crypto committee initial.dag := by
  have onlyGenesis {id : String} {vertex : Vertex Certificate}
      (found : initial.dag.vertices.lookup id = some vertex) :
      vertex.data = genesis :=
    List.mem_singleton.mp ((madeFrom_start started).made id vertex found).2
  refine ⟨fun id vertex found _ => onlyGenesis found, ?_⟩
  intro id vertex found
  rw [onlyGenesis found]
  exact ⟨fun first => absurd first (by decide),
    fun later => absurd later (by decide)⟩

/-- In every run the vertices are in their layers and the height is that of
the last one; the graph has all of its structure if the certificates received
name no parents in round 0, some in round 1, and none twice. -/
theorem structured_of_run (started : start crypto = .ok initial)
    (run : Runs.Run (Step crypto committee) initial events state)
    (collisionFree : CollisionFree crypto events) :
    Placed state.dag ∧
      ((∀ event ∈ events, NamesParents event.certificate) →
        Structured crypto committee state.dag) := by
  have made := madeFrom_of_run started run collisionFree
  refine ⟨made.placed, fun named => made.structured ?_⟩
  have permitted := run.restrict_of_forall
    fun event member (_ : State) => named event member
  refine (graph_of_run (Parented crypto committee) started permitted
    collisionFree (parented_start started) ?_).2
  intro certificates state event made _ parented allowed inserts
  exact parented.insert made allowed inserts.enoughParents
    inserts.checkParents

/-- A certificate of the authority at a place for a header without batches,
with the votes of the authorities at the given places. -/
def sampleCertificate (author : Nat) (round : Round)
    (parents : List CertificateId) (voters : List Nat) : Certificate :=
  let header : BlockHeader :=
    ⟨Committee.seatKey author, round, 0, [], parents⟩
  let headerHash := header.digest sampleCrypto
  .derived ⟨header.author, round,
    voters.map fun place => seatVote place headerHash, headerHash, parents⟩

/-- A round-1 certificate that names the genesis. -/
def firstRound (author : Nat) (voters : List Nat) : Certificate :=
  sampleCertificate author 1 [genesis.id sampleCrypto] voters

def fromPeer (certificate : Certificate) : Event := .peer ⟨certificate, []⟩

/-- A round-1 certificate without parents is inserted. -/
theorem relabelledCertificate_unstructured :
    ∃ initial state, start sampleCrypto = .ok initial ∧
      Runs.Run (Step sampleCrypto (.ofSize 4)) initial
        [fromPeer (.derived relabelledCertificate)] state ∧
      ¬Structured sampleCrypto (.ofSize 4) state.dag := by
  have performed : (start sampleCrypto).Returns fun initial =>
      (handle sampleCrypto (.ofSize 4) initial
        (fromPeer (.derived relabelledCertificate))).Returns fun state =>
      ∃ vertex ∈ HashMap.values state.dag.vertices,
        vertex.data.round = 1 ∧
          Hex.encode (genesis.id sampleCrypto).bytes ∉ vertex.parents := by
    decide +kernel
  obtain ⟨initial, started, state, taken, vertex, stored, round, missing⟩ :=
    performed
  refine ⟨initial, state, started, .extend .start taken, ?_⟩
  intro structured
  obtain ⟨id, found⟩ := HashMap.mem_values_iff.mp stored
  exact missing (structured.genesisParent id vertex found round)

/-- Three certificates of round 1 and one of round 2 over them. -/
def twoRounds : List Certificate :=
  let parents := [0, 1, 2].map fun author => firstRound author [0, 1, 2]
  parents ++
    [sampleCertificate 0 2 (parents.map (Certificate.id sampleCrypto))
      [1, 2, 3]]

theorem twoRounds_collisionFree :
    CollisionFree sampleCrypto (twoRounds.map fromPeer) := by
  have apart : ∀ left ∈ genesis :: twoRounds, ∀ right ∈ genesis :: twoRounds,
      left.digest sampleCrypto = right.digest sampleCrypto →
      left.bytes = right.bytes := by
    decide +kernel
  have same : (twoRounds.map fromPeer).map Event.certificate = twoRounds := by
    rfl
  unfold CollisionFree
  rw [same]
  exact apart

theorem structured_of_run_twoRounds :
    ∃ initial state, start sampleCrypto = .ok initial ∧
      Runs.Run (Step sampleCrypto (.ofSize 4)) initial
        (twoRounds.map fromPeer) state ∧
      state.dag.height = 2 ∧
      Structured sampleCrypto (.ofSize 4) state.dag := by
  have performed : (start sampleCrypto).Returns fun initial =>
      ((twoRounds.map fromPeer).foldlM (handle sampleCrypto (.ofSize 4))
        initial).Returns fun state => state.dag.height = 2 := by
    decide +kernel
  have named : ∀ certificate ∈ twoRounds, NamesParents certificate := by
    decide +kernel
  obtain ⟨initial, started, state, folded, height⟩ := performed
  have run := (Runs.Run.of_foldlM (fun _ _ => True) folded
    fun _ _ _ => trivial).unrestrict
  refine ⟨initial, state, started, run, height,
    (structured_of_run started run twoRounds_collisionFree).2 ?_⟩
  intro event member
  obtain ⟨certificate, among, rfl⟩ := List.mem_map.mp member
  exact named certificate among

end Structure

section Rounds

/-- The distinct authors of a set of certificates. -/
def distinctAuthors (certificates : Finset Certificate) : Finset PublicKey :=
  Finset.eraseNone (certificates.image Certificate.author)

/-- The step publishes the next round, with the certificates that the graph
has for the current one. -/
structure Publishes (state next : State) (certificates : Finset Certificate) :
    Prop where
  published : next.published =
    state.published ++ [(next.currentRound, certificates)]
  following : next.currentRound.toNat = state.currentRound.toNat + 1
  exactly : ∀ certificate, certificate ∈ certificates ↔
    certificate.round = state.currentRound ∧
      ∃ vertex ∈ HashMap.values next.dag.vertices,
        vertex.data = certificate

def PublishesExactly (state next : State) : Prop :=
  next.published = state.published ∨
    ∃ certificates, Publishes state next certificates

/-- What is published comes from a quorum of distinct authors. -/
def PublishesSoundly (committee : Committee) (state next : State) : Prop :=
  next.published = state.published ∨
    ∃ certificates, Publishes state next certificates ∧
      committee.quorum ≤ (distinctAuthors certificates).card

/-- The author of a certificate that is inserted in a round not yet completed
has no other vertex there. -/
def InsertsOnePerAuthor (crypto : Crypto) (committee : Committee)
    (state : State) (event : Event) : Prop :=
  Inserts crypto committee state event →
    state.currentRound ≤ event.certificate.round →
    ∀ vertex ∈ HashMap.values state.dag.vertices,
      vertex.data.author = event.certificate.author →
      vertex.data.round = event.certificate.round →
      vertex.id = (vertexOf crypto event.certificate).id

/-- From the round on no author has two vertices in one round. -/
def OnePerAuthor (first : Round) (dag : Dag Certificate) : Prop :=
  ∀ left leftVertex right rightVertex,
    dag.vertices.lookup left = some leftVertex →
    dag.vertices.lookup right = some rightVertex →
    first ≤ leftVertex.data.round →
    leftVertex.data.author = rightVertex.data.author →
    leftVertex.data.round = rightVertex.data.round →
    left = right

theorem OnePerAuthor.mono {earlier later : Round}
    (one : OnePerAuthor earlier dag) (ordered : earlier ≤ later) :
    OnePerAuthor later dag :=
  fun left leftVertex right rightVertex atLeft atRight isOpen =>
    one left leftVertex right rightVertex atLeft atRight
      (ordered.trans isOpen)

theorem MadeFrom.onePerAuthor_insert
    (made : MadeFrom crypto certificates state.dag)
    (one : OnePerAuthor state.currentRound state.dag)
    (allowed : InsertsOnePerAuthor crypto committee state event)
    (inserts : Inserts crypto committee state event) :
    OnePerAuthor state.currentRound
      (state.dag.insert (vertexOf crypto event.certificate)).1 := by
  have apart {id : String} {vertex : Vertex Certificate}
      (found : state.dag.vertices.lookup id = some vertex)
      (isOpen : state.currentRound ≤ event.certificate.round)
      (author : vertex.data.author = event.certificate.author)
      (round : vertex.data.round = event.certificate.round) :
      id = (vertexOf crypto event.certificate).id := by
    rw [← made.layered.keyed id vertex found]
    exact allowed inserts isOpen vertex
      (HashMap.mem_values_iff.mpr ⟨id, found⟩) author round
  intro left leftVertex right rightVertex atLeft atRight isOpen author round
  rw [Dag.lookup_insert] at atLeft atRight
  split at atLeft
  · rename_i isLeft
    cases atLeft
    split at atRight
    · rename_i isRight
      rw [isLeft, isRight]
    · rw [isLeft]
      exact (apart atRight isOpen author.symm round.symm).symm
  · split at atRight
    · rename_i isRight
      cases atRight
      rw [isRight]
      rw [round] at isOpen
      exact apart atLeft isOpen author round
    · exact one left leftVertex right rightVertex atLeft atRight isOpen author
        round

theorem Step.onePerAuthor (made : MadeFrom crypto certificates state.dag)
    (one : OnePerAuthor state.currentRound state.dag)
    (allowed : InsertsOnePerAuthor crypto committee state event)
    (step : Step crypto committee state event next) :
    OnePerAuthor state.currentRound next.dag := by
  rcases step.dag_cases with ⟨-, same⟩ | ⟨inserts, grown⟩
  · rw [same]
    exact one
  · rw [grown]
    exact made.onePerAuthor_insert one allowed inserts

theorem Step.currentRound_le
    (step : Step crypto committee state event next) :
    state.currentRound ≤ next.currentRound := by
  rcases step.published_cases with ⟨same, -⟩ | ⟨-, following, -⟩
  · rw [same]
  · rw [UInt64.le_iff_toNat_le]
    omega

theorem onePerAuthor_of_run (started : start crypto = .ok initial)
    (run : Runs.Run
      (Runs.restrict (InsertsOnePerAuthor crypto committee)
        (Step crypto committee))
      initial events state)
    (collisionFree : CollisionFree crypto events) :
    OnePerAuthor state.currentRound state.dag := by
  induction run with
  | start =>
      intro left leftVertex right rightVertex atLeft atRight _ _ _
      have onlyGenesis {id : String} {vertex : Vertex Certificate}
          (found : initial.dag.vertices.lookup id = some vertex) :
          id = Hex.encode (genesis.digest crypto).bytes := by
        have begun := madeFrom_start started
        rw [begun.id_eq found,
          List.mem_singleton.mp (begun.made id vertex found).2]
      rw [onlyGenesis atLeft, onlyGenesis atRight]
  | extend earlier taken ih =>
      have before := collisionFree.mono (List.subset_append_left _ _)
      have made := madeFrom_of_run started earlier.unrestrict before
      exact (taken.2.onePerAuthor made (ih before) taken.1).mono
        taken.2.currentRound_le

/-- The author of the certificate with the id. -/
def authorOf (dag : Dag Certificate) (id : String) : Option PublicKey :=
  (dag.vertices.lookup id).bind fun vertex => vertex.data.author

theorem MadeFrom.exists_author (made : MadeFrom crypto certificates dag)
    {layer : UInt64} (above : layer ≠ 0) {id : String}
    (member : id ∈ dag.ids layer) :
    ∃ vertex author, dag.vertices.lookup id = some vertex ∧
      vertex.data.round = layer ∧ vertex.data.author = some author := by
  obtain ⟨vertex, found, atLayer⟩ := (made.layered.listed id layer).mp member
  have round : vertex.data.round = layer := by
    rw [← atLayer, (made.made id vertex found).1]
    rfl
  cases data : vertex.data with
  | dummy =>
      rw [data] at round
      exact absurd round.symm above
  | genesis seed =>
      rw [data] at round
      exact absurd round.symm above
  | derived certificate =>
      rw [data] at round
      exact ⟨vertex, certificate.author, found, by rw [data, round],
        by rw [data]; rfl⟩

theorem MadeFrom.mem_layerData (made : MadeFrom crypto certificates dag)
    {layer : UInt64} {certificate : Certificate} :
    certificate ∈ dag.layerData layer ↔
      certificate.round = layer ∧
        ∃ vertex ∈ HashMap.values dag.vertices,
          vertex.data = certificate := by
  rw [Dag.mem_layerData]
  constructor
  · rintro ⟨id, inLayer, vertex, found, rfl⟩
    obtain ⟨listed, atId, atLayer⟩ := (made.layered.listed id _).mp inLayer
    obtain rfl := Option.some.inj (found.symm.trans atId)
    exact ⟨(made.layer_eq found).symm.trans atLayer, vertex,
      HashMap.mem_values_iff.mpr ⟨id, found⟩, rfl⟩
  · rintro ⟨round, vertex, stored, rfl⟩
    obtain ⟨id, found⟩ := HashMap.mem_values_iff.mp stored
    refine ⟨id, ?_, vertex, found, rfl⟩
    rw [made.layered.listed]
    exact ⟨vertex, found, (made.layer_eq found).trans round⟩

theorem MadeFrom.layerSize_le_distinctAuthors
    (made : MadeFrom crypto certificates dag) {first layer : UInt64}
    (one : OnePerAuthor first dag) (isOpen : first ≤ layer)
    (above : layer ≠ 0) :
    dag.layerSize layer ≤ (distinctAuthors (dag.layerData layer)).card := by
  have injective : Set.InjOn (authorOf dag) (dag.ids layer) := by
    intro left leftIn right rightIn same
    obtain ⟨leftVertex, author, atLeft, leftRound, leftAuthor⟩ :=
      made.exists_author above leftIn
    obtain ⟨rightVertex, other, atRight, rightRound, rightAuthor⟩ :=
      made.exists_author above rightIn
    simp only [authorOf, atLeft, atRight, Option.bind_some] at same
    exact one left leftVertex right rightVertex atLeft atRight
      (leftRound ▸ isOpen) same (leftRound.trans rightRound.symm)
  have covered : (dag.ids layer).image (authorOf dag) ⊆
      (distinctAuthors (dag.layerData layer)).map .some := by
    intro found member
    obtain ⟨id, inLayer, rfl⟩ := Finset.mem_image.mp member
    obtain ⟨vertex, author, atId, _, isAuthor⟩ :=
      made.exists_author above inLayer
    have isSome : authorOf dag id = some author := by
      simp [authorOf, atId, isAuthor]
    rw [isSome]
    apply Finset.mem_map_of_mem
    rw [distinctAuthors, Finset.mem_eraseNone, Finset.mem_image]
    exact ⟨vertex.data, Dag.mem_layerData.mpr
      ⟨id, inLayer, vertex, atId, rfl⟩, isAuthor⟩
  calc dag.layerSize layer
      = ((dag.ids layer).image (authorOf dag)).card :=
        (Finset.card_image_of_injOn injective).symm
    _ ≤ ((distinctAuthors (dag.layerData layer)).map .some).card :=
        Finset.card_le_card covered
    _ = (distinctAuthors (dag.layerData layer)).card := Finset.card_map _

theorem Step.unique (state : State) (event : Event) (next another : State)
    (step : Step crypto committee state event next)
    (again : Step crypto committee state event another) : next = another :=
  Except.ok.inj (step.symm.trans again)

/-- The published rounds are 1, 2, 3 and so on up to the current one. -/
structure CountsRounds (state : State) : Prop where
  rounds : state.published.map (fun entry => entry.1.toNat) =
    List.range' 1 state.published.length
  current : state.currentRound.toNat = state.published.length
  some : 1 ≤ state.published.length

theorem CountsRounds.step (counts : CountsRounds state)
    (step : Step crypto committee state event next) : CountsRounds next := by
  rcases step.published_cases with ⟨round, same⟩ | ⟨_, one, grown⟩
  · constructor
    · rw [same]
      exact counts.rounds
    · rw [round, same]
      exact counts.current
    · rw [same]
      exact counts.some
  · have size : next.published.length = state.published.length + 1 := by
      rw [grown, List.length_append, List.length_singleton]
    constructor
    · rw [size, grown, List.map_append, counts.rounds, List.range'_concat]
      simp [one, counts.current, Nat.add_comm]
    · rw [one, size, counts.current]
    · omega

theorem countsRounds_of_run {allowed : State → Event → Prop}
    (started : start crypto = .ok initial)
    (run : Runs.Run (Runs.restrict allowed (Step crypto committee))
      initial events state) : CountsRounds state := by
  refine run.preserves ?_ fun _ _ _ counts taken => counts.step taken.2
  obtain ⟨_, round, published⟩ := start_eq_ok started
  constructor
  · rw [published]
    rfl
  · rw [round, published]
    rfl
  · simp [published]

theorem CountsRounds.currentRound_ne_zero (counts : CountsRounds state) :
    state.currentRound ≠ 0 := by
  intro zero
  have current := counts.current
  have some := counts.some
  rw [zero] at current
  have none : (0 : UInt64).toNat = 0 := rfl
  omega

/-- The rounds start at 1 and count up by one, and each further one comes with
exactly the certificates of the round before; these are by a quorum of distinct
authors if no author gets a second certificate into a round not yet
completed. -/
theorem rounds_advance (started : start crypto = .ok initial)
    (run : Runs.Run (Step crypto committee) initial events state)
    (step : Step crypto committee state event next)
    (collisionFree : CollisionFree crypto (events ++ [event])) :
    CountsRounds state ∧ PublishesExactly state next ∧
      (Runs.Run
          (Runs.restrict (InsertsOnePerAuthor crypto committee)
            (Step crypto committee))
          initial (events ++ [event]) next →
        PublishesSoundly committee state next) := by
  have counts := countsRounds_of_run started run.restrict_true
  have made := madeFrom_of_run started (run.extend step) collisionFree
  refine ⟨counts, ?_⟩
  rcases step.published_cases with ⟨-, same⟩ | ⟨full, following, grown⟩
  · exact ⟨.inl same, fun _ => .inl same⟩
  · have publishes : Publishes state next
        (next.dag.layerData state.currentRound) :=
      ⟨grown, following, fun _ => made.mem_layerData⟩
    refine ⟨.inr ⟨_, publishes⟩, ?_⟩
    intro permitted
    obtain ⟨reached, earlier, taken⟩ := permitted.last
    obtain rfl := earlier.unrestrict.unique Step.unique run
    have before := collisionFree.mono (List.subset_append_left _ _)
    have one := taken.2.onePerAuthor (madeFrom_of_run started run before)
      (onePerAuthor_of_run started earlier before) taken.1
    exact .inr ⟨_, publishes, full.trans
      (made.layerSize_le_distinctAuthors one le_rfl
        counts.currentRound_ne_zero)⟩

/-- One header of one author, certified three times by different sets of
voters. -/
def oneAuthor : List Certificate :=
  [firstRound 0 [0, 1, 2], firstRound 0 [0, 1, 3], firstRound 0 [0, 2, 3]]

/-- The third certificate completes the round, although one author made all
of them. -/
theorem oneAuthor_completes_round :
    ∃ initial state next, start sampleCrypto = .ok initial ∧
      Runs.Run (Step sampleCrypto (.ofSize 4)) initial
        ((oneAuthor.take 2).map fromPeer) state ∧
      Step sampleCrypto (.ofSize 4) state
        (fromPeer (firstRound 0 [0, 2, 3])) next ∧
      ¬PublishesSoundly (.ofSize 4) state next := by
  have performed : (start sampleCrypto).Returns fun initial =>
      (((oneAuthor.take 2).map fromPeer).foldlM
        (handle sampleCrypto (.ofSize 4)) initial).Returns fun state =>
      (handle sampleCrypto (.ofSize 4) state
        (fromPeer (firstRound 0 [0, 2, 3]))).Returns fun next =>
      next.published = state.published ++
          [(2, oneAuthor.toFinset)] ∧
        (distinctAuthors oneAuthor.toFinset).card = 1 := by
    decide +kernel
  obtain ⟨initial, started, state, folded, next, taken, grown, alone⟩ :=
    performed
  have run := Runs.Run.of_foldlM (fun _ _ => True) folded
    fun _ _ _ => trivial
  refine ⟨initial, state, next, started, run.unrestrict, taken, ?_⟩
  rintro (same | ⟨certificates, publishes, enough⟩)
  · rw [same] at grown
    exact absurd grown (by simp)
  · have published := publishes.published
    rw [grown] at published
    obtain ⟨_, rfl⟩ := by simpa using published
    rw [alone] at enough
    revert enough
    decide

theorem rounds_advance_threeAuthors :
    ∃ state next, CountsRounds state ∧
      PublishesSoundly (.ofSize 4) state next ∧
      next.published.length = 2 := by
  have performed : (start sampleCrypto).Returns fun initial =>
      (handle sampleCrypto (.ofSize 4) initial
        (fromPeer (firstRound 0 [0, 1, 2]))).Returns fun first =>
      (handle sampleCrypto (.ofSize 4) first
        (fromPeer (firstRound 1 [0, 1, 2]))).Returns fun second =>
      (handle sampleCrypto (.ofSize 4) second
        (fromPeer (firstRound 2 [0, 1, 2]))).Returns fun third =>
      third.published.length = 2 ∧
      ∀ reached ∈ [(initial, 0), (first, 1), (second, 2)],
        ∀ vertex ∈ HashMap.values reached.1.dag.vertices,
          vertex.data.author ≠ (firstRound reached.2 [0, 1, 2]).author := by
    decide +kernel
  obtain ⟨initial, started, first, toFirst, second, toSecond, third, toThird,
    published, apart⟩ := performed
  have allowed (reached : State) (author : Nat)
      (among : (reached, author) ∈ [(initial, 0), (first, 1), (second, 2)]) :
      InsertsOnePerAuthor sampleCrypto (.ofSize 4) reached
        (fromPeer (firstRound author [0, 1, 2])) := by
    intro _ _ vertex stored sameAuthor
    exact absurd sameAuthor (apart _ among vertex stored)
  have run : Runs.Run
      (Runs.restrict (InsertsOnePerAuthor sampleCrypto (.ofSize 4))
        (Step sampleCrypto (.ofSize 4))) initial
      [fromPeer (firstRound 0 [0, 1, 2]),
        fromPeer (firstRound 1 [0, 1, 2])] second :=
    .extend (.extend .start ⟨allowed _ _ (by simp), toFirst⟩)
      ⟨allowed _ _ (by simp), toSecond⟩
  have fewer : [0, 1, 2].map (fun author =>
      fromPeer (firstRound author [0, 1, 2])) ⊆ twoRounds.map fromPeer := by
    unfold twoRounds
    rw [List.map_append, List.map_map]
    exact List.subset_append_left _ _
  obtain ⟨counts, -, sound⟩ := rounds_advance started run.unrestrict toThird
    (twoRounds_collisionFree.mono fewer)
  exact ⟨second, third, counts,
    sound (run.extend ⟨allowed second 2 (by simp), toThird⟩), published⟩

end Rounds

end Calf.DagProcessor
