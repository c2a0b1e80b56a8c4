import Igra.Calf.DagRuns

/-!
# The order of delivery

A certificate from a peer is inserted only if its parents are in the graph when
it arrives.  Otherwise the sync tracker is told which parents are missing, and
nothing brings the certificate itself back once they have come.  So the order
of delivery matters, unless parents come first.

When they do, the graph holds all that was delivered, and the current round is
the first one with fewer vertices than the quorum.
-/

open Rust

namespace Calf.DagProcessor

variable {crypto : Crypto} {committee : Committee}
  {initial state next : State} {certificates : Finset Certificate}
  {delivered : List Certificate} {received : ReceivedObject Certificate}

section Deliveries

/-- Every certificate has enough votes and parents, and its parents are there
too. -/
structure ValidSet (crypto : Crypto) (committee : Committee)
    (certificates : Finset Certificate) : Prop where
  enoughParents : ∀ certificate ∈ certificates,
    enoughParents committee certificate = true
  enoughVotes : ∀ certificate ∈ certificates,
    certificate.verifyVotes crypto committee = .ok ()
  closed : ∀ certificate ∈ certificates,
    ∀ parent ∈ certificate.parents,
    ∃ other ∈ insert genesis certificates, other.id crypto = parent

/-- Certificates name parents of the round before, from round 2 on a quorum of
distinct ones, and different certificates have different digests. -/
structure WellLayered (crypto : Crypto) (committee : Committee)
    (certificates : Finset Certificate) : Prop where
  roundBefore : ∀ certificate ∈ certificates,
    ∀ other ∈ insert genesis certificates,
    other.id crypto ∈ certificate.parents →
    other.round.toNat + 1 = certificate.round.toNat
  distinctParents : ∀ certificate ∈ certificates, 2 ≤ certificate.round →
    committee.quorum ≤ certificate.parents.card
  distinctDigests : ∀ left ∈ insert genesis certificates,
    ∀ right ∈ insert genesis certificates,
    left.digest crypto = right.digest crypto → left = right

/-- Each certificate comes after its parents. -/
def ParentsFirst (crypto : Crypto) :
    List Certificate → List Certificate → Prop
  | _, [] => True
  | known, certificate :: rest =>
      (∀ parent ∈ certificate.parents,
        parent ∈ known.map (Certificate.id crypto)) ∧
        ParentsFirst crypto (known ++ [certificate]) rest

instance ParentsFirst.decidable (crypto : Crypto) :
    (known rest : List Certificate) →
      Decidable (ParentsFirst crypto known rest)
  | _, [] => inferInstanceAs (Decidable True)
  | known, certificate :: rest =>
      have := ParentsFirst.decidable crypto (known ++ [certificate]) rest
      inferInstanceAs (Decidable (_ ∧ _))

private theorem parentsFirst_concat {known : List Certificate}
    {certificate : Certificate} :
    ParentsFirst crypto known (delivered ++ [certificate]) ↔
      ParentsFirst crypto known delivered ∧
        ∀ parent ∈ certificate.parents,
          parent ∈ (known ++ delivered).map (Certificate.id crypto) := by
  induction delivered generalizing known with
  | nil => simp [ParentsFirst]
  | cons first rest ih =>
      simp only [List.cons_append, ParentsFirst, ih, List.append_assoc,
        List.nil_append, and_assoc]

/-- The peers' certificates as they reach the task. -/
def deliveries (received : List (ReceivedObject Certificate)) : List Event :=
  received.map Event.peer

/-- The round is the first one whose layer is short of a quorum. -/
structure FirstUnfilled (committee : Committee) (dag : Dag Certificate)
    (round : Round) : Prop where
  positive : 1 ≤ round
  filled : ∀ layer, 1 ≤ layer → layer < round →
    committee.quorum ≤ dag.layerSize layer
  unfilled : dag.layerSize round < committee.quorum

theorem FirstUnfilled.unique {left right : Dag Certificate}
    {leftRound rightRound : Round}
    (sameLayers : ∀ layer, left.ids layer = right.ids layer)
    (first : FirstUnfilled committee left leftRound)
    (second : FirstUnfilled committee right rightRound) :
    leftRound = rightRound := by
  have sizes (layer : UInt64) : left.layerSize layer = right.layerSize layer :=
    congrArg Finset.card (sameLayers layer)
  rcases lt_trichotomy leftRound rightRound with before | same | after
  · have full := second.filled leftRound first.positive before
    have short := first.unfilled
    rw [sizes] at short
    omega
  · exact same
  · have full := first.filled rightRound second.positive after
    have short := second.unfilled
    rw [sizes] at full
    omega

end Deliveries

section Insertion

/-- The graph is made of all that was delivered. -/
structure Reflects (crypto : Crypto) (committee : Committee)
    (delivered : List Certificate) (state : State) : Prop where
  made : MadeFrom crypto (genesis :: delivered) state.dag
  stored : ∀ certificate ∈ genesis :: delivered,
    state.dag.vertices.lookup (vertexOf crypto certificate).id =
      some (vertexOf crypto certificate)
  round : FirstUnfilled committee state.dag state.currentRound

/-- The id of a certificate of the set is the hash of its bytes. -/
theorem ValidSet.id_eq (valid : ValidSet crypto committee certificates)
    {certificate : Certificate}
    (member : certificate ∈ insert genesis certificates) :
    certificate.id crypto = certificate.digest crypto := by
  rcases Finset.mem_insert.mp member with rfl | among
  · rfl
  · obtain ⟨derived, rfl⟩ := exists_derived_of_enoughParents
      (valid.enoughParents certificate among)
    rfl

theorem Reflects.mem_ids (reflects : Reflects crypto committee delivered state)
    {certificate : Certificate} (member : certificate ∈ genesis :: delivered) :
    (vertexOf crypto certificate).id ∈ state.dag.ids certificate.round :=
  (reflects.made.layered.listed _ _).mpr
    ⟨_, reflects.stored certificate member, rfl⟩

/-- The parents that were delivered are found. -/
theorem Reflects.checkParents
    (reflects : Reflects crypto committee delivered state)
    (valid : ValidSet crypto committee certificates)
    (layered : WellLayered crypto committee certificates)
    (subset : ∀ old ∈ delivered, old ∈ certificates)
    {certificate : Certificate} (member : certificate ∈ certificates)
    (parents : ∀ parent ∈ certificate.parents,
      parent ∈ (genesis :: delivered).map (Certificate.id crypto)) :
    state.dag.checkParents (vertexOf crypto certificate) = .ok () := by
  have below : ∀ parent ∈ certificate.parents,
      Hex.encode parent.bytes ∈ state.dag.ids (certificate.round - 1) := by
    intro parent named
    obtain ⟨other, known, rfl⟩ := List.mem_map.mp (parents parent named)
    have among : other ∈ insert genesis certificates := by
      rcases List.mem_cons.mp known with rfl | old
      · exact Finset.mem_insert_self _ _
      · exact Finset.mem_insert_of_mem (subset other old)
    have roundBefore :=
      layered.roundBefore certificate member other among named
    have atRound : certificate.round - 1 = other.round := by
      have one : (1 : UInt64) ≤ certificate.round := by
        rw [UInt64.le_iff_toNat_le]
        have one : (1 : UInt64).toNat = 1 := rfl
        omega
      apply UInt64.toNat.inj
      rw [UInt64.toNat_sub_of_le _ _ one]
      have one : (1 : UInt64).toNat = 1 := rfl
      omega
    rw [valid.id_eq among, atRound]
    exact reflects.mem_ids known
  rw [Dag.checkParents_eq_ok]
  right
  constructor
  · by_cases first : certificate.round = 1
    · have root := reflects.mem_ids List.mem_cons_self
      have bottom : genesis.round = certificate.round - 1 := by
        rw [first]
        rfl
      rw [bottom] at root
      exact Dag.layer_mem_of_mem_ids root
    · have enough := valid.enoughParents certificate member
      obtain ⟨derived, rfl⟩ := exists_derived_of_enoughParents enough
      have threshold := @Committee.one_le_quorum committee
      simp only [enoughParents, first, decide_false, Bool.or_false,
        decide_eq_true_eq] at enough
      obtain ⟨parent, named⟩ := List.exists_mem_of_length_pos
        (lt_of_lt_of_le threshold enough)
      exact Dag.layer_mem_of_mem_ids
        (below parent (List.mem_toFinset.mpr named))
  · intro text isParent
    obtain ⟨parent, named, rfl⟩ := Certificate.mem_parentsAsHex.mp isParent
    exact below parent named

theorem Reflects.inserts
    (reflects : Reflects crypto committee delivered state)
    (valid : ValidSet crypto committee certificates)
    (layered : WellLayered crypto committee certificates)
    (subset : ∀ old ∈ delivered, old ∈ certificates)
    (member : received.object ∈ certificates)
    (parents : ∀ parent ∈ received.object.parents,
      parent ∈ (genesis :: delivered).map (Certificate.id crypto)) :
    Inserts crypto committee state (.peer received) :=
  judge_eq_accepted.mpr
    ⟨valid.enoughParents _ member, valid.enoughVotes _ member,
      reflects.checkParents valid layered subset member parents⟩

theorem currentRound_of_inserts {event : Event}
    (inserts : Inserts crypto committee state event)
    (step : Step crypto committee state event next) :
    next.currentRound.toNat =
      if committee.quorum ≤ next.dag.layerSize state.currentRound then
        state.currentRound.toNat + 1
      else state.currentRound.toNat := by
  unfold Step handle at step
  split at step
  · rename_i skipped
    exact absurd inserts (not_inserts_of_receive_eq_none skipped)
  · rename_i taken
    have round := (receive_eq_some taken).1
    unfold completeRound at step
    split at step
    · rename_i full
      obtain ⟨following, added, same⟩ := Outcome.bind_eq_ok.mp step
      cases same
      rw [checkedAdd_eq_ok] at added
      rw [round] at full added
      rw [if_pos full]
      exact added.symm
    · rename_i short
      cases step
      rw [round] at short ⊢
      rw [if_neg short]

end Insertion

section Rounds

theorem Reflects.ids_eq_empty
    (reflects : Reflects crypto committee delivered state)
    (layered : WellLayered crypto committee certificates)
    (subset : ∀ old ∈ delivered, old ∈ certificates)
    {layer : UInt64} (later : 2 ≤ layer)
    (short : state.dag.layerSize (layer - 1) < committee.quorum) :
    state.dag.ids layer = ∅ := by
  rw [Finset.eq_empty_iff_forall_notMem]
  intro id listed
  obtain ⟨vertex, found, atLayer⟩ :=
    (reflects.made.layered.listed id layer).mp listed
  obtain ⟨isVertex, known⟩ := reflects.made.made id vertex found
  have round : vertex.data.round = layer := by
    rw [← atLayer, isVertex]
    rfl
  have among : vertex.data ∈ certificates := by
    rcases List.mem_cons.mp known with isGenesis | old
    · rw [isGenesis] at round
      rw [← round] at later
      exact absurd later (by decide)
    · exact subset _ old
  have enough := layered.distinctParents _ among (round ▸ later)
  have nonzero : vertex.layer ≠ 0 := by
    intro zero
    rw [← atLayer, zero] at later
    exact absurd later (by decide)
  have grounded :=
    Finset.card_le_card (reflects.made.layered.grounded id vertex found nonzero)
  have parents : vertex.parents.card = vertex.data.parents.card := by
    rw [← Certificate.card_parentsAsHex, isVertex]
    rfl
  rw [parents, atLayer] at grounded
  unfold Dag.layerSize at short
  omega

theorem Reflects.firstUnfilled_insert
    (reflects : Reflects crypto committee delivered state)
    (layered : WellLayered crypto committee certificates)
    (subset : ∀ old ∈ delivered, old ∈ certificates)
    (vertex : Vertex Certificate) {following : Round}
    (round : following.toNat =
      if committee.quorum ≤
          (state.dag.insert vertex).1.layerSize state.currentRound then
        state.currentRound.toNat + 1
      else state.currentRound.toNat) :
    FirstUnfilled committee (state.dag.insert vertex).1 following := by
  obtain ⟨positive, filled, unfilled⟩ := reflects.round
  have stillFilled (layer : UInt64) (one : 1 ≤ layer)
      (before : layer < state.currentRound) :
      committee.quorum ≤ (state.dag.insert vertex).1.layerSize layer :=
    (filled layer one before).trans
      (Finset.card_le_card (Dag.ids_subset_insert layer))
  split at round
  · rename_i full
    have atRound : state.currentRound = vertex.layer := by
      by_contra elsewhere
      unfold Dag.layerSize at full unfilled
      rw [Dag.ids_insert, if_neg elsewhere] at full
      omega
    have one : (1 : UInt64).toNat = 1 := rfl
    have two : (2 : UInt64).toNat = 2 := rfl
    have above : 1 ≤ following := by
      rw [UInt64.le_iff_toNat_le]
      omega
    have later : 2 ≤ following := by
      rw [UInt64.le_iff_toNat_le] at positive ⊢
      omega
    have below : following - 1 = state.currentRound := by
      apply UInt64.toNat.inj
      rw [UInt64.toNat_sub_of_le _ _ above]
      omega
    have elsewhere : following ≠ vertex.layer := by
      rw [← atRound]
      intro same
      rw [same] at round
      omega
    refine ⟨above, ?_, ?_⟩
    · intro layer positiveLayer before
      rw [UInt64.lt_iff_toNat_lt, round] at before
      rcases Nat.lt_succ_iff_lt_or_eq.mp before with less | same
      · exact stillFilled layer positiveLayer (UInt64.lt_iff_toNat_lt.mpr less)
      · rw [UInt64.toNat.inj same]
        exact full
    · have empty := reflects.ids_eq_empty layered subset later
        (by rw [below]; exact unfilled)
      unfold Dag.layerSize
      rw [Dag.ids_insert, if_neg elsewhere, empty]
      exact Committee.one_le_quorum
  · rename_i short
    rw [UInt64.toNat.inj round]
    exact ⟨positive, stillFilled, Nat.lt_of_not_le short⟩

theorem Reflects.step (reflects : Reflects crypto committee delivered state)
    (valid : ValidSet crypto committee certificates)
    (layered : WellLayered crypto committee certificates)
    (subset : ∀ old ∈ delivered, old ∈ certificates)
    (member : received.object ∈ certificates)
    (parents : ∀ parent ∈ received.object.parents,
      parent ∈ (genesis :: delivered).map (Certificate.id crypto))
    (step : Step crypto committee state (.peer received) next) :
    Reflects crypto committee (delivered ++ [received.object]) next := by
  have inserts := reflects.inserts valid layered subset member parents
  have grown : next.dag =
      (state.dag.insert (vertexOf crypto received.object)).1 := by
    rcases step.dag_cases with ⟨rejected, _⟩ | ⟨_, grown⟩
    · exact absurd inserts rejected
    · exact grown
  have known {certificate : Certificate}
      (old : certificate ∈ genesis :: delivered) :
      certificate ∈ insert genesis certificates := by
    rcases List.mem_cons.mp old with rfl | among
    · exact Finset.mem_insert_self _ _
    · exact Finset.mem_insert_of_mem (subset certificate among)
  have sameObject {certificate : Certificate}
      (old : certificate ∈ genesis :: delivered)
      (digests : certificate.digest crypto = received.object.digest crypto) :
      certificate = received.object :=
    layered.distinctDigests _ (known old) _ (Finset.mem_insert_of_mem member)
      digests
  constructor
  · rw [← List.cons_append]
    apply step.madeFrom reflects.made
    intro old among digests
    rw [sameObject among digests]
    rfl
  · intro certificate among
    rw [grown, Dag.lookup_insert]
    split
    · rename_i sameId
      rw [← List.cons_append] at among
      rcases List.mem_append.mp among with old | new
      · rw [sameObject old (FixedBytes.ext (Hex.encode_injective sameId))]
      · rw [List.mem_singleton.mp new]
    · rename_i otherId
      rw [← List.cons_append] at among
      rcases List.mem_append.mp among with old | new
      · exact reflects.stored certificate old
      · rw [List.mem_singleton.mp new] at otherId
        exact absurd rfl otherId
  · have round := currentRound_of_inserts inserts step
    rw [grown] at round ⊢
    exact reflects.firstUnfilled_insert layered subset _ round

theorem reflects_start (started : start crypto = .ok initial) :
    Reflects crypto committee [] initial := by
  obtain ⟨root, round, _⟩ := start_eq_ok started
  refine ⟨madeFrom_start started, ?_, ?_⟩
  · intro certificate member
    rw [List.mem_singleton.mp member, root, Dag.lookup_root, if_pos rfl]
  · have onlyBase (layer : UInt64) (above : 1 ≤ layer) :
        initial.dag.ids layer = ∅ := by
      rw [root, Dag.ids_insert]
      have base : (vertexOf crypto genesis).layer = 0 := rfl
      have notBase : layer ≠ (vertexOf crypto genesis).layer := by
        intro same
        rw [same, base] at above
        exact absurd above (by decide)
      rw [if_neg notBase]
      rfl
    refine ⟨by rw [round], ?_, ?_⟩
    · intro layer above before
      rw [round] at before
      exact absurd before (UInt64.not_lt.mpr above)
    · unfold Dag.layerSize
      rw [onlyBase _ (by rw [round])]
      exact Committee.one_le_quorum

end Rounds

section Convergence

theorem reflects_of_run
    (valid : ValidSet crypto committee certificates)
    (layered : WellLayered crypto committee certificates)
    (started : start crypto = .ok initial)
    {arrivals : List (ReceivedObject Certificate)}
    (run : Runs.Run (Step crypto committee) initial (deliveries arrivals)
      state)
    (subset : ∀ old ∈ arrivals.map ReceivedObject.object,
      old ∈ certificates)
    (ordered : ParentsFirst crypto [genesis]
      (arrivals.map ReceivedObject.object)) :
    Reflects crypto committee (arrivals.map ReceivedObject.object) state := by
  induction arrivals using List.reverseRecOn generalizing state with
  | nil =>
      rw [run.eq_of_nil]
      exact reflects_start started
  | append_singleton arrivals received ih =>
      unfold deliveries at run
      simp only [List.map_append, List.map_cons, List.map_nil]
        at run subset ordered ⊢
      rw [parentsFirst_concat] at ordered
      obtain ⟨earlier, upTo, step⟩ := run.last
      have before : ∀ old ∈ arrivals.map ReceivedObject.object,
          old ∈ certificates := fun old among =>
        subset old (List.mem_append_left _ among)
      have reflects := ih upTo before ordered.1
      exact reflects.step valid layered before
        (subset _ (List.mem_append_right _ (List.mem_singleton_self _)))
        ordered.2 step

theorem Reflects.lookup_eq_some
    (reflects : Reflects crypto committee delivered state) {id : String}
    {vertex : Vertex Certificate} :
    state.dag.vertices.lookup id = some vertex ↔
      ∃ certificate ∈ genesis :: delivered,
        vertex = vertexOf crypto certificate ∧ id = vertex.id := by
  constructor
  · intro found
    obtain ⟨isVertex, known⟩ := reflects.made.made id vertex found
    exact ⟨vertex.data, known, isVertex,
      (reflects.made.layered.keyed id vertex found).symm⟩
  · rintro ⟨certificate, known, rfl, rfl⟩
    exact reflects.stored certificate known

/-- Two orders of delivery of the same valid and well-layered certificates,
each with the parents first, lead to the same graph and round, with every
certificate in the graph. -/
theorem delivery_order_irrelevant
    (valid : ValidSet crypto committee certificates)
    (layered : WellLayered crypto committee certificates)
    (started : start crypto = .ok initial)
    {left right : List (ReceivedObject Certificate)}
    {leftState rightState : State}
    (leftRun : Runs.Run (Step crypto committee) initial (deliveries left)
      leftState)
    (rightRun : Runs.Run (Step crypto committee) initial (deliveries right)
      rightState)
    (leftAll : (left.map ReceivedObject.object).toFinset = certificates)
    (rightAll : (right.map ReceivedObject.object).toFinset = certificates)
    (leftOrdered : ParentsFirst crypto [genesis]
      (left.map ReceivedObject.object))
    (rightOrdered : ParentsFirst crypto [genesis]
      (right.map ReceivedObject.object)) :
    (∀ id, leftState.dag.vertices.lookup id =
        rightState.dag.vertices.lookup id) ∧
      leftState.currentRound = rightState.currentRound ∧
      ∀ certificate ∈ certificates,
        leftState.dag.vertices.lookup (vertexOf crypto certificate).id =
          some (vertexOf crypto certificate) := by
  have leftMember (certificate : Certificate) :
      certificate ∈ left.map ReceivedObject.object ↔
        certificate ∈ certificates := by
    rw [← List.mem_toFinset, leftAll]
  have rightMember (certificate : Certificate) :
      certificate ∈ right.map ReceivedObject.object ↔
        certificate ∈ certificates := by
    rw [← List.mem_toFinset, rightAll]
  have leftReflects := reflects_of_run valid layered started leftRun
    (fun old => (leftMember old).mp) leftOrdered
  have rightReflects := reflects_of_run valid layered started rightRun
    (fun old => (rightMember old).mp) rightOrdered
  have sameVertices (id : String) : leftState.dag.vertices.lookup id =
      rightState.dag.vertices.lookup id := by
    apply Option.ext
    intro vertex
    rw [leftReflects.lookup_eq_some, rightReflects.lookup_eq_some]
    simp only [List.mem_cons, leftMember, rightMember]
  have sameLayers (layer : UInt64) :
      leftState.dag.ids layer = rightState.dag.ids layer := by
    ext id
    rw [leftReflects.made.layered.listed, rightReflects.made.layered.listed,
      sameVertices]
  refine ⟨sameVertices,
    leftReflects.round.unique sameLayers rightReflects.round, ?_⟩
  intro certificate member
  exact leftReflects.stored certificate
    (List.mem_cons_of_mem _ ((leftMember certificate).mpr member))

theorem twoRounds_valid :
    ValidSet sampleCrypto (.ofSize 4) twoRounds.toFinset := by
  have enough : ∀ certificate ∈ twoRounds,
      enoughParents (.ofSize 4) certificate = true ∧
        certificate.verifyVotes sampleCrypto (.ofSize 4) = .ok () ∧
        ∀ parent ∈ certificate.parents,
          parent ∈ (genesis :: twoRounds).map
            (Certificate.id sampleCrypto) := by
    decide +kernel
  constructor
  · intro certificate member
    exact (enough certificate (List.mem_toFinset.mp member)).1
  · intro certificate member
    exact (enough certificate (List.mem_toFinset.mp member)).2.1
  · intro certificate member parent named
    obtain ⟨other, known, same⟩ := List.mem_map.mp
      ((enough certificate (List.mem_toFinset.mp member)).2.2 parent named)
    exact ⟨other, by simpa using known, same⟩

theorem twoRounds_wellLayered :
    WellLayered sampleCrypto (.ofSize 4) twoRounds.toFinset := by
  have layers : ∀ certificate ∈ twoRounds,
      (∀ other ∈ genesis :: twoRounds,
        other.id sampleCrypto ∈ certificate.parents →
        other.round.toNat + 1 = certificate.round.toNat) ∧
      (2 ≤ certificate.round →
        (Committee.ofSize 4).quorum ≤ certificate.parents.card) := by
    decide +kernel
  have apart : ∀ left ∈ genesis :: twoRounds,
      ∀ right ∈ genesis :: twoRounds,
      left.digest sampleCrypto = right.digest sampleCrypto →
      left = right := by
    decide +kernel
  constructor
  · intro certificate member other known
    exact (layers certificate (List.mem_toFinset.mp member)).1 other
      (by simpa using known)
  · intro certificate member
    exact (layers certificate (List.mem_toFinset.mp member)).2
  · intro left leftIn right rightIn
    exact apart left (by simpa using leftIn) right (by simpa using rightIn)

/-- The same certificates, the one of round 2 first. -/
def childFirst : List Certificate :=
  twoRounds.drop 3 ++ twoRounds.take 3

def fromPeers (certificates : List Certificate) :
    List (ReceivedObject Certificate) :=
  certificates.map fun certificate => ⟨certificate, []⟩

/-- The certificate that comes before its parents is not in the graph when
they have come. -/
theorem childFirst_lost :
    ValidSet sampleCrypto (.ofSize 4) twoRounds.toFinset ∧
    ∃ initial leftState rightState,
      start sampleCrypto = .ok initial ∧
      Runs.Run (Step sampleCrypto (.ofSize 4)) initial
        (deliveries (fromPeers twoRounds)) leftState ∧
      Runs.Run (Step sampleCrypto (.ofSize 4)) initial
        (deliveries (fromPeers childFirst)) rightState ∧
      ((fromPeers twoRounds).map ReceivedObject.object).toFinset =
        twoRounds.toFinset ∧
      ((fromPeers childFirst).map ReceivedObject.object).toFinset =
        twoRounds.toFinset ∧
      ∃ certificate ∈ twoRounds,
        (leftState.dag.vertices.lookup
          (vertexOf sampleCrypto certificate).id).isSome ∧
        rightState.dag.vertices.lookup
          (vertexOf sampleCrypto certificate).id = none := by
  have performed : (start sampleCrypto).Returns fun initial =>
      ((deliveries (fromPeers twoRounds)).foldlM
        (handle sampleCrypto (.ofSize 4)) initial).Returns fun leftState =>
      ((deliveries (fromPeers childFirst)).foldlM
        (handle sampleCrypto (.ofSize 4)) initial).Returns fun rightState =>
      ∃ certificate ∈ twoRounds,
        (leftState.dag.vertices.lookup
          (vertexOf sampleCrypto certificate).id).isSome ∧
        rightState.dag.vertices.lookup
          (vertexOf sampleCrypto certificate).id = none := by
    decide +kernel
  obtain ⟨initial, started, leftState, leftFold, rightState, rightFold,
    lost⟩ := performed
  have leftRun := Runs.Run.of_foldlM (fun _ _ => True) leftFold
    fun _ _ _ => trivial
  have rightRun := Runs.Run.of_foldlM (fun _ _ => True) rightFold
    fun _ _ _ => trivial
  exact ⟨twoRounds_valid, initial, leftState, rightState, started,
    leftRun.unrestrict, rightRun.unrestrict, by decide +kernel,
    by decide +kernel, lost⟩

theorem delivery_order_irrelevant_twoRounds :
    ∃ initial leftState rightState,
      start sampleCrypto = .ok initial ∧
      Runs.Run (Step sampleCrypto (.ofSize 4)) initial
        (deliveries (fromPeers twoRounds)) leftState ∧
      Runs.Run (Step sampleCrypto (.ofSize 4)) initial
        (deliveries (fromPeers
          ((twoRounds.take 3).reverse ++ twoRounds.drop 3))) rightState ∧
      leftState.currentRound = rightState.currentRound := by
  have performed : (start sampleCrypto).Returns fun initial =>
      ((deliveries (fromPeers twoRounds)).foldlM
        (handle sampleCrypto (.ofSize 4)) initial).Returns fun _ =>
      ((deliveries (fromPeers
          ((twoRounds.take 3).reverse ++ twoRounds.drop 3))).foldlM
        (handle sampleCrypto (.ofSize 4)) initial).Returns fun _ =>
      True := by
    decide +kernel
  obtain ⟨initial, started, leftState, leftFold, rightState, rightFold, _⟩ :=
    performed
  have leftRun := Runs.Run.of_foldlM (fun _ _ => True) leftFold
    fun _ _ _ => trivial
  have rightRun := Runs.Run.of_foldlM (fun _ _ => True) rightFold
    fun _ _ _ => trivial
  have agree := delivery_order_irrelevant twoRounds_valid
    twoRounds_wellLayered started leftRun.unrestrict rightRun.unrestrict
    (by decide +kernel) (by decide +kernel) (by decide +kernel)
    (by decide +kernel)
  exact ⟨initial, leftState, rightState, started, leftRun.unrestrict,
    rightRun.unrestrict, agree.2.1⟩

end Convergence

end Calf.DagProcessor
