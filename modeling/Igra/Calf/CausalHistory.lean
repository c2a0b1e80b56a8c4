import Igra.Calf.DagRuns
import Igra.Histories

/-!
# Causal histories

A certificate is identified by its digest, which covers its author, its round
and its parents, and it is inserted only over its parents.  So two nodes that
have a certificate have the same history below it, whatever else they have
received, from whom and in which order.
-/

open Rust

namespace Calf

open Histories

/-- What the graph knows of the certificate with an id. -/
def Dag.view (dag : Dag Certificate) : View String (Option PublicKey) :=
  fun id => (dag.vertices.lookup id).map fun vertex =>
    ⟨vertex.data.round.toNat, vertex.data.author, vertex.parents⟩

namespace DagProcessor

/-- Certificates with one digest have the same bytes and the same parents.
The bytes alone do not say where the parents begin. -/
def ContentAddressed (crypto : Crypto) (certificates : Set Certificate) :
    Prop :=
  ∀ left ∈ certificates, ∀ right ∈ certificates,
    left.digest crypto = right.digest crypto →
    left.bytes = right.bytes ∧ left.parents = right.parents

/-- The certificates that a run meets, the genesis included. -/
def met (events : List Event) : Set Certificate :=
  { certificate | certificate ∈ genesis :: events.map Event.certificate }

variable {crypto : Crypto} {committee : Committee}
  {initial state : State} {events : List Event}
  {certificates : Set Certificate}

theorem ContentAddressed.collisionFree
    (addressed : ContentAddressed crypto certificates)
    (subset : met events ⊆ certificates) : CollisionFree crypto events :=
  fun left leftIn right rightIn same =>
    (addressed left (subset leftIn) right (subset rightIn) same).1

section Views

variable {dag other : Dag Certificate} {met more : List Certificate}

theorem view_eq_some {id : String} {entry : Entry String (Option PublicKey)} :
    dag.view id = some entry ↔
      ∃ vertex, dag.vertices.lookup id = some vertex ∧
        entry = ⟨vertex.data.round.toNat, vertex.data.author,
          vertex.parents⟩ := by
  simp [Dag.view, eq_comm]

/-- The parents of a vertex are one round below it. -/
theorem MadeFrom.closed (made : MadeFrom crypto met dag) :
    Closed dag.view := by
  intro child entry found above parent member
  obtain ⟨vertex, stored, rfl⟩ := view_eq_some.mp found
  have atRound : vertex.layer = vertex.data.round := by
    rw [(made.made child vertex stored).1]
    rfl
  have notBase : vertex.layer ≠ 0 := by
    intro base
    rw [← atRound, base] at above
    exact above rfl
  have listed := made.layered.grounded child vertex stored notBase member
  obtain ⟨below, atParent, layer⟩ := (made.layered.listed parent _).mp listed
  have belowRound : below.data.round = vertex.layer - 1 := by
    rw [← layer, (made.made parent below atParent).1]
    rfl
  refine ⟨_, view_eq_some.mpr ⟨below, atParent, rfl⟩, ?_⟩
  have positive : 1 ≤ vertex.layer := by
    rw [UInt64.le_iff_toNat_le]
    have notZero : vertex.layer.toNat ≠ 0 :=
      fun zero => notBase (UInt64.toNat.inj zero)
    have one : (1 : UInt64).toNat = 1 := rfl
    omega
  show below.data.round.toNat + 1 = vertex.data.round.toNat
  have one : (1 : UInt64).toNat = 1 := rfl
  have positiveNat := UInt64.le_iff_toNat_le.mp positive
  rw [belowRound, UInt64.toNat_sub_of_le _ _ positive, ← atRound]
  omega

/-- Two graphs say the same of a vertex that they share. -/
theorem MadeFrom.agree (made : MadeFrom crypto met dag)
    (others : MadeFrom crypto more other)
    (addressed : ContentAddressed crypto certificates)
    (first : ∀ certificate ∈ met, certificate ∈ certificates)
    (second : ∀ certificate ∈ more, certificate ∈ certificates) :
    Agree dag.view other.view := by
  intro id entry another here there
  obtain ⟨vertex, stored, rfl⟩ := view_eq_some.mp here
  obtain ⟨again, alsoStored, rfl⟩ := view_eq_some.mp there
  obtain ⟨isVertex, among⟩ := made.made id vertex stored
  obtain ⟨isAgain, alsoAmong⟩ := others.made id again alsoStored
  have digests : vertex.data.digest crypto = again.data.digest crypto := by
    apply FixedBytes.ext
    apply Hex.encode_injective
    rw [← made.id_eq stored, ← others.id_eq alsoStored]
  obtain ⟨bytes, parents⟩ := addressed vertex.data (first _ among) again.data
    (second _ alsoAmong) digests
  obtain ⟨author, round⟩ := Certificate.head_eq_of_bytes bytes
  have sameParents : vertex.parents = again.parents := by
    rw [isVertex, isAgain]
    show vertex.data.parentsAsHex = again.data.parentsAsHex
    ext text
    rw [Certificate.mem_parentsAsHex, Certificate.mem_parentsAsHex, parents]
  rw [author, round, sameParents]

end Views

/-- Two nodes have one history below a certificate that both have inserted:
each ancestor that one of them has, the other has too, with the same round,
author and parents. -/
theorem histories_agree {other : Committee} {otherEvents : List Event}
    {otherState : State} (started : start crypto = .ok initial)
    (run : Runs.Run (Step crypto committee) initial events state)
    (otherRun : Runs.Run (Step crypto other) initial otherEvents otherState)
    (addressed : ContentAddressed crypto (met events ∪ met otherEvents))
    {id : String} (here : id ∈ state.dag.vertices)
    (there : id ∈ otherState.dag.vertices) (earlier : String) :
    (Reaches state.dag.view id earlier ↔
      Reaches otherState.dag.view id earlier) ∧
    (Reaches state.dag.view id earlier →
      ∃ entry, state.dag.view earlier = some entry ∧
        otherState.dag.view earlier = some entry) := by
  have made := madeFrom_of_run started run
    (addressed.collisionFree Set.subset_union_left)
  have others := madeFrom_of_run started otherRun
    (addressed.collisionFree Set.subset_union_right)
  have agree := made.agree others addressed (fun _ member => .inl member)
    (fun _ member => .inr member)
  have back : Agree otherState.dag.view state.dag.view :=
    fun id entry more first second => (agree id more entry second first).symm
  have present {dag : Dag Certificate} (stored : id ∈ dag.vertices) :
      ∃ entry, dag.view id = some entry := by
    obtain ⟨vertex, found⟩ :=
      Option.isSome_iff_exists.mp (AList.lookup_isSome.mpr stored)
    exact ⟨_, view_eq_some.mpr ⟨vertex, found, rfl⟩⟩
  have transferred : Reaches state.dag.view id earlier →
      Reaches otherState.dag.view id earlier :=
    Reaches.transfer agree others.closed (present there)
  constructor
  · exact ⟨transferred, Reaches.transfer back made.closed (present here)⟩
  · intro reaches
    obtain ⟨entry, found⟩ := made.closed.ancestor (present here) reaches
    obtain ⟨more, alsoFound⟩ :=
      others.closed.ancestor (present there) (transferred reaches)
    obtain rfl := agree earlier entry more found alsoFound
    exact ⟨entry, found, alsoFound⟩

/-- The certificates of two authors for the first round. -/
def firstTwo : List Certificate :=
  [firstRound 1 [0, 1, 2], firstRound 0 [0, 1, 2]]

/-- One node has received both of them, the other one only the second. -/
theorem histories_agree_firstRound :
    ∃ initial state otherState,
      Runs.Run (Step sampleCrypto (.ofSize 4)) initial
        (firstTwo.map fromPeer) state ∧
      Runs.Run (Step sampleCrypto (.ofSize 4)) initial
        [fromPeer (firstRound 0 [0, 1, 2])] otherState ∧
      let id := (vertexOf sampleCrypto (firstRound 0 [0, 1, 2])).id
      ∀ earlier, Reaches state.dag.view id earlier ↔
        Reaches otherState.dag.view id earlier := by
  have performed : (start sampleCrypto).Returns fun initial =>
      ((firstTwo.map fromPeer).foldlM (handle sampleCrypto (.ofSize 4))
        initial).Returns fun state =>
      (handle sampleCrypto (.ofSize 4) initial
        (fromPeer (firstRound 0 [0, 1, 2]))).Returns fun otherState =>
      (vertexOf sampleCrypto (firstRound 0 [0, 1, 2])).id ∈
          state.dag.vertices ∧
        (vertexOf sampleCrypto (firstRound 0 [0, 1, 2])).id ∈
          otherState.dag.vertices := by
    decide +kernel
  have apart : ∀ left ∈ genesis :: firstTwo, ∀ right ∈ genesis :: firstTwo,
      left.digest sampleCrypto = right.digest sampleCrypto →
      left.bytes = right.bytes ∧ left.parents = right.parents := by
    decide +kernel
  obtain ⟨initial, started, state, folded, otherState, taken, here, there⟩ :=
    performed
  have run := (Runs.Run.of_foldlM (fun _ _ => True) folded
    fun _ _ _ => trivial).unrestrict
  have otherRun : Runs.Run (Step sampleCrypto (.ofSize 4)) initial
      [fromPeer (firstRound 0 [0, 1, 2])] otherState :=
    .extend .start taken
  have listed : met (firstTwo.map fromPeer) ∪
      met [fromPeer (firstRound 0 [0, 1, 2])] ⊆
        { certificate | certificate ∈ genesis :: firstTwo } := by
    rintro certificate (first | second)
    · simpa [met, fromPeer, Event.certificate] using first
    · simp only [met, fromPeer, Event.certificate, List.map_cons, List.map_nil,
        List.mem_cons, List.not_mem_nil, or_false, Set.mem_ofPred_eq] at second
      rcases second with rfl | rfl
      · exact List.mem_cons_self
      · simp [firstTwo]
  have addressed : ContentAddressed sampleCrypto
      (met (firstTwo.map fromPeer) ∪
        met [fromPeer (firstRound 0 [0, 1, 2])]) :=
    fun left leftIn right rightIn =>
      apart left (listed leftIn) right (listed rightIn)
  exact ⟨initial, state, otherState, run, otherRun, fun earlier =>
    (histories_agree started run otherRun addressed here there earlier).1⟩

end DagProcessor

end Calf
