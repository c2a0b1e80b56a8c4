import Mathlib.Algebra.GroupWithZero.Nat
import Mathlib.Combinatorics.Enumerative.DoubleCounting
import Mathlib.Data.Finset.Basic
import Mathlib.Logic.Relation

/-!
# Histories in layered graphs

Several parties each have a view of one growing graph.  A node of the graph
names its parents, which are in the layer below it, and a view has the parents
of all its nodes.  Views that agree on the nodes they share agree on their
histories.  When each node names a quorum of parents and no author has two
nodes in a layer, there is a node in each layer that all nodes from two layers
above it on have in their history, whichever view they are in.
-/

namespace Histories

variable {Id Author Peer : Type}

/-- What a view knows of a node. -/
structure Entry (Id Author : Type) where
  layer : Nat
  author : Author
  parents : Finset Id

abbrev View (Id Author : Type) := Id → Option (Entry Id Author)

/-- The nodes of the base layer have no parents that count. -/
def Names (view : View Id Author) (child parent : Id) : Prop :=
  ∃ entry, view child = some entry ∧ entry.layer ≠ 0 ∧ parent ∈ entry.parents

/-- The other node is the node itself or an ancestor of it. -/
def Reaches (view : View Id Author) : Id → Id → Prop :=
  Relation.ReflTransGen (Names view)

/-- The parents of each node are there, one layer below it. -/
def Closed (view : View Id Author) : Prop :=
  ∀ child entry, view child = some entry → entry.layer ≠ 0 →
    ∀ parent ∈ entry.parents, ∃ below, view parent = some below ∧
      below.layer + 1 = entry.layer

/-- The views say the same of the nodes that they share. -/
def Agree (view other : View Id Author) : Prop :=
  ∀ id entry more, view id = some entry → other id = some more → entry = more

section History

variable {view other : View Id Author} {id earlier : Id}

theorem Closed.parent (closed : Closed view) {parent : Id}
    (names : Names view id parent) : ∃ entry, view parent = some entry := by
  obtain ⟨entry, found, above, member⟩ := names
  obtain ⟨below, atParent, _⟩ := closed id entry found above parent member
  exact ⟨below, atParent⟩

/-- A view has the whole history of its nodes. -/
theorem Closed.ancestor (closed : Closed view)
    (found : ∃ entry, view id = some entry)
    (reaches : Reaches view id earlier) :
    ∃ entry, view earlier = some entry := by
  induction reaches with
  | refl => exact found
  | tail _ names _ => exact closed.parent names

theorem Names.transfer (agree : Agree view other) {parent : Id}
    (names : Names view id parent) (found : ∃ entry, other id = some entry) :
    Names other id parent := by
  obtain ⟨entry, here, above, member⟩ := names
  obtain ⟨more, there⟩ := found
  obtain rfl := agree id entry more here there
  exact ⟨entry, there, above, member⟩

/-- What a view has in the history of a node, every view that has the node
has in its history. -/
theorem Reaches.transfer (agree : Agree view other) (closed : Closed other)
    (found : ∃ entry, other id = some entry)
    (reaches : Reaches view id earlier) : Reaches other id earlier := by
  induction reaches with
  | refl => exact .refl
  | tail _ names ih =>
      exact ih.tail (names.transfer agree (closed.ancestor found ih))

end History

/-- The views of parties that follow the rules: each node above the first
layer names a quorum of parents, and the members have at most one node each in
a layer. -/
structure Quorate (quorum : Nat) (members : Finset Author)
    (views : Peer → View Id Author) : Prop where
  closed : ∀ peer, Closed (views peer)
  agree : ∀ peer other, Agree (views peer) (views other)
  parents : ∀ peer id entry, views peer id = some entry → 2 ≤ entry.layer →
    quorum ≤ entry.parents.card
  authored : ∀ peer id entry, views peer id = some entry → 1 ≤ entry.layer →
    entry.author ∈ members
  single : ∀ peer left leftEntry other right rightEntry,
    views peer left = some leftEntry → views other right = some rightEntry →
    1 ≤ leftEntry.layer → leftEntry.layer = rightEntry.layer →
    leftEntry.author = rightEntry.author → left = right

namespace Quorate

variable {quorum : Nat} {members : Finset Author}
  {views : Peer → View Id Author}

/-- The author of a node, as far as the view has it. -/
def authorIn (view : View Id Author) (id : Id) : Option Author :=
  (view id).map Entry.author

/-- Nodes of one layer in a view have as many authors, which are members. -/
theorem card_authors [DecidableEq Author]
    (quorate : Quorate quorum members views) {peer : Peer} {layer : Nat}
    (above : 1 ≤ layer) {nodes : Finset Id}
    (there : ∀ id ∈ nodes, ∃ entry, views peer id = some entry ∧
      entry.layer = layer) :
    (nodes.image (authorIn (views peer))).card = nodes.card ∧
      nodes.image (authorIn (views peer)) ⊆ members.map .some := by
  constructor
  · apply Finset.card_image_of_injOn
    intro left leftIn right rightIn same
    obtain ⟨leftEntry, atLeft, leftLayer⟩ := there left leftIn
    obtain ⟨rightEntry, atRight, rightLayer⟩ := there right rightIn
    simp only [authorIn, atLeft, atRight, Option.map_some,
      Option.some.injEq] at same
    exact quorate.single peer left leftEntry peer right rightEntry atLeft
      atRight (by omega) (leftLayer.trans rightLayer.symm) same
  · intro author member
    obtain ⟨id, inNodes, rfl⟩ := Finset.mem_image.mp member
    obtain ⟨entry, found, atLayer⟩ := there id inNodes
    have seated := quorate.authored peer id entry found (by omega)
    simp only [authorIn, found, Option.map_some, Finset.mem_map,
      Function.Embedding.some_apply]
    exact ⟨entry.author, seated, rfl⟩

theorem card_le_members (quorate : Quorate quorum members views)
    {peer : Peer} {layer : Nat} (above : 1 ≤ layer) {nodes : Finset Id}
    (there : ∀ id ∈ nodes, ∃ entry, views peer id = some entry ∧
      entry.layer = layer) : nodes.card ≤ members.card := by
  classical
  obtain ⟨counted, seated⟩ := quorate.card_authors above there
  have bound := Finset.card_le_card seated
  rw [counted, Finset.card_map] at bound
  exact bound

/-- Two sets of nodes of one layer, perhaps in different views, have a node in
common when they are more than there are members. -/
theorem exists_common (quorate : Quorate quorum members views)
    {peer other : Peer} {layer : Nat} (above : 1 ≤ layer)
    {left right : Finset Id}
    (inPeer : ∀ id ∈ left, ∃ entry, views peer id = some entry ∧
      entry.layer = layer)
    (inOther : ∀ id ∈ right, ∃ entry, views other id = some entry ∧
      entry.layer = layer)
    (many : members.card < left.card + right.card) :
    ∃ id ∈ left, id ∈ right := by
  classical
  obtain ⟨leftCounted, leftSeated⟩ := quorate.card_authors above inPeer
  obtain ⟨rightCounted, rightSeated⟩ := quorate.card_authors above inOther
  have meets : ((left.image (authorIn (views peer))) ∩
      (right.image (authorIn (views other)))).Nonempty := by
    apply Finset.inter_nonempty_of_card_lt_card_add_card leftSeated rightSeated
    rw [Finset.card_map, leftCounted, rightCounted]
    exact many
  obtain ⟨author, shared⟩ := meets
  rw [Finset.mem_inter, Finset.mem_image, Finset.mem_image] at shared
  obtain ⟨⟨id, inLeft, wrote⟩, same, inRight, alsoWrote⟩ := shared
  obtain ⟨entry, found, atLayer⟩ := inPeer id inLeft
  obtain ⟨more, alsoFound, alsoLayer⟩ := inOther same inRight
  simp only [authorIn, found, alsoFound, Option.map_some] at wrote alsoWrote
  have equal := quorate.single peer id entry other same more found alsoFound
    (by omega) (atLayer.trans alsoLayer.symm)
    (Option.some.inj (wrote.trans alsoWrote.symm))
  exact ⟨id, inLeft, equal ▸ inRight⟩

/-- The parents of a node are in the layer below. -/
theorem parents_below (quorate : Quorate quorum members views) {peer : Peer}
    {id : Id} {entry : Entry Id Author} (found : views peer id = some entry)
    {layer : Nat} (above : entry.layer = layer + 1) :
    ∀ parent ∈ entry.parents, ∃ below, views peer parent = some below ∧
      below.layer = layer := by
  intro parent member
  obtain ⟨below, atParent, oneLess⟩ :=
    quorate.closed peer id entry found (by omega) parent member
  exact ⟨below, atParent, by omega⟩

/-- A quorum of nodes of a layer names some node of the layer below so often
that a quorum of nodes above has to meet one of those that name it. -/
theorem exists_supported (quorate : Quorate quorum members views)
    (crowded : members.card * (members.card - quorum) < quorum * quorum)
    {peer : Peer} {layer : Nat} (above : 1 ≤ layer) {nodes : Finset Id}
    (enough : quorum ≤ nodes.card)
    (there : ∀ id ∈ nodes, ∃ entry, views peer id = some entry ∧
      entry.layer = layer + 1) :
    ∃ core, (∃ entry, views peer core = some entry ∧ entry.layer = layer) ∧
      ∃ supporters ⊆ nodes, members.card - quorum < supporters.card ∧
        ∀ supporter ∈ supporters, Names (views peer) supporter core := by
  classical
  let parentsOf : Id → Finset Id := fun id =>
    ((views peer id).map Entry.parents).getD ∅
  let below : Finset Id := nodes.biUnion parentsOf
  have ofNode {id : Id} {entry : Entry Id Author}
      (found : views peer id = some entry) : parentsOf id = entry.parents := by
    simp [parentsOf, found]
  have inLayer : ∀ id ∈ below, ∃ entry, views peer id = some entry ∧
      entry.layer = layer := by
    intro id member
    obtain ⟨child, inNodes, isParent⟩ := Finset.mem_biUnion.mp member
    obtain ⟨entry, found, atLayer⟩ := there child inNodes
    rw [ofNode found] at isParent
    exact quorate.parents_below found atLayer id isParent
  by_contra unsupported
  push Not at unsupported
  -- Otherwise there are too few edges between the two layers.
  have many : ∀ id ∈ nodes, quorum ≤
      (below.bipartiteAbove (fun child parent => parent ∈ parentsOf child)
        id).card := by
    intro id inNodes
    obtain ⟨entry, found, atLayer⟩ := there id inNodes
    apply (quorate.parents peer id entry found (by omega)).trans
    apply Finset.card_le_card
    intro parent member
    rw [← ofNode found] at member
    rw [Finset.mem_bipartiteAbove]
    exact ⟨Finset.mem_biUnion.mpr ⟨id, inNodes, member⟩, member⟩
  have few : ∀ core ∈ below,
      (nodes.bipartiteBelow (fun child parent => parent ∈ parentsOf child)
        core).card ≤ members.card - quorum := by
    intro core inBelow
    by_contra supported
    obtain ⟨supporter, inSet, notNamed⟩ := unsupported core
      (inLayer core inBelow)
      (nodes.bipartiteBelow (fun child parent => parent ∈ parentsOf child)
        core) (Finset.filter_subset _ _) (by omega)
    obtain ⟨inNodes, isParent⟩ := Finset.mem_filter.mp inSet
    obtain ⟨entry, found, atLayer⟩ := there supporter inNodes
    rw [ofNode found] at isParent
    exact notNamed ⟨entry, found, by omega, isParent⟩
  have counted := Finset.card_nsmul_le_card_nsmul
    (fun child parent => parent ∈ parentsOf child) many few
  rw [nsmul_eq_mul, nsmul_eq_mul, Nat.cast_id, Nat.cast_id] at counted
  have seats := quorate.card_le_members above inLayer
  have lower := Nat.mul_le_mul_right quorum enough
  have upper := Nat.mul_le_mul_right (members.card - quorum) seats
  omega

/-- For each layer that is two layers below some node, there is a node in it
that every node from there on reaches, in every view. -/
theorem exists_core (quorate : Quorate quorum members views)
    (crowded : members.card * (members.card - quorum) < quorum * quorum)
    (some : 1 ≤ quorum) {peer : Peer} {id : Id} {entry : Entry Id Author}
    (found : views peer id = .some entry) {layer : Nat} (above : 1 ≤ layer)
    (atLayer : entry.layer = layer + 2) :
    ∃ core, (∃ base, views peer core = .some base ∧ base.layer = layer) ∧
      ∀ other later more, views other later = .some more →
        layer + 2 ≤ more.layer → Reaches (views other) later core := by
  obtain ⟨core, inLayer, supporters, among, strong, named⟩ :=
    quorate.exists_supported crowded above
      (quorate.parents peer id entry found (by omega))
      (quorate.parents_below found atLayer)
  refine ⟨core, inLayer, ?_⟩
  have supporting : ∀ supporter ∈ supporters, ∃ entry,
      views peer supporter = .some entry ∧ entry.layer = layer + 1 :=
    fun supporter member =>
      quorate.parents_below found atLayer supporter (among member)
  intro other later more
  generalize distance : more.layer = height
  intro there high
  obtain ⟨gap, rfl⟩ := Nat.exists_eq_add_of_le high
  clear high
  -- The induction is on how far the node is above the two layers.
  induction gap generalizing later more with
  | zero =>
      have quorumAbove := quorate.parents other later more there (by omega)
      have inLayer := quorate.parents_below there distance
      obtain ⟨supporter, isSupporter, isParent⟩ := quorate.exists_common
        (by omega) supporting inLayer (by omega)
      have present : ∃ entry, views other supporter = .some entry := by
        obtain ⟨entry, atParent, _⟩ := inLayer supporter isParent
        exact ⟨entry, atParent⟩
      have first : Names (views other) later supporter :=
        ⟨more, there, by omega, isParent⟩
      have second : Names (views other) supporter core :=
        (named supporter isSupporter).transfer (quorate.agree peer other)
          present
      exact .tail (.single first) second
  | succ gap ih =>
      have quorumAbove := quorate.parents other later more there (by omega)
      obtain ⟨parent, isParent⟩ := Finset.card_pos.mp
        (show 0 < more.parents.card by omega)
      obtain ⟨below, atParent, belowLayer⟩ :=
        quorate.parents_below there distance parent isParent
      exact .head ⟨more, there, by omega, isParent⟩
        (ih parent below atParent belowLayer)

end Quorate

end Histories
