import Igra.Rust.HashMap
import Igra.Rust.Integer
import Mathlib.Data.Finset.Option

/-!
# The layered graph

Vertices are kept by id, and the ids by layer.  The parents of a vertex are
looked for in the layer below it only.
-/

open Rust

namespace Calf

structure Vertex (α : Type) where
  data : α
  layer : UInt64
  parents : Finset String
  id : String

structure Dag (α : Type) where
  vertices : HashMap String (Vertex α)
  verticesByLayers : HashMap UInt64 (Finset String)
  height : UInt64
  baseLayer : UInt64

inductive DagError where
  | missingParents (parents : Finset String)
deriving DecidableEq

namespace Dag

variable {α : Type}

def new (baseLayer : UInt64) : Dag α where
  vertices := ∅
  verticesByLayers := ∅
  height := baseLayer
  baseLayer := baseLayer

def checkParents (dag : Dag α) (vertex : Vertex α) : Except DagError Unit :=
  if vertex.layer = 0 then .ok ()
  else
    match dag.verticesByLayers.lookup (vertex.layer - 1) with
    | some potentialParents =>
        if vertex.parents ⊆ potentialParents then .ok ()
        else .error (.missingParents (vertex.parents \ potentialParents))
    | none => .error (.missingParents vertex.parents)

/-- The ids of a layer, none when the layer does not exist. -/
def ids (dag : Dag α) (layer : UInt64) : Finset String :=
  (dag.verticesByLayers.lookup layer).getD ∅

/-- The vertex is inserted also when its parents are missing. -/
def insert (dag : Dag α) (vertex : Vertex α) :
    Dag α × Except DagError Unit :=
  ({ dag with
      vertices := dag.vertices.insert vertex.id vertex
      verticesByLayers := dag.verticesByLayers.insert vertex.layer
        (Insert.insert vertex.id (dag.ids vertex.layer))
      height :=
        if vertex.layer > dag.height then vertex.layer else dag.height },
    dag.checkParents vertex)

def insertChecked (dag : Dag α) (vertex : Vertex α) :
    Dag α × Except DagError Unit :=
  match dag.checkParents vertex with
  | .error error => (dag, .error error)
  | .ok () => dag.insert vertex

/-- The `unwrap` of the root's insertion panics when the base layer is not 0. -/
def newWithRoot (baseLayer : UInt64) (root : Vertex α) :
    Outcome Empty (Dag α) :=
  match (new baseLayer).insert root with
  | (dag, .ok ()) => .ok dag
  | (_, .error _) => Outcome.panic

def layerSize (dag : Dag α) (layer : UInt64) : Nat :=
  (dag.ids layer).card

/-- `layer_data`, as the set into which the caller collects it. -/
def layerData [DecidableEq α] (dag : Dag α) (layer : UInt64) : Finset α :=
  Finset.eraseNone ((dag.ids layer).image fun id =>
    (dag.vertices.lookup id).map Vertex.data)

variable {dag : Dag α} {vertex : Vertex α}

theorem checkParents_eq_ok :
    dag.checkParents vertex = .ok () ↔
      vertex.layer = 0 ∨
        (vertex.layer - 1 ∈ dag.verticesByLayers ∧
          vertex.parents ⊆ dag.ids (vertex.layer - 1)) := by
  unfold checkParents ids
  by_cases base : vertex.layer = 0
  · simp [base]
  · rw [if_neg base, ← AList.lookup_isSome]
    cases dag.verticesByLayers.lookup (vertex.layer - 1) with
    | none => simp [base]
    | some potentialParents => simp [base]

theorem insertChecked_of_ok (found : dag.checkParents vertex = .ok ()) :
    dag.insertChecked vertex = dag.insert vertex := by
  simp [insertChecked, found]

theorem layer_mem_of_mem_ids {layer : UInt64} {id : String}
    (listed : id ∈ dag.ids layer) : layer ∈ dag.verticesByLayers := by
  by_contra absent
  rw [ids, AList.lookup_eq_none.mpr absent] at listed
  exact absurd listed (Finset.notMem_empty id)

theorem ids_insert (layer : UInt64) :
    (dag.insert vertex).1.ids layer =
      if layer = vertex.layer then Insert.insert vertex.id (dag.ids layer)
      else dag.ids layer := by
  by_cases same : layer = vertex.layer
  · subst same
    simp [insert, ids]
  · rw [if_neg same]
    simp only [insert, ids]
    rw [AList.lookup_insert_ne same]

theorem lookup_insert (id : String) :
    (dag.insert vertex).1.vertices.lookup id =
      if id = vertex.id then some vertex else dag.vertices.lookup id := by
  by_cases same : id = vertex.id
  · subst same
    simp [insert]
  · rw [if_neg same]
    simp only [insert]
    rw [AList.lookup_insert_ne same]

private theorem height_insert :
    (dag.insert vertex).1.height = max dag.height vertex.layer := by
  rcases lt_or_ge dag.height vertex.layer with higher | below
  · rw [max_eq_right (le_of_lt higher)]
    exact if_pos higher
  · rw [max_eq_left below]
    exact if_neg (not_lt_of_ge below)

theorem mem_layerData [DecidableEq α] {layer : UInt64} {data : α} :
    data ∈ dag.layerData layer ↔
      ∃ id ∈ dag.ids layer, ∃ vertex,
        dag.vertices.lookup id = some vertex ∧ vertex.data = data := by
  simp [layerData, Finset.mem_eraseNone]

section Layers

/-- Each id is in exactly the layer of its vertex, the parents of a vertex are
in the layer below, and the height is the largest layer in use. -/
structure Layered (dag : Dag α) : Prop where
  listed : ∀ id layer, id ∈ dag.ids layer ↔
    ∃ vertex, dag.vertices.lookup id = some vertex ∧ vertex.layer = layer
  keyed : ∀ id vertex, dag.vertices.lookup id = some vertex → vertex.id = id
  grounded : ∀ id vertex, dag.vertices.lookup id = some vertex →
    vertex.layer ≠ 0 → vertex.parents ⊆ dag.ids (vertex.layer - 1)
  heightUsed : (dag.ids dag.height).Nonempty
  heightLargest : ∀ layer, (dag.ids layer).Nonempty → layer ≤ dag.height

theorem ids_subset_insert (layer : UInt64) :
    dag.ids layer ⊆ (dag.insert vertex).1.ids layer := by
  rw [ids_insert]
  split
  · exact Finset.subset_insert _ _
  · exact Finset.Subset.refl _

theorem Layered.listed_insert (layered : dag.Layered)
    (settled : ∀ old, dag.vertices.lookup vertex.id = some old →
      old.layer = vertex.layer) (id : String) (layer : UInt64) :
    id ∈ (dag.insert vertex).1.ids layer ↔
      ∃ stored, (dag.insert vertex).1.vertices.lookup id = some stored ∧
        stored.layer = layer := by
  rw [ids_insert, lookup_insert]
  by_cases same : id = vertex.id
  · subst same
    have atOther (other : UInt64) (member : vertex.id ∈ dag.ids other) :
        vertex.layer = other := by
      obtain ⟨old, stored, atLayer⟩ := (layered.listed _ _).mp member
      rw [← atLayer, settled old stored]
    by_cases here : layer = vertex.layer
    · simp [here]
    · rw [if_neg here, if_pos rfl]
      constructor
      · intro member
        exact absurd (atOther layer member).symm here
      · rintro ⟨stored, isVertex, atLayer⟩
        cases isVertex
        exact absurd atLayer.symm here
  · rw [if_neg same, ← layered.listed]
    split
    · simp [same]
    · rfl

/-- Inserting a vertex whose parents are there, under a new id or one that its
layer already has. -/
theorem Layered.insert (layered : dag.Layered)
    (found : dag.checkParents vertex = .ok ())
    (settled : ∀ old, dag.vertices.lookup vertex.id = some old →
      old.layer = vertex.layer) :
    (dag.insert vertex).1.Layered where
  listed := layered.listed_insert settled
  keyed := by
    intro id stored atId
    rw [lookup_insert] at atId
    split at atId
    · rename_i same
      cases atId
      exact same.symm
    · exact layered.keyed id stored atId
  grounded := by
    intro id stored atId above
    rw [lookup_insert] at atId
    split at atId
    · cases atId
      rcases checkParents_eq_ok.mp found with base | ⟨_, parents⟩
      · exact absurd base above
      · exact parents.trans (ids_subset_insert _)
    · exact (layered.grounded id stored atId above).trans
        (ids_subset_insert _)
  heightUsed := by
    rw [height_insert]
    rcases max_choice dag.height vertex.layer with old | new
    · rw [old]
      exact layered.heightUsed.mono (ids_subset_insert _)
    · rw [new, ids_insert, if_pos rfl]
      exact Finset.insert_nonempty _ _
  heightLargest := by
    intro layer used
    rw [height_insert]
    rw [ids_insert] at used
    split at used
    · rename_i same
      rw [same]
      exact le_max_right _ _
    · exact (layered.heightLargest layer used).trans (le_max_left _ _)

theorem lookup_root {root : Vertex α} (id : String) :
    ((new 0).insert root).1.vertices.lookup id =
      if id = root.id then some root else none := by
  rw [lookup_insert]
  rfl

/-- The graph of one vertex at layer 0. -/
theorem layered_root {root : Vertex α} (base : root.layer = 0) :
    ((new 0).insert root).1.Layered := by
  have atLayer (layer : UInt64) :
      ((new 0).insert root).1.ids layer =
        if layer = 0 then {root.id} else ∅ := by
    rw [ids_insert, base]
    rfl
  have rootOnly {id : String} {vertex : Vertex α}
      (found : ((new 0).insert root).1.vertices.lookup id = some vertex) :
      id = root.id ∧ vertex = root := by
    rw [lookup_root] at found
    split at found
    · rename_i same
      exact ⟨same, (Option.some.inj found).symm⟩
    · cases found
  constructor
  · intro id layer
    rw [atLayer]
    constructor
    · intro member
      split at member
      · rename_i bottom
        obtain rfl := Finset.mem_singleton.mp member
        exact ⟨root, by simp [lookup_root], base.trans bottom.symm⟩
      · exact absurd member (Finset.notMem_empty id)
    · rintro ⟨vertex, found, rfl⟩
      obtain ⟨rfl, rfl⟩ := rootOnly found
      simp [base]
  · intro id vertex found
    obtain ⟨rfl, rfl⟩ := rootOnly found
    rfl
  · intro id vertex found above
    obtain ⟨rfl, rfl⟩ := rootOnly found
    exact absurd base above
  · have height : ((new 0).insert root).1.height = 0 := by
      simp [insert, new, base]
    rw [height, atLayer]
    exact Finset.singleton_nonempty _
  · intro layer used
    rw [atLayer] at used
    split at used
    · rename_i bottom
      rw [bottom]
      exact UInt64.zero_le
    · exact absurd used Finset.not_nonempty_empty

end Layers

end Dag

end Calf
