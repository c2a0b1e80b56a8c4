import Igra.Json

/-!
# Paths into JSON values

Where one value stands inside another, and changes in place: of one field of an
object, or of every item of an array.  Such a change, repeated level by level,
is felt at certain places only.
-/

namespace Json

inductive PathStep where
  | field (key : String)
  | item (index : Nat)
deriving DecidableEq

abbrev Path := List PathStep

/-- The value at a path. -/
def at? : Path → Json → Option Json
  | [], value => some value
  | .field key :: rest, value => (value.get? key).bind (at? rest)
  | .item index :: rest, .array items => items[index]?.bind (at? rest)
  | .item _ :: _, _ => none

/-- A value without what stands below it. -/
inductive Node where
  | null
  | bool (value : Bool)
  | number (value : JsonNumber)
  | string (text : String)
  | array (length : Nat)
  | object (keys : List String)

def node : Json → Node
  | .null => .null
  | .bool value => .bool value
  | .number value => .number value
  | .string text => .string text
  | .array items => .array items.length
  | .object fields => .object (fields.map Prod.fst)

def nodeAt (path : Path) (value : Json) : Option Node :=
  (value.at? path).map node

section Changes

/-- The first field of a name. -/
def modifyEntry (key : String) (change : Json → Json) :
    List (String × Json) → List (String × Json)
  | [] => []
  | (name, value) :: rest =>
      if name = key then (name, change value) :: rest
      else (name, value) :: modifyEntry key change rest

/-- A change through `get_mut(key)`. -/
def modifyField (key : String) (change : Json → Json) : Json → Json
  | .object fields => .object (modifyEntry key change fields)
  | value => value

/-- A change of each item through `as_array_mut`. -/
def modifyItems (change : Json → Json) : Json → Json
  | .array items => .array (items.map change)
  | value => value

variable {key : String} {change : Json → Json}

theorem modifyEntry_modifyEntry
    (idempotent : ∀ value, change (change value) = change value)
    (fields : List (String × Json)) :
    modifyEntry key change (modifyEntry key change fields) =
      modifyEntry key change fields := by
  induction fields with
  | nil => rfl
  | cons entry rest ih =>
      obtain ⟨name, value⟩ := entry
      by_cases same : name = key
      · simp [modifyEntry, same, idempotent]
      · simp [modifyEntry, same, ih]

@[simp] theorem map_fst_modifyEntry (fields : List (String × Json)) :
    (modifyEntry key change fields).map Prod.fst = fields.map Prod.fst := by
  induction fields with
  | nil => rfl
  | cons entry rest ih =>
      obtain ⟨name, value⟩ := entry
      by_cases same : name = key
      · simp [modifyEntry, same]
      · simp [modifyEntry, same, ih]

theorem lookup_modifyEntry (other : String) (fields : List (String × Json)) :
    (modifyEntry key change fields).lookup other =
      if other = key then (fields.lookup other).map change
      else fields.lookup other := by
  induction fields with
  | nil => simp [modifyEntry]
  | cons entry rest ih =>
      obtain ⟨name, value⟩ := entry
      by_cases same : name = key
      · subst same
        by_cases here : other = name
        · simp [modifyEntry, here]
        · have elsewhere : (other == name) = false := by simp [here]
          simp [modifyEntry, List.lookup_cons, here, elsewhere]
      · by_cases here : other = name
        · simp [modifyEntry, here, same]
        · have elsewhere : (other == name) = false := by simp [here]
          simp [modifyEntry, same, List.lookup_cons, elsewhere, ih]

theorem modifyField_modifyField
    (idempotent : ∀ value, change (change value) = change value)
    (value : Json) :
    modifyField key change (modifyField key change value) =
      modifyField key change value := by
  cases value with
  | object fields =>
      simp only [modifyField, modifyEntry_modifyEntry idempotent]
  | null | bool | number | string | array => rfl

theorem modifyItems_modifyItems
    (idempotent : ∀ value, change (change value) = change value)
    (value : Json) :
    modifyItems change (modifyItems change value) =
      modifyItems change value := by
  cases value with
  | array items => simp [modifyItems, Function.comp_def, idempotent]
  | null | bool | number | string | object => rfl

@[simp] theorem node_modifyField (value : Json) :
    (modifyField key change value).node = value.node := by
  cases value with
  | object fields => simp [modifyField, node]
  | null | bool | number | string | array => rfl

@[simp] theorem node_modifyItems (value : Json) :
    (modifyItems change value).node = value.node := by
  cases value with
  | array items => simp [modifyItems, node]
  | null | bool | number | string | object => rfl

theorem get?_modifyField (other : String) (value : Json) :
    (modifyField key change value).get? other =
      if other = key then (value.get? other).map change
      else value.get? other := by
  cases value with
  | object fields => exact lookup_modifyEntry other fields
  | null | bool | number | string | array => simp [modifyField, get?]

end Changes

/-- The change is made at the given places and felt nowhere else. -/
structure ChangesOnlyAt (places : Path → Prop) (change : Json → Json)
    (rewrite : Json → Json) : Prop where
  inside : ∀ path value, places path →
    (rewrite value).at? path = (value.at? path).map change
  outside : ∀ path value, ¬places path →
    nodeAt path (rewrite value) = nodeAt path value

namespace ChangesOnlyAt

variable {places : Path → Prop} {change rewrite : Json → Json}

/-- A change of the value itself that leaves alone what stands below. -/
theorem root (below : ∀ step rest value,
      nodeAt (step :: rest) (change value) = nodeAt (step :: rest) value) :
    ChangesOnlyAt (fun path => path = []) change change where
  inside := by
    rintro path value rfl
    rfl
  outside path value := by
    cases path with
    | nil => exact fun elsewhere => absurd rfl elsewhere
    | cons step rest => exact fun _ => below step rest value

theorem modifyField (only : ChangesOnlyAt places change rewrite)
    (key : String) :
    ChangesOnlyAt
      (fun path => ∃ rest, path = .field key :: rest ∧ places rest)
      change (modifyField key rewrite) where
  inside := by
    rintro path value ⟨rest, rfl, place⟩
    rw [at?, at?, get?_modifyField, if_pos rfl]
    cases value.get? key with
    | none => rfl
    | some inner => exact only.inside rest inner place
  outside path value elsewhere := by
    cases path with
    | nil => simp [nodeAt, at?]
    | cons step rest =>
        cases step with
        | item index =>
            cases value with
            | object fields => rfl
            | null | bool | number | string | array => rfl
        | field other =>
            rw [nodeAt, nodeAt, at?, at?, get?_modifyField]
            by_cases same : other = key
            · subst same
              have notPlace : ¬places rest := fun place =>
                elsewhere ⟨rest, rfl, place⟩
              rw [if_pos rfl]
              cases value.get? other with
              | none => rfl
              | some inner => exact only.outside rest inner notPlace
            · rw [if_neg same]

theorem modifyItems (only : ChangesOnlyAt places change rewrite) :
    ChangesOnlyAt
      (fun path => ∃ index rest, path = .item index :: rest ∧ places rest)
      change (modifyItems rewrite) where
  inside := by
    rintro path value ⟨index, rest, rfl, place⟩
    cases value with
    | array items =>
        rw [Json.modifyItems, at?, at?, List.getElem?_map]
        cases items[index]? with
        | none => rfl
        | some inner => exact only.inside rest inner place
    | null | bool | number | string | object => rfl
  outside path value elsewhere := by
    cases path with
    | nil => simp [nodeAt, at?]
    | cons step rest =>
        cases step with
        | field other =>
            cases value with
            | array items => rfl
            | null | bool | number | string | object => rfl
        | item index =>
            have notPlace : ¬places rest := fun place =>
              elsewhere ⟨index, rest, rfl, place⟩
            cases value with
            | array items =>
                rw [nodeAt, nodeAt, Json.modifyItems, at?, at?,
                  List.getElem?_map]
                cases items[index]? with
                | none => rfl
                | some inner => exact only.outside rest inner notPlace
            | null | bool | number | string | object => rfl

end ChangesOnlyAt

end Json
