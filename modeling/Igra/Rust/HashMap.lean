import Mathlib.Data.Finmap

/-!
# Hash maps

A `HashMap` is an association list with distinct keys.  Rust leaves the
iteration order of a map open, so code that iterates takes an
`IterationOrder`, of which nothing is known but that it visits every entry
once.
-/

namespace Rust

abbrev HashMap (α β : Type) := AList (fun _ : α => β)

/-- The order in which `map.iter()` visits the entries of each map. -/
structure IterationOrder (α β : Type) [DecidableEq α] where
  entries : HashMap α β → List (α × β)
  perm : ∀ map, (entries map).Perm
    (map.entries.map fun entry => (entry.1, entry.2))

/-- One order that Rust may choose. -/
def IterationOrder.stored (α β : Type) [DecidableEq α] :
    IterationOrder α β where
  entries map := map.entries.map fun entry => (entry.1, entry.2)
  perm _ := List.Perm.refl _

namespace HashMap

variable {α β : Type}

/-- `map.values()` up to order. -/
def values (map : HashMap α β) : List β :=
  map.entries.map Sigma.snd

/-- Every value is stored under its own key. -/
def Keyed (key : β → α) (map : HashMap α β) : Prop :=
  ∀ entry ∈ map.entries, key entry.2 = entry.1

@[simp] theorem values_empty : values (∅ : HashMap α β) = [] :=
  rfl

theorem keyed_empty (key : β → α) : Keyed key (∅ : HashMap α β) := by
  intro entry member
  cases member

theorem Keyed.map_values {key : β → α} {map : HashMap α β}
    (keyed : Keyed key map) : (values map).map key = map.keys := by
  simp only [values, AList.keys, List.keys, List.map_map]
  exact List.map_congr_left fun entry member => keyed entry member

theorem Keyed.nodup_values {key : β → α} {map : HashMap α β}
    (keyed : Keyed key map) : ((values map).map key).Nodup := by
  rw [keyed.map_values]
  exact map.keys_nodup

variable [DecidableEq α]

@[simp] theorem values_insert (map : HashMap α β) (newKey : α) (value : β) :
    values (map.insert newKey value) = value :: values (map.erase newKey) := by
  simp [values, AList.entries_insert, AList.erase]

theorem Keyed.insert {key : β → α} {map : HashMap α β}
    (keyed : Keyed key map) (value : β) :
    Keyed key (map.insert (key value) value) := by
  intro entry member
  rw [AList.entries_insert] at member
  rcases List.mem_cons.mp member with rfl | older
  · rfl
  · exact keyed entry (List.kerase_sublist _ _ |>.subset older)

theorem Keyed.erase {key : β → α} {map : HashMap α β}
    (keyed : Keyed key map) (oldKey : α) : Keyed key (map.erase oldKey) := by
  intro entry member
  exact keyed entry (List.kerase_sublist _ _ |>.subset member)

theorem mem_values_iff {map : HashMap α β} {value : β} :
    value ∈ values map ↔ ∃ key, map.lookup key = some value := by
  simp only [values, List.mem_map, AList.mem_lookup_iff, ← Option.mem_def]
  constructor
  · rintro ⟨⟨key, stored⟩, member, rfl⟩
    exact ⟨key, member⟩
  · rintro ⟨key, member⟩
    exact ⟨⟨key, value⟩, member, rfl⟩

theorem Keyed.lookup_iff {key : β → α} {map : HashMap α β}
    (keyed : Keyed key map) {oldKey : α} {value : β} :
    map.lookup oldKey = some value ↔
      value ∈ values map ∧ key value = oldKey := by
  rw [mem_values_iff]
  constructor
  · intro found
    have member := AList.mem_lookup_iff.mp (Option.mem_def.mpr found)
    exact ⟨⟨oldKey, found⟩, keyed _ member⟩
  · rintro ⟨⟨storedKey, found⟩, rfl⟩
    have member := AList.mem_lookup_iff.mp (Option.mem_def.mpr found)
    rw [keyed _ member]
    exact found

/-- A stored value is split off by erasing its key. -/
theorem values_perm_erase {map : HashMap α β} {key : α} {value : β}
    (found : map.lookup key = some value) :
    (values map).Perm (value :: values (map.erase key)) := by
  have member := AList.mem_lookup_iff.mp (Option.mem_def.mpr found)
  obtain ⟨stored, front, back, fresh, whole, erased⟩ :=
    List.exists_of_kerase (List.mem_keys_of_mem member)
  have stored_eq : stored = value := by
    have storedMember : (⟨key, stored⟩ : Sigma fun _ : α => β) ∈
        map.entries := by
      rw [whole]
      simp
    exact map.nodupKeys.eq_of_mk_mem storedMember member
  subst stored_eq
  simp only [values, AList.erase, erased]
  rw [whole]
  simp [List.perm_middle]

theorem values_erase_of_notMem {map : HashMap α β} {key : α}
    (absent : key ∉ map) : values (map.erase key) = values map := by
  have unchanged : List.kerase key map.entries = map.entries :=
    List.kerase_of_notMem_keys (fun member => absent (AList.mem_keys.mpr member))
  simp [values, AList.erase, unchanged]

/-- `for value in items { map.insert(key(value), value) }`. -/
def insertAll (key : β → α) (map : HashMap α β)
    (items : List β) : HashMap α β :=
  items.foldl (fun current value => current.insert (key value) value) map

theorem Keyed.insertAll {key : β → α} {map : HashMap α β}
    (keyed : Keyed key map) (items : List β) :
    Keyed key (insertAll key map items) := by
  induction items generalizing map with
  | nil => exact keyed
  | cons item items ih => exact ih (keyed.insert item)

theorem mem_insertAll {key : β → α} {map : HashMap α β} {items : List β}
    {other : α} :
    other ∈ insertAll key map items ↔
      other ∈ items.map key ∨ other ∈ map := by
  induction items generalizing map with
  | nil => simp [insertAll]
  | cons item items ih =>
      have step := @ih (map.insert (key item) item)
      rw [AList.mem_insert] at step
      rw [List.map_cons, List.mem_cons]
      exact step.trans (by tauto)

theorem values_insertAll_perm {key : β → α} (map : HashMap α β)
    {items : List β} (distinct : (items.map key).Nodup)
    (fresh : ∀ item ∈ items, key item ∉ map) :
    (values (insertAll key map items)).Perm (items ++ values map) := by
  induction items generalizing map with
  | nil => exact List.Perm.refl _
  | cons item items ih =>
      obtain ⟨apart, rest⟩ := List.nodup_cons.mp distinct
      have inserted := ih (map.insert (key item) item) rest (by
        intro other member
        rw [AList.mem_insert, not_or]
        refine ⟨?_, fresh other (List.mem_cons_of_mem _ member)⟩
        intro same
        exact apart (same ▸ List.mem_map_of_mem member))
      rw [values_insert, values_erase_of_notMem
        (fresh item List.mem_cons_self)] at inserted
      exact inserted.trans List.perm_middle

/-- A stored value is one of the items, or no item has its key. -/
theorem lookup_insertAll {key : β → α} {map : HashMap α β}
    {items : List β} {other : α} {value : β}
    (found : (insertAll key map items).lookup other = some value) :
    (value ∈ items ∧ key value = other) ∨
      (other ∉ items.map key ∧ map.lookup other = some value) := by
  induction items generalizing map with
  | nil => exact .inr ⟨List.not_mem_nil, found⟩
  | cons item items ih =>
      rcases ih found with ⟨member, same⟩ | ⟨absent, older⟩
      · exact .inl ⟨List.mem_cons_of_mem _ member, same⟩
      · by_cases same : other = key item
        · subst same
          rw [AList.lookup_insert] at older
          cases older
          exact .inl ⟨List.mem_cons_self, rfl⟩
        · rw [AList.lookup_insert_ne same] at older
          right
          rw [List.map_cons, List.mem_cons, not_or]
          exact ⟨⟨same, absent⟩, older⟩

end HashMap

section Seen

variable {α β : Type} [DecidableEq β]

/-- The items whose key is not in the `HashSet` of keys seen before, as in
`if seen.insert(key(item)) { kept.push(item) }`. -/
def distinctOn (key : α → β) (items : List α) : List α :=
  items.eraseDupsBy fun left right => decide (key left = key right)

theorem distinctOn_cons (key : α → β) (item : α) (items : List α) :
    distinctOn key (item :: items) =
      item :: distinctOn key
        (items.filter fun other => decide (key other ≠ key item)) := by
  simp [distinctOn, List.eraseDupsBy_cons]

/-- Items with different keys are all kept. -/
theorem distinctOn_eq_self {key : α → β} {items : List α}
    (distinct : (items.map key).Nodup) : distinctOn key items = items := by
  induction items with
  | nil => rfl
  | cons item items ih =>
      rw [List.map_cons, List.nodup_cons] at distinct
      obtain ⟨fresh, rest⟩ := distinct
      rw [distinctOn_cons, List.filter_eq_self.mpr, ih rest]
      intro other member
      rw [decide_eq_true_eq]
      intro same
      exact fresh (same ▸ List.mem_map_of_mem member)

private theorem distinctOn_keeps (key : α → β) (count : Nat) :
    ∀ items : List α, items.length ≤ count →
      ((distinctOn key items).map key).Nodup ∧
        (∀ item ∈ distinctOn key items, item ∈ items) ∧
        ∀ item ∈ items, ∃ kept ∈ distinctOn key items,
          key kept = key item := by
  induction count with
  | zero =>
      intro items short
      obtain rfl := List.length_eq_zero_iff.mp (Nat.le_zero.mp short)
      exact ⟨List.nodup_nil, fun item member => member,
        fun item member => absurd member List.not_mem_nil⟩
  | succ count ih =>
      intro items short
      cases items with
      | nil =>
          exact ⟨List.nodup_nil, fun item member => member,
            fun item member => absurd member List.not_mem_nil⟩
      | cons item items =>
          have shorter := List.length_filter_le
            (fun other => decide (key other ≠ key item)) items
          rw [List.length_cons] at short
          obtain ⟨distinct, kept, represented⟩ := ih
            (items.filter fun other => decide (key other ≠ key item))
            (by omega)
          rw [distinctOn_cons]
          refine ⟨?_, ?_, ?_⟩
          · rw [List.map_cons, List.nodup_cons]
            refine ⟨?_, distinct⟩
            intro repeated
            obtain ⟨other, member, same⟩ := List.mem_map.mp repeated
            have differs := (List.mem_filter.mp (kept other member)).2
            rw [decide_eq_true_eq] at differs
            exact differs same
          · intro other member
            rcases List.mem_cons.mp member with rfl | later
            · exact List.mem_cons_self
            · exact List.mem_cons_of_mem _
                (List.mem_filter.mp (kept other later)).1
          · intro other member
            by_cases same : key other = key item
            · exact ⟨item, List.mem_cons_self, same.symm⟩
            · rcases List.mem_cons.mp member with rfl | later
              · exact absurd rfl same
              · obtain ⟨keeper, inKept, equal⟩ := represented other
                  (List.mem_filter.mpr ⟨later, decide_eq_true same⟩)
                exact ⟨keeper, List.mem_cons_of_mem _ inKept, equal⟩

theorem nodup_map_distinctOn (key : α → β) (items : List α) :
    ((distinctOn key items).map key).Nodup :=
  (distinctOn_keeps key items.length items le_rfl).1

/-- With a key of its own for each item, every item stays. -/
theorem mem_distinctOn {key : α → β} (distinct : Function.Injective key)
    {item : α} {items : List α} :
    item ∈ distinctOn key items ↔ item ∈ items := by
  obtain ⟨-, kept, represented⟩ :=
    distinctOn_keeps key items.length items le_rfl
  constructor
  · exact kept item
  · intro member
    obtain ⟨keeper, inKept, same⟩ := represented item member
    obtain rfl := distinct same
    exact inKept

end Seen

end Rust
