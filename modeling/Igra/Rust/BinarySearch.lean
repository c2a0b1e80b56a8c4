import Mathlib.Order.Compare
import Mathlib.Order.Lattice
import Mathlib.Data.List.InsertIdx
import Mathlib.Data.List.Perm.Basic

/-!
# Binary search and sorted insertion

`slice::binary_search_by` of the Rust standard library: the loop halves the
window without leaving early on an equal element, and the answer is `Ok` with
the position of some match or `Err` with the position where the element
belongs.  Either position keeps a sorted vector sorted when the element is
inserted there.
-/

namespace Rust

/-- The window loop of `slice::binary_search_by`.  The first argument bounds
the number of iterations; the length of the slice is always enough. -/
def binarySearchLoop (order : α → Ordering) (items : List α) :
    Nat → Nat → Nat → Nat
  | 0, _, base => base
  | budget + 1, size, base =>
      if size ≤ 1 then base
      else
        let half := size / 2
        let middle := base + half
        let next :=
          match items[middle]? with
          | some item => if order item = .gt then base else middle
          | none => base
        binarySearchLoop order items budget (size - half) next

/-- `items.binary_search_by(order)`; `ok` is `Ok` and `error` is `Err`. -/
def binarySearchBy (order : α → Ordering) (items : List α) : Except Nat Nat :=
  let base := binarySearchLoop order items items.length items.length 0
  match items[base]? with
  | none => .error 0
  | some item =>
      match order item with
      | .eq => .ok base
      | .lt => .error (base + 1)
      | .gt => .error base

/-- `position.unwrap_or_else(|position| position)`. -/
def insertionPoint (result : Except Nat Nat) : Nat :=
  match result with
  | .ok position => position
  | .error position => position

section Sorted

variable {α β : Type} [LinearOrder β] {key : α → β} {target : β}
  {items : List α}

/-- The window of a running search: nothing before it exceeds the target and
everything after it does. -/
private structure Window (key : α → β) (target : β) (items : List α)
    (size base : Nat) : Prop where
  nonempty : 0 < size
  inside : base + size ≤ items.length
  before : base = 0 ∨ ∃ item, items[base]? = some item ∧ key item ≤ target
  after : ∀ position item, base + size ≤ position →
    items[position]? = some item → target < key item

private theorem le_of_sorted
    (sorted : items.Pairwise (fun left right => key left ≤ key right))
    {first second : Nat} {left right : α} (ordered : first ≤ second)
    (atFirst : items[first]? = some left)
    (atSecond : items[second]? = some right) : key left ≤ key right := by
  obtain ⟨firstBound, rfl⟩ := List.getElem?_eq_some_iff.mp atFirst
  obtain ⟨secondBound, rfl⟩ := List.getElem?_eq_some_iff.mp atSecond
  rcases Nat.lt_or_eq_of_le ordered with less | equal
  · exact List.pairwise_iff_getElem.mp sorted first second _ _ less
  · subst equal
    exact le_refl _

private theorem window_step
    (sorted : items.Pairwise (fun left right => key left ≤ key right))
    {size base : Nat} (window : Window key target items size base)
    (wide : 1 < size) :
    Window key target items (size - size / 2)
      (match items[base + size / 2]? with
        | some item =>
            if compare (key item) target = .gt then base else base + size / 2
        | none => base) := by
  have inside := window.inside
  have middleBound : base + size / 2 < items.length := by omega
  rw [List.getElem?_eq_getElem middleBound]
  have atMiddle : items[base + size / 2]? = some items[base + size / 2] :=
    List.getElem?_eq_getElem middleBound
  simp only [compare_gt_iff_gt]
  split
  · rename_i above
    refine ⟨by omega, by omega, window.before, ?_⟩
    intro position item outside found
    exact lt_of_lt_of_le above (le_of_sorted sorted (by omega) atMiddle found)
  · rename_i below
    refine ⟨by omega, by omega, .inr ⟨_, atMiddle, not_lt.mp below⟩, ?_⟩
    intro position item outside found
    exact window.after position item (by omega) found

private theorem window_loop
    (sorted : items.Pairwise (fun left right => key left ≤ key right)) :
    ∀ budget size base, size ≤ budget + 1 →
      Window key target items size base →
      Window key target items 1
        (binarySearchLoop (fun item => compare (key item) target) items
          budget size base) := by
  intro budget
  induction budget with
  | zero =>
      intro size base enough window
      have size_eq : size = 1 := by
        have := window.nonempty
        omega
      simpa [binarySearchLoop, size_eq] using size_eq ▸ window
  | succ budget ih =>
      intro size base enough window
      unfold binarySearchLoop
      split
      · rename_i narrow
        have size_eq : size = 1 := by
          have := window.nonempty
          omega
        exact size_eq ▸ window
      · rename_i wide
        exact ih _ _ (by omega) (window_step sorted window (by omega))

/-- A position that splits a sorted list around a target. -/
structure SplitsAt (key : α → β) (target : β) (items : List α)
    (position : Nat) : Prop where
  bound : position ≤ items.length
  before : ∀ item ∈ items.take position, key item ≤ target
  after : ∀ item ∈ items.drop position, target ≤ key item

private theorem splitsAt_of_getElem?
    {position : Nat} (bound : position ≤ items.length)
    (before : ∀ index item, index < position →
      items[index]? = some item → key item ≤ target)
    (after : ∀ index item, position ≤ index →
      items[index]? = some item → target ≤ key item) :
    SplitsAt key target items position := by
  refine ⟨bound, ?_, ?_⟩
  · intro item member
    obtain ⟨index, found⟩ := List.mem_iff_getElem?.mp member
    rw [List.getElem?_take] at found
    split at found
    · rename_i less
      exact before index item less found
    · simp at found
  · intro item member
    obtain ⟨index, found⟩ := List.mem_iff_getElem?.mp member
    rw [List.getElem?_drop] at found
    exact after (position + index) item (by omega) found

/-- Whatever `binary_search_by` answers on a sorted slice, the position it
names splits the slice around the target. -/
theorem binarySearchBy_splitsAt (key : α → β) (target : β)
    (sorted : items.Pairwise (fun left right => key left ≤ key right)) :
    SplitsAt key target items
      (insertionPoint
        (binarySearchBy (fun item => compare (key item) target) items)) := by
  cases empty : items with
  | nil =>
      refine ⟨?_, ?_, ?_⟩ <;>
        simp [binarySearchBy, binarySearchLoop, insertionPoint]
  | cons head tail =>
      rw [← empty]
      have positive : 0 < items.length := by simp [empty]
      have start : Window key target items items.length 0 := by
        refine ⟨positive, by omega, .inl rfl, ?_⟩
        intro position item outside found
        have := (List.getElem?_eq_some_iff.mp found).1
        omega
      have final := window_loop sorted items.length items.length 0
        (by omega) start
      unfold binarySearchBy
      generalize binarySearchLoop (fun item => compare (key item) target)
        items items.length items.length 0 = base at final
      have baseBound : base < items.length := by
        have := final.inside
        omega
      have atBase : items[base]? = some items[base] :=
        List.getElem?_eq_getElem baseBound
      simp only [atBase]
      rcases lt_trichotomy (key items[base]) target with less | equal | greater
      · rw [compare_lt_iff_lt.mpr less]
        refine splitsAt_of_getElem? (Nat.succ_le_of_lt baseBound) ?_ ?_
        · intro index item inFront found
          have ordered := le_of_sorted sorted
            (by simp only [insertionPoint] at inFront; omega) found atBase
          exact ordered.trans less.le
        · intro index item behind found
          exact (final.after index item
            (by simpa [insertionPoint] using behind) found).le
      · rw [compare_eq_iff_eq.mpr equal]
        refine splitsAt_of_getElem? (Nat.le_of_lt baseBound) ?_ ?_
        · intro index item inFront found
          have ordered := le_of_sorted sorted
            (by simp only [insertionPoint] at inFront; omega) found atBase
          exact ordered.trans equal.le
        · intro index item behind found
          have ordered := le_of_sorted sorted
            (by simpa [insertionPoint] using behind) atBase found
          exact equal.ge.trans ordered
      · rw [compare_gt_iff_gt.mpr greater]
        -- a first element above the target leaves the window only at the front
        have front : base = 0 := by
          rcases final.before with zero | ⟨item, found, below⟩
          · exact zero
          · rw [atBase] at found
            cases found
            exact absurd below (not_le.mpr greater)
        subst front
        refine splitsAt_of_getElem? (by simp [insertionPoint]) ?_ ?_
        · intro index item inFront found
          simp [insertionPoint] at inFront
        · intro index item _ found
          exact greater.le.trans
            (le_of_sorted sorted (Nat.zero_le _) atBase found)

private theorem insertIdx_eq_take_cons_drop (element : α) :
    ∀ (items : List α) (position : Nat), position ≤ items.length →
      items.insertIdx position element =
        items.take position ++ element :: items.drop position
  | items, 0, _ => by simp
  | [], position + 1, bound => by simp at bound
  | item :: items, position + 1, bound => by
      simp [insertIdx_eq_take_cons_drop element items position
        (by simpa using bound)]

/-- Inserting at a splitting position keeps a sorted list sorted. -/
theorem SplitsAt.insertIdx_sorted
    {position : Nat} {element : α}
    (sorted : items.Pairwise (fun left right => key left ≤ key right))
    (splits : SplitsAt key (key element) items position) :
    (items.insertIdx position element).Pairwise
      (fun left right => key left ≤ key right) := by
  rw [insertIdx_eq_take_cons_drop element items position splits.bound]
  have halves : (items.take position ++ items.drop position).Pairwise
      (fun left right => key left ≤ key right) := by
    rw [List.take_append_drop]
    exact sorted
  obtain ⟨front, back, across⟩ := List.pairwise_append.mp halves
  rw [List.pairwise_append, List.pairwise_cons]
  refine ⟨front, ⟨splits.after, back⟩, ?_⟩
  intro left inFront right member
  rcases List.mem_cons.mp member with rfl | inBack
  · exact splits.before left inFront
  · exact across left inFront right inBack

end Sorted

end Rust
