import Mathlib.Algebra.GroupWithZero.Nat
import Mathlib.Algebra.Order.BigOperators.Group.List
import Mathlib.Algebra.Order.Group.Nat

/-!
# Counting semaphores

A pool of permits, and those who hold some of them.  What the holders have and
what is left are together the capacity: permits are taken at once or not at
all, and come back when their holder goes.
-/

namespace Semaphore

variable {Holder : Type}

theorem exists_split {items : List Holder} {index : Nat} {item : Holder}
    (found : items[index]? = some item) :
    ∃ before after, items = before ++ item :: after ∧
      before.length = index := by
  induction items generalizing index with
  | nil => cases found
  | cons first rest ih =>
      cases index with
      | zero =>
          cases found
          exact ⟨[], rest, rfl, rfl⟩
      | succ index =>
          obtain ⟨before, after, whole, length⟩ := ih found
          exact ⟨first :: before, after, congrArg (first :: ·) whole,
            congrArg (· + 1) length⟩

/-- The holders are kept in the order in which they came. -/
structure Pool (permits : Holder → Nat) (capacity : Nat) where
  available : Nat
  holders : List Holder
  balanced : available + (holders.map permits).sum = capacity

/-- A change of a holder in which it keeps its permits. -/
structure Change (permits : Holder → Nat) where
  apply : Holder → Option Holder
  keeps : ∀ holder changed, apply holder = some changed →
    permits changed = permits holder

namespace Pool

variable {permits : Holder → Nat} {capacity : Nat}

def new (permits : Holder → Nat) (capacity : Nat) : Pool permits capacity where
  available := capacity
  holders := []
  balanced := rfl

theorem balanced_append {available : Nat} {holders : List Holder}
    (balanced : available + (holders.map permits).sum = capacity)
    {holder : Holder} (fits : permits holder ≤ available) :
    available - permits holder + ((holders ++ [holder]).map permits).sum =
      capacity := by
  rw [List.map_append, List.sum_append, List.map_cons, List.map_nil,
    List.sum_singleton]
  omega

theorem balanced_set {available : Nat} {holders : List Holder}
    (balanced : available + (holders.map permits).sum = capacity)
    {index : Nat} {holder changed : Holder}
    (found : holders[index]? = some holder)
    (same : permits changed = permits holder) :
    available + ((holders.set index changed).map permits).sum = capacity := by
  obtain ⟨before, after, rfl, rfl⟩ := exists_split found
  rw [List.set_append_right _ _ le_rfl, Nat.sub_self, List.set_cons_zero,
    List.map_append, List.map_cons, same, ← List.map_cons, ← List.map_append]
  exact balanced

theorem balanced_eraseIdx {available : Nat} {holders : List Holder}
    (balanced : available + (holders.map permits).sum = capacity)
    {index : Nat} {holder : Holder} (found : holders[index]? = some holder) :
    available + permits holder +
      ((holders.eraseIdx index).map permits).sum = capacity := by
  obtain ⟨before, after, rfl, rfl⟩ := exists_split found
  rw [List.map_append, List.map_cons, List.sum_append, List.sum_cons]
    at balanced
  rw [List.eraseIdx_append_of_length_le le_rfl, Nat.sub_self,
    List.eraseIdx_cons_zero, List.map_append, List.sum_append]
  omega

/-- All of the permits, or none when they are not left. -/
def tryAcquire (pool : Pool permits capacity) (holder : Holder) :
    Option (Pool permits capacity) :=
  if fits : permits holder ≤ pool.available then
    some ⟨pool.available - permits holder, pool.holders ++ [holder],
      balanced_append pool.balanced fits⟩
  else none

/-- A holder goes, with all of its permits. -/
def release (pool : Pool permits capacity) (index : Nat) :
    Option (Pool permits capacity) :=
  match found : pool.holders[index]? with
  | none => none
  | some holder =>
      some ⟨pool.available + permits holder, pool.holders.eraseIdx index,
        balanced_eraseIdx pool.balanced found⟩

/-- A holder changes, if it can. -/
def modify (pool : Pool permits capacity) (index : Nat)
    (change : Change permits) : Option (Pool permits capacity) :=
  match found : pool.holders[index]? with
  | none => none
  | some holder =>
      match changes : change.apply holder with
      | none => none
      | some changed =>
          some ⟨pool.available, pool.holders.set index changed,
            balanced_set pool.balanced found
              (change.keeps holder changed changes)⟩

variable {pool next : Pool permits capacity} {index : Nat}

theorem holders_of_tryAcquire {holder : Holder}
    (acquired : pool.tryAcquire holder = some next) :
    next.holders = pool.holders ++ [holder] := by
  unfold tryAcquire at acquired
  split at acquired
  · cases acquired
    rfl
  · cases acquired

theorem holders_of_release (released : pool.release index = some next) :
    ∃ before holder after, pool.holders = before ++ holder :: after ∧
      pool.holders[index]? = some holder ∧ next.holders = before ++ after := by
  unfold release at released
  split at released
  · cases released
  · rename_i holder found
    cases released
    obtain ⟨before, after, whole, rfl⟩ := exists_split found
    refine ⟨before, holder, after, whole, found, ?_⟩
    dsimp only
    rw [whole, List.eraseIdx_append_of_length_le le_rfl, Nat.sub_self,
      List.eraseIdx_cons_zero]

theorem holders_of_modify {change : Change permits}
    (modified : pool.modify index change = some next) :
    ∃ before holder changed after, pool.holders = before ++ holder :: after ∧
      pool.holders[index]? = some holder ∧ change.apply holder = some changed ∧
      next.holders = before ++ changed :: after := by
  unfold modify at modified
  split at modified
  · cases modified
  · rename_i holder found
    split at modified
    · cases modified
    · rename_i changed changes
      cases modified
      obtain ⟨before, after, whole, rfl⟩ := exists_split found
      refine ⟨before, holder, changed, after, whole, found, changes, ?_⟩
      dsimp only
      rw [whole, List.set_append_right _ _ le_rfl, Nat.sub_self,
        List.set_cons_zero]

theorem exists_tryAcquire {holder : Holder}
    (fits : permits holder ≤ pool.available) :
    ∃ acquired, pool.tryAcquire holder = some acquired ∧
      acquired.holders = pool.holders ++ [holder] := by
  unfold tryAcquire
  rw [dif_pos fits]
  exact ⟨_, rfl, rfl⟩

theorem exists_release {holder : Holder}
    (found : pool.holders[index]? = some holder) :
    ∃ released, pool.release index = some released := by
  unfold release
  split
  · rename_i absent
    cases found.symm.trans absent
  · exact ⟨_, rfl⟩

theorem exists_modify {change : Change permits} {holder changed : Holder}
    (found : pool.holders[index]? = some holder)
    (changes : change.apply holder = some changed) :
    ∃ modified, pool.modify index change = some modified ∧
      modified.holders = pool.holders.set index changed := by
  unfold modify
  split
  · rename_i absent
    cases found.symm.trans absent
  · rename_i other isOther
    cases found.symm.trans isOther
    split
    · rename_i unchanged
      cases changes.symm.trans unchanged
    · rename_i another changesToo
      cases changes.symm.trans changesToo
      exact ⟨_, rfl, rfl⟩

/-- What the holders use together stays within the capacity when each of them
uses no more than it holds. -/
theorem sum_le_capacity (pool : Pool permits capacity) {usage : Holder → Nat}
    (within : ∀ holder ∈ pool.holders, usage holder ≤ permits holder) :
    (pool.holders.map usage).sum ≤ capacity := by
  have below := List.sum_le_sum within
  have balanced := pool.balanced
  omega

theorem available_of_nil (pool : Pool permits capacity)
    (nobody : pool.holders = []) : pool.available = capacity := by
  have balanced := pool.balanced
  rw [nobody] at balanced
  exact balanced

end Pool

end Semaphore
