import Igra.Rust.Outcome
import Mathlib.Data.List.DropRight
import Mathlib.Data.List.ReduceOption
import Mathlib.Data.List.Rotate

/-!
# The digest buffer

A circular buffer keeps the last items pushed, as many as it has slots.  A
drain empties the slots and leaves the write position where it is, so the items
of the next round may start in the middle; older slots, empty or not, are
rotated out.
-/

open Rust

namespace Calf

structure CircularBuffer (α : Type) where
  buffer : List (Option α)
  size : Nat
  head : Nat

/-- A call of the buffer. -/
inductive BufferCall (α : Type) where
  | push (item : α)
  | drain

namespace CircularBuffer

variable {α : Type}

def new (size : Nat) : CircularBuffer α :=
  ⟨List.replicate size none, size, 0⟩

/-- `buffer[index] = Some(item)`. -/
def store (buffer : List (Option α)) (index : Nat) (item : α) :
    Outcome Empty (List (Option α)) :=
  if index < buffer.length then .ok (buffer.set index (some item))
  else .panic

/-- `buffer.rotate_left(1)`. -/
def rotateLeft (buffer : List (Option α)) :
    Outcome Empty (List (Option α)) :=
  if 1 ≤ buffer.length then .ok (buffer.rotate 1) else .panic

def push (circular : CircularBuffer α) (item : α) :
    Outcome Empty (CircularBuffer α) :=
  if circular.head = circular.size then do
    let rotated ← rotateLeft circular.buffer
    if circular.head = 0 then .panic
    else do
      let stored ← store rotated (circular.head - 1) item
      pure { circular with buffer := stored }
  else do
    let stored ← store circular.buffer circular.head item
    pure { circular with buffer := stored, head := circular.head + 1 }

/-- The head is not reset. -/
def drain (circular : CircularBuffer α) : List α × CircularBuffer α :=
  (circular.buffer.reduceOption,
    { circular with buffer := List.replicate circular.size none })

/-- What the drains of a sequence of calls return, and the buffer after it. -/
def run : CircularBuffer α → List (BufferCall α) →
    Outcome Empty (List (List α) × CircularBuffer α)
  | circular, [] => .ok ([], circular)
  | circular, .push item :: calls => do
      let pushed ← circular.push item
      pushed.run calls
  | circular, .drain :: calls => do
      let (returned, drained) := circular.drain
      let (later, last) ← drained.run calls
      pure (returned :: later, last)

/-- A bounded queue: a drain takes the last `capacity` of the items that are
pending and forgets the others. -/
def drained (capacity : Nat) : List α → List (BufferCall α) → List (List α)
  | _, [] => []
  | pending, .push item :: calls => drained capacity (pending ++ [item]) calls
  | pending, .drain :: calls =>
      pending.rtake capacity :: drained capacity [] calls

section Slots

private theorem rtake_append_singleton {items : List α} {count : Nat} (item : α)
    (positive : 0 < count) (enough : count ≤ items.length) :
    (items ++ [item]).rtake count = (items.rtake count).tail ++ [item] := by
  have left : items.length + 1 - count = items.length - count + 1 := by omega
  rw [List.rtake, List.rtake, List.length_append, List.length_singleton,
    List.tail_drop, left, List.drop_append_of_le_length (by omega)]

theorem rtake_eq_self {items : List α} {count : Nat}
    (short : items.length ≤ count) : items.rtake count = items := by
  rw [List.rtake, Nat.sub_eq_zero_of_le short, List.drop_zero]

private theorem set_rotate {items : List α} (item : α)
    (positive : 0 < items.length) :
    (items.rotate 1).set (items.length - 1) item = items.tail ++ [item] := by
  cases items with
  | nil => exact absurd positive (Nat.lt_irrefl 0)
  | cons first rest =>
      rw [List.rotate_cons_succ, List.rotate_zero, List.length_cons,
        Nat.add_sub_cancel, List.set_append_right _ _ le_rfl, Nat.sub_self]
      rfl

end Slots

/-- The items pushed since the last drain, of which the buffer holds those
that fit.  `start` is where the head stood then; the slots before it are empty
until they are rotated out. -/
def Represents (circular : CircularBuffer α) (pending : List α) : Prop :=
  ∃ start ≤ circular.size,
    circular.head = min circular.size (start + pending.length) ∧
      circular.buffer =
        (List.replicate start none ++ pending.map some).rtake circular.size ++
          List.replicate (circular.size - (start + pending.length)) none

variable {circular : CircularBuffer α} {pending : List α}

theorem represents_new (size : Nat) :
    Represents (new size : CircularBuffer α) [] :=
  ⟨0, Nat.zero_le _, by simp [new], by simp [new]⟩

theorem Represents.length_buffer
    (represents : Represents circular pending) :
    circular.buffer.length = circular.size := by
  obtain ⟨start, inside, head, buffer⟩ := represents
  rw [buffer, List.rtake]
  simp only [List.length_append, List.length_drop, List.length_replicate,
    List.length_map]
  omega

theorem Represents.push_full (represents : Represents circular pending)
    (positive : 0 < circular.size) (full : circular.head = circular.size)
    (item : α) :
    ∃ next, circular.push item = .ok next ∧ next.size = circular.size ∧
      Represents next (pending ++ [item]) := by
  have length := represents.length_buffer
  obtain ⟨start, inside, head, buffer⟩ := represents
  have beyond : circular.size ≤ start + pending.length := by omega
  have stored : (circular.buffer.rotate 1).set (circular.head - 1)
      (some item) = circular.buffer.tail ++ [some item] := by
    rw [full, ← length]
    exact set_rotate (some item) (length ▸ positive)
  have pushed : circular.push item =
      .ok { circular with buffer := circular.buffer.tail ++ [some item] } := by
    rw [CircularBuffer.push, if_pos full, rotateLeft,
      if_pos (by omega), Outcome.ok_bind, if_neg (by omega), store,
      if_pos (by rw [List.length_rotate]; omega), stored]
    rfl
  refine ⟨_, pushed, rfl, start, inside, ?_, ?_⟩
  · simp only [List.length_append, List.length_singleton]
    omega
  · have before : circular.size - (start + pending.length) = 0 := by omega
    have after : circular.size - (start + (pending ++ [item]).length) = 0 := by
      rw [List.length_append]
      omega
    rw [before, List.replicate_zero, List.append_nil] at buffer
    rw [after, List.replicate_zero, List.append_nil, List.map_append,
      ← List.append_assoc, buffer]
    refine (rtake_append_singleton (some item) positive ?_).symm
    simpa using beyond

theorem Represents.push_room (represents : Represents circular pending)
    (room : circular.head ≠ circular.size) (item : α) :
    ∃ next, circular.push item = .ok next ∧ next.size = circular.size ∧
      Represents next (pending ++ [item]) := by
  have length := represents.length_buffer
  obtain ⟨start, inside, head, buffer⟩ := represents
  have below : start + pending.length < circular.size := by omega
  have pushed : circular.push item =
      .ok { circular with
        buffer := circular.buffer.set circular.head (some item)
        head := circular.head + 1 } := by
    rw [CircularBuffer.push, if_neg room, store, if_pos (by omega)]
    rfl
  refine ⟨_, pushed, rfl, start, inside, ?_, ?_⟩
  · simp only [List.length_append, List.length_singleton]
    omega
  · have position : circular.head = start + pending.length := by omega
    have empty : circular.size - (start + pending.length) =
        circular.size - (start + (pending ++ [item]).length) + 1 := by
      rw [List.length_append, List.length_singleton]
      omega
    have before : (List.replicate start none ++ pending.map some).length ≤
        circular.size := by
      simpa using below.le
    have after : (List.replicate start none ++
        (pending ++ [item]).map some).length ≤ circular.size := by
      simp only [List.length_append, List.length_replicate, List.length_map,
        List.length_singleton]
      omega
    have slots : (List.replicate start none ++ pending.map some).length =
        circular.head := by
      simp [position]
    rw [rtake_eq_self before, empty, List.replicate_succ] at buffer
    rw [rtake_eq_self after, buffer,
      List.set_append_right _ _ slots.le, slots, Nat.sub_self]
    simp

theorem Represents.push (represents : Represents circular pending)
    (positive : 0 < circular.size) (item : α) :
    ∃ next, circular.push item = .ok next ∧ next.size = circular.size ∧
      Represents next (pending ++ [item]) := by
  by_cases full : circular.head = circular.size
  · exact represents.push_full positive full item
  · exact represents.push_room full item

theorem Represents.drain (represents : Represents circular pending) :
    circular.drain.1 = pending.rtake circular.size ∧
      Represents circular.drain.2 [] := by
  obtain ⟨start, inside, head, buffer⟩ := represents
  constructor
  · have offset : start + pending.length - circular.size - start =
        pending.length - circular.size := by
      omega
    rw [CircularBuffer.drain, buffer, List.reduceOption_append,
      List.reduceOption_replicate_none, List.append_nil, List.rtake,
      List.drop_append, List.reduceOption_append, List.drop_replicate,
      List.reduceOption_replicate_none, List.nil_append]
    simp only [List.length_append, List.length_replicate, List.length_map]
    rw [offset, ← List.map_drop]
    simp [List.reduceOption, List.rtake]
  · have inside : circular.head ≤ circular.size := by omega
    have short : (List.replicate circular.head (none : Option α)).length ≤
        circular.size := by
      rwa [List.length_replicate]
    refine ⟨circular.head, inside, ?_, ?_⟩
    · exact (Nat.min_eq_right inside).symm
    · rw [List.map_nil, List.append_nil]
      simp only [CircularBuffer.drain, List.length_nil, Nat.add_zero]
      rw [rtake_eq_self short, ← List.replicate_add,
        Nat.add_sub_of_le inside]

theorem Represents.run (represents : Represents circular pending)
    (positive : 0 < circular.size) (calls : List (BufferCall α)) :
    ∃ last, circular.run calls =
      .ok (drained circular.size pending calls, last) := by
  induction calls generalizing circular pending with
  | nil => exact ⟨circular, rfl⟩
  | cons call calls ih =>
      cases call with
      | push item =>
          obtain ⟨next, pushed, size, represented⟩ :=
            represents.push positive item
          obtain ⟨last, ran⟩ := ih represented (size ▸ positive)
          refine ⟨last, ?_⟩
          rw [CircularBuffer.run, pushed, Outcome.ok_bind, ran, size]
          rfl
      | drain =>
          obtain ⟨returned, represented⟩ := represents.drain
          obtain ⟨last, ran⟩ := ih represented positive
          refine ⟨last, ?_⟩
          simp only [CircularBuffer.run, returned, ran]
          rfl

/-- Every drain returns the last items pushed since the drain before, as many
as the buffer has slots. -/
theorem run_eq_drained {size : Nat} (positive : 0 < size)
    (calls : List (BufferCall α)) :
    ∃ last, (new size).run calls = .ok (drained size [] calls, last) :=
  (represents_new size).run positive calls

/-- The second round starts in the middle and is one item too long. -/
theorem run_eq_drained_three :
    ∃ last, (new 3).run
        [.push 1, .push 2, .drain, .push 3, .push 4, .push 5, .push 6,
          .drain, .drain] =
      .ok ([[1, 2], [4, 5, 6], []], last) :=
  run_eq_drained (by decide) _

end CircularBuffer

end Calf
