import Igra.Calf.ContentAddressing
import Igra.Runs

/-!
# The batch maker

One task gathers transactions into a batch.  It sends the batch when its size
reaches a maximum, and when a timer expires.  A batch that nobody receives ends
the task.
-/

open Runs

namespace Calf

namespace BatchMaker

/-- What makes the task send a batch. -/
inductive Trigger where
  | size
  | timeout
deriving DecidableEq

structure State where
  currentBatch : List Transaction
  currentBatchSize : Nat
  /-- the transactions received so far -/
  received : List Transaction
  /-- the batches sent so far -/
  sent : List (Trigger × Batch Transaction)
deriving DecidableEq

def start : State := ⟨[], 0, [], []⟩

/-- Whether `send_batch` finds a receiver matters only when there is a batch to
send. -/
inductive Event where
  | transaction (tx : Transaction) (delivered : Bool)
  | timeout (delivered : Bool)
deriving DecidableEq

/-- The length of the bincode form, which has the number of bytes in front. -/
def serializedSize (tx : Transaction) : Nat := 8 + tx.data.length

/-- `send_batch(std::mem::take(&mut current_batch))`. -/
def sendBatch (state : State) (trigger : Trigger) (delivered : Bool) :
    Option State :=
  if delivered then
    some { state with
      currentBatch := []
      sent := state.sent ++ [(trigger, ⟨state.currentBatch⟩)] }
  else none

/-- One round of the loop of `run`. -/
def perform (maxBatchSize : Nat) (state : State) : Event → Option State
  | .transaction tx delivered =>
      let state := { state with
        currentBatch := state.currentBatch ++ [tx]
        currentBatchSize := state.currentBatchSize + serializedSize tx
        received := state.received ++ [tx] }
      if maxBatchSize ≤ state.currentBatchSize then
        (sendBatch state .size delivered).map fun state =>
          { state with currentBatchSize := 0 }
      else some state
  | .timeout delivered =>
      -- The size keeps its value.
      if state.currentBatch = [] then some state
      else sendBatch state .timeout delivered

def Step (maxBatchSize : Nat) (state : State) (event : Event)
    (next : State) : Prop :=
  perform maxBatchSize state event = some next

def totalSize (txs : List Transaction) : Nat :=
  (txs.map serializedSize).sum

/-- The batches are the received transactions, cut where they should be. -/
structure Faithful (maxBatchSize : Nat) (state : State) : Prop where
  ordered : (state.sent.flatMap fun batch => batch.2.items) ++
    state.currentBatch = state.received
  nonempty : ∀ batch ∈ state.sent, batch.2.items ≠ []
  counted : state.currentBatchSize = totalSize state.currentBatch
  full : ∀ batch ∈ state.sent, batch.1 = .size →
    maxBatchSize ≤ totalSize batch.2.items ∧
      totalSize batch.2.items.dropLast < maxBatchSize

/-- The timer finds nothing to send, and a transaction can fit. -/
def InTime (maxBatchSize : Nat) (state : State) : Event → Prop
  | .transaction _ _ => 0 < maxBatchSize
  | .timeout _ => state.currentBatch = []

instance (maxBatchSize : Nat) (state : State) :
    (event : Event) → Decidable (InTime maxBatchSize state event)
  | .transaction _ _ => inferInstanceAs (Decidable (0 < maxBatchSize))
  | .timeout _ => inferInstanceAs (Decidable (state.currentBatch = []))

section Rules

variable {maxBatchSize : Nat} {state next : State}

private theorem totalSize_append (txs : List Transaction) (tx : Transaction) :
    totalSize (txs ++ [tx]) = totalSize txs + serializedSize tx := by
  simp [totalSize]

private theorem totalSize_pos {txs : List Transaction} (some : txs ≠ []) :
    0 < totalSize txs := by
  cases txs with
  | nil => exact absurd rfl some
  | cons tx rest =>
      simp only [totalSize, List.map_cons, List.sum_cons, serializedSize]
      omega

theorem perform_transaction {tx : Transaction} {delivered : Bool}
    (taken : Step maxBatchSize state (.transaction tx delivered) next) :
    (maxBatchSize ≤ state.currentBatchSize + serializedSize tx ∧
      next = ⟨[], 0, state.received ++ [tx],
        state.sent ++ [(.size, ⟨state.currentBatch ++ [tx]⟩)]⟩) ∨
    (state.currentBatchSize + serializedSize tx < maxBatchSize ∧
      next = ⟨state.currentBatch ++ [tx],
        state.currentBatchSize + serializedSize tx,
        state.received ++ [tx], state.sent⟩) := by
  unfold Step perform at taken
  by_cases reached :
      maxBatchSize ≤ state.currentBatchSize + serializedSize tx
  · left
    simp only [reached, if_true, Option.map_eq_some_iff] at taken
    obtain ⟨flushed, sending, rfl⟩ := taken
    unfold sendBatch at sending
    split at sending
    · cases sending
      exact ⟨reached, rfl⟩
    · cases sending
  · right
    simp only [reached, if_false, Option.some.injEq] at taken
    exact ⟨by omega, taken.symm⟩

theorem perform_timeout {delivered : Bool}
    (taken : Step maxBatchSize state (.timeout delivered) next) :
    (state.currentBatch = [] ∧ next = state) ∨
    (state.currentBatch ≠ [] ∧
      next = { state with
        currentBatch := []
        sent := state.sent ++ [(.timeout, ⟨state.currentBatch⟩)] }) := by
  unfold Step perform at taken
  by_cases empty : state.currentBatch = []
  · simp only [empty, if_true, Option.some.injEq] at taken
    exact .inl ⟨empty, taken.symm⟩
  · simp only [empty, if_false] at taken
    unfold sendBatch at taken
    split at taken
    · cases taken
      exact .inr ⟨empty, rfl⟩
    · cases taken

/-- The size is below the maximum between the rounds of the loop. -/
def Unfilled (maxBatchSize : Nat) (state : State) : Prop :=
  0 < maxBatchSize → state.currentBatchSize < maxBatchSize

theorem Unfilled.step {event : Event} (unfilled : Unfilled maxBatchSize state)
    (taken : Step maxBatchSize state event next) :
    Unfilled maxBatchSize next := by
  intro positive
  cases event with
  | timeout delivered =>
      rcases perform_timeout taken with ⟨-, rfl⟩ | ⟨-, rfl⟩
      · exact unfilled positive
      · exact unfilled positive
  | transaction tx delivered =>
      rcases perform_transaction taken with ⟨-, rfl⟩ | ⟨below, rfl⟩
      · exact positive
      · exact below

namespace Faithful

theorem start : Faithful maxBatchSize start where
  ordered := rfl
  nonempty := by simp [BatchMaker.start]
  counted := rfl
  full := by simp [BatchMaker.start]

theorem step {event : Event} (unfilled : Unfilled maxBatchSize state)
    (faithful : Faithful maxBatchSize state)
    (inTime : InTime maxBatchSize state event)
    (taken : Step maxBatchSize state event next) :
    Faithful maxBatchSize next := by
  cases event with
  | timeout delivered =>
      rcases perform_timeout taken with ⟨-, rfl⟩ | ⟨some, -⟩
      · exact faithful
      · exact absurd inTime some
  | transaction tx delivered =>
      rcases perform_transaction taken with ⟨reached, rfl⟩ | ⟨below, rfl⟩
      · constructor
        · simp [← faithful.ordered]
        · intro batch member
          rcases List.mem_append.mp member with old | new
          · exact faithful.nonempty batch old
          · rw [List.mem_singleton.mp new]
            simp
        · rfl
        · intro batch member trigger
          rcases List.mem_append.mp member with old | new
          · exact faithful.full batch old trigger
          · rw [List.mem_singleton.mp new]
            simp only [totalSize_append, List.dropLast_concat,
              ← faithful.counted]
            exact ⟨reached, unfilled inTime⟩
      · constructor
        · simp [← faithful.ordered]
        · exact faithful.nonempty
        · rw [totalSize_append, faithful.counted]
        · exact faithful.full

/-- A batch that the timer sends leaves its size behind, and without a maximum
a batch is full before its last transaction. -/
theorem inTime {event : Event} (before : Faithful maxBatchSize state)
    (after : Faithful maxBatchSize next)
    (taken : Step maxBatchSize state event next) :
    InTime maxBatchSize state event := by
  cases event with
  | timeout delivered =>
      rcases perform_timeout taken with ⟨empty, -⟩ | ⟨some, rfl⟩
      · exact empty
      · have size := before.counted
        have left : state.currentBatchSize = 0 := after.counted
        have positive := totalSize_pos some
        omega
  | transaction tx delivered =>
      rcases perform_transaction taken with ⟨-, rfl⟩ | ⟨below, -⟩
      · have full := after.full _
          (List.mem_append_right _ (List.mem_singleton_self _)) rfl
        exact Nat.zero_lt_of_lt full.2
      · exact Nat.zero_lt_of_lt below

end Faithful

theorem step_deterministic (state : State) (event : Event)
    (next another : State) (taken : Step maxBatchSize state event next)
    (again : Step maxBatchSize state event another) : next = another :=
  Option.some.inj (taken.symm.trans again)

/-- The batches are faithful all along a run exactly when the timer never finds
transactions to send, and none comes while the maximum is 0. -/
theorem faithful_iff_inTime {events : List Event} {finish : State}
    (run : Run (Step maxBatchSize) start events finish) :
    Always (Step maxBatchSize) (Faithful maxBatchSize) start events ↔
      Run (restrict (InTime maxBatchSize) (Step maxBatchSize)) start events
        finish :=
  @Run.always_iff _ _ _ _
    (fun state => Unfilled maxBatchSize state ∧ Faithful maxBatchSize state)
    _ _ _ _ step_deterministic ⟨id, .start⟩
    (fun _ _ _ holds inTime taken =>
      ⟨holds.1.step taken, holds.2.step holds.1 inTime taken⟩)
    (fun _ holds => holds.2)
    (fun _ _ _ before after taken => before.2.inTime after taken) run

end Rules

section Samples

/-- The batch of one transaction that the timer sends leaves a size of 9, and
the next transaction is sent in a batch of size 9, below the maximum of 16. -/
theorem late_batch_short :
    ∃ finish, Run (Step 16) start
        [.transaction ⟨[1]⟩ true, .timeout true, .transaction ⟨[2]⟩ true]
        finish ∧
      ¬Faithful 16 finish ∧
      (.size, ⟨[⟨[2]⟩]⟩) ∈ finish.sent ∧ totalSize [⟨[2]⟩] < 16 := by
  refine ⟨⟨[], 0, [⟨[1]⟩, ⟨[2]⟩],
    [(.timeout, ⟨[⟨[1]⟩]⟩), (.size, ⟨[⟨[2]⟩]⟩)]⟩, ?_, ?_, by decide,
    by decide⟩
  · refine (@Run.of_follow _ _ (fun _ _ => True) _ (perform 16) _ _ _ _
      (fun _ _ _ performed => performed) ?_).unrestrict
    decide
  · intro faithful
    exact absurd (faithful.full (.size, ⟨[⟨[2]⟩]⟩) (by decide) rfl).1
      (by decide)

/-- Two transactions make a full batch. -/
theorem full_batch_faithful :
    Always (Step 16) (Faithful 16) start
      [.timeout true, .transaction ⟨[1]⟩ true, .transaction ⟨[2]⟩ true] := by
  have permitted : Run (restrict (InTime 16) (Step 16)) start
      [.timeout true, .transaction ⟨[1]⟩ true, .transaction ⟨[2]⟩ true]
      ⟨[], 0, [⟨[1]⟩, ⟨[2]⟩], [(.size, ⟨[⟨[1]⟩, ⟨[2]⟩]⟩)]⟩ :=
    Run.of_follow (fun _ _ _ performed => performed) (by decide)
  exact (faithful_iff_inTime permitted.unrestrict).mpr permitted

end Samples

end BatchMaker

end Calf
