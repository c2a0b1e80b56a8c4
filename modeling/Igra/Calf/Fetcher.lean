import Igra.Runs
import Mathlib.Data.List.Perm.Basic

/-!
# The fetcher

One task takes fetch commands from a channel and runs up to a maximum number of
them at a time.  The data of a command that finished is published; when that
fails the task ends.
-/

open Runs

namespace Calf

namespace Fetcher

variable {Command Object : Type}

structure State (Command Object : Type) where
  /-- the commands in the channel -/
  waiting : List Command
  /-- the commands in the join set -/
  running : List Command
  tasksNumber : Nat
  finished : List Command
  /-- the commands that came into the channel so far -/
  arrived : List Command
  published : List Object
deriving DecidableEq

def start : State Command Object := ⟨[], [], 0, [], [], []⟩

/-- A task fails, or it finishes with objects and whether each of them can be
dispatched. -/
inductive Event (Command Object : Type) where
  | arrive (command : Command)
  | receive
  | join (task : Nat) (result : Option (List (Object × Bool)))
deriving DecidableEq

/-- Publishing the data of a finished task. -/
def publish (state : State Command Object) :
    Option (List (Object × Bool)) → Option (State Command Object)
  | none => some state
  | some data =>
      if data.all Prod.snd then
        some { state with published := state.published ++ data.map Prod.fst }
      else none

/-- One round of the loop of `run`, or a command put into the channel. -/
def perform (maxConcurrentFetchTasks : Nat) (state : State Command Object) :
    Event Command Object → Option (State Command Object)
  | .arrive command =>
      some { state with
        waiting := state.waiting ++ [command]
        arrived := state.arrived ++ [command] }
  | .receive =>
      match state.waiting with
      | [] => none
      | command :: waiting =>
          if state.tasksNumber < maxConcurrentFetchTasks then
            some { state with
              waiting := waiting
              running := state.running ++ [command]
              tasksNumber := state.tasksNumber + 1 }
          else
            -- "queueing the command", which is kept nowhere
            some { state with waiting := waiting }
  | .join task result =>
      match state.running[task]? with
      | none => none
      | some command =>
          publish { state with
            running := state.running.eraseIdx task
            tasksNumber := state.tasksNumber - 1
            finished := state.finished ++ [command] } result

def Step (maxConcurrentFetchTasks : Nat) (state : State Command Object)
    (event : Event Command Object) (next : State Command Object) : Prop :=
  perform maxConcurrentFetchTasks state event = some next

/-- The number of tasks is the counted one, and at most the maximum. -/
structure Counted (maxConcurrentFetchTasks : Nat)
    (state : State Command Object) : Prop where
  counted : state.tasksNumber = state.running.length
  bounded : state.running.length ≤ maxConcurrentFetchTasks

/-- Besides, each command that came is in one place. -/
structure Keeps (maxConcurrentFetchTasks : Nat)
    (state : State Command Object) : Prop extends
    Counted maxConcurrentFetchTasks state where
  kept : List.Perm (state.finished ++ state.running ++ state.waiting)
    state.arrived

/-- A command is received only when there is room for its task. -/
def HasRoom (maxConcurrentFetchTasks : Nat) (state : State Command Object) :
    Event Command Object → Prop
  | .receive => state.tasksNumber < maxConcurrentFetchTasks
  | .arrive _ => True
  | .join _ _ => True

instance (maxConcurrentFetchTasks : Nat) (state : State Command Object) :
    (event : Event Command Object) →
      Decidable (HasRoom maxConcurrentFetchTasks state event)
  | .receive =>
      inferInstanceAs (Decidable (state.tasksNumber < maxConcurrentFetchTasks))
  | .arrive _ => inferInstanceAs (Decidable True)
  | .join _ _ => inferInstanceAs (Decidable True)

section Rules

variable {maxConcurrentFetchTasks : Nat} {state next : State Command Object}

/-- Receiving a command runs it when there is room, and drops it otherwise. -/
theorem receive_cases
    (taken : Step maxConcurrentFetchTasks state .receive next) :
    ∃ command waiting, state.waiting = command :: waiting ∧
      ((state.tasksNumber < maxConcurrentFetchTasks ∧
        next = { state with
          waiting := waiting
          running := state.running ++ [command]
          tasksNumber := state.tasksNumber + 1 }) ∨
      (maxConcurrentFetchTasks ≤ state.tasksNumber ∧
        next = { state with waiting := waiting })) := by
  unfold Step perform at taken
  cases commands : state.waiting with
  | nil => simp [commands] at taken
  | cons command waiting =>
      refine ⟨command, waiting, rfl, ?_⟩
      simp only [commands] at taken
      split at taken
      · rename_i room
        exact .inl ⟨room, (Option.some.inj taken).symm⟩
      · rename_i full
        exact .inr ⟨by omega, (Option.some.inj taken).symm⟩

theorem join_cases {task : Nat} {result : Option (List (Object × Bool))}
    (taken : Step maxConcurrentFetchTasks state (.join task result) next) :
    ∃ command published, state.running[task]? = some command ∧
      next = { state with
        running := state.running.eraseIdx task
        tasksNumber := state.tasksNumber - 1
        finished := state.finished ++ [command]
        published := published } := by
  unfold Step perform at taken
  cases found : state.running[task]? with
  | none => simp [found] at taken
  | some command =>
      simp only [found] at taken
      refine ⟨command, next.published, rfl, ?_⟩
      cases result with
      | none =>
          cases taken
          rfl
      | some data =>
          unfold publish at taken
          simp only at taken
          split at taken
          · cases taken
            rfl
          · cases taken

theorem Counted.step {event : Event Command Object}
    (before : Counted maxConcurrentFetchTasks state)
    (taken : Step maxConcurrentFetchTasks state event next) :
    Counted maxConcurrentFetchTasks next := by
  obtain ⟨counted, bounded⟩ := before
  cases event with
  | arrive command =>
      cases taken
      exact ⟨counted, bounded⟩
  | receive =>
      obtain ⟨command, waiting, -, ⟨room, rfl⟩ | ⟨-, rfl⟩⟩ :=
        receive_cases taken
      · constructor <;> simp <;> omega
      · exact ⟨counted, bounded⟩
  | join task result =>
      obtain ⟨command, published, found, rfl⟩ := join_cases taken
      have running := (List.getElem?_eq_some_iff.mp found).1
      constructor <;> simp [List.length_eraseIdx, running] <;> omega

namespace Keeps

theorem start : Keeps maxConcurrentFetchTasks
    (Fetcher.start : State Command Object) where
  counted := rfl
  bounded := Nat.zero_le _
  kept := .refl _

theorem step {event : Event Command Object}
    (before : Keeps maxConcurrentFetchTasks state)
    (hasRoom : HasRoom maxConcurrentFetchTasks state event)
    (taken : Step maxConcurrentFetchTasks state event next) :
    Keeps maxConcurrentFetchTasks next := by
  refine ⟨before.toCounted.step taken, ?_⟩
  have kept := before.kept
  cases event with
  | arrive command =>
      cases taken
      rw [← List.append_assoc]
      exact kept.append_right [command]
  | receive =>
      obtain ⟨command, waiting, commands, ⟨-, rfl⟩ | ⟨full, -⟩⟩ :=
        receive_cases taken
      · rw [commands] at kept
        simpa using kept
      · exact absurd hasRoom (Nat.not_lt.mpr full)
  | join task result =>
      obtain ⟨command, published, found, rfl⟩ := join_cases taken
      obtain ⟨running, rfl⟩ := List.getElem?_eq_some_iff.mp found
      have moved := List.getElem_cons_eraseIdx_perm running
      refine .trans (.append_right _ ?_) kept
      rw [List.append_assoc]
      exact moved.append_left _

theorem hasRoom {event : Event Command Object}
    (before : Keeps maxConcurrentFetchTasks state)
    (after : Keeps maxConcurrentFetchTasks next)
    (taken : Step maxConcurrentFetchTasks state event next) :
    HasRoom maxConcurrentFetchTasks state event := by
  cases event with
  | arrive command => trivial
  | join task result => trivial
  | receive =>
      obtain ⟨command, waiting, commands, ⟨room, -⟩ | ⟨-, rfl⟩⟩ :=
        receive_cases taken
      · exact room
      · have all := before.kept.length_eq
        have fewer := after.kept.length_eq
        simp only [commands, List.length_append, List.length_cons] at all fewer
        omega

end Keeps

/-- The commands are kept all along a run exactly when each of them is received
while there is room for its task. -/
theorem keeps_iff_hasRoom {events : List (Event Command Object)}
    {finish : State Command Object}
    (run : Run (Step maxConcurrentFetchTasks) start events finish) :
    Always (Step maxConcurrentFetchTasks) (Keeps maxConcurrentFetchTasks)
        start events ↔
      Run (restrict (HasRoom maxConcurrentFetchTasks)
        (Step maxConcurrentFetchTasks)) start events finish :=
  run.always_iff
    (fun _ _ _ _ taken again => Option.some.inj (taken.symm.trans again))
    Keeps.start (fun _ _ _ keeps hasRoom taken => keeps.step hasRoom taken)
    (fun _ => id) (fun _ _ _ before after taken => before.hasRoom after taken)

end Rules

section Samples

/-- With room for one task, the second of two commands is dropped. -/
theorem busy_fetcher_drops :
    ∃ finish : State Nat Nat, Run (Step 1) start
        [.arrive 7, .arrive 8, .receive, .receive] finish ∧
      8 ∈ finish.arrived ∧
      8 ∉ finish.finished ++ finish.running ++ finish.waiting ∧
      ¬Keeps 1 finish := by
  refine ⟨⟨[], [7], 1, [], [7, 8], []⟩, ?_, by decide, by decide, ?_⟩
  · refine (@Run.of_follow _ _ (fun _ _ => True) _ (perform 1) _ _ _ _
      (fun _ _ _ performed => performed) ?_).unrestrict
    decide
  · intro keeps
    exact absurd keeps.kept.length_eq (by decide)

/-- The second command waits until the first one has failed. -/
theorem patient_fetcher_keeps :
    Always (Step 1) (Keeps 1) (start : State Nat Nat)
      [.arrive 7, .arrive 8, .receive, .join 0 none, .receive,
        .join 0 (some [(3, true)])] := by
  have permitted : Run (restrict (HasRoom 1) (Step 1)) start
      [.arrive 7, .arrive 8, .receive, .join 0 none, .receive,
        .join 0 (some [(3, true)])] ⟨[], [], 0, [7, 8], [7, 8], [3]⟩ :=
    Run.of_follow (fun _ _ _ performed => performed) (by decide)
  exact (keeps_iff_hasRoom permitted.unrestrict).mpr permitted

end Samples

end Fetcher

end Calf
