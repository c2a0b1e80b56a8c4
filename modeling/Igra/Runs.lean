import Mathlib.Data.List.Basic

/-!
# Runs of a transition system

A step relation takes a state and a label to a next state.  A run is a finite
sequence of steps from a given state.  What every step preserves holds at the
end of every run; restricting the steps of a run to those that meet a
condition gives the runs along which the condition held each time.
-/

namespace Runs

variable {State Label : Type}

inductive Run (step : State → Label → State → Prop) (start : State) :
    List Label → State → Prop where
  | start : Run step start [] start
  | extend {labels : List Label} {state next : State} {label : Label} :
      Run step start labels state → step state label next →
      Run step start (labels ++ [label]) next

/-- The steps taken from states where the label is allowed. -/
def restrict (allowed : State → Label → Prop)
    (step : State → Label → State → Prop) :
    State → Label → State → Prop :=
  fun state label next => allowed state label ∧ step state label next

/-- What holds at the start and is preserved by each step holds at the end of
each run. -/
theorem Run.preserves
    {step : State → Label → State → Prop} {start finish : State}
    {labels : List Label} {invariant : State → Prop}
    (run : Run step start labels finish)
    (initially : invariant start)
    (preserved : ∀ state label next, invariant state →
      step state label next → invariant next) :
    invariant finish := by
  induction run with
  | start => exact initially
  | extend _ taken ih => exact preserved _ _ _ ih taken

theorem Run.eq_of_nil {step : State → Label → State → Prop}
    {start finish : State} (run : Run step start [] finish) :
    finish = start := by
  generalize none : ([] : List Label) = labels at run
  cases run with
  | start => rfl
  | extend _ _ => simp at none

/-- The last step of a run. -/
theorem Run.last {step : State → Label → State → Prop}
    {start finish : State} {labels : List Label} {label : Label}
    (run : Run step start (labels ++ [label]) finish) :
    ∃ state, Run step start labels state ∧ step state label finish := by
  generalize all : labels ++ [label] = taken at run
  cases run with
  | start => simp at all
  | extend earlier last =>
      obtain ⟨rfl, same⟩ := List.append_inj' all rfl
      obtain rfl := List.head_eq_of_cons_eq same
      exact ⟨_, earlier, last⟩

/-- A run can be read as one step for each of its labels. -/
theorem Run.cons
    {step : State → Label → State → Prop} {start middle finish : State}
    {label : Label} {labels : List Label}
    (first : step start label middle)
    (rest : Run step middle labels finish) :
    Run step start (label :: labels) finish := by
  induction rest with
  | start => exact .extend .start first
  | extend _ taken ih => exact .extend ih taken

/-- The first step of a run. -/
theorem Run.first {step : State → Label → State → Prop}
    {start finish : State} {label : Label} {labels : List Label}
    (run : Run step start (label :: labels) finish) :
    ∃ state, step start label state ∧ Run step state labels finish := by
  generalize all : label :: labels = taken at run
  induction run generalizing labels with
  | start => cases all
  | @extend earlier state next last run taken ih =>
      cases earlier with
      | nil =>
          cases all
          rw [run.eq_of_nil] at taken
          exact ⟨next, taken, .start⟩
      | cons front rest =>
          cases all
          obtain ⟨middle, first, later⟩ := ih rfl
          exact ⟨middle, first, .extend later taken⟩

theorem Run.trans {step : State → Label → State → Prop}
    {start middle finish : State} {labels later : List Label}
    (first : Run step start labels middle)
    (rest : Run step middle later finish) :
    Run step start (labels ++ later) finish := by
  induction rest with
  | start =>
      rw [List.append_nil]
      exact first
  | extend _ taken ih =>
      rw [← List.append_assoc]
      exact .extend ih taken

/-- A fold that succeeds is a run of the steps it takes. -/
theorem Run.of_foldlM {ε : Type} {perform : State → Label → Except ε State}
    (allowed : State → Label → Prop) {start finish : State}
    {labels : List Label}
    (performed : labels.foldlM perform start = .ok finish)
    (always : ∀ label ∈ labels, ∀ state, allowed state label) :
    Run (restrict allowed fun state label next =>
      perform state label = .ok next) start labels finish := by
  induction labels generalizing start with
  | nil =>
      cases performed
      exact .start
  | cons label labels ih =>
      rw [List.foldlM_cons] at performed
      cases first : perform start label with
      | error fault =>
          rw [first] at performed
          cases performed
      | ok next =>
          rw [first] at performed
          exact .cons ⟨always label List.mem_cons_self start, first⟩
            (ih performed fun other member =>
              always other (List.mem_cons_of_mem label member))

/-- The state after performing labels, when each of them is allowed and
succeeds. -/
def follow (allowed : State → Label → Prop)
    [∀ state label, Decidable (allowed state label)]
    (perform : State → Label → Option State) (state : State) :
    List Label → Option State
  | [] => some state
  | label :: labels =>
      if allowed state label then
        (perform state label).bind fun next =>
          follow allowed perform next labels
      else none

theorem Run.of_follow {allowed : State → Label → Prop}
    [∀ state label, Decidable (allowed state label)]
    {perform : State → Label → Option State}
    {step : State → Label → State → Prop} {start finish : State}
    {labels : List Label}
    (performs : ∀ state label next,
      perform state label = some next → step state label next)
    (followed : follow allowed perform start labels = some finish) :
    Run (restrict allowed step) start labels finish := by
  induction labels generalizing start with
  | nil =>
      cases followed
      exact .start
  | cons label labels ih =>
      unfold follow at followed
      split at followed
      · rename_i permitted
        obtain ⟨next, performed, rest⟩ := Option.bind_eq_some_iff.mp followed
        exact .cons ⟨permitted, performs _ _ _ performed⟩ (ih rest)
      · cases followed

/-- A run whose steps are all steps of another relation. -/
theorem Run.mono {step other : State → Label → State → Prop}
    {start finish : State} {labels : List Label}
    (run : Run step start labels finish)
    (implied : ∀ state label next,
      step state label next → other state label next) :
    Run other start labels finish := by
  induction run with
  | start => exact .start
  | extend _ taken ih => exact .extend ih (implied _ _ _ taken)

/-- Without a condition every step is allowed. -/
theorem Run.restrict_true {step : State → Label → State → Prop}
    {start finish : State} {labels : List Label}
    (run : Run step start labels finish) :
    Run (restrict (fun _ _ => True) step) start labels finish :=
  run.mono fun _ _ _ taken => ⟨trivial, taken⟩

/-- A run of labels that are allowed in any state. -/
theorem Run.restrict_of_forall {step : State → Label → State → Prop}
    {allowed : State → Label → Prop} {start finish : State}
    {labels : List Label} (run : Run step start labels finish)
    (always : ∀ label ∈ labels, ∀ state, allowed state label) :
    Run (restrict allowed step) start labels finish := by
  induction run with
  | start => exact .start
  | extend _ taken ih =>
      refine .extend (ih fun label member =>
        always label (List.mem_append_left _ member)) ⟨?_, taken⟩
      exact always _ (List.mem_append_right _ (List.mem_singleton_self _)) _

/-- When the labels determine the steps, they determine the run. -/
theorem Run.iff_foldl {step : State → Label → State → Prop}
    (perform : State → Label → State) {start finish : State}
    {labels : List Label}
    (performs : ∀ label ∈ labels, ∀ state next,
      step state label next ↔ next = perform state label) :
    Run step start labels finish ↔ finish = labels.foldl perform start := by
  induction labels generalizing start with
  | nil =>
      constructor
      · exact Run.eq_of_nil
      · rintro rfl
        exact .start
  | cons label labels ih =>
      have first := performs label List.mem_cons_self start
      have rest := @ih (perform start label) fun other member =>
        performs other (List.mem_cons_of_mem label member)
      rw [List.foldl_cons, ← rest]
      constructor
      · intro run
        obtain ⟨middle, taken, later⟩ := run.first
        rw [(first middle).mp taken] at later
        exact later
      · intro later
        exact .cons ((first _).mpr rfl) later

/-- Forgetting what was allowed. -/
theorem Run.unrestrict {step : State → Label → State → Prop}
    {allowed : State → Label → Prop} {start finish : State}
    {labels : List Label}
    (run : Run (restrict allowed step) start labels finish) :
    Run step start labels finish :=
  run.mono fun _ _ _ taken => taken.2

/-- A run is cut in two where its labels are. -/
theorem Run.split {step : State → Label → State → Prop}
    {start finish : State} {labels later : List Label}
    (run : Run step start (labels ++ later) finish) :
    ∃ state, Run step start labels state ∧ Run step state later finish := by
  induction labels generalizing start with
  | nil => exact ⟨start, .start, run⟩
  | cons label labels ih =>
      obtain ⟨middle, taken, rest⟩ := run.first
      obtain ⟨state, earlier, remaining⟩ := ih rest
      exact ⟨state, .cons taken earlier, remaining⟩

/-- The labels lead to one state if each step does. -/
theorem Run.unique {step : State → Label → State → Prop}
    {start finish other : State} {labels : List Label}
    (deterministic : ∀ state label next another, step state label next →
      step state label another → next = another)
    (run : Run step start labels finish)
    (again : Run step start labels other) : finish = other := by
  induction run generalizing other with
  | start => exact again.eq_of_nil.symm
  | extend _ taken ih =>
      obtain ⟨state, earlier, last⟩ := again.last
      rw [← ih earlier] at last
      exact deterministic _ _ _ _ taken last

/-- The property holds in every state on the way. -/
def Always (step : State → Label → State → Prop) (property : State → Prop)
    (start : State) (labels : List Label) : Prop :=
  ∀ earlier later state, labels = earlier ++ later →
    Run step start earlier state → property state

/-- A property holds all along a run exactly if its steps are allowed, when an
invariant of the allowed steps implies it and it fails after any other step. -/
theorem Run.always_iff {step : State → Label → State → Prop}
    {allowed : State → Label → Prop} {invariant property : State → Prop}
    {start finish : State} {labels : List Label}
    (deterministic : ∀ state label next another, step state label next →
      step state label another → next = another)
    (initially : invariant start)
    (preserved : ∀ state label next, invariant state → allowed state label →
      step state label next → invariant next)
    (enough : ∀ state, invariant state → property state)
    (needed : ∀ state label next, invariant state → property next →
      step state label next → allowed state label)
    (run : Run step start labels finish) :
    Always step property start labels ↔
      Run (restrict allowed step) start labels finish := by
  have kept : ∀ {labels state}, Run (restrict allowed step) start labels state →
      invariant state := fun permitted =>
    permitted.preserves initially fun _ _ _ holds taken =>
      preserved _ _ _ holds taken.1 taken.2
  constructor
  · intro always
    induction run with
    | start => exact .start
    | @extend labels state next label run taken ih =>
        have permitted := ih fun earlier later reached split partway =>
          always earlier (later ++ [label]) reached (by simp [split]) partway
        have after := always (labels ++ [label]) [] next (by simp)
          (run.extend taken)
        exact .extend permitted
          ⟨needed _ _ _ (kept permitted) after taken, taken⟩
  · rintro permitted earlier later state rfl partway
    obtain ⟨reached, first, -⟩ := permitted.split
    obtain rfl := first.unrestrict.unique deterministic partway
    exact enough reached (kept first)

end Runs
