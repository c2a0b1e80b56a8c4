import Igra.Evm.Bytes
import Mathlib.Logic.Function.Basic

/-!
# A stack machine for bytecode

Code is a list of instructions, which jumps address by the offset of their
first byte.  A step takes a state to a next state or halts the machine; gas and
the limits of the stack and of memory are not counted.  Other accounts answer
static calls through a host.
-/

namespace Evm

abbrev Address := BitVec 160

abbrev Storage := Word → Word

inductive Instruction where
  | stop | add | mod | eq | iszero
  | caller | calldataload | calldatasize | calldatacopy
  | returndatasize | returndatacopy
  | timestamp | number | prevrandao
  | pop | mstore | sload | sstore
  | jumpi | gas | jumpdest
  | push (size : Nat) (value : Word)
  | dup (depth : Nat)
  | swap (depth : Nat)
  | return_ | staticcall | revert
deriving DecidableEq

/-- The number of bytes in the code. -/
def Instruction.size : Instruction → Nat
  | .push size _ => size + 1
  | _ => 1

abbrev Code := List Instruction

/-- The instruction that starts at an offset. -/
def Code.fetch : Code → Nat → Option Instruction
  | [], _ => none
  | instruction :: code, offset =>
      if offset = 0 then some instruction
      else if offset < instruction.size then none
      else fetch code (offset - instruction.size)

/-- The header of the block in which a call is executed. -/
structure Block where
  timestamp : Word
  prevrandao : Word
  number : Word
deriving DecidableEq

/-- What a call gives back: whether it succeeds, and its data. -/
structure Reply where
  success : Bool
  data : Data
deriving DecidableEq

structure Context where
  code : Code
  caller : Address
  calldata : Data
  block : Block
  isStatic : Bool
  gas : Word
  host : Address → Data → Reply

structure State where
  pc : Nat
  stack : List Word
  memory : Memory
  storage : Storage
  returndata : Data

def State.start (storage : Storage) : State where
  pc := 0
  stack := []
  memory := Memory.zero
  storage := storage
  returndata := Data.empty

inductive Outcome where
  | success (data : Data) (storage : Storage)
  | revert (data : Data)
  | failure

namespace Outcome

def reply : Outcome → Reply
  | .success data _ => ⟨true, data⟩
  | .revert data => ⟨false, data⟩
  | .failure => ⟨false, Data.empty⟩

/-- Storage is written only by a call that succeeds. -/
def storage (before : Storage) : Outcome → Storage
  | .success _ storage => storage
  | .revert _ => before
  | .failure => before

end Outcome

inductive Next where
  | running (state : State)
  | halted (outcome : Outcome)

namespace State

/-- On to the next instruction, with another stack. -/
def advance (state : State) (stack : List Word) : Next :=
  .running { state with pc := state.pc + 1, stack := stack }

end State

def ofBool (condition : Bool) : Word := if condition then 1 else 0

/-- A jump goes to a `jumpdest` only. -/
def jump (context : Context) (state : State) (stack : List Word)
    (target : Word) : Next :=
  if context.code.fetch target.toNat = some .jumpdest then
    .running { state with pc := target.toNat, stack := stack }
  else .halted .failure

/-- A word is taken off the stack. -/
def pop : List Word → (Word → List Word → Next) → Next
  | [], _ => .halted .failure
  | word :: stack, next => next word stack

def pop2 (stack : List Word) (next : Word → Word → List Word → Next) : Next :=
  pop stack fun first stack => pop stack fun second stack =>
    next first second stack

def pop3 (stack : List Word)
    (next : Word → Word → Word → List Word → Next) : Next :=
  pop2 stack fun first second stack => pop stack fun third stack =>
    next first second third stack

/-- A word is read inside the stack, counted from 1. -/
def pick (stack : List Word) (depth : Nat) (next : Word → Next) : Next :=
  match stack[depth - 1]? with
  | some word => next word
  | none => .halted .failure

def execute (context : Context) (state : State) : Instruction → Next
  | .stop => .halted (.success Data.empty state.storage)
  | .add => pop2 state.stack fun a b stack => state.advance ((a + b) :: stack)
  | .mod => pop2 state.stack fun a b stack =>
      state.advance ((if b = 0 then 0 else a % b) :: stack)
  | .eq => pop2 state.stack fun a b stack =>
      state.advance (ofBool (a == b) :: stack)
  | .iszero => pop state.stack fun a stack =>
      state.advance (ofBool (a == 0) :: stack)
  | .caller => state.advance (context.caller.setWidth 256 :: state.stack)
  | .calldataload => pop state.stack fun offset stack =>
      state.advance (ofBytes (context.calldata.slice offset.toNat 32) :: stack)
  | .calldatasize => state.advance (context.calldata.size :: state.stack)
  | .calldatacopy => pop3 state.stack fun place offset length stack =>
      { state with
        memory := state.memory.write place.toNat
          (context.calldata.slice offset.toNat length.toNat) }.advance stack
  | .returndatasize => state.advance (state.returndata.size :: state.stack)
  | .returndatacopy => pop3 state.stack fun place offset length stack =>
      if offset.toNat + length.toNat ≤ state.returndata.val.length then
        { state with
          memory := state.memory.write place.toNat
            (state.returndata.slice offset.toNat length.toNat) }.advance stack
      else .halted .failure
  | .timestamp => state.advance (context.block.timestamp :: state.stack)
  | .number => state.advance (context.block.number :: state.stack)
  | .prevrandao => state.advance (context.block.prevrandao :: state.stack)
  | .pop => pop state.stack fun _ stack => state.advance stack
  | .mstore => pop2 state.stack fun place word stack =>
      { state with memory := state.memory.writeWord place word }.advance stack
  | .sload => pop state.stack fun key stack =>
      state.advance (state.storage key :: stack)
  | .sstore => pop2 state.stack fun key word stack =>
      if context.isStatic then .halted .failure
      else
        { state with
          storage := Function.update state.storage key word }.advance stack
  | .jumpi => pop2 state.stack fun target condition stack =>
      if condition = 0 then state.advance stack
      else jump context state stack target
  | .gas => state.advance (context.gas :: state.stack)
  | .jumpdest => state.advance state.stack
  | .push size value =>
      .running { state with
        pc := state.pc + 1 + size, stack := value :: state.stack }
  | .dup depth => pick state.stack depth fun word =>
      state.advance (word :: state.stack)
  | .swap depth => pop state.stack fun top stack =>
      pick stack depth fun word =>
        state.advance (word :: stack.set (depth - 1) top)
  | .return_ => pop2 state.stack fun offset length _ =>
      .halted (.success (Data.ofMemory state.memory offset length)
        state.storage)
  | .staticcall => pop2 state.stack fun _ target stack =>
      pop2 stack fun place length stack =>
        pop2 stack fun replyPlace replyLength stack =>
          let reply := context.host (target.setWidth 160)
            (Data.ofMemory state.memory place length)
          { state with
            returndata := reply.data
            memory := state.memory.write replyPlace.toNat
              (reply.data.val.take replyLength.toNat) }.advance
            (ofBool reply.success :: stack)
  | .revert => pop2 state.stack fun offset length _ =>
      .halted (.revert (Data.ofMemory state.memory offset length))

/-- Past the end of the code the machine stops. -/
def step (context : Context) (state : State) : Next :=
  match context.code.fetch state.pc with
  | some instruction => execute context state instruction
  | none => .halted (.success Data.empty state.storage)

section Runs

variable {context : Context}

/-- The machine after a number of steps. -/
def steps (context : Context) : Nat → State → Next
  | 0, state => .running state
  | count + 1, state =>
      match step context state with
      | .running next => steps context count next
      | .halted outcome => .halted outcome

/-- The machine halts with an outcome. -/
def Halts (context : Context) (state : State) (outcome : Outcome) : Prop :=
  ∃ count, steps context count state = .halted outcome

theorem steps_add {count : Nat} {state next : State}
    (reached : steps context count state = .running next) (more : Nat) :
    steps context (count + more) state = steps context more next := by
  induction count generalizing state with
  | zero =>
      cases reached
      rw [Nat.zero_add]
  | succ count ih =>
      rw [Nat.succ_add, steps]
      rw [steps] at reached
      cases taken : step context state with
      | running middle =>
          rw [taken] at reached
          exact ih reached
      | halted outcome =>
          rw [taken] at reached
          cases reached

theorem steps_halted {count : Nat} {state : State} {outcome : Outcome}
    (halted : steps context count state = .halted outcome) (more : Nat) :
    steps context (count + more) state = .halted outcome := by
  induction count generalizing state with
  | zero => cases halted
  | succ count ih =>
      rw [Nat.succ_add, steps]
      rw [steps] at halted
      cases taken : step context state with
      | running middle =>
          rw [taken] at halted
          exact ih halted
      | halted other =>
          rw [taken] at halted
          exact halted

/-- A machine has one outcome at most. -/
theorem Halts.unique {state : State} {left right : Outcome}
    (leftHalts : Halts context state left)
    (rightHalts : Halts context state right) : left = right := by
  obtain ⟨leftCount, leftHalted⟩ := leftHalts
  obtain ⟨rightCount, rightHalted⟩ := rightHalts
  have fromLeft := steps_halted leftHalted rightCount
  have fromRight := steps_halted rightHalted leftCount
  rw [Nat.add_comm, fromRight] at fromLeft
  cases fromLeft
  rfl

theorem Halts.of_steps {count : Nat} {state next : State} {outcome : Outcome}
    (halts : Halts context next outcome)
    (reached : steps context count state = .running next) :
    Halts context state outcome := by
  obtain ⟨more, halted⟩ := halts
  refine ⟨count + more, ?_⟩
  rw [steps_add reached]
  exact halted

section Segments

/-- The instructions stand in the code one after the other. -/
def Code.HasSegment (code : Code) : Nat → List Instruction → Prop
  | _, [] => True
  | pc, instruction :: rest =>
      code.fetch pc = some instruction ∧
        code.HasSegment (pc + instruction.size) rest

instance (code : Code) :
    (pc : Nat) → (instructions : List Instruction) →
      Decidable (code.HasSegment pc instructions)
  | _, [] => inferInstanceAs (Decidable True)
  | pc, instruction :: rest =>
      have := instDecidableHasSegment code (pc + instruction.size) rest
      inferInstanceAs (Decidable (_ ∧ _))

/-- Instructions executed one after the other, without looking at the code. -/
def straight (context : Context) : List Instruction → State → Next
  | [], state => .running state
  | instruction :: rest, state =>
      match execute context state instruction with
      | .running next => straight context rest next
      | .halted outcome => .halted outcome

/-- A machine that goes on does so at this offset. -/
def Next.GoesOnAt (pc : Nat) : Next → Prop
  | .running state => state.pc = pc
  | .halted _ => True

theorem goesOnAt_advance (state : State) (stack : List Word) :
    (state.advance stack).GoesOnAt (state.pc + 1) := rfl

section Pops

variable {place : Nat} {stack : List Word}

theorem goesOnAt_pop {next : Word → List Word → Next}
    (after : ∀ word rest, (next word rest).GoesOnAt place) :
    (pop stack next).GoesOnAt place := by
  cases stack with
  | nil => trivial
  | cons word rest => exact after word rest

theorem goesOnAt_pop2 {next : Word → Word → List Word → Next}
    (after : ∀ first second rest, (next first second rest).GoesOnAt place) :
    (pop2 stack next).GoesOnAt place :=
  goesOnAt_pop fun first _ => goesOnAt_pop fun second _ => after first second _

theorem goesOnAt_pop3 {next : Word → Word → Word → List Word → Next}
    (after : ∀ first second third rest,
      (next first second third rest).GoesOnAt place) :
    (pop3 stack next).GoesOnAt place :=
  goesOnAt_pop2 fun first second _ => goesOnAt_pop fun third _ =>
    after first second third _

theorem goesOnAt_pick {depth : Nat} {next : Word → Next}
    (after : ∀ word, (next word).GoesOnAt place) :
    (pick stack depth next).GoesOnAt place := by
  unfold pick
  split
  · exact after _
  · trivial

end Pops

/-- All but a jump go on to the instruction behind. -/
theorem goesOnAt_execute {instruction : Instruction}
    (noJump : instruction ≠ .jumpi) (state : State) :
    (execute context state instruction).GoesOnAt
      (state.pc + instruction.size) := by
  cases instruction with
  | jumpi => exact absurd rfl noJump
  | push size _ =>
      have order : state.pc + 1 + size = state.pc + (size + 1) := by omega
      exact order
  | dup depth => exact goesOnAt_pick fun _ => goesOnAt_advance state _
  | swap depth =>
      exact goesOnAt_pop fun _ _ => goesOnAt_pick fun _ =>
        goesOnAt_advance state _
  | returndatacopy =>
      apply goesOnAt_pop3
      intro place offset length rest
      split
      · exact goesOnAt_advance _ rest
      · trivial
  | sstore =>
      apply goesOnAt_pop2
      intro key word rest
      split
      · trivial
      · exact goesOnAt_advance _ rest
  | staticcall =>
      exact goesOnAt_pop2 fun _ _ _ => goesOnAt_pop2 fun _ _ _ =>
        goesOnAt_pop2 fun _ _ rest => goesOnAt_advance _ _
  | stop => trivial
  | return_ => exact goesOnAt_pop2 fun _ _ _ => trivial
  | revert => exact goesOnAt_pop2 fun _ _ _ => trivial
  | calldatacopy =>
      exact goesOnAt_pop3 fun _ _ _ rest => goesOnAt_advance _ rest
  | mstore => exact goesOnAt_pop2 fun _ _ rest => goesOnAt_advance _ rest
  | add | mod | eq => exact goesOnAt_pop2 fun _ _ _ => goesOnAt_advance state _
  | iszero | calldataload | pop | sload =>
      exact goesOnAt_pop fun _ _ => goesOnAt_advance state _
  | caller | calldatasize | returndatasize | timestamp | number | prevrandao
  | gas | jumpdest => exact goesOnAt_advance state _

theorem pc_of_execute {instruction : Instruction} {state next : State}
    (noJump : instruction ≠ .jumpi)
    (taken : execute context state instruction = .running next) :
    next.pc = state.pc + instruction.size := by
  have goesOn := @goesOnAt_execute context instruction noJump state
  rw [taken] at goesOn
  exact goesOn

/-- A segment without jumps is executed straight on. -/
theorem steps_segment {instructions : List Instruction} {state : State}
    (segment : context.code.HasSegment state.pc instructions)
    (noJump : .jumpi ∉ instructions) :
    steps context instructions.length state =
      straight context instructions state := by
  induction instructions generalizing state with
  | nil => rfl
  | cons instruction rest ih =>
      obtain ⟨fetched, later⟩ := segment
      rw [List.length_cons, steps, straight, step, fetched]
      dsimp only
      cases taken : execute context state instruction with
      | halted outcome => rfl
      | running next =>
          apply ih
          · rw [pc_of_execute (fun same => noJump (by simp [same])) taken]
            exact later
          · exact fun member => noJump (List.mem_cons_of_mem _ member)

theorem Halts.after_segment {instructions : List Instruction} {state next : State}
    {outcome : Outcome}
    (segment : context.code.HasSegment state.pc instructions)
    (noJump : .jumpi ∉ instructions)
    (reached : straight context instructions state = .running next)
    (halts : Halts context next outcome) : Halts context state outcome := by
  rw [← steps_segment segment noJump] at reached
  exact halts.of_steps reached

theorem Halts.of_segment {instructions : List Instruction} {state : State}
    {outcome : Outcome}
    (segment : context.code.HasSegment state.pc instructions)
    (noJump : .jumpi ∉ instructions)
    (halted : straight context instructions state = .halted outcome) :
    Halts context state outcome := by
  rw [← steps_segment segment noJump] at halted
  exact ⟨_, halted⟩

end Segments

section Jumps

variable {pc : Nat} {target : Word} {stack : List Word} {memory : Memory}
  {storage : Storage} {returndata : Data} {outcome : Outcome}

theorem step_jumpi (fetched : context.code.fetch pc = some .jumpi)
    (condition : Word) :
    step context
        ⟨pc, target :: condition :: stack, memory, storage, returndata⟩ =
      if condition = 0 then
        .running ⟨pc + 1, stack, memory, storage, returndata⟩
      else jump context
        ⟨pc, target :: condition :: stack, memory, storage, returndata⟩ stack
        target := by
  unfold step
  rw [fetched]
  rfl

theorem Halts.jump_taken (fetched : context.code.fetch pc = some .jumpi)
    (lands : context.code.fetch target.toNat = some .jumpdest)
    {condition : Bool} (holds : condition = true)
    (halts : Halts context
      ⟨target.toNat, stack, memory, storage, returndata⟩ outcome) :
    Halts context
      ⟨pc, target :: ofBool condition :: stack, memory, storage, returndata⟩
      outcome := by
  apply @Halts.of_steps context 1 _ _ _ halts
  rw [steps, step_jumpi fetched, holds, if_neg (by decide), jump, if_pos lands]
  rfl

theorem Halts.jump_not_taken (fetched : context.code.fetch pc = some .jumpi)
    {condition : Bool} (fails : condition = false)
    (halts : Halts context
      ⟨pc + 1, stack, memory, storage, returndata⟩ outcome) :
    Halts context
      ⟨pc, target :: ofBool condition :: stack, memory, storage, returndata⟩
      outcome := by
  apply @Halts.of_steps context 1 _ _ _ halts
  rw [steps, step_jumpi fetched, fails, if_pos (by decide)]
  rfl

end Jumps

end Runs

end Evm
