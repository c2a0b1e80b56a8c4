import Igra.Eip4788.Contracts

/-!
# The paths through the contracts

Between two jumps the code is executed straight on.  Each of the history
contracts has one path that stores and several that answer.
-/

namespace Eip4788

open Evm

variable {host : Address → Data → Reply} {call : Call} {storage : Storage}
  {memory : Memory} {returndata : Data} {stack : List Word} {pc : Nat}

section Rules

variable {code : Code} {outcome : Outcome}

/-- A segment that ends the call. -/
theorem ends (instructions : List Instruction)
    (halted : straight (call.context host code) instructions
      ⟨pc, stack, memory, storage, returndata⟩ = .halted outcome)
    (segment : code.HasSegment pc instructions)
    (noJump : .jumpi ∉ instructions) :
    Halts (call.context host code) ⟨pc, stack, memory, storage, returndata⟩
      outcome :=
  Halts.of_segment segment noJump halted

theorem branches {instructions : List Instruction} {place : Nat}
    {target : Word} {condition : Bool} {rest : List Word} {filled : Memory}
    {returned : Data}
    (reached : straight (call.context host code) instructions
        ⟨pc, stack, memory, storage, returndata⟩ =
      .running ⟨place, target :: ofBool condition :: rest, filled, storage,
        returned⟩)
    (segment : code.HasSegment pc instructions)
    (noJump : .jumpi ∉ instructions)
    (fetched : code.fetch place = some .jumpi)
    (lands : code.fetch target.toNat = some .jumpdest)
    (taken : condition = true → Halts (call.context host code)
      ⟨target.toNat, rest, filled, storage, returned⟩ outcome)
    (notTaken : condition = false → Halts (call.context host code)
      ⟨place + 1, rest, filled, storage, returned⟩ outcome) :
    Halts (call.context host code) ⟨pc, stack, memory, storage, returndata⟩
      outcome := by
  apply Halts.after_segment segment noJump reached
  cases value : condition with
  | true => exact Halts.jump_taken fetched lands rfl (taken value)
  | false => exact Halts.jump_not_taken fetched rfl (notTaken value)

theorem rejects
    (segment : code.HasSegment pc [.push 0 0, .push 0 0, .revert]) :
    Halts (call.context host code) ⟨pc, stack, memory, storage, returndata⟩
      (.revert Data.empty) := by
  apply ends _ _ segment
  · decide
  · rfl

theorem rejects_jumpdest
    (segment : code.HasSegment pc
      [.jumpdest, .push 0 0, .push 0 0, .revert]) :
    Halts (call.context host code) ⟨pc, stack, memory, storage, returndata⟩
      (.revert Data.empty) := by
  apply ends _ _ segment
  · decide
  · rfl

end Rules

section Words

private theorem setWidth_injective {left right : Address}
    (same : left.setWidth 256 = right.setWidth 256) : left = right := by
  have back := congrArg (BitVec.setWidth 160) same
  simpa using back

theorem beq_setWidth (known caller : Address) :
    (known.setWidth 256 == caller.setWidth 256) = decide (caller = known) := by
  by_cases same : caller = known
  · subst same
    simp
  · rw [decide_eq_false same, beq_eq_false_iff_ne]
    exact fun equal => same (setWidth_injective equal).symm

private theorem beq_size (data : Data) :
    (data.size == 0x20) = decide (data.val.length = 32) := by
  by_cases whole : data.val.length = 32
  · rw [Data.size, whole]
    rfl
  · rw [decide_eq_false whole, beq_eq_false_iff_ne]
    intro same
    rw [← Data.toNat_size, same] at whole
    exact whole rfl

theorem ofMemory_word (memory : Memory) (word : Word) :
    Data.ofMemory (memory.writeWord 0 word) 0 0x20 = Data.ofWord word := by
  apply Subtype.ext
  have read := Memory.read_write_self memory 0 (wordBytes word)
  rw [length_wordBytes] at read
  exact read

/-- Three words, one behind the other. -/
def threeWords (first second third : Word) : Data :=
  ⟨wordBytes first ++ wordBytes second ++ wordBytes third, by
    simp only [List.length_append, length_wordBytes]
    decide⟩

theorem ofMemory_threeWords (memory : Memory) (first second third : Word) :
    Data.ofMemory (((memory.writeWord 0 first).writeWord 0x20 second).writeWord
      0x40 third) 0 0x60 = threeWords first second third := by
  apply Subtype.ext
  have read32 (memory : Memory) (place : Nat) (word : Word) :
      (memory.write place (wordBytes word)).read place 32 = wordBytes word := by
    have read := Memory.read_write_self memory place (wordBytes word)
    rw [length_wordBytes] at read
    exact read
  have splits (memory : Memory) : memory.read 0 96 =
      memory.read 0 32 ++ memory.read 32 32 ++ memory.read 64 32 := by
    rw [← Memory.read_add, ← Memory.read_add]
  have parts := splits (((memory.write 0 (wordBytes first)).write 32
    (wordBytes second)).write 64 (wordBytes third))
  have before : 0 + 32 ≤ 32 ∧ 0 + 32 ≤ 64 ∧ 32 + 32 ≤ 64 := by decide
  rw [read32, Memory.read_write_of_le _ _ before.2.1,
    Memory.read_write_of_le _ _ before.1, read32,
    Memory.read_write_of_le _ _ before.2.2, read32] at parts
  exact parts

end Words

section Outcomes

/-- The word that a call looks up is stored. -/
def Stored (storage : Storage) (call : Call) : Prop :=
  call.calldata.val.length = 32 ∧ call.word ≠ 0 ∧
    storage (timestampSlot call.word) = call.word

instance (storage : Storage) (call : Call) : Decidable (Stored storage call) :=
  inferInstanceAs (Decidable (_ ∧ _ ∧ _))

def originalGet (storage : Storage) (call : Call) : Outcome :=
  if Stored storage call then
    .success (Data.ofWord (storage (rootSlot call.word))) storage
  else .revert Data.empty

def modifiedGet (storage : Storage) (call : Call) : Outcome :=
  if Stored storage call then
    if call.caller = randaoReader then
      .success (threeWords (storage (rootSlot call.word))
        (storage (randaoSlot call.word)) (storage (numberSlot call.word)))
        storage
    else .success (Data.ofWord (storage (rootSlot call.word))) storage
  else .revert Data.empty

def originalSet (storage : Storage) (call : Call) : Storage :=
  let timestamp := call.block.timestamp
  Function.update (Function.update storage (timestampSlot timestamp) timestamp)
    (rootSlot timestamp) call.word

def modifiedSet (storage : Storage) (call : Call) : Storage :=
  let timestamp := call.block.timestamp
  Function.update (Function.update (originalSet storage call)
    (randaoSlot timestamp) call.block.prevrandao)
    (numberSlot timestamp) call.block.number

end Outcomes

section Stages

variable {code : Code} {outcome : Outcome}

/-- Both history contracts start by comparing the caller with the system
address. -/
theorem entry {target : Word}
    (segment : code.HasSegment 0
      [.caller, .push 20 0xfffffffffffffffffffffffffffffffffffffffe, .eq,
        .push 1 target])
    (fetched : code.fetch 0x19 = some .jumpi)
    (lands : code.fetch target.toNat = some .jumpdest)
    (set : call.caller = systemAddress → Halts (call.context host code)
      ⟨target.toNat, [], Memory.zero, storage, Data.empty⟩ outcome)
    (get : call.caller ≠ systemAddress → Halts (call.context host code)
      ⟨0x1a, [], Memory.zero, storage, Data.empty⟩ outcome) :
    Answers code host storage call outcome := by
  have compared := beq_setWidth systemAddress call.caller
  have reached : straight (call.context host code)
      [.caller, .push 20 0xfffffffffffffffffffffffffffffffffffffffe, .eq,
        .push 1 target] (State.start storage) =
      .running ⟨0x19, [target, ofBool (systemAddress.setWidth 256 ==
        call.caller.setWidth 256)], Memory.zero, storage, Data.empty⟩ := by
    rfl
  apply branches reached segment _ fetched lands
  · intro holds
    exact set (of_decide_eq_true (compared.symm.trans holds))
  · intro fails
    exact get (of_decide_eq_false (compared.symm.trans fails))
  · simp

theorem size_stage
    (segment : code.HasSegment 0x1a
      [.push 1 0x20, .calldatasize, .eq, .push 1 0x24])
    (fetched : code.fetch 0x20 = some .jumpi)
    (lands : code.fetch 0x24 = some .jumpdest)
    (whole : call.calldata.val.length = 32 → Halts (call.context host code)
      ⟨0x24, [], memory, storage, returndata⟩ outcome)
    (other : call.calldata.val.length ≠ 32 → Halts (call.context host code)
      ⟨0x21, [], memory, storage, returndata⟩ outcome) :
    Halts (call.context host code)
      ⟨0x1a, [], memory, storage, returndata⟩ outcome := by
  have compared := beq_size call.calldata
  have reached : straight (call.context host code)
      [.push 1 0x20, .calldatasize, .eq, .push 1 0x24]
      ⟨0x1a, [], memory, storage, returndata⟩ =
      .running ⟨0x20, [0x24, ofBool (call.calldata.size == 0x20)], memory,
        storage, returndata⟩ := by
    rfl
  apply branches reached segment _ fetched lands
  · intro holds
    exact whole (of_decide_eq_true (compared.symm.trans holds))
  · intro fails
    exact other (of_decide_eq_false (compared.symm.trans fails))
  · simp

theorem zero_stage {target : Word}
    (segment : code.HasSegment 0x24
      [.jumpdest, .push 0 0, .calldataload, .dup 1, .iszero, .push 1 target])
    (fetched : code.fetch 0x2b = some .jumpi)
    (lands : code.fetch target.toNat = some .jumpdest)
    (zero : call.word = 0 → Halts (call.context host code)
      ⟨target.toNat, [call.word], memory, storage, returndata⟩ outcome)
    (other : call.word ≠ 0 → Halts (call.context host code)
      ⟨0x2c, [call.word], memory, storage, returndata⟩ outcome) :
    Halts (call.context host code)
      ⟨0x24, [], memory, storage, returndata⟩ outcome := by
  have reached : straight (call.context host code)
      [.jumpdest, .push 0 0, .calldataload, .dup 1, .iszero, .push 1 target]
      ⟨0x24, [], memory, storage, returndata⟩ =
      .running ⟨0x2b, [target, ofBool (call.word == 0), call.word], memory,
        storage, returndata⟩ := by
    rfl
  apply branches reached segment _ fetched lands
  · intro holds
    exact zero (beq_iff_eq.mp holds)
  · intro fails
    exact other (beq_eq_false_iff_ne.mp fails)
  · simp

/-- The contracts push the length of the buffer in 2 and in 3 bytes. -/
theorem lookup_stage {width : Nat} {target word : Word}
    (segment : code.HasSegment 0x2c
      [.push width 0x1fff, .dup 2, .mod, .swap 1, .dup 2, .sload, .eq,
        .push 1 target])
    (fetched : code.fetch (0x35 + width) = some .jumpi)
    (lands : code.fetch target.toNat = some .jumpdest)
    (found : storage (timestampSlot word) = word →
      Halts (call.context host code)
        ⟨target.toNat, [timestampSlot word], memory, storage, returndata⟩
        outcome)
    (missing : storage (timestampSlot word) ≠ word →
      Halts (call.context host code)
        ⟨0x36 + width, [timestampSlot word], memory, storage, returndata⟩
        outcome) :
    Halts (call.context host code)
      ⟨0x2c, [word], memory, storage, returndata⟩ outcome := by
  have reached : straight (call.context host code)
      [.push width 0x1fff, .dup 2, .mod, .swap 1, .dup 2, .sload, .eq,
        .push 1 target] ⟨0x2c, [word], memory, storage, returndata⟩ =
      .running ⟨0x35 + width, [target,
        ofBool (storage (timestampSlot word) == word), timestampSlot word],
        memory, storage, returndata⟩ := by
    simp [straight, execute, State.advance, pop, pop2, pick, timestampSlot]
    omega
  have next : 0x35 + width + 1 = 0x36 + width := by omega
  apply branches reached segment _ fetched lands
  · intro holds
    exact found (beq_iff_eq.mp holds)
  · intro fails
    rw [next]
    exact missing (beq_eq_false_iff_ne.mp fails)
  · simp

end Stages

section Modified

theorem modified_root {outcome : Outcome} {word : Word}
    (reader : call.caller = randaoReader →
      Halts (call.context host modifiedContract)
        ⟨0x63, [rootSlot word], memory.writeWord 0 (storage (rootSlot word)),
          storage, returndata⟩ outcome)
    (other : call.caller ≠ randaoReader →
      Halts (call.context host modifiedContract)
        ⟨0x5e, [rootSlot word], memory.writeWord 0 (storage (rootSlot word)),
          storage, returndata⟩ outcome) :
    Halts (call.context host modifiedContract)
      ⟨0x3b, [timestampSlot word], memory, storage, returndata⟩ outcome := by
  have compared := beq_setWidth randaoReader call.caller
  have reached : straight (call.context host modifiedContract)
      [.jumpdest, .push 2 0x1fff, .add, .dup 1, .sload, .push 0 0, .mstore,
        .caller, .push 20 0xFe38D0727B928E19bE51673Ac0691Ca22C05B1B3, .eq,
        .push 1 0x63]
      ⟨0x3b, [timestampSlot word], memory, storage, returndata⟩ =
      .running ⟨0x5d, [0x63, ofBool (randaoReader.setWidth 256 ==
        call.caller.setWidth 256), rootSlot word],
        memory.writeWord 0 (storage (rootSlot word)), storage, returndata⟩ := by
    simp [straight, execute, State.advance, pop, pop2, pick, rootSlot,
      randaoReader, Call.context]
  apply branches reached
  · decide
  · decide
  · decide
  · decide
  · intro holds
    exact reader (of_decide_eq_true (compared.symm.trans holds))
  · intro fails
    exact other (of_decide_eq_false (compared.symm.trans fails))

private theorem modified_return {word : Word} :
    Halts (call.context host modifiedContract)
      ⟨0x5e, [rootSlot word],
        Memory.zero.writeWord 0 (storage (rootSlot word)), storage, returndata⟩
      (.success (Data.ofWord (storage (rootSlot word))) storage) := by
  rw [← ofMemory_word Memory.zero]
  apply ends [.pop, .push 1 0x20, .push 0 0, .return_]
  · simp [straight, execute, State.advance, pop, pop2]
  · decide
  · decide

theorem modified_return_three {word : Word} :
    Halts (call.context host modifiedContract)
      ⟨0x63, [rootSlot word],
        Memory.zero.writeWord 0 (storage (rootSlot word)), storage, returndata⟩
      (.success (threeWords (storage (rootSlot word))
        (storage (randaoSlot word)) (storage (numberSlot word))) storage) := by
  rw [← ofMemory_threeWords Memory.zero]
  apply ends
    [.jumpdest, .push 2 0x1fff, .add, .dup 1, .sload, .push 1 0x20, .mstore,
      .push 2 0x1fff, .add, .sload, .push 1 0x40, .mstore, .push 1 0x60,
      .push 0 0, .return_]
  · simp [straight, execute, State.advance, pop, pop2, pick, numberSlot,
      randaoSlot]
  · decide
  · decide

/-- The answer of the modified contract to everyone but the system. -/
theorem modified_get (user : call.caller ≠ systemAddress) :
    Answers modifiedContract host storage call (modifiedGet storage call) := by
  apply @entry _ _ _ _ _ 0x7d (by decide) (by decide)
    (by decide) (fun system => absurd system user)
  intro _
  apply size_stage (by decide) (by decide) (by decide)
  · intro whole
    apply @zero_stage _ _ _ _ _ _ _ 0x79 (by decide)
      (by decide) (by decide)
    · intro zero
      rw [modifiedGet, if_neg fun stored => stored.2.1 zero]
      exact rejects_jumpdest (by decide)
    · intro other
      apply @lookup_stage _ _ _ _ _ _ _ 2 0x3b _ (by decide)
        (by decide) (by decide)
      · intro found
        rw [modifiedGet, if_pos ⟨whole, other, found⟩]
        apply modified_root
        · intro reader
          rw [if_pos reader]
          exact modified_return_three
        · intro otherCaller
          rw [if_neg otherCaller]
          exact modified_return
      · intro missing
        rw [modifiedGet, if_neg fun stored => missing stored.2.2]
        exact rejects (by decide)
  · intro other
    rw [modifiedGet, if_neg fun stored => other stored.1]
    exact rejects (by decide)

theorem modified_set (system : call.caller = systemAddress)
    (writes : call.isStatic = false) :
    Answers modifiedContract host storage call
      (.success Data.empty (modifiedSet storage call)) := by
  apply @entry _ _ _ _ _ 0x7d (by decide) (by decide)
    (by decide) _ (fun user => absurd system user)
  intro _
  apply ends
    [.jumpdest, .push 2 0x1fff, .timestamp, .mod, .timestamp, .dup 2, .sstore,
      .push 2 0x1fff, .add, .push 0 0, .calldataload, .dup 2, .sstore,
      .push 2 0x1fff, .add, .prevrandao, .dup 2, .sstore,
      .push 2 0x1fff, .add, .number, .swap 1, .sstore, .stop]
  · simp [straight, execute, State.advance, pop, pop2, pick, Call.context,
      writes, modifiedSet, originalSet, Call.word, numberSlot, randaoSlot,
      rootSlot, timestampSlot]
  · decide
  · decide

theorem modified_set_static (system : call.caller = systemAddress)
    (static : call.isStatic = true) :
    Answers modifiedContract host storage call .failure := by
  apply @entry _ _ _ _ _ 0x7d (by decide) (by decide)
    (by decide) _ (fun user => absurd system user)
  intro _
  apply ends
    [.jumpdest, .push 2 0x1fff, .timestamp, .mod, .timestamp, .dup 2, .sstore]
  · simp [straight, execute, State.advance, pop, pop2, pick, Call.context,
      static]
  · decide
  · decide

end Modified

section Original

private theorem original_return {word : Word} :
    Halts (call.context host originalContract)
      ⟨0x3c, [timestampSlot word], Memory.zero, storage, returndata⟩
      (.success (Data.ofWord (storage (rootSlot word))) storage) := by
  rw [← ofMemory_word Memory.zero]
  apply ends [.jumpdest, .push 3 0x001fff, .add, .sload, .push 0 0, .mstore,
    .push 1 0x20, .push 0 0, .return_]
  · simp [straight, execute, State.advance, pop, pop2, rootSlot]
  · decide
  · decide

theorem original_get (user : call.caller ≠ systemAddress) :
    Answers originalContract host storage call (originalGet storage call) := by
  apply @entry _ _ _ _ _ 0x4d (by decide) (by decide)
    (by decide) (fun system => absurd system user)
  intro _
  apply size_stage (by decide) (by decide) (by decide)
  · intro whole
    apply @zero_stage _ _ _ _ _ _ _ 0x49 (by decide)
      (by decide) (by decide)
    · intro zero
      rw [originalGet, if_neg fun stored => stored.2.1 zero]
      exact rejects_jumpdest (by decide)
    · intro other
      apply @lookup_stage _ _ _ _ _ _ _ 3 0x3c _ (by decide)
        (by decide) (by decide)
      · intro found
        rw [originalGet, if_pos ⟨whole, other, found⟩]
        exact original_return
      · intro missing
        rw [originalGet, if_neg fun stored => missing stored.2.2]
        exact rejects (by decide)
  · intro other
    rw [originalGet, if_neg fun stored => other stored.1]
    exact rejects (by decide)

theorem original_set (system : call.caller = systemAddress)
    (writes : call.isStatic = false) :
    Answers originalContract host storage call
      (.success Data.empty (originalSet storage call)) := by
  apply @entry _ _ _ _ _ 0x4d (by decide) (by decide)
    (by decide) _ (fun user => absurd system user)
  intro _
  apply ends
    [.jumpdest, .push 3 0x001fff, .timestamp, .mod, .timestamp, .dup 2,
      .sstore, .push 0 0, .calldataload, .swap 1, .push 3 0x001fff, .add,
      .sstore, .stop]
  · simp [straight, execute, State.advance, pop, pop2, pick, Call.context,
      writes, originalSet, Call.word, rootSlot, timestampSlot]
  · decide
  · decide

theorem original_set_static (system : call.caller = systemAddress)
    (static : call.isStatic = true) :
    Answers originalContract host storage call .failure := by
  apply @entry _ _ _ _ _ 0x4d (by decide) (by decide)
    (by decide) _ (fun user => absurd system user)
  intro _
  apply ends
    [.jumpdest, .push 3 0x001fff, .timestamp, .mod, .timestamp, .dup 2,
      .sstore]
  · simp [straight, execute, State.advance, pop, pop2, pick, Call.context,
      static]
  · decide
  · decide

end Original

section Reader

theorem ofMemory_write (memory : Memory) (data : Data) :
    Data.ofMemory (memory.write 0 data.val) 0#256 data.size = data := by
  apply Subtype.ext
  have read := Memory.read_write_self memory 0 data.val
  rw [← Data.toNat_size] at read
  exact read

/-- The reader gives back what the history contract replies to it. -/
def readerGet (reply : Reply) (storage : Storage) : Outcome :=
  if reply.success then .success reply.data storage else .revert reply.data

/-- The memory of the reader when it has the reply. -/
def readerMemory (calldata : Data) (reply : Reply) : Memory :=
  ((Memory.zero.write 0 calldata.val).write 0 []).write 0 reply.data.val

theorem reader_reached :
    straight (call.context host readerContract)
      [.calldatasize, .push 0 0, .push 0 0, .calldatacopy, .push 0 0,
        .push 0 0, .calldatasize, .push 0 0,
        .push 20 0x000F3df6D732807Ef1319fB7B8bB8522d0Beac02, .gas, .staticcall,
        .returndatasize, .push 0 0, .push 0 0, .returndatacopy, .iszero,
        .push 1 0x2a] (State.start storage) =
      .running ⟨0x26,
        [0x2a, ofBool (ofBool (host historyAddress call.calldata).success == 0)],
        readerMemory call.calldata (host historyAddress call.calldata),
        storage, (host historyAddress call.calldata).data⟩ := by
  simp [straight, execute, State.advance, pop, pop2, pop3, State.start,
    Call.context, ofMemory_write, Data.slice_zero_length, readerMemory,
    historyAddress]

private theorem ofBool_beq_zero (condition : Bool) :
    (ofBool condition == 0) = !condition := by
  cases condition with
  | false => rfl
  | true => rfl

theorem reader_get :
    Answers readerContract host storage call
      (readerGet (host historyAddress call.calldata) storage) := by
  have given := ofMemory_write ((Memory.zero.write 0 call.calldata.val).write 0
    []) (host historyAddress call.calldata).data
  unfold readerGet
  apply branches reader_reached
  · decide
  · decide
  · decide
  · decide
  · intro failed
    rw [ofBool_beq_zero, Bool.not_eq_true'] at failed
    rw [failed, if_neg Bool.false_ne_true]
    apply ends [.jumpdest, .returndatasize, .push 0 0, .revert]
    · simp [straight, execute, State.advance, pop, pop2, readerMemory, given]
    · decide
    · decide
  · intro succeeded
    rw [ofBool_beq_zero, Bool.not_eq_false'] at succeeded
    rw [succeeded, if_pos rfl]
    apply ends [.returndatasize, .push 0 0, .return_]
    · simp [straight, execute, State.advance, pop, pop2, readerMemory, given]
    · decide
    · decide

end Reader

end Eip4788
