import Igra.Evm.Machine

/-!
# Bytecode

An instruction is spelled by its opcode and, if it pushes a value, by the bytes
of the value.  A machine that reads bytes decodes the instruction at its
offset, and jumps to a `jumpdest` byte that does not belong to a pushed value.
On the bytes of a list of instructions it does what the machine does that
reads the list.
-/

namespace Evm

section Reading

/-- The number of bytes that follow an opcode. -/
def immediateLength (opcode : Byte) : Nat :=
  if 0x60 ≤ opcode.toNat ∧ opcode.toNat ≤ 0x7f then opcode.toNat - 0x5f
  else 0

/-- An opcode and the bytes that belong to it. -/
structure Encoded where
  opcode : Byte
  immediate : List Byte
deriving DecidableEq

namespace Encoded

def bytes (encoded : Encoded) : List Byte :=
  encoded.opcode :: encoded.immediate

def WellFormed (encoded : Encoded) : Prop :=
  encoded.immediate.length = immediateLength encoded.opcode

end Encoded

/-- Opcode by opcode, as far as the fuel goes. -/
def disassembleWith : Nat → List Byte → List Encoded
  | 0, _ => []
  | _ + 1, [] => []
  | fuel + 1, opcode :: rest =>
      ⟨opcode, rest.take (immediateLength opcode)⟩ ::
        disassembleWith fuel (rest.drop (immediateLength opcode))

def disassemble (code : List Byte) : List Encoded :=
  disassembleWith code.length code

theorem disassembleWith_flatMap {program : List Encoded}
    (wellFormed : ∀ encoded ∈ program, encoded.WellFormed) {fuel : Nat}
    (enough : (program.flatMap Encoded.bytes).length ≤ fuel) :
    disassembleWith fuel (program.flatMap Encoded.bytes) = program := by
  induction program generalizing fuel with
  | nil => cases fuel <;> rfl
  | cons encoded rest ih =>
      obtain ⟨opcode, immediate⟩ := encoded
      have length : immediate.length = immediateLength opcode :=
        wellFormed _ List.mem_cons_self
      simp only [List.flatMap_cons, Encoded.bytes, List.cons_append,
        List.length_cons, List.length_append] at enough ⊢
      cases fuel with
      | zero => omega
      | succ fuel =>
          rw [disassembleWith, ← length, List.take_left, List.drop_left]
          congr 1
          exact ih (fun other member =>
            wellFormed other (List.mem_cons_of_mem _ member)) (by omega)

/-- Disassembling gives back what was put together. -/
theorem disassemble_flatMap {program : List Encoded}
    (wellFormed : ∀ encoded ∈ program, encoded.WellFormed) :
    disassemble (program.flatMap Encoded.bytes) = program :=
  disassembleWith_flatMap wellFormed (Nat.le_refl _)

theorem flatMap_disassembleWith {fuel : Nat} {code : List Byte}
    (enough : code.length ≤ fuel) :
    (disassembleWith fuel code).flatMap Encoded.bytes = code := by
  induction fuel generalizing code with
  | zero =>
      rw [List.eq_nil_of_length_eq_zero (Nat.le_zero.mp enough)]
      rfl
  | succ fuel ih =>
      cases code with
      | nil => rfl
      | cons opcode rest =>
          have shorter :
              (rest.drop (immediateLength opcode)).length ≤ fuel := by
            rw [List.length_cons] at enough
            rw [List.length_drop]
            omega
          rw [disassembleWith, List.flatMap_cons, ih shorter, Encoded.bytes,
            List.cons_append, List.take_append_drop]

/-- Every code is what its disassembly puts together. -/
theorem flatMap_disassemble (code : List Byte) :
    (disassemble code).flatMap Encoded.bytes = code :=
  flatMap_disassembleWith (Nat.le_refl _)

theorem length_immediate_le {fuel : Nat} {code : List Byte} :
    ∀ encoded ∈ disassembleWith fuel code,
      encoded.immediate.length ≤ immediateLength encoded.opcode := by
  induction fuel generalizing code with
  | zero => intro encoded member; cases member
  | succ fuel ih =>
      cases code with
      | nil => intro encoded member; cases member
      | cons opcode rest =>
          intro encoded member
          rcases List.mem_cons.mp member with rfl | later
          · exact List.length_take_le _ _
          · exact ih encoded later

end Reading

section Encoding

namespace Instruction

def opcode : Instruction → Nat
  | .stop => 0x00
  | .add => 0x01
  | .mod => 0x06
  | .eq => 0x14
  | .iszero => 0x15
  | .caller => 0x33
  | .calldataload => 0x35
  | .calldatasize => 0x36
  | .calldatacopy => 0x37
  | .returndatasize => 0x3d
  | .returndatacopy => 0x3e
  | .timestamp => 0x42
  | .number => 0x43
  | .prevrandao => 0x44
  | .pop => 0x50
  | .mstore => 0x52
  | .sload => 0x54
  | .sstore => 0x55
  | .jumpi => 0x57
  | .gas => 0x5a
  | .jumpdest => 0x5b
  | .push size _ => 0x5f + size
  | .dup depth => 0x7f + depth
  | .swap depth => 0x8f + depth
  | .return_ => 0xf3
  | .staticcall => 0xfa
  | .revert => 0xfd

theorem opcode_push (size : Nat) (value : Word) :
    (push size value).opcode = 0x5f + size := rfl

theorem opcode_dup (depth : Nat) : (dup depth).opcode = 0x7f + depth := rfl

theorem opcode_swap (depth : Nat) : (swap depth).opcode = 0x8f + depth := rfl

/-- The instruction has an encoding. -/
def Encodable : Instruction → Prop
  | .push size value => size ≤ 32 ∧ value.toNat < 256 ^ size
  | .dup depth => 1 ≤ depth ∧ depth ≤ 16
  | .swap depth => 1 ≤ depth ∧ depth ≤ 16
  | _ => True

instance : DecidablePred Encodable := fun instruction => by
  cases instruction <;> unfold Encodable <;> infer_instance

def immediate : Instruction → List Byte
  | .push size value => bigEndian size value.toNat
  | _ => []

def encode (instruction : Instruction) : Encoded where
  opcode := BitVec.ofNat 8 instruction.opcode
  immediate := instruction.immediate

/-- The instructions without parameters. -/
def plain : List Instruction :=
  [.stop, .add, .mod, .eq, .iszero, .caller, .calldataload, .calldatasize,
    .calldatacopy, .returndatasize, .returndatacopy, .timestamp, .number,
    .prevrandao, .pop, .mstore, .sload, .sstore, .jumpi, .gas, .jumpdest,
    .return_, .staticcall, .revert]

/-- The instruction of an opcode, with the bytes behind it. -/
def decode (opcode : Byte) (immediate : List Byte) : Option Instruction :=
  let number := opcode.toNat
  if 0x5f ≤ number ∧ number ≤ 0x7f then
    some (.push (number - 0x5f) (ofBytes immediate))
  else if 0x80 ≤ number ∧ number ≤ 0x8f then some (.dup (number - 0x7f))
  else if 0x90 ≤ number ∧ number ≤ 0x9f then some (.swap (number - 0x8f))
  else plain.find? fun instruction => instruction.opcode == number

theorem opcode_lt {instruction : Instruction}
    (encodable : instruction.Encodable) : instruction.opcode < 256 := by
  cases instruction with
  | push size value =>
      have small := encodable.1
      rw [opcode_push]
      omega
  | dup depth =>
      have small := encodable.2
      rw [opcode_dup]
      omega
  | swap depth =>
      have small := encodable.2
      rw [opcode_swap]
      omega
  | _ => decide

theorem toNat_opcode {instruction : Instruction}
    (encodable : instruction.Encodable) :
    instruction.encode.opcode.toNat = instruction.opcode := by
  rw [encode, BitVec.toNat_ofNat]
  exact Nat.mod_eq_of_lt (opcode_lt encodable)

theorem wellFormed_encode {instruction : Instruction}
    (encodable : instruction.Encodable) :
    instruction.encode.WellFormed := by
  unfold Encoded.WellFormed immediateLength
  rw [toNat_opcode encodable]
  cases instruction with
  | push size value =>
      have small := encodable.1
      rw [opcode_push]
      simp only [encode, immediate, length_bigEndian]
      split <;> omega
  | dup depth =>
      have small := encodable.1
      rw [opcode_dup]
      simp only [encode, immediate, List.length_nil]
      split <;> omega
  | swap depth =>
      have small := encodable.1
      rw [opcode_swap]
      simp only [encode, immediate, List.length_nil]
      split <;> omega
  | _ => rfl

theorem length_encode (instruction : Instruction) :
    instruction.encode.bytes.length = instruction.size := by
  cases instruction <;> simp [encode, Encoded.bytes, immediate, size]

/-- Decoding gives back the instruction. -/
theorem decode_encode {instruction : Instruction}
    (encodable : instruction.Encodable) :
    decode instruction.encode.opcode instruction.encode.immediate =
      some instruction := by
  unfold decode
  dsimp only
  rw [toNat_opcode encodable]
  cases instruction with
  | push size value =>
      obtain ⟨small, fits⟩ := encodable
      have value_eq : ofBytes (bigEndian size value.toNat) = value := by
        apply BitVec.eq_of_toNat_eq
        rw [ofBytes, spelled_bigEndian, Nat.mod_eq_of_lt fits,
          BitVec.toNat_ofNat, Nat.mod_eq_of_lt value.isLt]
      rw [opcode_push]
      rw [if_pos (by omega), Nat.add_sub_cancel_left]
      exact congrArg (some <| Instruction.push size ·) value_eq
  | dup depth =>
      obtain ⟨positive, small⟩ := encodable
      rw [opcode_dup]
      rw [if_neg (by omega), if_pos (by omega), Nat.add_sub_cancel_left]
  | swap depth =>
      obtain ⟨positive, small⟩ := encodable
      rw [opcode_swap]
      rw [if_neg (by omega), if_neg (by omega), if_pos (by omega),
        Nat.add_sub_cancel_left]
  | _ => rfl

end Instruction

end Encoding

section Machine

/-- The bytes behind an opcode, with zeros from the end of the code on. -/
def immediateAt (code : List Byte) (pc : Nat) (opcode : Byte) : List Byte :=
  (List.range (immediateLength opcode)).map fun i =>
    (code[pc + 1 + i]?).getD 0

/-- The byte at the target is a `jumpdest` and no part of a pushed value. -/
def isJumpdestWith : Nat → List Byte → Nat → Bool
  | 0, _, _ => false
  | _ + 1, [], _ => false
  | fuel + 1, opcode :: rest, target =>
      if target = 0 then opcode.toNat == Instruction.jumpdest.opcode
      else if target ≤ immediateLength opcode then false
      else
        isJumpdestWith fuel (rest.drop (immediateLength opcode))
          (target - (immediateLength opcode + 1))

def isJumpdest (code : List Byte) (target : Nat) : Bool :=
  isJumpdestWith code.length code target

variable (bytes : List Byte) (context : Context)

/-- A jump looks at the bytes, all else does not look at the code. -/
def executeBytes (state : State) : Instruction → Next
  | .jumpi => pop2 state.stack fun target condition stack =>
      if condition = 0 then state.advance stack
      else if isJumpdest bytes target.toNat then
        .running { state with pc := target.toNat, stack := stack }
      else .halted .failure
  | instruction => execute context state instruction

def stepBytes (state : State) : Next :=
  match bytes[state.pc]? with
  | none => .halted (.success Data.empty state.storage)
  | some opcode =>
      match Instruction.decode opcode
          (immediateAt bytes state.pc opcode) with
      | some instruction => executeBytes bytes context state instruction
      | none => .halted .failure

def stepsBytes : Nat → State → Next
  | 0, state => .running state
  | count + 1, state =>
      match stepBytes bytes context state with
      | .running next => stepsBytes count next
      | .halted outcome => .halted outcome

end Machine

section Agreement

namespace Code

def bytes (code : Code) : List Byte :=
  code.flatMap fun instruction => instruction.encode.bytes

def size (code : Code) : Nat :=
  (code.map Instruction.size).sum

/-- An offset at which an instruction starts or the code ends. -/
def Boundary (code : Code) (offset : Nat) : Prop :=
  ∃ front back : Code, code = front ++ back ∧ front.size = offset

end Code

variable {code front back : Code} {context : Context} {state next : State}
  {instruction : Instruction}

theorem size_pos (instruction : Instruction) : 0 < instruction.size := by
  cases instruction <;> simp [Instruction.size]

theorem Code.size_append : (front ++ back).size = front.size + back.size := by
  simp [size]

theorem Code.length_bytes (code : Code) : code.bytes.length = code.size := by
  simp [bytes, size, List.length_flatMap, Instruction.length_encode]

theorem Code.size_cons :
    size (instruction :: code) = instruction.size + size code := by
  simp [size]

theorem Code.fetch_append (offset : Nat) :
    (front ++ back).fetch (size front + offset) = back.fetch offset := by
  induction front with
  | nil => simp [size]
  | cons instruction front ih =>
      have positive := size_pos instruction
      rw [List.cons_append, fetch, size_cons, if_neg (by omega),
        if_neg (by omega)]
      have later : instruction.size + size front + offset - instruction.size =
          size front + offset := by omega
      rw [later, ih]

theorem Code.exists_of_fetch {offset : Nat}
    (found : code.fetch offset = some instruction) :
    ∃ front back : Code,
      code = front ++ instruction :: back ∧ front.size = offset := by
  induction code generalizing offset with
  | nil => cases found
  | cons first rest ih =>
      unfold fetch at found
      split at found
      · rename_i start
        cases found
        exact ⟨[], rest, rfl, start.symm⟩
      · split at found
        · cases found
        · rename_i behind
          obtain ⟨front, back, split, reached⟩ := ih found
          refine ⟨first :: front, back, by rw [split]; rfl, ?_⟩
          rw [size_cons]
          omega

/-- An instruction starts at a boundary and ends at one. -/
theorem Code.boundaries_of_fetch {offset : Nat}
    (found : code.fetch offset = some instruction) :
    code.Boundary offset ∧ code.Boundary (offset + instruction.size) := by
  obtain ⟨front, back, split, reached⟩ := exists_of_fetch found
  refine ⟨⟨front, instruction :: back, split, reached⟩,
    front ++ [instruction], back, by simp [split], ?_⟩
  rw [size_append, reached, size_cons]
  rfl

theorem opcode_eq_jumpdest (encodable : instruction.Encodable) :
    instruction.opcode = Instruction.jumpdest.opcode ↔
      instruction = .jumpdest := by
  cases instruction with
  | push size value =>
      rw [Instruction.opcode_push, show Instruction.jumpdest.opcode = 0x5b
        from rfl]
      constructor
      · intro same
        omega
      · intro same
        cases same
  | dup depth =>
      rw [Instruction.opcode_dup, show Instruction.jumpdest.opcode = 0x5b
        from rfl]
      constructor
      · intro same
        omega
      · intro same
        cases same
  | swap depth =>
      rw [Instruction.opcode_swap, show Instruction.jumpdest.opcode = 0x5b
        from rfl]
      constructor
      · intro same
        omega
      · intro same
        cases same
  | _ => decide

/-- The bytes and the instructions have their `jumpdest`s at the same
offsets. -/
theorem isJumpdestWith_bytes
    (encodable : ∀ instruction ∈ code, instruction.Encodable) {fuel : Nat}
    (enough : code.bytes.length ≤ fuel) (target : Nat) :
    isJumpdestWith fuel code.bytes target = true ↔
      code.fetch target = some .jumpdest := by
  induction code generalizing fuel target with
  | nil => cases fuel <;> simp [Code.bytes, isJumpdestWith, Code.fetch]
  | cons first rest ih =>
      have firstEncodable := encodable first List.mem_cons_self
      have wellFormed : first.encode.immediate.length =
          immediateLength first.encode.opcode :=
        Instruction.wellFormed_encode firstEncodable
      have size : first.encode.immediate.length + 1 = first.size :=
        Instruction.length_encode first
      have spelled : Code.bytes (first :: rest) =
          first.encode.opcode :: (first.encode.immediate ++
            Code.bytes rest) := by
        rfl
      rw [spelled] at enough ⊢
      cases fuel with
      | zero => simp at enough
      | succ fuel =>
          rw [isJumpdestWith, Code.fetch, ← wellFormed, List.drop_left]
          split
          · rw [beq_iff_eq, Instruction.toNat_opcode firstEncodable,
              opcode_eq_jumpdest firstEncodable, Option.some_inj]
          · split
            · rename_i inside
              rw [if_pos (by omega)]
              simp
            · rename_i behind
              rw [if_neg (by omega), size]
              apply ih
              · exact fun other member =>
                  encodable other (List.mem_cons_of_mem _ member)
              · simp only [List.length_cons, List.length_append] at enough
                omega

theorem execute_code (noJump : instruction ≠ .jumpi) :
    execute { context with code } state instruction =
      execute context state instruction := by
  cases instruction with
  | jumpi => exact absurd rfl noJump
  | _ => rfl

theorem executeBytes_eq
    (encodable : ∀ instruction ∈ code, instruction.Encodable) :
    executeBytes code.bytes context state instruction =
      execute { context with code } state instruction := by
  by_cases jumps : instruction = .jumpi
  · subst jumps
    have lands (target : Nat) : isJumpdest code.bytes target = true ↔
        code.fetch target = some .jumpdest :=
      isJumpdestWith_bytes encodable (Nat.le_refl _) target
    simp only [executeBytes, execute, jump, lands]
  · rw [execute_code jumps]
    cases instruction with
    | jumpi => exact absurd rfl jumps
    | _ => rfl

theorem immediateAt_bytes (encodable : instruction.Encodable) :
    immediateAt (front ++ instruction :: back).bytes front.size
        instruction.encode.opcode =
      instruction.encode.immediate := by
  have wellFormed : instruction.encode.immediate.length =
      immediateLength instruction.encode.opcode :=
    Instruction.wellFormed_encode encodable
  have spelled : (front ++ instruction :: back).bytes =
      (front.bytes ++ [instruction.encode.opcode]) ++
        (instruction.encode.immediate ++ back.bytes) := by
    simp [Code.bytes, Encoded.bytes]
  have before : (front.bytes ++ [instruction.encode.opcode]).length =
      front.size + 1 := by
    simp [Code.length_bytes]
  unfold immediateAt
  rw [← wellFormed]
  apply List.ext_getElem
  · simp
  · intro i _ inside
    rw [List.getElem_map, List.getElem_range, spelled,
      List.getElem?_append_right (by omega), before, Nat.add_sub_cancel_left,
      List.getElem?_append_left inside, List.getElem?_eq_getElem inside]
    rfl

/-- At a boundary the next step reads the instruction that stands there. -/
theorem stepBytes_eq
    (encodable : ∀ instruction ∈ code, instruction.Encodable)
    (boundary : code.Boundary state.pc) :
    stepBytes code.bytes context state = step { context with code } state := by
  obtain ⟨front, back, rfl, reached⟩ := boundary
  unfold stepBytes step
  dsimp only
  have fetched := @Code.fetch_append front back 0
  rw [Nat.add_zero, reached] at fetched
  rw [fetched]
  cases back with
  | nil =>
      have ended : (front ++ []).bytes.length ≤ state.pc := by
        rw [Code.length_bytes, List.append_nil, reached]
      rw [List.getElem?_eq_none ended]
      rfl
  | cons instruction rest =>
      have known : instruction.Encodable := encodable instruction (by simp)
      have opcode : (front ++ instruction :: rest).bytes[state.pc]? =
          some instruction.encode.opcode := by
        have spelled : (front ++ instruction :: rest).bytes =
            front.bytes ++ (instruction.encode.opcode ::
              (instruction.encode.immediate ++ Code.bytes rest)) := by
          simp [Code.bytes, Encoded.bytes]
        rw [spelled, ← reached, ← Code.length_bytes,
          List.getElem?_append_right (Nat.le_refl _), Nat.sub_self]
        rfl
      have decoded := Instruction.decode_encode known
      rw [← @immediateAt_bytes front rest _ known, reached] at decoded
      rw [opcode]
      dsimp only
      rw [decoded]
      exact executeBytes_eq encodable

theorem Code.boundary_zero (code : Code) : code.Boundary 0 :=
  ⟨[], code, rfl, rfl⟩

theorem boundary_of_jumpi
    (after : code.Boundary (state.pc + Instruction.jumpi.size))
    (taken : execute { context with code } state .jumpi = .running next) :
    code.Boundary next.pc := by
  obtain ⟨pc, stack, memory, storage, returndata⟩ := state
  rcases stack with _ | ⟨target, _ | ⟨condition, stack⟩⟩
  · cases taken
  · cases taken
  · simp only [execute, pop2, pop] at taken
    split at taken
    · cases taken
      exact after
    · unfold jump at taken
      split at taken
      · rename_i lands
        cases taken
        exact (Code.boundaries_of_fetch lands).1
      · cases taken

/-- A step leads from boundary to boundary. -/
theorem boundary_of_step
    (taken : step { context with code } state = .running next) :
    code.Boundary next.pc := by
  unfold step at taken
  dsimp only at taken
  cases fetched : code.fetch state.pc with
  | none =>
      rw [fetched] at taken
      cases taken
  | some instruction =>
      rw [fetched] at taken
      dsimp only at taken
      obtain ⟨_, after⟩ := Code.boundaries_of_fetch fetched
      by_cases jumps : instruction = .jumpi
      · subst jumps
        exact boundary_of_jumpi after taken
      · rw [pc_of_execute jumps taken]
        exact after

/-- The machine that reads the bytes of a code and the one that reads the code
are in the same state after any number of steps. -/
theorem stepsBytes_eq
    (encodable : ∀ instruction ∈ code, instruction.Encodable) (count : Nat)
    (boundary : code.Boundary state.pc) :
    stepsBytes code.bytes context count state =
      steps { context with code } count state := by
  induction count generalizing state with
  | zero => rfl
  | succ count ih =>
      rw [stepsBytes, steps, stepBytes_eq encodable boundary]
      cases taken : step { context with code } state with
      | running next => exact ih (boundary_of_step taken)
      | halted outcome => rfl

end Agreement

end Evm
