import Igra.Eip4788.Contracts
import Igra.Evm.Bytecode
import Igra.Evm.Hex
import Mathlib.Data.List.DropRight
import Mathlib.Data.List.Forall2

/-!
# The assembler of the contracts

A script turns the mnemonics of a contract into the hexadecimal text of its
bytes.  It takes the size of a push and the value as they are written.  Where
every value fits its push, the bytes list what is written, and they run as the
instructions do that the mnemonics name.
-/

namespace Eip4788

open Evm

section Text

abbrev Text := List Char

/-- White space of Python. -/
def isSpace (c : Char) : Bool :=
  (9 ≤ c.toNat && c.toNat ≤ 13) || (28 ≤ c.toNat && c.toNat ≤ 32)

def strip (text : Text) : Text :=
  (text.dropWhile isSpace).rdropWhile isSpace

/-- The first word of a text that starts with no white space. -/
def firstWord (text : Text) : Text :=
  text.takeWhile fun c => !isSpace c

def lower (text : Text) : Text := text.map Char.toLower

/-- A file opened as text has one kind of line ends. -/
def universalNewlines : Text → Text
  | [] => []
  | '\r' :: '\n' :: rest => '\n' :: universalNewlines rest
  | '\r' :: rest => '\n' :: universalNewlines rest
  | c :: rest => c :: universalNewlines rest

/-- The lines of a text, with their line ends. -/
def readLines : Text → List Text
  | [] => []
  | c :: rest =>
      if c = '\n' then [c] :: readLines rest
      else
        match readLines rest with
        | [] => [[c]]
        | line :: lines => (c :: line) :: lines

/-- The value of a literal in a base. -/
def intOf (base : Nat) (literal : Text) : Nat :=
  literal.foldl
    (fun value digit => base * value + (hexDigit digit).getD 0) 0

end Text

section Script

def opcodes : List (String × String) :=
  [("stop", "00"), ("add", "01"), ("mul", "02"), ("sub", "03"), ("div", "04"),
    ("sdiv", "05"), ("mod", "06"), ("smod", "07"), ("addmod", "08"),
    ("mulmod", "09"), ("exp", "0a"), ("signextend", "0b"), ("lt", "10"),
    ("gt", "11"), ("slt", "12"), ("sgt", "13"), ("eq", "14"), ("iszero", "15"),
    ("and", "16"), ("or", "17"), ("xor", "18"), ("not", "19"), ("byte", "1a"),
    ("shl", "1b"), ("shr", "1c"), ("sar", "1d"), ("keccak256", "20"),
    ("address", "30"), ("balance", "31"), ("origin", "32"), ("caller", "33"),
    ("callvalue", "34"), ("calldataload", "35"), ("calldatasize", "36"),
    ("calldatacopy", "37"), ("codesize", "38"), ("codecopy", "39"),
    ("gasprice", "3a"), ("extcodesize", "3b"), ("extcodecopy", "3c"),
    ("returndatasize", "3d"), ("returndatacopy", "3e"), ("extcodehash", "3f"),
    ("blockhash", "40"), ("coinbase", "41"), ("timestamp", "42"),
    ("number", "43"), ("prevrandao", "44"), ("gaslimit", "45"),
    ("chainid", "46"), ("selfbalance", "47"), ("basefee", "48"),
    ("blobhash", "49"), ("blobbasefee", "4a"), ("pop", "50"), ("mload", "51"),
    ("mstore", "52"), ("mstore8", "53"), ("sload", "54"), ("sstore", "55"),
    ("msize", "59"), ("gas", "5a"), ("jumpdest", "5b"), ("jump", "56"),
    ("jumpi", "57"), ("push0", "5f"), ("dup1", "80"), ("dup2", "81"),
    ("dup3", "82"), ("dup4", "83"), ("dup5", "84"), ("dup6", "85"),
    ("dup7", "86"), ("dup8", "87"), ("dup9", "88"), ("dup10", "89"),
    ("dup11", "8a"), ("dup12", "8b"), ("dup13", "8c"), ("dup14", "8d"),
    ("dup15", "8e"), ("dup16", "8f"), ("swap1", "90"), ("swap2", "91"),
    ("swap3", "92"), ("swap4", "93"), ("swap5", "94"), ("swap6", "95"),
    ("swap7", "96"), ("swap8", "97"), ("swap9", "98"), ("swap10", "99"),
    ("swap11", "9a"), ("swap12", "9b"), ("swap13", "9c"), ("swap14", "9d"),
    ("swap15", "9e"), ("swap16", "9f"), ("log0", "a0"), ("log1", "a1"),
    ("log2", "a2"), ("log3", "a3"), ("log4", "a4"), ("create", "f0"),
    ("call", "f1"), ("callcode", "f2"), ("return", "f3"),
    ("delegatecall", "f4"), ("create2", "f5"), ("staticcall", "fa"),
    ("revert", "fd"), ("selfdestruct", "ff")]

/-- An entry of the table. -/
abbrev Mnemonic := {entry : String × String // entry ∈ opcodes}

def Mnemonic.find (opcode : Text) : Option Mnemonic :=
  opcodes.attach.find? fun entry => entry.val.1 == String.ofList opcode

/-- What a line that is not skipped stands for. -/
inductive Item where
  | named (mnemonic : Mnemonic)
  | push (size value : Nat)
deriving DecidableEq

/-- `push(\d+)\s+(0x[0-9a-fA-F]+|[0-9]+)` at the start of a line: the size and
the value. -/
def pushOperands (opcodeLine : Text) : Option (Nat × Nat) :=
  match opcodeLine with
  | 'p' :: 'u' :: 's' :: 'h' :: rest =>
      let size := rest.takeWhile Char.isDigit
      let afterSize := rest.dropWhile Char.isDigit
      let literal := afterSize.dropWhile isSpace
      let decimal := literal.takeWhile Char.isDigit
      let hexadecimal :=
        match literal with
        | '0' :: 'x' :: digits =>
            digits.takeWhile fun digit => (hexDigit digit).isSome
        | _ => []
      if size = [] || afterSize = literal then none
      else if hexadecimal ≠ [] then
        some (intOf 10 size, intOf 16 hexadecimal)
      else if decimal ≠ [] then some (intOf 10 size, intOf 10 decimal)
      else none
  | _ => none

/-- The hexadecimal text that `parse_push` makes of the size and the value. -/
def pushHex (pushSize value : Nat) : Text :=
  Nat.toDigits 16 (0x60 + pushSize - 1) ++
    (Nat.toDigits 16 value).leftpad (pushSize * 2) '0'

def Item.hex : Item → Text
  | .named mnemonic => mnemonic.val.2.toList
  | .push size value => pushHex size value

def invalidPush (bytecodeFile : Text) (lineNum : Nat) (line : Text) : Text :=
  "Invalid PUSH opcode syntax at line ".toList ++ Nat.toDigits 10 lineNum ++
    " in ".toList ++ bytecodeFile ++ ":\n  ".toList ++ line ++
    "\nExpected format: push<N> <value> ".toList ++
    "(e.g., 'push1 0x20' or 'push2 0x1234')".toList

def unknownOpcode (opcode bytecodeFile : Text) (lineNum : Nat) (line : Text) :
    Text :=
  "Unknown opcode '".toList ++ opcode ++ "' at line ".toList ++
    Nat.toDigits 10 lineNum ++ " in ".toList ++ bytecodeFile ++
    ":\n  ".toList ++ line ++
    "\nPlease add the opcode to the OPCODES dictionary ".toList ++
    "or check for typos.".toList

/-- A file of ASCII characters. -/
structure BytecodeFile where
  name : Text
  text : Text
  ascii : (text.all fun c => c.toNat < 128) = true

/-- One round of the loop over the lines: nothing for a line that is
skipped. -/
def readLine (bytecodeFile : Text) (lineNum : Nat) (originalLine : Text) :
    Except Text (Option Item) :=
  let line := strip originalLine
  let opcode := lower (firstWord line)
  if line = [] || ['#'].isPrefixOf line || ['/', '/'].isPrefixOf line then
    .ok none
  else if opcode ≠ "push0".toList && "push".toList.isPrefixOf opcode &&
      4 < opcode.length then
    match pushOperands (lower line) with
    | some (size, value) => .ok (some (.push size value))
    | none => .error (invalidPush bytecodeFile lineNum line)
  else
    match Mnemonic.find opcode with
    | some mnemonic => .ok (some (.named mnemonic))
    | none => .error (unknownOpcode opcode bytecodeFile lineNum line)

def readItems (file : BytecodeFile) : Except Text (List Item) := do
  let items ← (readLines (universalNewlines file.text)).zipIdx 1 |>.mapM
    fun (line, lineNum) => readLine file.name lineNum line
  return items.reduceOption

def bytecodeToHex (file : BytecodeFile) : Except Text Text := do
  let items ← readItems file
  return items.flatMap Item.hex

end Script

section Disassembly

namespace Item

/-- The value fits in the push. -/
def Fits : Item → Prop
  | .named _ => True
  | .push size value => 1 ≤ size ∧ size ≤ 32 ∧ value < 256 ^ size

/-- The opcode and the pushed value are those of the item. -/
def Spells : Item → Encoded → Prop
  | .named mnemonic, encoded =>
      readHex mnemonic.val.2.toList = some [encoded.opcode] ∧
        encoded.immediate = []
  | .push size value, encoded =>
      encoded.opcode.toNat = 0x5f + size ∧ encoded.immediate.length = size ∧
        spelled encoded.immediate = value

def encoded : Item → Encoded
  | .named mnemonic =>
      ⟨BitVec.ofNat 8 (intOf 16 mnemonic.val.2.toList), []⟩
  | .push size value => ⟨BitVec.ofNat 8 (0x5f + size), bigEndian size value⟩

/-- The bytes of the item, as far as it has an opcode. -/
def width : Item → Nat
  | .named _ => 1
  | .push size _ => 1 + size

end Item

theorem hex_of_mnemonic (mnemonic : Mnemonic) :
    mnemonic.val.2.toList =
        hexText [BitVec.ofNat 8 (intOf 16 mnemonic.val.2.toList)] ∧
      immediateLength (BitVec.ofNat 8 (intOf 16 mnemonic.val.2.toList)) =
        0 := by
  have every : ∀ entry ∈ opcodes,
      entry.2.toList = hexText [BitVec.ofNat 8 (intOf 16 entry.2.toList)] ∧
        immediateLength (BitVec.ofNat 8 (intOf 16 entry.2.toList)) = 0 := by
    decide +kernel
  exact every mnemonic.val mnemonic.property

private theorem hex_of_pushOpcode {size : Nat} (small : size ≤ 32) :
    Nat.toDigits 16 (0x5f + size) = hexText [BitVec.ofNat 8 (0x5f + size)] := by
  have every : ∀ size : Fin 33, Nat.toDigits 16 (0x5f + size.val) =
      hexText [BitVec.ofNat 8 (0x5f + size.val)] := by
    decide
  exact every ⟨size, by omega⟩

namespace Item

variable {item : Item} {items : List Item}

private theorem wellFormed_encoded
    (fits : item.Fits) : item.encoded.WellFormed := by
  cases item with
  | named mnemonic => exact (hex_of_mnemonic mnemonic).2.symm
  | push size value =>
      obtain ⟨positive, small, _⟩ := fits
      have opcode : (push size value).encoded.opcode.toNat = 0x5f + size := by
        rw [encoded, BitVec.toNat_ofNat]
        exact Nat.mod_eq_of_lt (by omega)
      have length : (push size value).encoded.immediate.length = size :=
        length_bigEndian size value
      unfold Encoded.WellFormed immediateLength
      rw [opcode, length, if_pos (by omega)]
      omega

private theorem spells_encoded
    (fits : item.Fits) : item.Spells item.encoded := by
  cases item with
  | named mnemonic =>
      refine ⟨?_, rfl⟩
      rw [(hex_of_mnemonic mnemonic).1]
      exact readHex_hexText _
  | push size value =>
      obtain ⟨positive, small, below⟩ := fits
      refine ⟨?_, length_bigEndian size value, ?_⟩
      · rw [encoded, BitVec.toNat_ofNat]
        exact Nat.mod_eq_of_lt (by omega)
      · exact (spelled_bigEndian size value).trans (Nat.mod_eq_of_lt below)

theorem hex_eq (fits : item.Fits) : item.hex = hexText item.encoded.bytes := by
  cases item with
  | named mnemonic => exact (hex_of_mnemonic mnemonic).1
  | push size value =>
      obtain ⟨positive, small, below⟩ := fits
      have opcode : 0x60 + size - 1 = 0x5f + size := by omega
      rw [hex, pushHex, opcode, hex_of_pushOpcode small,
        leftpad_eq_hexText (by omega) below, ← hexText_append]
      rfl

private theorem hex_flatMap (fits : ∀ item ∈ items, item.Fits) :
    items.flatMap hex =
      hexText ((items.map encoded).flatMap Encoded.bytes) := by
  rw [List.flatMap_map, hexText_flatMap]
  apply List.flatMap_congr
  intro item member
  exact hex_eq (fits item member)

/-- A push without a size is written too long, and nothing is too short. -/
theorem width_le (item : Item) :
    2 * item.width ≤ item.hex.length ∧
      (item.hex.length ≤ 2 * item.width →
        ∀ value, item ≠ .push 0 value) := by
  cases item with
  | named mnemonic =>
      rw [hex, (hex_of_mnemonic mnemonic).1]
      exact ⟨Nat.le_refl _, fun _ value => nofun⟩
  | push size value =>
      have wide : 2 ≤ (Nat.toDigits 16 (0x60 + size - 1)).length := by
        have digits := @Nat.length_toDigits_le_iff 16 (0x60 + size - 1) 1
          (by omega) (by omega)
        omega
      have some_digit : 0 < (Nat.toDigits 16 value).length :=
        List.length_pos_iff.mpr Nat.toDigits_ne_nil
      have length : (hex (.push size value)).length =
          (Nat.toDigits 16 (0x60 + size - 1)).length +
            max (size * 2) (Nat.toDigits 16 value).length := by
        simp [hex, pushHex, List.leftpad]
        omega
      rw [length]
      refine ⟨by rw [width]; omega, ?_⟩
      rintro short _ ⟨rfl⟩
      rw [width] at short
      omega

private theorem width_of_spells {encoded : Encoded}
    (spells : item.Spells encoded) :
    encoded.bytes.length = item.width := by
  cases item with
  | named mnemonic =>
      rw [Encoded.bytes, spells.2]
      rfl
  | push size value =>
      rw [Encoded.bytes, List.length_cons, spells.2.1, width]
      omega

theorem fits_of_spells {encoded : Encoded} (spells : item.Spells encoded)
    (short : encoded.immediate.length ≤ immediateLength encoded.opcode)
    (sized : ∀ value, item ≠ .push 0 value) : item.Fits := by
  cases item with
  | named mnemonic => trivial
  | push size value =>
      obtain ⟨opcode, length, reads⟩ := spells
      have positive : size ≠ 0 := by
        rintro rfl
        exact sized value rfl
      unfold immediateLength at short
      refine ⟨by omega, ?_, ?_⟩
      · split at short <;> omega
      · rw [← length, ← reads]
        exact spelled_lt encoded.immediate

private theorem width_flatMap {program : List Encoded}
    (spells : List.Forall₂ Spells items program) :
    (program.flatMap Encoded.bytes).length = (items.map width).sum := by
  induction spells with
  | nil => rfl
  | cons spells _ ih =>
      rw [List.flatMap_cons, List.length_append, ih, width_of_spells spells]
      rfl

theorem sized_of_length
    (short : (items.flatMap hex).length ≤ 2 * (items.map width).sum) :
    ∀ item ∈ items, ∀ value, item ≠ .push 0 value := by
  have long (items : List Item) :
      2 * (items.map width).sum ≤ (items.flatMap hex).length := by
    induction items with
    | nil => exact Nat.le_refl _
    | cons item items ih =>
        have first := (width_le item).1
        simp only [List.map_cons, List.sum_cons, List.flatMap_cons,
          List.length_append]
        omega
  induction items with
  | nil => intro item member; cases member
  | cons item items ih =>
      have first := width_le item
      have rest := long items
      simp only [List.map_cons, List.sum_cons, List.flatMap_cons,
        List.length_append] at short
      intro other member
      rcases List.mem_cons.mp member with rfl | later
      · exact first.2 (by omega)
      · exact ih (by omega) other later

private theorem forall_fits_of_spells {program : List Encoded}
    (spells : List.Forall₂ Spells items program)
    (short : ∀ encoded ∈ program,
      encoded.immediate.length ≤ immediateLength encoded.opcode)
    (sized : ∀ item ∈ items, ∀ value, item ≠ .push 0 value) :
    ∀ item ∈ items, item.Fits := by
  induction spells with
  | nil => intro item member; cases member
  | cons first _ ih =>
      simp only [List.forall_mem_cons] at short sized ⊢
      exact ⟨fits_of_spells first short.1 sized.1, ih short.2 sized.2⟩

/-- The text of the items is read as bytes that list the items. -/
def Listed (items : List Item) (text : Text) : Prop :=
  ∃ code, readHex text = some code ∧
    List.Forall₂ Spells items (disassemble code)

theorem listed_iff :
    Listed items (items.flatMap hex) ↔ ∀ item ∈ items, item.Fits := by
  constructor
  · rintro ⟨code, read, spells⟩
    have length := length_of_readHex read
    have bytes := width_flatMap spells
    rw [flatMap_disassemble] at bytes
    have sized := sized_of_length (show (items.flatMap hex).length ≤
      2 * (items.map width).sum by omega)
    exact forall_fits_of_spells spells length_immediate_le sized
  · intro fits
    refine ⟨(items.map encoded).flatMap Encoded.bytes, ?_, ?_⟩
    · rw [hex_flatMap fits, readHex_hexText]
    · rw [disassemble_flatMap, List.forall₂_map_right_iff, List.forall₂_same]
      · exact fun item member => spells_encoded (fits item member)
      · intro encoded member
        obtain ⟨item, listed, rfl⟩ := List.mem_map.mp member
        exact wellFormed_encoded (fits item listed)

end Item

variable {file : BytecodeFile} {items : List Item}

theorem bytecodeToHex_eq (read : readItems file = .ok items) :
    bytecodeToHex file = .ok (items.flatMap Item.hex) := by
  rw [bytecodeToHex, read]
  rfl

/-- The bytes of an accepted file list its items exactly if every pushed value
fits its push. -/
theorem lists_items_iff (read : readItems file = .ok items) :
    (∃ text, bytecodeToHex file = .ok text ∧ Item.Listed items text) ↔
      ∀ item ∈ items, item.Fits := by
  rw [← Item.listed_iff, bytecodeToHex_eq read]
  simp

def wideFile : BytecodeFile where
  name := "wide.bytecode".toList
  text := "push1 0x12c # two bytes\nstop".toList
  ascii := by decide

/-- A push of one byte with a value of two. -/
theorem lists_items_iff_wide :
    ¬ ∃ text, bytecodeToHex wideFile = .ok text ∧
      Item.Listed [.push 1 300, .named ⟨("stop", "00"), by decide⟩] text := by
  rw [lists_items_iff (by decide +kernel)]
  intro fits
  have small := (fits _ List.mem_cons_self).2.2
  omega

end Disassembly

section Execution

/-- The instructions of the machine under their mnemonics. -/
def instructions : List (String × Instruction) :=
  [("stop", .stop), ("add", .add), ("mod", .mod), ("eq", .eq),
    ("iszero", .iszero), ("caller", .caller), ("calldataload", .calldataload),
    ("calldatasize", .calldatasize), ("calldatacopy", .calldatacopy),
    ("returndatasize", .returndatasize), ("returndatacopy", .returndatacopy),
    ("timestamp", .timestamp), ("number", .number), ("prevrandao", .prevrandao),
    ("pop", .pop), ("mstore", .mstore), ("sload", .sload), ("sstore", .sstore),
    ("jumpi", .jumpi), ("gas", .gas), ("jumpdest", .jumpdest),
    ("push0", .push 0 0), ("return", .return_), ("staticcall", .staticcall),
    ("revert", .revert)] ++
  (List.range 16).map (fun i => ("dup" ++ toString (i + 1), .dup (i + 1))) ++
  (List.range 16).map (fun i => ("swap" ++ toString (i + 1), .swap (i + 1)))

/-- The instruction that an item names, if the machine has it. -/
def Item.instruction : Item → Option Instruction
  | .named mnemonic => instructions.lookup mnemonic.val.1
  | .push size value =>
      if 1 ≤ size ∧ size ≤ 32 ∧ value < 256 ^ size then
        some (.push size (BitVec.ofNat 256 value))
      else none

/-- The instructions that a file names. -/
def program (file : BytecodeFile) : Option Code :=
  match readItems file with
  | .ok items => items.mapM Item.instruction
  | .error _ => none

private theorem encode_of_mnemonic {mnemonic : Mnemonic}
    {instruction : Instruction}
    (named : instructions.lookup mnemonic.val.1 = some instruction) :
    instruction.Encodable ∧
      instruction.encode = (Item.named mnemonic).encoded := by
  have every : ∀ entry ∈ opcodes,
      ∀ instruction ∈ instructions.lookup entry.1, instruction.Encodable ∧
        instruction.encode =
          ⟨BitVec.ofNat 8 (intOf 16 entry.2.toList), []⟩ := by
    decide +kernel
  exact every mnemonic.val mnemonic.property instruction named

theorem Item.encode_of_instruction {item : Item} {instruction : Instruction}
    (named : item.instruction = some instruction) :
    item.Fits ∧ instruction.Encodable ∧
      instruction.encode = item.encoded := by
  cases item with
  | named mnemonic => exact ⟨trivial, encode_of_mnemonic named⟩
  | push size value =>
      rw [Item.instruction] at named
      split at named
      · rename_i fits
        cases named
        obtain ⟨positive, small, below⟩ := fits
        have word : (BitVec.ofNat 256 value).toNat = value := by
          rw [BitVec.toNat_ofNat]
          apply Nat.mod_eq_of_lt
          calc
            value < 256 ^ size := below
            _ ≤ 256 ^ 32 := Nat.pow_le_pow_right (by omega) small
            _ = 2 ^ 256 := by decide
        refine ⟨⟨positive, small, below⟩, ⟨small, by rwa [word]⟩, ?_⟩
        rw [Instruction.encode, Instruction.opcode_push, Instruction.immediate,
          word]
        rfl
      · cases named

theorem hex_of_instructions {items : List Item} {code : Code}
    (named : items.mapM Item.instruction = some code) :
    items.flatMap Item.hex = hexText code.bytes ∧
      ∀ instruction ∈ code, instruction.Encodable := by
  induction items generalizing code with
  | nil =>
      cases named
      exact ⟨rfl, nofun⟩
  | cons item items ih =>
      simp only [List.mapM_cons, Option.bind_eq_bind,
        Option.bind_eq_some_iff] at named
      obtain ⟨instruction, first, rest, later, together⟩ := named
      cases together
      obtain ⟨fits, encodable, encodes⟩ := Item.encode_of_instruction first
      obtain ⟨hex, others⟩ := ih later
      constructor
      · rw [List.flatMap_cons, hex, Item.hex_eq fits, ← encodes,
          ← hexText_append]
        rfl
      · exact List.forall_mem_cons.mpr ⟨encodable, others⟩

/-- The bytes of a file run as the instructions that it names. -/
theorem runs_as_written {file : BytecodeFile} {code : Code}
    (written : program file = some code) :
    ∃ text bytes, bytecodeToHex file = .ok text ∧ readHex text = some bytes ∧
      ∀ (context : Context) (storage : Storage) (count : Nat),
        stepsBytes bytes context count (.start storage) =
          steps { context with code } count (.start storage) := by
  unfold program at written
  split at written
  · rename_i items read
    obtain ⟨hex, encodable⟩ := hex_of_instructions written
    refine ⟨items.flatMap Item.hex, code.bytes, bytecodeToHex_eq read, ?_, ?_⟩
    · rw [hex, readHex_hexText]
    · exact fun context storage count =>
        stepsBytes_eq encodable count code.boundary_zero
  · cases written

/-- Lines as they stand in a file. -/
def unlines (lines : List Text) : Text :=
  lines.flatMap fun line => line ++ ['\n']

def originalFile : BytecodeFile where
  name := "original-eip4788-contract.bytecode".toList
  text :=
    unlines
      ([List.replicate 79 '#',
      "# The bytecode for the (original) EIP-4".toList ++
        "788 Beacon Root History smart contract.".toList,
      "# For detailed bytecode analysis, see".toList ++
        ": ../docs/original-eip4788-contract.md".toList,
      List.replicate 79 '#'] ++
      ["", "caller", "push20 0xfffffffffffffffffffffffffffffffffffffffe", "eq",
        "push1 0x4d", "jumpi", "", "push1 0x20", "calldatasize", "eq",
        "push1 0x24", "jumpi", "", "push0", "push0", "revert", "", "jumpdest",
        "push0", "calldataload", "dup1", "iszero", "push1 0x49", "jumpi", "",
        "push3 0x001fff", "dup2", "mod", "swap1", "dup2", "sload", "eq",
        "push1 0x3c", "jumpi", "", "push0", "push0", "revert", "", "jumpdest",
        "push3 0x001fff", "add", "sload", "push0", "mstore", "push1 0x20",
        "push0", "return", "", "jumpdest", "push0", "push0", "revert", "",
        "jumpdest", "push3 0x001fff", "timestamp", "mod", "timestamp", "dup2",
        "sstore", "push0", "calldataload", "swap1", "push3 0x001fff", "add",
        "sstore", "stop"].map String.toList)
  ascii := by decide +kernel

def modifiedFile : BytecodeFile where
  name := "modified-eip4788-contract.bytecode".toList
  text :=
    unlines
      ([List.replicate 79 '#',
      "# The bytecode for the modified EIP-47".toList ++
        "88 Beacon Root History smart contract.".toList,
      "# For detailed bytecode analysis, see".toList ++
        ": ../docs/modified-eip4788-contract.md".toList,
      List.replicate 79 '#'] ++
      ["", "caller", "push20 0xfffffffffffffffffffffffffffffffffffffffe", "eq",
        "push1 0x7d", "jumpi", "", "push1 0x20", "calldatasize", "eq",
        "push1 0x24", "jumpi", "", "push0", "push0", "revert", "", "jumpdest",
        "push0", "calldataload", "dup1", "iszero", "push1 0x79", "jumpi", "",
        "push2 0x1fff", "dup2", "mod", "swap1", "dup2", "sload", "eq",
        "push1 0x3b", "jumpi", "push0", "push0", "revert", "", "jumpdest",
        "push2 0x1fff", "add", "dup1", "sload", "push0", "mstore", "caller",
        "push20 0xFe38D0727B928E19bE51673Ac0691Ca22C05B1B3", "eq", "push1 0x63",
        "jumpi", "", "pop", "push1 0x20", "push0", "return", "", "jumpdest",
        "push2 0x1fff", "add", "dup1", "sload", "push1 0x20", "mstore",
        "push2 0x1fff", "add", "sload", "push1 0x40", "mstore", "push1 0x60",
        "push0", "return", "", "jumpdest", "push0", "push0", "revert",
        "jumpdest", "push2 0x1fff", "timestamp", "mod", "timestamp", "dup2",
        "sstore", "push2 0x1fff", "add", "push0", "calldataload", "dup2",
        "sstore", "push2 0x1fff", "add", "randao", "dup2", "sstore",
        "push2 0x1fff", "add", "number", "swap1", "sstore",
        "stop"].map String.toList)
  ascii := by decide +kernel

def randaoReaderFile : BytecodeFile where
  name := "randao-reader-contract.bytecode".toList
  text :=
    unlines
      ([List.replicate 79 '#',
      "# The bytecode for the Randao Reader smart contract.".toList,
      "# For detailed bytecode analysis, se".toList ++
        "e: ../docs/randao-reader-contract.md".toList,
      List.replicate 79 '#'] ++
      ["", "calldatasize", "push0", "push0", "calldatacopy", "push0", "push0",
        "calldatasize", "push0",
        "push20 0x000F3df6D732807Ef1319fB7B8bB8522d0Beac02", "gas",
        "staticcall", "returndatasize", "push0", "push0", "returndatacopy",
        "iszero", "push1 0x2a", "jumpi", "returndatasize", "push0", "return",
        "jumpdest", "returndatasize", "push0", "revert"].map String.toList)
  ascii := by decide +kernel

example : program originalFile = some originalContract := by
  decide +kernel

-- The table of the script has no `randao`.
example : bytecodeToHex modifiedFile =
    .error (unknownOpcode "randao".toList modifiedFile.name 96
      "randao".toList) := by
  decide +kernel

-- The bytes that the repository keeps have `prevrandao` in its place.
example : hexText modifiedContract.bytes =
    "3373fffffffffffffffffffffffffffffffffffffffe14607d576020361460".toList ++
    "24575f5ffd5b5f358015607957611fff810690815414603b575f5ffd5b611f".toList ++
    "ff0180545f523373fe38d0727b928e19be51673ac0691ca22c05b1b3146063".toList ++
    "575060205ff35b611fff018054602052611fff015460405260605ff35b5f5f".toList ++
    "fd5b611fff4206428155611fff015f358155611fff01448155611fff014390".toList ++
    "5500".toList := by
  decide +kernel

/-- The file of the reader runs as the reader. -/
theorem runs_as_written_randaoReader :
    ∃ text bytes, bytecodeToHex randaoReaderFile = .ok text ∧
      readHex text = some bytes ∧
      ∀ (context : Context) (storage : Storage) (count : Nat),
        stepsBytes bytes context count (.start storage) =
          steps { context with code := readerContract } count
            (.start storage) :=
  runs_as_written (by decide +kernel)

end Execution

end Eip4788
