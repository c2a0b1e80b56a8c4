import Igra.Evm.Machine

/-!
# The beacon root contracts

The original history contract, the modified one, which also keeps the randao
and the number of the block, and the reader that fetches the three words.
-/

namespace Eip4788

open Evm

def systemAddress : Address := 0xfffffffffffffffffffffffffffffffffffffffe

/-- The address of the history contract. -/
def historyAddress : Address := 0x000F3df6D732807Ef1319fB7B8bB8522d0Beac02

/-- The address of the reader contract. -/
def randaoReader : Address := 0xFe38D0727B928E19bE51673Ac0691Ca22C05B1B3

def originalContract : Code :=
  [
    .caller, .push 20 0xfffffffffffffffffffffffffffffffffffffffe, .eq,
    .push 1 0x4d, .jumpi,

    .push 1 0x20, .calldatasize, .eq, .push 1 0x24, .jumpi,

    .push 0 0, .push 0 0, .revert,

    .jumpdest, .push 0 0, .calldataload, .dup 1, .iszero, .push 1 0x49, .jumpi,

    .push 3 0x001fff, .dup 2, .mod, .swap 1, .dup 2, .sload, .eq, .push 1 0x3c,
    .jumpi,

    .push 0 0, .push 0 0, .revert,

    .jumpdest, .push 3 0x001fff, .add, .sload, .push 0 0, .mstore,
    .push 1 0x20, .push 0 0, .return_,

    .jumpdest, .push 0 0, .push 0 0, .revert,

    .jumpdest, .push 3 0x001fff, .timestamp, .mod, .timestamp, .dup 2, .sstore,
    .push 0 0, .calldataload, .swap 1, .push 3 0x001fff, .add, .sstore, .stop
  ]

def modifiedContract : Code :=
  [
    .caller, .push 20 0xfffffffffffffffffffffffffffffffffffffffe, .eq,
    .push 1 0x7d, .jumpi,

    .push 1 0x20, .calldatasize, .eq, .push 1 0x24, .jumpi,

    .push 0 0, .push 0 0, .revert,

    .jumpdest, .push 0 0, .calldataload, .dup 1, .iszero, .push 1 0x79, .jumpi,

    .push 2 0x1fff, .dup 2, .mod, .swap 1, .dup 2, .sload, .eq, .push 1 0x3b,
    .jumpi,
    .push 0 0, .push 0 0, .revert,

    .jumpdest, .push 2 0x1fff, .add, .dup 1, .sload, .push 0 0, .mstore,
    .caller, .push 20 0xFe38D0727B928E19bE51673Ac0691Ca22C05B1B3, .eq,
    .push 1 0x63, .jumpi,

    .pop, .push 1 0x20, .push 0 0, .return_,

    .jumpdest, .push 2 0x1fff, .add, .dup 1, .sload, .push 1 0x20, .mstore,
    .push 2 0x1fff, .add, .sload, .push 1 0x40, .mstore,
    .push 1 0x60, .push 0 0, .return_,

    .jumpdest, .push 0 0, .push 0 0, .revert,

    .jumpdest, .push 2 0x1fff, .timestamp, .mod, .timestamp, .dup 2, .sstore,
    .push 2 0x1fff, .add, .push 0 0, .calldataload, .dup 2, .sstore,
    .push 2 0x1fff, .add, .prevrandao, .dup 2, .sstore,
    .push 2 0x1fff, .add, .number, .swap 1, .sstore, .stop
  ]

def readerContract : Code :=
  [
    .calldatasize, .push 0 0, .push 0 0, .calldatacopy,
    .push 0 0, .push 0 0, .calldatasize, .push 0 0,
    .push 20 0x000F3df6D732807Ef1319fB7B8bB8522d0Beac02, .gas, .staticcall,
    .returndatasize, .push 0 0, .push 0 0, .returndatacopy,
    .iszero, .push 1 0x2a, .jumpi,
    .returndatasize, .push 0 0, .return_,
    .jumpdest, .returndatasize, .push 0 0, .revert
  ]

/-- A call of a contract in a block. -/
structure Call where
  caller : Address
  calldata : Data
  block : Block
  isStatic : Bool
  gas : Word
deriving DecidableEq

def Call.context (call : Call) (host : Address → Data → Reply) (code : Code) :
    Context where
  code := code
  caller := call.caller
  calldata := call.calldata
  block := call.block
  isStatic := call.isStatic
  gas := call.gas
  host := host

/-- The word that the contracts read from the calldata. -/
def Call.word (call : Call) : Word := ofBytes (call.calldata.slice 0 32)

/-- A contract halts on a call with an outcome. -/
def Answers (code : Code) (host : Address → Data → Reply) (storage : Storage)
    (call : Call) (outcome : Outcome) : Prop :=
  Halts (call.context host code) (State.start storage) outcome

section Slots

def historyBufferLength : Nat := 8191

def timestampSlot (timestamp : Word) : Word := timestamp % 0x1fff

def rootSlot (timestamp : Word) : Word := 0x1fff + timestampSlot timestamp

def randaoSlot (timestamp : Word) : Word := 0x1fff + rootSlot timestamp

def numberSlot (timestamp : Word) : Word := 0x1fff + randaoSlot timestamp

end Slots

end Eip4788
