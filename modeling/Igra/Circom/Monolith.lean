import Igra.Circom.BitArrays
import Igra.Circom.Constants
import Igra.Circom.Goldilocks

/-!
# The Monolith circuit

The layers of the permutation, the permutation and the sponge over it, as
records of signals.  `signal tmp[rc][k]` of the permutation is read off by
`tmp0`, `tmp1` and `tmp2`.
-/

namespace Circom

abbrev Lanes := Fin spongeWidth → Signal

section Concrete

structure Concrete where
  glReduce : Fin spongeWidth → GlReduce 64

namespace Concrete

def acc (round : Fin (nRounds + 1)) (input : Lanes) (row : Fin spongeWidth) :
    Signal :=
  roundConstants round row + ∑ column, input column * (mat12 row column : Signal)

def out (signals : Concrete) : Lanes := fun row => (signals.glReduce row).out

def assign (round : Fin (nRounds + 1)) (input : Lanes) : Concrete where
  glReduce row := GlReduce.assign 64 (acc round input row)

def Holds (signals : Concrete) (round : Fin (nRounds + 1)) (input : Lanes) :
    Prop :=
  ∀ row, (signals.glReduce row).Holds (acc round input row)

end Concrete

end Concrete

section Bar

structure Bar where
  num2BitArrays : Num2BitArrays 8 lookupBits

namespace Bar

def limbOutBitArrays (signals : Bar) : BitArrays 8 lookupBits :=
  let limbInBitArrays := signals.num2BitArrays.out
  let limbInBitArraysNeg := negateBitArrays limbInBitArrays
  let limbInNegRot1 := rotateBitArraysLeft 1 limbInBitArraysNeg
  let limbInRot2 := rotateBitArraysLeft 2 limbInBitArrays
  let limbInRot3 := rotateBitArraysLeft 3 limbInBitArrays
  let tmp1 := and3BitArrays limbInNegRot1 limbInRot2 limbInRot3
  let tmp2 := xorBitArrays limbInBitArrays tmp1
  rotateBitArraysLeft 1 tmp2

def limbOut (signals : Bar) : Signal := bitArrays2Num signals.limbOutBitArrays

def assign (limbIn : Signal) : Bar where
  num2BitArrays := Num2BitArrays.assign 8 lookupBits limbIn

def Holds (signals : Bar) (limbIn : Signal) : Prop :=
  signals.num2BitArrays.Holds limbIn

end Bar

structure Bars where
  bar : Fin nBars → Bar

namespace Bars

/-- The row of a bar. -/
def row (index : Fin nBars) : Fin spongeWidth := Fin.castLE (by decide) index

def out (signals : Bars) (input : Lanes) : Lanes := fun row =>
  if first : (row : Nat) < nBars then (signals.bar ⟨row, first⟩).limbOut
  else input row

def assign (input : Lanes) : Bars where
  bar index := Bar.assign (input (row index))

def Holds (signals : Bars) (input : Lanes) : Prop :=
  ∀ index, (signals.bar index).Holds (input (row index))

end Bars

end Bar

section Bricks

structure Bricks where
  glMul : Fin 11 → GlMul

namespace Bricks

def out (signals : Bricks) (input : Lanes) : Lanes :=
  Fin.cases (input 0) fun i => input i.succ + (signals.glMul i).out

def assign (input : Lanes) : Bricks where
  glMul i := GlMul.assign (input i.castSucc) (input i.castSucc)

def Holds (signals : Bricks) (input : Lanes) : Prop :=
  ∀ i, (signals.glMul i).Holds (input i.castSucc) (input i.castSucc)

end Bricks

end Bricks

section Monolith

/-- The components of one pass of the loop. -/
structure Round where
  bars : Bars
  bricks : Bricks
  concrete : Concrete

structure Monolith where
  first : Concrete
  rounds : Fin nRounds → Round

namespace Monolith

def tmp2 (signals : Monolith) : Fin (nRounds + 1) → Lanes :=
  Fin.cases signals.first.out fun rc => (signals.rounds rc).concrete.out

def tmp0 (signals : Monolith) (rc : Fin nRounds) : Lanes :=
  (signals.rounds rc).bars.out (signals.tmp2 rc.castSucc)

def tmp1 (signals : Monolith) (rc : Fin nRounds) : Lanes :=
  (signals.rounds rc).bricks.out (signals.tmp0 rc)

def out (signals : Monolith) : Lanes := signals.tmp2 (Fin.last nRounds)

def Holds (signals : Monolith) (input : Lanes) : Prop :=
  signals.first.Holds 0 input ∧
  ∀ rc, (signals.rounds rc).bars.Holds (signals.tmp2 rc.castSucc) ∧
    (signals.rounds rc).bricks.Holds (signals.tmp0 rc) ∧
    (signals.rounds rc).concrete.Holds rc.succ (signals.tmp1 rc)

def assignTmp0 (input : Lanes) : Lanes := (Bars.assign input).out input

def assignTmp1 (input : Lanes) : Lanes :=
  (Bricks.assign (assignTmp0 input)).out (assignTmp0 input)

/-- The signals computed in order.  How the sums of a layer are divided is left
open. -/
def assignTmp2 (divide : Fin (nRounds + 1) → Lanes → Concrete)
    (input : Lanes) : Fin (nRounds + 1) → Lanes :=
  Fin.induction (divide 0 input).out fun rc lanes =>
    (divide rc.succ (assignTmp1 lanes)).out

def assignBy (divide : Fin (nRounds + 1) → Lanes → Concrete)
    (input : Lanes) : Monolith where
  first := divide 0 input
  rounds rc :=
    let lanes := assignTmp2 divide input rc.castSucc
    { bars := Bars.assign lanes
      bricks := Bricks.assign (assignTmp0 lanes)
      concrete := divide rc.succ (assignTmp1 lanes) }

def assign (input : Lanes) : Monolith := assignBy Concrete.assign input

end Monolith

end Monolith

section Hash

/-- The number of blocks. -/
def nHash (nInputs : Nat) : Nat := (nInputs + spongeRate - 1) / spongeRate

structure HashNToMNoPad (nInputs : Nat) where
  cMonolith : Fin (nHash nInputs) → Monolith

namespace HashNToMNoPad

variable {nInputs : Nat}

/-- What is left in a lane by the block before. -/
def left (signals : HashNToMNoPad nInputs) (i : Fin (nHash nInputs)) : Lanes :=
  if 0 < (i : Nat) then
    (signals.cMonolith ⟨i - 1, (Nat.sub_le _ _).trans_lt i.isLt⟩).out
  else fun _ => 0

def absorbed (signals : HashNToMNoPad nInputs) (input : Fin nInputs → Signal)
    (i : Fin (nHash nInputs)) : Lanes := fun j =>
  if (j : Nat) < spongeRate then
    if inside : i * spongeRate + j < nInputs then input ⟨_, inside⟩
    else signals.left i j
  else signals.left i j

def Holds (signals : HashNToMNoPad nInputs) (input : Fin nInputs → Signal) :
    Prop :=
  ∀ i, (signals.cMonolith i).Holds (signals.absorbed input i)

/-- The last block, of at least one input. -/
def last (positive : 0 < nInputs) : Fin (nHash nInputs) :=
  ⟨nHash nInputs - 1, by unfold nHash spongeRate; omega⟩

def out (signals : HashNToMNoPad nInputs) (positive : 0 < nInputs)
    {nOutputs : Nat} (fits : nOutputs ≤ spongeWidth) :
    Fin nOutputs → Signal :=
  fun i => (signals.cMonolith (last positive)).out (Fin.castLE fits i)

end HashNToMNoPad

namespace HashNoPad

variable {nInputs : Nat}

def out (signals : HashNToMNoPad nInputs) (positive : 0 < nInputs) :
    Fin numHashOutElts → Signal :=
  signals.out positive (by decide)

end HashNoPad

namespace TwoToOne

def input (left right : Fin numHashOutElts → Signal) : Lanes := fun i =>
  if first : (i : Nat) < numHashOutElts then left ⟨i, first⟩
  else if second : i < 2 * numHashOutElts then
    right ⟨i - numHashOutElts, by omega⟩
  else 0

def Holds (monolith : Monolith) (left right : Fin numHashOutElts → Signal) :
    Prop :=
  monolith.Holds (input left right)

def out (monolith : Monolith) : Fin numHashOutElts → Signal :=
  fun i => monolith.out (Fin.castLE (by decide) i)

end TwoToOne

end Hash

end Circom
