import HackToolchain.Symbol

/-! # Instructions

The machine has two kinds of instruction. One loads a number into the address register `A`. The
other computes a word from the data register `D` and from `A` or the cell `M` that `A` points at,
stores the word, and jumps if the word asks for it.
-/

namespace HackToolchain

/-- A computation on `D` and `Y`, where `Y` is `A` or `M`. -/
inductive Computation where
  | zero
  | one
  | minusOne
  | d
  | y
  | notD
  | notY
  | negD
  | negY
  | dPlusOne
  | yPlusOne
  | dMinusOne
  | yMinusOne
  | dPlusY
  | dMinusY
  | yMinusD
  | dAndY
  | dOrY
deriving DecidableEq, Repr

namespace Computation

/-- Every computation. -/
def all : List Computation :=
  [zero, one, minusOne, d, y, notD, notY, negD, negY, dPlusOne, yPlusOne, dMinusOne, yMinusOne,
    dPlusY, dMinusY, yMinusD, dAndY, dOrY]

/-- The ways to write a computation that reads `A`. -/
def texts : Computation → List String
  | zero => ["0"]
  | one => ["1"]
  | minusOne => ["-1"]
  | d => ["D"]
  | y => ["A"]
  | notD => ["!D"]
  | notY => ["!A"]
  | negD => ["-D"]
  | negY => ["-A"]
  | dPlusOne => ["D+1", "1+D"]
  | yPlusOne => ["A+1", "1+A"]
  | dMinusOne => ["D-1"]
  | yMinusOne => ["A-1"]
  | dPlusY => ["D+A", "A+D"]
  | dMinusY => ["D-A"]
  | yMinusD => ["A-D"]
  | dAndY => ["D&A", "A&D"]
  | dOrY => ["D|A", "A|D"]

/-- The computation that a text with `A` stands for. -/
def ofText? (text : String) : Option Computation :=
  all.find? fun computation => text ∈ computation.texts

/-- The result of a computation. -/
def eval (d y : Word) : Computation → Word
  | zero => 0
  | one => 1
  | minusOne => -1
  | .d => d
  | .y => y
  | notD => ~~~d
  | notY => ~~~y
  | negD => -d
  | negY => -y
  | dPlusOne => d + 1
  | yPlusOne => y + 1
  | dMinusOne => d - 1
  | yMinusOne => y - 1
  | dPlusY => d + y
  | dMinusY => d - y
  | yMinusD => y - d
  | dAndY => d &&& y
  | dOrY => d ||| y

end Computation

/-- What a computation reads besides `D`. -/
inductive Input where
  | address
  | memory
deriving DecidableEq, Repr

/-- Where the result of a computation is stored. -/
structure Destination where
  a : Bool := false
  d : Bool := false
  m : Bool := false
deriving DecidableEq, Repr

/-- When a computation jumps. -/
inductive Jump where
  | never
  | gt
  | eq
  | ge
  | lt
  | ne
  | le
  | always
deriving DecidableEq, Repr

namespace Jump

/-- The jumps that are written out. -/
def written : List Jump :=
  [gt, eq, ge, lt, ne, le, always]

/-- The text of a jump. -/
def text : Jump → String
  | never => ""
  | gt => "JGT"
  | eq => "JEQ"
  | ge => "JGE"
  | lt => "JLT"
  | ne => "JNE"
  | le => "JLE"
  | always => "JMP"

/-- The jump that a text stands for. -/
def ofText? (text : String) : Option Jump :=
  written.find? fun jump => jump.text = text

/-- Whether a result makes the jump. -/
def taken (value : Word) : Jump → Bool
  | never => false
  | gt => 0 < value.toInt
  | eq => value = 0
  | ge => 0 ≤ value.toInt
  | lt => value.toInt < 0
  | ne => value ≠ 0
  | le => value.toInt ≤ 0
  | always => true

end Jump

/-- An instruction of the machine. -/
inductive Instruction where
  | load (value : Word)
  | compute (destination : Destination) (input : Input) (computation : Computation) (jump : Jump)
deriving DecidableEq, Repr

end HackToolchain
