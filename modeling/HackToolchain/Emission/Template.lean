import HackToolchain.Assembly.Line
import HackToolchain.Command.Basic
import HackToolchain.Command.Fault
import HackToolchain.Emission.LabelSupply

/-! # Templates

Every command stands for a fixed sequence of assembly lines, which depends on the command, on the
unit it is in and on the labels that are free. A command that no sequence stands for is refused with
a cause, and takes no label.
-/

namespace HackToolchain

/-- The address of the bottom of the stack. -/
def stackBase : Word := 256

/-- The address of the first cell of the segment `temp`. -/
def tempBase : Word := 5

/-- The number of cells that a call saves: the return address and four segment bases. -/
def frameSize : Word := 5

namespace Template

/-- Loads the address of a register. -/
def cell (register : Register) : AssemblyLine :=
  .load (.register register)

/-- Loads a number. -/
def number (value : Word) : AssemblyLine :=
  .load (.number value)

/-- Loads the address of a symbol. -/
def symbol (name : String) : AssemblyLine :=
  .load (.symbol name)

/-- Pushes `D`. -/
def pushD : List AssemblyLine :=
  [cell .stackPointer, .compute "A=M", .compute "M=D", cell .stackPointer, .compute "M=M+1"]

/-- Pops into `D`, and leaves the address of the popped cell in `A`. -/
def popD : List AssemblyLine :=
  [cell .stackPointer, .compute "AM=M-1", .compute "D=M"]

/-- Pops into the cell whose address is in the scratch cell. -/
def popToScratch : List AssemblyLine :=
  popD ++ [cell .scratch, .compute "A=M", .compute "M=D"]

/-- Loads the address of the top of the stack. -/
def top : List AssemblyLine :=
  [cell .stackPointer, .compute "A=M-1"]

/-- Replaces the two values on top of the stack by the result of a computation. -/
def binary (computation : String) : List AssemblyLine :=
  popD ++ [.compute "A=A-1", .compute computation]

/-- Replaces the value on top of the stack by the result of a computation. -/
def unary (computation : String) : List AssemblyLine :=
  top ++ [.compute computation]

/-- Replaces the two values on top of the stack by minus one if their difference makes the jump, and
by zero if not. The difference is taken modulo the size of a word. -/
def comparison (labels : ComparisonLabels) (jump : String) : List AssemblyLine :=
  popD ++ [.compute "A=A-1", .compute "D=M-D", symbol labels.holds, .compute jump] ++ top ++
    [.compute "M=0", symbol labels.done, .compute "0;JMP", .label labels.holds] ++ top ++
    [.compute "M=-1", .label labels.done]

/-- A comparison with labels of its own. -/
def freshComparison (supply : LabelSupply) (jump : String) : List AssemblyLine × LabelSupply :=
  let (labels, supply) := supply.nextComparison
  (comparison labels jump, supply)

/-- The lines for an operator. -/
def operator (supply : LabelSupply) : Operator → List AssemblyLine × LabelSupply
  | .add => (binary "M=D+M", supply)
  | .sub => (binary "M=M-D", supply)
  | .and => (binary "M=D&M", supply)
  | .or => (binary "M=D|M", supply)
  | .neg => (unary "M=-M", supply)
  | .not => (unary "M=!M", supply)
  | .eq => freshComparison supply "D;JEQ"
  | .gt => freshComparison supply "D;JGT"
  | .lt => freshComparison supply "D;JLT"

/-- Where the first cell of an indexed segment is. -/
inductive Base where
  /-- At the address in a register. -/
  | register (register : Register)
  /-- At a fixed address. -/
  | fixed (address : Word)
deriving DecidableEq, Repr

/-- Loads a base into `D`. -/
def Base.load : Base → List AssemblyLine
  | register base => [cell base, .compute "D=M"]
  | fixed address => [number address, .compute "D=A"]

/-- How a cell of a segment is reached. -/
inductive Location where
  /-- It is no cell but a value. -/
  | constant (value : Word)
  /-- It is so many cells after a base. -/
  | indexed (base : Base) (index : Word)
  /-- It has a symbol of its own. -/
  | named (operand : Operand)
deriving DecidableEq, Repr

/-- A number, if an address instruction can load it. -/
def loadable (value : Word) : Except FaultCause Word :=
  if value.toNat ≤ Word.maxAddress then .ok value else .error .addressRange

/-- The symbol of a cell of the segment `static`. -/
def staticSymbol (unit : String) (index : Word) : String :=
  unit ++ "." ++ index.decimal

/-- How the cell of a segment with an index is reached from a unit. -/
def locate (unit : String) (segment : Segment) (index : Word) : Except FaultCause Location :=
  match segment with
  | .constant => .ok (.constant index)
  | .local => (loadable index).map (.indexed (.register .local))
  | .argument => (loadable index).map (.indexed (.register .argument))
  | .this => (loadable index).map (.indexed (.register .this))
  | .that => (loadable index).map (.indexed (.register .that))
  | .temp => (loadable index).map (.indexed (.fixed tempBase))
  | .pointer =>
    if index = 0 then .ok (.named (.register .this))
    else if index = 1 then .ok (.named (.register .that))
    else .error .pointerIndex
  | .static => .ok (.named (.symbol (staticSymbol unit index)))

/-- Loads a value into `D`; one that no address instruction can hold is the complement of one that
can. -/
def loadConstant (value : Word) : List AssemblyLine :=
  if value.toNat ≤ Word.maxAddress then [number value, .compute "D=A"]
  else [number (~~~value), .compute "D=!A"]

/-- Pushes what is at a location. -/
def pushFrom : Location → List AssemblyLine
  | .constant value => loadConstant value ++ pushD
  | .indexed base index =>
    base.load ++ [number index, .compute "A=D+A", .compute "D=M"] ++ pushD
  | .named operand => [.load operand, .compute "D=M"] ++ pushD

/-- Pops into a location. The address of an indexed cell is kept in the scratch cell, since it is
found before the stack pointer moves. -/
def popInto : Location → Except FaultCause (List AssemblyLine)
  | .constant _ => .error .popConstant
  | .indexed base index =>
    .ok (base.load ++ [number index, .compute "D=D+A", cell .scratch, .compute "M=D"] ++
      popToScratch)
  | .named operand => .ok (popD ++ [.load operand, .compute "M=D"])

/-- Starts a function: sets its local cells to zero and puts them on the stack. -/
def function (name : String) (locals : Word) : List AssemblyLine :=
  .label name ::
    if locals = 0 then []
    else [cell .stackPointer, .compute "A=M"] ++
      (List.replicate locals.toNat [AssemblyLine.compute "M=0", .compute "A=A+1"]).flatten ++
      [.compute "D=A", cell .stackPointer, .compute "M=D"]

/-- Pushes the value of a register. -/
def pushRegister (register : Register) : List AssemblyLine :=
  [cell register, .compute "D=M"] ++ pushD

/-- Saves the frame of the caller, sets up the frame of a function and jumps to it. -/
def callWith (returnLabel function : String) (arguments : Word) : List AssemblyLine :=
  [symbol returnLabel, .compute "D=A"] ++ pushD ++ pushRegister .local ++ pushRegister .argument ++
    pushRegister .this ++ pushRegister .that ++
    [cell .stackPointer, .compute "D=M", number frameSize, .compute "D=D-A",
      number arguments, .compute "D=D-A", cell .argument, .compute "M=D",
      cell .stackPointer, .compute "D=M", cell .local, .compute "M=D",
      symbol function, .compute "0;JMP", .label returnLabel]

/-- Calls a function, with a label of its own for the return. -/
def call (supply : LabelSupply) (function : String) (arguments : Word) :
    List AssemblyLine × LabelSupply :=
  let (returnLabel, supply) := supply.nextCall function
  (callWith returnLabel function arguments, supply)

/-- Restores a register from the cell so many cells below the end of the frame, which is in the
scratch cell. -/
def restore (register : Register) (depth : Word) : List AssemblyLine :=
  [cell .scratch, .compute "D=M", number depth, .compute "A=D-A", .compute "D=M", cell register,
    .compute "M=D"]

/-- Takes down the frame of a function and jumps back to its caller. The end of the frame and the
return address are saved before the result can overwrite them. -/
def leave : List AssemblyLine :=
  [cell .local, .compute "D=M", cell .scratch, .compute "M=D",
    number frameSize, .compute "A=D-A", .compute "D=M", cell .secondScratch, .compute "M=D"] ++
    popD ++
    [cell .argument, .compute "A=M", .compute "M=D",
      cell .argument, .compute "D=M+1", cell .stackPointer, .compute "M=D"] ++
    restore .that 1 ++ restore .this 2 ++ restore .argument 3 ++ restore .local 4 ++
    [cell .secondScratch, .compute "A=M", .compute "0;JMP"]

/-- Sets up the stack and calls the entry function. -/
def bootstrap (supply : LabelSupply) (entry : String) : List AssemblyLine × LabelSupply :=
  let (lines, supply) := call supply entry 0
  ([number stackBase, .compute "D=A", cell .stackPointer, .compute "M=D"] ++ lines, supply)

/-- The lines for a command in a unit. -/
def command (unit : String) (supply : LabelSupply) :
    Command → Except FaultCause (List AssemblyLine × LabelSupply)
  | .operator op => .ok (operator supply op)
  | .push segment index => do
    let location ← locate unit segment index
    return (pushFrom location, supply)
  | .pop segment index => do
    let location ← locate unit segment index
    return (← popInto location, supply)
  | .label name => .ok ([.label name], supply)
  | .goto name => .ok ([symbol name, .compute "0;JMP"], supply)
  | .ifGoto name => .ok (popD ++ [symbol name, .compute "D;JNE"], supply)
  | .function name locals => .ok (function name locals, supply)
  | .call name arguments => do
    let arguments ← loadable arguments
    return call supply name arguments
  | .return => .ok (leave, supply)

end Template

end HackToolchain
