import HackToolchain.Symbol

/-! # Lines of assembly code

The lines that the compiler writes, and their text.
-/

namespace HackToolchain

/-- A cell of memory with a name of its own. -/
inductive Register where
  /-- The stack pointer. -/
  | stackPointer
  /-- The base of the local segment. -/
  | local
  /-- The base of the argument segment. -/
  | argument
  /-- The base of the segment `this`. -/
  | this
  /-- The base of the segment `that`. -/
  | that
  /-- A scratch cell. -/
  | scratch
  /-- Another scratch cell. -/
  | secondScratch
deriving DecidableEq, Repr

/-- The symbol of a register. -/
def Register.name : Register → String
  | stackPointer => "SP"
  | .local => "LCL"
  | argument => "ARG"
  | this => "THIS"
  | that => "THAT"
  | scratch => "R13"
  | secondScratch => "R14"

/-- What an address instruction loads. -/
inductive Operand where
  | number (value : Word)
  | register (register : Register)
  | symbol (name : String)
deriving DecidableEq, Repr

/-- The text of an operand. -/
def Operand.render : Operand → String
  | number value => value.decimal
  | register cell => cell.name
  | symbol name => name

/-- A line of assembly code. -/
inductive AssemblyLine where
  /-- Loads the address register. -/
  | load (operand : Operand)
  /-- Computes, stores and jumps, as its text says. -/
  | compute (text : String)
  /-- Names the address of the next instruction. -/
  | label (name : String)
  | comment (text : String)
deriving DecidableEq, Repr

namespace AssemblyLine

/-- The text of a line, without a line break. -/
def render : AssemblyLine → String
  | load operand => "@" ++ operand.render
  | compute text => text
  | label name => "(" ++ name ++ ")"
  | comment text => "// " ++ text

/-- The text of a line with its line break. -/
def renderLine (line : AssemblyLine) : String :=
  line.render ++ "\n"

end AssemblyLine

end HackToolchain
