import HackToolchain.Assembly.CodeLine
import HackToolchain.Symbol
import HackToolchain.Machine.Instruction

/-! # Assembled programs

Assembly code is turned into instructions in two passes over its lines. The first pass gives every
label the address of the instruction that follows it. The second pass decodes the instructions; a
symbol that is no label gets the next free address for variables when it is first used. Addresses
are words, so either pass can run out of them.
-/

namespace HackToolchain

/-- What is wrong with a line of code. -/
inductive AssemblyCause where
  | labelUsed (name : String)
  | invalidLabel
  | invalidAddress
  | invalidSymbol
  | unknownDestination (text : String)
  | unknownJump (text : String)
  | unknownComputation (text : String)
deriving DecidableEq, Repr

/-- The message for a cause. -/
def AssemblyCause.message : AssemblyCause → String
  | labelUsed name => "label `" ++ name ++ "` already used"
  | invalidLabel => "invalid label"
  | invalidAddress => "invalid address value"
  | invalidSymbol => "invalid symbol"
  | unknownDestination text => "unknown destination `" ++ text ++ "`"
  | unknownJump text => "unknown jump `" ++ text ++ "`"
  | unknownComputation text => "unknown computation `" ++ text ++ "`"

/-- Why code cannot be assembled. -/
inductive AssemblyFailure where
  /-- A line is at fault. -/
  | fault (line : Nat) (cause : AssemblyCause)
  /-- There is no address left. -/
  | overflow
deriving DecidableEq, Repr

/-- The message for a failure. -/
def AssemblyFailure.message : AssemblyFailure → String
  | fault line cause => "line " ++ line.repr ++ ": " ++ cause.message
  | overflow => "out of addresses"

/-- An assembled program. -/
structure Program where
  instructions : Array Instruction
  symbols : SymbolTable

namespace Program

/-- The destination that a text stands for: any of the letters `A`, `D` and `M`, in any order. -/
def decodeDestination (text : Text) : Except AssemblyCause Destination :=
  if text.all fun letter => letter = 'A' || letter = 'D' || letter = 'M' then
    .ok ⟨text.contains 'A', text.contains 'D', text.contains 'M'⟩
  else .error (.unknownDestination (String.ofList text))

/-- The jump that a text stands for. -/
def decodeJump (text : Text) : Except AssemblyCause Jump :=
  match Jump.ofText? (String.ofList text) with
  | some jump => .ok jump
  | none => .error (.unknownJump (String.ofList text))

/-- The computation that a text stands for, and what it reads: the memory if an `M` occurs in it. -/
def decodeComputation (text : Text) : Except AssemblyCause (Input × Computation) :=
  let input := if text.contains 'M' then Input.memory else .address
  let onAddress := text.map fun letter => if letter = 'M' then 'A' else letter
  match Computation.ofText? (String.ofList onAddress) with
  | some computation => .ok (input, computation)
  | none => .error (.unknownComputation (String.ofList text))

/-- The instruction that a text stands for: a destination and an equals sign, a computation, and a
semicolon and a jump, where the first and the last part can be missing. -/
def decodeCompute (text : Text) : Except AssemblyCause Instruction := do
  let (destination, rest) ← match text.splitOnce? '=' with
    | some (before, after) => do pure (← decodeDestination before, after)
    | none => pure ({}, text)
  let (computation, jump) ← match rest.splitOnce? ';' with
    | some (before, after) => do pure (before, ← decodeJump after)
    | none => pure (rest, .never)
  let (input, computation) ← decodeComputation computation
  return .compute destination input computation jump

/-- The number that some digits stand for, if an address instruction can hold it. -/
def decodeNumber (digits : Text) : Except AssemblyCause Word :=
  if digits.all Char.isDigit ∧ Nat.ofDigitChars 10 digits 0 ≤ Word.maxAddress then
    .ok (BitVec.ofNat 16 (Nat.ofDigitChars 10 digits 0))
  else .error .invalidAddress

/-- The table with the labels of some lines, the first of which has an address. -/
def declareLabels : (address : Nat) → SymbolTable → List CodeLine →
    Except AssemblyFailure SymbolTable
  | _, table, [] => .ok table
  | address, table, line :: rest =>
    match line.statement with
    | .label name =>
      if !isSymbol name then .error (.fault line.number .invalidLabel)
      else if name ∈ table then .error (.fault line.number (.labelUsed name))
      else declareLabels address (table.insert name (BitVec.ofNat 16 address)) rest
    | .unclosed | .load _ | .compute _ =>
      if address < Word.maxValue then declareLabels (address + 1) table rest else .error .overflow

/-- The first address for variables. -/
def variableBase : Nat := 16

/-- The state of the second pass: the program so far, and the next address for a variable. -/
structure Progress where
  program : Program
  nextVariable : Nat

/-- Adds an instruction to the program. -/
def Progress.push (instruction : Instruction) : Progress → Progress
  | ⟨⟨instructions, symbols⟩, nextVariable⟩ =>
    ⟨⟨instructions.push instruction, symbols⟩, nextVariable⟩

/-- Adds the instruction that loads the address of a symbol, after giving it an address if it has
none. -/
def Progress.pushSymbol (name : String) (progress : Progress) : Except AssemblyFailure Progress :=
  match progress.program.symbols[name]? with
  | some address => .ok (progress.push (.load address))
  | none =>
    if progress.nextVariable < Word.maxValue then
      let address := BitVec.ofNat 16 progress.nextVariable
      let ⟨⟨instructions, symbols⟩, nextVariable⟩ := progress
      .ok (Progress.push (.load address)
        ⟨⟨instructions, symbols.insert name address⟩, nextVariable + 1⟩)
    else .error .overflow

/-- Adds the instruction on a line, if there is one. -/
def Progress.pushLine (line : CodeLine) (progress : Progress) : Except AssemblyFailure Progress :=
  let blame (cause : AssemblyCause) := AssemblyFailure.fault line.number cause
  match line.statement with
  | .label _ | .unclosed => .ok progress
  | .load operand =>
    if operand.head?.any Char.isDigit then do
      let value ← (decodeNumber operand).mapError blame
      return progress.push (.load value)
    else if isSymbol (String.ofList operand) then progress.pushSymbol (String.ofList operand)
    else .error (blame .invalidSymbol)
  | .compute text => do
    let instruction ← (decodeCompute text).mapError blame
    return progress.push instruction

/-- Adds the instructions on some lines. -/
def pushLines : List CodeLine → Progress → Except AssemblyFailure Progress
  | [], progress => .ok progress
  | line :: rest, progress => do pushLines rest (← progress.pushLine line)

/-- Assembles a text. -/
def assemble (text : Text) : Except AssemblyFailure Program := do
  let lines := CodeLine.ofText text
  let labels ← declareLabels 0 SymbolTable.predefined lines
  let progress ← pushLines lines ⟨⟨#[], labels⟩, variableBase⟩
  return progress.program

end Program

end HackToolchain
