import HackToolchain.Proofs.StraightCode

/-! # The stack machine

What the commands of the stack machine mean, said on the memory alone and without the code that
stands for them. A state of the stack machine is the command to come and the memory. Code has to
keep a return address in memory, so a program of the stack machine says at which address the code of
each command starts, and which cells its static symbols have.
-/

namespace HackToolchain

namespace Memory

/-- Puts a value on the stack. -/
def push (value : Word) (memory : Memory) : Memory :=
  let pointer := memory.read Register.stackPointer.address
  (memory.write pointer value).write Register.stackPointer.address (pointer + 1)

/-- The value on top of the stack. -/
def top (memory : Memory) : Word :=
  memory.read (memory.read Register.stackPointer.address - 1)

/-- Takes the top off the stack. -/
def drop (memory : Memory) : Memory :=
  memory.write Register.stackPointer.address (memory.read Register.stackPointer.address - 1)

/-- Replaces the value on top of the stack. -/
def unary (result : Word → Word) (memory : Memory) : Memory :=
  memory.write (memory.read Register.stackPointer.address - 1) (result memory.top)

/-- Replaces the two values on top of the stack. -/
def binary (result : Word → Word → Word) (memory : Memory) : Memory :=
  let pointer := memory.read Register.stackPointer.address
  memory.drop.write (pointer - 1 - 1) (result (memory.read (pointer - 1 - 1)) memory.top)

/-- Sets so many cells from an address on to zero. -/
def clear : (count : Nat) → (address : Word) → Memory → Memory
  | 0, _, memory => memory
  | count + 1, address, memory => clear count (address + 1) (memory.write address 0)

/-- Puts local cells on the stack. -/
def enter (locals : Word) (memory : Memory) : Memory :=
  let pointer := memory.read Register.stackPointer.address
  (memory.clear locals.toNat pointer).write Register.stackPointer.address (pointer + locals)

/-- Puts the value of a register on the stack. -/
def save (register : Register) (memory : Memory) : Memory :=
  memory.push (memory.read register.address)

/-- Saves the frame of a caller that is to go on at an address, and sets up a frame with so many
arguments. -/
def call (next arguments : Word) (memory : Memory) : Memory :=
  let saved := (((memory.push next).save .local).save .argument).save .this |>.save .that
  let pointer := saved.read Register.stackPointer.address
  (saved.write Register.argument.address (pointer - frameSize - arguments)).write
    Register.local.address pointer

/-- A saved cell of the running frame, counted down from its end. -/
def savedCell (memory : Memory) (depth : Word) : Word :=
  memory.read Register.local.address - depth

/-- Puts a result in the place of the arguments, and restores the frame of the caller. -/
def leave (memory : Memory) : Memory :=
  let place := memory.read Register.argument.address
  let saved := fun depth => memory.read (memory.savedCell depth)
  ((((memory.drop.write place memory.top).write Register.stackPointer.address (place + 1)).write
    Register.that.address (saved 1)).write Register.this.address (saved 2)).write
      Register.argument.address (saved 3) |>.write Register.local.address (saved 4)

end Memory

/-- The value that stands for a truth value. -/
def Word.ofBool (holds : Bool) : Word :=
  if holds then -1 else 0

namespace Operator

/-- Whether an operator has one operand only. -/
def isUnary : Operator → Bool
  | neg | not => true
  | add | sub | eq | gt | lt | and | or => false

/-- The memory after an operator. Values are compared by their difference, which wraps around. -/
def apply (memory : Memory) : Operator → Memory
  | add => memory.binary fun lower upper => lower + upper
  | sub => memory.binary fun lower upper => lower - upper
  | and => memory.binary fun lower upper => lower &&& upper
  | or => memory.binary fun lower upper => lower ||| upper
  | neg => memory.unary fun value => -value
  | not => memory.unary fun value => ~~~value
  | eq => memory.binary fun lower upper => Word.ofBool (lower - upper = 0)
  | gt => memory.binary fun lower upper => Word.ofBool (0 < (lower - upper).toInt)
  | lt => memory.binary fun lower upper => Word.ofBool ((lower - upper).toInt < 0)

/-- An operator replaces one value on top of the stack, or two. -/
theorem exists_apply (op : Operator) :
    (op.isUnary ∧ ∃ result, ∀ memory, op.apply memory = memory.unary result) ∨
      (¬op.isUnary ∧ ∃ result, ∀ memory, op.apply memory = memory.binary result) := by
  cases op with
  | neg | not => exact .inl ⟨rfl, _, fun _ => rfl⟩
  | add | sub | and | or => exact .inr ⟨Bool.false_ne_true, _, fun _ => rfl⟩
  | eq =>
    exact .inr ⟨Bool.false_ne_true, fun lower upper => Word.ofBool (lower - upper = 0),
      fun _ => rfl⟩
  | gt =>
    exact .inr ⟨Bool.false_ne_true, fun lower upper => Word.ofBool (0 < (lower - upper).toInt),
      fun _ => rfl⟩
  | lt =>
    exact .inr ⟨Bool.false_ne_true, fun lower upper => Word.ofBool ((lower - upper).toInt < 0),
      fun _ => rfl⟩

end Operator

/-- A program of the stack machine. -/
structure StackProgram where
  parts : List Part
  /-- The address at which the code of the part with a number starts. -/
  address : Nat → Nat
  /-- The cell that a static symbol stands for. -/
  static : String → Word

/-- A state of the stack machine. -/
structure StackState where
  /-- The number of the part to come. -/
  index : Nat
  memory : Memory

namespace StackProgram

variable (program : StackProgram)

/-- The cell of a segment with an index; a constant has none. -/
def segmentCell? (memory : Memory) (unit : String) (index : Word) : Segment → Option Word
  | .constant => none
  | .local => some (memory.read Register.local.address + index)
  | .argument => some (memory.read Register.argument.address + index)
  | .this => some (memory.read Register.this.address + index)
  | .that => some (memory.read Register.that.address + index)
  | .temp => some (tempBase + index)
  | .pointer => some (Register.this.address + index)
  | .static => some (program.static (Template.staticSymbol unit index))

/-- The cell of a segment that a part reads or writes. -/
def cell? (memory : Memory) : Part → Option Word
  | .command unit (.push segment index) | .command unit (.pop segment index) =>
    program.segmentCell? memory unit index segment
  | _ => none

/-- The memory after a part. The next part starts at a given address. -/
def perform (next : Word) (memory : Memory) : Part → Memory
  | .bootstrap _ => (memory.write Register.stackPointer.address stackBase).call next 0
  | .command _ (.operator op) => op.apply memory
  | .command unit (.push segment index) =>
    memory.push (match program.segmentCell? memory unit index segment with
      | some cell => memory.read cell
      | none => index)
  | .command unit (.pop segment index) =>
    match program.segmentCell? memory unit index segment with
    | some cell => memory.drop.write cell memory.top
    | none => memory
  | .command _ (.label _) | .command _ (.goto _) => memory
  | .command _ (.ifGoto _) => memory.drop
  | .command _ (.function _ locals) => memory.enter locals
  | .command _ (.call _ arguments) => memory.call next arguments
  | .command _ .return => memory.leave

/-- Whether the part with a number declares a name. -/
def Declares (index : Nat) (name : String) : Prop :=
  program.parts[index]?.bind Part.declared? = some name

/-- Which part comes after a part. -/
def Follows (index : Nat) (memory : Memory) (next : Nat) : Part → Prop
  | .bootstrap name | .command _ (.goto name) | .command _ (.call name _) =>
    program.Declares next name
  | .command _ (.ifGoto name) =>
    if memory.top = 0 then next = index + 1 else program.Declares next name
  | .command _ .return => program.address next = (memory.read (memory.savedCell frameSize)).toNat
  | .command _ (.operator _) | .command _ (.push _ _) | .command _ (.pop _ _)
  | .command _ (.label _) | .command _ (.function _ _) => next = index + 1

end StackProgram

/-- An address that can be a cell of the stack: it is above the registers. -/
def IsStackCell (address : Word) : Prop :=
  16 ≤ address.toNat ∧ address.toNat < memorySize

/-- The cells of the stack and of frames that a part touches. -/
def Part.stackCells (memory : Memory) : Part → List Word
  | .bootstrap _ | .command _ (.label _) | .command _ (.goto _) => []
  | .command _ (.operator op) =>
    let pointer := memory.read Register.stackPointer.address
    if op.isUnary then [pointer - 1] else [pointer - 1, pointer - 1 - 1]
  | .command _ (.push _ _) => [memory.read Register.stackPointer.address]
  | .command _ (.pop _ _) | .command _ (.ifGoto _) =>
    [memory.read Register.stackPointer.address - 1]
  | .command _ (.function _ locals) =>
    (List.range locals.toNat).map fun offset =>
      memory.read Register.stackPointer.address + BitVec.ofNat 16 offset
  | .command _ (.call _ _) =>
    (List.range 5).map fun offset =>
      memory.read Register.stackPointer.address + BitVec.ofNat 16 offset
  | .command _ .return =>
    [memory.read Register.stackPointer.address - 1, memory.read Register.argument.address,
      memory.savedCell 1, memory.savedCell 2, memory.savedCell 3, memory.savedCell 4,
      memory.savedCell 5]

namespace StackProgram

variable (program : StackProgram)

/-- The memory has room for a part: the cells of the stack that it touches are cells above the
registers, the cell of its segment is a cell, and the place of the result of a function is none of
the saved bases. -/
structure Fits (memory : Memory) (part : Part) : Prop where
  stack : ∀ cell ∈ part.stackCells memory, IsStackCell cell
  segment : ∀ cell ∈ program.cell? memory part, Memory.InRange cell
  place : (∃ unit, part = .command unit .return) →
    ∀ depth ∈ [1, 2, 3, 4], memory.read Register.argument.address ≠ memory.savedCell depth

section

variable {program : StackProgram} {memory : Memory} {unit : String}

/-- A part that uses no segment and does not return fits when its stack does. -/
theorem Fits.of_stack {part : Part} (stack : ∀ cell ∈ part.stackCells memory, IsStackCell cell)
    (plain : program.cell? memory part = none) (other : ∀ unit, part ≠ .command unit .return) :
    program.Fits memory part where
  stack := stack
  segment := by
    intro cell known
    rw [plain] at known
    cases known
  place := by
    rintro ⟨unit, «return»⟩
    exact absurd «return» (other unit)

/-- The operand on top is in the stack. -/
theorem Fits.upper {op : Operator} (fits : program.Fits memory (.command unit (.operator op))) :
    IsStackCell (memory.read Register.stackPointer.address - 1) := by
  apply fits.stack
  rw [Part.stackCells]
  split <;> exact List.mem_cons_self

/-- The lower operand is in the stack. -/
theorem Fits.lower {op : Operator} (fits : program.Fits memory (.command unit (.operator op)))
    (two : ¬op.isUnary) : IsStackCell (memory.read Register.stackPointer.address - 1 - 1) := by
  apply fits.stack
  rw [Part.stackCells, if_neg two]
  exact List.mem_cons_of_mem _ List.mem_cons_self

/-- The result of a function is in the stack. -/
theorem Fits.result (fits : program.Fits memory (.command unit .return)) :
    IsStackCell (memory.read Register.stackPointer.address - 1) :=
  fits.stack _ List.mem_cons_self

/-- The place for the result is in the stack. -/
theorem Fits.argument (fits : program.Fits memory (.command unit .return)) :
    IsStackCell (memory.read Register.argument.address) :=
  fits.stack _ (List.mem_cons_of_mem _ List.mem_cons_self)

/-- The saved cells are in the stack. -/
theorem Fits.saved (fits : program.Fits memory (.command unit .return)) :
    ∀ depth ∈ [1, 2, 3, 4, 5], IsStackCell (memory.savedCell depth) := by
  intro depth member
  exact fits.stack _ (List.mem_cons_of_mem _ (List.mem_cons_of_mem _
    (List.mem_map_of_mem (f := memory.savedCell) member)))

end

/-- A part does not use the scratch cells. -/
def AvoidsScratch (memory : Memory) (part : Part) : Prop :=
  ∀ cell ∈ program.cell? memory part,
    cell ≠ Register.scratch.address ∧ cell ≠ Register.secondScratch.address

/-- One step of the stack machine. -/
inductive Step : StackState → StackState → Prop where
  | perform {index next : Nat} {memory : Memory} {part : Part}
      (found : program.parts[index]? = some part) (fits : program.Fits memory part)
      (avoids : program.AvoidsScratch memory part)
      (follows : program.Follows index memory next part) :
      Step ⟨index, memory⟩
        ⟨next, program.perform (BitVec.ofNat 16 (program.address (index + 1))) memory part⟩

/-- A part that uses no segment and does not return can be performed when its stack fits. -/
theorem Step.of_stack {program : StackProgram} {index next : Nat} {memory : Memory} (part : Part)
    (found : program.parts[index]? = some part)
    (stack : ∀ cell ∈ part.stackCells memory, IsStackCell cell)
    (plain : program.cell? memory part = none) (other : ∀ unit, part ≠ .command unit .return)
    (follows : program.Follows index memory next part) :
    program.Step ⟨index, memory⟩
      ⟨next, program.perform (BitVec.ofNat 16 (program.address (index + 1))) memory part⟩ := by
  refine .perform found (.of_stack stack plain other) ?_ follows
  intro cell known
  rw [plain] at known
  cases known

end StackProgram

end HackToolchain
