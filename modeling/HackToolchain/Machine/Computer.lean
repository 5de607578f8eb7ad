import HackToolchain.Machine.Instruction
import HackToolchain.Machine.Memory

/-! # The computer

A computer runs a program from its own memory. It stops when the program counter leaves the program,
when its budget of steps is spent, or at an instruction that reads or writes outside the memory.
Such an instruction changes nothing.
-/

namespace HackToolchain

/-- An access outside the memory: the address, and the instruction that asked for it. -/
structure AddressFault where
  address : Word
  counter : Nat
deriving DecidableEq, Repr

/-- The message for a fault. -/
def AddressFault.message (fault : AddressFault) : String :=
  "address " ++ fault.address.decimal ++ " out of range at pc " ++ fault.counter.repr

/-- The state of a computer. -/
structure Computer where
  program : Array Instruction
  memory : Memory := Memory.zeroed
  a : Word := 0
  d : Word := 0
  /-- The index of the next instruction. -/
  counter : Nat := 0
  /-- The number of instructions executed so far. -/
  steps : Nat := 0

/-- What comes of one step. -/
inductive StepOutcome where
  | executed
  /-- There is no instruction to execute. -/
  | ended
  | faulted (fault : AddressFault)
deriving DecidableEq, Repr

/-- What comes of a run. -/
inductive RunOutcome where
  /-- The program counter has left the program. -/
  | halted
  /-- The budget is spent. -/
  | exhausted
  | faulted (fault : AddressFault)
deriving DecidableEq, Repr

namespace Computer

/-- Whether the program counter has left the program. -/
def halted (computer : Computer) : Bool :=
  computer.program.size ≤ computer.counter

/-- Whether a computation reads or writes the cell that `A` points at. -/
def touchesMemory (destination : Destination) (input : Input) : Bool :=
  input = .memory || destination.m

/-- Executes one instruction. A jump goes where `A` pointed before the result was stored. -/
def step : Computer → Computer × StepOutcome
  | ⟨program, memory, a, d, counter, steps⟩ =>
    match program[counter]? with
    | none => (⟨program, memory, a, d, counter, steps⟩, .ended)
    | some (.load value) => (⟨program, memory, value, d, counter + 1, steps + 1⟩, .executed)
    | some (.compute destination input computation jump) =>
      if touchesMemory destination input && !decide (Memory.InRange a) then
        (⟨program, memory, a, d, counter, steps⟩, .faulted ⟨a, counter⟩)
      else
        let y := match input with
          | .address => a
          | .memory => memory.read a
        let value := computation.eval d y
        let memory := if destination.m then memory.write a value else memory
        let next := if jump.taken value then a.toNat else counter + 1
        let d := if destination.d then value else d
        let a := if destination.a then value else a
        (⟨program, memory, a, d, next, steps + 1⟩, .executed)

/-- Executes instructions until the computer stops, at most as many as the budget. -/
def run : Nat → Computer → Computer × RunOutcome
  | 0, computer => if computer.halted then (computer, .halted) else (computer, .exhausted)
  | budget + 1, computer =>
    match computer.step with
    | (computer, .executed) => run budget computer
    | (computer, .ended) => (computer, .halted)
    | (computer, .faulted fault) => (computer, .faulted fault)

end Computer

end HackToolchain
