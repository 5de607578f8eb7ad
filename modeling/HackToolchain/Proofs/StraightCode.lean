import HackToolchain.Machine.Computer
import HackToolchain.Proofs.Linking
import Mathlib.Logic.Relation

/-! # Straight code

A template is mostly straight code: instructions that are executed one after another and do not
jump. What straight code does to the registers and the memory is a function of its lines
(`execute`), and a computer that stands before the code does the same in as many steps
(`straight_of_execute`). Between two jumps a computer crosses an interval of addresses (`Passes`);
it does so in one way only.
-/

namespace HackToolchain

/-! ## Steps -/

namespace Computer

/-- One step that executes an instruction. -/
def Executes (first last : Computer) : Prop :=
  first.step = (last, .executed)

/-- An instruction is executed in one way. -/
theorem Executes.unique {first middle last : Computer} (left : first.Executes middle)
    (right : first.Executes last) : middle = last :=
  congrArg Prod.fst (left.symm.trans right)

theorem Executes.program_eq {first last : Computer} (executes : first.Executes last) :
    last.program = first.program := by
  obtain ⟨program, memory, a, d, counter, steps⟩ := first
  simp only [Executes, step] at executes
  split at executes
  · cases executes
  · cases executes
    rfl
  · split at executes
    · cases executes
    · cases executes
      rfl

/-- Any number of steps that execute instructions. -/
def Reaches : Computer → Computer → Prop :=
  Relation.ReflTransGen Executes

/-- A run does not change the program. -/
theorem Reaches.program_eq {first last : Computer} (reaches : first.Reaches last) :
    last.program = first.program := by
  induction reaches with
  | refl => rfl
  | tail _ executes hypothesis => exact executes.program_eq.trans hypothesis

/-- A run with the right budget ends where the steps lead. -/
theorem Reaches.run {first last : Computer} (reaches : first.Reaches last) :
    ∃ budget, first.run budget = (last, if last.halted then .halted else .exhausted) := by
  induction reaches using Relation.ReflTransGen.head_induction_on with
  | refl =>
    refine ⟨0, ?_⟩
    rw [Computer.run]
    split
    · rfl
    · rfl
  | head executes _ hypothesis =>
    obtain ⟨budget, run⟩ := hypothesis
    refine ⟨budget + 1, ?_⟩
    rw [Computer.run, show _ = _ from executes]
    exact run

/-- Steps that start inside an interval of addresses or on its lower end, and end as soon as the
program counter is not inside any more. -/
inductive Passes (low high : Nat) : Computer → Computer → Prop where
  | leave {first last : Computer} (executes : first.Executes last)
      (outside : ¬(low < last.counter ∧ last.counter < high)) : Passes low high first last
  | stay {first middle last : Computer} (executes : first.Executes middle)
      (above : low < middle.counter) (below : middle.counter < high)
      (rest : Passes low high middle last) : Passes low high first last

namespace Passes

variable {low high : Nat}

/-- A computer that passes some addresses reaches the end of them. -/
theorem reaches {first last : Computer} (passes : Passes low high first last) :
    first.Reaches last := by
  induction passes with
  | leave executes _ => exact Relation.ReflTransGen.single executes
  | stay executes _ _ _ hypothesis => exact hypothesis.head executes

/-- Some addresses are passed in one way. -/
theorem unique {first middle last : Computer} (left : Passes low high first middle)
    (right : Passes low high first last) : middle = last := by
  induction left with
  | leave executes outside =>
    cases right with
    | leave other _ => exact executes.unique other
    | stay other above below _ =>
      cases executes.unique other
      exact absurd ⟨above, below⟩ outside
  | stay executes above below _ hypothesis =>
    cases right with
    | leave other outside =>
      cases executes.unique other
      exact absurd ⟨above, below⟩ outside
    | stay other _ _ rest =>
      cases executes.unique other
      exact hypothesis rest

end Passes

/-- Steps after each of which the program counter is one further. -/
inductive Straight : Nat → Computer → Computer → Prop where
  | done (computer : Computer) : Straight 0 computer computer
  | step {count : Nat} {first middle last : Computer} (executes : first.Executes middle)
      (next : middle.counter = first.counter + 1) (rest : Straight count middle last) :
      Straight (count + 1) first last

namespace Straight

variable {low high count : Nat}

/-- Straight code moves the counter by the number of its instructions. -/
theorem counter_eq {first last : Computer} (straight : Straight count first last) :
    last.counter = first.counter + count := by
  induction straight with
  | done => rfl
  | step _ next _ hypothesis => omega

theorem program_eq {first last : Computer} (straight : Straight count first last) :
    last.program = first.program := by
  induction straight with
  | done => rfl
  | step executes _ _ hypothesis => exact hypothesis.trans executes.program_eq

/-- Straight code that ends inside an interval is a first part of crossing it. -/
theorem passes {first middle last : Computer} (straight : Straight count first middle)
    (above : low ≤ first.counter) (below : first.counter + count < high)
    (rest : Passes low high middle last) : Passes low high first last := by
  induction straight with
  | done => exact rest
  | step executes next _ hypothesis =>
    exact .stay executes (by omega) (by omega) (hypothesis (by omega) (by omega) rest)

/-- Straight code that ends on the upper end of an interval crosses it. -/
theorem crosses {first last : Computer} (straight : Straight (count + 1) first last)
    (above : low ≤ first.counter) (exact : first.counter + count + 1 = high) :
    Passes low high first last := by
  induction count generalizing first with
  | zero =>
    cases straight with
    | step executes next rest =>
      cases rest
      exact .leave executes (by omega)
  | succ count hypothesis =>
    cases straight with
    | step executes next rest =>
      exact .stay executes (by omega) (by omega) (hypothesis rest (by omega) (by omega))

/-- What crosses an interval goes through the straight code at its start. -/
theorem passes_of_passes {first middle last : Computer} (straight : Straight count first middle)
    (above : low ≤ first.counter) (below : first.counter + count < high)
    (whole : Passes low high first last) : Passes low high middle last := by
  induction straight with
  | done => exact whole
  | step executes next _ hypothesis =>
    cases whole with
    | leave other outside =>
      cases executes.unique other
      omega
    | stay other _ _ rest =>
      cases executes.unique other
      exact hypothesis (by omega) (by omega) rest

end Straight

end Computer

/-! ## The effect of straight code -/

/-- What the instructions of a computer work on. -/
structure MachineData where
  memory : Memory
  a : Word
  d : Word

/-- What a computer works on. -/
def Computer.data (computer : Computer) : MachineData :=
  ⟨computer.memory, computer.a, computer.d⟩

/-- What a computation reads besides `D`. -/
def Input.value (data : MachineData) : Input → Word
  | address => data.a
  | memory => data.memory.read data.a

/-- The data after a result is stored. -/
def Destination.store (destination : Destination) (value : Word) : MachineData → MachineData
  | ⟨memory, a, d⟩ =>
    ⟨if destination.m then memory.write a value else memory, if destination.a then value else a,
      if destination.d then value else d⟩

/-- The data after an instruction that does not jump, unless it is at fault. -/
def Instruction.apply (data : MachineData) : Instruction → Option MachineData
  | load value => some { data with a := value }
  | compute destination input computation .never =>
    if Computer.touchesMemory destination input && !decide (Memory.InRange data.a) then none
    else some (destination.store (computation.eval data.d (input.value data)) data)
  | compute _ _ _ _ => none

/-- An instruction that does not jump takes a computer to the next instruction. -/
theorem Instruction.executes_of_apply {instruction : Instruction} {computer : Computer}
    {data : MachineData} (found : computer.program[computer.counter]? = some instruction)
    (applied : instruction.apply computer.data = some data) :
    ∃ last, computer.Executes last ∧ last.counter = computer.counter + 1 ∧ last.data = data := by
  obtain ⟨program, memory, a, d, counter, steps⟩ := computer
  unfold apply at applied
  split at applied
  · rename_i value
    cases applied
    refine ⟨⟨program, memory, value, d, counter + 1, steps + 1⟩, ?_, rfl, rfl⟩
    simp only [Computer.Executes, Computer.step, found]
  · rename_i destination input computation
    split at applied
    · cases applied
    · rename_i allowed
      cases applied
      simp only [Computer.data] at allowed
      let value := computation.eval d (input.value ⟨memory, a, d⟩)
      refine ⟨⟨program, if destination.m then memory.write a value else memory,
        if destination.a then value else a, if destination.d then value else d,
        counter + 1, steps + 1⟩, ?_, rfl, rfl⟩
      simp only [Computer.Executes, Computer.step, found]
      split
      · rename_i refused
        exact absurd refused allowed
      · cases input <;> rfl
  · cases applied

/-- The instruction that a computation in a template stands for. -/
def Template.instruction? : String → Option Instruction
  | "0;JMP" => some (.compute {} .address .zero .always)
  | "A=A+1" => some (.compute { a := true } .address .yPlusOne .never)
  | "A=A-1" => some (.compute { a := true } .address .yMinusOne .never)
  | "A=D+A" => some (.compute { a := true } .address .dPlusY .never)
  | "A=D-A" => some (.compute { a := true } .address .dMinusY .never)
  | "A=M" => some (.compute { a := true } .memory .y .never)
  | "A=M-1" => some (.compute { a := true } .memory .yMinusOne .never)
  | "AM=M-1" => some (.compute { a := true, m := true } .memory .yMinusOne .never)
  | "D;JEQ" => some (.compute {} .address .d .eq)
  | "D;JGT" => some (.compute {} .address .d .gt)
  | "D;JLT" => some (.compute {} .address .d .lt)
  | "D;JNE" => some (.compute {} .address .d .ne)
  | "D=!A" => some (.compute { d := true } .address .notY .never)
  | "D=A" => some (.compute { d := true } .address .y .never)
  | "D=D+A" => some (.compute { d := true } .address .dPlusY .never)
  | "D=D-A" => some (.compute { d := true } .address .dMinusY .never)
  | "D=M" => some (.compute { d := true } .memory .y .never)
  | "D=M+1" => some (.compute { d := true } .memory .yPlusOne .never)
  | "D=M-D" => some (.compute { d := true } .memory .yMinusD .never)
  | "M=!M" => some (.compute { m := true } .memory .notY .never)
  | "M=-1" => some (.compute { m := true } .address .minusOne .never)
  | "M=-M" => some (.compute { m := true } .memory .negY .never)
  | "M=0" => some (.compute { m := true } .address .zero .never)
  | "M=D" => some (.compute { m := true } .address .d .never)
  | "M=D&M" => some (.compute { m := true } .memory .dAndY .never)
  | "M=D+M" => some (.compute { m := true } .memory .dPlusY .never)
  | "M=D|M" => some (.compute { m := true } .memory .dOrY .never)
  | "M=M+1" => some (.compute { m := true } .memory .yPlusOne .never)
  | "M=M-D" => some (.compute { m := true } .memory .yMinusD .never)
  | _ => none

/-- The assembler decodes a computation as the templates mean it. -/
theorem Template.decode_of_instruction? {text : String} {instruction : Instruction}
    (found : Template.instruction? text = some instruction) :
    (Program.decodeCompute text.toList).toOption = some instruction := by
  unfold Template.instruction? at found
  split at found <;> cases found <;> rfl

/-- The data after straight code, unless it is at fault. -/
def execute (symbols : SymbolTable) : List AssemblyLine → MachineData → Option MachineData
  | [], data => some data
  | .load operand :: rest, data => execute symbols rest { data with a := operand.value symbols }
  | .compute text :: rest, data =>
    ((Template.instruction? text).bind (Instruction.apply data)).bind (execute symbols rest)
  | .label _ :: rest, data | .comment _ :: rest, data => execute symbols rest data

/-- Lines are executed one after another. -/
theorem execute_append (symbols : SymbolTable) (first second : List AssemblyLine)
    (data : MachineData) :
    execute symbols (first ++ second) data =
      (execute symbols first data).bind (execute symbols second) := by
  induction first generalizing data with
  | nil => rfl
  | cons line rest hypothesis =>
    cases line with
    | load operand => exact hypothesis _
    | compute text =>
      rw [List.cons_append, execute, execute, Option.bind_assoc (Option.bind _ _)]
      exact Option.bind_congr fun result _ => hypothesis result
    | label name | comment text => exact hypothesis data

/-- A computer stands before the instructions on some lines. -/
def Computer.Before (symbols : SymbolTable) (lines : List AssemblyLine) (computer : Computer) :
    Prop :=
  lines.filterMap (AssemblyLine.instruction? symbols) <+:
    computer.program.toList.drop computer.counter

namespace Computer

variable {symbols : SymbolTable} {rest : List AssemblyLine} {line : AssemblyLine}
  {instruction : Instruction} {computer : Computer}

/-- A computer before a line with an instruction executes it next. -/
theorem Before.getElem? (before : computer.Before symbols (line :: rest))
    (found : line.instruction? symbols = some instruction) :
    computer.program[computer.counter]? = some instruction := by
  obtain ⟨after, whole⟩ := before
  rw [List.filterMap_cons_some found] at whole
  rw [← Array.getElem?_toList, ← List.head?_drop, ← whole]
  rfl

/-- After the instruction of a line comes the next line. -/
theorem Before.tail (before : computer.Before symbols (line :: rest))
    (found : line.instruction? symbols = some instruction) {next : Computer}
    (same : next.program = computer.program) (counter : next.counter = computer.counter + 1) :
    next.Before symbols rest := by
  obtain ⟨after, whole⟩ := before
  refine ⟨after, ?_⟩
  rw [List.filterMap_cons_some found] at whole
  rw [same, counter, ← List.tail_drop, ← whole]
  rfl

/-- A line without an instruction is skipped. -/
theorem Before.skip (before : computer.Before symbols (line :: rest))
    (found : line.instruction? symbols = none) : computer.Before symbols rest := by
  unfold Before at before
  rwa [List.filterMap_cons_none found] at before

/-- A computer further on stands before what is left of the lines. -/
theorem Before.further {first : List AssemblyLine}
    (before : computer.Before symbols (first ++ rest))
    (sound : ∀ line ∈ first, line.Sound fun name => isSymbol name) {next : Computer}
    (same : next.program = computer.program)
    (counter : next.counter = computer.counter + first.countP AssemblyLine.isInstruction) :
    next.Before symbols rest := by
  obtain ⟨after, whole⟩ := before
  rw [List.filterMap_append, List.append_assoc] at whole
  have size : (first.filterMap (AssemblyLine.instruction? symbols)).length =
      first.countP AssemblyLine.isInstruction := AssemblyLine.length_filterMap_instruction? sound
  refine ⟨after, ?_⟩
  rw [same, counter, ← List.drop_drop, ← whole, ← size, List.drop_left]

/-- A computer that stands before straight code executes it. -/
theorem straight_of_execute {lines : List AssemblyLine} {data : MachineData}
    (before : computer.Before symbols (lines ++ rest))
    (executed : execute symbols lines computer.data = some data) :
    ∃ last, Straight (lines.countP AssemblyLine.isInstruction) computer last ∧
      last.data = data ∧ last.Before symbols rest := by
  induction lines generalizing computer with
  | nil =>
    cases executed
    exact ⟨computer, .done computer, rfl, before⟩
  | cons line others hypothesis =>
    -- One instruction first; what is left of the lines is executed from where it leads.
    have one : ∀ {instruction : Instruction} {next : MachineData},
        line.instruction? symbols = some instruction →
        instruction.apply computer.data = some next → execute symbols others next = some data →
        ∃ last, Straight (others.countP AssemblyLine.isInstruction + 1) computer last ∧
          last.data = data ∧ last.Before symbols rest := by
      intro instruction next found applied remaining
      obtain ⟨middle, executes, counter, rfl⟩ :=
        instruction.executes_of_apply (before.getElem? found) applied
      obtain ⟨last, straight, same, after⟩ :=
        hypothesis (before.tail found executes.program_eq counter) remaining
      exact ⟨last, .step executes counter straight, same, after⟩
    cases line with
    | load operand =>
      rw [List.countP_cons_of_pos (by rfl)]
      exact one rfl rfl executed
    | compute text =>
      rw [execute, Option.bind_eq_some_iff] at executed
      obtain ⟨next, applied, remaining⟩ := executed
      obtain ⟨instruction, found, applied⟩ := Option.bind_eq_some_iff.mp applied
      rw [List.countP_cons_of_pos (by rfl)]
      exact one (Template.decode_of_instruction? found) applied remaining
    | label name | comment text =>
      rw [List.countP_cons_of_neg (by simp [AssemblyLine.isInstruction])]
      exact hypothesis (before.skip rfl) executed

/-- A jump changes nothing but the program counter. -/
theorem executes_jump {text : String} {computation : Computation} {jump : Jump}
    (before : computer.Before symbols (.compute text :: rest))
    (found : Template.instruction? text = some (.compute {} .address computation jump)) :
    ∃ last, computer.Executes last ∧ last.data = computer.data ∧ last.counter =
      if jump.taken (computation.eval computer.d computer.a) then computer.a.toNat
      else computer.counter + 1 := by
  have present := before.getElem? (Template.decode_of_instruction? found)
  obtain ⟨program, memory, a, d, counter, steps⟩ := computer
  refine ⟨⟨program, memory, a, d, if jump.taken (computation.eval d a) then a.toNat
    else counter + 1, steps + 1⟩, ?_, rfl, rfl⟩
  simp only [Executes, step, present]
  rfl

end Computer

/-- A computer that runs a linked program stands before a block when its program counter is at the
start of the block. -/
theorem Linked.before {blocks : List Block} {program : Program} (linked : Linked blocks program)
    {index : Nat} {block : Block} (found : blocks[index]? = some block) {computer : Computer}
    (running : computer.program = program.instructions)
    (start : computer.counter = blockStart blocks index) :
    computer.Before program.symbols block.lines := by
  obtain ⟨earlier, later, whole, size, -⟩ := linked.instructions_split found
  refine ⟨later, ?_⟩
  rw [running, start, ← size, whole, List.append_assoc, List.drop_left]
  rfl

end HackToolchain
