import HackToolchain.Proofs.FrameCells
import HackToolchain.Proofs.Runs
import HackToolchain.Proofs.UnclosedLines

/-! # Comparisons

A comparison subtracts its operands and looks at the sign of the difference, which wraps around. So
it is right just when the difference is a word, and for `eq` always (`taken_difference`). Its code
branches to two labels of its own. They have the right addresses unless a line before them opens a
bracket and does not close it: such a line takes up an address and holds no instruction, and every
label after it is one too high (`getD_label_of_block`). No command is compiled to such a line, but
the name of the entry function is written out as it is given, and can be cut off by a comment.
-/

namespace HackToolchain

/-! ## The sign of a difference -/

/-- Whether an integer is the value of a word. -/
def Word.Fits (value : Int) : Prop :=
  -32768 ≤ value ∧ value ≤ 32767

/-- A difference that is no word wraps around to the other sign. -/
theorem Word.toInt_sub (first second : Word) :
    (first - second).toInt = first.toInt - second.toInt ∧
        Fits (first.toInt - second.toInt) ∨
      (first - second).toInt = first.toInt - second.toInt - 65536 ∧
        32767 < first.toInt - second.toInt ∨
      (first - second).toInt = first.toInt - second.toInt + 65536 ∧
        first.toInt - second.toInt < -32768 := by
  have firstLow := BitVec.le_two_mul_toInt (x := first)
  have firstHigh := BitVec.two_mul_toInt_lt (x := first)
  have secondLow := BitVec.le_two_mul_toInt (x := second)
  have secondHigh := BitVec.two_mul_toInt_lt (x := second)
  rw [BitVec.toInt_sub, Int.bmod_def, Fits]
  omega

namespace Operator

/-- What a comparison says of two integers. -/
def Relates (first second : Int) : Operator → Prop
  | eq => first = second
  | gt => second < first
  | lt => first < second
  | add | sub | neg | and | or | not => False

/-- The operators that compare their operands. -/
def comparisons : List Operator :=
  [eq, gt, lt]

/-- The jump that a comparison makes on the difference of its operands if it holds. -/
def jump : Operator → Jump
  | eq => .eq
  | gt => .gt
  | lt => .lt
  | add | sub | neg | and | or | not => .never

/-- The sign of the difference tells how two words compare, unless the difference is no word; then
it tells the opposite, but never that they are equal. -/
theorem taken_difference {op : Operator} (compares : op ∈ comparisons) (first second : Word) :
    (op = eq ∨ Word.Fits (first.toInt - second.toInt) →
        (op.jump.taken (first - second) ↔ op.Relates first.toInt second.toInt)) ∧
      (op ≠ eq → ¬Word.Fits (first.toInt - second.toInt) →
        (op.jump.taken (first - second) ↔ ¬op.Relates first.toInt second.toInt)) := by
  have firstLow := BitVec.le_two_mul_toInt (x := first)
  have firstHigh := BitVec.two_mul_toInt_lt (x := first)
  have secondLow := BitVec.le_two_mul_toInt (x := second)
  have secondHigh := BitVec.two_mul_toInt_lt (x := second)
  have wrapped := Word.toInt_sub first second
  unfold Word.Fits at wrapped ⊢
  cases op with
  | eq =>
    have zero : first - second = 0 ↔ (first - second).toInt = 0 := by
      rw [← BitVec.toInt_inj]
      rfl
    simp only [jump, Jump.taken, Relates, decide_eq_true_eq, zero, ne_eq, not_true_eq_false,
      true_or, true_imp_iff, false_imp_iff, and_true]
    omega
  | gt =>
    simp only [jump, Jump.taken, Relates, decide_eq_true_eq, reduceCtorEq, false_or, ne_eq,
      not_false_eq_true, true_imp_iff]
    omega
  | lt =>
    simp only [jump, Jump.taken, Relates, decide_eq_true_eq, reduceCtorEq, false_or, ne_eq,
      not_false_eq_true, true_imp_iff]
    omega
  | add | sub | neg | and | or | not => exact absurd compares (by decide)

/-- The lines for a comparison differ in their jump only. -/
theorem lines_of_comparison {op : Operator} (compares : op ∈ comparisons) (supply : LabelSupply) :
    ∃ text, (Template.operator supply op).1 =
        Template.comparison (LabelSupply.comparisonLabels supply.comparisons) text ∧
      Template.instruction? text = some (.compute {} .address .d op.jump) := by
  cases op with
  | eq => exact ⟨"D;JEQ", rfl, rfl⟩
  | gt => exact ⟨"D;JGT", rfl, rfl⟩
  | lt => exact ⟨"D;JLT", rfl, rfl⟩
  | add | sub | neg | and | or | not => exact absurd compares (by decide)

end Operator

theorem Word.ofBool_eq_iff (holds : Bool) : Word.ofBool holds = -1 ↔ holds := by
  cases holds <;> decide

/-! ## Comparisons in a program -/

/-- The memory after a comparison of two values on top of the stack: an answer is in the place of
the lower one, and nothing else has changed but the stack pointer. -/
structure Memory.Compared (op : Operator) (pointer : Word) (lower upper : Int)
    (first last : Memory) : Prop where
  stack : last.read Register.stackPointer.address = pointer - 1
  answer : last.read (pointer - 2) = -1 ∨ last.read (pointer - 2) = 0
  right : op = .eq ∨ Word.Fits (lower - upper) →
    (last.read (pointer - 2) = -1 ↔ op.Relates lower upper)
  wrong : op ≠ .eq → ¬Word.Fits (lower - upper) →
    (last.read (pointer - 2) = -1 ↔ ¬op.Relates lower upper)
  others : ∀ address, address ≠ Register.stackPointer.address → address ≠ pointer - 2 →
    last.read address = first.read address

theorem Word.sub_one_sub_one (word : Word) : word - 1 - 1 = word - 2 := by
  rw [BitVec.sub_sub]
  rfl

/-- Replacing the operands by the answer compares them. -/
theorem Memory.compared_binary {op : Operator} (compares : op ∈ Operator.comparisons)
    {memory : Memory} {pointer : Word}
    (stack : memory.read Register.stackPointer.address = pointer)
    (second : IsStackCell (pointer - 2)) :
    Compared op pointer (memory.read (pointer - 2)).toInt (memory.read (pointer - 1)).toInt memory
      (memory.binary fun lower upper => Word.ofBool (op.jump.taken (lower - upper))) := by
  have answer : (memory.binary fun lower upper => Word.ofBool (op.jump.taken (lower - upper))).read
      (pointer - 2) = Word.ofBool
        (op.jump.taken (memory.read (pointer - 2) - memory.read (pointer - 1))) := by
    rw [binary, stack, Word.sub_one_sub_one, read_write_self second.inRange, top, stack]
  obtain ⟨right, wrong⟩ :=
    Operator.taken_difference compares (memory.read (pointer - 2)) (memory.read (pointer - 1))
  refine ⟨?_, ?_, ?_, ?_, ?_⟩
  · rw [binary, stack, Word.sub_one_sub_one, second.read_register_write, read_drop_pointer, stack]
  · rw [answer]
    cases op.jump.taken (memory.read (pointer - 2) - memory.read (pointer - 1)) with
    | false => exact .inr rfl
    | true => exact .inl rfl
  · rw [answer, Word.ofBool_eq_iff]
    exact right
  · rw [answer, Word.ofBool_eq_iff]
    exact wrong
  · intro address other cell
    refine read_binary_of_ne ?_ other
    rwa [stack, Word.sub_one_sub_one]

/-- The two cells on top of a stack that starts above the registers and ends in the memory. -/
theorem isStackCell_operands {pointer : Word} (low : 18 ≤ pointer.toNat)
    (high : pointer.toNat ≤ memorySize) :
    IsStackCell (pointer - 1) ∧ IsStackCell (pointer - 2) := by
  have upper : (pointer - 1).toNat = pointer.toNat - 1 :=
    BitVec.toNat_sub_of_le (BitVec.le_def.mpr (show 1 ≤ pointer.toNat by omega))
  have lower : (pointer - 2).toNat = pointer.toNat - 2 :=
    BitVec.toNat_sub_of_le (BitVec.le_def.mpr (show 2 ≤ pointer.toNat by omega))
  unfold IsStackCell
  omega

/-- A memory with two values on a stack, and nothing else. -/
theorem Memory.read_two {pointer lower upper : Word} (low : 18 ≤ pointer.toNat)
    (high : pointer.toNat ≤ memorySize) {memory : Memory}
    (written : memory = ((zeroed.write Register.stackPointer.address pointer).write (pointer - 2)
      lower).write (pointer - 1) upper) :
    memory.read Register.stackPointer.address = pointer ∧ memory.read (pointer - 2) = lower ∧
      memory.read (pointer - 1) = upper ∧
      ∀ address ∉ [Register.stackPointer.address, pointer - 2, pointer - 1],
        memory.read address = 0 := by
  obtain ⟨first, second⟩ := isStackCell_operands low high
  have apart : pointer - 1 ≠ pointer - 2 := by bv_omega
  subst written
  refine ⟨?_, ?_, read_write_self first.inRange, ?_⟩
  · rw [read_write_of_ne (first.ne_register .stackPointer),
      read_write_of_ne (second.ne_register .stackPointer)]
    exact read_write_self (Register.inRange_address _)
  · rw [read_write_of_ne apart, read_write_self second.inRange]
  · intro address other
    simp only [List.mem_cons, List.not_mem_nil, or_false, not_or] at other
    obtain ⟨zero, lower, upper⟩ := other
    rw [read_write_of_ne (Ne.symm upper), read_write_of_ne (Ne.symm lower),
      read_write_of_ne (Ne.symm zero), read_zeroed]

/-- **Comparisons compute the right answer up to a boundary.** In any program that compiles and
assembles, take a command that compares two values, and a computer that stands before it with the
values on top of its stack.

Unless a line before the command opens a bracket and does not close it, the computer executes the
command without a fault and stands before the next command then. The stack pointer is one lower, an
answer is in the place of the lower value, and no other cell has changed. The answer of `eq` is
right; that of `gt` and `lt` is right where the difference of the values is a word, and the opposite
of right elsewhere.

With names for the entry function and the units that are symbols, there is no such line. After any
such line, a comparison that does not hold ends that many instructions after the start of the next
command. -/
theorem comparison_answers {options : EmissionOptions} {sources : List Source} {text : String}
    {program : Program} (compiled : (compile options sources).result = .ok text)
    (assembled : Program.assemble text.toList = .ok program)
    {before after : List Block} {block : Block}
    (split : blocks options sources = before ++ block :: after)
    {unit : String} {op : Operator} (part : block.part = .command unit (.operator op))
    (compares : op ∈ Operator.comparisons)
    {computer : Computer} (running : computer.program = program.instructions)
    (counter : computer.counter = program.writtenSize options.annotate before)
    {pointer : Word} (stack : computer.memory.read Register.stackPointer.address = pointer)
    (low : 18 ≤ pointer.toNat) (high : pointer.toNat ≤ memorySize) {lower upper : Int}
    (below : (computer.memory.read (pointer - 2)).toInt = lower)
    (above : (computer.memory.read (pointer - 1)).toInt = upper) :
    (unclosedLines options.annotate before = 0 →
      ∃ last budget, computer.run budget = (last, if last.halted then .halted else .exhausted) ∧
        last.counter = program.writtenSize options.annotate (before ++ [block]) ∧
        Computer.Passes computer.counter last.counter computer last ∧
        computer.memory.Compared op pointer lower upper last.memory) ∧
    (isSymbol options.entry → (∀ source ∈ sources, isSymbol source.name) →
      unclosedLines options.annotate before = 0) ∧
    (¬op.jump.taken (computer.memory.read (pointer - 2) - computer.memory.read (pointer - 1)) →
      ∃ last, computer.Reaches last ∧
        last.counter = program.writtenSize options.annotate (before ++ [block]) +
          unclosedLines options.annotate before) := by
  subst stack below above
  obtain ⟨room, second⟩ := isStackCell_operands low high
  have names : ∀ name ∈ block.part.names, isSymbol name := by
    rw [part]
    exact nofun
  -- The command is compiled to a comparison with labels of its own.
  obtain ⟨supply, next, found⟩ := lines_of_split compiled split
  rw [part] at found
  obtain ⟨jump, written, decoded⟩ := Operator.lines_of_comparison compares supply
  have lines : block.lines = Template.comparison _ jump :=
    (congrArg Prod.fst (Except.ok.inj found)).symm.trans written
  have atBlock := before_block compiled split names assembled running counter
  have sound := sound_of_split compiled split names
  have size := writtenSize_concat compiled split names assembled
  rw [lines] at atBlock sound
  rw [lines, Template.countP_comparison, ← counter] at size
  have holds := getD_label_of_block compiled split assembled names
    (lines.trans (Template.comparison_at_holds _ jump))
  have done := getD_label_of_block compiled split assembled names
    (lines.trans (Template.comparison_at_done _ jump))
  rw [Template.countP_before_holds, ← counter] at holds
  rw [Template.countP_before_done, ← counter] at done
  rw [← Word.sub_one_sub_one] at second
  refine ⟨?_, ?_, ?_⟩
  · intro closed
    rw [closed] at holds done
    obtain ⟨last, passes, ends, memory⟩ :=
      Computer.passes_comparison atBlock decoded room second sound holds done
    obtain ⟨budget, run⟩ := passes.reaches.run
    rw [← ends] at passes
    refine ⟨last, budget, run, ends.trans size.symm, passes, ?_⟩
    rw [memory]
    rw [Word.sub_one_sub_one] at second
    exact Memory.compared_binary compares rfl second
  · intro entry valid
    exact unclosedLines_eq_zero compiled split fun part =>
      isPlain_of_mem_names (fun _ => entry) (isSymbol_of_static valid)
  · intro fails
    rw [← Word.sub_one_sub_one] at fails
    obtain ⟨last, passes, ends, -⟩ :=
      Computer.passes_comparison_of_not_taken atBlock decoded room second fails (by omega)
    refine ⟨last, passes.reaches, ?_⟩
    rw [ends, done, size]
    omega

/-- A unit that compares two values. -/
def overflowingSources : List Source :=
  [⟨"Main", "gt"⟩]

theorem readAll_overflowingSources :
    Command.readAll "gt".toList = .ok [⟨⟨0, 2⟩, .operator .gt⟩] := by
  have free : ∀ line ∈ Text.locatedLines "gt".toList, '/' ∉ line.code := by decide
  rw [Command.readAll, Command.readings_of_free free]
  decide

theorem parts_overflowingSources : parts ⟨false, "Sys.init", false⟩ overflowingSources =
    [.command "Main" (.operator .gt)] := by
  simp only [parts, overflowingSources, List.flatMap_cons, List.flatMap_nil, Source.parts,
    Source.commands, readAll_overflowingSources]
  rfl

/-- The comparison compiles and assembles. -/
theorem compile_overflowingSources : ∃ text program,
    (compile ⟨false, "Sys.init", false⟩ overflowingSources).result = .ok text ∧
      Program.assemble text.toList = .ok program := by
  have readable : ∀ source ∈ overflowingSources,
      ∃ located, Command.readAll source.text.toList = .ok located :=
    List.forall_mem_singleton.mpr ⟨_, readAll_overflowingSources⟩
  obtain ⟨text, compiled⟩ := compile_succeeds readable
    (by rw [parts_overflowingSources]; exact ⟨_, rfl⟩)
  have named : WellNamed ⟨false, "Sys.init", false⟩ overflowingSources := by
    refine ⟨by decide, ?_, ?_, ?_, ?_, ?_⟩
    all_goals simp only [declaredNames, generatedLabels, blocks, parts_overflowingSources]
    all_goals decide
  have fits : codeSize (blocks ⟨false, "Sys.init", false⟩ overflowingSources) ≤ Word.maxValue := by
    rw [blocks, parts_overflowingSources]
    decide
  obtain ⟨program, assembled, -⟩ := named.assembles compiled fits
  exact ⟨text, program, compiled, assembled⟩

/-- The largest value is not found to be greater than minus one. -/
theorem comparison_answers_overflowingSources : ∃ text program,
    (compile ⟨false, "Sys.init", false⟩ overflowingSources).result = .ok text ∧
      Program.assemble text.toList = .ok program ∧
      ∃ last budget, Computer.run budget
            { program := program.instructions
              memory := ((Memory.zeroed.write 0 258).write 256 32767).write 257 (-1) } =
          (last, if last.halted then .halted else .exhausted) ∧
        last.memory.read 0 = 257 ∧ last.memory.read 256 = 0 := by
  obtain ⟨text, program, compiled, assembled⟩ := compile_overflowingSources
  let memory := ((Memory.zeroed.write 0 258).write 256 32767).write 257 (-1)
  let computer : Computer := { program := program.instructions, memory }
  have split : blocks ⟨false, "Sys.init", false⟩ overflowingSources =
      [] ++ ⟨.command "Main" (.operator .gt),
        Template.comparison (LabelSupply.comparisonLabels 0) "D;JGT"⟩ :: [] := by
    rw [blocks, parts_overflowingSources]
    rfl
  obtain ⟨pointer, lower, upper, -⟩ :=
    @Memory.read_two 258 32767 (-1) (by decide) (by decide) memory rfl
  obtain ⟨answers, -, -⟩ := comparison_answers compiled assembled split rfl (by decide)
    (show computer.program = program.instructions from rfl) rfl pointer (by decide) (by decide)
    (congrArg BitVec.toInt lower) (congrArg BitVec.toInt upper)
  obtain ⟨last, budget, run, -, -, compared⟩ := answers rfl
  refine ⟨text, program, compiled, assembled, last, budget, run, compared.stack, ?_⟩
  refine compared.answer.resolve_left fun holds => ?_
  exact (compared.wrong (by decide) (by unfold Word.Fits; decide)).mp holds (by
    unfold Operator.Relates
    decide)

/-! ## A comparison at fault -/

namespace Computer

variable {symbols : SymbolTable} {computer : Computer}

/-- An instruction that needs a cell outside the memory is at fault. -/
theorem step_of_outside {rest : List AssemblyLine} {text : String} {destination : Destination}
    {input : Input} {computation : Computation} {jump : Jump}
    (before : computer.Before symbols (.compute text :: rest))
    (found : Template.instruction? text = some (.compute destination input computation jump))
    (touches : touchesMemory destination input) (outside : ¬Memory.InRange computer.a) :
    computer.step = (computer, .faulted ⟨computer.a, computer.counter⟩) := by
  have present := before.getElem? (Template.decode_of_instruction? found)
  obtain ⟨program, memory, a, d, counter, steps⟩ := computer
  have refused : (touchesMemory destination input && !decide (Memory.InRange a)) = true := by
    rw [touches, decide_eq_false outside]
    rfl
  simp only [step, present, refused, ↓reduceIte]

/-- A comparison that holds and whose label is one too high stores its answer where the cell with
the address of the label points to, and is at fault if that cell is empty. -/
theorem faults_comparison {labels : ComparisonLabels} {text : String} {jump : Jump}
    (before : computer.Before symbols (Template.comparison labels text))
    (sound : ∀ line ∈ Template.comparison labels text, line.Sound fun name => isSymbol name)
    (decoded : Template.instruction? text = some (.compute {} .address .d jump))
    (room : IsStackCell (computer.memory.read Register.stackPointer.address - 1))
    (second : IsStackCell (computer.memory.read Register.stackPointer.address - 1 - 1))
    (taken : jump.taken (computer.memory.read
      (computer.memory.read Register.stackPointer.address - 1 - 1) - computer.memory.top))
    (holds : (symbols.getD labels.holds 0).toNat = computer.counter + 13)
    (inside : Memory.InRange (symbols.getD labels.holds 0))
    (empty : computer.memory.drop.read (symbols.getD labels.holds 0) = 0) :
    ∃ last, computer.run 9 = (last, .faulted ⟨-1, computer.counter + 14⟩) := by
  obtain ⟨middle, chosen, setup, branches, data, target, -⟩ :=
    branches_comparison before decoded room second
  have counter := (target taken).trans holds
  have late : Template.comparison labels text =
      (Template.compareFirst labels text ++ [.label labels.holds, Template.cell .stackPointer]) ++
        ([.compute "A=M-1"] ++ .compute "M=-1" :: [.label labels.done]) := by
    rw [Template.comparison_at_holds, Template.compareStore, Template.top]
    simp
  rw [late] at before sound
  have atStore := before.further (fun line member => sound line (List.mem_append_left _ member))
    (branches.program_eq.trans setup.program_eq) counter
  obtain ⟨last, fetches, result, atEnd⟩ := straight_of_execute atStore
    ((congrArg _ data).trans (Template.execute_fetchA rfl inside))
  have address : last.a = -1 := by
    rw [show last.a = _ from congrArg MachineData.a result, Computation.eval, empty]
    rfl
  have position : last.counter = computer.counter + 14 := by
    rw [fetches.counter_eq, counter]
    rfl
  have faults := step_of_outside atEnd rfl rfl (by rw [address]; decide)
  rw [address, position] at faults
  refine ⟨last, ?_⟩
  calc computer.run 9 = middle.run 3 := setup.executesFor.run_add 3
    _ = chosen.run 2 := (ExecutesFor.step branches (.none chosen)).run_add 2
    _ = last.run 1 := fetches.executesFor.run_add 1
    _ = (last, .faulted ⟨-1, computer.counter + 14⟩) := run_of_faulted faults 0

end Computer

/-- A unit that compares two equal values. -/
def equalSource : Source :=
  ⟨"Main", "function f 0\npush constant 54\npush constant 54\neq"⟩

/-- The unit is read as two numbers to push and their comparison. -/
theorem readAll_equalSource : Command.readAll equalSource.text.toList =
    .ok [⟨⟨0, 12⟩, .function "f" 0⟩, ⟨⟨13, 29⟩, .push .constant 54⟩,
      ⟨⟨30, 46⟩, .push .constant 54⟩, ⟨⟨47, 49⟩, .operator .eq⟩] := by
  have free : ∀ line ∈ Text.locatedLines equalSource.text.toList, '/' ∉ line.code := by decide
  rw [Command.readAll, Command.readings_of_free free]
  decide

theorem parts_equalSource : parts commentedEntry [equalSource] =
    [.bootstrap "f//", .command "Main" (.function "f" 0), .command "Main" (.push .constant 54),
      .command "Main" (.push .constant 54), .command "Main" (.operator .eq)] := by
  simp only [parts, List.flatMap_cons, List.flatMap_nil, Source.parts, Source.commands,
    readAll_equalSource]
  rfl

/-- The blocks before the comparison. -/
def blocksBeforeComparison : List Block :=
  [⟨.bootstrap "f//", (Template.bootstrap {} "f//").1⟩,
    ⟨.command "Main" (.function "f" 0), Template.function "f" 0⟩,
    ⟨.command "Main" (.push .constant 54), Template.pushFrom (.constant 54)⟩,
    ⟨.command "Main" (.push .constant 54), Template.pushFrom (.constant 54)⟩]

theorem blocks_equalSource : blocks commentedEntry [equalSource] = blocksBeforeComparison ++
    [⟨.command "Main" (.operator .eq),
      Template.comparison (LabelSupply.comparisonLabels 0) "D;JEQ"⟩] := by
  rw [blocks, parts_equalSource]
  rfl

/-- The label of a call to the entry function is cut off by a comment, and with it the bracket that
closes it. The comparison of two equal values after it ends in a fault. -/
theorem comparison_faults_commentedEntry : ∃ text program,
    (compile commentedEntry [equalSource]).result = .ok text ∧
      Program.assemble text.toList = .ok program ∧
      program.writtenSize false blocksBeforeComparison = 67 ∧
      ∃ last, Computer.run 9
          { program := program.instructions
            memory := ((Memory.zeroed.write 0 263).write 261 54).write 262 54
            counter := 67 } =
        (last, .faulted ⟨-1, 81⟩) := by
  obtain ⟨text, compiled⟩ : ∃ text, (compile commentedEntry [equalSource]).result = .ok text := by
    refine compile_succeeds (List.forall_mem_singleton.mpr ⟨_, readAll_equalSource⟩) ?_
    rw [parts_equalSource]
    exact ⟨_, rfl⟩
  have addresses : ((Program.assemble text.toList).map fun program =>
      (program.writtenSize false blocksBeforeComparison,
        program.symbols.getD (LabelSupply.comparisonLabels 0).holds 0)).toOption =
          some (67, 80) := by
    rw [(compile_ok compiled).2.2, blocks, parts_equalSource]
    decide +kernel
  obtain ⟨program, assembled, seen⟩ := Program.exists_assemble_of_map addresses
  obtain ⟨start, label⟩ := Prod.mk.inj seen
  refine ⟨text, program, compiled, assembled, start, ?_⟩
  let memory := ((Memory.zeroed.write 0 263).write 261 54).write 262 54
  let computer : Computer := { program := program.instructions, memory, counter := 67 }
  have names : ∀ name ∈ (Part.command "Main" (.operator .eq)).names, isSymbol name := by
    intro name inside
    cases inside
  have before := before_block compiled blocks_equalSource names assembled
    (show computer.program = program.instructions from rfl) start.symm
  have sound := sound_of_split compiled blocks_equalSource names
  obtain ⟨stack, lower, upper, others⟩ :=
    @Memory.read_two 263 54 54 (by decide) (by decide) computer.memory rfl
  have empty : computer.memory.drop.read 80 = 0 := by
    rw [Memory.read_drop_of_ne (by decide)]
    exact others 80 (by decide)
  obtain ⟨room, second⟩ := @isStackCell_operands 263 (by decide) (by decide)
  have taken : Jump.eq.taken (computer.memory.read
      (computer.memory.read Register.stackPointer.address - 1 - 1) - computer.memory.top) := by
    rw [Memory.top, stack]
    change Jump.eq.taken (computer.memory.read (263 - 2) - computer.memory.read (263 - 1))
    rw [lower, upper]
    rfl
  exact Computer.faults_comparison before sound rfl (by rwa [stack]) (by rwa [stack]) taken
    (congrArg BitVec.toNat label) (by rw [label]; decide) (by rw [label]; exact empty)

end HackToolchain
