import HackToolchain.Proofs.FrameCells
import HackToolchain.Proofs.Runs
import HackToolchain.Proofs.StaticCells

/-! # Pushing a cell and popping it back

A command that pushes a cell, followed at once by one that pops into the same cell, leaves the cell
and the stack pointer as they were. Popping finds the address of the cell anew, after pushing has
changed the memory, and keeps it in the scratch cell, so the two could miss each other where the
cell is the stack pointer, the base of its own segment, the scratch cell or the free cell on top of
the stack. They do not: pushing changes no base (`Location.cell?_push`), and popping writes to the
cell last (`read_restored`).
-/

namespace HackToolchain

namespace Memory

variable {memory : Memory}

/-- A pushed value is on top of the stack. -/
theorem top_push {value : Word} (room : IsStackCell (memory.read Register.stackPointer.address)) :
    (memory.push value).top = value := by
  rw [top, read_push_pointer, BitVec.add_sub_cancel, read_push_self room]

end Memory

namespace Template

/-- Where a segment is does not depend on the unit, unless it is the static segment. -/
theorem locate_congr {unit other : String} {segment : Segment} (index : Word)
    (same : segment = .static → other = unit) :
    locate other segment index = locate unit segment index := by
  cases segment with
  | static => rw [same rfl]
  | constant | «local» | argument | this | that | temp | pointer => rfl

variable {symbols : SymbolTable} {memory : Memory} {location : Location} {cell address : Word}

/-- Pushing changes no base, so that it does not matter for the cell at a location. -/
theorem Location.cell?_push {segment : Segment} {unit : String} {index : Word}
    (found : locate unit segment index = .ok location)
    (room : IsStackCell (memory.read Register.stackPointer.address)) (value : Word) :
    location.cell? symbols (memory.push value) = location.cell? symbols memory := by
  rcases locate_ok found with ⟨-, rfl⟩ | ⟨base, start, rfl, -⟩ | ⟨-, ⟨-, rfl⟩ | ⟨-, rfl⟩⟩ | ⟨-, rfl⟩
  · rfl
  · have kept : base.value (memory.push value) = base.value memory := by
      cases segment with
      | «local» | argument | this | that =>
        cases start
        exact Memory.read_push_register (by decide) room value
      | temp =>
        cases start
        rfl
      | constant | pointer | static => cases start
    rw [cell?, cell?, kept]
  · rfl
  · rfl
  · rfl

/-- The memory after a cell at a location is pushed and popped back. -/
def Location.restored (memory : Memory) (cell : Word) (location : Location) : Memory :=
  (location.marked (memory.push (memory.read cell))).drop.write cell (memory.read cell)

/-- Keeping the address of a location writes to the scratch cell at most. -/
theorem Location.read_marked_of_ne (other : address ≠ Register.scratch.address) :
    (location.marked memory).read address = memory.read address := by
  cases location with
  | constant _ | named _ => rfl
  | indexed base index => exact Memory.read_write_of_ne other.symm

/-- The cell has its value again. -/
theorem Location.read_restored_self (inside : Memory.InRange cell) :
    (location.restored memory cell).read cell = memory.read cell :=
  Memory.read_write_self inside

/-- Pushing a cell and popping it back changes the cell that was on top of the stack and the scratch
cell, and no other. -/
theorem Location.read_restored (inside : Memory.InRange cell)
    (free : address ≠ memory.read Register.stackPointer.address)
    (other : address ≠ Register.scratch.address) :
    (location.restored memory cell).read address = memory.read address := by
  by_cases same : address = cell
  · rw [same, read_restored_self inside]
  · rw [restored, Memory.read_write_of_ne (Ne.symm same)]
    by_cases pointer : address = Register.stackPointer.address
    · rw [pointer, Memory.read_drop_pointer, read_marked_of_ne (by decide),
        Memory.read_push_pointer, BitVec.add_sub_cancel]
    · rw [Memory.read_drop_of_ne pointer, read_marked_of_ne other,
        Memory.read_push_of_ne free pointer]

/-- The pointer has its value again. -/
theorem Location.read_restored_pointer (inside : Memory.InRange cell)
    (room : IsStackCell (memory.read Register.stackPointer.address)) :
    (location.restored memory cell).read Register.stackPointer.address =
      memory.read Register.stackPointer.address :=
  read_restored inside (room.ne_register _).symm (by decide)

/-- The lines that push a cell and the lines that pop it back, executed one after another. -/
theorem execute_push_pop {segment : Segment} {unit : String} {index a d : Word}
    {lines : List AssemblyLine} (found : locate unit segment index = .ok location)
    (popped : popInto location = .ok lines) (located : location.cell? symbols memory = some cell)
    (inside : Memory.InRange cell)
    (room : IsStackCell (memory.read Register.stackPointer.address)) :
    ∃ a' d', execute symbols (pushFrom location ++ lines) ⟨memory, a, d⟩ =
      some ⟨location.restored memory cell, a', d'⟩ := by
  obtain ⟨a₁, d₁, pushed⟩ := execute_pushFrom (a := a) (d := d) located inside room
  have place : IsStackCell
      ((memory.push (memory.read cell)).read Register.stackPointer.address - 1) := by
    rwa [Memory.read_push_pointer, BitVec.add_sub_cancel]
  have again : location.cell? symbols (memory.push (memory.read cell)) = some cell := by
    rw [Location.cell?_push found room, located]
  obtain ⟨a₂, d₂, stored⟩ := execute_popInto (a := a₁) (d := d₁) popped again inside place
  refine ⟨a₂, d₂, ?_⟩
  rw [execute_append, pushed, Option.bind_some, stored, Memory.top_push room]
  rfl

end Template

section

variable {options : EmissionOptions} {sources : List Source} {text : String} {program : Program}
  (compiled : (compile options sources).result = .ok text)
  (assembled : Program.assemble text.toList = .ok program)
  {before after : List Block} {first second : Block}
  (split : blocks options sources = before ++ first :: second :: after)
  (firstNames : ∀ name ∈ first.part.names, isSymbol name)
  (secondNames : ∀ name ∈ second.part.names, isSymbol name)

include compiled assembled split firstNames secondNames

/-- Two blocks of straight code, one after the other, are executed to the end. -/
theorem straight_of_blocks {computer : Computer} (running : computer.program = program.instructions)
    (counter : computer.counter = program.writtenSize options.annotate before) {data : MachineData}
    (executed : execute program.symbols (first.lines ++ second.lines) computer.data = some data) :
    ∃ last, Computer.Straight (codeSize [first, second]) computer last ∧ last.data = data ∧
      last.counter = program.writtenSize options.annotate (before ++ [first, second]) := by
  have whole : blocks options sources = (before ++ [first]) ++ second :: after := by
    rw [split, List.append_assoc, List.singleton_append]
  have firstSize := writtenSize_concat compiled split firstNames assembled
  have secondSize := writtenSize_concat compiled whole secondNames assembled
  rw [List.append_assoc, List.singleton_append] at secondSize
  have total : codeSize [first, second] = first.lines.countP AssemblyLine.isInstruction +
      second.lines.countP AssemblyLine.isInstruction := by
    simp [codeSize, codeLines]
  rw [execute_append, Option.bind_eq_some_iff] at executed
  obtain ⟨reached, head, tail⟩ := executed
  have atFirst := before_block compiled split firstNames assembled running counter
  rw [← List.append_nil first.lines] at atFirst
  obtain ⟨middle, ahead, same, -⟩ := Computer.straight_of_execute atFirst head
  subst same
  have atSecond := before_block compiled whole secondNames assembled
    (ahead.program_eq.trans running) (by rw [firstSize, ahead.counter_eq, counter])
  rw [← List.append_nil second.lines] at atSecond
  obtain ⟨last, further, done, -⟩ := Computer.straight_of_execute atSecond tail
  refine ⟨last, total ▸ ahead.append further, done, ?_⟩
  rw [secondSize, firstSize, further.counter_eq, ahead.counter_eq, counter]

end

/-- **Pushing a cell and popping it back.** In any program that compiles and assembles, take a
command that pushes a cell of a segment and right after it one that pops into the same cell of the
segment. From the first of them, with room on the stack and the cell in the memory, the computer
executes both without a fault. The stack pointer and the cell are then as they were, whichever cell
it is, and so is every other cell but the free cell on top of the stack and the scratch cell. -/
theorem push_pop_restores {options : EmissionOptions} {sources : List Source} {text : String}
    {program : Program} (compiled : (compile options sources).result = .ok text)
    (assembled : Program.assemble text.toList = .ok program)
    {before after : List Block} {pushing popping : Block}
    (split : blocks options sources = before ++ pushing :: popping :: after)
    {unit other : String} {segment : Segment} {index : Word}
    (pushes : pushing.part = .command unit (.push segment index))
    (pops : popping.part = .command other (.pop segment index))
    (same : segment = .static → other = unit)
    (named : segment = .static → Template.staticSymbol unit index ∈ program.symbols)
    {computer : Computer} (running : computer.program = program.instructions)
    (counter : computer.counter = program.writtenSize options.annotate before)
    {pointer cell : Word} (stack : computer.memory.read Register.stackPointer.address = pointer)
    (room : IsStackCell pointer)
    (located : (stackProgram (blocks options sources) program).segmentCell? computer.memory unit
      index segment = some cell) (inside : Memory.InRange cell) :
    ∃ last, computer.run (codeSize [pushing, popping]) =
        (last, if last.halted then .halted else .exhausted) ∧
      last.counter = program.writtenSize options.annotate (before ++ [pushing, popping]) ∧
      last.steps = computer.steps + codeSize [pushing, popping] ∧
      last.memory.read Register.stackPointer.address = pointer ∧
      last.memory.read cell = computer.memory.read cell ∧
      ∀ address, address ≠ pointer → address ≠ Register.scratch.address →
        last.memory.read address = computer.memory.read address := by
  subst stack
  have whole : blocks options sources = (before ++ [pushing]) ++ popping :: after := by
    rw [split, List.append_assoc, List.singleton_append]
  -- Both commands have the same location, and so the same symbol if they have one.
  obtain ⟨supply, next, pushLines⟩ := lines_of_split compiled split
  rw [pushes] at pushLines
  obtain ⟨location, found, pushed, -⟩ := Template.push_ok pushLines
  obtain ⟨supply, next, popLines⟩ := lines_of_split compiled whole
  rw [pops] at popLines
  obtain ⟨place, also, popped, -⟩ := Template.pop_ok popLines
  rw [Template.locate_congr index same, found] at also
  cases also
  have symbols : ∀ name ∈ (Part.command unit (.push segment index)).names, isSymbol name := by
    rw [Part.forall_mem_names]
    refine ⟨nofun, nofun, ?_⟩
    intro name static
    cases segment with
    | static =>
      cases static
      exact (Program.assemble_ok assembled).valid _ (named rfl)
    | constant | «local» | argument | this | that | temp | pointer => cases static
  have pushNames : ∀ name ∈ pushing.part.names, isSymbol name := by rwa [pushes]
  have popNames : ∀ name ∈ popping.part.names, isSymbol name := by
    rw [pops]
    cases segment with
    | static =>
      rw [same rfl]
      exact symbols
    | constant | «local» | argument | this | that | temp | pointer => exact symbols
  have known := (AtBlock.cell?_of_locate (blocks options sources) program computer.memory
    found).trans located
  obtain ⟨a, d, executed⟩ :=
    Template.execute_push_pop (a := computer.a) (d := computer.d) found popped known inside room
  rw [← pushed] at executed
  obtain ⟨last, straight, data, ends⟩ :=
    straight_of_blocks compiled assembled split pushNames popNames running counter executed
  have memory : last.memory = location.restored computer.memory cell :=
    congrArg MachineData.memory data
  have executes := straight.executesFor
  refine ⟨last, executes.run_eq, ends, executes.steps_eq, ?_, ?_, ?_⟩
  · rw [memory, Template.Location.read_restored_pointer inside room]
  · rw [memory, Template.Location.read_restored_self inside]
  · intro address free scratch
    rw [memory, Template.Location.read_restored inside free scratch]

/-- A unit that pushes the scratch cell and pops it back. -/
def scratchSources : List Source :=
  [⟨"Main", "push temp 8\npop temp 8"⟩]

theorem readAll_scratchSources : Command.readAll "push temp 8\npop temp 8".toList =
    .ok [⟨⟨0, 11⟩, .push .temp 8⟩, ⟨⟨12, 22⟩, .pop .temp 8⟩] := by
  have free : ∀ line ∈ Text.locatedLines "push temp 8\npop temp 8".toList, '/' ∉ line.code := by
    decide
  rw [Command.readAll, Command.readings_of_free free]
  decide

theorem parts_scratchSources : parts ⟨false, "", false⟩ scratchSources =
    [.command "Main" (.push .temp 8), .command "Main" (.pop .temp 8)] := by
  simp only [parts, scratchSources, List.flatMap_cons, List.flatMap_nil, Source.parts,
    Source.commands, readAll_scratchSources]
  rfl

theorem compile_scratchSources : ∃ text program,
    (compile ⟨false, "", false⟩ scratchSources).result = .ok text ∧
      Program.assemble text.toList = .ok program := by
  have readable : ∀ source ∈ scratchSources,
      ∃ located, Command.readAll source.text.toList = .ok located :=
    List.forall_mem_singleton.mpr ⟨_, readAll_scratchSources⟩
  obtain ⟨text, compiled⟩ := compile_succeeds readable
    (by rw [parts_scratchSources]; exact ⟨_, rfl⟩)
  have named : WellNamed ⟨false, "", false⟩ scratchSources := by
    refine ⟨by decide, ?_, ?_, ?_, ?_, ?_⟩
    all_goals simp only [declaredNames, generatedLabels, blocks, parts_scratchSources]
    all_goals decide
  have fits : codeSize (blocks ⟨false, "", false⟩ scratchSources) ≤ Word.maxValue := by
    rw [blocks, parts_scratchSources]
    decide
  obtain ⟨program, assembled, -⟩ := named.assembles compiled fits
  exact ⟨text, program, compiled, assembled⟩

/-- The scratch cell is pushed and popped back with the last cell of the memory on top of the
stack. -/
theorem push_pop_restores_scratchSources : ∃ text program,
    (compile ⟨false, "", false⟩ scratchSources).result = .ok text ∧
      Program.assemble text.toList = .ok program ∧
      ∃ last, Computer.run 22
            { program := program.instructions
              memory := (Memory.zeroed.write 0 32767).write 13 7 } =
          (last, if last.halted then .halted else .exhausted) ∧
        last.steps = 22 ∧ last.memory.read 0 = 32767 ∧ last.memory.read 13 = 7 := by
  obtain ⟨text, program, compiled, assembled⟩ := compile_scratchSources
  let memory := (Memory.zeroed.write 0 32767).write 13 7
  let computer : Computer := { program := program.instructions, memory }
  have split : blocks ⟨false, "", false⟩ scratchSources =
      [] ++ ⟨.command "Main" (.push .temp 8),
          Template.pushFrom (.indexed (.fixed tempBase) 8)⟩ ::
        ⟨.command "Main" (.pop .temp 8), [Template.number tempBase, .compute "D=A",
          Template.number 8, .compute "D=D+A", Template.cell .scratch, .compute "M=D"] ++
            Template.popToScratch⟩ :: [] := by
    rw [blocks, parts_scratchSources]
    rfl
  have pointer : computer.memory.read 0 = 32767 := by
    change memory.read 0 = 32767
    rw [Memory.read_write_of_ne (by decide), Memory.read_write_self (by decide)]
  have scratch : memory.read 13 = 7 := Memory.read_write_self (by decide)
  have room : IsStackCell 32767 := by
    unfold IsStackCell memorySize
    decide
  have located : (stackProgram (blocks ⟨false, "", false⟩ scratchSources) program).segmentCell?
      computer.memory "Main" 8 .temp = some 13 := rfl
  obtain ⟨last, run, -, steps, stack, kept, -⟩ := push_pop_restores compiled assembled split rfl rfl
    (by decide) (fun isStatic => by cases isStatic)
    (show computer.program = program.instructions from rfl) rfl pointer room located (by decide)
  exact ⟨text, program, compiled, assembled, last, run, steps, stack, kept.trans scratch⟩

end HackToolchain
