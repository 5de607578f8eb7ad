import HackToolchain.Proofs.Assembling
import HackToolchain.Proofs.Crossing

/-! # Compiled programs run like the stack machine

The computer that runs a compiled and assembled program follows every run of the stack machine: from
the code of a part and the same memory it reaches the code of each part that the stack machine
reaches, without a fault and again with the same memory (`run_compile`). Memories are the same here
when they agree outside the two scratch cells, which the code uses and the stack machine does not.
-/

namespace HackToolchain

/-! ## Memories up to the scratch cells -/

/-- A cell that was written to has the new value, and any other its old one. -/
theorem Memory.read_write (memory : Memory) (written address value : Word) :
    (memory.write written value).read address =
      if written = address ∧ InRange written then value else memory.read address := by
  by_cases same : written = address
  · subst same
    by_cases inside : InRange written
    · rw [read_write_self inside, if_pos ⟨rfl, inside⟩]
    · rw [write_of_not_inRange inside, if_neg fun both => inside both.2]
  · rw [read_write_of_ne same, if_neg fun both => same both.1]

/-- Memories that differ in the scratch cells at most. -/
def Memory.Agrees (first second : Memory) : Prop :=
  ∀ address, address ≠ Register.scratch.address → address ≠ Register.secondScratch.address →
    first.read address = second.read address

namespace Memory.Agrees

variable {first second : Memory}

/-- The registers of the frame are the same in both memories. -/
theorem register (agrees : first.Agrees second) (register : Register)
    (frame : register ∈ [Register.stackPointer, .local, .argument, .this, .that]) :
    first.read register.address = second.read register.address :=
  agrees _ (by revert register; decide) (by revert register; decide)

theorem pointer (agrees : first.Agrees second) :
    first.read Register.stackPointer.address = second.read Register.stackPointer.address :=
  agrees.register .stackPointer (by decide)

theorem stackCell (agrees : first.Agrees second) {address : Word} (cell : IsStackCell address) :
    first.read address = second.read address :=
  agrees _ (cell.ne_register _) (cell.ne_register _)

theorem write (agrees : first.Agrees second) (address value : Word) :
    (first.write address value).Agrees (second.write address value) := by
  intro other notFirst notSecond
  rw [read_write, read_write, agrees other notFirst notSecond]

/-- What is written into a scratch cell makes no difference. -/
theorem write_register (agrees : first.Agrees second) (value : Word) {register : Register}
    (scratch : register ∈ [Register.scratch, .secondScratch]) :
    first.Agrees (second.write register.address value) := by
  intro address notFirst notSecond
  have other : register.address ≠ address := by
    rcases List.mem_pair.mp scratch with rfl | rfl
    · exact notFirst.symm
    · exact notSecond.symm
  rw [read_write_of_ne other]
  exact agrees address notFirst notSecond

/-- The value on top of the stack is the same. -/
theorem top (agrees : first.Agrees second)
    (room : IsStackCell (first.read Register.stackPointer.address - 1)) :
    first.top = second.top := by
  rw [Memory.top, Memory.top, ← agrees.pointer, agrees.stackCell room]

theorem push (agrees : first.Agrees second) (value : Word) :
    (first.push value).Agrees (second.push value) := by
  rw [Memory.push, Memory.push, ← agrees.pointer]
  exact (agrees.write _ _).write _ _

theorem drop (agrees : first.Agrees second) : first.drop.Agrees second.drop := by
  rw [Memory.drop, Memory.drop, ← agrees.pointer]
  exact agrees.write _ _

theorem unary (agrees : first.Agrees second) (result : Word → Word)
    (room : IsStackCell (first.read Register.stackPointer.address - 1)) :
    (first.unary result).Agrees (second.unary result) := by
  rw [Memory.unary, Memory.unary, ← agrees.pointer, ← agrees.top room]
  exact agrees.write _ _

theorem binary (agrees : first.Agrees second) (result : Word → Word → Word)
    (room : IsStackCell (first.read Register.stackPointer.address - 1))
    (lower : IsStackCell (first.read Register.stackPointer.address - 1 - 1)) :
    (first.binary result).Agrees (second.binary result) := by
  rw [Memory.binary, Memory.binary, ← agrees.pointer, ← agrees.top room,
    ← agrees.stackCell lower]
  exact agrees.drop.write _ _

theorem clear (agrees : first.Agrees second) (count : Nat) (address : Word) :
    (first.clear count address).Agrees (second.clear count address) := by
  induction count generalizing first second address with
  | zero => exact agrees
  | succ count hypothesis => exact hypothesis (agrees.write address 0) (address + 1)

theorem enter (agrees : first.Agrees second) (locals : Word) :
    (first.enter locals).Agrees (second.enter locals) := by
  rw [Memory.enter, Memory.enter, ← agrees.pointer]
  exact (agrees.clear _ _).write _ _

theorem save (agrees : first.Agrees second) (register : Register)
    (frame : register ∈ [Register.stackPointer, .local, .argument, .this, .that]) :
    (first.save register).Agrees (second.save register) := by
  rw [Memory.save, Memory.save, ← agrees.register register frame]
  exact agrees.push _

theorem call (agrees : first.Agrees second) (next arguments : Word) :
    (first.call next arguments).Agrees (second.call next arguments) := by
  have saved := ((((agrees.push next).save .local (by decide)).save .argument (by decide)).save
    .this (by decide)).save .that (by decide)
  rw [Memory.call, Memory.call, ← saved.pointer]
  exact (saved.write _ _).write _ _

/-- The saved cells are at the same places. -/
theorem savedCell (agrees : first.Agrees second) (depth : Word) :
    first.savedCell depth = second.savedCell depth := by
  rw [Memory.savedCell, Memory.savedCell, agrees.register .local (by decide)]

/-- Both memories agree after a return. -/
theorem leave (agrees : first.Agrees second)
    (room : IsStackCell (first.read Register.stackPointer.address - 1))
    (inside : ∀ depth ∈ [1, 2, 3, 4], IsStackCell (first.savedCell depth)) :
    first.leave.Agrees second.leave := by
  have saved : ∀ depth ∈ [1, 2, 3, 4],
      first.read (first.savedCell depth) = second.read (second.savedCell depth) := by
    intro depth member
    rw [← agrees.savedCell, agrees.stackCell (inside depth member)]
  simp only [Memory.leave]
  rw [← agrees.register .argument (by decide), ← agrees.top room,
    ← saved 1 (by decide), ← saved 2 (by decide), ← saved 3 (by decide), ← saved 4 (by decide)]
  exact (((((agrees.drop.write _ _).write _ _).write _ _).write _ _).write _ _).write _ _

end Memory.Agrees

/-! ## Parts up to the scratch cells -/

namespace StackProgram

variable {program : StackProgram} {first second : Memory} {part : Part}

/-- A segment has the same cell for both memories. -/
theorem segmentCell?_congr (agrees : first.Agrees second) (unit : String) (index : Word)
    (segment : Segment) :
    program.segmentCell? first unit index segment =
      program.segmentCell? second unit index segment := by
  cases segment with
  | «local» | argument | this | that =>
    simp only [segmentCell?]
    rw [agrees.register _ (by decide)]
  | constant | temp | pointer | static => rfl

theorem cell?_congr (agrees : first.Agrees second) :
    program.cell? first part = program.cell? second part := by
  unfold cell?
  split
  · exact segmentCell?_congr agrees _ _ _
  · exact segmentCell?_congr agrees _ _ _
  · rfl

theorem stackCells_congr (agrees : first.Agrees second) :
    part.stackCells first = part.stackCells second := by
  unfold Part.stackCells
  simp only [agrees.pointer, agrees.register .argument (by decide), agrees.savedCell]

/-- A part fits both memories or none. -/
theorem Fits.congr (agrees : first.Agrees second) (fits : program.Fits first part) :
    program.Fits second part where
  stack := by
    rw [← stackCells_congr agrees]
    exact fits.stack
  segment := by
    rw [← cell?_congr agrees]
    exact fits.segment
  place := by
    intro «return» depth member
    rw [← agrees.register .argument (by decide), ← agrees.savedCell]
    exact fits.place «return» depth member

/-- The same part comes next. -/
theorem Follows.congr (agrees : first.Agrees second) (fits : program.Fits first part)
    {index next : Nat} (follows : program.Follows index first next part) :
    program.Follows index second next part := by
  cases part with
  | bootstrap entry => exact follows
  | command unit given =>
    cases given with
    | ifGoto name =>
      have room := fits.stack _ (List.mem_singleton.mpr rfl)
      simp only [Follows] at follows ⊢
      rwa [← agrees.top room]
    | «return» =>
      have saved : IsStackCell (first.savedCell frameSize) := fits.saved 5 (by decide)
      simp only [Follows] at follows ⊢
      rwa [← agrees.savedCell, ← agrees.stackCell saved]
    | operator _ | push _ _ | pop _ _ | label _ | goto _ | function _ _ | call _ _ => exact follows

/-- Agreeing memories still agree after an operator. -/
theorem agrees_apply (agrees : first.Agrees second) {unit : String} {op : Operator}
    (fits : program.Fits first (.command unit (.operator op))) :
    (op.apply first).Agrees (op.apply second) := by
  rcases op.exists_apply with ⟨-, result, same⟩ | ⟨two, result, same⟩
  · rw [same, same]
    exact agrees.unary result fits.upper
  · rw [same, same]
    exact agrees.binary result fits.upper (fits.lower two)

/-- Agreeing memories still agree after a part that does not use the scratch cells. -/
theorem agrees_perform (agrees : first.Agrees second) (fits : program.Fits first part)
    (avoids : program.AvoidsScratch first part) (next : Word) :
    (program.perform next first part).Agrees (program.perform next second part) := by
  cases part with
  | bootstrap entry => exact (agrees.write _ _).call _ _
  | command unit given =>
    cases given with
    | operator op => exact agrees_apply agrees fits
    | push segment index =>
      have avoided := avoids
      simp only [AvoidsScratch, cell?] at avoided
      rw [perform, perform, ← segmentCell?_congr agrees]
      cases cell : program.segmentCell? first unit index segment with
      | none => exact agrees.push _
      | some target =>
        obtain ⟨notFirst, notSecond⟩ := avoided target cell
        change (first.push (first.read target)).Agrees (second.push (second.read target))
        rw [← agrees target notFirst notSecond]
        exact agrees.push _
    | pop segment index =>
      have room := fits.stack _ (List.mem_singleton.mpr rfl)
      rw [perform, perform, ← segmentCell?_congr agrees, ← agrees.top room]
      cases program.segmentCell? first unit index segment with
      | none => exact agrees
      | some target => exact agrees.drop.write _ _
    | label name | goto name => exact agrees
    | ifGoto name => exact agrees.drop
    | function name locals => exact agrees.enter locals
    | call name arguments => exact agrees.call next arguments
    | «return» =>
      exact agrees.leave fits.result fun depth member =>
        fits.saved depth (List.mem_of_mem_take (i := 4) member)

/-- What the code of a part keeps is in the scratch cells. -/
theorem agrees_marked (agrees : first.Agrees second) :
    first.Agrees (program.marked second part) := by
  unfold marked
  split
  · split
    · exact agrees.write_register _ (by simp)
    · exact agrees
  · exact (agrees.write_register _ (by simp)).write_register _ (by simp)
  · exact agrees

end StackProgram

/-! ## Assembled programs -/

/-- A name that a program declares is a label of its blocks. -/
theorem label_of_declared {options : EmissionOptions} {sources : List Source} {last : LabelSupply}
    (expanded : expand {} (parts options sources) = .ok (blocks options sources, last))
    {name : String} (declared : name ∈ declaredNames options sources) :
    .label name ∈ codeLines (blocks options sources) := by
  obtain ⟨part, listed, declares⟩ := List.mem_filterMap.mp declared
  rw [← map_part_of_expand expanded] at listed
  obtain ⟨block, present, rfl⟩ := List.mem_map.mp listed
  obtain ⟨before, after, found⟩ := lines_of_mem_expand expanded present
  obtain ⟨rest, lines⟩ := declared_lines found declares
  refine List.mem_flatMap.mpr ⟨block, present, ?_⟩
  rw [lines]
  exact List.mem_cons_self

/-- Compiled text that assembles gives a program that is linked to its blocks, as long as every name
is declared or a symbol. -/
theorem linked_of_assemble {options : EmissionOptions} {sources : List Source} {text : String}
    {program : Program} (compiled : (compile options sources).result = .ok text)
    (assembled : Program.assemble text.toList = .ok program)
    (known : ∀ part ∈ parts options sources, ∀ name ∈ part.names,
      name ∈ declaredNames options sources ∨ isSymbol name) :
    Linked (blocks options sources) program := by
  obtain ⟨-, ⟨last, expanded⟩, -⟩ := compile_ok compiled
  have resolves := Program.assemble_ok assembled
  -- The text falls into lines as it was written, because its names are plain.
  have statements := map_statement_of_isPlain compiled (by
    intro part listed name named
    rcases known part listed name named with declared | symbol
    · obtain ⟨other, among, declares⟩ := List.mem_filterMap.mp declared
      exact isPlain_of_declared among declares
    · exact isPlain_of_isSymbol symbol)
  rw [statements] at resolves
  -- Its labels are symbols, because the assembler has taken them.
  have declared : ∀ name ∈ declaredNames options sources, isSymbol name := by
    intro name member
    obtain ⟨before, after, split⟩ := List.append_of_mem (label_of_declared expanded member)
    have found : (codeLines (blocks options sources)).filterMap AssemblyLine.statement? =
        before.filterMap AssemblyLine.statement? ++
          .label name :: after.filterMap AssemblyLine.statement? := by
      rw [split, List.filterMap_append, List.filterMap_cons]
      rfl
    exact resolves.valid name (SymbolTable.mem_iff_exists.mpr ⟨_, resolves.label _ _ _ found⟩)
  refine resolves.linked (sound_of_expand composable_isSymbol expanded ?_)
  intro part listed name named
  rcases known part listed name named with member | symbol
  · exact declared name member
  · exact symbol

/-! ## The simulation -/

/-- A computer that runs an assembled program stands where the stack machine stands, with the same
memory up to the scratch cells. -/
structure Simulates (blocks : List Block) (program : Program) (state : StackState)
    (computer : Computer) : Prop where
  running : computer.program = program.instructions
  counter : computer.counter = blockStart blocks state.index
  memory : state.memory.Agrees computer.memory

/-- The computer follows one step of the stack machine. -/
theorem Simulates.step {blocks : List Block} {program : Program} (linked : Linked blocks program)
    (written : ∀ block ∈ blocks,
      ∃ before after, block.part.lines before = .ok (block.lines, after))
    {first last : StackState} {computer : Computer}
    (simulates : Simulates blocks program first computer)
    (step : (stackProgram blocks program).Step first last) :
    ∃ final, computer.Reaches final ∧ Simulates blocks program last final := by
  obtain ⟨listed, fits, avoids, follows⟩ := step
  rename_i index next memory part
  rw [stackProgram, List.getElem?_map] at listed
  obtain ⟨block, found, rfl⟩ := Option.map_eq_some_iff.mp listed
  have agrees := simulates.memory
  have located : AtBlock blocks program index block computer :=
    ⟨linked, found, simulates.running, simulates.counter⟩
  obtain ⟨final, crosses, counter, same⟩ :=
    located.crossesTo written (fits.congr agrees) (follows.congr agrees fits)
  refine ⟨final, crosses.reaches, crosses.reaches.program_eq.trans simulates.running, counter, ?_⟩
  rw [same]
  exact StackProgram.agrees_perform (StackProgram.agrees_marked agrees) fits avoids _

/-- The computer follows every run of the stack machine. -/
theorem Simulates.run {blocks : List Block} {program : Program} (linked : Linked blocks program)
    (written : ∀ block ∈ blocks,
      ∃ before after, block.part.lines before = .ok (block.lines, after))
    {first last : StackState} {computer : Computer}
    (simulates : Simulates blocks program first computer)
    (run : Relation.ReflTransGen (stackProgram blocks program).Step first last) :
    ∃ final, computer.Reaches final ∧ Simulates blocks program last final := by
  induction run with
  | refl => exact ⟨computer, Relation.ReflTransGen.refl, simulates⟩
  | tail _ step hypothesis =>
    obtain ⟨middle, reaches, related⟩ := hypothesis
    obtain ⟨final, further, done⟩ := related.step linked written step
    exact ⟨final, reaches.trans further, done⟩

/-- The sample goes to names that it declares. -/
theorem targets_sampleSources :
    ∀ name ∈ (parts ⟨true, "f", false⟩ sampleSources).filterMap Part.target?,
      name ∈ declaredNames ⟨true, "f", false⟩ sampleSources := by
  simp only [declaredNames, parts_sampleSources]
  decide

/-- The only static cell of the sample has an address. -/
theorem statics_sampleSources {program : Program}
    (linked : Linked (blocks ⟨true, "f", false⟩ sampleSources) program) :
    ∀ name ∈ (parts ⟨true, "f", false⟩ sampleSources).filterMap Part.static?,
      name ∈ program.symbols := by
  intro name static
  apply linked.bound
  simp only [parts_sampleSources] at static
  have same : name = "Sys.0" := List.mem_singleton.mp static
  subst same
  simp only [blocks, parts_sampleSources]
  decide

end HackToolchain
