import HackToolchain.Proofs.Annotations
import HackToolchain.Proofs.SymbolAddresses
import HackToolchain.Proofs.TemplateEffects

/-! # Static cells

A static cell has a symbol that is made of the name of its unit and its index, and both can be told
from the symbol. Where the text declares no such symbol as a label, it is a variable, and different
variables have different addresses from `variableBase` on. So no two static cells of a program are
the same cell, and a command that pops into one changes no other.
-/

namespace HackToolchain

/-! ## Statements of blocks -/

namespace AssemblyLine

/-- The statements that the assembler finds in the text of some lines. -/
def statementsOf (lines : List AssemblyLine) : List Statement :=
  (CodeLine.ofText (textOf lines)).map CodeLine.statement

theorem statementsOf_append (first second : List AssemblyLine) :
    statementsOf (first ++ second) = statementsOf first ++ statementsOf second := by
  have byCode : ∀ lines : List CodeLine, lines.map CodeLine.statement =
      (lines.map CodeLine.code).map fun code => CodeLine.statement ⟨0, code⟩ := by
    intro lines
    rw [List.map_map]
    rfl
  rw [statementsOf, statementsOf, statementsOf, byCode, byCode, byCode,
    CodeLine.map_code_textOf, CodeLine.map_code_textOf, CodeLine.map_code_textOf,
    List.flatMap_append, List.map_append]

end AssemblyLine

/-- The number of instructions that the text of some blocks is assembled to. -/
def Program.writtenSize (program : Program) (annotate : Bool) (blocks : List Block) : Nat :=
  (emitted program.symbols (CodeLine.ofText
    (AssemblyLine.textOf (blocks.flatMap (Block.written annotate))))).length

/-- The size of some blocks is the number of instructions in their text. -/
theorem Program.writtenSize_eq (program : Program) (annotate : Bool) (blocks : List Block) :
    program.writtenSize annotate blocks =
      ((AssemblyLine.statementsOf (blocks.flatMap (Block.written annotate))).filterMap
        (Statement.instruction? program.symbols)).length := by
  rw [AssemblyLine.statementsOf, List.filterMap_map]
  rfl

section

variable {options : EmissionOptions} {sources : List Source} {text : String}
  (compiled : (compile options sources).result = .ok text) {before after : List Block}
  {block : Block} (split : blocks options sources = before ++ block :: after)

include compiled split

/-- The part of a block is a part of the program. -/
theorem part_mem_of_split : block.part ∈ parts options sources := by
  obtain ⟨-, ⟨last, expanded⟩, -⟩ := compile_ok compiled
  rw [← map_part_of_expand expanded, split, List.map_append]
  exact List.mem_append_right _ List.mem_cons_self

/-- A block has the lines for its part. -/
theorem lines_of_split : ∃ supply next, block.part.lines supply = .ok (block.lines, next) := by
  obtain ⟨-, ⟨last, expanded⟩, -⟩ := compile_ok compiled
  apply lines_of_mem_expand expanded
  rw [split]
  exact List.mem_append_right _ List.mem_cons_self

/-- The statements of compiled text before, in and after a block. -/
theorem map_statement_compile : (CodeLine.ofText text.toList).map CodeLine.statement =
    AssemblyLine.statementsOf (before.flatMap (Block.written options.annotate)) ++
      (AssemblyLine.statementsOf (block.written options.annotate) ++
        AssemblyLine.statementsOf (after.flatMap (Block.written options.annotate))) := by
  obtain ⟨-, -, written⟩ := compile_ok compiled
  rw [written, split, List.flatMap_append, List.flatMap_cons]
  change AssemblyLine.statementsOf _ = _
  rw [AssemblyLine.statementsOf_append, AssemblyLine.statementsOf_append]

variable (valid : ∀ name ∈ block.part.names, isSymbol name)

include valid

/-- The lines of a block whose names are symbols are sound. -/
theorem sound_of_split : ∀ line ∈ block.lines, line.Sound fun name => isSymbol name := by
  obtain ⟨supply, next, found⟩ := lines_of_split compiled split
  exact Part.lines_sound composable_isSymbol found valid

/-- The statements of a block whose names are symbols are those of its lines. -/
theorem statementsOf_block : AssemblyLine.statementsOf (block.written options.annotate) =
    block.lines.filterMap AssemblyLine.statement? := by
  have plain : ∀ line ∈ codeLines [block], line.Sound IsPlain := by
    intro line member
    rw [codeLines, List.flatMap_singleton] at member
    exact (sound_of_split compiled split valid line member).mono fun name => isPlain_of_isSymbol
  have captions : ∀ other ∈ [block], '\n' ∉ other.part.caption.toList :=
    List.forall_mem_singleton.mpr (caption_of_mem_parts (part_mem_of_split compiled split))
  have statements := map_statement_written options.annotate plain captions
  rw [List.flatMap_singleton, codeLines, List.flatMap_singleton] at statements
  exact statements

/-- The instructions that a block whose names are symbols is assembled to are those on its lines. -/
theorem filterMap_instruction?_block {program : Program}
    (assembled : Program.assemble text.toList = .ok program) :
    (AssemblyLine.statementsOf (block.written options.annotate)).filterMap
        (Statement.instruction? program.symbols) =
      block.lines.filterMap (AssemblyLine.instruction? program.symbols) := by
  rw [statementsOf_block compiled split valid, List.filterMap_filterMap]
  apply List.filterMap_congr
  intro line member
  exact AssemblyLine.bind_statement? (Program.assemble_ok assembled).predefined
    (sound_of_split compiled split valid line member)

/-- A computer stands before a block when its program counter is the number of instructions before
the block. -/
theorem before_block {program : Program} (assembled : Program.assemble text.toList = .ok program)
    {computer : Computer} (running : computer.program = program.instructions)
    (counter : computer.counter = program.writtenSize options.annotate before) :
    computer.Before program.symbols block.lines := by
  have whole := (Program.assemble_ok assembled).instructions
  rw [map_statement_compile compiled split, List.filterMap_append, List.filterMap_append,
    filterMap_instruction?_block compiled split valid assembled] at whole
  rw [Computer.Before, running, counter, Program.writtenSize_eq, whole, List.drop_left]
  exact List.prefix_append _ _

/-- A block whose names are symbols adds the instructions on its lines. -/
theorem writtenSize_concat {program : Program}
    (assembled : Program.assemble text.toList = .ok program) :
    program.writtenSize options.annotate (before ++ [block]) =
      program.writtenSize options.annotate before +
        block.lines.countP AssemblyLine.isInstruction := by
  rw [Program.writtenSize_eq, Program.writtenSize_eq, List.flatMap_append, List.flatMap_singleton,
    AssemblyLine.statementsOf_append, List.filterMap_append, List.length_append,
    filterMap_instruction?_block compiled split valid assembled,
    AssemblyLine.length_filterMap_instruction? (sound_of_split compiled split valid)]

end

/-! ## Symbols of static cells -/

/-- The symbol of a static cell is a numbered name. -/
theorem staticSymbol_eq_numbered (unit : String) (index : Word) :
    Template.staticSymbol unit index = numbered unit index.toNat := rfl

/-- The unit and the index of a static cell can be told from its symbol. -/
theorem staticSymbol_inj {unit other : String} {index another : Word} :
    Template.staticSymbol unit index = Template.staticSymbol other another ↔
      unit = other ∧ index = another := by
  constructor
  · intro same
    rw [staticSymbol_eq_numbered, staticSymbol_eq_numbered] at same
    obtain ⟨units, numbers⟩ := numbered_injective same
    exact ⟨units, BitVec.eq_of_toNat_eq numbers⟩
  · rintro ⟨rfl, rfl⟩
    rfl

/-- No static cell has a symbol of the machine. -/
theorem staticSymbol_not_predefined (unit : String) (index : Word) :
    Template.staticSymbol unit index ∉ SymbolTable.predefinedSymbols.map Prod.fst := by
  have dotted : '.' ∈ (Template.staticSymbol unit index).toList := by
    simp [Template.staticSymbol]
  have plain : ∀ name ∈ SymbolTable.predefinedSymbols.map Prod.fst, '.' ∉ name.toList := by decide
  exact fun member => plain _ member dotted

/-- A program pushes or pops a static cell of a unit. -/
def UsesStatic (sources : List Source) (unit : String) (index : Word) : Prop :=
  ∃ source ∈ sources, source.name = unit ∧
    (.push .static index ∈ source.commands ∨ .pop .static index ∈ source.commands)

/-- A static cell of a unit whose name is a symbol has a symbol. -/
theorem UsesStatic.symbol {sources : List Source} {unit : String} {index : Word}
    (used : UsesStatic sources unit index) (valid : ∀ source ∈ sources, isSymbol source.name) :
    isSymbol (Template.staticSymbol unit index) := by
  obtain ⟨source, present, rfl, -⟩ := used
  exact isSymbol_staticSymbol (valid source present) index

/-- The lines for a command that uses a static cell load its symbol. -/
theorem load_mem_of_static {supply next : LabelSupply} {part : Part} {lines : List AssemblyLine}
    (found : part.lines supply = .ok (lines, next)) {name : String}
    (static : part.static? = some name) : .load (.symbol name) ∈ lines := by
  unfold Part.static? at static
  split at static
  · cases static
    obtain ⟨location, located, rfl, -⟩ := Template.push_ok found
    cases located
    exact List.mem_cons_self
  · cases static
    obtain ⟨location, located, popped, -⟩ := Template.pop_ok found
    cases located
    cases popped
    exact List.mem_append_right _ List.mem_cons_self
  · cases static

/-- A static cell that is used has a block that uses it, and no other name. -/
theorem UsesStatic.exists_block {options : EmissionOptions} {sources : List Source}
    {text unit : String} {index : Word} (used : UsesStatic sources unit index)
    (compiled : (compile options sources).result = .ok text) :
    ∃ before block after, blocks options sources = before ++ block :: after ∧
      block.part.names = [Template.staticSymbol unit index] ∧
      .load (.symbol (Template.staticSymbol unit index)) ∈ block.lines := by
  obtain ⟨-, ⟨last, expanded⟩, -⟩ := compile_ok compiled
  obtain ⟨part, listed, names, static⟩ : ∃ part ∈ parts options sources,
      part.names = [Template.staticSymbol unit index] ∧
        part.static? = some (Template.staticSymbol unit index) := by
    obtain ⟨source, present, rfl, pushed | popped⟩ := used
    · exact ⟨_, mem_parts_iff.mpr (.inr ⟨source, present, _, pushed, rfl⟩), rfl, rfl⟩
    · exact ⟨_, mem_parts_iff.mpr (.inr ⟨source, present, _, popped, rfl⟩), rfl, rfl⟩
  rw [← map_part_of_expand expanded] at listed
  obtain ⟨block, present, rfl⟩ := List.mem_map.mp listed
  obtain ⟨before, after, split⟩ := List.append_of_mem present
  obtain ⟨supply, next, found⟩ := lines_of_split compiled split
  exact ⟨before, block, after, split, names, load_mem_of_static found static⟩

section

variable {options : EmissionOptions} {sources : List Source} {text : String}
  (compiled : (compile options sources).result = .ok text)
  (valid : ∀ source ∈ sources, isSymbol source.name)

include compiled valid

/-- A static cell that is used is loaded by its symbol. -/
theorem UsesStatic.loaded {unit : String} {index : Word} (used : UsesStatic sources unit index) :
    Template.staticSymbol unit index ∈
      (CodeLine.ofText text.toList).filterMap CodeLine.loaded? := by
  have symbol := used.symbol valid
  obtain ⟨before, block, after, split, names, loads⟩ := used.exists_block compiled
  have named : ∀ name ∈ block.part.names, isSymbol name := by
    rw [names]
    exact List.forall_mem_singleton.mpr symbol
  have statement : .load (Template.staticSymbol unit index).toList ∈
      (CodeLine.ofText text.toList).map CodeLine.statement := by
    rw [map_statement_compile compiled split, statementsOf_block compiled split named]
    apply List.mem_append_right
    apply List.mem_append_left
    exact List.mem_filterMap.mpr ⟨_, loads, rfl⟩
  obtain ⟨line, present, found⟩ := List.mem_map.mp statement
  refine List.mem_filterMap.mpr ⟨line, present, ?_⟩
  rw [CodeLine.loaded?, found]
  simp only [AssemblyLine.not_digit_of_isSymbol symbol, Bool.false_eq_true, ↓reduceIte,
    String.ofList_toList]

variable {program : Program} (assembled : Program.assemble text.toList = .ok program)

include assembled

/-- A static cell whose symbol is no label is a variable. -/
theorem UsesStatic.exists_address {unit : String} {index : Word}
    (used : UsesStatic sources unit index)
    (undeclared : Template.staticSymbol unit index ∉
      (CodeLine.ofText text.toList).filterMap CodeLine.declared?) :
    ∃ place address, (Program.variableNames (CodeLine.ofText text.toList))[place]? =
        some (Template.staticSymbol unit index) ∧
      program.symbols[Template.staticSymbol unit index]? = some address ∧
      address.toNat = Program.variableBase + place := by
  have member : Template.staticSymbol unit index ∈
      Program.variableNames (CodeLine.ofText text.toList) := by
    rw [Program.variableNames, Program.variablesMet, List.mem_eraseDups, List.mem_filter,
      decide_eq_true_iff]
    exact ⟨used.loaded compiled valid, staticSymbol_not_predefined unit index, undeclared⟩
  obtain ⟨place, found⟩ := List.getElem?_of_mem member
  obtain ⟨address, bound, value⟩ := Program.address_of_variable assembled found
  exact ⟨place, address, found, bound, value⟩

/-- A static cell that is no label has an address above the registers. -/
theorem UsesStatic.above_registers {unit : String} {index : Word}
    (used : UsesStatic sources unit index)
    (undeclared : Template.staticSymbol unit index ∉
      (CodeLine.ofText text.toList).filterMap CodeLine.declared?) :
    ∃ address : Word, program.symbols[Template.staticSymbol unit index]? = some address ∧
      16 ≤ address.toNat := by
  obtain ⟨place, address, -, bound, value⟩ :=
    used.exists_address compiled valid assembled undeclared
  refine ⟨address, bound, ?_⟩
  rw [value]
  exact Nat.le_add_right _ _

/-- Different static cells have different addresses. -/
theorem UsesStatic.address_inj {unit other : String} {index another : Word}
    (used : UsesStatic sources unit index) (also : UsesStatic sources other another)
    (undeclared : ∀ unit index, UsesStatic sources unit index → Template.staticSymbol unit index ∉
      (CodeLine.ofText text.toList).filterMap CodeLine.declared?) :
    program.symbols[Template.staticSymbol unit index]? =
        program.symbols[Template.staticSymbol other another]? ↔
      unit = other ∧ index = another := by
  constructor
  · intro same
    obtain ⟨place, address, found, bound, value⟩ :=
      used.exists_address compiled valid assembled (undeclared unit index used)
    obtain ⟨second, target, foundToo, boundToo, valueToo⟩ :=
      also.exists_address compiled valid assembled (undeclared other another also)
    rw [bound, boundToo, Option.some.injEq] at same
    rw [same, valueToo, Nat.add_left_cancel_iff] at value
    rw [value, found, Option.some.injEq] at foundToo
    exact staticSymbol_inj.mp foundToo
  · rintro ⟨rfl, rfl⟩
    rfl

end

/-! ## Popping into a static cell -/

namespace Memory

/-- The memory after the top of the stack is popped into a cell. -/
def popInto (memory : Memory) (address : Word) : Memory :=
  memory.drop.write address (memory.drop.read (memory.read Register.stackPointer.address - 1))

variable {memory : Memory} {address : Word}

/-- A value that is popped into a cell is there. -/
theorem read_popInto_self (inside : InRange address) : (memory.popInto address).read address =
    memory.drop.read (memory.read Register.stackPointer.address - 1) :=
  read_write_self inside

/-- A pop into a cell moves the pointer by one. -/
theorem read_popInto_pointer (other : address ≠ Register.stackPointer.address) :
    (memory.popInto address).read Register.stackPointer.address =
      memory.read Register.stackPointer.address - 1 := by
  rw [popInto, read_write_of_ne other, drop, read_write_self (Register.inRange_address _)]

/-- A pop into a cell changes that cell and the pointer only. -/
theorem read_popInto_of_ne {cell : Word} (pointer : cell ≠ Register.stackPointer.address)
    (other : cell ≠ address) : (memory.popInto address).read cell = memory.read cell := by
  rw [popInto, read_write_of_ne other.symm, drop, read_write_of_ne pointer.symm]

end Memory

/-- Nothing is asked of the stack but that the popped cell is in the memory. -/
theorem Template.execute_popNamed {symbols : SymbolTable} {memory : Memory} {a d : Word}
    {name : String} {address : Word} (bound : symbols.getD name 0 = address)
    (popped : Memory.InRange (memory.read Register.stackPointer.address - 1))
    (inside : Memory.InRange address) :
    execute symbols (popD ++ [symbol name, .compute "M=D"]) ⟨memory, a, d⟩ =
      some ⟨memory.popInto address, address,
        memory.drop.read (memory.read Register.stackPointer.address - 1)⟩ := by
  have pointer := Register.inRange_address .stackPointer
  rw [popD, List.cons_append, execute_cell, List.cons_append,
    execute_compute rfl fun _ => pointer]
  change execute symbols [.compute "D=M", symbol name, .compute "M=D"]
    ⟨memory.drop, memory.read Register.stackPointer.address - 1, d⟩ = _
  rw [execute_fetchD rfl popped, execute_symbol, bound, execute_store rfl inside]
  rfl

section

variable {options : EmissionOptions} {sources : List Source} {text : String} {program : Program}
  (compiled : (compile options sources).result = .ok text)
  (assembled : Program.assemble text.toList = .ok program)
  (valid : ∀ source ∈ sources, isSymbol source.name)
  {before after : List Block} {block : Block}
  (split : blocks options sources = before ++ block :: after)
  {unit : String} {index : Word} (part : block.part = .command unit (.pop .static index))

include compiled split part

/-- A block that pops into a static cell uses it. -/
theorem usesStatic_of_block : UsesStatic sources unit index := by
  have listed := part_mem_of_split compiled split
  rw [part, mem_parts_iff] at listed
  rcases listed with ⟨-, other⟩ | ⟨source, present, command, among, same⟩
  · cases other
  · cases same
    exact ⟨source, present, rfl, .inr among⟩

/-- A pop into a static cell stores the value under its symbol. -/
theorem lines_of_popStatic : block.lines = Template.popD ++
    [Template.symbol (Template.staticSymbol unit index), .compute "M=D"] := by
  obtain ⟨supply, next, found⟩ := lines_of_split compiled split
  rw [part] at found
  obtain ⟨location, located, popped, -⟩ := Template.pop_ok found
  cases located
  exact (Except.ok.inj popped).symm

include assembled valid

/-- A computer that stands before a command that pops into a static cell does so in five steps. -/
theorem straight_popStatic {computer : Computer}
    (running : computer.program = program.instructions)
    (counter : computer.counter = program.writtenSize options.annotate before)
    {address : Word} (bound : program.symbols[Template.staticSymbol unit index]? = some address)
    (popped : Memory.InRange (computer.memory.read Register.stackPointer.address - 1))
    (inside : Memory.InRange address) :
    ∃ last, Computer.Straight 5 computer last ∧ last.memory = computer.memory.popInto address := by
  have symbol := (usesStatic_of_block compiled split part).symbol valid
  have named : ∀ name ∈ block.part.names, isSymbol name := by
    rw [part]
    exact List.forall_mem_singleton.mpr symbol
  have lines := lines_of_popStatic compiled split part
  have place := before_block compiled split named assembled running counter
  have value : program.symbols.getD (Template.staticSymbol unit index) 0 = address := by
    rw [Std.TreeMap.getD_eq_getD_getElem?, bound, Option.getD_some]
  rw [lines, ← List.append_nil (_ ++ _)] at place
  obtain ⟨last, straight, data, -⟩ := Computer.straight_of_execute place
    (Template.execute_popNamed value popped inside)
  exact ⟨last, straight, congrArg MachineData.memory data⟩

end

/-- **Static cells are apart.** In a program that is compiled from units whose names are symbols and
that assembles, and where no label has the symbol of a static cell that is used, two static cells
have the same address only if they have the same unit and the same index. All of their addresses
are those of variables, above the registers. Popping into a static cell changes the cell and the
stack pointer, and nothing else. -/
theorem static_cells_apart {options : EmissionOptions} {sources : List Source} {text : String}
    {program : Program} (compiled : (compile options sources).result = .ok text)
    (assembled : Program.assemble text.toList = .ok program)
    (valid : ∀ source ∈ sources, isSymbol source.name)
    (undeclared : ∀ unit index, UsesStatic sources unit index → Template.staticSymbol unit index ∉
      (CodeLine.ofText text.toList).filterMap CodeLine.declared?) :
    (∀ unit other index another, UsesStatic sources unit index → UsesStatic sources other another →
      (program.symbols[Template.staticSymbol unit index]? =
          program.symbols[Template.staticSymbol other another]? ↔
        unit = other ∧ index = another)) ∧
    (∀ unit index, UsesStatic sources unit index → ∃ address : Word,
      program.symbols[Template.staticSymbol unit index]? = some address ∧ 16 ≤ address.toNat) ∧
    ∀ before block after unit index address (computer : Computer),
      blocks options sources = before ++ block :: after →
      block.part = .command unit (.pop .static index) →
      program.symbols[Template.staticSymbol unit index]? = some address →
      computer.program = program.instructions →
      computer.counter = program.writtenSize options.annotate before →
      Memory.InRange (computer.memory.read Register.stackPointer.address - 1) →
      Memory.InRange address →
        ∃ last, Computer.Straight 5 computer last ∧
          last.memory.read Register.stackPointer.address =
            computer.memory.read Register.stackPointer.address - 1 ∧
          last.memory.read address = computer.memory.drop.read
            (computer.memory.read Register.stackPointer.address - 1) ∧
          ∀ cell, cell ≠ Register.stackPointer.address → cell ≠ address →
            last.memory.read cell = computer.memory.read cell := by
  have high : ∀ unit index, UsesStatic sources unit index → ∃ address : Word,
      program.symbols[Template.staticSymbol unit index]? = some address ∧ 16 ≤ address.toNat := by
    intro unit index used
    exact used.above_registers compiled valid assembled (undeclared unit index used)
  refine ⟨?_, high, ?_⟩
  · intro unit other index another used also
    exact used.address_inj compiled valid assembled also undeclared
  · intro before block after unit index address computer split part bound running counter popped
      inside
    obtain ⟨last, straight, memory⟩ := straight_popStatic compiled assembled valid split part
      running counter bound popped inside
    have other : address ≠ Register.stackPointer.address := by
      obtain ⟨found, same, above⟩ := high unit index (usesStatic_of_block compiled split part)
      cases bound.symm.trans same
      rintro rfl
      exact absurd above (by decide)
    refine ⟨last, straight, ?_, ?_, ?_⟩
    · rw [memory, Memory.read_popInto_pointer other]
    · rw [memory, Memory.read_popInto_self inside]
    · intro cell pointer different
      rw [memory, Memory.read_popInto_of_ne pointer different]

/-- Two units, of which one has the name that the other's first cells start with. -/
def dottedSources : List Source :=
  [⟨"A", "pop static 10"⟩, ⟨"A.1", "pop static 0"⟩]

theorem readable_dottedSources :
    Command.readAll "pop static 10".toList = .ok [⟨⟨0, 13⟩, .pop .static 10⟩] ∧
      Command.readAll "pop static 0".toList = .ok [⟨⟨0, 12⟩, .pop .static 0⟩] := by
  constructor
  · have free : ∀ line ∈ Text.locatedLines "pop static 10".toList, '/' ∉ line.code := by decide
    rw [Command.readAll, Command.readings_of_free free]
    decide
  · have free : ∀ line ∈ Text.locatedLines "pop static 0".toList, '/' ∉ line.code := by decide
    rw [Command.readAll, Command.readings_of_free free]
    decide

theorem parts_dottedSources : parts ⟨false, "", false⟩ dottedSources =
    [.command "A" (.pop .static 10), .command "A.1" (.pop .static 0)] := by
  simp only [parts, dottedSources, List.flatMap_cons, List.flatMap_nil, Source.parts,
    Source.commands, readable_dottedSources]
  rfl

/-- The two pops compile to stores under two symbols. -/
theorem compile_dottedSources : ∃ text,
    (compile ⟨false, "", false⟩ dottedSources).result = .ok text ∧ text.toList =
      "@SP\nAM=M-1\nD=M\n@A.10\nM=D\n@SP\nAM=M-1\nD=M\n@A.1.0\nM=D\n".toList := by
  have readable : ∀ source ∈ dottedSources,
      ∃ located, Command.readAll source.text.toList = .ok located := by
    rw [dottedSources, List.forall_mem_cons, List.forall_mem_singleton]
    exact ⟨⟨_, readable_dottedSources.1⟩, ⟨_, readable_dottedSources.2⟩⟩
  obtain ⟨text, compiled⟩ := compile_succeeds readable
    (by rw [parts_dottedSources]; exact ⟨_, rfl⟩)
  refine ⟨text, compiled, ?_⟩
  rw [(compile_ok compiled).2.2, blocks, parts_dottedSources]
  decide +kernel

/-- The program of the two units, when `A.10` is popped into and the stack pointer is 257. -/
theorem static_cells_apart_dottedSources : ∃ text program,
    (compile ⟨false, "", false⟩ dottedSources).result = .ok text ∧
      Program.assemble text.toList = .ok program ∧
      program.symbols["A.10"]? ≠ program.symbols["A.1.0"]? ∧
      ∃ last, Computer.Straight 5
          ⟨program.instructions, Memory.zeroed.write 0 257, 0, 0, 0, 0⟩ last ∧
        last.memory.read 0 = 256 ∧ ∀ cell, cell ≠ 0 → cell ≠ 16 → last.memory.read cell = 0 := by
  obtain ⟨text, compiled, written⟩ := compile_dottedSources
  obtain ⟨program, assembled⟩ : ∃ program, Program.assemble text.toList = .ok program := by
    rw [written]
    exact ⟨_, rfl⟩
  have valid : ∀ source ∈ dottedSources, isSymbol source.name := by decide
  have undeclared : ∀ unit index, UsesStatic dottedSources unit index →
      Template.staticSymbol unit index ∉
        (CodeLine.ofText text.toList).filterMap CodeLine.declared? := by
    have none : (CodeLine.ofText text.toList).filterMap CodeLine.declared? = [] := by
      rw [written]
      decide +kernel
    rw [none]
    exact fun _ _ _ => List.not_mem_nil
  obtain ⟨apart, -, popping⟩ := static_cells_apart compiled assembled valid undeclared
  refine ⟨text, program, compiled, assembled, ?_, ?_⟩
  · have first : UsesStatic dottedSources "A" 10 := by
      refine ⟨_, List.mem_cons_self, rfl, .inr ?_⟩
      rw [Source.commands, readable_dottedSources.1]
      exact List.mem_cons_self
    have second : UsesStatic dottedSources "A.1" 0 := by
      refine ⟨_, List.mem_cons_of_mem _ List.mem_cons_self, rfl, .inr ?_⟩
      rw [Source.commands, readable_dottedSources.2]
      exact List.mem_cons_self
    exact mt (apart "A" "A.1" 10 0 first second).mp (by decide)
  · have found : (Program.variableNames (CodeLine.ofText text.toList))[0]? = some "A.10" := by
      rw [written]
      decide +kernel
    obtain ⟨address, bound, value⟩ := Program.address_of_variable assembled found
    have sixteen : address = 16 := BitVec.eq_of_toNat_eq value
    subst sixteen
    have pointer : (Memory.zeroed.write 0 257).read 0 = 257 := Memory.read_write_self (by decide)
    obtain ⟨last, straight, lowered, -, kept⟩ := popping []
      ⟨.command "A" (.pop .static 10), Template.popD ++ [Template.symbol "A.10", .compute "M=D"]⟩
      [⟨.command "A.1" (.pop .static 0),
        Template.popD ++ [Template.symbol "A.1.0", .compute "M=D"]⟩] "A" 10 16
      ⟨program.instructions, Memory.zeroed.write 0 257, 0, 0, 0, 0⟩
      (by rw [blocks, parts_dottedSources]; rfl) rfl bound rfl rfl
      (show Memory.InRange ((Memory.zeroed.write 0 257).read 0 - 1) by rw [pointer]; decide)
      (by decide)
    refine ⟨last, straight, lowered.trans (congrArg (· - 1) pointer), ?_⟩
    intro cell other different
    rw [kept cell other different]
    change (Memory.zeroed.write 0 257).read cell = 0
    rw [Memory.read_write_of_ne other.symm, Memory.read]
    split
    · exact Vector.getElem_replicate _
    · rfl

end HackToolchain
