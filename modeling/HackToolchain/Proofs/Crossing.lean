import HackToolchain.Proofs.TemplateEffects

/-! # Crossing a block

The code of a part does what the part means. A computer that stands at the start of a block crosses
it (`Crosses`): it runs until its program counter is not inside the block any more, and then stands
at the start of the part that follows, with the memory that the stack machine has after the part
(`AtBlock.crossesTo`), up to the scratch cells.
-/

namespace HackToolchain

/-- The program of the stack machine that some blocks stand for, with the addresses of an assembled
program. -/
def stackProgram (blocks : List Block) (program : Program) : StackProgram where
  parts := blocks.map Block.part
  address := blockStart blocks
  static name := program.symbols.getD name 0

/-- The memory while the code of a part uses the scratch cells. -/
def StackProgram.marked (program : StackProgram) (memory : Memory) : Part → Memory
  | .command unit (.pop segment index) =>
    match Template.base? segment, program.segmentCell? memory unit index segment with
    | some _, some cell => memory.write Register.scratch.address cell
    | _, _ => memory
  | .command _ .return => memory.keepReturn
  | _ => memory

/-- The program counter of a computer goes from the start of a block until it is not inside the
block any more; a block without instructions is crossed at once. -/
def Crosses (blocks : List Block) (index : Nat) (first last : Computer) : Prop :=
  first.counter = blockStart blocks index ∧
    (blockStart blocks index < blockStart blocks (index + 1) ∧
        Computer.Passes (blockStart blocks index) (blockStart blocks (index + 1)) first last ∨
      blockStart blocks (index + 1) = blockStart blocks index ∧ last = first)

/-- A computer that crosses a block reaches what comes after it. -/
theorem Crosses.reaches {blocks : List Block} {index : Nat} {first last : Computer}
    (crosses : Crosses blocks index first last) : first.Reaches last := by
  rcases crosses.2 with ⟨-, passes⟩ | ⟨-, rfl⟩
  · exact passes.reaches
  · exact Relation.ReflTransGen.refl

/-- A block is crossed in one way. -/
theorem Crosses.unique {blocks : List Block} {index : Nat} {first middle last : Computer}
    (left : Crosses blocks index first middle) (right : Crosses blocks index first last) :
    middle = last := by
  rcases left.2 with ⟨nonempty, passes⟩ | ⟨empty, rfl⟩
  · rcases right.2 with ⟨-, others⟩ | ⟨empty, -⟩
    · exact passes.unique others
    · omega
  · rcases right.2 with ⟨nonempty, -⟩ | ⟨-, rfl⟩
    · omega
    · rfl

/-! ## Where blocks start -/

/-- Later blocks start later. -/
theorem blockStart_mono (blocks : List Block) {first second : Nat} (order : first ≤ second) :
    blockStart blocks first ≤ blockStart blocks second := by
  obtain ⟨count, rfl⟩ := Nat.exists_eq_add_of_le order
  rw [blockStart, blockStart, List.take_add, codeSize_append]
  exact Nat.le_add_right _ _

/-- The start of a block is not inside any block. -/
theorem blockStart_outside (blocks : List Block) (index other : Nat) :
    ¬(blockStart blocks index < blockStart blocks other ∧
      blockStart blocks other < blockStart blocks (index + 1)) := by
  rintro ⟨above, below⟩
  rcases Nat.lt_or_ge index other with later | earlier
  · have order : blockStart blocks (index + 1) ≤ blockStart blocks other :=
      blockStart_mono blocks later
    omega
  · have order := blockStart_mono blocks earlier
    omega

/-- The lines of a part that declares a name start with the label. -/
theorem declared_lines {part : Part} {supply next : LabelSupply} {lines : List AssemblyLine}
    (found : part.lines supply = .ok (lines, next)) {name : String}
    (declared : part.declared? = some name) : ∃ rest, lines = .label name :: rest := by
  cases part with
  | bootstrap entry => cases declared
  | command unit given =>
    cases given with
    | label other =>
      cases declared
      cases found
      exact ⟨[], rfl⟩
    | function other locals =>
      cases declared
      cases found
      exact ⟨_, rfl⟩
    | _ => cases declared

namespace Linked

variable {blocks : List Block} {program : Program}

/-- A declared name has the address of the block that declares it. -/
theorem getD_of_declares (linked : Linked blocks program)
    (lines : ∀ block ∈ blocks, ∃ before after, block.part.lines before = .ok (block.lines, after))
    {index : Nat} {name : String} (declares : (stackProgram blocks program).Declares index name) :
    (program.symbols.getD name 0).toNat = blockStart blocks index := by
  rw [StackProgram.Declares, stackProgram, List.getElem?_map, Option.bind_eq_some_iff] at declares
  obtain ⟨part, listed, declared⟩ := declares
  obtain ⟨block, found, rfl⟩ := Option.map_eq_some_iff.mp listed
  obtain ⟨before, after, written⟩ := lines block (List.mem_of_getElem? found)
  obtain ⟨rest, split⟩ := declared_lines written declared
  obtain ⟨address, bound, start⟩ := linked.address_label found
    (show block.lines = [] ++ .label name :: rest from split)
  rw [Std.TreeMap.getD_eq_getD_getElem?, bound, Option.getD_some, start]
  rfl

end Linked

/-! ## Comparisons in a program -/

namespace Template

/-- The lines of a comparison before its first label. -/
def compareFirst (labels : ComparisonLabels) (jump : String) : List AssemblyLine :=
  compareSetup labels ++ .compute jump ::
    (compareStore "M=0" ++ [symbol labels.done, .compute "0;JMP"])

/-- The first label of a comparison comes before the answer that it holds. -/
theorem comparison_at_holds (labels : ComparisonLabels) (jump : String) :
    comparison labels jump = compareFirst labels jump ++ .label labels.holds ::
      (compareStore "M=-1" ++ [.label labels.done]) := by
  rw [comparison_eq, compareFirst]
  simp

/-- The other label of a comparison is at its end. -/
theorem comparison_at_done (labels : ComparisonLabels) (jump : String) :
    comparison labels jump = (compareFirst labels jump ++ .label labels.holds ::
      compareStore "M=-1") ++ .label labels.done :: [] := by
  rw [comparison_at_holds]
  simp

/-- There are twelve instructions before the first label of a comparison. -/
theorem countP_before_holds (labels : ComparisonLabels) (jump : String) :
    (compareFirst labels jump).countP AssemblyLine.isInstruction = 12 := rfl

/-- There are fifteen instructions before the other label of a comparison. -/
theorem countP_before_done (labels : ComparisonLabels) (jump : String) :
    (compareFirst labels jump ++ .label labels.holds :: compareStore "M=-1").countP
      AssemblyLine.isInstruction = 15 := rfl

/-- A comparison has fifteen instructions. -/
theorem countP_comparison (labels : ComparisonLabels) (jump : String) :
    (comparison labels jump).countP AssemblyLine.isInstruction = 15 := rfl

end Template

namespace Computer

section

variable {symbols : SymbolTable} {computer : Computer} {labels : ComparisonLabels} {text : String}
  {jump : Jump} (before : computer.Before symbols (Template.comparison labels text))
  (decoded : Template.instruction? text = some (.compute {} .address .d jump))
  (room : IsStackCell (computer.memory.read Register.stackPointer.address - 1))
  (second : IsStackCell (computer.memory.read Register.stackPointer.address - 1 - 1))

include before decoded room second

/-- A comparison takes the upper operand off the stack and branches on the difference. -/
theorem branches_comparison : ∃ middle chosen, Straight 6 computer middle ∧
    middle.Executes chosen ∧
    chosen.data = ⟨computer.memory.drop, symbols.getD labels.holds 0, computer.memory.read
      (computer.memory.read Register.stackPointer.address - 1 - 1) - computer.memory.top⟩ ∧
    (jump.taken (computer.memory.read (computer.memory.read Register.stackPointer.address - 1 - 1) -
        computer.memory.top) → chosen.counter = (symbols.getD labels.holds 0).toNat) ∧
    (¬jump.taken (computer.memory.read
        (computer.memory.read Register.stackPointer.address - 1 - 1) - computer.memory.top) →
      chosen.counter = computer.counter + 7 ∧
      chosen.Before symbols (Template.compareStore "M=0" ++ [Template.symbol labels.done] ++
        .compute "0;JMP" :: .label labels.holds ::
          (Template.compareStore "M=-1" ++ [.label labels.done]))) := by
  rw [Template.comparison_eq] at before
  obtain ⟨middle, setup, compared, atJump⟩ :=
    straight_of_execute before (Template.execute_compareSetup room second)
  obtain ⟨chosen, branches, kept, counter⟩ := executes_jump atJump decoded
  have position : middle.counter = computer.counter + 6 := setup.counter_eq
  have difference : middle.d = _ := congrArg MachineData.d compared
  have address : middle.a = _ := congrArg MachineData.a compared
  rw [Computation.eval, difference, address, position] at counter
  refine ⟨middle, chosen, setup, branches, kept.trans compared, ?_, ?_⟩
  · intro taken
    rw [counter, if_pos taken]
  · intro fails
    rw [if_neg fails] at counter
    refine ⟨counter, atJump.tail (Template.decode_of_instruction? decoded) branches.program_eq ?_⟩
    rw [counter, position]

/-- A comparison that holds goes to its second store, which ends the code. -/
theorem passes_comparison_of_taken
    (sound : ∀ line ∈ Template.comparison labels text, line.Sound fun name => isSymbol name)
    (taken : jump.taken (computer.memory.read
      (computer.memory.read Register.stackPointer.address - 1 - 1) - computer.memory.top))
    (holds : (symbols.getD labels.holds 0).toNat = computer.counter + 12) :
    ∃ last, Passes computer.counter (computer.counter + 15) computer last ∧
      last.counter = computer.counter + 15 ∧ last.memory = computer.memory.drop.write
        (computer.memory.read Register.stackPointer.address - 1 - 1) (-1) := by
  obtain ⟨middle, chosen, setup, branches, data, target, -⟩ :=
    branches_comparison before decoded room second
  have counter := (target taken).trans holds
  rw [Template.comparison_at_holds] at before sound
  have atLabel := before.further (fun line member => sound line (List.mem_append_left _ member))
    (branches.program_eq.trans setup.program_eq) counter
  obtain ⟨last, stores, stored, -⟩ := straight_of_execute (atLabel.skip rfl)
    ((congrArg _ data).trans (Template.execute_compareStore rfl (fun _ _ => rfl) second))
  have ends : last.counter = chosen.counter + 3 := stores.counter_eq
  have rest : Passes computer.counter (computer.counter + 15) chosen last :=
    (show Straight (2 + 1) chosen last from stores).crosses (by omega) (by omega)
  refine ⟨last, ?_, by omega, congrArg MachineData.memory stored⟩
  exact setup.passes (Nat.le_refl _) (by omega) (.stay branches (by omega) (by omega) rest)

/-- A comparison that does not hold goes on to its first store, and jumps to its end. -/
theorem passes_comparison_of_not_taken
    (fails : ¬jump.taken (computer.memory.read
      (computer.memory.read Register.stackPointer.address - 1 - 1) - computer.memory.top))
    (done : computer.counter + 15 ≤ (symbols.getD labels.done 0).toNat) :
    ∃ last, Passes computer.counter (computer.counter + 15) computer last ∧
      last.counter = (symbols.getD labels.done 0).toNat ∧ last.memory = computer.memory.drop.write
        (computer.memory.read Register.stackPointer.address - 1 - 1) 0 := by
  obtain ⟨middle, chosen, setup, branches, data, -, next⟩ :=
    branches_comparison before decoded room second
  obtain ⟨counter, atStore⟩ := next fails
  obtain ⟨stored, stores, result, atEnd⟩ := straight_of_execute atStore
    ((congrArg _ data).trans (Template.execute_compareFails second))
  obtain ⟨last, jumps, unchanged, landing⟩ := executes_jump atEnd rfl
  have finish : stored.a = symbols.getD labels.done 0 := congrArg MachineData.a result
  rw [Jump.taken, if_pos rfl, finish] at landing
  refine ⟨last, ?_, landing, congrArg MachineData.memory (unchanged.trans result)⟩
  refine setup.passes (Nat.le_refl _) (by omega) (.stay branches (by omega) (by omega) ?_)
  refine stores.passes (by omega) ?_ (.leave jumps (by omega))
  change chosen.counter + 4 < _
  omega

/-- A comparison whose labels have the right addresses stores whether the difference of its operands
makes the jump, and ends after its last instruction. -/
theorem passes_comparison
    (sound : ∀ line ∈ Template.comparison labels text, line.Sound fun name => isSymbol name)
    (holds : (symbols.getD labels.holds 0).toNat = computer.counter + 12)
    (done : (symbols.getD labels.done 0).toNat = computer.counter + 15) :
    ∃ last, Passes computer.counter (computer.counter + 15) computer last ∧
      last.counter = computer.counter + 15 ∧ last.memory = computer.memory.binary
        fun lower upper => Word.ofBool (jump.taken (lower - upper)) := by
  by_cases taken : jump.taken (computer.memory.read
      (computer.memory.read Register.stackPointer.address - 1 - 1) - computer.memory.top)
  · obtain ⟨last, passes, counter, memory⟩ :=
      passes_comparison_of_taken before decoded room second sound taken holds
    refine ⟨last, passes, counter, ?_⟩
    rw [memory, Memory.binary, taken]
    rfl
  · obtain ⟨last, passes, counter, memory⟩ :=
      passes_comparison_of_not_taken before decoded room second taken done.ge
    refine ⟨last, passes, counter.trans done, ?_⟩
    rw [memory, Memory.binary, eq_false_of_ne_true taken]
    rfl

end

end Computer

/-- A computer that runs a linked program and stands at the start of a block. -/
structure AtBlock (blocks : List Block) (program : Program) (index : Nat) (block : Block)
    (computer : Computer) : Prop where
  linked : Linked blocks program
  found : blocks[index]? = some block
  running : computer.program = program.instructions
  start : computer.counter = blockStart blocks index

/-- A computer crosses a block to the start of another block, and has a certain memory then. -/
def CrossesTo (blocks : List Block) (index : Nat) (computer : Computer) (next : Nat)
    (memory : Memory) : Prop :=
  ∃ last, Crosses blocks index computer last ∧ last.counter = blockStart blocks next ∧
    last.memory = memory

namespace AtBlock

variable {blocks : List Block} {program : Program} {index next : Nat} {block : Block}
  {computer : Computer}

theorem before (located : AtBlock blocks program index block computer) :
    computer.Before program.symbols block.lines :=
  located.linked.before located.found located.running located.start

/-! ## Straight code and jumps -/

/-- A block of straight code is crossed from its start to its end. -/
theorem crossesTo_of_straight (located : AtBlock blocks program index block computer)
    {straight : List AssemblyLine} (lines : block.lines = straight) {memory : Memory} {a d : Word}
    (executed : execute program.symbols straight computer.data = some ⟨memory, a, d⟩)
    (nonempty : 0 < straight.countP AssemblyLine.isInstruction) :
    CrossesTo blocks index computer (index + 1) memory := by
  subst lines
  have before := located.before
  rw [← List.append_nil block.lines] at before
  obtain ⟨last, straight, same, -⟩ := Computer.straight_of_execute before executed
  have start := located.start
  have size := blockStart_succ located.found
  obtain ⟨count, positive⟩ := Nat.exists_eq_add_of_lt nonempty
  rw [Nat.zero_add] at positive
  have counter := straight.counter_eq
  rw [positive] at straight size counter
  refine ⟨last, ⟨start, .inl ⟨by omega, straight.crosses (by omega) (by omega)⟩⟩, by omega, ?_⟩
  exact congrArg MachineData.memory same

/-- A block that ends with a jump is crossed to where the jump goes. -/
theorem crossesTo_of_jump (located : AtBlock blocks program index block computer)
    {setup rest : List AssemblyLine} {text : String} {computation : Computation} {jump : Jump}
    (lines : block.lines = setup ++ .compute text :: rest)
    (ends : rest.countP AssemblyLine.isInstruction = 0)
    (decoded : Template.instruction? text = some (.compute {} .address computation jump))
    {memory : Memory} {a d : Word}
    (executed : execute program.symbols setup computer.data = some ⟨memory, a, d⟩)
    (target : (if jump.taken (computation.eval d a) then a.toNat
      else blockStart blocks (index + 1)) = blockStart blocks next) :
    CrossesTo blocks index computer next memory := by
  have before := located.before
  rw [lines] at before
  obtain ⟨middle, straight, same, after⟩ := Computer.straight_of_execute before executed
  obtain ⟨last, executes, kept, counter⟩ := Computer.executes_jump after decoded
  have start := located.start
  have size := blockStart_succ located.found
  rw [lines, List.countP_append, List.countP_cons_of_pos (by rfl), ends] at size
  have position := straight.counter_eq
  have high : middle.counter + 1 = blockStart blocks (index + 1) := by omega
  have landing : last.counter = blockStart blocks next := by
    have left : middle.a = a := congrArg MachineData.a same
    have right : middle.d = d := congrArg MachineData.d same
    rw [counter, ← target, high, left, right]
  refine ⟨last, ⟨start, .inl ⟨by omega, ?_⟩⟩, landing,
    congrArg MachineData.memory (kept.trans same)⟩
  refine straight.passes (by omega) (by omega) (.leave executes ?_)
  rw [landing]
  exact blockStart_outside blocks index next

/-- A block without instructions is crossed at once. -/
theorem crossesTo_of_empty (located : AtBlock blocks program index block computer)
    (empty : block.lines.countP AssemblyLine.isInstruction = 0) :
    CrossesTo blocks index computer (index + 1) computer.memory := by
  have size := blockStart_succ located.found
  rw [empty, Nat.add_zero] at size
  exact ⟨computer, ⟨located.start, .inr ⟨size, rfl⟩⟩, located.start.trans size.symm, rfl⟩

theorem sound (located : AtBlock blocks program index block computer) :
    ∀ line ∈ block.lines, line.Sound fun name => isSymbol name := by
  intro line member
  exact located.linked.sound line
    (List.mem_flatMap.mpr ⟨block, List.mem_of_getElem? located.found, member⟩)

/-- A label in a block stands for the address of the instruction after it. -/
theorem getD_label (located : AtBlock blocks program index block computer)
    {first rest : List AssemblyLine} {name : String}
    (lines : block.lines = first ++ .label name :: rest) :
    (program.symbols.getD name 0).toNat =
      blockStart blocks index + first.countP AssemblyLine.isInstruction := by
  obtain ⟨address, bound, value⟩ := located.linked.address_label located.found lines
  rw [Std.TreeMap.getD_eq_getD_getElem?, bound, Option.getD_some, value]

/-! ## Comparisons -/

/-- A comparison stores whether the difference of its operands makes the jump. -/
theorem crossesTo_comparison (located : AtBlock blocks program index block computer)
    {labels : ComparisonLabels} {text : String} {jump : Jump}
    (lines : block.lines = Template.comparison labels text)
    (decoded : Template.instruction? text = some (.compute {} .address .d jump))
    (room : IsStackCell (computer.memory.read Register.stackPointer.address - 1))
    (second : IsStackCell (computer.memory.read Register.stackPointer.address - 1 - 1)) :
    CrossesTo blocks index computer (index + 1) (computer.memory.binary fun lower upper =>
      Word.ofBool (jump.taken (lower - upper))) := by
  have start := located.start
  have size := blockStart_succ located.found
  rw [lines, Template.countP_comparison] at size
  have before := located.before
  have sound := located.sound
  rw [lines] at before sound
  have holds := located.getD_label (lines.trans (Template.comparison_at_holds labels text))
  have done := located.getD_label (lines.trans (Template.comparison_at_done labels text))
  rw [Template.countP_before_holds, ← start] at holds
  rw [Template.countP_before_done, ← start] at done
  obtain ⟨last, passes, counter, memory⟩ :=
    Computer.passes_comparison before decoded room second sound holds done
  rw [start, ← size] at passes counter
  exact ⟨last, ⟨start, .inl ⟨by omega, passes⟩⟩, counter, memory⟩

/-! ## Commands on the stack -/

/-- An operator with one operand replaces the value on top of the stack. -/
theorem crossesTo_unary (located : AtBlock blocks program index block computer) {text : String}
    (lines : block.lines = Template.unary text) {computation : Computation} {result : Word → Word}
    (found : Template.instruction? text = some (.compute { m := true } .memory computation .never))
    (computes : ∀ d value, computation.eval d value = result value)
    (room : IsStackCell (computer.memory.read Register.stackPointer.address - 1)) :
    CrossesTo blocks index computer (index + 1) (computer.memory.unary result) :=
  located.crossesTo_of_straight lines (Template.execute_unary found computes room)
    (Nat.succ_pos _)

/-- An operator with two operands replaces the two values on top of the stack. -/
theorem crossesTo_binary (located : AtBlock blocks program index block computer) {text : String}
    (lines : block.lines = Template.binary text) {computation : Computation}
    {result : Word → Word → Word}
    (found : Template.instruction? text = some (.compute { m := true } .memory computation .never))
    (computes : ∀ upper lower, computation.eval upper lower = result lower upper)
    (room : IsStackCell (computer.memory.read Register.stackPointer.address - 1))
    (second : IsStackCell (computer.memory.read Register.stackPointer.address - 1 - 1)) :
    CrossesTo blocks index computer (index + 1) (computer.memory.binary result) :=
  located.crossesTo_of_straight lines (Template.execute_binary found computes room second)
    (Nat.succ_pos _)

/-- An operator does on the computer what it does on the stack. -/
theorem crossesTo_operator (located : AtBlock blocks program index block computer)
    {supply : LabelSupply} {op : Operator} (lines : block.lines = (Template.operator supply op).1)
    {unit : String}
    (fits : (stackProgram blocks program).Fits computer.memory (.command unit (.operator op))) :
    CrossesTo blocks index computer (index + 1) (op.apply computer.memory) := by
  have first := fits.upper
  have second := fits.lower
  have compared : ∀ (text : String) (jump : Jump),
      block.lines = Template.comparison (LabelSupply.comparisonLabels supply.comparisons) text →
      Template.instruction? text = some (.compute {} .address .d jump) → ¬op.isUnary →
      CrossesTo blocks index computer (index + 1) (computer.memory.binary fun lower upper =>
        Word.ofBool (jump.taken (lower - upper))) := by
    intro text jump same decoded two
    exact located.crossesTo_comparison same decoded first (second two)
  cases op with
  | add =>
    exact located.crossesTo_binary lines rfl (fun _ _ => BitVec.add_comm _ _) first (second nofun)
  | sub => exact located.crossesTo_binary lines rfl (fun _ _ => rfl) first (second nofun)
  | and =>
    exact located.crossesTo_binary lines rfl (fun _ _ => BitVec.and_comm _ _) first (second nofun)
  | or =>
    exact located.crossesTo_binary lines rfl (fun _ _ => BitVec.or_comm _ _) first (second nofun)
  | neg => exact located.crossesTo_unary lines rfl (fun _ _ => rfl) first
  | not => exact located.crossesTo_unary lines rfl (fun _ _ => rfl) first
  | eq => exact compared "D;JEQ" .eq lines rfl nofun
  | gt => exact compared "D;JGT" .gt lines rfl nofun
  | lt => exact compared "D;JLT" .lt lines rfl nofun

/-- The cell of a location is the cell of the segment that it was found for. -/
theorem cell?_of_locate (blocks : List Block) (program : Program) (memory : Memory) {unit : String}
    {segment : Segment} {index : Word} {location : Template.Location}
    (found : Template.locate unit segment index = .ok location) :
    location.cell? program.symbols memory =
      (stackProgram blocks program).segmentCell? memory unit index segment := by
  rcases Template.locate_ok found with ⟨rfl, rfl⟩ | ⟨base, start, rfl, -⟩ |
    ⟨rfl, ⟨rfl, rfl⟩ | ⟨rfl, rfl⟩⟩ | ⟨rfl, rfl⟩
  · rfl
  · cases segment <;> cases start <;> rfl
  · rfl
  · rfl
  · rfl

/-- A constant stands for its index. -/
theorem constant_of_locate {unit : String} {segment : Segment} {index value : Word}
    (found : Template.locate unit segment index = .ok (.constant value)) : value = index := by
  rcases Template.locate_ok found with ⟨-, equal⟩ | ⟨_, -, equal, -⟩ |
    ⟨-, ⟨-, equal⟩ | ⟨-, equal⟩⟩ | ⟨-, equal⟩ <;> cases equal
  rfl

/-- A push does on the computer what it does on the stack. -/
theorem crossesTo_push (located : AtBlock blocks program index block computer)
    {unit : String} {segment : Segment} {offset : Word} {supply after : LabelSupply}
    (lines : Template.command unit supply (.push segment offset) = .ok (block.lines, after))
    (fits : (stackProgram blocks program).Fits computer.memory
      (.command unit (.push segment offset))) (address : Word) :
    CrossesTo blocks index computer (index + 1) ((stackProgram blocks program).perform address
      computer.memory (.command unit (.push segment offset))) := by
  obtain ⟨location, found, same, -⟩ := Template.push_ok lines
  have nonempty : 0 < (Template.pushFrom location).countP AssemblyLine.isInstruction := by
    refine List.countP_pos_iff.mpr ⟨Template.cell .stackPointer, ?_, rfl⟩
    cases location <;> simp [Template.pushFrom, Template.pushD]
  have room := fits.stack _ (List.mem_singleton.mpr rfl)
  have cell := cell?_of_locate blocks program computer.memory found
  rw [StackProgram.perform, ← cell]
  cases known : location.cell? program.symbols computer.memory with
  | none =>
    cases location with
    | constant value =>
      obtain ⟨a, d, executed⟩ := Template.execute_pushConstant value room
      rw [← constant_of_locate found]
      exact located.crossesTo_of_straight same executed nonempty
    | indexed _ _ | named _ => cases known
  | some target =>
    have inside := fits.segment target (cell.symm.trans known)
    obtain ⟨a, d, executed⟩ := Template.execute_pushFrom known inside room
    exact located.crossesTo_of_straight same executed nonempty

/-- The scratch cell holds no base, so that it does not matter for the cell of a segment. -/
theorem segmentCell?_write_scratch (program : StackProgram) (memory : Memory) (value : Word)
    (unit : String) (index : Word) (segment : Segment) :
    program.segmentCell? (memory.write Register.scratch.address value) unit index segment =
      program.segmentCell? memory unit index segment := by
  have base : ∀ register ∈ [Register.local, .argument, .this, .that],
      (memory.write Register.scratch.address value).read register.address =
        memory.read register.address := by
    intro register member
    exact Memory.read_write_of_ne (by revert register; decide)
  cases segment with
  | «local» | argument | this | that =>
    simp only [StackProgram.segmentCell?]
    rw [base _ (by decide)]
  | constant | temp | pointer | static => rfl

/-- Popping keeps the address of an indexed cell, and of no other, in the scratch cell. -/
theorem marked_of_locate (blocks : List Block) (program : Program) (memory : Memory)
    {unit : String} {segment : Segment} {index : Word} {location : Template.Location}
    (found : Template.locate unit segment index = .ok location) :
    (stackProgram blocks program).marked memory (.command unit (.pop segment index)) =
      location.marked memory := by
  have cell := cell?_of_locate blocks program memory found
  rcases Template.locate_ok found with ⟨rfl, rfl⟩ | ⟨base, start, rfl, -⟩ |
    ⟨rfl, ⟨rfl, rfl⟩ | ⟨rfl, rfl⟩⟩ | ⟨rfl, rfl⟩
  · rfl
  · rw [StackProgram.marked, ← cell, start]
    rfl
  · rfl
  · rfl
  · rfl

/-- A pop has instructions. -/
theorem popInto_nonempty {location : Template.Location} {lines : List AssemblyLine}
    (popped : Template.popInto location = .ok lines) :
    0 < lines.countP AssemblyLine.isInstruction := by
  refine List.countP_pos_iff.mpr ⟨Template.cell .stackPointer, ?_, rfl⟩
  cases location <;> cases popped <;> simp [Template.popToScratch, Template.popD]

/-- A marked location keeps the value on top of the stack. -/
theorem top_marked {location : Template.Location} {memory : Memory}
    (room : IsStackCell (memory.read Register.stackPointer.address - 1)) :
    (location.marked memory).top = memory.top := by
  cases location with
  | constant _ | named _ => rfl
  | indexed base index =>
    have other : Register.scratch ≠ .stackPointer := nofun
    rw [Template.Location.marked, Memory.top_write_register other room]

/-- A pop does on the computer what it does on the stack. -/
theorem crossesTo_pop (located : AtBlock blocks program index block computer)
    {unit : String} {segment : Segment} {offset : Word} {supply after : LabelSupply}
    (lines : Template.command unit supply (.pop segment offset) = .ok (block.lines, after))
    (fits : (stackProgram blocks program).Fits computer.memory
      (.command unit (.pop segment offset))) (address : Word) :
    CrossesTo blocks index computer (index + 1) ((stackProgram blocks program).perform address
      ((stackProgram blocks program).marked computer.memory (.command unit (.pop segment offset)))
      (.command unit (.pop segment offset))) := by
  obtain ⟨location, found, popped, -⟩ := Template.pop_ok lines
  have room := fits.stack _ (List.mem_singleton.mpr rfl)
  have cell := cell?_of_locate blocks program computer.memory found
  cases known : location.cell? program.symbols computer.memory with
  | none =>
    cases location with
    | constant _ => cases popped
    | indexed _ _ | named _ => cases known
  | some target =>
    have inside := fits.segment target (cell.symm.trans known)
    obtain ⟨a, d, executed⟩ := Template.execute_popInto popped known inside room
    have crossed := located.crossesTo_of_straight rfl executed (popInto_nonempty popped)
    have kept : (stackProgram blocks program).segmentCell? (location.marked computer.memory) unit
        offset segment = some target := by
      rw [← known, cell]
      cases location with
      | constant _ | named _ => rfl
      | indexed _ _ => exact segmentCell?_write_scratch _ _ _ _ _ _
    rw [marked_of_locate blocks program computer.memory found, StackProgram.perform, kept,
      top_marked room]
    exact crossed

/-! ## Jumps and functions -/

/-- A jump that is always taken goes where the address register points. -/
theorem crossesTo_of_always (located : AtBlock blocks program index block computer)
    {setup rest : List AssemblyLine} (lines : block.lines = setup ++ .compute "0;JMP" :: rest)
    (ends : rest.countP AssemblyLine.isInstruction = 0) {memory : Memory} {a d : Word}
    (executed : execute program.symbols setup computer.data = some ⟨memory, a, d⟩)
    (target : a.toNat = blockStart blocks next) : CrossesTo blocks index computer next memory :=
  located.crossesTo_of_jump lines ends rfl executed target

/-- A jump leads to the block with the label. -/
theorem crossesTo_goto (located : AtBlock blocks program index block computer) {name : String}
    (lines : block.lines = [Template.symbol name, .compute "0;JMP"])
    (target : (program.symbols.getD name 0).toNat = blockStart blocks next) :
    CrossesTo blocks index computer next computer.memory :=
  located.crossesTo_of_always (show block.lines = [Template.symbol name] ++ _ from lines) rfl rfl
    target

/-- A conditional jump leads to the block with the label, or to the next one if the value is
zero. -/
theorem crossesTo_ifGoto (located : AtBlock blocks program index block computer) {name : String}
    (lines : block.lines = Template.popD ++ [Template.symbol name, .compute "D;JNE"])
    (room : IsStackCell (computer.memory.read Register.stackPointer.address - 1))
    (target : if computer.memory.top = 0 then next = index + 1
      else (program.symbols.getD name 0).toNat = blockStart blocks next) :
    CrossesTo blocks index computer next computer.memory.drop := by
  have executed : execute program.symbols (Template.popD ++ [Template.symbol name]) computer.data =
      some ⟨computer.memory.drop, program.symbols.getD name 0, computer.memory.top⟩ := by
    rw [execute_append, Computer.data, Template.execute_popD room, Option.bind_some,
      Template.execute_symbol]
    rfl
  refine located.crossesTo_of_jump (lines.trans (List.append_assoc _ [_] _).symm) rfl rfl
    executed ?_
  by_cases zero : computer.memory.top = 0
  · rw [if_pos zero] at target
    rw [Computation.eval, zero, target]
    rfl
  · rw [if_neg zero] at target
    have taken : Jump.taken computer.memory.top .ne := decide_eq_true zero
    rw [Computation.eval, if_pos taken, target]

theorem enter_zero (memory : Memory) : memory.enter 0 = memory := by
  apply Memory.ext_read
  intro address
  rw [Memory.enter]
  change ((memory.write Register.stackPointer.address
    (memory.read Register.stackPointer.address + BitVec.ofNat 16 0)).read address) = _
  rw [Word.add_ofNat_zero]
  by_cases same : Register.stackPointer.address = address
  · rw [← same, Memory.read_write_self (Register.inRange_address _)]
  · rw [Memory.read_write_of_ne same]

/-- A function clears its local cells. -/
theorem crossesTo_function (located : AtBlock blocks program index block computer) {name : String}
    {locals : Word} (lines : block.lines = Template.function name locals)
    (room : computer.memory.HasRoom locals.toNat) :
    CrossesTo blocks index computer (index + 1) (computer.memory.enter locals) := by
  by_cases none : locals = 0
  · subst none
    rw [enter_zero]
    apply located.crossesTo_of_empty
    rw [lines]
    rfl
  · obtain ⟨a, d, executed⟩ := Template.execute_function none room
    refine located.crossesTo_of_straight lines executed (List.countP_pos_iff.mpr ?_)
    refine ⟨Template.cell .stackPointer, ?_, rfl⟩
    rw [Template.function, if_neg none]
    simp

/-- The return label of a call stands for the start of the next block. -/
theorem getD_returnLabel (located : AtBlock blocks program index block computer)
    {before : List AssemblyLine} {returnLabel name : String} {arguments : Word}
    (lines : block.lines = before ++ Template.callWith returnLabel name arguments) :
    (program.symbols.getD returnLabel 0).toNat = blockStart blocks (index + 1) := by
  rw [Template.callWith_eq] at lines
  have back := located.getD_label (show block.lines = (before ++
    Template.callSetup returnLabel name arguments ++ [.compute "0;JMP"]) ++
      .label returnLabel :: [] by rw [lines]; simp)
  rw [back, blockStart_succ located.found, lines]
  simp [AssemblyLine.isInstruction, List.countP_cons]

/-- A call saves the frame and leads to the function. -/
theorem crossesTo_call (located : AtBlock blocks program index block computer)
    {before : List AssemblyLine} {memory : Memory} {a d : Word}
    (setup : execute program.symbols before computer.data = some ⟨memory, a, d⟩)
    {returnLabel name : String} {arguments : Word}
    (lines : block.lines = before ++ Template.callWith returnLabel name arguments)
    (room : memory.HasRoom 5)
    (target : (program.symbols.getD name 0).toNat = blockStart blocks next) :
    CrossesTo blocks index computer next
      (memory.call (BitVec.ofNat 16 (blockStart blocks (index + 1))) arguments) := by
  rw [← located.getD_returnLabel lines, BitVec.ofNat_toNat, BitVec.setWidth_eq]
  rw [Template.callWith_eq, ← List.append_assoc] at lines
  obtain ⟨d', executed⟩ : ∃ d', execute program.symbols (before ++
      Template.callSetup returnLabel name arguments) computer.data =
        some ⟨memory.call (program.symbols.getD returnLabel 0) arguments,
          program.symbols.getD name 0, d'⟩ := by
    rw [execute_append, setup, Option.bind_some]
    exact Template.execute_callSetup returnLabel name arguments room
  exact located.crossesTo_of_always lines rfl executed target

/-- The bootstrap part sets up the stack and calls the entry function. -/
theorem crossesTo_bootstrap (located : AtBlock blocks program index block computer)
    {supply : LabelSupply} {entry : String}
    (lines : block.lines = (Template.bootstrap supply entry).1)
    (target : (program.symbols.getD entry 0).toNat = blockStart blocks next) :
    CrossesTo blocks index computer next
      ((computer.memory.write Register.stackPointer.address stackBase).call
        (BitVec.ofNat 16 (blockStart blocks (index + 1))) 0) := by
  have pointer := Register.inRange_address .stackPointer
  have setup : execute program.symbols [Template.number stackBase, .compute "D=A",
      Template.cell .stackPointer, .compute "M=D"] computer.data =
        some ⟨computer.memory.write Register.stackPointer.address stackBase,
          Register.stackPointer.address, stackBase⟩ := by
    rw [Computer.data, Template.execute_number, Template.execute_toD rfl, Template.execute_cell,
      Template.execute_store rfl pointer]
    rfl
  refine located.crossesTo_call setup lines ?_ target
  intro offset below
  rw [Memory.read_write_self pointer]
  have room : ∀ offset < 5, 16 ≤ (stackBase + BitVec.ofNat 16 offset).toNat ∧
      (stackBase + BitVec.ofNat 16 offset).toNat < memorySize := by decide
  exact room offset below

/-- A return leads back to where it was called from, with the frame restored. -/
theorem crossesTo_return (located : AtBlock blocks program index block computer)
    (lines : block.lines = Template.leave) {unit : String}
    (fits : (stackProgram blocks program).Fits computer.memory (.command unit .return))
    (target : (computer.memory.read (computer.memory.savedCell frameSize)).toNat =
      blockStart blocks next) :
    CrossesTo blocks index computer next computer.memory.keepReturn.leave := by
  obtain ⟨d', executed⟩ := Template.execute_leave fits.result fits.argument fits.saved
    (fits.place ⟨unit, rfl⟩)
  exact located.crossesTo_of_always (lines.trans Template.leave_eq) rfl executed target

end AtBlock

/-- The code of a part does what the part means: a computer that stands at the start of a block
crosses it to the start of the part that follows, and has the memory of the stack machine then. -/
theorem AtBlock.crossesTo {blocks : List Block} {program : Program} {index next : Nat}
    {block : Block} {computer : Computer} (located : AtBlock blocks program index block computer)
    (written : ∀ block ∈ blocks,
      ∃ before after, block.part.lines before = .ok (block.lines, after))
    (fits : (stackProgram blocks program).Fits computer.memory block.part)
    (follows : (stackProgram blocks program).Follows index computer.memory next block.part) :
    CrossesTo blocks index computer next ((stackProgram blocks program).perform
      (BitVec.ofNat 16 (blockStart blocks (index + 1)))
      ((stackProgram blocks program).marked computer.memory block.part) block.part) := by
  have linked := located.linked
  obtain ⟨supply, after, lines⟩ := written block (List.mem_of_getElem? located.found)
  cases part : block.part with
  | bootstrap entry =>
    rw [part] at lines follows
    exact located.crossesTo_bootstrap (congrArg Prod.fst (Except.ok.inj lines)).symm
      (linked.getD_of_declares written follows)
  | command unit given =>
    rw [part] at lines fits follows
    cases given with
    | operator op =>
      cases follows
      exact located.crossesTo_operator (congrArg Prod.fst (Except.ok.inj lines)).symm fits
    | push segment offset =>
      cases follows
      exact located.crossesTo_push lines fits _
    | pop segment offset =>
      cases follows
      exact located.crossesTo_pop lines fits _
    | label name =>
      cases follows
      have same : block.lines = [.label name] := (congrArg Prod.fst (Except.ok.inj lines)).symm
      apply located.crossesTo_of_empty
      rw [same]
      rfl
    | goto name =>
      exact located.crossesTo_goto (congrArg Prod.fst (Except.ok.inj lines)).symm
        (linked.getD_of_declares written follows)
    | ifGoto name =>
      refine located.crossesTo_ifGoto (congrArg Prod.fst (Except.ok.inj lines)).symm
        (fits.stack _ (List.mem_singleton.mpr rfl)) ?_
      simp only [StackProgram.Follows] at follows
      split
      · rename_i zero
        rwa [if_pos zero] at follows
      · rename_i other
        rw [if_neg other] at follows
        exact linked.getD_of_declares written follows
    | function name locals =>
      cases follows
      refine located.crossesTo_function (congrArg Prod.fst (Except.ok.inj lines)).symm ?_
      intro offset below
      exact fits.stack _ (List.mem_map.mpr ⟨offset, List.mem_range.mpr below, rfl⟩)
    | call name arguments =>
      obtain ⟨-, same, -⟩ := Template.call_ok unit lines
      refine located.crossesTo_call (show execute program.symbols [] computer.data = _ from rfl)
        same ?_ (linked.getD_of_declares written follows)
      intro offset below
      exact fits.stack _ (List.mem_map.mpr ⟨offset, List.mem_range.mpr below, rfl⟩)
    | «return» =>
      exact located.crossesTo_return (congrArg Prod.fst (Except.ok.inj lines)).symm fits
        follows.symm

end HackToolchain
