import HackToolchain.Proofs.StackDiscipline
import HackToolchain.Proofs.UnclosedLines

/-! # Calls and returns

A call hands the frame of the caller to a function, and the return that belongs to the call hands it
back (`call_restores`). In between the function runs commands of its own and whole calls of other
functions (`Body`), at any depth. All it takes is that every command keeps to the discipline of the
stack.
-/

namespace HackToolchain

/-! ## Crossings without a fault -/

namespace AtBlock

variable {blocks : List Block} {program : Program} {index : Nat} {block : Block}
  {computer last : Computer}

/-- A block that is crossed reads from inside the memory. -/
theorem inRange_of_crosses (located : AtBlock blocks program index block computer)
    {setup rest : List AssemblyLine} (lines : block.lines = setup ++ .compute "D=M" :: rest)
    {memory : Memory} {a d : Word}
    (executed : execute program.symbols setup computer.data = some ⟨memory, a, d⟩)
    (crosses : Crosses blocks index computer last) : Memory.InRange a := by
  have before := located.before
  rw [lines] at before
  obtain ⟨middle, straight, same, after⟩ := Computer.straight_of_execute before executed
  have size := blockStart_succ located.found
  rw [lines, List.countP_append, List.countP_cons_of_pos (by rfl)] at size
  rcases crosses.2 with ⟨-, passes⟩ | ⟨empty, -⟩
  · have start := located.start
    have rest := straight.passes_of_passes (by omega) (by omega) passes
    obtain ⟨next, executes⟩ : ∃ next, middle.Executes next := by
      cases rest with
      | leave executes _ => exact ⟨_, executes⟩
      | stay executes _ _ _ => exact ⟨_, executes⟩
    have decoded :
        Template.instruction? "D=M" = some (.compute { d := true } .memory .y .never) := rfl
    have present := after.getElem? (Template.decode_of_instruction? decoded)
    have address : middle.a = a := congrArg MachineData.a same
    by_contra outside
    rw [← address] at outside
    obtain ⟨program, memory, a, d, counter, steps⟩ := middle
    simp only [Computer.Executes, Computer.step, present] at executes
    rw [if_pos (by simpa [Computer.touchesMemory] using outside)] at executes
    cases executes
  · omega

/-- A push that is crossed has its cell inside the memory. -/
theorem inRange_of_push (located : AtBlock blocks program index block computer)
    {unit : String} {segment : Segment} {offset : Word} {supply after : LabelSupply}
    (lines : Template.command unit supply (.push segment offset) = .ok (block.lines, after))
    (crosses : Crosses blocks index computer last) {cell : Word}
    (known : (stackProgram blocks program).segmentCell? computer.memory unit offset segment =
      some cell) : Memory.InRange cell := by
  obtain ⟨location, found, same, -⟩ := Template.push_ok lines
  rw [← cell?_of_locate blocks program computer.memory found] at known
  cases location with
  | constant value => cases known
  | indexed base offset =>
    cases known
    have executed : execute program.symbols (base.load ++ [Template.number offset,
        .compute "A=D+A"]) computer.data = some ⟨computer.memory,
          base.value computer.memory + offset, base.value computer.memory⟩ := by
      obtain ⟨a, loaded⟩ := Template.execute_base base
      rw [execute_append, Computer.data, loaded, Option.bind_some, Template.execute_number,
        Template.execute_toA rfl]
      rfl
    have fetch : block.lines = (base.load ++ [Template.number offset, .compute "A=D+A"]) ++
        .compute "D=M" :: Template.pushD := by
      rw [same]
      simp [Template.pushFrom]
    exact located.inRange_of_crosses fetch executed crosses
  | named operand =>
    cases known
    have fetch : block.lines = [.load operand] ++ .compute "D=M" :: Template.pushD := same
    exact located.inRange_of_crosses fetch rfl crosses

end AtBlock

/-! ## Crossing the parts of a function -/

/-- A program whose code is linked to its blocks, and whose commands go to declared names. -/
structure Runnable (blocks : List Block) (program : Program) : Prop where
  linked : Linked blocks program
  written : ∀ block ∈ blocks, ∃ before after, block.part.lines before = .ok (block.lines, after)
  declared : ∀ block ∈ blocks, (∀ entry, block.part ≠ .bootstrap entry) →
    ∀ name ∈ block.part.target?, ∃ next, (stackProgram blocks program).Declares next name

namespace Runnable

variable {blocks : List Block} {program : Program} {index : Nat} {block : Block}
  {computer last : Computer} {frames : List Word}

/-- A part that is neither the first one nor a return has a part to go on with. -/
theorem exists_follows (runnable : Runnable blocks program) (found : blocks[index]? = some block)
    (forward : ∀ entry, block.part ≠ .bootstrap entry)
    (calls : ∀ unit, block.part ≠ .command unit .return) (memory : Memory) :
    ∃ next, (stackProgram blocks program).Follows index memory next block.part := by
  have declared := runnable.declared block (List.mem_of_getElem? found) forward
  cases part : block.part with
  | bootstrap entry => exact absurd part (forward entry)
  | command unit given =>
    rw [part] at declared
    cases given with
    | goto name | call name arguments => exact declared name rfl
    | ifGoto name =>
      obtain ⟨next, declares⟩ := declared name rfl
      by_cases zero : memory.top = 0
      · exact ⟨index + 1, by rw [StackProgram.Follows, if_pos zero]⟩
      · exact ⟨next, by rwa [StackProgram.Follows, if_neg zero]⟩
    | «return» => exact absurd part (calls unit)
    | operator _ | push _ _ | pop _ _ | label _ | function _ _ => exact ⟨index + 1, rfl⟩

/-- A block that uses no segment and does not return is crossed when its stack fits. -/
theorem exists_crosses (runnable : Runnable blocks program)
    (located : AtBlock blocks program index block computer)
    (stack : ∀ cell ∈ block.part.stackCells computer.memory, IsStackCell cell)
    (plain : (stackProgram blocks program).cell? computer.memory block.part = none)
    (other : ∀ unit, block.part ≠ .command unit .return) {next : Nat}
    (follows : (stackProgram blocks program).Follows index computer.memory next block.part) :
    ∃ last, Crosses blocks index computer last ∧ last.counter = blockStart blocks next := by
  obtain ⟨last, crosses, counter, -⟩ :=
    located.crossesTo runnable.written (.of_stack stack plain other) follows
  exact ⟨last, crosses, counter⟩

/-- A computer has the memory of the stack machine after it crosses a block that fits. -/
theorem memory_of_crosses (runnable : Runnable blocks program)
    (located : AtBlock blocks program index block computer)
    (crosses : Crosses blocks index computer last)
    (fits : (stackProgram blocks program).Fits computer.memory block.part)
    (forward : ∀ entry, block.part ≠ .bootstrap entry)
    (calls : ∀ unit, block.part ≠ .command unit .return) :
    last.memory = (stackProgram blocks program).perform
      (BitVec.ofNat 16 (blockStart blocks (index + 1)))
      ((stackProgram blocks program).marked computer.memory block.part) block.part := by
  obtain ⟨next, follows⟩ :=
    runnable.exists_follows located.found forward calls computer.memory
  obtain ⟨other, crossed, -, same⟩ := located.crossesTo runnable.written fits follows
  rw [crosses.unique crossed, same]

/-- A part of a function that is crossed, and keeps to the discipline, fits. -/
theorem fits_of_crosses (runnable : Runnable blocks program)
    (located : AtBlock blocks program index block computer)
    (crosses : Crosses blocks index computer last) (stays : block.part.isLocal)
    (disciplined : (stackProgram blocks program).Disciplined frames computer.memory block.part) :
    (stackProgram blocks program).Fits computer.memory block.part where
  stack := disciplined.stack
  segment := by
    obtain ⟨supply, after, lines⟩ := runnable.written block (List.mem_of_getElem? located.found)
    have target := disciplined.target
    intro cell known
    unfold StackProgram.cell? at known
    split at known
    · rename_i part
      rw [part] at lines
      exact located.inRange_of_push lines crosses known
    · rename_i part
      rw [part] at target
      exact (target cell known).1
    · cases known
  place := by
    rintro ⟨unit, «return»⟩
    rw [«return»] at stays
    cases stays

/-- A pop that has lines has a cell to pop into. -/
theorem writable (runnable : Runnable blocks program) (found : blocks[index]? = some block)
    (memory : Memory) {unit : String} {segment : Segment} {offset : Word}
    (part : block.part = .command unit (.pop segment offset)) :
    ∃ cell, (stackProgram blocks program).poppedCell? memory block.part = some cell := by
  obtain ⟨supply, after, lines⟩ := runnable.written block (List.mem_of_getElem? found)
  rw [part] at lines
  obtain ⟨location, located, popped, -⟩ := Template.pop_ok lines
  have cell := AtBlock.cell?_of_locate blocks program memory located
  rw [part, StackProgram.poppedCell?, ← cell]
  cases location with
  | constant value => cases popped
  | indexed base offset => exact ⟨_, rfl⟩
  | named operand => exact ⟨_, rfl⟩

/-- What a computer has in its memory after it crosses a part of a function. -/
theorem memory_of_isLocal (runnable : Runnable blocks program)
    (located : AtBlock blocks program index block computer)
    (crosses : Crosses blocks index computer last) (stays : block.part.isLocal)
    (disciplined : (stackProgram blocks program).Disciplined frames computer.memory block.part) :
    last.memory = (stackProgram blocks program).perform
      (BitVec.ofNat 16 (blockStart blocks (index + 1)))
      ((stackProgram blocks program).marked computer.memory block.part) block.part := by
  refine runnable.memory_of_crosses located crosses
    (runnable.fits_of_crosses located crosses stays disciplined) ?_ ?_
  · intro entry part
    rw [part] at stays
    cases stays
  · intro unit part
    rw [part] at stays
    cases stays

/-- A computer that crosses a part of a function moves the pointer as far as the part says. -/
theorem pointer_of_isLocal (runnable : Runnable blocks program)
    (located : AtBlock blocks program index block computer)
    (crosses : Crosses blocks index computer last) (stays : block.part.isLocal)
    (disciplined : (stackProgram blocks program).Disciplined frames computer.memory block.part) :
    last.memory.read Register.stackPointer.address =
      block.part.movedPointer (computer.memory.read Register.stackPointer.address) := by
  rw [runnable.memory_of_isLocal located crosses stays disciplined]
  apply StackProgram.read_perform_pointer stays disciplined.stack
  intro unit segment offset part
  obtain ⟨cell, known⟩ := runnable.writable located.found computer.memory part
  exact ⟨cell, known, (disciplined.target cell known).2.1 _ List.mem_cons_self⟩

/-- Crossing a part of a function keeps the frames. -/
theorem keeps_of_crosses (runnable : Runnable blocks program)
    (located : AtBlock blocks program index block computer)
    (crosses : Crosses blocks index computer last) (stays : block.part.isLocal)
    (disciplined : (stackProgram blocks program).Disciplined frames computer.memory block.part)
    (inside : computer.memory.InFrame frames) :
    Memory.Keeps frames computer.memory last.memory ∧ last.memory.InFrame frames := by
  have keeps : Memory.Keeps frames computer.memory last.memory := by
    rw [runnable.memory_of_isLocal located crosses stays disciplined]
    exact inside.keeps_perform stays disciplined _
  obtain ⟨low, high⟩ := inside.bounds_movedPointer stays disciplined
  rw [← runnable.pointer_of_isLocal located crosses stays disciplined] at low high
  exact ⟨keeps, inside.of_keeps keeps low high⟩

end Runnable

/-! ## Whole calls -/

/-- A computer runs parts of one function, and whole calls of other functions, which all keep to the
discipline of the stack. -/
inductive Body (blocks : List Block) (program : Program) :
    (frames : List Word) → (first last : Computer) → Prop where
  | done {frames : List Word} {computer : Computer} : Body blocks program frames computer computer
  | command {frames : List Word} {index : Nat} {block : Block} {first middle last : Computer}
      (found : blocks[index]? = some block) (stays : block.part.isLocal)
      (disciplined :
        (stackProgram blocks program).Disciplined frames first.memory block.part)
      (crosses : Crosses blocks index first middle)
      (rest : Body blocks program frames middle last) : Body blocks program frames first last
  | call {frames : List Word} {index exit : Nat} {calling returning : Block}
      {unit name other : String} {arguments : Word}
      {first entered leaving resumed last : Computer}
      (found : blocks[index]? = some calling)
      (calls : calling.part = .command unit (.call name arguments))
      (disciplined :
        (stackProgram blocks program).Disciplined frames first.memory calling.part)
      (crosses : Crosses blocks index first entered)
      (body : Body blocks program (entered.memory.read Register.local.address :: frames) entered
        leaving)
      (ended : blocks[exit]? = some returning) (returns : returning.part = .command other .return)
      (kept : (stackProgram blocks program).Disciplined
        (entered.memory.read Register.local.address :: frames) leaving.memory returning.part)
      (left : Crosses blocks exit leaving resumed)
      (rest : Body blocks program frames resumed last) : Body blocks program frames first last

/-- A computer reaches the end of what it runs. -/
theorem Body.reaches {blocks : List Block} {program : Program} {frames : List Word}
    {first last : Computer} (body : Body blocks program frames first last) :
    first.Reaches last := by
  induction body with
  | done => exact Relation.ReflTransGen.refl
  | command _ _ _ crosses _ hypothesis => exact crosses.reaches.trans hypothesis
  | call _ _ _ crosses _ _ _ _ left _ inner outer =>
    exact ((crosses.reaches.trans inner).trans left.reaches).trans outer

namespace Runnable

variable {blocks : List Block} {program : Program} {index exit : Nat} {calling returning : Block}
  {unit name other : String} {arguments : Word} {first entered leaving : Computer}
  {frames : List Word}

/-- What a computer has in its memory after it crosses a call. -/
theorem memory_of_call (runnable : Runnable blocks program)
    (located : AtBlock blocks program index calling first)
    (calls : calling.part = .command unit (.call name arguments))
    (stack : ∀ cell ∈ calling.part.stackCells first.memory, IsStackCell cell)
    (crosses : Crosses blocks index first entered) :
    first.memory.HasRoom 5 ∧ entered.memory =
      first.memory.call (BitVec.ofNat 16 (blockStart blocks (index + 1))) arguments := by
  have returns : ∀ unit, calling.part ≠ .command unit .return := by simp [calls]
  have fits : (stackProgram blocks program).Fits first.memory calling.part :=
    .of_stack stack (by rw [calls]; rfl) returns
  have memory := runnable.memory_of_crosses located crosses fits (by simp [calls]) returns
  rw [calls] at stack memory
  refine ⟨?_, memory⟩
  intro offset below
  exact stack _ (List.mem_map.mpr ⟨offset, List.mem_range.mpr below, rfl⟩)

/-- The return label of a call is bound to the address after its code. -/
theorem exists_returnLabel (runnable : Runnable blocks program)
    (located : AtBlock blocks program index calling first)
    (calls : calling.part = .command unit (.call name arguments)) :
    ∃ lines number, calling.lines = lines ++ [.label (LabelSupply.returnLabel name number)] ∧
      (program.symbols.getD (LabelSupply.returnLabel name number) 0).toNat =
        blockStart blocks (index + 1) := by
  obtain ⟨supply, after, lines⟩ := runnable.written calling (List.mem_of_getElem? located.found)
  rw [calls] at lines
  obtain ⟨-, same, -⟩ := Template.call_ok unit lines
  refine ⟨Template.callSetup (LabelSupply.returnLabel name supply.calls) name arguments ++
    [.compute "0;JMP"], supply.calls, ?_, ?_⟩
  · rw [same, Template.callWith_eq, List.append_assoc]
    rfl
  · exact located.getD_returnLabel (show calling.lines = [] ++ _ from same)

/-- A return goes back to where its function was called from. -/
theorem crossesTo_of_called (runnable : Runnable blocks program)
    (called : Memory.Called (BitVec.ofNat 16 (blockStart blocks (index + 1))) arguments
      first.memory leaving.memory)
    (address : blockStart blocks (index + 1) < 65536)
    (low : arguments.toNat ≤ (first.memory.read Register.stackPointer.address).toNat)
    (located : AtBlock blocks program exit returning leaving)
    (returns : returning.part = .command unit .return)
    (stack : ∀ cell ∈ returning.part.stackCells leaving.memory, IsStackCell cell) :
    CrossesTo blocks exit leaving (index + 1) leaving.memory.keepReturn.leave := by
  have fits : (stackProgram blocks program).Fits leaving.memory returning.part := by
    refine ⟨stack, ?_, fun _ => called.place_ne low⟩
    rw [returns]
    nofun
  have back : leaving.memory.savedCell frameSize = _ := called.savedCell (5, 0) (by decide)
  have follows : (stackProgram blocks program).Follows exit leaving.memory (index + 1)
      returning.part := by
    rw [returns, StackProgram.Follows, back, called.saved rfl, BitVec.toNat_ofNat,
      Nat.mod_eq_of_lt address]
    rfl
  have crossed := located.crossesTo runnable.written fits follows
  rw [returns] at crossed
  exact crossed

/-- A call whose function keeps its frame returns to its caller. -/
theorem returns_of_keeps (runnable : Runnable blocks program)
    (located : AtBlock blocks program index calling first)
    (calls : calling.part = .command unit (.call name arguments))
    (stack : ∀ cell ∈ calling.part.stackCells first.memory, IsStackCell cell)
    (low : arguments.toNat ≤ (first.memory.read Register.stackPointer.address).toNat)
    (crosses : Crosses blocks index first entered)
    (keeps : Memory.Keeps (entered.memory.read Register.local.address :: frames) entered.memory
      leaving.memory)
    (ended : AtBlock blocks program exit returning leaving)
    (returns : returning.part = .command other .return)
    (cells : ∀ cell ∈ returning.part.stackCells leaving.memory, IsStackCell cell) :
    ∃ final, Crosses blocks exit leaving final ∧
      final.counter = blockStart blocks (index + 1) ∧
      final.memory = leaving.memory.keepReturn.leave ∧
      first.memory.Resumes arguments leaving.memory final.memory := by
  obtain ⟨room, memory⟩ := runnable.memory_of_call located calls stack crosses
  obtain ⟨_, _, -, bound⟩ := runnable.exists_returnLabel located calls
  rw [memory, Memory.read_call_local room] at keeps
  have called := Memory.Called.of_keeps room keeps
  have address : blockStart blocks (index + 1) < 65536 := by
    rw [← bound]
    exact BitVec.isLt _
  obtain ⟨final, crossed, counter, same⟩ :=
    runnable.crossesTo_of_called called address low ended returns cells
  rw [returns] at cells
  have resumes := called.resumes (cells _ (List.mem_cons_of_mem _ List.mem_cons_self))
    (cells _ List.mem_cons_self)
  rw [← same] at resumes
  exact ⟨final, crossed, counter, same, resumes⟩

end Runnable

/-- The body of a function keeps the frames. -/
theorem Body.keeps {blocks : List Block} {program : Program} (runnable : Runnable blocks program)
    {frames : List Word} {first last : Computer} (body : Body blocks program frames first last)
    (running : first.program = program.instructions) (inside : first.memory.InFrame frames) :
    Memory.Keeps frames first.memory last.memory ∧ last.memory.InFrame frames := by
  induction body with
  | done => exact ⟨Memory.Keeps.refl _ _, inside⟩
  | command found stays disciplined crosses _ hypothesis =>
    obtain ⟨keeps, after⟩ := runnable.keeps_of_crosses
      ⟨runnable.linked, found, running, crosses.1⟩ crosses stays disciplined inside
    obtain ⟨further, final⟩ := hypothesis (crosses.reaches.program_eq.trans running) after
    exact ⟨keeps.trans further, final⟩
  | @call frames index exit calling returning unit name other arguments first entered leaving
      resumed last found calls disciplined crosses body ended returns kept left _ inner outer =>
    have located : AtBlock blocks program index calling first :=
      ⟨runnable.linked, found, running, crosses.1⟩
    obtain ⟨room, memory⟩ := runnable.memory_of_call located calls disciplined.stack crosses
    have stack := inside.stack
    have low : (first.memory.read Register.local.address).toNat + arguments.toNat ≤
        (first.memory.read Register.stackPointer.address).toNat := by
      have operands := disciplined.operands
      rw [calls, Part.operandCount] at operands
      rcases Nat.eq_zero_or_pos arguments.toNat with none | some
      · omega
      · have bound := operands (arguments.toNat - 1) (by omega)
        omega
    -- The function keeps its own frame, and those of its callers.
    have started : entered.memory.InFrame
        (entered.memory.read Register.local.address :: frames) := by
      rw [memory, Memory.read_call_local room]
      apply Memory.inFrame_call room
      intro frame active
      have bounds := inside.frame frame active
      omega
    have runningInside := crosses.reaches.program_eq.trans running
    obtain ⟨within, -⟩ := inner runningInside started
    -- So it returns to its caller, which goes on as before.
    have runningReturn := body.reaches.program_eq.trans runningInside
    obtain ⟨final, crossed, -, same, resumes⟩ := runnable.returns_of_keeps located calls
      disciplined.stack (by omega) crosses within ⟨runnable.linked, ended, runningReturn, left.1⟩
      returns kept.stack
    cases left.unique crossed
    rw [memory, Memory.read_call_local room] at within
    have keeps := inside.keeps_leave room low within
    rw [← same] at keeps
    obtain ⟨further, after⟩ := outer (left.reaches.program_eq.trans runningReturn)
      (resumes.inFrame inside keeps room low)
    exact ⟨keeps.trans further, after⟩

/-! ## Compiled programs -/

/-- Compiled text that assembles can be run, as long as the names that commands go to are declared,
the static cells have addresses, and the function that the program starts with, if any, has a symbol
for a name. -/
theorem runnable_of_assemble {options : EmissionOptions} {sources : List Source} {text : String}
    {program : Program} (compiled : (compile options sources).result = .ok text)
    (assembled : Program.assemble text.toList = .ok program)
    (targets : ∀ name ∈ (sources.flatMap Source.parts).filterMap Part.target?,
      name ∈ declaredNames options sources)
    (statics : ∀ name ∈ (parts options sources).filterMap Part.static?, name ∈ program.symbols)
    (entry : options.bootstrap → isSymbol options.entry) :
    Runnable (blocks options sources) program := by
  obtain ⟨-, ⟨supply, expanded⟩, -⟩ := compile_ok compiled
  -- The names that commands go to are those of parts that do not start the program.
  have declared : ∀ part ∈ parts options sources, (∀ entry, part ≠ .bootstrap entry) →
      ∀ name ∈ part.target?, name ∈ declaredNames options sources := by
    intro part listed command name target
    refine targets name (List.mem_filterMap.mpr ⟨part, ?_, target⟩)
    rcases List.mem_append.mp listed with start | present
    · split at start
      · exact absurd (List.mem_singleton.mp start) (command _)
      · cases start
    · exact present
  refine ⟨linked_of_assemble compiled assembled ?_, ?_, ?_⟩
  · intro part listed
    rw [Part.forall_mem_names]
    refine ⟨?_, ?_, ?_⟩
    · intro name declares
      exact .inl (List.mem_filterMap.mpr ⟨part, listed, declares⟩)
    · intro name target
      rcases mem_parts_iff.mp listed with ⟨bootstrap, rfl⟩ | ⟨source, -, command, -, rfl⟩
      · cases target
        exact .inr (entry bootstrap)
      · exact .inl (declared _ listed nofun name target)
    · intro name static
      apply Or.inr
      apply (Program.assemble_ok assembled).valid
      exact statics name (List.mem_filterMap.mpr ⟨part, listed, static⟩)
  · intro block present
    exact lines_of_mem_expand expanded present
  · intro block present command name target
    have listed : block.part ∈ parts options sources := by
      rw [← map_part_of_expand expanded]
      exact List.mem_map_of_mem present
    obtain ⟨part, among, declares⟩ :=
      List.mem_filterMap.mp (declared block.part listed command name target)
    rw [← map_part_of_expand expanded] at among
    obtain ⟨next, found⟩ := List.mem_iff_getElem?.mp among
    refine ⟨next, ?_⟩
    rw [StackProgram.Declares]
    exact (congrArg (Option.bind · Part.declared?) found).trans declares

/-- **Calls restore the frame of their caller.** When a program compiles and assembles, its commands
go to declared names and its static cells have addresses, take any call in it, and any run of the
function with whole calls of other functions in between that keeps to the discipline of the stack,
up to the return.

Unless a line before the call opens a bracket and does not close it, the computer goes on right
after the call then, with the bases that it had before, and with the value from the top of the stack
of the function in the place of the arguments.

There is such a line just when the program starts with the call of a function whose name is no
symbol. -/
theorem call_restores {options : EmissionOptions} {sources : List Source} {text : String}
    {program : Program} (compiled : (compile options sources).result = .ok text)
    (assembled : Program.assemble text.toList = .ok program)
    (targets : ∀ name ∈ (sources.flatMap Source.parts).filterMap Part.target?,
      name ∈ declaredNames options sources)
    (statics : ∀ name ∈ (parts options sources).filterMap Part.static?, name ∈ program.symbols)
    {index exit : Nat} {calling returning : Block} {unit name other : String} {arguments : Word}
    (found : (blocks options sources)[index]? = some calling)
    (calls : calling.part = .command unit (.call name arguments))
    (ended : (blocks options sources)[exit]? = some returning)
    (returns : returning.part = .command other .return)
    {first entered leaving : Computer} (running : first.program = program.instructions)
    (low : arguments.toNat + 16 ≤ (first.memory.read Register.stackPointer.address).toNat)
    (stack : ∀ cell ∈ calling.part.stackCells first.memory, IsStackCell cell)
    (crosses : Crosses (blocks options sources) index first entered)
    (body : Body (blocks options sources) program [entered.memory.read Register.local.address]
      entered leaving)
    (arrived : leaving.counter = blockStart (blocks options sources) exit)
    (disciplined : (stackProgram (blocks options sources) program).Disciplined
      [entered.memory.read Register.local.address] leaving.memory returning.part) :
    (unclosedLines options.annotate ((blocks options sources).take index) = 0 →
      ∃ final, Crosses (blocks options sources) exit leaving final ∧
        (∃ budget, first.run budget = (final, if final.halted then .halted else .exhausted)) ∧
        final.counter = blockStart (blocks options sources) (index + 1) ∧
        (∃ lines number,
          calling.lines = lines ++ [.label (LabelSupply.returnLabel name number)] ∧
          (program.symbols.getD (LabelSupply.returnLabel name number) 0).toNat = final.counter) ∧
        (∀ register ∈ [Register.local, .argument, .this, .that],
          final.memory.read register.address = first.memory.read register.address) ∧
        (final.memory.read Register.stackPointer.address).toNat =
          (first.memory.read Register.stackPointer.address).toNat - arguments.toNat + 1 ∧
        final.memory.read (BitVec.ofNat 16
          ((first.memory.read Register.stackPointer.address).toNat - arguments.toNat)) =
            leaving.memory.top) ∧
    (unclosedLines options.annotate ((blocks options sources).take index) = 0 ↔
      (options.bootstrap → isSymbol options.entry)) := by
  have known := unclosedLines_eq_zero_iff compiled (split_of_getElem? found) assembled
    (by rw [calls]; exact nofun) statics
  refine ⟨fun closed => ?_, known⟩
  have runnable := runnable_of_assemble compiled assembled targets statics (known.mp closed)
  have located : AtBlock (blocks options sources) program index calling first :=
    ⟨runnable.linked, found, running, crosses.1⟩
  obtain ⟨room, memory⟩ := runnable.memory_of_call located calls stack crosses
  have runningInside := crosses.reaches.program_eq.trans running
  have started : entered.memory.InFrame [entered.memory.read Register.local.address] := by
    rw [memory, Memory.read_call_local room]
    exact Memory.inFrame_call room (List.forall_mem_nil _) _ _
  obtain ⟨keeps, -⟩ := body.keeps runnable runningInside started
  obtain ⟨final, crossed, counter, -, resumes⟩ := runnable.returns_of_keeps located calls stack
    (by omega) crosses keeps
    ⟨runnable.linked, ended, body.reaches.program_eq.trans runningInside, arrived⟩ returns
    disciplined.stack
  obtain ⟨lines, number, last, bound⟩ := runnable.exists_returnLabel located calls
  have order : arguments ≤ first.memory.read Register.stackPointer.address := by
    rw [BitVec.le_def]
    omega
  have place := BitVec.toNat_sub_of_le order
  have high := room.first.2
  refine ⟨final, crossed, ?_, counter, ⟨lines, number, last, bound.trans counter.symm⟩,
    resumes.base, ?_, ?_⟩
  · have reaches : first.Reaches final :=
      (crosses.reaches.trans body.reaches).trans crossed.reaches
    exact reaches.run
  · rw [resumes.pointer, Word.toNat_succ (by rw [Memory.InRange]; omega), place]
  · rw [← place, BitVec.ofNat_toNat, BitVec.setWidth_eq]
    exact resumes.result

/-! ## A call in a program -/

/-- A computer inside the function of the sample, before the block with an index. -/
structure InSample (list : List Block) (program : Program) (index : Nat) (pointer : Word)
    (computer : Computer) : Prop where
  running : computer.program = program.instructions
  counter : computer.counter = blockStart list index
  pointer : computer.memory.read Register.stackPointer.address = pointer
  base : computer.memory.read Register.local.address = 262
  argument : computer.memory.read Register.argument.address = 256
  inside : computer.memory.InFrame [262]

section

variable {list : List Block} {program : Program}

variable (runnable : Runnable list program)
  (sample : list.map Block.part = parts ⟨true, "f", false⟩ sampleSources)

include sample

theorem getElem?_sampleSources (index : Nat) {part : Part}
    (listed : (parts ⟨true, "f", false⟩ sampleSources)[index]? = some part) :
    ∃ block, list[index]? = some block ∧ block.part = part := by
  rw [← sample, List.getElem?_map] at listed
  exact Option.map_eq_some_iff.mp listed

include runnable

/-- The function goes on after a part that uses no segment. -/
theorem InSample.next {index : Nat} {pointer : Word} {first : Computer}
    (state : InSample list program index pointer first) {part : Part}
    (listed : (parts ⟨true, "f", false⟩ sampleSources)[index]? = some part) (stays : part.isLocal)
    (plain : (stackProgram list program).cell? first.memory part = none)
    (disciplined : (stackProgram list program).Disciplined [262] first.memory part)
    (follows : (stackProgram list program).Follows index first.memory (index + 1) part) :
    ∃ block last, list[index]? = some block ∧ block.part.isLocal ∧
      (stackProgram list program).Disciplined [262] first.memory block.part ∧
      Crosses list index first last ∧
      InSample list program (index + 1) (part.movedPointer pointer) last := by
  obtain ⟨block, found, rfl⟩ := getElem?_sampleSources sample index listed
  have located : AtBlock list program index block first :=
    ⟨runnable.linked, found, state.running, state.counter⟩
  have other : ∀ unit, block.part ≠ .command unit .return := by
    rintro unit returns
    rw [returns] at stays
    cases stays
  obtain ⟨last, crosses, counter⟩ :=
    runnable.exists_crosses located disciplined.stack plain other follows
  obtain ⟨keeps, inside⟩ := runnable.keeps_of_crosses located crosses stays disciplined state.inside
  refine ⟨block, last, found, stays, disciplined, crosses,
    crosses.reaches.program_eq.trans state.running, counter, ?_, ?_, ?_, inside⟩
  · rw [runnable.pointer_of_isLocal located crosses stays disciplined, state.pointer]
  · rw [keeps.base .local (by simp), state.base]
  · rw [keeps.base .argument (by simp), state.argument]

/-- The sample calls its function with the value on top of the stack. -/
theorem call_sampleSources : ∃ (calling : Block) (first entered : Computer),
    list[5]? = some calling ∧ calling.part = .command "Sys" (.call "f" 1) ∧
      first.program = program.instructions ∧
      first.memory.read Register.stackPointer.address = 257 ∧
      (∀ cell ∈ calling.part.stackCells first.memory, IsStackCell cell) ∧
      Crosses list 5 first entered ∧ InSample list program 1 262 entered := by
  obtain ⟨calling, found, calls⟩ := getElem?_sampleSources sample 5 (by
    rw [parts_sampleSources]
    rfl)
  let start := Memory.zeroed.write Register.stackPointer.address 257
  let first : Computer :=
    { program := program.instructions, memory := start, counter := blockStart list 5 }
  have pointer : start.read Register.stackPointer.address = 257 :=
    Memory.read_write_self (Register.inRange_address _)
  have room : start.HasRoom 5 := by
    rw [Memory.HasRoom, pointer]
    unfold IsStackCell
    decide
  have located : AtBlock list program 5 calling first := ⟨runnable.linked, found, rfl, rfl⟩
  have stack : ∀ cell ∈ calling.part.stackCells first.memory, IsStackCell cell := by
    rw [calls]
    intro cell member
    obtain ⟨offset, below, rfl⟩ := List.mem_map.mp member
    exact room offset (List.mem_range.mp below)
  obtain ⟨entered, crosses, counter⟩ : ∃ last, Crosses list 5 first last ∧
      last.counter = blockStart list 1 := by
    refine runnable.exists_crosses located stack (by rw [calls]; rfl) (by simp [calls]) ?_
    rw [calls, StackProgram.Follows, StackProgram.Declares, stackProgram, sample,
      parts_sampleSources]
    rfl
  obtain ⟨-, memory⟩ := runnable.memory_of_call located calls stack crosses
  have inside := Memory.inFrame_call room (List.forall_mem_nil _)
    (BitVec.ofNat 16 (blockStart list 6)) 1
  rw [← memory, pointer] at inside
  refine ⟨calling, first, entered, found, calls, rfl, pointer, stack, crosses,
    crosses.reaches.program_eq, counter, ?_, ?_, ?_, inside⟩
  · rw [memory, Memory.read_call_pointer room]
    exact congrArg (· + 5) pointer
  · rw [memory, Memory.read_call_local room]
    exact congrArg (· + 5) pointer
  · rw [memory, Memory.read_call_argument room]
    exact congrArg (· - 1) pointer

/-- The function puts two local cells on the stack. -/
theorem function_sampleSources {first : Computer} (state : InSample list program 1 262 first) :
    ∃ block last, list[1]? = some block ∧ block.part.isLocal ∧
      (stackProgram list program).Disciplined [262] first.memory block.part ∧
      Crosses list 1 first last ∧ InSample list program 2 264 last := by
  refine @InSample.next _ _ runnable sample _ _ _ state (.command "Main" (.function "f" 2)) ?_ rfl
    rfl ?_ rfl
  · rw [parts_sampleSources]
    rfl
  · refine .of_stack ?_ (fun _ none => absurd none (Nat.not_lt_zero _)) rfl
    simp [Part.stackCells, state.pointer, IsStackCell, memorySize, List.range, List.range.loop]

/-- The function compares its local cells. -/
theorem equal_sampleSources {first : Computer} (state : InSample list program 2 264 first) :
    ∃ block last, list[2]? = some block ∧ block.part.isLocal ∧
      (stackProgram list program).Disciplined [262] first.memory block.part ∧
      Crosses list 2 first last ∧ InSample list program 3 263 last := by
  refine @InSample.next _ _ runnable sample _ _ _ state (.command "Main" (.operator .eq)) ?_ rfl
    rfl ?_ rfl
  · rw [parts_sampleSources]
    rfl
  · refine .of_stack ?_ ?_ rfl
    · simp [Part.stackCells, state.pointer, Operator.isUnary, IsStackCell, memorySize]
    · rw [state.pointer, state.base]
      decide

omit runnable in
/-- The function can return then. -/
theorem return_sampleSources {first : Computer} (state : InSample list program 3 263 first) :
    ∃ block, list[3]? = some block ∧ block.part = .command "Main" .return ∧
      (stackProgram list program).Disciplined [262] first.memory block.part := by
  obtain ⟨block, found, part⟩ := getElem?_sampleSources sample 3 (by
    rw [parts_sampleSources]
    rfl)
  refine ⟨block, found, part, ?_⟩
  rw [part]
  refine .of_stack ?_ ?_ rfl
  · simp [Part.stackCells, Memory.savedCell, state.pointer, state.base, state.argument,
      IsStackCell, memorySize]
  · rw [state.base, state.pointer]
    decide

end

/-- The call in the sample comes back with its result in the place of its argument. -/
theorem call_restores_sampleSources :
    ∃ text program, (compile ⟨true, "f", false⟩ sampleSources).result = .ok text ∧
      Program.assemble text.toList = .ok program ∧
      ∃ (first final : Computer) (budget : Nat), first.program = program.instructions ∧
        first.memory.read Register.stackPointer.address = 257 ∧
        first.run budget = (final, if final.halted then .halted else .exhausted) ∧
        final.counter = blockStart (blocks ⟨true, "f", false⟩ sampleSources) 6 ∧
        (final.memory.read Register.stackPointer.address).toNat = 257 := by
  obtain ⟨text, compiled⟩ := compile_sampleSources
  obtain ⟨program, assembled, linked⟩ := wellNamed_sampleSources.assembles compiled (by
    rw [codeSize_sampleSources]
    decide)
  obtain ⟨-, ⟨supply, expanded⟩, -⟩ := compile_ok compiled
  have sample := map_part_of_expand expanded
  have targets : ∀ name ∈ (sampleSources.flatMap Source.parts).filterMap Part.target?,
      name ∈ declaredNames ⟨true, "f", false⟩ sampleSources := by
    intro name member
    obtain ⟨part, listed, target⟩ := List.mem_filterMap.mp member
    apply targets_sampleSources
    exact List.mem_filterMap.mpr ⟨part, List.mem_append_right _ listed, target⟩
  have statics := statics_sampleSources linked
  have runnable := runnable_of_assemble compiled assembled targets statics fun _ => by decide
  -- The run of the function, one command after another.
  obtain ⟨calling, first, entered, found, calls, running, pointer, stack, crosses, state⟩ :=
    call_sampleSources runnable sample
  obtain ⟨_, cleared, atFirst, stays, clears, enters, second⟩ :=
    function_sampleSources runnable sample state
  obtain ⟨_, leaving, atSecond, remains, compares, finishes, third⟩ :=
    equal_sampleSources runnable sample second
  obtain ⟨returning, ended, returns, disciplined⟩ := return_sampleSources sample third
  have body : Body (blocks ⟨true, "f", false⟩ sampleSources) program [262] entered leaving :=
    .command atFirst stays clears enters (.command atSecond remains compares finishes .done)
  rw [← state.base] at body disciplined
  obtain ⟨restores, closed⟩ := call_restores compiled assembled targets statics found calls ended
    returns running (by rw [pointer]; decide) stack crosses body third.counter disciplined
  obtain ⟨final, -, ⟨budget, run⟩, counter, -, -, top, -⟩ :=
    restores (closed.mpr fun _ => by decide)
  rw [pointer] at top
  exact ⟨text, program, compiled, assembled, first, final, budget, running, pointer, run, counter,
    top⟩

/-! ## A call that does not come back -/

/-- A unit with a function that calls another one. -/
def callingSource : Source :=
  ⟨"Main",
    "function f 0\npush constant 54\ncall g 0\ngoto f\nfunction g 0\npush constant 112\nreturn"⟩

theorem readAll_callingSource : Command.readAll callingSource.text.toList =
    .ok [⟨⟨0, 12⟩, .function "f" 0⟩, ⟨⟨13, 29⟩, .push .constant 54⟩, ⟨⟨30, 38⟩, .call "g" 0⟩,
      ⟨⟨39, 45⟩, .goto "f"⟩, ⟨⟨46, 58⟩, .function "g" 0⟩, ⟨⟨59, 76⟩, .push .constant 112⟩,
      ⟨⟨77, 83⟩, .return⟩] := by
  have free : ∀ line ∈ Text.locatedLines callingSource.text.toList, '/' ∉ line.code := by decide
  rw [Command.readAll, Command.readings_of_free free]
  decide

theorem parts_callingSource : parts commentedEntry [callingSource] =
    [.bootstrap "f//", .command "Main" (.function "f" 0), .command "Main" (.push .constant 54),
      .command "Main" (.call "g" 0), .command "Main" (.goto "f"),
      .command "Main" (.function "g" 0), .command "Main" (.push .constant 112),
      .command "Main" .return] := by
  simp only [parts, List.flatMap_cons, List.flatMap_nil, Source.parts, Source.commands,
    readAll_callingSource]
  rfl

/-- The addresses of the call, of the command after it, and of the return. -/
theorem blockStart_callingSource :
    blockStart (blocks commentedEntry [callingSource]) 3 = 60 ∧
      blockStart (blocks commentedEntry [callingSource]) 4 = 109 ∧
      blockStart (blocks commentedEntry [callingSource]) 7 = 118 := by
  rw [blocks, parts_callingSource]
  decide +kernel

/-- The label of the call to the entry function is cut off by a comment, and with it the bracket
that closes it. The call after it runs up to the return of its function, and the return goes on one
instruction after the one that comes next. -/
theorem call_skips_commentedEntry : ∃ text program,
    (compile commentedEntry [callingSource]).result = .ok text ∧
      Program.assemble text.toList = .ok program ∧
      (∀ name ∈ ([callingSource].flatMap Source.parts).filterMap Part.target?,
        name ∈ declaredNames commentedEntry [callingSource]) ∧
      (parts commentedEntry [callingSource])[3]? = some (.command "Main" (.call "g" 0)) ∧
      (parts commentedEntry [callingSource])[7]? = some (.command "Main" .return) ∧
      ∃ leaving final : Computer,
        Computer.run 55
            { program := program.instructions
              memory := Memory.zeroed.write Register.stackPointer.address 262
              counter := blockStart (blocks commentedEntry [callingSource]) 3 } =
          (leaving, .exhausted) ∧
        leaving.counter = blockStart (blocks commentedEntry [callingSource]) 7 ∧
        leaving.run 50 = (final, .exhausted) ∧
        final.counter = blockStart (blocks commentedEntry [callingSource]) 4 + 1 := by
  obtain ⟨text, compiled⟩ : ∃ text, (compile commentedEntry [callingSource]).result = .ok text := by
    refine compile_succeeds (List.forall_mem_singleton.mpr ⟨_, readAll_callingSource⟩) ?_
    rw [parts_callingSource]
    exact ⟨_, rfl⟩
  have targets : ∀ name ∈ (parts commentedEntry [callingSource]).tail.filterMap Part.target?,
      name ∈ declaredNames commentedEntry [callingSource] := by
    simp only [declaredNames, parts_callingSource]
    decide
  obtain ⟨call, next, back⟩ := blockStart_callingSource
  have observed : ((Program.assemble text.toList).map fun program =>
      let leaving := Computer.run 55
        { program := program.instructions
          memory := Memory.zeroed.write Register.stackPointer.address 262
          counter := 60 }
      let final := leaving.1.run 50
      (leaving.2, leaving.1.counter, final.2, final.1.counter)).toOption =
        some (.exhausted, 118, .exhausted, 110) := by
    rw [(compile_ok compiled).2.2, blocks, parts_callingSource]
    decide +kernel
  obtain ⟨program, assembled, seen⟩ := Program.exists_assemble_of_map observed
  simp only [Prod.mk.injEq] at seen
  obtain ⟨spent, left, again, counter⟩ := seen
  refine ⟨text, program, compiled, assembled, targets, ?_, ?_, _, _, Prod.ext rfl ?_, ?_,
    Prod.ext rfl ?_, ?_⟩
  · rw [parts_callingSource]
    rfl
  · rw [parts_callingSource]
    rfl
  · rw [call]
    exact spent
  · rw [call, back]
    exact left
  · rw [call]
    exact again
  · rw [call, next]
    exact counter

end HackToolchain
