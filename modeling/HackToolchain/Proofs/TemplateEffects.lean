import HackToolchain.Proofs.StackMachine

/-! # The effect of templates

What the straight code in each template does to the memory and the registers. Every fragment that
templates are built from has one lemma, and the lemmas of longer templates follow from those of
their fragments.
-/

namespace HackToolchain

/-- The registers are in the memory. -/
theorem Register.inRange_address (register : Register) : Memory.InRange register.address := by
  cases register <;> decide

/-- Different registers have different addresses. -/
theorem Register.address_ne {first second : Register} (different : first ≠ second) :
    first.address ≠ second.address := by
  revert different
  cases first <;> cases second <;> decide

namespace IsStackCell

variable {address : Word}

/-- The cells of the stack are in the memory. -/
theorem inRange (cell : IsStackCell address) : Memory.InRange address :=
  cell.2

/-- A cell of the stack is no register. -/
theorem ne_register (cell : IsStackCell address) (register : Register) :
    address ≠ register.address := by
  rintro rfl
  have low : register.address.toNat < 16 := by cases register <;> decide
  have high := cell.1
  omega

/-- A write to a register keeps the stack. -/
theorem read_write (cell : IsStackCell address) (memory : Memory) (register : Register)
    (value : Word) :
    (memory.write register.address value).read address = memory.read address :=
  Memory.read_write_of_ne (cell.ne_register register).symm

/-- A write to the stack keeps the registers. -/
theorem read_register_write (cell : IsStackCell address) (memory : Memory) (register : Register)
    (value : Word) :
    (memory.write address value).read register.address = memory.read register.address :=
  Memory.read_write_of_ne (cell.ne_register register)

end IsStackCell

theorem Word.add_ofNat_zero (word : Word) : word + BitVec.ofNat 16 0 = word :=
  BitVec.add_zero word

theorem Word.add_ofNat_succ (word : Word) (count : Nat) :
    word + BitVec.ofNat 16 (count + 1) = word + 1 + BitVec.ofNat 16 count := by
  rw [BitVec.ofNat_add, BitVec.add_comm (BitVec.ofNat 16 count), ← BitVec.add_assoc]
  rfl

namespace Memory

/-- A write to a register keeps the others. -/
theorem read_register_write_register {written register : Register} (different : written ≠ register)
    (memory : Memory) (value : Word) :
    (memory.write written.address value).read register.address = memory.read register.address :=
  read_write_of_ne (Register.address_ne different)

/-- A write to a register but the pointer keeps the value on top of the stack. -/
theorem top_write_register {register : Register} (other : register ≠ .stackPointer)
    {memory : Memory} (room : IsStackCell (memory.read Register.stackPointer.address - 1))
    (value : Word) : (memory.write register.address value).top = memory.top := by
  rw [top, read_register_write_register other, room.read_write, top]

/-- A push moves the pointer by one. -/
theorem read_push_pointer (memory : Memory) (value : Word) :
    (memory.push value).read Register.stackPointer.address =
      memory.read Register.stackPointer.address + 1 :=
  read_write_self (Register.inRange_address _)

/-- There is room for so many cells on the stack. -/
def HasRoom (count : Nat) (memory : Memory) : Prop :=
  ∀ offset < count,
    IsStackCell (memory.read Register.stackPointer.address + BitVec.ofNat 16 offset)

/-- With room for a value, the cell on top is in the stack. -/
theorem HasRoom.first {count : Nat} {memory : Memory} (room : memory.HasRoom (count + 1)) :
    IsStackCell (memory.read Register.stackPointer.address) := by
  have first := room 0 (Nat.succ_pos count)
  rwa [Word.add_ofNat_zero] at first

/-- A push takes up room for one value. -/
theorem HasRoom.push {count : Nat} {memory : Memory} (room : memory.HasRoom (count + 1))
    (value : Word) : (memory.push value).HasRoom count := by
  intro offset below
  rw [read_push_pointer, ← Word.add_ofNat_succ]
  exact room (offset + 1) (Nat.succ_lt_succ below)

end Memory

namespace Memory

/-- The memory while a return keeps the end of its frame and its return address. -/
def keepReturn (memory : Memory) : Memory :=
  (memory.write Register.scratch.address (memory.read Register.local.address)).write
    Register.secondScratch.address (memory.read (memory.savedCell frameSize))

/-- The frame of the function is kept in the first scratch cell. -/
@[simp]
theorem read_keepReturn_scratch (memory : Memory) :
    memory.keepReturn.read Register.scratch.address = memory.read Register.local.address := by
  rw [keepReturn, read_write_of_ne (by decide), read_write_self (Register.inRange_address _)]

/-- The place to return to is kept in the second scratch cell. -/
@[simp]
theorem read_keepReturn_secondScratch (memory : Memory) :
    memory.keepReturn.read Register.secondScratch.address =
      memory.read (memory.savedCell frameSize) :=
  read_write_self (Register.inRange_address _)

/-- The scratch cells are none of the registers that a frame consists of. -/
theorem read_keepReturn_register (memory : Memory) (register : Register)
    (frame : register ∈ [Register.stackPointer, .local, .argument, .this, .that]) :
    memory.keepReturn.read register.address = memory.read register.address := by
  rw [keepReturn, read_write_of_ne (by revert register; decide),
    read_write_of_ne (by revert register; decide)]

/-- Keeping the place to return to keeps the stack. -/
theorem read_keepReturn {address : Word} (cell : IsStackCell address) (memory : Memory) :
    memory.keepReturn.read address = memory.read address := by
  rw [keepReturn, cell.read_write, cell.read_write]

end Memory

namespace Template

variable {symbols : SymbolTable} {memory : Memory} {a d : Word} {rest : List AssemblyLine}

/-- A computation that does not jump stores its result. -/
theorem execute_compute {text : String} {destination : Destination} {input : Input}
    {computation : Computation} {memory : Memory} {a d : Word}
    (found : instruction? text = some (.compute destination input computation .never))
    (allowed : Computer.touchesMemory destination input → Memory.InRange a) :
    execute symbols (.compute text :: rest) ⟨memory, a, d⟩ =
      execute symbols rest
        (destination.store (computation.eval d (input.value ⟨memory, a, d⟩)) ⟨memory, a, d⟩) := by
  have access : ¬(Computer.touchesMemory destination input && !decide (Memory.InRange a)) := by
    cases touches : Computer.touchesMemory destination input with
    | false => simp
    | true => simpa using allowed touches
  rw [execute, found, Option.bind_some, Instruction.apply, if_neg access, Option.bind_some]

section

variable {text : String} {computation : Computation}

/-- A computation on the address goes to the address. -/
theorem execute_toA
    (found : instruction? text = some (.compute { a := true } .address computation .never)) :
    execute symbols (.compute text :: rest) ⟨memory, a, d⟩ =
      execute symbols rest ⟨memory, computation.eval d a, d⟩ :=
  execute_compute found nofun

theorem execute_toD
    (found : instruction? text = some (.compute { d := true } .address computation .never)) :
    execute symbols (.compute text :: rest) ⟨memory, a, d⟩ =
      execute symbols rest ⟨memory, a, computation.eval d a⟩ :=
  execute_compute found nofun

/-- A computation on the memory goes to the address. -/
theorem execute_fetchA
    (found : instruction? text = some (.compute { a := true } .memory computation .never))
    (inside : Memory.InRange a) :
    execute symbols (.compute text :: rest) ⟨memory, a, d⟩ =
      execute symbols rest ⟨memory, computation.eval d (memory.read a), d⟩ :=
  execute_compute found fun _ => inside

theorem execute_fetchD
    (found : instruction? text = some (.compute { d := true } .memory computation .never))
    (inside : Memory.InRange a) :
    execute symbols (.compute text :: rest) ⟨memory, a, d⟩ =
      execute symbols rest ⟨memory, a, computation.eval d (memory.read a)⟩ :=
  execute_compute found fun _ => inside

/-- A computation on the address goes to the memory. -/
theorem execute_store
    (found : instruction? text = some (.compute { m := true } .address computation .never))
    (inside : Memory.InRange a) :
    execute symbols (.compute text :: rest) ⟨memory, a, d⟩ =
      execute symbols rest ⟨memory.write a (computation.eval d a), a, d⟩ :=
  execute_compute found fun _ => inside

theorem execute_update
    (found : instruction? text = some (.compute { m := true } .memory computation .never))
    (inside : Memory.InRange a) :
    execute symbols (.compute text :: rest) ⟨memory, a, d⟩ =
      execute symbols rest ⟨memory.write a (computation.eval d (memory.read a)), a, d⟩ :=
  execute_compute found fun _ => inside

end

/-- The name of a register loads its address. -/
theorem execute_cell (register : Register) :
    execute symbols (cell register :: rest) ⟨memory, a, d⟩ =
      execute symbols rest ⟨memory, register.address, d⟩ := rfl

/-- A number loads itself. -/
theorem execute_number (value : Word) :
    execute symbols (number value :: rest) ⟨memory, a, d⟩ =
      execute symbols rest ⟨memory, value, d⟩ := rfl

/-- A symbol loads its address. -/
theorem execute_symbol (name : String) :
    execute symbols (symbol name :: rest) ⟨memory, a, d⟩ =
      execute symbols rest ⟨memory, symbols.getD name 0, d⟩ := rfl

/-! ## The stack -/

/-- The data is pushed. -/
theorem execute_pushD (room : IsStackCell (memory.read Register.stackPointer.address)) :
    execute symbols pushD ⟨memory, a, d⟩ =
      some ⟨memory.push d, Register.stackPointer.address, d⟩ := by
  have pointer := Register.inRange_address .stackPointer
  rw [pushD, execute_cell, execute_fetchA rfl pointer]
  simp only [Computation.eval]
  rw [execute_store rfl room.inRange, execute_cell, execute_update rfl pointer]
  simp only [Computation.eval, room.read_register_write]
  rfl

/-- The value on top of the stack is popped into the data. -/
theorem execute_popD (room : IsStackCell (memory.read Register.stackPointer.address - 1)) :
    execute symbols popD ⟨memory, a, d⟩ =
      some ⟨memory.drop, memory.read Register.stackPointer.address - 1, memory.top⟩ := by
  have pointer := Register.inRange_address .stackPointer
  rw [popD, execute_cell, execute_compute rfl fun _ => pointer]
  change execute symbols [.compute "D=M"]
    ⟨memory.drop, memory.read Register.stackPointer.address - 1, d⟩ = _
  rw [execute_fetchD rfl room.inRange, Memory.drop, room.read_write]
  rfl

/-- The address of the value on top of the stack is loaded. -/
theorem execute_top : execute symbols top ⟨memory, a, d⟩ =
    some ⟨memory, memory.read Register.stackPointer.address - 1, d⟩ := by
  rw [top, execute_cell, execute_fetchA rfl (Register.inRange_address _)]
  rfl

/-! ## Operators -/

/-- The value on top of the stack is replaced by what is computed of it. -/
theorem execute_unary {text : String} {computation : Computation} {result : Word → Word}
    (found : instruction? text = some (.compute { m := true } .memory computation .never))
    (computes : ∀ d value, computation.eval d value = result value)
    (room : IsStackCell (memory.read Register.stackPointer.address - 1)) :
    execute symbols (unary text) ⟨memory, a, d⟩ =
      some ⟨memory.unary result, memory.read Register.stackPointer.address - 1, d⟩ := by
  rw [unary, execute_append, execute_top, Option.bind_some, execute_update found room.inRange,
    computes]
  rfl

/-- The lower of two operands is left in its cell, and the upper one is in `D`. -/
theorem execute_operands (room : IsStackCell (memory.read Register.stackPointer.address - 1)) :
    execute symbols (popD ++ .compute "A=A-1" :: rest) ⟨memory, a, d⟩ =
      execute symbols rest
        ⟨memory.drop, memory.read Register.stackPointer.address - 1 - 1, memory.top⟩ := by
  rw [execute_append, execute_popD room, Option.bind_some, execute_toA rfl]
  rfl

/-- The two values on top of the stack are replaced by what is computed of them. -/
theorem execute_binary {text : String} {computation : Computation} {result : Word → Word → Word}
    (found : instruction? text = some (.compute { m := true } .memory computation .never))
    (computes : ∀ upper lower, computation.eval upper lower = result lower upper)
    (room : IsStackCell (memory.read Register.stackPointer.address - 1))
    (second : IsStackCell (memory.read Register.stackPointer.address - 1 - 1)) :
    execute symbols (binary text) ⟨memory, a, d⟩ =
      some ⟨memory.binary result, memory.read Register.stackPointer.address - 1 - 1,
        memory.top⟩ := by
  rw [binary, execute_operands room, execute_update found second.inRange, computes, Memory.drop,
    second.read_write]
  rfl

/-- The lines of a comparison up to its first jump. -/
def compareSetup (labels : ComparisonLabels) : List AssemblyLine :=
  popD ++ [.compute "A=A-1", .compute "D=M-D", symbol labels.holds]

/-- The lines of a comparison that store a value in the place of the operands. -/
def compareStore (text : String) : List AssemblyLine :=
  top ++ [.compute text]

/-- A comparison sets up the difference, branches on it, and stores one answer or the other. -/
theorem comparison_eq (labels : ComparisonLabels) (jump : String) :
    comparison labels jump = compareSetup labels ++ .compute jump :: (compareStore "M=0" ++
      [symbol labels.done] ++ .compute "0;JMP" :: .label labels.holds ::
        (compareStore "M=-1" ++ [.label labels.done])) := by
  simp [comparison, compareSetup, compareStore]

/-- The difference of the operands is computed, and the first label loaded. -/
theorem execute_compareSetup {labels : ComparisonLabels}
    (room : IsStackCell (memory.read Register.stackPointer.address - 1))
    (second : IsStackCell (memory.read Register.stackPointer.address - 1 - 1)) :
    execute symbols (compareSetup labels) ⟨memory, a, d⟩ =
      some ⟨memory.drop, symbols.getD labels.holds 0,
        memory.read (memory.read Register.stackPointer.address - 1 - 1) - memory.top⟩ := by
  rw [compareSetup, execute_operands room, execute_fetchD rfl second.inRange, execute_symbol,
    Memory.drop, second.read_write]
  rfl

/-- An answer is stored in the place of the lower operand. -/
theorem execute_compareStore {text : String} {computation : Computation} {value : Word}
    (found : instruction? text = some (.compute { m := true } .address computation .never))
    (computes : ∀ d a, computation.eval d a = value)
    (second : IsStackCell (memory.read Register.stackPointer.address - 1 - 1)) :
    execute symbols (compareStore text) ⟨memory.drop, a, d⟩ =
      some ⟨memory.drop.write (memory.read Register.stackPointer.address - 1 - 1) value,
        memory.read Register.stackPointer.address - 1 - 1, d⟩ := by
  have pointer : memory.drop.read Register.stackPointer.address =
      memory.read Register.stackPointer.address - 1 :=
    Memory.read_write_self (Register.inRange_address _)
  rw [compareStore, execute_append, execute_top, Option.bind_some, pointer,
    execute_store found second.inRange, computes]
  rfl

/-- The answer that the comparison does not hold is stored, and the other label loaded. -/
theorem execute_compareFails {name : String}
    (second : IsStackCell (memory.read Register.stackPointer.address - 1 - 1)) :
    execute symbols (compareStore "M=0" ++ [symbol name]) ⟨memory.drop, a, d⟩ =
      some ⟨memory.drop.write (memory.read Register.stackPointer.address - 1 - 1) 0,
        symbols.getD name 0, d⟩ := by
  rw [execute_append, execute_compareStore rfl (fun _ _ => rfl) second, Option.bind_some,
    execute_symbol]
  rfl

/-! ## Segments -/

/-- The address that a base stands for. -/
def Base.value (memory : Memory) : Base → Word
  | register base => memory.read base.address
  | fixed address => address

/-- The cell at a location; a constant has none. -/
def Location.cell? (symbols : SymbolTable) (memory : Memory) : Location → Option Word
  | constant _ => none
  | indexed base index => some (base.value memory + index)
  | named operand => some (operand.value symbols)

/-- The base of a segment is loaded. -/
theorem execute_base (base : Base) : ∃ a', execute symbols base.load ⟨memory, a, d⟩ =
    some ⟨memory, a', base.value memory⟩ := by
  cases base with
  | register cell =>
    refine ⟨cell.address, ?_⟩
    rw [Base.load, execute_cell, execute_fetchD rfl cell.inRange_address]
    rfl
  | fixed address =>
    refine ⟨address, ?_⟩
    rw [Base.load, execute_number, execute_toD rfl]
    rfl

/-- A constant of any size is loaded. -/
theorem execute_loadConstant (value : Word) : ∃ a', execute symbols (loadConstant value)
    ⟨memory, a, d⟩ = some ⟨memory, a', value⟩ := by
  rw [loadConstant]
  split
  · refine ⟨value, ?_⟩
    rw [execute_number, execute_toD rfl]
    rfl
  · refine ⟨~~~value, ?_⟩
    rw [execute_number, execute_toD rfl]
    simp [execute, Computation.eval]

/-- Pushing from a location pushes the value of its cell. -/
theorem execute_pushFrom {location : Location} {cell : Word}
    (located : location.cell? symbols memory = some cell) (inside : Memory.InRange cell)
    (room : IsStackCell (memory.read Register.stackPointer.address)) :
    ∃ a' d', execute symbols (pushFrom location) ⟨memory, a, d⟩ =
      some ⟨memory.push (memory.read cell), a', d'⟩ := by
  refine ⟨Register.stackPointer.address, memory.read cell, ?_⟩
  cases location with
  | constant value => cases located
  | indexed base index =>
    cases located
    obtain ⟨a', loaded⟩ := execute_base base
    rw [pushFrom, execute_append, execute_append, loaded, Option.bind_some, execute_number,
      execute_toA rfl]
    simp only [Computation.eval]
    rw [execute_fetchD rfl inside, execute, Option.bind_some]
    exact execute_pushD room
  | named operand =>
    cases located
    rw [pushFrom, execute_append, execute, execute_fetchD rfl inside, execute, Option.bind_some]
    exact execute_pushD room

/-- A constant is pushed. -/
theorem execute_pushConstant (value : Word)
    (room : IsStackCell (memory.read Register.stackPointer.address)) :
    ∃ a' d', execute symbols (pushFrom (.constant value)) ⟨memory, a, d⟩ =
      some ⟨memory.push value, a', d'⟩ := by
  obtain ⟨a', loaded⟩ := execute_loadConstant value
  refine ⟨Register.stackPointer.address, value, ?_⟩
  rw [pushFrom, execute_append, loaded, Option.bind_some, execute_pushD room]

/-- The value is popped into the cell whose address is in the scratch cell. -/
theorem execute_popToScratch {cell : Word} (inside : Memory.InRange cell)
    (kept : memory.read Register.scratch.address = cell)
    (room : IsStackCell (memory.read Register.stackPointer.address - 1)) :
    execute symbols popToScratch ⟨memory, a, d⟩ =
      some ⟨memory.drop.write cell memory.top, cell, memory.top⟩ := by
  have scratch : memory.drop.read Register.scratch.address = cell := by
    rw [Memory.drop, Memory.read_write_of_ne (by decide), kept]
  rw [popToScratch, execute_append, execute_popD room, Option.bind_some, execute_cell,
    execute_fetchA rfl (Register.inRange_address _)]
  simp only [Computation.eval, scratch]
  rw [execute_store rfl inside]
  rfl

/-- The memory while the address of a location is kept in the scratch cell, which it is for an
indexed location only. -/
def Location.marked (memory : Memory) : Location → Memory
  | constant _ | named _ => memory
  | indexed base index => memory.write Register.scratch.address (base.value memory + index)

/-- Popping into a location stores the top of the stack in its cell. -/
theorem execute_popInto {location : Location} {lines : List AssemblyLine}
    (popped : popInto location = .ok lines) {cell : Word}
    (located : location.cell? symbols memory = some cell) (inside : Memory.InRange cell)
    (room : IsStackCell (memory.read Register.stackPointer.address - 1)) :
    ∃ a' d', execute symbols lines ⟨memory, a, d⟩ =
      some ⟨(location.marked memory).drop.write cell memory.top, a', d'⟩ := by
  cases location with
  | constant value => cases located
  | indexed base index =>
    cases located
    cases popped
    refine ⟨base.value memory + index, memory.top, ?_⟩
    have scratch := Register.inRange_address .scratch
    obtain ⟨a', loaded⟩ := execute_base base
    rw [execute_append, execute_append, loaded, Option.bind_some, execute_number, execute_toD rfl,
      execute_cell, execute_store rfl scratch, execute, Option.bind_some]
    simp only [Computation.eval]
    have other : Register.scratch ≠ .stackPointer := by decide
    rw [execute_popToScratch inside (Memory.read_write_self scratch)
      (by rwa [Memory.read_register_write_register other]), Memory.top_write_register other room]
    rfl
  | named operand =>
    cases located
    cases popped
    refine ⟨operand.value symbols, memory.top, ?_⟩
    rw [execute_append, execute_popD room, Option.bind_some, execute, execute_store rfl inside]
    rfl

/-! ## Functions -/

/-- The loop of a function clears its local cells one by one. -/
theorem execute_clear {count : Nat} {address : Word}
    (room : ∀ offset < count, Memory.InRange (address + BitVec.ofNat 16 offset)) :
    execute symbols
        (List.replicate count [AssemblyLine.compute "M=0", .compute "A=A+1"]).flatten
        ⟨memory, address, d⟩ =
      some ⟨memory.clear count address, address + BitVec.ofNat 16 count, d⟩ := by
  induction count generalizing memory address with
  | zero =>
    rw [List.replicate_zero, List.flatten_nil, execute, Word.add_ofNat_zero]
    rfl
  | succ count hypothesis =>
    have first : Memory.InRange address := by
      have zero := room 0 (Nat.succ_pos count)
      rwa [Word.add_ofNat_zero] at zero
    have later : ∀ offset < count, Memory.InRange (address + 1 + BitVec.ofNat 16 offset) := by
      intro offset below
      rw [← Word.add_ofNat_succ]
      exact room (offset + 1) (Nat.succ_lt_succ below)
    rw [List.replicate_succ, List.flatten_cons, execute_append, execute_store rfl first,
      execute_toA rfl, execute, Option.bind_some]
    simp only [Computation.eval]
    rw [hypothesis later, Word.add_ofNat_succ]
    rfl

/-- The local cells are cleared, one after another. -/
theorem execute_function {name : String} {locals : Word} (some : locals ≠ 0)
    (room : memory.HasRoom locals.toNat) :
    ∃ a' d', execute symbols (function name locals) ⟨memory, a, d⟩ =
      .some ⟨memory.enter locals, a', d'⟩ := by
  have pointer := Register.inRange_address .stackPointer
  refine ⟨Register.stackPointer.address,
    memory.read Register.stackPointer.address + locals, ?_⟩
  rw [function, if_neg some, execute, execute_append, execute_append, execute_cell,
    execute_fetchA rfl pointer, execute, Option.bind_some]
  simp only [Computation.eval]
  rw [execute_clear fun offset below => (room offset below).inRange, Option.bind_some,
    execute_toD rfl, execute_cell, execute_store rfl pointer, BitVec.ofNat_toNat,
    BitVec.setWidth_eq]
  rfl

/-- A register is saved on the stack. -/
theorem execute_pushRegister (register : Register)
    (room : IsStackCell (memory.read Register.stackPointer.address)) :
    execute symbols (pushRegister register) ⟨memory, a, d⟩ = some ⟨memory.save register,
      Register.stackPointer.address, memory.read register.address⟩ := by
  rw [pushRegister, execute_append, execute_cell, execute_fetchD rfl register.inRange_address,
    execute, Option.bind_some, execute_pushD room]
  rfl

/-- The lines of a call up to its jump. -/
def callSetup (returnLabel function : String) (arguments : Word) : List AssemblyLine :=
  [symbol returnLabel, .compute "D=A"] ++ pushD ++ pushRegister .local ++ pushRegister .argument ++
    pushRegister .this ++ pushRegister .that ++
    [cell .stackPointer, .compute "D=M", number frameSize, .compute "D=D-A",
      number arguments, .compute "D=D-A", cell .argument, .compute "M=D",
      cell .stackPointer, .compute "D=M", cell .local, .compute "M=D", symbol function]

/-- A call sets up the frame, jumps, and has the label to return to at its end. -/
theorem callWith_eq (returnLabel function : String) (arguments : Word) :
    callWith returnLabel function arguments =
      callSetup returnLabel function arguments ++ [.compute "0;JMP", .label returnLabel] := by
  simp [callWith, callSetup]

/-- The frame is set up for the function, and its label loaded. -/
theorem execute_callSetup (returnLabel function : String) (arguments : Word)
    (room : memory.HasRoom 5) :
    ∃ d', execute symbols (callSetup returnLabel function arguments) ⟨memory, a, d⟩ =
      some ⟨memory.call (symbols.getD returnLabel 0) arguments, symbols.getD function 0, d'⟩ := by
  have pointer := Register.inRange_address .stackPointer
  let afterReturn := memory.push (symbols.getD returnLabel 0)
  have room₁ : afterReturn.HasRoom 4 := room.push _
  have room₂ : (afterReturn.save .local).HasRoom 3 := room₁.push _
  have room₃ : ((afterReturn.save .local).save .argument).HasRoom 2 := room₂.push _
  have room₄ : (((afterReturn.save .local).save .argument).save .this).HasRoom 1 := room₃.push _
  rw [callSetup, execute_append, execute_append, execute_append, execute_append, execute_append,
    execute_append, execute_symbol, execute_toD rfl, execute, Option.bind_some]
  simp only [Computation.eval]
  rw [execute_pushD room.first, Option.bind_some, execute_pushRegister .local room₁.first,
    Option.bind_some, execute_pushRegister .argument room₂.first, Option.bind_some,
    execute_pushRegister .this room₃.first, Option.bind_some,
    execute_pushRegister .that room₄.first, Option.bind_some, execute_cell,
    execute_fetchD rfl pointer, execute_number, execute_toD rfl, execute_number, execute_toD rfl,
    execute_cell, execute_store rfl (Register.inRange_address _), execute_cell,
    execute_fetchD rfl pointer, execute_cell, execute_store rfl (Register.inRange_address _),
    execute_symbol, execute]
  simp only [Computation.eval]
  rw [Memory.read_write_of_ne (by decide)]
  exact ⟨_, rfl⟩

/-! ## Returns -/

/-- What a return restores comes from a cell of the frame, whose end is in the scratch cell. -/
theorem execute_restore {register : Register} {depth frame : Word}
    (kept : memory.read Register.scratch.address = frame) (inside : IsStackCell (frame - depth)) :
    execute symbols (restore register depth) ⟨memory, a, d⟩ =
      some ⟨memory.write register.address (memory.read (frame - depth)), register.address,
        memory.read (frame - depth)⟩ := by
  rw [restore, execute_cell, execute_fetchD rfl (Register.inRange_address _), execute_number,
    execute_toA rfl]
  simp only [Computation.eval, kept]
  rw [execute_fetchD rfl inside.inRange, execute_cell, execute_store rfl register.inRange_address]
  rfl

/-- The lines of a return that keep the end of the frame and the return address. -/
def leaveMark : List AssemblyLine :=
  [cell .local, .compute "D=M", cell .scratch, .compute "M=D",
    number frameSize, .compute "A=D-A", .compute "D=M", cell .secondScratch, .compute "M=D"]

/-- The lines of a return that put the result in its place. -/
def leaveAnswer : List AssemblyLine :=
  popD ++
    [cell .argument, .compute "A=M", .compute "M=D",
      cell .argument, .compute "D=M+1", cell .stackPointer, .compute "M=D"]

/-- The lines of a return that restore the frame of the caller, up to the jump. -/
def leaveRestore : List AssemblyLine :=
  restore .that 1 ++ restore .this 2 ++ restore .argument 3 ++ restore .local 4 ++
    [cell .secondScratch, .compute "A=M"]

/-- A return keeps the place to return to, stores the result, restores the frame and jumps. -/
theorem leave_eq : leave = leaveMark ++ leaveAnswer ++ leaveRestore ++ [.compute "0;JMP"] := by
  simp [leave, leaveMark, leaveAnswer, leaveRestore]

/-- The frame and the place to return to are kept in the scratch cells. -/
theorem execute_leaveMark (inside : IsStackCell (memory.savedCell frameSize)) :
    execute symbols leaveMark ⟨memory, a, d⟩ = some ⟨memory.keepReturn,
      Register.secondScratch.address, memory.read (memory.savedCell frameSize)⟩ := by
  unfold Memory.savedCell at inside ⊢
  rw [leaveMark, execute_cell, execute_fetchD rfl (Register.inRange_address _), execute_cell,
    execute_store rfl (Register.inRange_address _), execute_number, execute_toA rfl]
  simp only [Computation.eval]
  rw [execute_fetchD rfl inside.inRange, execute_cell,
    execute_store rfl (Register.inRange_address _)]
  simp only [Computation.eval]
  rw [inside.read_write]
  rfl

/-- The result is stored in the place of the arguments. -/
theorem execute_leaveAnswer {place : Word}
    (argument : memory.read Register.argument.address = place) (target : IsStackCell place)
    (result : IsStackCell (memory.read Register.stackPointer.address - 1)) :
    execute symbols leaveAnswer ⟨memory, a, d⟩ =
      some ⟨(memory.drop.write place memory.top).write Register.stackPointer.address (place + 1),
        Register.stackPointer.address, place + 1⟩ := by
  have dropped : memory.drop.read Register.argument.address = place := by
    rw [Memory.drop, Memory.read_write_of_ne (by decide), argument]
  rw [leaveAnswer, execute_append, execute_popD result, Option.bind_some, execute_cell,
    execute_fetchA rfl (Register.inRange_address _)]
  simp only [Computation.eval, dropped]
  rw [execute_store rfl target.inRange, execute_cell,
    execute_fetchD rfl (Register.inRange_address _), execute_cell,
    execute_store rfl (Register.inRange_address _)]
  simp only [Computation.eval, target.read_register_write, dropped]
  rfl

/-- While the end of the frame is in the scratch cell, a return restores the frame of the caller. -/
theorem execute_leaveRestore {frame : Word}
    (kept : memory.read Register.scratch.address = frame)
    (inside : ∀ depth ∈ [1, 2, 3, 4], IsStackCell (frame - depth)) :
    ∃ d', execute symbols leaveRestore ⟨memory, a, d⟩ =
      some ⟨(((memory.write Register.that.address (memory.read (frame - 1))).write
        Register.this.address (memory.read (frame - 2))).write
          Register.argument.address (memory.read (frame - 3))).write
            Register.local.address (memory.read (frame - 4)),
        memory.read Register.secondScratch.address, d'⟩ := by
  have one := inside 1 (by decide)
  have two := inside 2 (by decide)
  have three := inside 3 (by decide)
  have four := inside 4 (by decide)
  -- Neither scratch cell is one of the restored registers.
  have scratch : ∀ (memory : Memory) (value : Word), ∀ register ∈ [Register.that, .this, .argument],
      (memory.write register.address value).read Register.scratch.address =
        memory.read Register.scratch.address := by
    intro memory value register member
    exact Memory.read_write_of_ne (by revert register; decide)
  rw [leaveRestore, execute_append, execute_append, execute_append, execute_append,
    execute_restore kept one, Option.bind_some,
    execute_restore (by rw [scratch _ _ _ (by decide), kept]) two, Option.bind_some,
    execute_restore (by rw [scratch _ _ _ (by decide), scratch _ _ _ (by decide), kept]) three,
    Option.bind_some,
    execute_restore (by rw [scratch _ _ _ (by decide), scratch _ _ _ (by decide),
      scratch _ _ _ (by decide), kept]) four,
    Option.bind_some, execute_cell, execute_fetchA rfl (Register.inRange_address _)]
  simp only [Computation.eval, two.read_write, three.read_write, four.read_write]
  rw [Memory.read_write_of_ne (by decide), Memory.read_write_of_ne (by decide),
    Memory.read_write_of_ne (by decide), Memory.read_write_of_ne (by decide)]
  exact ⟨_, rfl⟩

end Template


namespace Template

variable {symbols : SymbolTable} {memory : Memory} {a d : Word}

/-- A return takes down the frame and ends with the return address in `A`. -/
theorem execute_leave
    (result : IsStackCell (memory.read Register.stackPointer.address - 1))
    (target : IsStackCell (memory.read Register.argument.address))
    (inside : ∀ depth ∈ [1, 2, 3, 4, 5], IsStackCell (memory.savedCell depth))
    (apart : ∀ depth ∈ [1, 2, 3, 4],
      memory.read Register.argument.address ≠ memory.savedCell depth) :
    ∃ d', execute symbols (leaveMark ++ leaveAnswer ++ leaveRestore) ⟨memory, a, d⟩ =
      some ⟨memory.keepReturn.leave, memory.read (memory.savedCell frameSize), d'⟩ := by
  have pointer := memory.read_keepReturn_register .stackPointer (by decide)
  have place := memory.read_keepReturn_register .argument (by decide)
  have base := memory.read_keepReturn_register .local (by decide)
  let frame := memory.read Register.local.address
  have bases : ∀ depth ∈ [1, 2, 3, 4], IsStackCell (frame - depth) := by
    intro depth member
    exact inside depth (List.mem_of_mem_take (i := 4) member)
  -- The result goes to its place first; the frame is read from the memory after that.
  let answered := (memory.keepReturn.drop.write (memory.read Register.argument.address)
    memory.keepReturn.top).write Register.stackPointer.address
      (memory.read Register.argument.address + 1)
  have saved : ∀ depth ∈ [1, 2, 3, 4], answered.read (frame - depth) =
      memory.keepReturn.read (memory.keepReturn.savedCell depth) := by
    intro depth member
    have cell := bases depth member
    have different : memory.read Register.argument.address ≠ frame - depth := apart depth member
    rw [cell.read_write, Memory.read_write_of_ne different, Memory.drop, cell.read_write,
      Memory.savedCell, base]
  have scratch : ∀ register ∈ [Register.scratch, .secondScratch],
      answered.read register.address = memory.keepReturn.read register.address := by
    intro register member
    rw [Memory.read_write_of_ne (by revert register; decide), target.read_register_write,
      Memory.drop, Memory.read_write_of_ne (by revert register; decide)]
  obtain ⟨d', restored⟩ := execute_leaveRestore
    ((scratch .scratch (by decide)).trans memory.read_keepReturn_scratch) bases
  refine ⟨d', ?_⟩
  rw [execute_append, execute_append, execute_leaveMark (inside 5 (by decide)), Option.bind_some,
    execute_leaveAnswer place target (by rwa [pointer]), Option.bind_some, restored,
    scratch .secondScratch (by decide), Memory.read_keepReturn_secondScratch,
    saved 1 (by decide), saved 2 (by decide), saved 3 (by decide), saved 4 (by decide),
    Memory.leave, place]

end Template

end HackToolchain
