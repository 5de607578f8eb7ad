import HackToolchain.Proofs.Simulation

/-! # Cells of frames

What calls, returns and the commands in between do to single cells: a call saves the frame of the
caller in the five cells below the new frame, a return takes it from there, and every other command
writes to few cells besides the stack pointer.
-/

namespace HackToolchain

namespace Memory

variable {memory : Memory}

/-! ## Pushing several values -/

/-- There is no carry in the addresses of free cells. -/
theorem HasRoom.toNat_add {count : Nat} (room : memory.HasRoom count) {offset : Nat}
    (below : offset < count) :
    (memory.read Register.stackPointer.address + BitVec.ofNat 16 offset).toNat =
      (memory.read Register.stackPointer.address).toNat + offset := by
  induction offset with
  | zero => rw [Word.add_ofNat_zero, Nat.add_zero]
  | succ offset hypothesis =>
    have earlier := hypothesis (Nat.lt_of_succ_lt below)
    have bound := (room offset (Nat.lt_of_succ_lt below)).2
    rw [BitVec.ofNat_add, ← BitVec.add_assoc, BitVec.toNat_add, earlier]
    rw [earlier] at bound
    simp only [memorySize] at bound
    change (_ + _ + 1) % 65536 = _
    omega

/-- The room on a stack ends with the memory. -/
theorem HasRoom.le {count : Nat} (room : memory.HasRoom count)
    (high : (memory.read Register.stackPointer.address).toNat ≤ memorySize) :
    (memory.read Register.stackPointer.address).toNat + count ≤ memorySize := by
  cases count with
  | zero => exact high
  | succ count =>
    have bound := (room count (Nat.lt_succ_self count)).2
    rw [room.toNat_add (Nat.lt_succ_self count)] at bound
    omega

/-- Puts values on the stack one after another. -/
def pushAll : List Word → Memory → Memory
  | [], memory => memory
  | value :: rest, memory => pushAll rest (memory.push value)

/-- A push changes the cell on top and the pointer only. -/
theorem read_push_of_ne {address value : Word}
    (cell : address ≠ memory.read Register.stackPointer.address)
    (pointer : address ≠ Register.stackPointer.address) :
    (memory.push value).read address = memory.read address := by
  rw [push, read_write_of_ne pointer.symm, read_write_of_ne cell.symm]

/-- A pushed value is in the cell on top. -/
theorem read_push_self {value : Word}
    (room : IsStackCell (memory.read Register.stackPointer.address)) :
    (memory.push value).read (memory.read Register.stackPointer.address) = value := by
  rw [push, room.read_write, read_write_self room.inRange]

/-- Pushing values changes their cells and the pointer only. -/
theorem read_pushAll_of_ne {values : List Word} {address : Word}
    (pointer : address ≠ Register.stackPointer.address)
    (apart : ∀ offset < values.length,
      address ≠ memory.read Register.stackPointer.address + BitVec.ofNat 16 offset) :
    (memory.pushAll values).read address = memory.read address := by
  induction values generalizing memory with
  | nil => rfl
  | cons value rest hypothesis =>
    have first := apart 0 (Nat.succ_pos _)
    rw [Word.add_ofNat_zero] at first
    rw [pushAll, hypothesis, read_push_of_ne first pointer]
    intro offset below
    rw [read_push_pointer, ← Word.add_ofNat_succ]
    exact apart (offset + 1) (Nat.succ_lt_succ below)

/-- Pushing values moves the pointer by their number. -/
theorem read_pushAll_pointer (memory : Memory) (values : List Word) :
    (memory.pushAll values).read Register.stackPointer.address =
      memory.read Register.stackPointer.address + BitVec.ofNat 16 values.length := by
  induction values generalizing memory with
  | nil => rw [pushAll, List.length_nil, Word.add_ofNat_zero]
  | cons value rest hypothesis =>
    rw [pushAll, hypothesis, read_push_pointer, List.length_cons, Word.add_ofNat_succ]

/-- Pushed values are in the cells on top, one after another. -/
theorem read_pushAll {values : List Word} (room : memory.HasRoom values.length) {offset : Nat}
    {value : Word} (found : values[offset]? = some value) :
    (memory.pushAll values).read
      (memory.read Register.stackPointer.address + BitVec.ofNat 16 offset) = value := by
  induction values generalizing memory offset with
  | nil => cases found
  | cons first rest hypothesis =>
    cases offset with
    | zero =>
      cases found
      rw [Word.add_ofNat_zero, pushAll, read_pushAll_of_ne (room.first.ne_register _),
        read_push_self room.first]
      intro offset below same
      rw [read_push_pointer, ← Word.add_ofNat_succ] at same
      have shifted := room.toNat_add (Nat.succ_lt_succ below)
      rw [← same] at shifted
      omega
    | succ offset =>
      have later := hypothesis (room.push first) found
      rw [read_push_pointer, ← Word.add_ofNat_succ] at later
      exact later

/-! ## Calls -/

/-- A push keeps the registers but the pointer. -/
theorem read_push_register {register : Register} (other : register ≠ .stackPointer)
    (room : IsStackCell (memory.read Register.stackPointer.address)) (value : Word) :
    (memory.push value).read register.address = memory.read register.address :=
  read_push_of_ne (room.ne_register register).symm (Register.address_ne other)

/-- Saving registers pushes the values that they had before any of them was saved. -/
theorem foldl_save {registers : List Register} (others : .stackPointer ∉ registers)
    (room : memory.HasRoom registers.length) :
    registers.foldl (fun saved register => saved.save register) memory =
      memory.pushAll (registers.map fun register => memory.read register.address) := by
  induction registers generalizing memory with
  | nil => rfl
  | cons register rest hypothesis =>
    have tail : .stackPointer ∉ rest := fun member => others (List.mem_cons_of_mem _ member)
    have same : (rest.map fun other => (memory.save register).read other.address) =
        rest.map fun other => memory.read other.address := by
      apply List.map_congr_left
      intro other member
      exact read_push_register (fun pointer => tail (pointer ▸ member)) room.first _
    have after : (memory.save register).HasRoom rest.length := room.push _
    rw [List.foldl_cons, hypothesis tail after, same]
    rfl

/-- What a call saves. -/
def callerFrame (next : Word) (memory : Memory) : List Word :=
  next :: [Register.local, .argument, .this, .that].map fun register =>
    memory.read register.address

/-- A call pushes the frame of the caller, and moves two of the bases. -/
theorem call_eq (next arguments : Word) (room : memory.HasRoom 5) :
    memory.call next arguments = ((memory.pushAll (memory.callerFrame next)).write
      Register.argument.address
        (memory.read Register.stackPointer.address + 5 - frameSize - arguments)).write
          Register.local.address (memory.read Register.stackPointer.address + 5) := by
  have saved : ((((memory.push next).save .local).save .argument).save .this).save .that =
      memory.pushAll (memory.callerFrame next) := by
    have bases : [Register.local, .argument, .this, .that].map (fun register =>
        (memory.push next).read register.address) =
          [Register.local, .argument, .this, .that].map fun register =>
            memory.read register.address := by
      apply List.map_congr_left
      intro register member
      exact read_push_register (by revert register; decide) room.first next
    have others : Register.stackPointer ∉ [Register.local, .argument, .this, .that] := by decide
    have all := foldl_save others (room.push next)
    rw [bases] at all
    exact all
  simp only [call, saved, read_pushAll_pointer]
  rfl

section

variable {next arguments : Word}

/-- A call moves the pointer by the five cells that it saves. -/
theorem read_call_pointer (room : memory.HasRoom 5) :
    (memory.call next arguments).read Register.stackPointer.address =
      memory.read Register.stackPointer.address + 5 := by
  rw [call_eq next arguments room, read_write_of_ne (by decide),
    read_write_of_ne (by decide), read_pushAll_pointer]
  rfl

/-- The local cells of a function that is called start after the saved cells. -/
theorem read_call_local (room : memory.HasRoom 5) :
    (memory.call next arguments).read Register.local.address =
      memory.read Register.stackPointer.address + 5 := by
  rw [call_eq next arguments room, read_write_self (Register.inRange_address _)]

/-- The arguments of a function that is called are below the saved cells. -/
theorem read_call_argument (room : memory.HasRoom 5) :
    (memory.call next arguments).read Register.argument.address =
      memory.read Register.stackPointer.address - arguments := by
  rw [call_eq next arguments room, read_write_of_ne (by decide),
    read_write_self (Register.inRange_address _)]
  congr 1
  exact BitVec.add_sub_cancel _ _

/-- The cells of the new frame hold what the call saves. -/
theorem read_call_frame (room : memory.HasRoom 5) {offset : Nat} {value : Word}
    (found : (memory.callerFrame next)[offset]? = some value) :
    (memory.call next arguments).read
      (memory.read Register.stackPointer.address + BitVec.ofNat 16 offset) = value := by
  have cell := room offset (List.getElem?_eq_some_iff.mp found).1
  have frame : memory.HasRoom (memory.callerFrame next).length := room
  rw [call_eq next arguments room, cell.read_write, cell.read_write, read_pushAll frame found]

/-- A call writes to no cell below the stack pointer but to registers. -/
theorem read_call_of_lt (room : memory.HasRoom 5) {address : Word} (cell : IsStackCell address)
    (below : address.toNat < (memory.read Register.stackPointer.address).toNat) :
    (memory.call next arguments).read address = memory.read address := by
  rw [call_eq next arguments room, cell.read_write, cell.read_write,
    read_pushAll_of_ne (cell.ne_register _)]
  intro offset small same
  have shifted := room.toNat_add small
  rw [← same] at shifted
  omega

end

/-! ## Returns -/

/-- Keeping the place to return to keeps the value on top of the stack. -/
theorem top_keepReturn (result : IsStackCell (memory.read Register.stackPointer.address - 1)) :
    memory.keepReturn.top = memory.top := by
  rw [top, read_keepReturn_register memory .stackPointer (by decide), read_keepReturn result, top]

/-- Keeping the place to return to keeps the places of the saved cells. -/
theorem savedCell_keepReturn (depth : Word) :
    memory.keepReturn.savedCell depth = memory.savedCell depth := by
  rw [savedCell, read_keepReturn_register memory .local (by decide), savedCell]

/-- After a return the pointer is one above the result. -/
theorem read_leave_pointer : memory.leave.read Register.stackPointer.address =
    memory.read Register.argument.address + 1 := by
  simp only [leave]
  rw [read_write_of_ne (by decide), read_write_of_ne (by decide), read_write_of_ne (by decide),
    read_write_of_ne (by decide), read_write_self (Register.inRange_address _)]

/-- The bases of the caller come from the cells below the frame. -/
theorem read_leave_base : ∀ entry ∈ [(Register.that, 1), (.this, 2), (.argument, 3), (.local, 4)],
    memory.leave.read entry.1.address = memory.read (memory.savedCell entry.2) := by
  have inside := Register.inRange_address
  simp only [List.forall_mem_cons, leave]
  refine ⟨?_, ?_, ?_, ?_, List.forall_mem_nil _⟩
  · rw [read_write_of_ne (by decide), read_write_of_ne (by decide), read_write_of_ne (by decide),
      read_write_self (inside _)]
  · rw [read_write_of_ne (by decide), read_write_of_ne (by decide), read_write_self (inside _)]
  · rw [read_write_of_ne (by decide), read_write_self (inside _)]
  · rw [read_write_self (inside _)]

/-- The place of the result is the only cell that a return writes to, but for registers. -/
theorem read_leave {address : Word} (cell : IsStackCell address) :
    memory.leave.read address =
      if memory.read Register.argument.address = address then memory.top
      else memory.read address := by
  simp only [leave]
  rw [cell.read_write, cell.read_write, cell.read_write, cell.read_write, cell.read_write]
  split
  · rename_i same
    rw [same, read_write_self cell.inRange]
  · rename_i different
    rw [read_write_of_ne different, drop, cell.read_write]

/-! ## Commands inside a frame -/

/-- An operator with one operand changes the cell on top only. -/
theorem read_unary_of_ne {result : Word → Word} {address : Word}
    (cell : address ≠ memory.read Register.stackPointer.address - 1) :
    (memory.unary result).read address = memory.read address := by
  rw [unary, read_write_of_ne cell.symm]

/-- Dropping a value changes the pointer only. -/
theorem read_drop_of_ne {address : Word} (pointer : address ≠ Register.stackPointer.address) :
    memory.drop.read address = memory.read address := by
  rw [drop, read_write_of_ne pointer.symm]

/-- Dropping a value moves the pointer by one. -/
theorem read_drop_pointer (memory : Memory) : memory.drop.read Register.stackPointer.address =
    memory.read Register.stackPointer.address - 1 := by
  rw [drop, read_write_self (Register.inRange_address _)]

/-- An operator with two operands changes the lower cell and the pointer only. -/
theorem read_binary_of_ne {result : Word → Word → Word} {address : Word}
    (cell : address ≠ memory.read Register.stackPointer.address - 1 - 1)
    (pointer : address ≠ Register.stackPointer.address) :
    (memory.binary result).read address = memory.read address := by
  rw [binary, read_write_of_ne cell.symm, read_drop_of_ne pointer]

/-- Clearing cells changes no others. -/
theorem read_clear_of_ne {count : Nat} {start address : Word}
    (apart : ∀ offset < count, address ≠ start + BitVec.ofNat 16 offset) :
    (memory.clear count start).read address = memory.read address := by
  induction count generalizing start memory with
  | zero => rfl
  | succ count hypothesis =>
    have first := apart 0 (Nat.succ_pos _)
    rw [Word.add_ofNat_zero] at first
    rw [clear, hypothesis, read_write_of_ne first.symm]
    intro offset below
    rw [← Word.add_ofNat_succ]
    exact apart (offset + 1) (Nat.succ_lt_succ below)

/-- Entering a function changes its local cells and the pointer only. -/
theorem read_enter_of_ne {locals address : Word}
    (apart : ∀ offset < locals.toNat,
      address ≠ memory.read Register.stackPointer.address + BitVec.ofNat 16 offset)
    (pointer : address ≠ Register.stackPointer.address) :
    (memory.enter locals).read address = memory.read address := by
  rw [enter, read_write_of_ne pointer.symm, read_clear_of_ne apart]

/-- Entering a function moves the pointer by the number of its local cells. -/
theorem read_enter_pointer (memory : Memory) (locals : Word) :
    (memory.enter locals).read Register.stackPointer.address =
      memory.read Register.stackPointer.address + locals := by
  rw [enter, read_write_self (Register.inRange_address _)]

end Memory

/-- An operator changes the pointer and its cells of the stack only. -/
theorem Operator.read_apply_of_ne {memory : Memory} {address : Word} {unit : String}
    (pointer : address ≠ Register.stackPointer.address) (op : Operator)
    (apart : address ∉ (Part.command unit (.operator op)).stackCells memory) :
    (op.apply memory).read address = memory.read address := by
  rw [Part.stackCells] at apart
  rcases op.exists_apply with ⟨one, result, same⟩ | ⟨two, result, same⟩
  · rw [if_pos one, List.mem_singleton] at apart
    rw [same, Memory.read_unary_of_ne apart]
  · rw [if_neg two, List.mem_pair, not_or] at apart
    rw [same, Memory.read_binary_of_ne apart.2 pointer]

/-- Whether a part neither starts nor ends a frame. -/
def Part.isLocal : Part → Bool
  | .bootstrap _ | .command _ (.call _ _) | .command _ .return => false
  | .command _ (.operator _) | .command _ (.push _ _) | .command _ (.pop _ _)
  | .command _ (.label _) | .command _ (.goto _) | .command _ (.ifGoto _)
  | .command _ (.function _ _) => true

/-- The cell of a segment that a part writes to. -/
def StackProgram.poppedCell? (program : StackProgram) (memory : Memory) : Part → Option Word
  | .command unit (.pop segment index) => program.segmentCell? memory unit index segment
  | _ => none

/-- What the code of a part does not write to keeps its value. -/
theorem StackProgram.read_perform_of_isLocal {program : StackProgram} {memory : Memory}
    {part : Part} (stays : part.isLocal) {address : Word}
    (pointer : address ≠ Register.stackPointer.address)
    (scratch : address ≠ Register.scratch.address)
    (second : address ≠ Register.secondScratch.address)
    (stack : address ∉ part.stackCells memory)
    (target : address ∉ program.poppedCell? memory part) (next : Word) :
    (program.perform next (program.marked memory part) part).read address =
      memory.read address := by
  cases part with
  | bootstrap entry => cases stays
  | command unit given =>
    cases given with
    | operator op => exact op.read_apply_of_ne pointer stack
    | push segment index =>
      exact Memory.read_push_of_ne (fun same => stack (List.mem_singleton.mpr same)) pointer
    | pop segment index =>
      have agrees : memory.Agrees (program.marked memory (.command unit (.pop segment index))) :=
        agrees_marked fun _ _ _ => rfl
      have same := agrees address scratch second
      rw [perform, ← segmentCell?_congr agrees]
      cases cell : program.segmentCell? memory unit index segment with
      | none => exact same.symm
      | some found =>
        have different : found ≠ address := by
          rintro rfl
          exact target cell
        exact (Memory.read_write_of_ne different).trans
          ((Memory.read_drop_of_ne pointer).trans same.symm)
    | label name | goto name => rfl
    | ifGoto name => exact Memory.read_drop_of_ne pointer
    | function name locals =>
      refine Memory.read_enter_of_ne ?_ pointer
      intro offset below same
      exact stack (List.mem_map.mpr ⟨offset, List.mem_range.mpr below, same.symm⟩)
    | call name arguments => cases stays
    | «return» => cases stays

/-- Where a part that neither starts nor ends a frame moves the stack pointer. -/
def Part.movedPointer (pointer : Word) : Part → Word
  | .command _ (.operator op) => if op.isUnary then pointer else pointer - 1
  | .command _ (.push _ _) => pointer + 1
  | .command _ (.pop _ _) | .command _ (.ifGoto _) => pointer - 1
  | .command _ (.function _ locals) => pointer + locals
  | .bootstrap _ | .command _ (.label _) | .command _ (.goto _) | .command _ (.call _ _)
  | .command _ .return => pointer

/-- A part of a function moves the pointer as far as its form says. -/
theorem StackProgram.read_perform_pointer {program : StackProgram} {memory : Memory}
    {part : Part} (stays : part.isLocal) (stack : ∀ cell ∈ part.stackCells memory, IsStackCell cell)
    (writable : ∀ unit segment index, part = .command unit (.pop segment index) →
      ∃ cell ∈ program.poppedCell? memory part, cell ≠ Register.stackPointer.address)
    (next : Word) : (program.perform next (program.marked memory part) part).read
      Register.stackPointer.address =
        part.movedPointer (memory.read Register.stackPointer.address) := by
  cases part with
  | bootstrap entry => cases stays
  | command unit given =>
    cases given with
    | operator op =>
      rw [Part.stackCells] at stack
      rw [Part.movedPointer]
      rcases op.exists_apply with ⟨one, result, same⟩ | ⟨two, result, same⟩
      · rw [if_pos one, List.forall_mem_singleton] at stack
        rw [if_pos one, perform, same]
        exact stack.read_register_write _ _ _
      · rw [if_neg two, List.forall_mem_cons, List.forall_mem_singleton] at stack
        rw [if_neg two, perform, same]
        exact (stack.2.read_register_write _ _ _).trans (Memory.read_drop_pointer memory)
    | push segment index => exact Memory.read_push_pointer memory _
    | pop segment index =>
      have agrees : memory.Agrees (program.marked memory (.command unit (.pop segment index))) :=
        agrees_marked fun _ _ _ => rfl
      obtain ⟨cell, found, other⟩ := writable unit segment index rfl
      have known : program.segmentCell? memory unit index segment = some cell := found
      rw [perform, ← segmentCell?_congr agrees, known]
      exact (Memory.read_write_of_ne other).trans
        ((Memory.read_drop_pointer _).trans (congrArg (· - 1) agrees.pointer.symm))
    | label name | goto name => rfl
    | ifGoto name => exact Memory.read_drop_pointer memory
    | function name locals => exact Memory.read_enter_pointer memory locals
    | call name arguments => cases stays
    | «return» => cases stays

end HackToolchain
