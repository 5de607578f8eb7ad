import HackToolchain.Proofs.FrameCells

/-! # The discipline of the stack

A command keeps to the discipline of the stack (`Disciplined`) when it takes no values from below
its frame, and stores no value over the stack pointer, over the bases of its own frame or over a
saved frame. Then it keeps the frames (`Memory.InFrame.keeps_perform`), and so does a whole call
whose function keeps them (`Memory.InFrame.keeps_leave`). All of this is about the memory alone.
-/

namespace HackToolchain

/-! ## Commands of a function -/

/-- How many values a part takes from the stack; a call takes its arguments. -/
def Part.operandCount : Part → Nat
  | .bootstrap _ | .command _ (.push _ _) | .command _ (.label _) | .command _ (.goto _)
  | .command _ (.function _ _) => 0
  | .command _ (.operator op) => if op.isUnary then 1 else 2
  | .command _ (.pop _ _) | .command _ (.ifGoto _) | .command _ .return => 1
  | .command _ (.call _ arguments) => arguments.toNat

/-- How far below the end of a frame the cells are that a call has saved. -/
def savedDepths : List Word :=
  [1, 2, 3, 4, 5]

/-- A part keeps to the discipline of the stack while some frames are active. Each frame is given by
its end, which is the base of the local cells. -/
structure StackProgram.Disciplined (program : StackProgram) (frames : List Word) (memory : Memory)
    (part : Part) : Prop where
  stack : ∀ cell ∈ part.stackCells memory, IsStackCell cell
  /-- The values that it takes are in the running frame. -/
  operands : ∀ depth < part.operandCount, (memory.read Register.local.address).toNat + depth <
    (memory.read Register.stackPointer.address).toNat
  /-- A value is stored in the memory, but not in the way of calls. -/
  target : ∀ cell ∈ program.poppedCell? memory part, Memory.InRange cell ∧
    (∀ register ∈ [Register.stackPointer, .local, .argument], cell ≠ register.address) ∧
    ∀ frame ∈ frames, ∀ depth ∈ savedDepths, cell ≠ frame - depth

/-- A part that pops into no cell keeps to the discipline if its stack does. -/
theorem StackProgram.Disciplined.of_stack {program : StackProgram} {frames : List Word}
    {memory : Memory} {part : Part} (stack : ∀ cell ∈ part.stackCells memory, IsStackCell cell)
    (operands : ∀ depth < part.operandCount, (memory.read Register.local.address).toNat + depth <
      (memory.read Register.stackPointer.address).toNat)
    (plain : program.poppedCell? memory part = none) :
    program.Disciplined frames memory part where
  stack := stack
  operands := operands
  target := by
    intro cell known
    rw [plain] at known
    cases known

/-- The active frames are stacked up below the running one, and the stack begins in that. -/
structure Memory.InFrame (frames : List Word) (memory : Memory) : Prop where
  frame : ∀ frame ∈ frames, 21 ≤ frame.toNat ∧
    frame.toNat ≤ (memory.read Register.local.address).toNat
  stack : (memory.read Register.local.address).toNat ≤
    (memory.read Register.stackPointer.address).toNat
  room : (memory.read Register.stackPointer.address).toNat ≤ memorySize

/-- The running frame and the saved cells of the active ones are still the same. -/
structure Memory.Keeps (frames : List Word) (first last : Memory) : Prop where
  base : ∀ register ∈ [Register.local, .argument],
    last.read register.address = first.read register.address
  saved : ∀ frame ∈ frames, ∀ depth ∈ savedDepths,
    last.read (frame - depth) = first.read (frame - depth)

theorem Memory.Keeps.refl (frames : List Word) (memory : Memory) : Keeps frames memory memory :=
  ⟨fun _ _ => rfl, fun _ _ _ _ => rfl⟩

theorem Memory.Keeps.trans {frames : List Word} {first middle last : Memory}
    (left : Keeps frames first middle) (right : Keeps frames middle last) :
    Keeps frames first last where
  base register member := (right.base register member).trans (left.base register member)
  saved frame active depth member :=
    (right.saved frame active depth member).trans (left.saved frame active depth member)

/-- The saved cells are below their frame, and above the registers. -/
theorem Word.toNat_sub_savedDepth {frame depth : Word} (low : 21 ≤ frame.toNat)
    (member : depth ∈ savedDepths) :
    16 ≤ (frame - depth).toNat ∧ (frame - depth).toNat < frame.toNat := by
  have bounds : 1 ≤ depth.toNat ∧ depth.toNat ≤ 5 := by
    simp only [savedDepths, List.mem_cons, List.not_mem_nil, or_false] at member
    rcases member with rfl | rfl | rfl | rfl | rfl <;> decide
  have order : depth ≤ frame := by
    rw [BitVec.le_def]
    omega
  rw [BitVec.toNat_sub_of_le order]
  omega

theorem Word.toNat_pred {word : Word} (positive : 0 < word.toNat) :
    (word - 1).toNat = word.toNat - 1 :=
  BitVec.toNat_sub_of_le (BitVec.le_def.mpr positive)

theorem Word.toNat_succ {word : Word} (inside : Memory.InRange word) :
    (word + 1).toNat = word.toNat + 1 := by
  rw [Memory.InRange, memorySize] at inside
  exact BitVec.toNat_add_of_lt (by change _ + 1 < 65536; omega)

namespace Memory.InFrame

variable {frames : List Word} {memory : Memory}

/-- Saved cells are cells of the stack below the running frame. -/
theorem savedCell (inside : memory.InFrame frames) {frame depth : Word} (active : frame ∈ frames)
    (member : depth ∈ savedDepths) : IsStackCell (frame - depth) ∧
      (frame - depth).toNat < (memory.read Register.local.address).toNat := by
  obtain ⟨low, high⟩ := inside.frame frame active
  have bounds := Word.toNat_sub_savedDepth low member
  have stack := inside.stack
  have room := inside.room
  exact ⟨⟨bounds.1, by omega⟩, by omega⟩

/-- A part of a function uses cells of the stack in the running frame only. -/
theorem le_of_mem_stackCells (inside : memory.InFrame frames) {program : StackProgram} {part : Part}
    (stays : part.isLocal) (disciplined : program.Disciplined frames memory part) {cell : Word}
    (member : cell ∈ part.stackCells memory) :
    (memory.read Register.local.address).toNat ≤ cell.toNat := by
  have stack := inside.stack
  have operands := disciplined.operands
  have room := disciplined.stack
  have upper : 0 < part.operandCount → (memory.read Register.local.address).toNat ≤
      (memory.read Register.stackPointer.address - 1).toNat := by
    intro some
    have top := operands 0 some
    rw [Word.toNat_pred (by omega)]
    omega
  cases part with
  | bootstrap entry => cases stays
  | command unit given =>
    cases given with
    | operator op =>
      rw [Part.stackCells] at member
      rw [Part.operandCount] at operands upper
      split at member
      · rename_i one
        rw [if_pos one] at upper
        rw [List.mem_singleton.mp member]
        exact upper (by decide)
      · rename_i two
        rw [if_neg two] at operands upper
        have first := upper (by decide)
        have second := operands 1 (by decide)
        rcases List.mem_pair.mp member with rfl | rfl
        · exact first
        · rw [Word.toNat_pred] <;> rw [Word.toNat_pred (by omega)] <;> omega
    | push segment index =>
      rw [List.mem_singleton.mp member]
      exact stack
    | pop segment index =>
      rw [List.mem_singleton.mp member]
      exact upper Nat.one_pos
    | label name | goto name => cases member
    | ifGoto name =>
      rw [List.mem_singleton.mp member]
      exact upper Nat.one_pos
    | function name locals =>
      obtain ⟨offset, below, rfl⟩ := List.mem_map.mp member
      have free : memory.HasRoom locals.toNat := by
        intro other small
        exact room _ (List.mem_map.mpr ⟨other, List.mem_range.mpr small, rfl⟩)
      rw [free.toNat_add (List.mem_range.mp below)]
      omega
    | call name arguments => cases stays
    | «return» => cases stays

/-- A part of a function keeps the frames. -/
theorem keeps_perform (inside : memory.InFrame frames) {program : StackProgram} {part : Part}
    (stays : part.isLocal) (disciplined : program.Disciplined frames memory part) (next : Word) :
    Keeps frames memory (program.perform next (program.marked memory part) part) where
  base := by
    intro register member
    apply StackProgram.read_perform_of_isLocal stays
    · exact Register.address_ne (by revert register; decide)
    · exact Register.address_ne (by revert register; decide)
    · exact Register.address_ne (by revert register; decide)
    · intro used
      exact (disciplined.stack _ used).ne_register register rfl
    · intro stored
      exact (disciplined.target _ stored).2.1 register (List.mem_cons_of_mem _ member) rfl
  saved := by
    intro frame active depth member
    obtain ⟨cell, below⟩ := inside.savedCell active member
    apply StackProgram.read_perform_of_isLocal stays (cell.ne_register _) (cell.ne_register _)
      (cell.ne_register _)
    · intro used
      have above := inside.le_of_mem_stackCells stays disciplined used
      omega
    · intro stored
      exact (disciplined.target _ stored).2.2 frame active depth member rfl

/-- The stack pointer stays in the running frame. -/
theorem bounds_movedPointer (inside : memory.InFrame frames) {program : StackProgram} {part : Part}
    (stays : part.isLocal) (disciplined : program.Disciplined frames memory part) :
    (memory.read Register.local.address).toNat ≤
        (part.movedPointer (memory.read Register.stackPointer.address)).toNat ∧
      (part.movedPointer (memory.read Register.stackPointer.address)).toNat ≤ memorySize := by
  have stack := inside.stack
  have room := inside.room
  have operands := disciplined.operands
  have cells := disciplined.stack
  have lowered : 0 < part.operandCount → (memory.read Register.local.address).toNat ≤
      (memory.read Register.stackPointer.address - 1).toNat ∧
      (memory.read Register.stackPointer.address - 1).toNat ≤ memorySize := by
    intro some
    have top := operands 0 some
    rw [Word.toNat_pred (by omega)]
    omega
  cases part with
  | bootstrap entry => cases stays
  | command unit given =>
    cases given with
    | operator op =>
      rw [Part.operandCount] at lowered
      rw [Part.movedPointer]
      split
      · exact ⟨stack, room⟩
      · rename_i two
        rw [if_neg two] at lowered
        exact lowered Nat.two_pos
    | push segment index =>
      have cell := (cells _ (List.mem_singleton.mpr rfl)).inRange
      rw [Part.movedPointer, Word.toNat_succ cell]
      rw [Memory.InRange] at cell
      omega
    | pop segment index => exact lowered Nat.one_pos
    | label name | goto name => exact ⟨stack, room⟩
    | ifGoto name => exact lowered Nat.one_pos
    | function name locals =>
      have free : memory.HasRoom locals.toNat := by
        intro other small
        exact cells _ (List.mem_map.mpr ⟨other, List.mem_range.mpr small, rfl⟩)
      have fits := free.le room
      have shifted : (memory.read Register.stackPointer.address + locals).toNat =
          (memory.read Register.stackPointer.address).toNat + locals.toNat := by
        rw [memorySize] at fits
        exact BitVec.toNat_add_of_lt (by omega)
      rw [Part.movedPointer, shifted]
      omega
    | call name arguments => cases stays
    | «return» => cases stays

/-- A memory that keeps the frames is in them, as long as its stack is. -/
theorem of_keeps (inside : memory.InFrame frames) {last : Memory}
    (keeps : Keeps frames memory last)
    (stack : (memory.read Register.local.address).toNat ≤
      (last.read Register.stackPointer.address).toNat)
    (room : (last.read Register.stackPointer.address).toNat ≤ memorySize) :
    last.InFrame frames := by
  have same := keeps.base .local List.mem_cons_self
  refine ⟨?_, ?_, room⟩
  · rw [same]
    exact inside.frame
  · rw [same]
    exact stack

end Memory.InFrame

/-! ## Whole calls -/

/-- A cell counted from the local cells is one counted from the stack before the call. -/
theorem Word.add_five_sub (word offset : Word) : word + 5 - (5 - offset) = word + offset := by
  grind

/-- The running function has been called from a memory, and its frame is still as the call has set
it up. -/
structure Memory.Called (next arguments : Word) (first last : Memory) : Prop where
  room : first.HasRoom 5
  frame : last.read Register.local.address = first.read Register.stackPointer.address + 5
  place : last.read Register.argument.address =
    first.read Register.stackPointer.address - arguments
  saved : ∀ {offset : Nat} {value : Word}, (first.callerFrame next)[offset]? = some value →
    last.read (first.read Register.stackPointer.address + BitVec.ofNat 16 offset) = value

namespace Memory.Called

variable {next arguments : Word} {first last : Memory}

/-- The saved cells are those that the call has pushed. -/
theorem savedCell (called : Called next arguments first last) :
    ∀ entry ∈ [((1 : Word), 4), (2, 3), (3, 2), (4, 1), (5, 0)], last.savedCell entry.1 =
      first.read Register.stackPointer.address + BitVec.ofNat 16 entry.2 := by
  have shift := Word.add_five_sub (first.read Register.stackPointer.address)
  simp only [List.forall_mem_cons, Memory.savedCell, called.frame]
  exact ⟨shift 4, shift 3, shift 2, shift 1, shift 0,
    List.forall_mem_nil _⟩

/-- The place of the result is below the saved bases. -/
theorem place_ne (called : Called next arguments first last)
    (low : arguments.toNat ≤ (first.read Register.stackPointer.address).toNat) :
    ∀ depth ∈ [1, 2, 3, 4], last.read Register.argument.address ≠ last.savedCell depth := by
  have below : (first.read Register.stackPointer.address - arguments).toNat ≤
      (first.read Register.stackPointer.address).toNat := by
    rw [BitVec.toNat_sub_of_le (BitVec.le_def.mpr low)]
    omega
  have apart : ∀ offset < 5, 0 < offset →
      last.read Register.argument.address ≠
        first.read Register.stackPointer.address + BitVec.ofNat 16 offset := by
    intro offset small positive same
    have shifted := called.room.toNat_add small
    rw [← same, called.place] at shifted
    omega
  have cells := called.savedCell
  simp only [List.forall_mem_cons] at cells ⊢
  obtain ⟨that, this, argument, base, -⟩ := cells
  rw [that, this, argument, base]
  exact ⟨apart 4 (by omega) (by omega), apart 3 (by omega) (by omega),
    apart 2 (by omega) (by omega), apart 1 (by omega) (by omega), List.forall_mem_nil _⟩

/-- A return restores the bases of the caller. -/
theorem read_leave_base (called : Called next arguments first last) :
    ∀ register ∈ [Register.local, .argument, .this, .that],
      last.keepReturn.leave.read register.address = first.read register.address := by
  have bases := @Memory.read_leave_base last.keepReturn
  have cells := called.savedCell
  have kept : ∀ offset < 5, ∀ value, (first.callerFrame next)[offset]? = some value →
      last.keepReturn.read
        (first.read Register.stackPointer.address + BitVec.ofNat 16 offset) = value := by
    intro offset small value found
    rw [read_keepReturn (called.room offset small), called.saved found]
  simp only [List.forall_mem_cons, savedCell_keepReturn] at bases cells ⊢
  obtain ⟨that, this, argument, base, -⟩ := bases
  obtain ⟨first, second, third, fourth, -⟩ := cells
  rw [that, this, argument, base, first, second, third, fourth]
  exact ⟨kept 1 (by omega) _ rfl, kept 2 (by omega) _ rfl, kept 3 (by omega) _ rfl,
    kept 4 (by omega) _ rfl, List.forall_mem_nil _⟩

/-- A memory that keeps the frame of a call has what the call saved. -/
theorem of_keeps {frames : List Word} (room : first.HasRoom 5)
    (keeps : Keeps ((first.read Register.stackPointer.address + 5) :: frames)
      (first.call next arguments) last) : Called next arguments first last where
  room := room
  frame := (keeps.base .local (by simp)).trans (read_call_local room)
  place := (keeps.base .argument (by simp)).trans (read_call_argument room)
  saved := by
    intro offset value found
    have small : offset < 5 := (List.getElem?_eq_some_iff.mp found).1
    have depth : ∀ offset < 5, 5 - BitVec.ofNat 16 offset ∈ savedDepths := by decide
    rw [← Word.add_five_sub, keeps.saved _ List.mem_cons_self _ (depth offset small),
      Word.add_five_sub, read_call_frame room found]

end Memory.Called

/-- What a caller has after a call: its bases, and the result in the place of the arguments. -/
structure Memory.Resumes (arguments : Word) (first leaving last : Memory) : Prop where
  base : ∀ register ∈ [Register.local, .argument, .this, .that],
    last.read register.address = first.read register.address
  pointer : last.read Register.stackPointer.address =
    first.read Register.stackPointer.address - arguments + 1
  result : last.read (first.read Register.stackPointer.address - arguments) = leaving.top

/-- After the return the frame of the caller is there again. -/
theorem Memory.Called.resumes {next arguments : Word} {first last : Memory}
    (called : Called next arguments first last)
    (place : IsStackCell (last.read Register.argument.address))
    (result : IsStackCell (last.read Register.stackPointer.address - 1)) :
    Resumes arguments first last last.keepReturn.leave where
  base := called.read_leave_base
  pointer := by
    rw [read_leave_pointer, read_keepReturn_register last .argument (by decide), called.place]
  result := by
    rw [called.place] at place
    rw [read_leave place, read_keepReturn_register last .argument (by decide), called.place,
      if_pos rfl, top_keepReturn result]

/-- A call starts a frame above the frames that are active. -/
theorem Memory.inFrame_call {first : Memory} {frames : List Word} (room : first.HasRoom 5)
    (below : ∀ frame ∈ frames, 21 ≤ frame.toNat ∧
      frame.toNat ≤ (first.read Register.stackPointer.address).toNat) (next arguments : Word) :
    (first.call next arguments).InFrame
      ((first.read Register.stackPointer.address + 5) :: frames) := by
  have low := room.first.1
  have high := room.le (Nat.le_of_lt room.first.2)
  have shifted : (first.read Register.stackPointer.address + 5).toNat =
      (first.read Register.stackPointer.address).toNat + 5 := by
    rw [memorySize] at high
    exact BitVec.toNat_add_of_lt (by change _ + 5 < 65536; omega)
  refine ⟨?_, ?_, ?_⟩
  · rw [read_call_local room, shifted, List.forall_mem_cons, shifted]
    refine ⟨by omega, ?_⟩
    intro frame active
    have bounds := below frame active
    omega
  · rw [read_call_local room, read_call_pointer room]
  · rw [read_call_pointer room, shifted]
    exact high

/-- A whole call keeps the frames that were active before it. -/
theorem Memory.InFrame.keeps_leave {frames : List Word} {first leaving : Memory}
    (inside : first.InFrame frames) {next arguments : Word} (room : first.HasRoom 5)
    (low : (first.read Register.local.address).toNat + arguments.toNat ≤
      (first.read Register.stackPointer.address).toNat)
    (keeps : Keeps ((first.read Register.stackPointer.address + 5) :: frames)
      (first.call next arguments) leaving) :
    Keeps frames first leaving.keepReturn.leave where
  base := by
    intro register member
    refine (Called.of_keeps room keeps).read_leave_base register ?_
    exact List.mem_of_mem_take (i := 2) member
  saved := by
    intro frame active depth member
    obtain ⟨cell, below⟩ := inside.savedCell active member
    have place : leaving.read Register.argument.address ≠ frame - depth := by
      intro same
      have order : arguments ≤ first.read Register.stackPointer.address := by
        rw [BitVec.le_def]
        omega
      have value := BitVec.toNat_sub_of_le order
      rw [← (Called.of_keeps room keeps).place, same] at value
      omega
    rw [read_leave cell, read_keepReturn_register leaving .argument (by decide), if_neg place,
      read_keepReturn cell, keeps.saved frame (List.mem_cons_of_mem _ active) depth member,
      read_call_of_lt room cell (by omega)]

/-- The caller is in its frames again after a call. -/
theorem Memory.Resumes.inFrame {frames : List Word} {arguments : Word} {first leaving last : Memory}
    (resumes : Resumes arguments first leaving last) (inside : first.InFrame frames)
    (keeps : Keeps frames first last) (room : first.HasRoom 5)
    (low : (first.read Register.local.address).toNat + arguments.toNat ≤
      (first.read Register.stackPointer.address).toNat) : last.InFrame frames := by
  have order : arguments ≤ first.read Register.stackPointer.address := by
    rw [BitVec.le_def]
    omega
  have high := room.first.2
  have value := BitVec.toNat_sub_of_le order
  have pointer : (last.read Register.stackPointer.address).toNat =
      (first.read Register.stackPointer.address).toNat - arguments.toNat + 1 := by
    rw [resumes.pointer, Word.toNat_succ (by rw [Memory.InRange]; omega), value]
  exact inside.of_keeps keeps (by omega) (by omega)

end HackToolchain
