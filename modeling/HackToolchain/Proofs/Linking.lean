import HackToolchain.Proofs.TemplateLines
import Mathlib.Tactic.Conv

/-! # Linked programs

A program is linked to the blocks it was assembled from when the instructions of each block stand
where the sizes of the blocks before it say, and every label that a block declares has the address
of the instruction after it. Compiled text that assembles is linked to its blocks.
-/

namespace HackToolchain

/-! ## Composed symbols -/

/-- Digits are characters of symbols. -/
theorem isSymbolCharacter_of_isDigit {character : Char} (digit : character.isDigit) :
    isSymbolCharacter character := by
  simp [isSymbolCharacter, Char.isAlphanum, digit]

/-- Numbers are written with characters of symbols. -/
theorem isSymbolCharacter_of_mem_repr {number : Nat} {character : Char}
    (member : character ∈ number.repr.toList) : isSymbolCharacter character := by
  rw [Nat.toList_repr] at member
  exact isSymbolCharacter_of_isDigit (Nat.isDigit_of_mem_toDigits (by decide) (by decide) member)

/-- A symbol with more characters of symbols behind it is a symbol. -/
theorem isSymbol_append {first second : String} (valid : isSymbol first)
    (tail : second.toList.all isSymbolCharacter) : isSymbol (first ++ second) := by
  rw [isSymbol] at valid ⊢
  rw [String.toList_append]
  split at valid
  · cases valid
  · rename_i start rest same
    rw [Bool.and_eq_true] at valid
    rw [same, List.cons_append]
    change (!start.isDigit && (start :: rest ++ second.toList).all isSymbolCharacter) = true
    rw [List.all_append, Bool.and_eq_true, Bool.and_eq_true]
    exact ⟨valid.1, valid.2, tail⟩

/-- A symbol with a number behind it is a symbol. -/
theorem isSymbol_append_repr {name : String} (valid : isSymbol name) (number : Nat) :
    isSymbol (name ++ number.repr) :=
  isSymbol_append valid (List.all_eq_true.mpr fun _ => isSymbolCharacter_of_mem_repr)

/-- A unit whose name is a symbol has symbols for its static cells. -/
theorem isSymbol_staticSymbol {unit : String} (valid : isSymbol unit) (index : Word) :
    isSymbol (Template.staticSymbol unit index) :=
  isSymbol_append_repr (isSymbol_append valid (by decide)) index.toNat

/-- Labels that are composed of symbols are symbols. -/
theorem composable_isSymbol : Composable (fun name => isSymbol name) where
  comparison number := ⟨isSymbol_append_repr (by decide) number,
    isSymbol_append_repr (by decide) number⟩
  call _ number valid := isSymbol_append_repr (isSymbol_append valid (by decide)) number

/-- Numbers are plain. -/
theorem isPlain_repr (number : Nat) : IsPlain number.repr :=
  fun _ member => isWordCharacter_of_isSymbolCharacter (isSymbolCharacter_of_mem_repr member)

/-- Labels that are composed of plain names are plain. -/
theorem composable_isPlain : Composable IsPlain where
  comparison number := ⟨IsPlain.append (by decide) (isPlain_repr number),
    IsPlain.append (by decide) (isPlain_repr number)⟩
  call _ number plain := (plain.append (by decide)).append (isPlain_repr number)

/-! ## Lines and instructions -/

/-- The address of a register. -/
def Register.address : Register → Word
  | stackPointer => 0
  | .local => 1
  | argument => 2
  | this => 3
  | that => 4
  | scratch => 13
  | secondScratch => 14

/-- The names of the registers are predefined. -/
theorem Register.mem_predefinedSymbols (register : Register) :
    (register.name, register.address) ∈ SymbolTable.predefinedSymbols := by
  cases register <;> decide

theorem Register.isPlain_name (register : Register) : IsPlain register.name := by
  cases register <;> decide

/-- The names of the registers are symbols. -/
theorem Register.isSymbol_name (register : Register) : isSymbol register.name := by
  cases register <;> decide

/-- What an operand stands for, given the addresses of symbols. -/
def Operand.value (symbols : SymbolTable) : Operand → Word
  | number word => word
  | register cell => cell.address
  | symbol name => symbols.getD name 0

namespace AssemblyLine

/-- The instruction on a line, given the addresses of symbols. -/
def instruction? (symbols : SymbolTable) : AssemblyLine → Option Instruction
  | load operand => some (.load (operand.value symbols))
  | compute text => (Program.decodeCompute text.toList).toOption
  | label _ | comment _ => none

/-- Whether a line is an instruction: it is neither a label nor a comment. -/
def isInstruction : AssemblyLine → Bool
  | load _ | compute _ => true
  | label _ | comment _ => false

/-- Every computation in the templates can be decoded. -/
theorem computations_decodable : ∀ text ∈ Template.computations,
    (compute text).Clean ∧ (Program.decodeCompute text.toList).toOption.isSome := by
  simp only [Clean]
  decide

/-- Sound lines are clean. -/
theorem Sound.clean {line : AssemblyLine} (sound : line.Sound IsPlain) : line.Clean := by
  cases line with
  | load operand =>
    cases operand with
    | number value => exact isPlain_repr value.toNat
    | register cell => exact cell.isPlain_name
    | symbol name => exact sound
  | compute text => exact (computations_decodable text sound).1
  | label name => exact sound
  | comment text => cases sound

/-- A symbol does not start with a digit. -/
theorem not_digit_of_isSymbol {name : String} (valid : isSymbol name) :
    ¬name.toList.head?.any Char.isDigit := by
  rw [isSymbol] at valid
  split at valid
  · cases valid
  · rename_i start rest same
    rw [Bool.and_eq_true] at valid
    simpa [same] using valid.1

/-- A number starts with a digit. -/
theorem head_digit_of_decimal (value : Word) : value.decimal.toList.head?.any Char.isDigit := by
  rw [Word.decimal, Nat.toList_repr]
  cases digits : Nat.toDigits 10 value.toNat with
  | nil => exact absurd digits Nat.toDigits_ne_nil
  | cons first rest =>
    have member : first ∈ Nat.toDigits 10 value.toNat := by
      rw [digits]
      exact List.mem_cons_self
    exact Nat.isDigit_of_mem_toDigits (by decide) (by decide) member

/-- The digits of a word have its value. -/
theorem ofDigitChars_decimal (value : Word) :
    Nat.ofDigitChars 10 value.decimal.toList 0 = value.toNat := by
  rw [Word.decimal, Nat.toList_repr, Nat.ofDigitChars_ten_toDigits]

/-- A symbol stands for its address. -/
theorem operandValue_of_isSymbol {symbols : SymbolTable} {name : String} (valid : isSymbol name) :
    Statement.operandValue symbols name.toList = symbols.getD name 0 := by
  rw [Statement.operandValue, if_neg (not_digit_of_isSymbol valid), String.ofList_toList]

/-- What the assembler makes of an operand is what the operand stands for. -/
theorem operandValue_render {symbols : SymbolTable}
    (predefined : ∀ entry ∈ SymbolTable.predefinedSymbols, symbols[entry.1]? = some entry.2)
    {operand : Operand} (sound : (load operand).Sound fun name => isSymbol name) :
    Statement.operandValue symbols operand.render.toList = operand.value symbols := by
  cases operand with
  | number value =>
    change Statement.operandValue symbols value.decimal.toList = value
    rw [Statement.operandValue, if_pos (head_digit_of_decimal value), ofDigitChars_decimal,
      BitVec.ofNat_toNat, BitVec.setWidth_eq]
  | register cell =>
    have known := predefined _ cell.mem_predefinedSymbols
    change Statement.operandValue symbols cell.name.toList = cell.address
    rw [operandValue_of_isSymbol cell.isSymbol_name, Std.TreeMap.getD_eq_getD_getElem?, known,
      Option.getD_some]
  | symbol name => exact operandValue_of_isSymbol sound

/-- The statement on a sound line stands for the instruction on the line. -/
theorem bind_statement? {symbols : SymbolTable}
    (predefined : ∀ entry ∈ SymbolTable.predefinedSymbols, symbols[entry.1]? = some entry.2)
    {line : AssemblyLine} (sound : line.Sound fun name => isSymbol name) :
    line.statement?.bind (Statement.instruction? symbols) = line.instruction? symbols := by
  cases line with
  | load operand =>
    exact congrArg (fun value => some (Instruction.load value))
      (operandValue_render predefined sound)
  | compute text | label name => rfl
  | comment text => cases sound

/-- The statement on a sound line can be decoded. -/
theorem decodable_of_sound {line : AssemblyLine} (sound : line.Sound fun name => isSymbol name)
    {statement : Statement} (written : line.statement? = some statement) :
    statement.Decodable := by
  cases line with
  | load operand =>
    cases written
    cases operand with
    | number value =>
      have digit := head_digit_of_decimal value
      change if value.decimal.toList.head?.any Char.isDigit then
        ∃ result, Program.decodeNumber value.decimal.toList = .ok result else _
      rw [if_pos digit]
      refine ⟨value, ?_⟩
      have all : value.decimal.toList.all Char.isDigit := by
        rw [Word.decimal, Nat.toList_repr, List.all_eq_true]
        intro character member
        exact Nat.isDigit_of_mem_toDigits (by decide) (by decide) member
      rw [Program.decodeNumber, ofDigitChars_decimal, if_pos ⟨all, sound⟩,
        BitVec.ofNat_toNat, BitVec.setWidth_eq]
    | register cell =>
      change if cell.name.toList.head?.any Char.isDigit then _ else _
      rw [if_neg (not_digit_of_isSymbol cell.isSymbol_name), String.ofList_toList]
      exact cell.isSymbol_name
    | symbol name =>
      change if name.toList.head?.any Char.isDigit then _ else _
      rw [if_neg (not_digit_of_isSymbol sound), String.ofList_toList]
      exact sound
  | compute text =>
    cases written
    have decoded := (computations_decodable text sound).2
    cases found : Program.decodeCompute text.toList with
    | error cause =>
      rw [found] at decoded
      cases decoded
    | ok instruction => exact ⟨instruction, found⟩
  | label name =>
    cases written
    trivial
  | comment text => cases written

/-- A sound line is assembled to an instruction just when it has the form of one. -/
theorem isSome_instruction? {symbols : SymbolTable} {line : AssemblyLine}
    (sound : line.Sound fun name => isSymbol name) :
    (line.instruction? symbols).isSome = line.isInstruction := by
  cases line with
  | load operand | label name => rfl
  | compute text => exact (computations_decodable text sound).2
  | comment text => cases sound

/-- Sound lines have as many instructions as their form says. -/
theorem length_filterMap_instruction? {symbols : SymbolTable} {lines : List AssemblyLine}
    (sound : ∀ line ∈ lines, line.Sound fun name => isSymbol name) :
    (lines.filterMap (instruction? symbols)).length = lines.countP isInstruction := by
  rw [List.length_filterMap_eq_countP]
  apply List.countP_congr
  intro line member
  rw [isSome_instruction? (sound line member)]

/-- The instructions among some lines take up the addresses. -/
theorem countP_takesAddress (lines : List AssemblyLine) :
    (lines.filterMap statement?).countP Statement.takesAddress = lines.countP isInstruction := by
  induction lines with
  | nil => rfl
  | cons line rest hypothesis =>
    cases line <;>
      simp [List.filterMap_cons, statement?, isInstruction, Statement.takesAddress,
        List.countP_cons, hypothesis]

end AssemblyLine

/-! ## Blocks and programs -/

/-- The instructions of a block, given the addresses of symbols. -/
def Block.instructions (symbols : SymbolTable) (block : Block) : List Instruction :=
  block.lines.filterMap (AssemblyLine.instruction? symbols)

/-- The lines of some blocks, without captions. -/
def codeLines (blocks : List Block) : List AssemblyLine :=
  blocks.flatMap Block.lines

/-- The number of instructions of some blocks. -/
def codeSize (blocks : List Block) : Nat :=
  (codeLines blocks).countP AssemblyLine.isInstruction

@[simp]
theorem codeLines_append (first second : List Block) :
    codeLines (first ++ second) = codeLines first ++ codeLines second := by
  simp [codeLines]

@[simp]
theorem codeLines_cons (block : Block) (rest : List Block) :
    codeLines (block :: rest) = block.lines ++ codeLines rest := by
  simp [codeLines]

@[simp]
theorem codeSize_append (first second : List Block) :
    codeSize (first ++ second) = codeSize first + codeSize second := by
  simp [codeSize]

/-- The lines of parts whose names have a property are sound. -/
theorem sound_of_expand {symbol : String → Prop} (composable : Composable symbol)
    {supply last : LabelSupply} {program : List Part} {written : List Block}
    (expanded : expand supply program = .ok (written, last))
    (valid : ∀ part ∈ program, ∀ name ∈ part.names, symbol name) :
    ∀ line ∈ codeLines written, line.Sound symbol := by
  intro line member
  obtain ⟨block, present, inside⟩ := List.mem_flatMap.mp member
  obtain ⟨before, after, found⟩ := lines_of_mem_expand expanded present
  have listed : block.part ∈ program := by
    rw [← map_part_of_expand expanded]
    exact List.mem_map_of_mem present
  exact Part.lines_sound composable found (valid block.part listed) line inside

/-- A program that was assembled from some blocks. -/
structure Linked (blocks : List Block) (program : Program) : Prop where
  sound : ∀ line ∈ codeLines blocks, line.Sound fun name => isSymbol name
  instructions : program.instructions.toList =
    (codeLines blocks).filterMap (AssemblyLine.instruction? program.symbols)
  bound : ∀ name, .load (.symbol name) ∈ codeLines blocks → name ∈ program.symbols
  fits : codeSize blocks ≤ Word.maxValue
  label : ∀ first name rest, codeLines blocks = first ++ .label name :: rest →
    program.symbols[name]? = some (BitVec.ofNat 16 (first.countP AssemblyLine.isInstruction))

/-- Captions are no statements. -/
theorem filterMap_statement?_written (annotate : Bool) (blocks : List Block) :
    (blocks.flatMap (Block.written annotate)).filterMap AssemblyLine.statement? =
      (codeLines blocks).filterMap AssemblyLine.statement? := by
  induction blocks with
  | nil => rfl
  | cons block rest hypothesis =>
    rw [List.flatMap_cons, List.filterMap_append, hypothesis, codeLines_cons,
      List.filterMap_append, Block.written]
    congr 1
    split
    · rfl
    · rfl

/-- The statements that the assembler finds in the text of blocks are those of their lines. -/
theorem map_statement_written (annotate : Bool) {blocks : List Block}
    (plain : ∀ line ∈ codeLines blocks, line.Sound IsPlain)
    (captions : ∀ block ∈ blocks, '\n' ∉ block.part.caption.toList) :
    (CodeLine.ofText (AssemblyLine.textOf (blocks.flatMap (Block.written annotate)))).map
      CodeLine.statement = (codeLines blocks).filterMap AssemblyLine.statement? := by
  rw [map_statement_ofText, filterMap_statement?_written]
  intro line member
  obtain ⟨block, present, inside⟩ := List.mem_flatMap.mp member
  have lines : ∀ line ∈ block.lines, line.Clean := by
    intro other among
    exact (plain other (List.mem_flatMap.mpr ⟨block, present, among⟩)).clean
  rw [Block.written] at inside
  split at inside
  · rcases List.mem_cons.mp inside with rfl | among
    · exact captions block present
    · exact lines line among
  · exact lines line inside

/-- A program in which the statements of sound blocks are resolved is linked to them. -/
theorem Program.Resolves.linked {blocks : List Block} {program : Program}
    (resolves : Resolves ((codeLines blocks).filterMap AssemblyLine.statement?) program)
    (sound : ∀ line ∈ codeLines blocks, line.Sound fun name => isSymbol name) :
    Linked blocks program where
  sound := sound
  instructions := by
    rw [resolves.instructions, List.filterMap_filterMap]
    apply List.filterMap_congr
    intro line member
    exact AssemblyLine.bind_statement? resolves.predefined (sound line member)
  bound := by
    intro name member
    have valid : isSymbol name := sound _ member
    have bound := resolves.bound _ (List.mem_filterMap.mpr ⟨_, member, rfl⟩)
    have known := bound.resolve_left (AssemblyLine.not_digit_of_isSymbol valid)
    rwa [Operand.render, String.ofList_toList] at known
  fits := by
    have fits := resolves.fits
    rwa [AssemblyLine.countP_takesAddress] at fits
  label := by
    intro first name rest split
    have statements : (codeLines blocks).filterMap AssemblyLine.statement? =
        first.filterMap AssemblyLine.statement? ++
          .label name :: rest.filterMap AssemblyLine.statement? := by
      rw [split, List.filterMap_append, List.filterMap_cons]
      rfl
    rw [resolves.label _ _ _ statements, AssemblyLine.countP_takesAddress]

/-- The address where a block starts: the number of instructions of the blocks before it. -/
def blockStart (blocks : List Block) (index : Nat) : Nat :=
  codeSize (blocks.take index)

/-- A block starts after the instructions of the one before it. -/
theorem blockStart_succ {blocks : List Block} {index : Nat} {block : Block}
    (found : blocks[index]? = some block) :
    blockStart blocks (index + 1) =
      blockStart blocks index + block.lines.countP AssemblyLine.isInstruction := by
  rw [blockStart, blockStart, List.take_add_one, found, codeSize_append]
  simp [codeSize, codeLines]

/-- A block stands between the blocks before it and those after it. -/
theorem split_of_getElem? {blocks : List Block} {index : Nat} {block : Block}
    (found : blocks[index]? = some block) :
    blocks = blocks.take index ++ block :: blocks.drop (index + 1) := by
  obtain ⟨bound, rfl⟩ := List.getElem?_eq_some_iff.mp found
  rw [← List.drop_eq_getElem_cons bound, List.take_append_drop]

namespace Linked

variable {blocks : List Block} {program : Program}

/-- A linked program has as many instructions as its blocks. -/
theorem size_instructions (linked : Linked blocks program) :
    program.instructions.size = codeSize blocks := by
  rw [← Array.length_toList, linked.instructions,
    AssemblyLine.length_filterMap_instruction? linked.sound, codeSize]

/-- The instructions of a linked program fall into those before a block, those of the block and
those after it. -/
theorem instructions_split (linked : Linked blocks program) {index : Nat} {block : Block}
    (found : blocks[index]? = some block) :
    ∃ before after, program.instructions.toList =
        before ++ block.instructions program.symbols ++ after ∧
      before.length = blockStart blocks index ∧
      (block.instructions program.symbols).length =
        block.lines.countP AssemblyLine.isInstruction := by
  have split := split_of_getElem? found
  have lines : codeLines blocks = codeLines (blocks.take index) ++
      (block.lines ++ codeLines (blocks.drop (index + 1))) := by
    rw [← codeLines_cons, ← codeLines_append, ← split]
  have sound := linked.sound
  rw [lines] at sound
  obtain ⟨early, rest⟩ := List.forall_mem_append.mp sound
  obtain ⟨here, -⟩ := List.forall_mem_append.mp rest
  refine ⟨(codeLines (blocks.take index)).filterMap (AssemblyLine.instruction? program.symbols),
    (codeLines (blocks.drop (index + 1))).filterMap (AssemblyLine.instruction? program.symbols), ?_,
    AssemblyLine.length_filterMap_instruction? early,
    AssemblyLine.length_filterMap_instruction? here⟩
  rw [linked.instructions, lines, List.filterMap_append, List.filterMap_append,
    ← List.append_assoc]
  rfl

/-- The instructions of a block stand between its start and that of the next one. -/
theorem extract_instructions (linked : Linked blocks program) {index : Nat} {block : Block}
    (found : blocks[index]? = some block) :
    (program.instructions.extract (blockStart blocks index)
      (blockStart blocks (index + 1))).toList = block.instructions program.symbols := by
  obtain ⟨before, after, whole, start, size⟩ := linked.instructions_split found
  rw [Array.toList_extract, whole, blockStart_succ found, ← start, ← size,
    List.extract_eq_take_drop, List.append_assoc, List.drop_left, Nat.add_sub_cancel_left,
    List.take_left]

/-- A label in a block has the address of the instruction after it. -/
theorem address_label (linked : Linked blocks program) {index : Nat} {block : Block}
    (found : blocks[index]? = some block) {first rest : List AssemblyLine} {name : String}
    (split : block.lines = first ++ .label name :: rest) :
    ∃ address, program.symbols[name]? = some address ∧ address.toNat =
      blockStart blocks index + first.countP AssemblyLine.isInstruction := by
  have lines : codeLines blocks = (codeLines (blocks.take index) ++ first) ++
      .label name :: (rest ++ codeLines (blocks.drop (index + 1))) := by
    conv_lhs => rw [split_of_getElem? found, codeLines_append, codeLines_cons, split]
    simp
  have count : (codeLines (blocks.take index) ++ first).countP AssemblyLine.isInstruction =
      blockStart blocks index + first.countP AssemblyLine.isInstruction := by
    rw [List.countP_append]
    rfl
  refine ⟨_, linked.label _ _ _ lines, ?_⟩
  have fits := linked.fits
  rw [codeSize, lines, List.countP_append, count] at fits
  rw [count, BitVec.toNat_ofNat, Nat.mod_eq_of_lt]
  simp only [Word.maxValue] at fits
  omega

end Linked

end HackToolchain
