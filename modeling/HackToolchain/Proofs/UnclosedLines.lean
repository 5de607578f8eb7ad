import HackToolchain.Proofs.LabelCapture

/-! # Unclosed lines

A line that opens a bracket and does not close it takes up an address and holds no instruction, so
every label after it is one too high (`getD_label_of_block`). No command is compiled to such a line,
but the name of the entry function is written out as it is given, and can be cut off by a comment or
a line break. Whatever it is, the text is assembled without such a line only if it is a symbol
(`isSymbol_entry`).
-/

namespace HackToolchain

/-! ## The code at the start of a text -/

namespace Text

/-- A text without the blank characters at its end. -/
def trimEnd (text : Text) : Text :=
  (text.reverse.dropWhile isBlank).reverse

/-- Nothing is cut off after a character that is not blank. -/
theorem trimEnd_concat {text : Text} {mark : Char} (solid : ¬isBlank mark) :
    trimEnd (text ++ [mark]) = text ++ [mark] := by
  rw [trimEnd, List.reverse_append, List.reverse_singleton, List.singleton_append,
    List.dropWhile_cons_of_neg solid, List.reverse_cons, List.reverse_reverse]

/-- Nothing is cut off before a character that is not blank. -/
theorem trim_cons {mark : Char} (solid : ¬isBlank mark) (text : Text) :
    trim (mark :: text) = mark :: trimEnd text := by
  rw [trim, List.dropWhile_cons_of_neg solid, List.reverse_cons, List.dropWhile_append, trimEnd]
  split
  · rename_i empty
    rw [List.dropWhile_cons_of_neg solid, List.isEmpty_iff.mp empty]
    rfl
  · rw [List.reverse_append]
    rfl

/-- All of a text without a line break is before one. -/
theorem takeWhile_of_single {text : Text} (single : '\n' ∉ text) :
    text.takeWhile (· != '\n') = text :=
  List.takeWhile_eq_self_iff.mpr fun _ member => bne_iff_ne.mpr (ne_of_mem_of_not_mem member single)

/-- The first line of a text is what is before a line break, or all there is. -/
theorem exists_lines_eq_cons (text : Text) :
    ∃ rest, lines text = text.takeWhile (· != '\n') :: rest := by
  by_cases single : '\n' ∈ text
  · obtain ⟨line, rest, split, free⟩ := List.eq_append_cons_of_mem single
    refine ⟨rest.splitOn '\n', ?_⟩
    rw [split, (takeWhile_append_cons (by decide)).1, takeWhile_of_single free]
    exact List.splitOn_append_cons_self_of_not_mem free rest
  · refine ⟨[], ?_⟩
    rw [takeWhile_of_single single]
    exact List.splitOn_eq_singleton single

/-- The code of the first line of a text, behind a mark that is not blank. -/
def firstCode (text : Text) : Text :=
  trimEnd (beforeComment (text.takeWhile (· != '\n')))

/-- A character behind a text is behind the code of its first line, or is no part of it. -/
theorem firstCode_concat {mark : Char} (slash : mark ≠ '/') (newline : mark ≠ '\n')
    (solid : ¬isBlank mark) (text : Text) : firstCode (text ++ [mark]) = firstCode text ∨
      firstCode text = trimEnd text ∧ firstCode (text ++ [mark]) = text ++ [mark] := by
  by_cases single : '\n' ∈ text
  · left
    obtain ⟨line, rest, split, free⟩ := List.eq_append_cons_of_mem single
    rw [firstCode, firstCode, split, List.append_assoc, List.cons_append,
      (takeWhile_append_cons (by decide)).1, (takeWhile_append_cons (by decide)).1]
  · have longer : '\n' ∉ text ++ [mark] := by
      rw [List.mem_append, List.mem_singleton, not_or]
      exact ⟨single, newline.symm⟩
    rw [firstCode, firstCode, takeWhile_of_single single, takeWhile_of_single longer]
    rcases beforeComment_concat slash text with same | ⟨before, same⟩
    · exact .inl (by rw [same])
    · exact .inr (by rw [before, same, trimEnd_concat solid]; exact ⟨rfl, rfl⟩)

end Text

namespace CodeLine

/-- A character that code can start with. -/
def IsMark (mark : Char) : Prop :=
  mark ≠ '/' ∧ mark ≠ '\n' ∧ ¬isBlank mark

instance (mark : Char) : Decidable (IsMark mark) :=
  inferInstanceAs (Decidable (_ ∧ _))

/-- The code of a line that starts with a mark starts with the mark. -/
theorem code?_cons {mark : Char} (slash : mark ≠ '/') (solid : ¬isBlank mark) (line : Text) :
    code? (mark :: line) = some (mark :: (Text.beforeComment line).trimEnd) := by
  have cut : Text.beforeComment (mark :: line) = mark :: Text.beforeComment line := by
    rw [Text.beforeComment]
    rintro after same
    exact absurd same slash
  rw [code?, cut, Text.trim_cons solid]
  exact if_neg (List.cons_ne_nil _ _)

/-- The first code of a text that starts with a mark. -/
theorem head?_map_code {mark : Char} (marks : IsMark mark) (text : Text) :
    ((ofText (mark :: text)).map code).head? = some (mark :: text.firstCode) := by
  obtain ⟨slash, newline, solid⟩ := marks
  obtain ⟨rest, lines⟩ := Text.exists_lines_eq_cons (mark :: text)
  have first : (mark :: text).takeWhile (· != '\n') = mark :: text.takeWhile (· != '\n') :=
    List.takeWhile_cons_of_pos (bne_iff_ne.mpr newline)
  rw [map_code_ofText, lines, first, List.filterMap_cons_some (code?_cons slash solid _)]
  rfl

end CodeLine

/-- The lines of a block are written. -/
theorem Block.mem_written {block : Block} {line : AssemblyLine} (member : line ∈ block.lines)
    (annotate : Bool) : line ∈ block.written annotate := by
  rw [written]
  split
  · exact List.mem_cons_of_mem _ member
  · exact member

/-- The code on a line of a block is among that of the text. -/
theorem Block.exists_code {blocks : List Block} {block : Block} (present : block ∈ blocks)
    {line : AssemblyLine} (member : line ∈ block.lines) {mark : Char} {name : Text}
    (rendered : line.render.toList = mark :: name) (marks : CodeLine.IsMark mark)
    (annotate : Bool) :
    ∃ other ∈ CodeLine.ofText (AssemblyLine.textOf (blocks.flatMap (Block.written annotate))),
      other.code = mark :: name.firstCode := by
  apply List.mem_map.mp
  rw [CodeLine.map_code_textOf]
  apply List.mem_flatMap.mpr
  refine ⟨line, List.mem_flatMap.mpr ⟨block, present, mem_written member annotate⟩, ?_⟩
  rw [rendered]
  exact List.mem_of_mem_head? (CodeLine.head?_map_code marks name)

/-! ## Names in brackets -/

/-- An operand that can be decoded has characters of symbols only. -/
theorem Statement.isSymbolCharacter_of_decodable {operand : Text}
    (decodable : (load operand).Decodable) :
    ∀ character ∈ operand, isSymbolCharacter character := by
  intro character member
  rw [Decodable] at decodable
  split at decodable
  · obtain ⟨value, decoded⟩ := decodable
    rw [Program.decodeNumber] at decoded
    split at decoded
    · rename_i fits
      have digit := List.all_eq_true.mp fits.1 character member
      simp [isSymbolCharacter, Char.isAlphanum, digit]
    · cases decoded
  · rw [isSymbol, String.toList_ofList] at decodable
    split at decodable
    · cases decodable
    · rw [Bool.and_eq_true, List.all_eq_true] at decodable
      exact decodable.2 character member

/-- A name is a symbol if the call to it and its label for the return can be loaded, and the bracket
around the label is closed. -/
theorem isSymbol_of_returnLabel {name : Text}
    (calls : (Statement.load name.firstCode).Decodable)
    (returns : (Statement.load (name ++ "$ret.0".toList).firstCode).Decodable)
    (closed : ((name ++ "$ret.0".toList) ++ [')']).firstCode.getLast? = some ')') :
    isSymbol (String.ofList name) := by
  have ending : "$ret.0".toList = "$ret.".toList ++ ['0'] := by decide
  -- Were the bracket not behind the label, it would be a character of a symbol.
  have whole : (name ++ "$ret.0".toList).firstCode = name ++ "$ret.0".toList := by
    rcases @Text.firstCode_concat ')' (by decide) (by decide) (by decide)
      (name ++ "$ret.0".toList) with same | ⟨same, -⟩
    · rw [same] at closed
      have last := Statement.isSymbolCharacter_of_decodable returns _ (List.mem_of_getLast? closed)
      exact absurd last (by decide)
    · rw [same, ending, ← List.append_assoc, Text.trimEnd_concat (by decide)]
  rw [whole] at returns
  have characters := Statement.isSymbolCharacter_of_decodable returns
  rw [Statement.Decodable] at returns calls
  cases name with
  | nil => exact absurd calls (by decide)
  | cons first rest =>
    rw [isSymbol, String.toList_ofList]
    dsimp only
    rw [Bool.and_eq_true, List.all_eq_true]
    refine ⟨?_, fun character member => characters character (List.mem_append_left _ member)⟩
    by_contra digit
    have number : (first :: rest ++ "$ret.0".toList).head?.any Char.isDigit := by
      simpa using digit
    rw [if_pos number] at returns
    obtain ⟨value, decoded⟩ := returns
    rw [Program.decodeNumber] at decoded
    split at decoded
    · rename_i fits
      have mark := List.all_eq_true.mp fits.1 '$' (List.mem_append_right _ (by decide))
      exact absurd mark (by decide)
    · cases decoded

/-! ## Labels after unclosed brackets -/

/-- The number of lines in the text of some blocks that open a bracket and do not close it. -/
def unclosedLines (annotate : Bool) (blocks : List Block) : Nat :=
  (CodeLine.ofText (AssemblyLine.textOf (blocks.flatMap (Block.written annotate)))).countP
    CodeLine.isUnclosed

section

variable {options : EmissionOptions} {sources : List Source} {text : String}
  (compiled : (compile options sources).result = .ok text)
  {before after : List Block} {block : Block}
  (split : blocks options sources = before ++ block :: after)

include compiled split

/-- Where the names of a program are plain, every bracket is closed. -/
theorem unclosedLines_eq_zero
    (plain : ∀ part ∈ parts options sources, ∀ name ∈ part.names, IsPlain name) :
    unclosedLines options.annotate before = 0 := by
  have whole := map_statement_compile compiled split
  rw [map_statement_of_isPlain compiled plain] at whole
  rw [unclosedLines, List.countP_eq_zero]
  intro line member unclosed
  have listed : Statement.unclosed ∈
      AssemblyLine.statementsOf (before.flatMap (Block.written options.annotate)) :=
    List.mem_map.mpr ⟨line, member, CodeLine.isUnclosed_iff.mp unclosed⟩
  have present := List.mem_append_left (AssemblyLine.statementsOf
    (block.written options.annotate) ++ AssemblyLine.statementsOf
      (after.flatMap (Block.written options.annotate))) listed
  rw [← whole] at present
  obtain ⟨source, -, found⟩ := List.mem_filterMap.mp present
  cases source <;> cases found

/-- The call of the entry function comes before every command. -/
theorem exists_mem_of_bootstrap (bootstrap : options.bootstrap)
    (command : ∀ entry, block.part ≠ .bootstrap entry) :
    ∃ first ∈ before, first.lines = (Template.bootstrap {} options.entry).1 := by
  obtain ⟨-, ⟨last, expanded⟩, -⟩ := compile_ok compiled
  have starts : parts options sources =
      .bootstrap options.entry :: sources.flatMap Source.parts := by
    rw [parts, if_pos bootstrap]
    rfl
  rw [starts] at expanded
  obtain ⟨lines, next, tail, found, -, whole⟩ := expand_cons_inv expanded
  rw [split] at whole
  cases found
  cases before with
  | nil =>
    cases whole
    exact absurd rfl (command _)
  | cons first others =>
    cases whole
    exact ⟨_, List.mem_cons_self, rfl⟩

variable {program : Program} (assembled : Program.assemble text.toList = .ok program)

include assembled

/-- Every statement before a block can be decoded. -/
theorem decodable_before : ∀ line ∈ CodeLine.ofText (AssemblyLine.textOf
    (before.flatMap (Block.written options.annotate))), line.statement.Decodable := by
  obtain ⟨table, last, -, code, -⟩ := Program.assemble_passes assembled
  have whole := map_statement_compile compiled split
  intro line member
  have listed : line.statement ∈ (CodeLine.ofText text.toList).map CodeLine.statement := by
    rw [whole]
    exact List.mem_append_left _ (List.mem_map_of_mem member)
  obtain ⟨other, present, same⟩ := List.mem_map.mp listed
  rw [← same]
  exact Program.decodable_of_pushLines code other present

/-- Unless the text before a command leaves a bracket open, the name of the entry function is a
symbol: the label of the call to it could not be closed, or not be loaded. -/
theorem isSymbol_entry (bootstrap : options.bootstrap)
    (command : ∀ entry, block.part ≠ .bootstrap entry)
    (closed : unclosedLines options.annotate before = 0) : isSymbol options.entry := by
  obtain ⟨first, inside, lines⟩ := exists_mem_of_bootstrap compiled split bootstrap command
  have decodable := decodable_before compiled split assembled
  have unclosed := List.countP_eq_zero.mp closed
  have label : LabelSupply.returnLabel options.entry 0 = options.entry ++ "$ret.0" :=
    String.append_assoc
  have parts : (options.entry ++ "$ret.0").toList = options.entry.toList ++ "$ret.0".toList :=
    String.toList_append
  -- What the call loads can be decoded.
  have loads : ∀ name : String, Template.symbol name ∈ first.lines →
      (Statement.load (Text.firstCode name.toList)).Decodable := by
    intro name member
    have rendered : (Template.symbol name).render.toList = '@' :: name.toList := by
      simp [Template.symbol, AssemblyLine.render, Operand.render]
    obtain ⟨line, among, code⟩ :=
      Block.exists_code inside member rendered (by decide) options.annotate
    rw [← CodeLine.statement_eq_load_iff.mpr code]
    exact decodable line among
  have calls := loads options.entry (by
    rw [lines]
    simp [Template.bootstrap, Template.call, Template.callWith])
  have returns := loads (options.entry ++ "$ret.0") (by
    rw [lines, ← label]
    simp [Template.bootstrap, Template.call, Template.callWith, LabelSupply.nextCall])
  -- The bracket around its label is closed.
  have labels : .label (options.entry ++ "$ret.0") ∈ first.lines := by
    rw [lines, ← label]
    simp [Template.bootstrap, Template.call, Template.callWith, LabelSupply.nextCall]
  have rendered : (AssemblyLine.label (options.entry ++ "$ret.0")).render.toList =
      '(' :: ((options.entry.toList ++ "$ret.0".toList) ++ [')']) := by
    simp [AssemblyLine.render]
  obtain ⟨line, among, code⟩ :=
    Block.exists_code inside labels rendered (by decide) options.annotate
  rw [parts] at returns
  have valid := isSymbol_of_returnLabel calls returns (by
    by_contra last
    apply unclosed line among
    rw [CodeLine.isUnclosed_iff, CodeLine.statement, code]
    exact if_neg last)
  rwa [String.ofList_toList] at valid

/-- There are unclosed lines before a command just when the program starts with the call of a
function whose name is no symbol. -/
theorem unclosedLines_eq_zero_iff (command : ∀ entry, block.part ≠ .bootstrap entry)
    (statics : ∀ name ∈ (parts options sources).filterMap Part.static?, name ∈ program.symbols) :
    unclosedLines options.annotate before = 0 ↔ (options.bootstrap → isSymbol options.entry) := by
  constructor
  · intro closed bootstrap
    exact isSymbol_entry compiled split assembled bootstrap command closed
  · intro entry
    have symbols := (Program.assemble_ok assembled).valid
    apply unclosedLines_eq_zero compiled split
    exact fun part => isPlain_of_mem_names entry fun name static =>
      symbols name (statics name static)

/-- The text before a block takes up an address for each instruction, and one for each bracket that
is not closed. -/
theorem countP_takesAddress_before :
    (AssemblyLine.statementsOf (before.flatMap (Block.written options.annotate))).countP
        Statement.takesAddress =
      program.writtenSize options.annotate before + unclosedLines options.annotate before := by
  rw [AssemblyLine.statementsOf, ← Program.addressAfter_eq]
  exact Program.addressAfter_eq_emitted _ (decodable_before compiled split assembled)

variable (valid : ∀ name ∈ block.part.names, isSymbol name)

include valid

/-- A label in a block stands for the address of the instruction after it, and is one too high for
each bracket before the block that is not closed. -/
theorem getD_label_of_block {first rest : List AssemblyLine} {name : String}
    (lines : block.lines = first ++ .label name :: rest) :
    (program.symbols.getD name 0).toNat = program.writtenSize options.annotate before +
      unclosedLines options.annotate before + first.countP AssemblyLine.isInstruction := by
  have resolves := Program.assemble_ok assembled
  have whole := map_statement_compile compiled split
  rw [statementsOf_block compiled split valid, lines, List.filterMap_append,
    List.filterMap_cons_some
      (show AssemblyLine.statement? (.label name) = some (.label name) from rfl),
    List.append_assoc, ← List.append_assoc] at whole
  have bound := resolves.label _ name _ whole
  have fits := resolves.fits
  rw [whole] at fits
  have size := countP_takesAddress_before compiled split assembled
  rw [List.countP_append, size, AssemblyLine.countP_takesAddress] at bound
  rw [List.countP_append, List.countP_append, size, AssemblyLine.countP_takesAddress,
    Word.maxValue] at fits
  rw [Std.TreeMap.getD_eq_getD_getElem?, bound, Option.getD_some, BitVec.toNat_ofNat,
    Nat.mod_eq_of_lt (by omega)]

end

/-- Options with an entry function whose name is cut off by a comment. -/
def commentedEntry : EmissionOptions :=
  ⟨true, "f//", false⟩

end HackToolchain
