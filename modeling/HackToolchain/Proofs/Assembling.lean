import HackToolchain.Proofs.GeneratedLabels
import HackToolchain.Proofs.LineReading
import HackToolchain.Proofs.Linking

/-! # Compiled text assembles

The assembler accepts what the compiler writes, as long as the names in the program are symbols, no
name is declared twice or taken for something else, and the code is not too long
(`assemble_compile`). The program that it makes is linked to the blocks of the compiler: every block
starts where the code of the blocks before it ends, and every label has the address of what follows
it.
-/

namespace HackToolchain

/-! ## Captions -/

/-- A mark that is in no word and not between them is not in the whole. -/
theorem not_mem_intercalate {separator : String} {words : List String} {mark : Char}
    (apart : mark ∉ separator.toList) (free : ∀ word ∈ words, mark ∉ word.toList) :
    mark ∉ (separator.intercalate words).toList := by
  induction words with
  | nil => simp
  | cons word rest hypothesis =>
    have tail := hypothesis fun other member => free other (List.mem_cons_of_mem _ member)
    have head := free word List.mem_cons_self
    cases rest with
    | nil => simpa using head
    | cons next others =>
      rw [String.intercalate_cons_cons]
      simp only [String.toList_append, List.mem_append, not_or]
      exact ⟨⟨head, apart⟩, tail⟩

/-- A plain name has no line break in it. -/
theorem IsPlain.not_mem {name : String} (plain : IsPlain name) : '\n' ∉ name.toList := by
  intro member
  exact absurd (plain _ member) (by decide)

/-- A command with plain names is written on one line. -/
theorem not_mem_render {command : Command} (plain : ∀ name ∈ command.names, IsPlain name) :
    '\n' ∉ command.render.toList := by
  have keyword : ∀ keyword : Keyword, '\n' ∉ keyword.name.toList := by
    intro keyword
    cases keyword with
    | operator op => cases op <;> decide
    | _ => decide
  have decimal : ∀ value : Word, '\n' ∉ value.decimal.toList := by
    intro value
    exact (isPlain_repr value.toNat).not_mem
  have segment : ∀ segment : Segment, '\n' ∉ segment.name.toList := by
    intro segment
    cases segment <;> decide
  refine not_mem_intercalate (by decide) (List.forall_mem_cons.mpr ⟨keyword _, ?_⟩)
  cases command with
  | operator op | «return» => simp [Command.arguments]
  | push found index | pop found index => simp [Command.arguments, segment, decimal]
  | label name | goto name | ifGoto name =>
    simpa [Command.arguments] using (plain name (by simp [Command.names])).not_mem
  | function name count | call name count =>
    have named := (plain name (by simp [Command.names])).not_mem
    simp [Command.arguments, named, decimal]

/-! ## Names of a program -/

/-- A part is the bootstrap part or a command of a unit. -/
theorem mem_parts_iff {options : EmissionOptions} {sources : List Source} {part : Part} :
    part ∈ parts options sources ↔
      (options.bootstrap ∧ part = .bootstrap options.entry) ∨
      ∃ source ∈ sources, ∃ command ∈ source.commands, part = .command source.name command := by
  rw [parts, List.mem_append, List.mem_flatMap]
  constructor
  · rintro (start | ⟨source, present, member⟩)
    · split at start
      · rename_i wanted
        exact .inl ⟨wanted, List.mem_singleton.mp start⟩
      · cases start
    · obtain ⟨command, among, rfl⟩ := List.mem_map.mp member
      exact .inr ⟨source, present, command, among, rfl⟩
  · rintro (⟨wanted, rfl⟩ | ⟨source, present, command, among, rfl⟩)
    · rw [if_pos wanted]
      exact .inl (List.mem_singleton.mpr rfl)
    · exact .inr ⟨source, present, List.mem_map.mpr ⟨command, among, rfl⟩⟩

/-- The names in the commands of a program that can be read are plain. -/
theorem isPlain_of_mem_commands {source : Source} {command : Command}
    (member : command ∈ source.commands) : ∀ name ∈ command.names, IsPlain name := by
  rw [Source.commands] at member
  split at member
  · rename_i located read
    obtain ⟨found, present, rfl⟩ := List.mem_map.mp member
    exact Command.isPlain_of_mem_readAll read present
  · cases member

/-- The caption of a part is one line. -/
theorem caption_of_mem_parts {options : EmissionOptions} {sources : List Source} {part : Part}
    (member : part ∈ parts options sources) : '\n' ∉ part.caption.toList := by
  rcases mem_parts_iff.mp member with ⟨-, rfl⟩ | ⟨source, -, command, among, rfl⟩
  · change '\n' ∉ "bootstrap".toList
    decide
  · exact not_mem_render (isPlain_of_mem_commands among)

/-- The captions of the blocks of a program are one line each. -/
theorem captions_of_expand {options : EmissionOptions} {sources : List Source}
    {last : LabelSupply}
    (expanded : expand {} (parts options sources) = .ok (blocks options sources, last)) :
    ∀ block ∈ blocks options sources, '\n' ∉ block.part.caption.toList := by
  intro block present
  have listed : block.part ∈ parts options sources := by
    rw [← map_part_of_expand expanded]
    exact List.mem_map_of_mem present
  exact caption_of_mem_parts listed

/-- The declared names of a program are plain. -/
theorem isPlain_of_declared {options : EmissionOptions} {sources : List Source} {part : Part}
    (member : part ∈ parts options sources) {name : String} (declared : name ∈ part.declared?) :
    IsPlain name := by
  rcases mem_parts_iff.mp member with ⟨-, rfl⟩ | ⟨source, -, command, among, rfl⟩
  · cases declared
  · apply isPlain_of_mem_commands among
    cases command <;> cases declared <;> simp [Command.names]

/-- The names of a program are plain where it starts with the call of a symbol, and its static cells
have symbols: commands are read with plain names. -/
theorem isPlain_of_mem_names {options : EmissionOptions} {sources : List Source}
    (entry : options.bootstrap → isSymbol options.entry)
    (statics : ∀ name ∈ (parts options sources).filterMap Part.static?, isSymbol name) {part : Part}
    (listed : part ∈ parts options sources) : ∀ name ∈ part.names, IsPlain name := by
  rw [Part.forall_mem_names]
  refine ⟨fun name => isPlain_of_declared listed, ?_, ?_⟩
  · intro name target
    rcases mem_parts_iff.mp listed with ⟨bootstrap, rfl⟩ | ⟨source, -, command, among, rfl⟩
    · cases target
      exact isPlain_of_isSymbol (entry bootstrap)
    · apply isPlain_of_mem_commands among
      cases command <;> cases target <;> exact List.mem_cons_self
  · intro name static
    exact isPlain_of_isSymbol (statics name (List.mem_filterMap.mpr ⟨part, listed, static⟩))

/-- The statements of compiled text are those of the lines of its blocks, as long as the names are
plain. -/
theorem map_statement_of_isPlain {options : EmissionOptions} {sources : List Source} {text : String}
    (compiled : (compile options sources).result = .ok text)
    (plain : ∀ part ∈ parts options sources, ∀ name ∈ part.names, IsPlain name) :
    (CodeLine.ofText text.toList).map CodeLine.statement =
      (codeLines (blocks options sources)).filterMap AssemblyLine.statement? := by
  obtain ⟨-, ⟨last, expanded⟩, written⟩ := compile_ok compiled
  rw [written]
  exact map_statement_written options.annotate (sound_of_expand composable_isPlain expanded plain)
    (captions_of_expand expanded)

/-! ## Loads and instructions -/

/-- Whether a line loads the address register. -/
def AssemblyLine.isLoad : AssemblyLine → Bool
  | load _ => true
  | compute _ | label _ | comment _ => false

/-- At most half of the instructions among some lines are loads. -/
def LoadsPaired (lines : List AssemblyLine) : Prop :=
  2 * lines.countP AssemblyLine.isLoad ≤ lines.countP AssemblyLine.isInstruction

/-- Loads that are paired in two lists of lines are paired in both together. -/
theorem LoadsPaired.append {first second : List AssemblyLine} (left : LoadsPaired first)
    (right : LoadsPaired second) : LoadsPaired (first ++ second) := by
  unfold LoadsPaired at left right ⊢
  rw [List.countP_append, List.countP_append]
  omega

/-- Loads that are paired in each block are paired in all lines. -/
theorem LoadsPaired.flatMap {blocks : List Block}
    (paired : ∀ block ∈ blocks, LoadsPaired block.lines) : LoadsPaired (codeLines blocks) := by
  induction blocks with
  | nil => exact Nat.le_of_ble_eq_true rfl
  | cons block rest hypothesis =>
    rw [codeLines_cons]
    exact (paired block List.mem_cons_self).append
      (hypothesis fun other member => paired other (List.mem_cons_of_mem _ member))

/-- A push loads no more than it computes. -/
theorem loadsPaired_pushFrom (location : Template.Location) :
    LoadsPaired (Template.pushFrom location) := by
  cases location with
  | constant value =>
    rw [Template.pushFrom, Template.loadConstant]
    split
    · exact Nat.le_of_ble_eq_true rfl
    · exact Nat.le_of_ble_eq_true rfl
  | indexed base index =>
    cases base with
    | register _ => exact Nat.le_of_ble_eq_true rfl
    | fixed _ => exact Nat.le_of_ble_eq_true rfl
  | named operand => exact Nat.le_of_ble_eq_true rfl

/-- A pop loads no more than it computes. -/
theorem loadsPaired_popInto {location : Template.Location} {lines : List AssemblyLine}
    (popped : Template.popInto location = .ok lines) : LoadsPaired lines := by
  cases location with
  | constant value => cases popped
  | indexed base index =>
    cases popped
    cases base with
    | register _ => exact Nat.le_of_ble_eq_true rfl
    | fixed _ => exact Nat.le_of_ble_eq_true rfl
  | named operand =>
    cases popped
    exact Nat.le_of_ble_eq_true rfl

/-- A function loads no more than it computes. -/
theorem loadsPaired_function (name : String) (locals : Word) :
    LoadsPaired (Template.function name locals) := by
  rw [Template.function]
  split
  · exact Nat.le_of_ble_eq_true rfl
  · have body : LoadsPaired (List.replicate locals.toNat
        [AssemblyLine.compute "M=0", .compute "A=A+1"]).flatten := by
      induction locals.toNat with
      | zero => exact Nat.le_of_ble_eq_true rfl
      | succ count hypothesis =>
        rw [List.replicate_succ, List.flatten_cons]
        exact LoadsPaired.append (Nat.le_of_ble_eq_true rfl) hypothesis
    have head : LoadsPaired [.label name, Template.cell .stackPointer, .compute "A=M"] :=
      Nat.le_of_ble_eq_true rfl
    have tail : LoadsPaired [.compute "D=A", Template.cell .stackPointer, .compute "M=D"] :=
      Nat.le_of_ble_eq_true rfl
    exact (head.append body).append tail

/-- At most half of the instructions for a part are loads. -/
theorem Part.loadsPaired {supply next : LabelSupply} {part : Part} {lines : List AssemblyLine}
    (found : part.lines supply = .ok (lines, next)) : LoadsPaired lines := by
  cases part with
  | bootstrap entry =>
    cases found
    exact Nat.le_of_ble_eq_true rfl
  | command unit given =>
    cases given with
    | operator op =>
      cases op with
      | eq | gt | lt =>
        cases found
        exact Nat.le_of_ble_eq_true rfl
      | neg | not =>
        cases found
        exact Nat.le_of_ble_eq_true rfl
      | add | sub | and | or =>
        cases found
        exact Nat.le_of_ble_eq_true rfl
    | push segment index =>
      obtain ⟨location, located, rfl, -⟩ := Template.push_ok found
      exact loadsPaired_pushFrom location
    | pop segment index =>
      obtain ⟨location, located, popped, -⟩ := Template.pop_ok found
      exact loadsPaired_popInto popped
    | label name =>
      cases found
      exact Nat.le_of_ble_eq_true rfl
    | goto name =>
      cases found
      exact Nat.le_of_ble_eq_true rfl
    | ifGoto name =>
      cases found
      exact Nat.le_of_ble_eq_true rfl
    | function name locals =>
      cases found
      exact loadsPaired_function name locals
    | call name arguments =>
      obtain ⟨fits, rfl, -⟩ := Template.call_ok unit found
      exact Nat.le_of_ble_eq_true rfl
    | «return» =>
      cases found
      exact Nat.le_of_ble_eq_true rfl

/-- At most half of the instructions of a program are loads. -/
theorem loadsPaired_of_expand {supply last : LabelSupply} {program : List Part}
    {written : List Block} (expanded : expand supply program = .ok (written, last)) :
    LoadsPaired (codeLines written) := by
  refine LoadsPaired.flatMap fun block present => ?_
  obtain ⟨before, after, found⟩ := lines_of_mem_expand expanded present
  exact Part.loadsPaired found

/-- Only loads load symbols. -/
theorem countP_loadsSymbol_le (lines : List AssemblyLine) :
    (lines.filterMap AssemblyLine.statement?).countP Statement.loadsSymbol ≤
      lines.countP AssemblyLine.isLoad := by
  induction lines with
  | nil => exact Nat.le_refl 0
  | cons line rest hypothesis =>
    have loads : ∀ operand : Operand,
        (if Statement.loadsSymbol (.load operand.render.toList) then 1 else 0) ≤ 1 := by
      intro operand
      split
      · exact Nat.le_refl 1
      · exact Nat.zero_le 1
    cases line with
    | load operand =>
      have bound := loads operand
      simp only [List.filterMap_cons, AssemblyLine.statement?, List.countP_cons,
        AssemblyLine.isLoad, ↓reduceIte]
      omega
    | compute _ | label _ | comment _ =>
      simpa [List.filterMap_cons, AssemblyLine.statement?, Statement.loadsSymbol,
        AssemblyLine.isLoad] using hypothesis

/-! ## Labels of a program -/

/-- The names that the commands of a program declare. -/
def declaredNames (options : EmissionOptions) (sources : List Source) : List String :=
  (parts options sources).filterMap Part.declared?

/-- The labels that the compiler generates for a program. -/
def generatedLabels (options : EmissionOptions) (sources : List Source) : List String :=
  (blocks options sources).flatMap Block.generated

/-- The labels among the statements of blocks are the labels of the blocks. -/
theorem label?_codeLines (blocks : List Block) :
    ((codeLines blocks).filterMap AssemblyLine.statement?).filterMap Statement.label? =
      blocks.flatMap Block.labels := by
  have line : ∀ line : AssemblyLine, line.statement?.bind Statement.label? = line.label? := by
    intro line
    cases line <;> rfl
  rw [List.filterMap_filterMap]
  simp only [line]
  induction blocks with
  | nil => rfl
  | cons block rest hypothesis =>
    rw [codeLines_cons, List.filterMap_append, hypothesis, List.flatMap_cons, Block.labels]

/-- The labels of a program are its declared names and its generated labels. -/
theorem labels_perm {supply last : LabelSupply} {program : List Part} {written : List Block}
    (expanded : expand supply program = .ok (written, last)) :
    (written.flatMap Block.labels).Perm
      (program.filterMap Part.declared? ++ written.flatMap Block.generated) := by
  induction program generalizing supply written with
  | nil =>
    cases expanded
    exact List.Perm.refl _
  | cons part rest hypothesis =>
    obtain ⟨lines, next, tail, found, remaining, rfl⟩ := expand_cons_inv expanded
    have others := hypothesis remaining
    rw [List.flatMap_cons, List.flatMap_cons, List.filterMap_cons]
    cases declared : part.declared? with
    | some name =>
      have labels : (Block.mk part lines).labels = [name] := by
        rcases Part.labels_cases found with ⟨other, same, labels, -⟩ | ⟨absent, -⟩ |
          ⟨absent, -⟩ | ⟨other, absent, -⟩
        · cases declared.symm.trans same
          exact labels
        all_goals cases declared.symm.trans absent
      have none : (Block.mk part lines).generated = [] := by simp [Block.generated, declared]
      rw [labels, none]
      exact others.cons name
    | none =>
      have all : (Block.mk part lines).generated = (Block.mk part lines).labels := by
        simp [Block.generated, declared]
      rw [all]
      refine (others.append_left _).trans ?_
      rw [← List.append_assoc, ← List.append_assoc]
      exact List.perm_append_comm.append_right _

/-- A program whose names the assembler can tell apart. -/
structure WellNamed (options : EmissionOptions) (sources : List Source) : Prop where
  units : ∀ source ∈ sources, isSymbol source.name
  declared : ∀ name ∈ declaredNames options sources, isSymbol name
  targets : ∀ name ∈ (parts options sources).filterMap Part.target?, isSymbol name
  distinct : (declaredNames options sources).Nodup
  predefined : ∀ name ∈ declaredNames options sources,
    name ∉ SymbolTable.predefinedSymbols.map Prod.fst
  generated : ∀ name ∈ declaredNames options sources, name ∉ generatedLabels options sources

/-- The static cells of units whose names are symbols have symbols. -/
theorem isSymbol_of_static {options : EmissionOptions} {sources : List Source}
    (units : ∀ source ∈ sources, isSymbol source.name) :
    ∀ name ∈ (parts options sources).filterMap Part.static?, isSymbol name := by
  intro name member
  obtain ⟨part, listed, static⟩ := List.mem_filterMap.mp member
  rcases mem_parts_iff.mp listed with ⟨-, rfl⟩ | ⟨source, present, command, -, rfl⟩
  · cases static
  · unfold Part.static? at static
    split at static
    · rename_i same
      cases same
      cases static
      exact isSymbol_staticSymbol (units source present) _
    · rename_i same
      cases same
      cases static
      exact isSymbol_staticSymbol (units source present) _
    · cases static

/-- The names of a well-named program are symbols. -/
theorem WellNamed.names {options : EmissionOptions} {sources : List Source}
    (named : WellNamed options sources) :
    ∀ part ∈ parts options sources, ∀ name ∈ part.names, isSymbol name := by
  intro part listed
  rw [Part.forall_mem_names]
  refine ⟨?_, ?_, ?_⟩
  · intro name declared
    exact named.declared name (List.mem_filterMap.mpr ⟨part, listed, declared⟩)
  · intro name target
    exact named.targets name (List.mem_filterMap.mpr ⟨part, listed, target⟩)
  · intro name static
    exact isSymbol_of_static named.units name (List.mem_filterMap.mpr ⟨part, listed, static⟩)

/-- The labels of a well-named program are distinct symbols that the machine does not use itself. -/
theorem WellNamed.labels {options : EmissionOptions} {sources : List Source}
    (named : WellNamed options sources) {last : LabelSupply}
    (expanded : expand {} (parts options sources) = .ok (blocks options sources, last)) :
    ((blocks options sources).flatMap Block.labels).Nodup ∧
      ∀ name ∈ (blocks options sources).flatMap Block.labels,
        isSymbol name ∧ name ∉ SymbolTable.predefined := by
  have perm := labels_perm expanded
  obtain ⟨given, distinct⟩ := generated_of_expand expanded
  constructor
  · rw [perm.nodup_iff, List.nodup_append]
    refine ⟨named.distinct, distinct, ?_⟩
    rintro name declared other taken rfl
    exact named.generated name declared taken
  · intro name member
    constructor
    · obtain ⟨block, present, inside⟩ := List.mem_flatMap.mp member
      obtain ⟨line, among, label⟩ := List.mem_filterMap.mp inside
      have sound := sound_of_expand composable_isSymbol expanded named.names line
        (List.mem_flatMap.mpr ⟨block, present, among⟩)
      cases line <;> cases label
      exact sound
    · rw [SymbolTable.mem_predefined_iff]
      rcases List.mem_append.mp (perm.mem_iff.mp member) with declared | generated
      · exact named.predefined name declared
      · exact (given name generated).not_predefined

/-- The text of a well-named program that is not too long is assembled to a program that is linked
to its blocks. -/
theorem WellNamed.assembles {options : EmissionOptions} {sources : List Source}
    (named : WellNamed options sources) {text : String}
    (compiled : (compile options sources).result = .ok text)
    (fits : codeSize (blocks options sources) ≤ Word.maxValue) :
    ∃ program, Program.assemble text.toList = .ok program ∧
      Linked (blocks options sources) program := by
  obtain ⟨-, ⟨last, expanded⟩, -⟩ := compile_ok compiled
  have sound := sound_of_expand composable_isSymbol expanded named.names
  have statements := map_statement_of_isPlain compiled fun part listed name member =>
    isPlain_of_isSymbol (named.names part listed name member)
  obtain ⟨distinct, new⟩ := named.labels expanded
  have decodable : ∀ statement ∈ (codeLines (blocks options sources)).filterMap
      AssemblyLine.statement?, statement.Decodable := by
    intro statement member
    obtain ⟨line, among, found⟩ := List.mem_filterMap.mp member
    exact AssemblyLine.decodable_of_sound (sound line among) found
  have paired := loadsPaired_of_expand expanded
  have cells : Program.variableBase + ((codeLines (blocks options sources)).filterMap
      AssemblyLine.statement?).countP Statement.loadsSymbol ≤ Word.maxValue := by
    have loads := countP_loadsSymbol_le (codeLines (blocks options sources))
    unfold LoadsPaired at paired
    simp only [codeSize, Word.maxValue, Program.variableBase] at fits ⊢
    omega
  obtain ⟨program, assembled⟩ := Program.assemble_succeeds statements
    (by rwa [label?_codeLines]) (by rwa [label?_codeLines]) decodable
    (by rwa [AssemblyLine.countP_takesAddress]) cells
  have resolves := Program.assemble_ok assembled
  rw [statements] at resolves
  exact ⟨program, assembled, resolves.linked sound⟩

/-- **Compiled text assembles.** The text of a well-named program of at most as many instructions as
there are addresses is assembled to a program that consists of the instructions of its blocks, one
block for each part, and gives every label the number of instructions before it. -/
theorem assemble_compile {options : EmissionOptions} {sources : List Source} {text : String}
    (compiled : (compile options sources).result = .ok text) (named : WellNamed options sources)
    (fits : codeSize (blocks options sources) ≤ Word.maxValue) :
    (blocks options sources).map Block.part = parts options sources ∧
    ∃ program, Program.assemble text.toList = .ok program ∧
      program.instructions.size = codeSize (blocks options sources) ∧
      ∀ index block, (blocks options sources)[index]? = some block →
        (program.instructions.extract (blockStart (blocks options sources) index)
          (blockStart (blocks options sources) (index + 1))).toList =
            block.instructions program.symbols ∧
        ∀ first name rest, block.lines = first ++ .label name :: rest →
          ∃ address, program.symbols[name]? = some address ∧ address.toNat =
            blockStart (blocks options sources) index +
              first.countP AssemblyLine.isInstruction := by
  obtain ⟨-, ⟨last, expanded⟩, -⟩ := compile_ok compiled
  obtain ⟨program, assembled, linked⟩ := named.assembles compiled fits
  refine ⟨map_part_of_expand expanded, program, assembled, linked.size_instructions, ?_⟩
  intro index block found
  exact ⟨linked.extract_instructions found, fun first name rest split =>
    linked.address_label found split⟩

/-! ## A program -/

/-- A unit with a function that compares its local cells. -/
def mainSource : Source :=
  ⟨"Main", "function f 2\neq\nreturn"⟩

/-- A unit that calls the function in a loop, and keeps its result in a static cell. -/
def sysSource : Source :=
  ⟨"Sys", "label LOOP\ncall f 1\npop static 0\ngoto LOOP"⟩

def sampleSources : List Source :=
  [mainSource, sysSource]

theorem readAll_mainSource : Command.readAll mainSource.text.toList =
    .ok [⟨⟨0, 12⟩, .function "f" 2⟩, ⟨⟨13, 15⟩, .operator .eq⟩, ⟨⟨16, 22⟩, .return⟩] := by
  have free : ∀ line ∈ Text.locatedLines mainSource.text.toList, '/' ∉ line.code := by decide
  rw [Command.readAll, Command.readings_of_free free]
  decide

theorem readAll_sysSource : Command.readAll sysSource.text.toList =
    .ok [⟨⟨0, 10⟩, .label "LOOP"⟩, ⟨⟨11, 19⟩, .call "f" 1⟩, ⟨⟨20, 32⟩, .pop .static 0⟩,
      ⟨⟨33, 42⟩, .goto "LOOP"⟩] := by
  have free : ∀ line ∈ Text.locatedLines sysSource.text.toList, '/' ∉ line.code := by decide
  rw [Command.readAll, Command.readings_of_free free]
  decide

theorem parts_sampleSources : parts ⟨true, "f", false⟩ sampleSources =
    [.bootstrap "f", .command "Main" (.function "f" 2), .command "Main" (.operator .eq),
      .command "Main" .return, .command "Sys" (.label "LOOP"), .command "Sys" (.call "f" 1),
      .command "Sys" (.pop .static 0), .command "Sys" (.goto "LOOP")] := by
  simp only [parts, sampleSources, List.flatMap_cons, List.flatMap_nil, Source.parts,
    Source.commands, readAll_mainSource, readAll_sysSource]
  rfl

theorem compile_sampleSources :
    ∃ text, (compile ⟨true, "f", false⟩ sampleSources).result = .ok text := by
  have readable : ∀ source ∈ sampleSources,
      ∃ located, Command.readAll source.text.toList = .ok located := by
    rw [sampleSources, List.forall_mem_cons, List.forall_mem_singleton]
    exact ⟨⟨_, readAll_mainSource⟩, ⟨_, readAll_sysSource⟩⟩
  refine compile_succeeds readable ?_
  rw [parts_sampleSources]
  exact ⟨_, rfl⟩

/-- The sample is well named. -/
theorem wellNamed_sampleSources : WellNamed ⟨true, "f", false⟩ sampleSources := by
  refine ⟨by decide, ?_, ?_, ?_, ?_, ?_⟩
  all_goals simp only [declaredNames, generatedLabels, blocks, parts_sampleSources]
  all_goals decide

theorem codeSize_sampleSources : codeSize (blocks ⟨true, "f", false⟩ sampleSources) = 183 := by
  simp only [blocks, parts_sampleSources]
  decide +kernel

theorem assemble_compile_sampleSources :
    ∃ text, (compile ⟨true, "f", false⟩ sampleSources).result = .ok text ∧
      WellNamed ⟨true, "f", false⟩ sampleSources ∧
      ∃ program, Program.assemble text.toList = .ok program ∧
        program.instructions.size = 183 := by
  obtain ⟨text, compiled⟩ := compile_sampleSources
  have fits : codeSize (blocks ⟨true, "f", false⟩ sampleSources) ≤ Word.maxValue := by
    rw [codeSize_sampleSources]
    decide
  obtain ⟨-, program, assembled, size, -⟩ :=
    assemble_compile compiled wellNamed_sampleSources fits
  exact ⟨text, compiled, wellNamed_sampleSources, program, assembled,
    size.trans codeSize_sampleSources⟩

end HackToolchain
