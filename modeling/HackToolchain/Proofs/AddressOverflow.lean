import HackToolchain.Proofs.AssemblyGrammar
import HackToolchain.Proofs.LabelCapture
import Mathlib.Data.List.Nodup

/-! # Running out of addresses

Each pass of the assembler hands out addresses, and can run out of them: the first for the lines
that hold no label (`LinesOverflow`), the second for variables (`VariablesOverflow`). A text cannot
be assembled for want of addresses just when one of the two holds (`assemble_overflow`). In compiled
text at most half of the instructions are loads, so that there are never too many variables
(`not_variablesOverflow_compile`).
-/

namespace HackToolchain

namespace CodeLine

/-- Whether a line holds something in round brackets. -/
def isBracketed (line : CodeLine) : Bool :=
  line.code.head? = some '(' && line.code.getLast? = some ')'

/-- A line takes up an address unless it is in brackets. -/
theorem takesAddress_statement (line : CodeLine) :
    line.statement.takesAddress = !line.isBracketed := by
  rw [isBracketed]
  cases found : line.statement with
  | label name =>
    rw [statement_eq_label_iff.mp found, ← List.cons_append, List.getLast?_concat]
    rfl
  | unclosed =>
    obtain ⟨-, unended⟩ := statement_eq_unclosed_iff.mp found
    simp [Statement.takesAddress, unended]
  | load operand =>
    rw [statement_eq_load_iff.mp found]
    simp [Statement.takesAddress]
  | compute text =>
    obtain ⟨bracket, -⟩ := statement_eq_compute_iff.mp found
    simp [Statement.takesAddress, bracket]

/-- A line loads a symbol just when its statement does. -/
theorem isSome_loaded? (line : CodeLine) : line.loaded?.isSome = line.statement.loadsSymbol := by
  rw [loaded?]
  cases line.statement with
  | label _ | unclosed | compute _ => rfl
  | load operand =>
    by_cases digit : operand.head?.any Char.isDigit
    · simp [Statement.loadsSymbol, digit]
    · simp [Statement.loadsSymbol, digit]

end CodeLine

/-- There are no more distinct names than names. -/
theorem length_eraseDups_le (names : List String) : names.eraseDups.length ≤ names.length := by
  cases names with
  | nil => exact Nat.le_refl 0
  | cons name rest =>
    have shorter := List.length_filter_le (fun other => !other == name) rest
    have remaining := length_eraseDups_le (rest.filter fun other => !other == name)
    rw [List.eraseDups_cons, List.length_cons, List.length_cons]
    omega
termination_by names.length
decreasing_by exact Nat.lt_succ_of_le shorter

/-- Among the first lines, which declare new symbols only, there are more lines without a label than
addresses. -/
def LinesOverflow (lines : List CodeLine) : Prop :=
  ∃ met rest, lines = met ++ rest ∧ LabelsGood met ∧
    65535 < met.countP fun line => !line.isBracketed

/-- The labels are good and not too late, and the first lines, all of which are good, load more
symbols than there are addresses for variables. -/
def VariablesOverflow (lines : List CodeLine) : Prop :=
  LabelsGood lines ∧ (lines.countP fun line => !line.isBracketed) ≤ 65535 ∧
    ∃ met rest, lines = met ++ rest ∧ (∀ line ∈ met, line.IsGood) ∧
      65520 ≤ (Program.variablesMet lines met).length

namespace Program

/-- The address after some lines is the number of lines that are not in brackets. -/
theorem addressAfter_eq_countP (lines : List CodeLine) :
    addressAfter lines = lines.countP fun line => !line.isBracketed := by
  unfold addressAfter
  simp only [CodeLine.takesAddress_statement]

/-! ## When the passes run out of addresses -/

/-- The first pass overflows just when the lines do. -/
theorem declareLabels_eq_overflow_iff {lines : List CodeLine} :
    declareLabels 0 SymbolTable.predefined lines = .error .overflow ↔ LinesOverflow lines := by
  rw [(declareLabels_outcome lines).eq_overflow_iff, LinesOverflow]
  simp only [← addressAfter_eq_countP]
  rfl

/-- The first pass succeeds just when the labels are good and there are addresses for all lines. -/
theorem exists_declareLabels_iff {lines : List CodeLine} :
    (∃ table, declareLabels 0 SymbolTable.predefined lines = .ok table) ↔
      LabelsGood lines ∧ (lines.countP fun line => !line.isBracketed) ≤ 65535 := by
  rw [(declareLabels_outcome lines).exists_ok_iff, ← addressAfter_eq_countP]
  rfl

/-- The second pass overflows just when good lines load more symbols than there are cells left. -/
theorem pushLines_eq_overflow_iff {lines : List CodeLine} {table : SymbolTable}
    (declared : declareLabels 0 SymbolTable.predefined lines = .ok table) :
    pushLines lines ⟨⟨#[], table⟩, variableBase⟩ = .error .overflow ↔
      ∃ met rest, lines = met ++ rest ∧ (∀ line ∈ met, line.IsGood) ∧
        65520 ≤ (variablesMet lines met).length := by
  rw [(pushLines_outcome table lines).eq_overflow_iff]
  have used : ∀ met, Word.maxValue < (Pass.decoding table).used met ↔
      65520 ≤ (variablesMet lines met).length := by
    intro met
    rw [← newSymbols_eq_variablesMet declared]
    change 65535 < 16 + _ ↔ _
    omega
  simp only [used, accepts_decoding_iff]

/-- The assembler overflows just when the lines or the variables do. -/
theorem assemble_eq_overflow_iff (text : Text) :
    assemble text = .error .overflow ↔
      LinesOverflow (CodeLine.ofText text) ∨ VariablesOverflow (CodeLine.ofText text) := by
  rw [← declareLabels_eq_overflow_iff, VariablesOverflow, ← and_assoc, ← exists_declareLabels_iff]
  cases labels : declareLabels 0 SymbolTable.predefined (CodeLine.ofText text) with
  | error failure =>
    rw [assemble_of_labels_error labels]
    simp
  | ok table =>
    rw [assemble_of_labels labels, ← pushLines_eq_overflow_iff labels]
    cases pushLines (CodeLine.ofText text) ⟨⟨#[], table⟩, variableBase⟩ with
    | error failure => simp [Except.map]
    | ok last => simp [Except.map]

end Program

/-! ## Compiled text -/

/-- There are no more variables among some first lines than there are statements that load a
symbol. -/
theorem length_variablesMet_le {lines met rest : List CodeLine} (split : lines = met ++ rest) :
    (Program.variablesMet lines met).length ≤
      (lines.map CodeLine.statement).countP Statement.loadsSymbol := by
  have loads : ∀ lines : List CodeLine, (lines.filterMap CodeLine.loaded?).length =
      (lines.map CodeLine.statement).countP Statement.loadsSymbol := by
    intro lines
    rw [List.length_filterMap_eq_countP, List.countP_map]
    apply List.countP_congr
    intro line _
    rw [CodeLine.isSome_loaded?]
    rfl
  calc (Program.variablesMet lines met).length
    _ ≤ _ := length_eraseDups_le _
    _ ≤ (met.filterMap CodeLine.loaded?).length := List.length_filter_le _ _
    _ ≤ (lines.filterMap CodeLine.loaded?).length := by
      rw [split, List.filterMap_append, List.length_append]
      exact Nat.le_add_right _ _
    _ = _ := loads lines

/-- In compiled text at most half of the instructions are loads, and a program with so many
instructions as there are addresses does not load more symbols than there are addresses for
variables. -/
theorem not_variablesOverflow_compile {options : EmissionOptions} {sources : List Source}
    {text : String} (compiled : (compile options sources).result = .ok text)
    (entry : isSymbol options.entry) (valid : ∀ source ∈ sources, isSymbol source.name) :
    ¬VariablesOverflow (CodeLine.ofText text.toList) := by
  rintro ⟨-, fits, met, rest, split, -, many⟩
  obtain ⟨-, ⟨last, expanded⟩, -⟩ := compile_ok compiled
  have statements := map_statement_compiled compiled entry valid
  have paired := loadsPaired_of_expand expanded
  have cells := length_variablesMet_le split
  have loads := countP_loadsSymbol_le (codeLines (blocks options sources))
  rw [← Program.addressAfter_eq_countP, Program.addressAfter_eq, statements,
    AssemblyLine.countP_takesAddress] at fits
  rw [statements] at cells
  unfold LoadsPaired at paired
  omega

/-! ## A text with too many variables -/

/-- A text that loads some symbols, each on a line of its own. -/
def loadsOf (names : List String) : Text :=
  AssemblyLine.textOf (names.map fun name => .load (.symbol name))

section

variable {names : List String} (valid : ∀ name ∈ names, isSymbol name)

include valid

/-- A text of loads is read as these loads. -/
theorem map_statement_loadsOf : (CodeLine.ofText (loadsOf names)).map CodeLine.statement =
    names.map fun name => .load name.toList := by
  have clean : ∀ line ∈ names.map fun name => AssemblyLine.load (.symbol name), line.Clean := by
    rw [List.forall_mem_map]
    intro name member
    exact isPlain_of_isSymbol (valid name member)
  rw [loadsOf, map_statement_ofText clean, List.filterMap_map]
  exact congrFun List.filterMap_eq_map names

/-- Too many symbols that the machine does not use itself are too many variables, if the lines that
load them are not too many. -/
theorem variablesOverflow_loadsOf
    (fresh : ∀ name ∈ names, name ∉ SymbolTable.predefinedSymbols.map Prod.fst)
    (distinct : names.Nodup) (many : 65520 ≤ names.length) (fits : names.length ≤ 65535) :
    VariablesOverflow (CodeLine.ofText (loadsOf names)) := by
  have statements := map_statement_loadsOf valid
  generalize CodeLine.ofText (loadsOf names) = lines at statements
  have loads : ∀ line ∈ lines, ∃ name ∈ names, line.code = '@' :: name.toList := by
    intro line member
    have listed : line.statement ∈ names.map fun name => .load name.toList := by
      rw [← statements]
      exact List.mem_map_of_mem member
    obtain ⟨name, among, same⟩ := List.mem_map.mp listed
    exact ⟨name, among, CodeLine.statement_eq_load_iff.mp same.symm⟩
  have free : ∀ line ∈ lines, ∀ name, ¬line.Declares name := by
    intro line member name declares
    obtain ⟨other, -, code⟩ := loads line member
    cases code.symm.trans declares
  refine ⟨?_, ?_, lines, [], (List.append_nil _).symm, ?_, ?_⟩
  · rintro before line after rfl name declares
    exact absurd declares (free line (List.mem_append_right _ List.mem_cons_self) name)
  · rw [← Program.addressAfter_eq_countP, Program.addressAfter_eq, statements]
    exact List.countP_le_length.trans ((List.length_map _).trans_le fits)
  · intro line member
    obtain ⟨name, among, code⟩ := loads line member
    refine ⟨?_, ?_⟩
    · intro operand same
      cases code.symm.trans same
      rw [String.ofList_toList]
      exact .inr (valid name among)
    · intro _ mark
      rw [code] at mark
      exact absurd rfl mark
  · refine many.trans (distinct.length_le_of_subset ?_)
    intro name among
    rw [Program.variablesMet, List.mem_eraseDups, List.mem_filter, decide_eq_true_iff,
      CodeLine.mem_declared_iff]
    refine ⟨?_, fresh name among, ?_⟩
    · have listed : .load name.toList ∈ lines.map CodeLine.statement := by
        rw [statements]
        exact List.mem_map_of_mem among
      obtain ⟨line, member, same⟩ := List.mem_map.mp listed
      refine List.mem_filterMap.mpr ⟨line, member, ?_⟩
      rw [CodeLine.loaded?, same]
      simp only [AssemblyLine.not_digit_of_isSymbol (valid name among), Bool.false_eq_true,
        ↓reduceIte, String.ofList_toList]
    · rintro ⟨line, member, declares⟩
      exact free line member name declares

end

/-- The fewest symbols for which there are not addresses enough. -/
def manyNames : List String :=
  (List.range 65520).map fun index => Template.staticSymbol "v" (BitVec.ofNat 16 index)

/-- There are more names than cells for variables. -/
theorem variablesOverflow_manyNames : VariablesOverflow (CodeLine.ofText (loadsOf manyNames)) := by
  have length : manyNames.length = 65520 := by rw [manyNames, List.length_map, List.length_range]
  refine variablesOverflow_loadsOf ?_ ?_ ?_ length.ge (length.trans_le (by decide))
  · rw [manyNames, List.forall_mem_map]
    intro index _
    exact isSymbol_staticSymbol (by decide) _
  · rw [manyNames, List.forall_mem_map]
    intro index _
    exact staticSymbol_not_predefined "v" _
  · refine List.Nodup.map_on ?_ List.nodup_range
    intro first small second other same
    have numbers := congrArg BitVec.toNat (staticSymbol_inj.mp same).2
    rw [List.mem_range] at small other
    rwa [BitVec.toNat_ofNat, BitVec.toNat_ofNat, Nat.mod_eq_of_lt (by omega),
      Nat.mod_eq_of_lt (by omega)] at numbers

/-! ## Overflow -/

/-- **Running out of addresses.** The assembler runs out of addresses just in two cases: among the
first lines, up to which no label is wrong, more than 65535 hold no label; or all labels are good
and among the first lines, up to which no instruction is wrong, there are 65520 symbols that neither
the machine nor any line declares. The second case does not occur in text that is compiled with
symbols for the names of its units and of its entry function. -/
theorem assemble_overflow :
    (∀ text : Text, Program.assemble text = .error .overflow ↔
      LinesOverflow (CodeLine.ofLines text.endedLines) ∨
        VariablesOverflow (CodeLine.ofLines text.endedLines)) ∧
    ∀ (options : EmissionOptions) (sources : List Source) (text : String),
      (compile options sources).result = .ok text → isSymbol options.entry →
        (∀ source ∈ sources, isSymbol source.name) →
          ¬VariablesOverflow (CodeLine.ofLines (Text.endedLines text.toList)) ∧
          (Program.assemble text.toList = .error .overflow ↔
            LinesOverflow (CodeLine.ofLines (Text.endedLines text.toList))) := by
  simp only [CodeLine.ofLines_endedLines]
  refine ⟨Program.assemble_eq_overflow_iff, ?_⟩
  intro options sources text compiled entry valid
  have room := not_variablesOverflow_compile compiled entry valid
  refine ⟨room, ?_⟩
  rw [Program.assemble_eq_overflow_iff, or_iff_left room]

/-- One text overflows, and the text of the sample does so only if it has too many lines. -/
theorem assemble_overflow_samples :
    Program.assemble (loadsOf manyNames) = .error .overflow ∧
    ∃ text, (compile ⟨true, "f", false⟩ sampleSources).result = .ok text ∧
      ¬VariablesOverflow (CodeLine.ofLines (Text.endedLines text.toList)) ∧
      (Program.assemble text.toList = .error .overflow ↔
        LinesOverflow (CodeLine.ofLines (Text.endedLines text.toList))) := by
  constructor
  · rw [assemble_overflow.1, CodeLine.ofLines_endedLines]
    exact .inr variablesOverflow_manyNames
  · obtain ⟨text, compiled⟩ := compile_sampleSources
    exact ⟨text, compiled, assemble_overflow.2 _ _ text compiled (by decide) (by decide)⟩

end HackToolchain
