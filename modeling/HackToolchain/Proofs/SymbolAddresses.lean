import HackToolchain.Proofs.Resolution

/-! # Addresses of symbols

The table of an assembled program holds the machine's own symbols, the labels of the text and the
variables, and no others. A variable is a symbol that is loaded and that neither the machine nor the
text declares; the variables have the addresses from `variableBase` on, in the order of their first
use (`variableNames`). The first pass fills in the labels (`mem_declareLabels_iff`). The second pass
adds one variable at a time, and `Allocated` is what it keeps (`Allocated.pushLine`,
`Allocated.pushLines`). Both are put together in `assemble_symbols`.
-/

namespace HackToolchain

namespace CodeLine

/-! ## Lines by their characters -/

/-- A line in brackets is a label. -/
theorem statement_eq_label_iff {line : CodeLine} {name : String} :
    line.statement = .label name ↔ line.code = '(' :: (name.toList ++ [')']) := by
  constructor
  · intro found
    unfold statement at found
    split at found
    · rename_i rest same
      split at found
      · rename_i closed
        cases found
        rw [same, String.toList_ofList, List.dropLast_append_getLast? _ closed]
      · cases found
    · cases found
    · cases found
  · intro code
    unfold statement
    rw [code]
    simp

/-- A line that opens a bracket and does not close it is unclosed. -/
theorem statement_eq_unclosed_iff {line : CodeLine} :
    line.statement = .unclosed ↔ line.code.head? = some '(' ∧ line.code.getLast? ≠ some ')' := by
  unfold statement
  split
  · rename_i rest same
    rw [same]
    -- A bracket alone is not its own closing bracket.
    have last : ('(' :: rest).getLast? = some ')' ↔ rest.getLast? = some ')' := by
      cases rest with
      | nil => simp
      | cons next others => rw [List.getLast?_cons_cons]
    by_cases closed : rest.getLast? = some ')'
    · simp [closed, last]
    · simp [closed, last]
  · rename_i same
    simp [same]
  · rename_i other _
    constructor
    · intro found
      cases found
    · rintro ⟨head, -⟩
      obtain ⟨rest, same⟩ := List.head?_eq_some_iff.mp head
      exact absurd same (other rest)

/-- A line with a load mark is a load. -/
theorem statement_eq_load_iff {line : CodeLine} {operand : Text} :
    line.statement = .load operand ↔ line.code = '@' :: operand := by
  constructor
  · intro found
    unfold statement at found
    split at found
    · split at found <;> cases found
    · rename_i same
      cases found
      exact same
    · cases found
  · intro code
    unfold statement
    rw [code]
    rfl

/-- Whether a line opens a bracket that it does not close. -/
def isUnclosed (line : CodeLine) : Bool :=
  line.code.head? = some '(' && line.code.getLast? ≠ some ')'

/-- A line is unclosed just when its statement is. -/
theorem isUnclosed_iff {line : CodeLine} : line.isUnclosed ↔ line.statement = .unclosed := by
  rw [statement_eq_unclosed_iff]
  simp [isUnclosed]

/-- The name that a line declares. -/
def declared? (line : CodeLine) : Option String :=
  line.statement.label?

/-- The symbol that a line loads. -/
def loaded? (line : CodeLine) : Option String :=
  match line.statement with
  | .load operand => if operand.head?.any Char.isDigit then none else some (String.ofList operand)
  | .label _ | .unclosed | .compute _ => none

/-- The instruction on a line, given the addresses of symbols. -/
def instruction? (symbols : SymbolTable) (line : CodeLine) : Option Instruction :=
  line.statement.instruction? symbols

/-- A line that can be decoded takes up an address for its instruction, or for a bracket that it
does not close. -/
theorem takesAddress_eq {line : CodeLine} (decodable : line.statement.Decodable)
    (symbols : SymbolTable) :
    (if line.statement.takesAddress then 1 else 0) =
      (line.instruction? symbols).toList.length + if line.isUnclosed then 1 else 0 := by
  have unclosed : line.isUnclosed = decide (line.statement = .unclosed) := by
    rw [Bool.eq_iff_iff, isUnclosed_iff, decide_eq_true_iff]
  rw [unclosed, instruction?]
  cases found : line.statement with
  | label _ | unclosed | load _ => rfl
  | compute text =>
    rw [found] at decodable
    obtain ⟨instruction, decoded⟩ := decodable
    rw [Statement.instruction?, decoded]
    rfl

end CodeLine

namespace Program

/-! ## The first pass -/

/-- The first pass adds the labels of the lines to the table, and nothing else. -/
theorem mem_declareLabels_iff {address : Nat} {table final : SymbolTable} {lines : List CodeLine}
    (declared : declareLabels address table lines = .ok final) {name : String} :
    name ∈ final ↔ name ∈ table ∨ name ∈ lines.filterMap CodeLine.declared? := by
  induction lines generalizing address table with
  | nil =>
    cases declared
    simp
  | cons line rest hypothesis =>
    rw [List.filterMap_cons, CodeLine.declared?]
    rcases declareLabels_cons_ok declared with ⟨label, statement, -, -, remaining⟩ |
      ⟨taken, -, remaining⟩
    · rw [hypothesis remaining, Std.TreeMap.mem_insert, Std.LawfulEqCmp.compare_eq_iff_eq,
        statement, Statement.label?, List.mem_cons]
      grind
    · have none : line.statement.label? = none := by
        cases found : line.statement with
        | label _ =>
          rw [found] at taken
          cases taken
        | unclosed | load _ | compute _ => rfl
      rw [hypothesis remaining, none]

/-! ## The second pass -/

/-- All that the second pass can do with the table at a line: nothing if the line loads no symbol or
one that is known, and otherwise the symbol gets the next address for variables. -/
theorem pushLine_cases {line : CodeLine} {progress next : Progress}
    (pushed : progress.pushLine line = .ok next) :
    ((∀ name ∈ line.loaded?, name ∈ progress.program.symbols) ∧
      next.program.symbols = progress.program.symbols ∧
      next.nextVariable = progress.nextVariable) ∨
    ∃ name, line.loaded? = some name ∧ name ∉ progress.program.symbols ∧
      progress.nextVariable < Word.maxValue ∧
      next.program.symbols =
        progress.program.symbols.insert name (BitVec.ofNat 16 progress.nextVariable) ∧
      next.nextVariable = progress.nextVariable + 1 := by
  unfold Progress.pushLine at pushed
  unfold CodeLine.loaded?
  cases found : line.statement with
  | label _ | unclosed =>
    rw [found] at pushed
    cases pushed
    exact .inl ⟨nofun, rfl, rfl⟩
  | compute text =>
    rw [found] at pushed
    cases decoded : decodeCompute text with
    | error cause =>
      simp only [decoded] at pushed
      cases pushed
    | ok instruction =>
      simp only [decoded] at pushed
      cases pushed
      exact .inl ⟨nofun, rfl, rfl⟩
  | load operand =>
    rw [found] at pushed
    by_cases digit : operand.head?.any Char.isDigit
    · simp only [digit, ↓reduceIte] at pushed ⊢
      cases decoded : decodeNumber operand with
      | error cause =>
        rw [decoded] at pushed
        cases pushed
      | ok value =>
        rw [decoded] at pushed
        cases pushed
        exact .inl ⟨nofun, rfl, rfl⟩
    · simp only [digit, Bool.false_eq_true, ↓reduceIte] at pushed ⊢
      split at pushed
      · unfold Progress.pushSymbol at pushed
        split at pushed
        · rename_i address known
          cases pushed
          left
          refine ⟨?_, rfl, rfl⟩
          rintro name ⟨⟩
          exact SymbolTable.mem_iff_exists.mpr ⟨address, known⟩
        · rename_i unknown
          split at pushed
          · rename_i room
            cases pushed
            right
            refine ⟨_, rfl, ?_, room, rfl, rfl⟩
            rw [SymbolTable.mem_iff_exists, unknown]
            nofun
          · cases pushed
      · cases pushed

/-- The symbols that some lines load and a table does not hold, in the order of their first use. -/
def newSymbols (table : SymbolTable) (lines : List CodeLine) : List String :=
  ((lines.filterMap CodeLine.loaded?).filter fun name => name ∉ table).eraseDups

section

variable {table : SymbolTable} {lines : List CodeLine} {line : CodeLine}

/-- The new symbols are those that are loaded and not in the table. -/
theorem mem_newSymbols_iff {name : String} :
    name ∈ newSymbols table lines ↔ name ∈ lines.filterMap CodeLine.loaded? ∧ name ∉ table := by
  rw [newSymbols, List.mem_eraseDups, List.mem_filter, decide_eq_true_iff]

/-- A line that loads no symbol, or one that is known or met before, adds no new one. -/
theorem newSymbols_append_of_known
    (known : ∀ name ∈ line.loaded?, name ∈ table ∨ name ∈ newSymbols table lines) :
    newSymbols table (lines ++ [line]) = newSymbols table lines := by
  rw [newSymbols, List.filterMap_append, List.filter_append, List.eraseDups_append]
  have none : (([line].filterMap CodeLine.loaded?).filter fun name => name ∉ table).removeAll
      ((lines.filterMap CodeLine.loaded?).filter fun name => name ∉ table) = [] := by
    rw [List.removeAll, List.filter_eq_nil_iff]
    intro name member
    rw [List.mem_filter, decide_eq_true_iff, List.filterMap_cons, List.filterMap_nil] at member
    cases loaded : line.loaded? with
    | none =>
      rw [loaded] at member
      cases member.1
    | some found =>
      rw [loaded] at member
      cases List.mem_singleton.mp member.1
      have before := (known name loaded).resolve_left member.2
      rw [mem_newSymbols_iff] at before
      simp [before]
  rw [none, List.eraseDups_nil, List.append_nil, ← newSymbols]

/-- A symbol that is neither known nor met before is the next new one. -/
theorem newSymbols_append_of_fresh {name : String} (loaded : line.loaded? = some name)
    (unknown : name ∉ table) (first : name ∉ newSymbols table lines) :
    newSymbols table (lines ++ [line]) = newSymbols table lines ++ [name] := by
  rw [mem_newSymbols_iff, not_and_not_right] at first
  have unmet : name ∉ (lines.filterMap CodeLine.loaded?).filter fun name => name ∉ table := by
    rw [List.mem_filter]
    exact fun met => unknown (first met.1)
  have one : ([line].filterMap CodeLine.loaded?).filter (fun name => name ∉ table) = [name] := by
    simp [loaded, unknown]
  have kept : [name].removeAll
      ((lines.filterMap CodeLine.loaded?).filter fun name => name ∉ table) = [name] := by
    rw [List.removeAll, List.filter_cons_of_pos, List.filter_nil]
    rw [Bool.not_eq_true', Bool.eq_false_iff, ne_eq, List.elem_iff]
    exact unmet
  rw [newSymbols, List.filterMap_append, List.filter_append, List.eraseDups_append, one, kept,
    ← newSymbols]
  rfl

end

/-- What the second pass keeps after some lines: the table holds what it held at first and the new
symbols, which have the addresses for variables in order. -/
structure Allocated (table : SymbolTable) (lines : List CodeLine) (progress : Progress) : Prop where
  next : progress.nextVariable = variableBase + (newSymbols table lines).length
  fits : progress.nextVariable ≤ Word.maxValue
  mem_iff : ∀ name, name ∈ progress.program.symbols ↔ name ∈ table ∨ name ∈ newSymbols table lines
  address : ∀ index name, (newSymbols table lines)[index]? = some name →
    progress.program.symbols[name]? = some (BitVec.ofNat 16 (variableBase + index))

theorem allocated_nil (table : SymbolTable) (instructions : Array Instruction) :
    Allocated table [] ⟨⟨instructions, table⟩, variableBase⟩ where
  next := rfl
  fits := show variableBase ≤ Word.maxValue by decide
  mem_iff name := by simp [newSymbols]
  address index name found := by simp [newSymbols] at found

/-- A line that is pushed allocates its new symbol, if it has one. -/
theorem Allocated.pushLine {table : SymbolTable} {lines : List CodeLine} {line : CodeLine}
    {progress next : Progress} (allocated : Allocated table lines progress)
    (pushed : progress.pushLine line = .ok next) : Allocated table (lines ++ [line]) next := by
  rcases pushLine_cases pushed with ⟨known, symbols, counter⟩ |
    ⟨name, loaded, fresh, room, symbols, counter⟩
  · have same := newSymbols_append_of_known fun name loaded =>
      (allocated.mem_iff name).mp (known name loaded)
    refine ⟨?_, ?_, ?_, ?_⟩
    · rw [counter, same]
      exact allocated.next
    · rw [counter]
      exact allocated.fits
    · rw [symbols, same]
      exact allocated.mem_iff
    · rw [symbols, same]
      exact allocated.address
  · have unknown := (not_congr (allocated.mem_iff name)).mp fresh
    rw [not_or] at unknown
    have grown := newSymbols_append_of_fresh loaded unknown.1 unknown.2
    refine ⟨?_, ?_, ?_, ?_⟩
    · rw [counter, grown, allocated.next, List.length_append, List.length_singleton]
      omega
    · rw [counter]
      exact room
    · intro other
      rw [symbols, grown, Std.TreeMap.mem_insert, Std.LawfulEqCmp.compare_eq_iff_eq,
        allocated.mem_iff, List.mem_append, List.mem_singleton]
      grind
    · intro index other found
      rw [grown] at found
      rw [symbols, SymbolTable.getElem?_insert_eq]
      by_cases earlier : index < (newSymbols table lines).length
      · rw [List.getElem?_append_left earlier] at found
        have different : name ≠ other := by
          rintro rfl
          exact unknown.2 (List.mem_of_getElem? found)
        rw [if_neg different]
        exact allocated.address index other found
      · have last : index = (newSymbols table lines).length := by
          have bound := (List.getElem?_eq_some_iff.mp found).1
          rw [List.length_append, List.length_singleton] at bound
          omega
        subst last
        rw [List.getElem?_concat_length] at found
        cases found
        rw [if_pos rfl, allocated.next]

/-- Lines that are pushed allocate their new symbols. -/
theorem Allocated.pushLines {table : SymbolTable} {before lines : List CodeLine}
    {progress last : Progress} (allocated : Allocated table before progress)
    (pushed : Program.pushLines lines progress = .ok last) :
    Allocated table (before ++ lines) last := by
  induction lines generalizing before progress with
  | nil =>
    cases pushed
    rw [List.append_nil]
    exact allocated
  | cons line rest hypothesis =>
    obtain ⟨next, step, remaining⟩ := pushLines_cons_ok pushed
    have tail := hypothesis (allocated.pushLine step) remaining
    rw [List.append_assoc] at tail
    exact tail

/-! ## Both passes -/

/-- The instructions on some lines, given the addresses of symbols. -/
def emitted (symbols : SymbolTable) (lines : List CodeLine) : List Instruction :=
  lines.filterMap (CodeLine.instruction? symbols)

/-- The symbols that the lines met so far load and that neither the machine nor any line declares,
in the order of their first use. -/
def variablesMet (lines met : List CodeLine) : List String :=
  ((met.filterMap CodeLine.loaded?).filter fun name =>
    name ∉ SymbolTable.predefinedSymbols.map Prod.fst ∧
      name ∉ lines.filterMap CodeLine.declared?).eraseDups

/-- The symbols that some lines load and that neither the machine nor any of the lines declares, in
the order of their first use. -/
def variableNames (lines : List CodeLine) : List String :=
  variablesMet lines lines

/-- The new symbols of some lines are the variables that they meet. -/
theorem newSymbols_eq_variablesMet {table : SymbolTable} {lines : List CodeLine}
    (declared : declareLabels 0 SymbolTable.predefined lines = .ok table) (met : List CodeLine) :
    newSymbols table met = variablesMet lines met := by
  unfold newSymbols variablesMet
  congr 1
  apply List.filter_congr
  intro name _
  rw [decide_eq_decide, mem_declareLabels_iff declared, SymbolTable.mem_predefined_iff, not_or]

/-- The new symbols of all lines are the variables. -/
theorem newSymbols_eq_variableNames {table : SymbolTable} {lines : List CodeLine}
    (declared : declareLabels 0 SymbolTable.predefined lines = .ok table) :
    newSymbols table lines = variableNames lines :=
  newSymbols_eq_variablesMet declared lines

theorem addressAfter_append (before after : List CodeLine) :
    addressAfter (before ++ after) = addressAfter before + addressAfter after :=
  List.countP_append

/-- Lines that can be decoded take up one address for each instruction, and one for each bracket
that is not closed. -/
theorem addressAfter_eq_emitted (symbols : SymbolTable) {lines : List CodeLine}
    (decodable : ∀ line ∈ lines, line.statement.Decodable) :
    addressAfter lines = (emitted symbols lines).length + lines.countP CodeLine.isUnclosed := by
  induction lines with
  | nil => rfl
  | cons line rest hypothesis =>
    rw [List.forall_mem_cons] at decodable
    have split : emitted symbols (line :: rest) =
        (line.instruction? symbols).toList ++ emitted symbols rest := by
      rw [emitted, List.filterMap_cons]
      cases line.instruction? symbols with
      | none => rfl
      | some instruction => rfl
    rw [addressAfter_cons, hypothesis decodable.2, CodeLine.takesAddress_eq decodable.1 symbols,
      split, List.length_append, List.countP_cons]
    omega

section

variable {text : Text} {program : Program} (assembled : assemble text = .ok program)

include assembled

/-- The program consists of the instructions of its lines. -/
theorem instructions_eq_emitted :
    program.instructions.toList = emitted program.symbols (CodeLine.ofText text) := by
  rw [(assemble_ok assembled).instructions, List.filterMap_map]
  rfl

/-- The address of a label counts the instructions and the unclosed brackets before it. -/
theorem address_of_label {before after : List CodeLine} {line : CodeLine} {name : String}
    (split : CodeLine.ofText text = before ++ line :: after)
    (bracketed : line.code = '(' :: (name.toList ++ [')'])) :
    ∃ address, program.symbols[name]? = some address ∧ address.toNat =
      (emitted program.symbols before).length + before.countP CodeLine.isUnclosed := by
  obtain ⟨table, last, labels, code, rfl⟩ := assemble_passes assembled
  have first := declareLabels_ok labels
  have bound := (pushLines_ok code).larger _ _ (first.bound before line after name split
    (CodeLine.statement_eq_label_iff.mpr bracketed))
  have decodable : ∀ earlier ∈ before, earlier.statement.Decodable := by
    intro earlier member
    apply decodable_of_pushLines code
    rw [split]
    exact List.mem_append_left _ member
  have fits := first.fits
  rw [split, addressAfter_append] at fits
  refine ⟨_, bound, ?_⟩
  rw [← addressAfter_eq_emitted _ decodable, Nat.zero_add, BitVec.toNat_ofNat, Nat.mod_eq_of_lt]
  simp only [Word.maxValue] at fits
  omega

/-- The variables have the addresses from `variableBase` on. -/
theorem address_of_variable {index : Nat} {name : String}
    (found : (variableNames (CodeLine.ofText text))[index]? = some name) :
    ∃ address, program.symbols[name]? = some address ∧ address.toNat = variableBase + index := by
  obtain ⟨table, last, labels, code, rfl⟩ := assemble_passes assembled
  have allocated := (allocated_nil table #[]).pushLines code
  rw [List.nil_append] at allocated
  rw [← newSymbols_eq_variableNames labels] at found
  refine ⟨_, allocated.address index name found, ?_⟩
  have room := allocated.fits
  have within := (List.getElem?_eq_some_iff.mp found).1
  rw [allocated.next] at room
  simp only [Word.maxValue] at room
  rw [BitVec.toNat_ofNat, Nat.mod_eq_of_lt (by omega)]

/-- The symbols of a program are predefined, labels or variables. -/
theorem mem_symbols_iff {name : String} :
    name ∈ program.symbols ↔ name ∈ SymbolTable.predefinedSymbols.map Prod.fst ∨
      name ∈ (CodeLine.ofText text).filterMap CodeLine.declared? ∨
      name ∈ variableNames (CodeLine.ofText text) := by
  obtain ⟨table, last, labels, code, rfl⟩ := assemble_passes assembled
  have allocated := (allocated_nil table #[]).pushLines code
  rw [List.nil_append] at allocated
  rw [allocated.mem_iff, newSymbols_eq_variableNames labels, mem_declareLabels_iff labels,
    SymbolTable.mem_predefined_iff, or_assoc]

/-- A line that loads a symbol loads the address that the table gives the symbol in the end. -/
theorem load_of_symbol {before after : List CodeLine} {line : CodeLine} {name : String}
    (split : CodeLine.ofText text = before ++ line :: after)
    (loads : line.code = '@' :: name.toList) (symbol : ¬name.toList.head?.any Char.isDigit) :
    ∃ address, program.symbols[name]? = some address ∧
      program.instructions[(emitted program.symbols before).length]? = some (.load address) := by
  have statement := CodeLine.statement_eq_load_iff.mpr loads
  have bound := (assemble_ok assembled).bound line.statement
    (List.mem_map_of_mem (by rw [split]; exact List.mem_append_right _ List.mem_cons_self))
  rw [statement] at bound
  have known := bound.resolve_left symbol
  rw [String.ofList_toList] at known
  obtain ⟨address, found⟩ := SymbolTable.mem_iff_exists.mp known
  have here : line.instruction? program.symbols = some (.load address) := by
    rw [CodeLine.instruction?, statement, Statement.instruction?, Statement.operandValue,
      if_neg symbol, String.ofList_toList, Std.TreeMap.getD_eq_getD_getElem?, found,
      Option.getD_some]
  refine ⟨address, found, ?_⟩
  rw [← Array.getElem?_toList, instructions_eq_emitted assembled, split, emitted,
    List.filterMap_append, List.filterMap_cons, here, ← emitted,
    List.getElem?_append_right (Nat.le_refl _), Nat.sub_self]
  rfl

end

/-- **The symbols of an assembled program.** The instructions are those on the lines, in order. The
machine's own symbols keep their addresses. The address of a label is the number of instructions
before it, and one more for each bracket before it that is not closed. The variables have the
addresses from `variableBase` on, in the order of their first use. There are no other symbols, and a
line that loads a symbol loads the address that the table gives it in the end. -/
theorem assemble_symbols {text : Text} {program : Program}
    (assembled : assemble text = .ok program) :
    program.instructions.toList = emitted program.symbols (CodeLine.ofText text) ∧
    (∀ entry ∈ SymbolTable.predefinedSymbols, program.symbols[entry.1]? = some entry.2) ∧
    (∀ (before after : List CodeLine) (line : CodeLine) (name : String),
      CodeLine.ofText text = before ++ line :: after →
      line.code = '(' :: (name.toList ++ [')']) →
        ∃ address : Word, program.symbols[name]? = some address ∧
          address.toNat =
            (emitted program.symbols before).length + before.countP CodeLine.isUnclosed ∧
          (address.toNat = (emitted program.symbols before).length ↔
            ∀ earlier ∈ before, ¬earlier.isUnclosed)) ∧
    (∀ (index : Nat) (name : String), (variableNames (CodeLine.ofText text))[index]? = some name →
      ∃ address : Word, program.symbols[name]? = some address ∧
        address.toNat = variableBase + index) ∧
    (∀ name : String, name ∈ program.symbols ↔
      name ∈ SymbolTable.predefinedSymbols.map Prod.fst ∨
      name ∈ (CodeLine.ofText text).filterMap CodeLine.declared? ∨
      name ∈ variableNames (CodeLine.ofText text)) ∧
    ∀ (before after : List CodeLine) (line : CodeLine) (name : String),
      CodeLine.ofText text = before ++ line :: after →
      line.code = '@' :: name.toList → ¬name.toList.head?.any Char.isDigit →
        ∃ address : Word, program.symbols[name]? = some address ∧
          program.instructions[(emitted program.symbols before).length]? =
            some (.load address) := by
  refine ⟨instructions_eq_emitted assembled, (assemble_ok assembled).predefined, ?_,
    fun index name => address_of_variable assembled, fun name => mem_symbols_iff assembled,
    fun before after line name => load_of_symbol assembled⟩
  intro before after line name split bracketed
  obtain ⟨address, found, counted⟩ := address_of_label assembled split bracketed
  refine ⟨address, found, counted, ?_⟩
  rw [counted, Nat.add_eq_left, List.countP_eq_zero]

/-- Two variables, and a label after a bracket that is not closed. -/
def sampleCode : Text :=
  "@x\n(half\n@y\n(END)\n@END\n@x".toList

/-- A label that is used before it is declared, a second variable, and a bracket that is not
closed. -/
theorem assemble_symbols_sampleCode : ∃ program, assemble sampleCode = .ok program ∧
    (∃ address : Word, program.symbols["END"]? = some address ∧ address.toNat = 3 ∧
      program.instructions[2]? = some (.load address)) ∧
    (∃ address : Word, program.symbols["y"]? = some address ∧ address.toNat = 17) ∧
    "half" ∉ program.symbols := by
  obtain ⟨program, assembled⟩ : ∃ program, assemble sampleCode = .ok program := ⟨_, rfl⟩
  have lines : CodeLine.ofText sampleCode = [⟨1, "@x".toList⟩, ⟨2, "(half".toList⟩,
      ⟨3, "@y".toList⟩, ⟨4, "(END)".toList⟩, ⟨5, "@END".toList⟩, ⟨6, "@x".toList⟩] := by
    decide +kernel
  obtain ⟨-, -, labels, cells, members, loads⟩ := assemble_symbols assembled
  rw [lines] at labels cells members loads
  obtain ⟨address, found, counted, -⟩ := labels [⟨1, "@x".toList⟩, ⟨2, "(half".toList⟩,
    ⟨3, "@y".toList⟩] _ ⟨4, "(END)".toList⟩ "END" rfl rfl
  obtain ⟨loaded, known, load⟩ := loads [⟨1, "@x".toList⟩, ⟨2, "(half".toList⟩,
    ⟨3, "@y".toList⟩, ⟨4, "(END)".toList⟩] _ ⟨5, "@END".toList⟩ "END" rfl rfl (by decide)
  cases found.symm.trans known
  refine ⟨program, assembled, ⟨address, found, counted, load⟩, cells 1 "y" (by decide +kernel),
    ?_⟩
  rw [members]
  decide +kernel

end Program

end HackToolchain
