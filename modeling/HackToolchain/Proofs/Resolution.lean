import HackToolchain.Assembly.Program
import Mathlib.Data.List.Basic

/-! # Resolution of symbols

What the two passes of the assembler make of a list of statements. The first pass binds every label
to the number of statements before it that take up an address (`declareLabels_ok`). The second pass
turns every statement into an instruction, and all symbols have the value that the final table gives
them, whether it was known when they were met or not (`pushLines_ok`). Both are put together in
`assemble_ok`; `declareLabels_succeeds` and `pushLines_succeeds` say when the passes have a result.
-/

namespace HackToolchain

namespace SymbolTable

/-- A table has the new address under the new name, and the old ones elsewhere. -/
theorem getElem?_insert_eq (table : SymbolTable) (name other : String) (address : Word) :
    (table.insert name address)[other]? = if name = other then some address else table[other]? := by
  rw [Std.TreeMap.getElem?_insert]
  simp [Std.LawfulEqCmp.compare_eq_iff_eq]

/-- A name is in a table just when it has an address. -/
theorem mem_iff_exists {table : SymbolTable} {name : String} :
    name ∈ table ↔ ∃ address, table[name]? = some address := by
  rw [Std.TreeMap.mem_iff_isSome_getElem?, Option.isSome_iff_exists]

/-- A table that gives every symbol of another table the same address. -/
def Extends (large small : SymbolTable) : Prop :=
  ∀ (name : String) (address : Word), small[name]? = some address → large[name]? = some address

theorem Extends.refl (table : SymbolTable) : table.Extends table :=
  fun _ _ => id

theorem Extends.trans {large middle small : SymbolTable} (upper : large.Extends middle)
    (lower : middle.Extends small) : large.Extends small :=
  fun name address found => upper name address (lower name address found)

/-- A table with a fresh name extends the table without it. -/
theorem extends_insert {table : SymbolTable} {name : String} (address : Word)
    (fresh : name ∉ table) : Extends (table.insert name address) table := by
  intro other value found
  rw [getElem?_insert_eq]
  have different : name ≠ other := by
    rintro rfl
    exact fresh (mem_iff_exists.mpr ⟨value, found⟩)
  rw [if_neg different]
  exact found

/-- A table all of whose names are symbols. -/
def Valid (table : SymbolTable) : Prop :=
  ∀ name ∈ table, isSymbol name

/-- A valid table stays valid with another symbol. -/
theorem Valid.insert {table : SymbolTable} (valid : table.Valid) {name : String}
    (symbol : isSymbol name) (address : Word) : Valid (table.insert name address) := by
  intro other member
  obtain ⟨value, found⟩ := mem_iff_exists.mp member
  rw [getElem?_insert_eq] at found
  split at found
  · rename_i same
    rw [← same]
    exact symbol
  · exact valid other (mem_iff_exists.mpr ⟨value, found⟩)

/-- The predefined symbols have their addresses. -/
theorem predefined_getElem? :
    ∀ entry ∈ predefinedSymbols, predefined[entry.1]? = some entry.2 := by
  decide

/-- The names of a table with more entries are those of both. -/
private theorem mem_foldl_insert {entries : List (String × Word)} {table : SymbolTable}
    {name : String} :
    name ∈ entries.foldl (fun table (name, address) => table.insert name address) table ↔
      name ∈ table ∨ name ∈ entries.map Prod.fst := by
  induction entries generalizing table with
  | nil => simp
  | cons entry rest hypothesis =>
    rw [List.foldl_cons, hypothesis, Std.TreeMap.mem_insert,
      Std.LawfulEqCmp.compare_eq_iff_eq, List.map_cons, List.mem_cons]
    grind

/-- The table of the machine's own symbols holds no others. -/
theorem mem_predefined_iff {name : String} :
    name ∈ predefined ↔ name ∈ predefinedSymbols.map Prod.fst := by
  rw [predefined, mem_foldl_insert]
  simp

/-- The predefined names are symbols. -/
theorem predefined_valid : predefined.Valid := by
  intro name member
  have listed := mem_predefined_iff.mp member
  have all : ∀ name ∈ predefinedSymbols.map Prod.fst, isSymbol name = true := by decide
  exact all name listed

end SymbolTable

namespace Statement

/-- Whether a statement takes up an address: all do but labels. -/
def takesAddress : Statement → Bool
  | label _ => false
  | unclosed | load _ | compute _ => true

/-- What an operand stands for, given the addresses of symbols. -/
def operandValue (symbols : SymbolTable) (operand : Text) : Word :=
  if operand.head?.any Char.isDigit then BitVec.ofNat 16 (Nat.ofDigitChars 10 operand 0)
  else symbols.getD (String.ofList operand) 0

/-- The instruction that a statement stands for, given the addresses of symbols. -/
def instruction? (symbols : SymbolTable) : Statement → Option Instruction
  | label _ | unclosed => none
  | load operand => some (.load (operandValue symbols operand))
  | compute text => (Program.decodeCompute text).toOption

/-- The name that a statement declares. -/
def label? : Statement → Option String
  | label name => some name
  | unclosed | load _ | compute _ => none

/-- Whether a statement loads a symbol. -/
def loadsSymbol : Statement → Bool
  | load operand => !operand.head?.any Char.isDigit
  | label _ | unclosed | compute _ => false

/-- A statement that the second pass can turn into an instruction. -/
def Decodable : Statement → Prop
  | load operand =>
    if operand.head?.any Char.isDigit then ∃ value, Program.decodeNumber operand = .ok value
    else isSymbol (String.ofList operand)
  | compute text => ∃ instruction, Program.decodeCompute text = .ok instruction
  | label _ | unclosed => True

/-- A statement whose symbols all have an address. -/
def Bound (symbols : SymbolTable) : Statement → Prop
  | load operand => operand.head?.any Char.isDigit ∨ String.ofList operand ∈ symbols
  | label _ | unclosed | compute _ => True

/-- A statement that is bound in a table is bound in its extensions. -/
theorem Bound.mono {large small : SymbolTable} (larger : large.Extends small)
    {statement : Statement} (bound : statement.Bound small) : statement.Bound large := by
  cases statement with
  | load operand =>
    refine bound.imp_right fun known => ?_
    obtain ⟨address, found⟩ := SymbolTable.mem_iff_exists.mp known
    exact SymbolTable.mem_iff_exists.mpr ⟨address, larger _ _ found⟩
  | label _ | unclosed | compute _ => trivial

/-- Later bindings do not change what a statement with bound symbols stands for. -/
theorem instruction?_of_extends {large small : SymbolTable} (larger : large.Extends small)
    {statement : Statement} (bound : statement.Bound small) :
    statement.instruction? large = statement.instruction? small := by
  cases statement with
  | load operand =>
    simp only [instruction?, operandValue]
    split
    · rfl
    · rename_i name
      obtain ⟨address, found⟩ := SymbolTable.mem_iff_exists.mp (bound.resolve_left name)
      rw [Std.TreeMap.getD_eq_getD_getElem?, Std.TreeMap.getD_eq_getD_getElem?, found,
        larger _ _ found]
  | label _ | unclosed | compute _ => rfl

end Statement

namespace Program

/-! ## The first pass -/

/-- The address of a statement after some lines. -/
def addressAfter (lines : List CodeLine) : Nat :=
  lines.countP fun line => line.statement.takesAddress

/-- The address after some lines counts the first one if it takes one up. -/
theorem addressAfter_cons (line : CodeLine) (rest : List CodeLine) :
    addressAfter (line :: rest) =
      addressAfter rest + if line.statement.takesAddress then 1 else 0 := by
  simp [addressAfter, List.countP_cons]

/-- One step of the first pass: a label enters the table, and anything else takes an address. -/
theorem declareLabels_cons_ok {address : Nat} {table final : SymbolTable} {line : CodeLine}
    {rest : List CodeLine} (declared : declareLabels address table (line :: rest) = .ok final) :
    (∃ name, line.statement = .label name ∧ isSymbol name ∧ name ∉ table ∧
      declareLabels address (table.insert name (BitVec.ofNat 16 address)) rest = .ok final) ∨
    (line.statement.takesAddress ∧ address < Word.maxValue ∧
      declareLabels (address + 1) table rest = .ok final) := by
  rw [declareLabels] at declared
  cases found : line.statement with
  | label name =>
    rw [found] at declared
    simp only at declared
    split at declared
    · cases declared
    · rename_i symbol
      split at declared
      · cases declared
      · rename_i fresh
        exact .inl ⟨name, rfl, by simpa using symbol, fresh, declared⟩
  | unclosed | load _ | compute _ =>
    rw [found] at declared
    simp only at declared
    split at declared
    · rename_i room
      exact .inr ⟨rfl, room, declared⟩
    · cases declared

/-- What the first pass leaves in the table. -/
structure LabelsDeclared (address : Nat) (table : SymbolTable) (lines : List CodeLine)
    (final : SymbolTable) : Prop where
  larger : final.Extends table
  valid : table.Valid → final.Valid
  fits : address + addressAfter lines ≤ max address Word.maxValue
  bound : ∀ before line after name, lines = before ++ line :: after →
    line.statement = .label name →
      final[name]? = some (BitVec.ofNat 16 (address + addressAfter before))

/-- A first pass that succeeds has declared the labels. -/
theorem declareLabels_ok {address : Nat} {table final : SymbolTable} {lines : List CodeLine}
    (declared : declareLabels address table lines = .ok final) :
    LabelsDeclared address table lines final := by
  induction lines generalizing address table with
  | nil =>
    cases declared
    refine ⟨SymbolTable.Extends.refl _, id, Nat.le_max_left _ _, ?_⟩
    intro before line after name split
    simp at split
  | cons line rest hypothesis =>
    rcases declareLabels_cons_ok declared with ⟨name, label, symbol, fresh, remaining⟩ |
      ⟨taken, room, remaining⟩
    · have tail := hypothesis remaining
      refine ⟨tail.larger.trans (SymbolTable.extends_insert _ fresh),
        fun valid => tail.valid (valid.insert symbol _), ?_, ?_⟩
      · rw [addressAfter_cons, label]
        exact tail.fits
      · intro before other after found split statement
        cases before with
        | nil =>
          cases split
          cases label.symm.trans statement
          apply tail.larger
          rw [SymbolTable.getElem?_insert_eq, if_pos rfl]
          simp [addressAfter]
        | cons first others =>
          cases split
          rw [tail.bound others other after found rfl statement, addressAfter_cons, label]
          simp [Statement.takesAddress]
    · have tail := hypothesis remaining
      refine ⟨tail.larger, tail.valid, ?_, ?_⟩
      · have fits := tail.fits
        rw [addressAfter_cons, taken]
        simp only [↓reduceIte]
        omega
      · intro before other after found split statement
        cases before with
        | nil =>
          cases split
          rw [statement] at taken
          cases taken
        | cons first others =>
          cases split
          rw [tail.bound others other after found rfl statement, addressAfter_cons, taken]
          simp only [↓reduceIte]
          congr 2
          omega

/-- The first pass has a result if the labels are new symbols, no two of them are the same, and
there are addresses for all statements. -/
theorem declareLabels_succeeds {address : Nat} {table : SymbolTable} {lines : List CodeLine}
    (distinct : ((lines.map CodeLine.statement).filterMap Statement.label?).Nodup)
    (new : ∀ name ∈ (lines.map CodeLine.statement).filterMap Statement.label?,
      isSymbol name ∧ name ∉ table)
    (room : address + addressAfter lines ≤ Word.maxValue) :
    ∃ final, declareLabels address table lines = .ok final := by
  induction lines generalizing address table with
  | nil => exact ⟨table, rfl⟩
  | cons line rest hypothesis =>
    rw [addressAfter_cons] at room
    rw [List.map_cons, List.filterMap_cons] at distinct new
    rw [declareLabels]
    cases found : line.statement with
    | label name =>
      rw [found] at distinct new room
      simp only [Statement.label?, List.nodup_cons, List.mem_cons, forall_eq_or_imp] at distinct new
      obtain ⟨⟨symbol, fresh⟩, others⟩ := new
      simp only [symbol, Bool.not_true, Bool.false_eq_true, ↓reduceIte, fresh]
      apply hypothesis distinct.2
      · intro other member
        refine ⟨(others other member).1, ?_⟩
        rw [Std.TreeMap.mem_insert, Std.LawfulEqCmp.compare_eq_iff_eq]
        rintro (rfl | known)
        · exact distinct.1 member
        · exact (others other member).2 known
      · simpa [Statement.takesAddress] using room
    | unclosed | load _ | compute _ =>
      rw [found] at distinct new room
      simp only [Statement.takesAddress, ↓reduceIte] at room
      simp only [if_pos (show address < Word.maxValue by omega)]
      exact hypothesis distinct new (by omega)

/-! ## The second pass -/

/-- What the second pass adds to a program for some statements. -/
structure Pushed (statements : List Statement) (first last : Progress) : Prop where
  larger : last.program.symbols.Extends first.program.symbols
  valid : first.program.symbols.Valid → last.program.symbols.Valid
  bound : ∀ statement ∈ statements, statement.Bound last.program.symbols
  instructions : last.program.instructions.toList = first.program.instructions.toList ++
    statements.filterMap (Statement.instruction? last.program.symbols)

/-- Statements that are pushed after others are pushed together with them. -/
theorem Pushed.trans {earlier later : List Statement} {first middle last : Progress}
    (head : Pushed earlier first middle) (tail : Pushed later middle last) :
    Pushed (earlier ++ later) first last := by
  refine ⟨tail.larger.trans head.larger, tail.valid ∘ head.valid, ?_, ?_⟩
  · intro statement member
    rcases List.mem_append.mp member with before | after
    · exact (head.bound statement before).mono tail.larger
    · exact tail.bound statement after
  · have same : earlier.filterMap (Statement.instruction? last.program.symbols) =
        earlier.filterMap (Statement.instruction? middle.program.symbols) := by
      apply List.filterMap_congr
      intro statement member
      exact Statement.instruction?_of_extends tail.larger (head.bound statement member)
    rw [tail.instructions, head.instructions, List.filterMap_append, same, List.append_assoc]

/-- A statement whose symbols are bound is pushed as it is. -/
theorem Pushed.of_bound {statement : Statement} {progress : Progress} {instruction : Instruction}
    (bound : statement.Bound progress.program.symbols)
    (decoded : statement.instruction? progress.program.symbols = some instruction) :
    Pushed [statement] progress (progress.push instruction) := by
  refine ⟨SymbolTable.Extends.refl _, id, ?_, ?_⟩
  · intro other member
    cases List.mem_singleton.mp member
    exact bound
  · change (progress.program.instructions.push instruction).toList = _ ++
      [statement].filterMap (Statement.instruction? progress.program.symbols)
    rw [List.filterMap_cons, decoded]
    simp

/-- Naming a symbol for the first time gives it the next free address. -/
theorem Pushed.of_fresh {progress : Progress} {name : String} (symbol : isSymbol name)
    (fresh : name ∉ progress.program.symbols) (address : Word) (next : Nat) :
    Pushed [] progress ⟨⟨progress.program.instructions,
      progress.program.symbols.insert name address⟩, next⟩ :=
  ⟨SymbolTable.extends_insert _ fresh, fun valid => valid.insert symbol _, by simp, by simp⟩

/-- A symbol that is pushed is loaded. -/
theorem pushSymbol_ok {operand : Text} {progress next : Progress}
    (name : ¬operand.head?.any Char.isDigit) (symbol : isSymbol (String.ofList operand))
    (pushed : progress.pushSymbol (String.ofList operand) = .ok next) :
    Pushed [.load operand] progress next := by
  have value : ∀ {table : SymbolTable} {address : Word},
      table[String.ofList operand]? = some address →
        Statement.instruction? table (.load operand) = some (.load address) := by
    intro table address found
    rw [Statement.instruction?, Statement.operandValue, if_neg name,
      Std.TreeMap.getD_eq_getD_getElem?, found, Option.getD_some]
  rw [Progress.pushSymbol] at pushed
  split at pushed
  · rename_i address found
    cases pushed
    exact Pushed.of_bound (.inr (SymbolTable.mem_iff_exists.mpr ⟨address, found⟩)) (value found)
  · rename_i absent
    split at pushed
    · cases pushed
      have fresh : String.ofList operand ∉ progress.program.symbols := by
        rw [SymbolTable.mem_iff_exists]
        rintro ⟨address, found⟩
        rw [absent] at found
        cases found
      have named : ∀ address : Word, (progress.program.symbols.insert (String.ofList operand)
          address)[String.ofList operand]? = some address := by
        intro address
        rw [SymbolTable.getElem?_insert_eq, if_pos rfl]
      exact (Pushed.of_fresh symbol fresh _ _).trans (Pushed.of_bound
        (.inr (SymbolTable.mem_iff_exists.mpr ⟨_, named _⟩)) (value (named _)))
    · cases pushed

/-- A line that is pushed is pushed as its statement. -/
theorem pushLine_ok {line : CodeLine} {progress next : Progress}
    (pushed : progress.pushLine line = .ok next) : Pushed [line.statement] progress next := by
  rw [Progress.pushLine] at pushed
  cases found : line.statement with
  | label _ | unclosed =>
    rw [found] at pushed
    cases pushed
    exact ⟨SymbolTable.Extends.refl _, id, by simp [Statement.Bound], by
      simp [Statement.instruction?]⟩
  | load operand =>
    rw [found] at pushed
    simp only at pushed
    split at pushed
    · rename_i number
      cases decoded : decodeNumber operand with
      | error cause =>
        rw [decoded] at pushed
        cases pushed
      | ok value =>
        rw [decoded] at pushed
        cases pushed
        refine Pushed.of_bound (.inl number) ?_
        rw [decodeNumber] at decoded
        split at decoded
        · cases decoded
          rw [Statement.instruction?, Statement.operandValue, if_pos number]
        · cases decoded
    · rename_i name
      split at pushed
      · rename_i symbol
        exact pushSymbol_ok name symbol pushed
      · cases pushed
  | compute text =>
    rw [found] at pushed
    simp only at pushed
    cases decoded : decodeCompute text with
    | error cause =>
      rw [decoded] at pushed
      cases pushed
    | ok instruction =>
      rw [decoded] at pushed
      cases pushed
      refine Pushed.of_bound trivial ?_
      rw [Statement.instruction?, decoded]
      rfl

/-- The second pass takes one line after another. -/
theorem pushLines_cons_ok {line : CodeLine} {rest : List CodeLine} {first last : Progress}
    (pushed : pushLines (line :: rest) first = .ok last) :
    ∃ next, first.pushLine line = .ok next ∧ pushLines rest next = .ok last := by
  rw [pushLines] at pushed
  cases step : first.pushLine line with
  | error failure =>
    rw [step] at pushed
    cases pushed
  | ok next =>
    rw [step] at pushed
    exact ⟨next, rfl, pushed⟩

/-- Lines that are pushed are pushed as their statements. -/
theorem pushLines_ok {lines : List CodeLine} {first last : Progress}
    (pushed : pushLines lines first = .ok last) :
    Pushed (lines.map CodeLine.statement) first last := by
  induction lines generalizing first with
  | nil =>
    cases pushed
    exact ⟨SymbolTable.Extends.refl _, id, by simp, by simp⟩
  | cons line rest hypothesis =>
    obtain ⟨next, step, remaining⟩ := pushLines_cons_ok pushed
    exact (pushLine_ok step).trans (hypothesis remaining)

/-- A statement that is pushed can be decoded. -/
theorem decodable_of_pushLine {line : CodeLine} {progress next : Progress}
    (pushed : progress.pushLine line = .ok next) : line.statement.Decodable := by
  unfold Progress.pushLine at pushed
  cases found : line.statement with
  | label _ | unclosed => trivial
  | load operand =>
    rw [found] at pushed
    unfold Statement.Decodable
    by_cases number : operand.head?.any Char.isDigit
    · simp only [number, ↓reduceIte] at pushed ⊢
      cases decoded : decodeNumber operand with
      | error cause =>
        rw [decoded] at pushed
        cases pushed
      | ok value => exact ⟨value, rfl⟩
    · simp only [number, Bool.false_eq_true, ↓reduceIte] at pushed ⊢
      split at pushed
      · assumption
      · cases pushed
  | compute text =>
    rw [found] at pushed
    cases decoded : decodeCompute text with
    | error cause =>
      simp only [decoded] at pushed
      cases pushed
    | ok instruction => exact ⟨instruction, decoded⟩

/-- Lines that are pushed can be decoded. -/
theorem decodable_of_pushLines {lines : List CodeLine} {first last : Progress}
    (pushed : pushLines lines first = .ok last) : ∀ line ∈ lines, line.statement.Decodable := by
  induction lines generalizing first with
  | nil => nofun
  | cons line rest hypothesis =>
    obtain ⟨next, step, remaining⟩ := pushLines_cons_ok pushed
    exact List.forall_mem_cons.mpr ⟨decodable_of_pushLine step, hypothesis remaining⟩

/-- A statement that can be decoded is pushed, and takes an address for a variable only if it loads
a symbol. -/
theorem pushLine_succeeds {line : CodeLine} {progress : Progress}
    (decodable : line.statement.Decodable)
    (room : progress.nextVariable + (if line.statement.loadsSymbol then 1 else 0) ≤
      Word.maxValue) :
    ∃ next, progress.pushLine line = .ok next ∧ next.nextVariable ≤
      progress.nextVariable + if line.statement.loadsSymbol then 1 else 0 := by
  rw [Progress.pushLine]
  cases found : line.statement with
  | label _ | unclosed => exact ⟨progress, rfl, Nat.le_add_right _ _⟩
  | compute text =>
    rw [found] at decodable
    obtain ⟨instruction, decoded⟩ := decodable
    simp only [decoded]
    exact ⟨progress.push instruction, rfl, Nat.le_add_right _ _⟩
  | load operand =>
    rw [found] at decodable room
    simp only [Statement.Decodable] at decodable
    split at decodable
    · rename_i number
      obtain ⟨value, decoded⟩ := decodable
      simp only [number, ↓reduceIte, decoded]
      exact ⟨progress.push (.load value), rfl, Nat.le_add_right _ _⟩
    · rename_i name
      simp only [Statement.loadsSymbol, name, Bool.not_false, ↓reduceIte] at room
      simp only [name, Bool.false_eq_true, ↓reduceIte, decodable, Statement.loadsSymbol,
        Bool.not_false, Progress.pushSymbol]
      split
      · exact ⟨_, rfl, Nat.le_add_right _ _⟩
      · rw [if_pos (by omega)]
        exact ⟨_, rfl, Nat.le_refl _⟩

/-- The second pass has a result if every statement can be decoded and there are addresses for all
variables. -/
theorem pushLines_succeeds {lines : List CodeLine} (progress : Progress)
    (decodable : ∀ line ∈ lines, line.statement.Decodable)
    (room : progress.nextVariable +
      (lines.map CodeLine.statement).countP Statement.loadsSymbol ≤ Word.maxValue) :
    ∃ last, pushLines lines progress = .ok last := by
  induction lines generalizing progress with
  | nil => exact ⟨progress, rfl⟩
  | cons line rest hypothesis =>
    rw [List.map_cons, List.countP_cons] at room
    obtain ⟨next, pushed, bound⟩ := pushLine_succeeds (decodable line List.mem_cons_self)
      (by omega : progress.nextVariable + (if line.statement.loadsSymbol then 1 else 0) ≤
        Word.maxValue)
    obtain ⟨last, remaining⟩ := hypothesis next
      (fun other member => decodable other (List.mem_cons_of_mem _ member))
      (by omega : next.nextVariable +
        (rest.map CodeLine.statement).countP Statement.loadsSymbol ≤ Word.maxValue)
    refine ⟨last, ?_⟩
    rw [pushLines, pushed]
    exact remaining

/-! ## Both passes -/

/-- A program in which some statements are resolved. -/
structure Resolves (statements : List Statement) (program : Program) : Prop where
  instructions : program.instructions.toList =
    statements.filterMap (Statement.instruction? program.symbols)
  predefined : ∀ entry ∈ SymbolTable.predefinedSymbols, program.symbols[entry.1]? = some entry.2
  valid : program.symbols.Valid
  bound : ∀ statement ∈ statements, statement.Bound program.symbols
  fits : statements.countP Statement.takesAddress ≤ Word.maxValue
  label : ∀ before name after, statements = before ++ .label name :: after →
    program.symbols[name]? = some (BitVec.ofNat 16 (before.countP Statement.takesAddress))

/-- The address after some lines is the number of statements that take one up. -/
theorem addressAfter_eq (lines : List CodeLine) :
    addressAfter lines = (lines.map CodeLine.statement).countP Statement.takesAddress := by
  rw [addressAfter, List.countP_map]
  rfl

/-- A fault of the first pass is reported. -/
theorem assemble_of_labels_error {text : Text} {failure : AssemblyFailure}
    (labels : declareLabels 0 SymbolTable.predefined (CodeLine.ofText text) = .error failure) :
    assemble text = .error failure := by
  rw [assemble]
  simp only [labels]
  rfl

/-- After the first pass comes the second. -/
theorem assemble_of_labels {text : Text} {table : SymbolTable}
    (labels : declareLabels 0 SymbolTable.predefined (CodeLine.ofText text) = .ok table) :
    assemble text =
      (pushLines (CodeLine.ofText text) ⟨⟨#[], table⟩, variableBase⟩).map Progress.program := by
  rw [assemble]
  simp only [labels]
  rfl

/-- A text is assembled by one pass after the other. -/
theorem assemble_passes {text : Text} {program : Program}
    (assembled : assemble text = .ok program) :
    ∃ table last, declareLabels 0 SymbolTable.predefined (CodeLine.ofText text) = .ok table ∧
      pushLines (CodeLine.ofText text) ⟨⟨#[], table⟩, variableBase⟩ = .ok last ∧
      program = last.program := by
  cases labels : declareLabels 0 SymbolTable.predefined (CodeLine.ofText text) with
  | error failure =>
    rw [assemble_of_labels_error labels] at assembled
    cases assembled
  | ok table =>
    rw [assemble_of_labels labels] at assembled
    cases code : pushLines (CodeLine.ofText text) ⟨⟨#[], table⟩, variableBase⟩ with
    | error failure =>
      rw [code] at assembled
      cases assembled
    | ok last =>
      rw [code] at assembled
      cases assembled
      exact ⟨table, last, rfl, code, rfl⟩

/-- In a program that was assembled the statements of its text are resolved. -/
theorem assemble_ok {text : Text} {program : Program} (assembled : assemble text = .ok program) :
    Resolves ((CodeLine.ofText text).map CodeLine.statement) program := by
  obtain ⟨table, last, labels, code, rfl⟩ := assemble_passes assembled
  have first := declareLabels_ok labels
  have second := pushLines_ok code
  refine ⟨second.instructions, ?_, second.valid (first.valid SymbolTable.predefined_valid),
    second.bound, ?_, ?_⟩
  · intro entry listed
    exact second.larger _ _ (first.larger _ _ (SymbolTable.predefined_getElem? entry listed))
  · have fits := first.fits
    rw [addressAfter_eq] at fits
    omega
  · intro before name after split
    obtain ⟨earlier, later, lines, rfl, remaining⟩ := List.map_eq_append_iff.mp split
    obtain ⟨line, others, rfl, statement, rfl⟩ := List.map_eq_cons_iff.mp remaining
    apply second.larger
    rw [first.bound earlier line others name lines statement, addressAfter_eq, Nat.zero_add]

/-- A text is assembled if its labels are new symbols, no two of them are the same, every statement
can be decoded, and there are addresses for all statements and all variables. -/
theorem assemble_succeeds {text : Text} {statements : List Statement}
    (found : (CodeLine.ofText text).map CodeLine.statement = statements)
    (distinct : (statements.filterMap Statement.label?).Nodup)
    (new : ∀ name ∈ statements.filterMap Statement.label?,
      isSymbol name ∧ name ∉ SymbolTable.predefined)
    (decodable : ∀ statement ∈ statements, statement.Decodable)
    (addresses : statements.countP Statement.takesAddress ≤ Word.maxValue)
    (cells : variableBase + statements.countP Statement.loadsSymbol ≤ Word.maxValue) :
    ∃ program, assemble text = .ok program := by
  subst found
  have room : 0 + addressAfter (CodeLine.ofText text) ≤ Word.maxValue := by
    rw [addressAfter_eq, Nat.zero_add]
    exact addresses
  obtain ⟨table, labels⟩ := declareLabels_succeeds distinct new room
  have all : ∀ line ∈ CodeLine.ofText text, line.statement.Decodable := by
    intro line member
    exact decodable _ (List.mem_map_of_mem member)
  obtain ⟨last, code⟩ := pushLines_succeeds ⟨⟨#[], table⟩, variableBase⟩ all cells
  refine ⟨last.program, ?_⟩
  rw [assemble_of_labels labels, code]
  rfl

/-- A text of which something is seen in its program is assembled to that program. -/
theorem exists_assemble_of_map {α : Type} {text : Text} {see : Program → α} {seen : α}
    (observed : ((assemble text).map see).toOption = some seen) :
    ∃ program, assemble text = .ok program ∧ see program = seen := by
  cases assembled : assemble text with
  | error failure =>
    rw [assembled] at observed
    cases observed
  | ok program =>
    rw [assembled] at observed
    exact ⟨program, rfl, Option.some.inj observed⟩

end Program

end HackToolchain
