import HackToolchain.Proofs.EmitterCalls
import HackToolchain.Proofs.StaticCells

/-! # Static cells and generated labels

The names of units, and with them the symbols of static cells, are in one table with the labels that
the compiler generates. The name of a unit can be the stem of generated labels, and then a label can
have the symbol of one of its static cells. Such a cell is no variable: its address is that of the
label, and it can be a cell of another unit at the same time. The labels of a program follow from
the comparisons and the calls in it (`mem_generated_iff`), and so does which cells are captured
(`Captured`).
-/

namespace HackToolchain

/-! ## The labels of a program -/

namespace Part

/-- Whether the lines for a part compare two values. -/
def isComparison : Part → Bool
  | command _ (.operator .eq) | command _ (.operator .gt) | command _ (.operator .lt) => true
  | _ => false

/-- The function that the lines for a part call. -/
def called? : Part → Option String
  | bootstrap entry => some entry
  | command _ (.call name _) => some name
  | _ => none

/-- What a part takes from the supply: the labels of a comparison, the label of a call, or
nothing. -/
theorem generated_cases {supply next : LabelSupply} {part : Part} {lines : List AssemblyLine}
    (found : part.lines supply = .ok (lines, next)) :
    (part.isComparison ∧ part.called? = none ∧ (Block.mk part lines).generated =
        [(LabelSupply.comparisonLabels supply.comparisons).holds,
          (LabelSupply.comparisonLabels supply.comparisons).done] ∧
      next = { supply with comparisons := supply.comparisons + 1 }) ∨
    (∃ name, ¬part.isComparison ∧ part.called? = some name ∧ (Block.mk part lines).generated =
        [LabelSupply.returnLabel name supply.calls] ∧
      next = { supply with calls := supply.calls + 1 }) ∨
    (¬part.isComparison ∧ part.called? = none ∧ (Block.mk part lines).generated = [] ∧
      next = supply) := by
  rw [← drawn_eq_generated found]
  cases part with
  | bootstrap entry =>
    cases found
    exact .inr (.inl ⟨entry, nofun, rfl, rfl, rfl⟩)
  | command unit given =>
    cases given with
    | operator op =>
      cases op with
      | eq | gt | lt =>
        cases found
        exact .inl ⟨rfl, rfl, rfl, rfl⟩
      | add | sub | neg | and | or | not =>
        cases found
        exact .inr (.inr ⟨nofun, rfl, rfl, rfl⟩)
    | push segment index =>
      obtain ⟨-, -, -, rfl⟩ := Template.push_ok found
      exact .inr (.inr ⟨nofun, rfl, rfl, rfl⟩)
    | pop segment index =>
      obtain ⟨-, -, -, rfl⟩ := Template.pop_ok found
      exact .inr (.inr ⟨nofun, rfl, rfl, rfl⟩)
    | label name | goto name | ifGoto name | function name locals | «return» =>
      cases found
      exact .inr (.inr ⟨nofun, rfl, rfl, rfl⟩)
    | call name arguments =>
      obtain ⟨fits, -, rfl⟩ := Template.call_ok unit found
      exact .inr (.inl ⟨name, nofun, rfl, if_pos fits, rfl⟩)

end Part

/-- The labels that are generated for some parts are those of the comparisons and of the calls among
them, in order, from what the supply gives first. -/
theorem mem_generated_iff {supply last : LabelSupply} {program : List Part} {written : List Block}
    (expanded : expand supply program = .ok (written, last)) {name : String} :
    name ∈ written.flatMap Block.generated ↔
      (∃ place < program.countP Part.isComparison,
        name = (LabelSupply.comparisonLabels (supply.comparisons + place)).holds ∨
          name = (LabelSupply.comparisonLabels (supply.comparisons + place)).done) ∨
      ∃ place function, (program.filterMap Part.called?)[place]? = some function ∧
        name = LabelSupply.returnLabel function (supply.calls + place) := by
  induction program generalizing supply written with
  | nil =>
    cases expanded
    simp
  | cons part rest hypothesis =>
    obtain ⟨lines, next, tail, found, remaining, rfl⟩ := expand_cons_inv expanded
    rw [List.flatMap_cons, List.mem_append, hypothesis remaining]
    rcases Part.generated_cases found with ⟨compares, none, generated, rfl⟩ |
      ⟨function, other, calls, generated, rfl⟩ | ⟨other, none, generated, rfl⟩
    · rw [generated, List.countP_cons_of_pos compares, List.filterMap_cons_none none,
        Nat.exists_lt_succ_left, List.mem_pair]
      simp only [Nat.add_zero, Nat.add_assoc, Nat.add_comm 1, or_assoc]
    · rw [generated, List.countP_cons_of_neg other, List.filterMap_cons_some calls,
        List.mem_singleton, or_left_comm]
      refine or_congr_right (Iff.trans ?_ Nat.or_exists_add_one)
      simp only [List.getElem?_cons_zero, List.getElem?_cons_succ, Option.some.injEq,
        exists_eq_left', Nat.add_zero, Nat.add_assoc, Nat.add_comm 1]
    · rw [generated, List.countP_cons_of_neg other, List.filterMap_cons_none none]
      simp only [List.not_mem_nil, false_or]

/-- The symbol of a static cell is a label that is generated for a comparison or a call. -/
inductive Captured (program : List Part) (unit : String) (index : Word) : Prop where
  | comparison (named : unit = "$compare.true" ∨ unit = "$compare.end")
      (few : index.toNat < program.countP Part.isComparison) : Captured program unit index
  | call {function : String} (named : unit = function ++ "$ret")
      (called : (program.filterMap Part.called?)[index.toNat]? = some function) :
      Captured program unit index

/-- A generated label is the symbol of a static cell just when the cell is captured. -/
theorem staticSymbol_mem_generatedLabels_iff {options : EmissionOptions} {sources : List Source}
    {text : String} (compiled : (compile options sources).result = .ok text) {unit : String}
    {index : Word} : Template.staticSymbol unit index ∈ generatedLabels options sources ↔
      Captured (parts options sources) unit index := by
  obtain ⟨-, ⟨last, expanded⟩, -⟩ := compile_ok compiled
  rw [generatedLabels, mem_generated_iff expanded, staticSymbol_eq_numbered]
  simp only [holds_eq_numbered, done_eq_numbered, returnLabel_eq_numbered, Nat.zero_add]
  constructor
  · rintro (⟨place, few, same | same⟩ | ⟨place, function, called, same⟩)
    · obtain ⟨rfl, rfl⟩ := numbered_injective same
      exact .comparison (.inl rfl) few
    · obtain ⟨rfl, rfl⟩ := numbered_injective same
      exact .comparison (.inr rfl) few
    · obtain ⟨rfl, rfl⟩ := numbered_injective same
      exact .call rfl called
  · intro captured
    cases captured with
    | comparison named few =>
      rcases named with rfl | rfl
      · exact .inl ⟨_, few, .inl rfl⟩
      · exact .inl ⟨_, few, .inr rfl⟩
    | call named called =>
      subst named
      exact .inr ⟨_, _, called, rfl⟩

/-! ## The labels of compiled text -/

section

variable {options : EmissionOptions} {sources : List Source} {text : String}
  (compiled : (compile options sources).result = .ok text)
  (entry : isSymbol options.entry) (valid : ∀ source ∈ sources, isSymbol source.name)

include compiled entry valid

/-- The statements of compiled text are those of the lines of its blocks. -/
theorem map_statement_compiled : (CodeLine.ofText text.toList).map CodeLine.statement =
    (codeLines (blocks options sources)).filterMap AssemblyLine.statement? := by
  apply map_statement_of_isPlain compiled
  exact fun part => isPlain_of_mem_names (fun _ => entry) (isSymbol_of_static valid)

/-- The labels of compiled text are the names that the program declares and the generated ones. -/
theorem mem_declared_compile_iff {name : String} :
    name ∈ (CodeLine.ofText text.toList).filterMap CodeLine.declared? ↔
      name ∈ declaredNames options sources ∨ name ∈ generatedLabels options sources := by
  obtain ⟨-, ⟨last, expanded⟩, -⟩ := compile_ok compiled
  have labels : (CodeLine.ofText text.toList).filterMap CodeLine.declared? =
      (blocks options sources).flatMap Block.labels := by
    rw [← label?_codeLines, ← map_statement_compiled compiled entry valid, List.filterMap_map]
    rfl
  rw [labels, (labels_perm expanded).mem_iff, List.mem_append]
  rfl

end

/-- **When a generated label captures a static cell.** In a program that is compiled with symbols
for the names of its units and of its entry function, take a static cell that is used and whose
symbol no command declares. It is captured just when its symbol is a generated label, and just when
it is no variable. Unless it is captured, its address is that of a variable, above the registers. -/
theorem static_captured_iff {options : EmissionOptions} {sources : List Source} {text : String}
    (compiled : (compile options sources).result = .ok text) (entry : isSymbol options.entry)
    (valid : ∀ source ∈ sources, isSymbol source.name) {unit : String} {index : Word}
    (used : UsesStatic sources unit index)
    (undeclared : Template.staticSymbol unit index ∉ declaredNames options sources) :
    (Template.staticSymbol unit index ∈ generatedLabels options sources ↔
        Captured (parts options sources) unit index) ∧
      (Template.staticSymbol unit index ∉
          Program.variableNames (CodeLine.ofText text.toList) ↔
        Captured (parts options sources) unit index) ∧
      ∀ program, Program.assemble text.toList = .ok program →
        ¬Captured (parts options sources) unit index →
          ∃ address : Word, program.symbols[Template.staticSymbol unit index]? = some address ∧
            16 ≤ address.toNat := by
  have captured := @staticSymbol_mem_generatedLabels_iff options sources text compiled unit index
  have labels := @mem_declared_compile_iff options sources text compiled entry valid
    (Template.staticSymbol unit index)
  rw [captured, or_iff_right undeclared] at labels
  refine ⟨captured, ?_, ?_⟩
  · rw [Program.variableNames, Program.variablesMet, List.mem_eraseDups, List.mem_filter,
      decide_eq_true_iff, labels]
    have loaded := used.loaded compiled valid
    have own := staticSymbol_not_predefined unit index
    simp only [loaded, own, not_false_eq_true, true_and, not_not]
  · intro program assembled free
    exact used.above_registers compiled valid assembled (mt labels.mp free)

/-- A unit with a name that labels of comparisons start with. -/
def comparingSource : Source :=
  ⟨"$compare.true", "goto A\nlabel A\ngoto B\nlabel B\neq\npush constant 7\npop static 0"⟩

/-- A unit with a static cell of its own. -/
def storingSource : Source :=
  ⟨"Main", "push constant 8\npop static 0"⟩

/-- The two units. -/
def capturingSources : List Source :=
  [comparingSource, storingSource]

theorem readAll_comparingSource : Command.readAll comparingSource.text.toList =
    .ok [⟨⟨0, 6⟩, .goto "A"⟩, ⟨⟨7, 14⟩, .label "A"⟩, ⟨⟨15, 21⟩, .goto "B"⟩,
      ⟨⟨22, 29⟩, .label "B"⟩, ⟨⟨30, 32⟩, .operator .eq⟩, ⟨⟨33, 48⟩, .push .constant 7⟩,
      ⟨⟨49, 61⟩, .pop .static 0⟩] := by
  have free : ∀ line ∈ Text.locatedLines comparingSource.text.toList, '/' ∉ line.code := by decide
  rw [Command.readAll, Command.readings_of_free free]
  decide

theorem readAll_storingSource : Command.readAll storingSource.text.toList =
    .ok [⟨⟨0, 15⟩, .push .constant 8⟩, ⟨⟨16, 28⟩, .pop .static 0⟩] := by
  have free : ∀ line ∈ Text.locatedLines storingSource.text.toList, '/' ∉ line.code := by decide
  rw [Command.readAll, Command.readings_of_free free]
  decide

theorem parts_capturingSources : parts ⟨false, "Sys.init", false⟩ capturingSources =
    [.command "$compare.true" (.goto "A"), .command "$compare.true" (.label "A"),
      .command "$compare.true" (.goto "B"), .command "$compare.true" (.label "B"),
      .command "$compare.true" (.operator .eq), .command "$compare.true" (.push .constant 7),
      .command "$compare.true" (.pop .static 0), .command "Main" (.push .constant 8),
      .command "Main" (.pop .static 0)] := by
  simp only [parts, capturingSources, List.flatMap_cons, List.flatMap_nil, Source.parts,
    Source.commands, readAll_comparingSource, readAll_storingSource]
  rfl

/-- The two units compile. -/
theorem compile_capturingSources :
    ∃ text, (compile ⟨false, "Sys.init", false⟩ capturingSources).result = .ok text := by
  have readable : ∀ source ∈ capturingSources,
      ∃ located, Command.readAll source.text.toList = .ok located := by
    rw [capturingSources, List.forall_mem_cons, List.forall_mem_singleton]
    exact ⟨⟨_, readAll_comparingSource⟩, ⟨_, readAll_storingSource⟩⟩
  refine compile_succeeds readable ?_
  rw [parts_capturingSources]
  exact ⟨_, rfl⟩

/-- Both units use their first static cell. -/
theorem usesStatic_capturingSources :
    UsesStatic capturingSources "$compare.true" 0 ∧ UsesStatic capturingSources "Main" 0 := by
  constructor
  · refine ⟨comparingSource, List.mem_cons_self, rfl, .inr ?_⟩
    rw [Source.commands, readAll_comparingSource]
    decide
  · refine ⟨storingSource, List.mem_cons_of_mem _ List.mem_cons_self, rfl, .inr ?_⟩
    rw [Source.commands, readAll_storingSource]
    decide

/-- The cell of one unit is captured, and that of the other is a variable. -/
theorem static_captured_iff_capturingSources : ∃ text,
    (compile ⟨false, "Sys.init", false⟩ capturingSources).result = .ok text ∧
      "$compare.true.0" ∈ generatedLabels ⟨false, "Sys.init", false⟩ capturingSources ∧
      "$compare.true.0" ∉ Program.variableNames (CodeLine.ofText text.toList) ∧
      "Main.0" ∈ Program.variableNames (CodeLine.ofText text.toList) := by
  obtain ⟨text, compiled⟩ := compile_capturingSources
  obtain ⟨first, second⟩ := usesStatic_capturingSources
  have entry : isSymbol "Sys.init" := by decide
  have valid : ∀ source ∈ capturingSources, isSymbol source.name := by decide
  have undeclared : ∀ name ∈ ["$compare.true.0", "Main.0"],
      name ∉ declaredNames ⟨false, "Sys.init", false⟩ capturingSources := by
    rw [declaredNames, parts_capturingSources]
    decide
  have captured := static_captured_iff compiled entry valid first
    (undeclared _ List.mem_cons_self)
  have kept := static_captured_iff compiled entry valid second
    (undeclared _ (List.mem_cons_of_mem _ List.mem_cons_self))
  rw [parts_capturingSources] at captured kept
  refine ⟨text, compiled, captured.1.mpr (.comparison (.inl rfl) (by decide)),
    captured.2.1.mpr (.comparison (.inl rfl) (by decide)), not_not.mp (mt kept.2.1.mp ?_)⟩
  intro other
  cases other with
  | comparison named => exact absurd named (by decide)
  | call _ called => cases called

/-- A label for a comparison is the symbol of a static cell, and two static cells of two units are
one cell. -/
theorem static_cells_collide_capturingSources : ∃ text program,
    (∀ source ∈ capturingSources, isSymbol source.name) ∧ isSymbol "Sys.init" ∧
      (compile ⟨false, "Sys.init", false⟩ capturingSources).result = .ok text ∧
      Program.assemble text.toList = .ok program ∧
      UsesStatic capturingSources "$compare.true" 0 ∧ UsesStatic capturingSources "Main" 0 ∧
      Template.staticSymbol "$compare.true" 0 ∈
        generatedLabels ⟨false, "Sys.init", false⟩ capturingSources ∧
      program.symbols[Template.staticSymbol "$compare.true" 0]? = some 16 ∧
      program.symbols[Template.staticSymbol "Main" 0]? = some 16 := by
  obtain ⟨text, compiled⟩ := compile_capturingSources
  have addresses : ((Program.assemble text.toList).map fun program =>
      (program.symbols[Template.staticSymbol "$compare.true" 0]?,
        program.symbols[Template.staticSymbol "Main" 0]?)).toOption = some (some 16, some 16) := by
    rw [(compile_ok compiled).2.2, blocks, parts_capturingSources]
    decide +kernel
  have generated : Template.staticSymbol "$compare.true" 0 ∈
      generatedLabels ⟨false, "Sys.init", false⟩ capturingSources := by
    rw [generatedLabels, blocks, parts_capturingSources]
    decide
  obtain ⟨first, second⟩ := usesStatic_capturingSources
  obtain ⟨program, assembled, seen⟩ := Program.exists_assemble_of_map addresses
  obtain ⟨comparing, storing⟩ := Prod.mk.inj seen
  exact ⟨text, program, by decide, by decide, compiled, assembled, first, second, generated,
    comparing, storing⟩

end HackToolchain
