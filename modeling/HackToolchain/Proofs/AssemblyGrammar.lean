import HackToolchain.Proofs.InstructionGrammar
import Mathlib.Data.List.Induction

/-! # The grammar of assembly code

What the assembler accepts, and which line it blames. Each pass goes through the lines until one is
at fault or there is no address left, and what it can come to follows from its rules (`Pass`) alone:
`Pass.Outcome.next` is the step, and `declareLabels_outcome` and `pushLines_outcome` are the runs.
Both are put together in `assemble_grammar`.
-/

namespace HackToolchain

/-! ## Lines of a text -/

namespace Text

/-- A line without a carriage return at its end. -/
def dropReturn (line : Text) : Text :=
  if line.getLast? = some '\r' then line.dropLast else line

/-- The lines of a text. A line break ends a line, with or without a carriage return before it, and
what follows the last line break is a line only if there is something. -/
def endedLines (text : Text) : List Text :=
  text.lines.dropLast.map dropReturn ++ (text.lines.getLast?.filter (· ≠ [])).toList

/-- A blank at the end of a text is trimmed off. -/
theorem trim_append_blank {text : Text} {character : Char} (blank : isBlank character) :
    trim (text ++ [character]) = trim text := by
  rw [trim, List.dropWhile_append]
  split
  · rename_i empty
    rw [List.dropWhile_cons_of_pos blank, trim, List.isEmpty_iff.mp empty]
    rfl
  · rw [List.reverse_append, List.reverse_singleton, List.singleton_append,
      List.dropWhile_cons_of_pos blank, trim]

/-- A carriage return at the end of a line is not code. -/
theorem trim_beforeComment_dropReturn (line : Text) :
    (beforeComment line.dropReturn).trim = (beforeComment line).trim := by
  unfold dropReturn
  split
  · rename_i ends
    have whole := List.dropLast_append_getLast? _ ends
    have cut := @beforeComment_concat '\r' (by decide) line.dropLast
    rw [whole] at cut
    rcases cut with same | ⟨before, same⟩
    · rw [same]
    · rw [before, same, ← whole, trim_append_blank (by decide), List.dropLast_concat]
  · rfl

end Text

namespace CodeLine

/-- Only the code of each line matters. -/
theorem ofLines_congr {lines others : List Text}
    (same : lines.map (fun line => (Text.beforeComment line).trim) =
      others.map fun line => (Text.beforeComment line).trim) : ofLines lines = ofLines others := by
  have coded : ∀ lines : List Text, ofLines lines =
      (lines.map fun line => (Text.beforeComment line).trim).zipIdx.filterMap fun entry =>
        if entry.1 = [] then none else some ⟨entry.2 + 1, entry.1⟩ := by
    intro lines
    rw [List.zipIdx_map, List.filterMap_map]
    rfl
  rw [coded, coded, same]

/-- An empty line at the end has no code. -/
theorem ofLines_append_nil (lines : List Text) : ofLines (lines ++ [[]]) = ofLines lines := by
  rw [ofLines, List.zipIdx_append, List.filterMap_append]
  exact List.append_nil _

/-- The lines of code of a text do not depend on how its lines end. -/
theorem ofLines_endedLines (text : Text) : ofLines text.endedLines = ofText text := by
  obtain ⟨others, last, whole⟩ : ∃ others last, text.lines = others ++ [last] := by
    have some : text.lines ≠ [] := List.splitOn_ne_nil _ _
    exact ⟨_, _, (List.dropLast_append_getLast some).symm⟩
  have returns : ofLines (others.map Text.dropReturn ++ [last]) = ofText text := by
    rw [ofText, whole]
    apply ofLines_congr
    rw [List.map_append, List.map_append, List.map_map]
    congr 1
    exact List.map_congr_left fun line _ => Text.trim_beforeComment_dropReturn line
  rw [Text.endedLines, whole, List.dropLast_concat, List.getLast?_concat, ← returns]
  by_cases empty : last = []
  · rw [Option.filter_some_neg (by simpa using empty), empty, ofLines_append_nil]
    exact congrArg ofLines (List.append_nil _)
  · rw [Option.filter_some_pos (by simpa using empty)]
    rfl

end CodeLine

/-! ## Passes -/

/-- The rules of a pass over lines of code: which line is good behind which lines, what is wrong
with a line that is not, and how many addresses some lines use. -/
structure Pass where
  Good : List CodeLine → CodeLine → Prop
  Fault : List CodeLine → CodeLine → AssemblyCause → Prop
  used : List CodeLine → Nat
  not_good : ∀ {before line cause}, Fault before line cause → ¬Good before line
  used_append : ∀ lines others, used lines ≤ used (lines ++ others)

namespace Pass

variable {pass : Pass} {lines : List CodeLine} {line : CodeLine} {α β : Type}

/-- Every line is good behind the lines before it. -/
def Accepts (pass : Pass) (lines : List CodeLine) : Prop :=
  ∀ before line after, lines = before ++ line :: after → pass.Good before line

/-- A pass accepts a text without lines. -/
theorem accepts_nil : pass.Accepts [] := by
  intro before line after split
  simp at split

/-- A pass accepts a good line after lines that it accepts. -/
theorem Accepts.concat (accepted : pass.Accepts lines) (good : pass.Good lines line) :
    pass.Accepts (lines ++ [line]) := by
  intro before other after split
  rcases List.eq_nil_or_concat after with rfl | ⟨others, last, rfl⟩
  · obtain ⟨rfl, same⟩ := List.append_inj' split rfl
    cases same
    exact good
  · rw [List.concat_eq_append, ← List.cons_append, ← List.append_assoc] at split
    exact accepted before other others (List.append_inj' split rfl).1

/-- All that a pass can do at a line behind some lines. -/
inductive Step (pass : Pass) (lines : List CodeLine) (line : CodeLine) :
    Except AssemblyFailure α → Prop
  | done {state : α} (good : pass.Good lines line)
    (fits : pass.used (lines ++ [line]) ≤ Word.maxValue) : Step pass lines line (.ok state)
  | fault {cause : AssemblyCause} (wrong : pass.Fault lines line cause) :
    Step pass lines line (.error (.fault line.number cause))
  | overflow (good : pass.Good lines line)
    (full : Word.maxValue < pass.used (lines ++ [line])) : Step pass lines line (.error .overflow)

/-- All that a pass can come to on some lines: it goes through all of them, or it stops at the first
that is at fault, or where there is no address left. -/
inductive Outcome (pass : Pass) (lines : List CodeLine) : Except AssemblyFailure α → Prop
  | done {state : α} (accepted : pass.Accepts lines) (fits : pass.used lines ≤ Word.maxValue) :
    Outcome pass lines (.ok state)
  | fault {before after : List CodeLine} {line : CodeLine} {cause : AssemblyCause}
    (split : lines = before ++ line :: after) (accepted : pass.Accepts before)
    (fits : pass.used before ≤ Word.maxValue) (wrong : pass.Fault before line cause) :
    Outcome pass lines (.error (.fault line.number cause))
  | overflow {met rest : List CodeLine} (split : lines = met ++ rest)
    (accepted : pass.Accepts met) (full : Word.maxValue < pass.used met) :
    Outcome pass lines (.error .overflow)

/-- A pass that comes to something on some lines goes on with the line behind them. -/
theorem Outcome.next {result : Except AssemblyFailure α} {step : α → Except AssemblyFailure β}
    (outcome : pass.Outcome lines result)
    (stepped : ∀ state, result = .ok state → pass.Step lines line (step state)) :
    pass.Outcome (lines ++ [line]) (result >>= step) := by
  cases outcome with
  | @done state accepted fits =>
    have last := stepped state rfl
    change pass.Outcome (lines ++ [line]) (step state)
    generalize step state = found at last
    cases last with
    | done good fits => exact .done (accepted.concat good) fits
    | fault wrong => exact .fault rfl accepted fits wrong
    | overflow good full => exact .overflow (List.append_nil _).symm (accepted.concat good) full
  | @fault before after other _ split accepted fits wrong =>
    have longer : lines ++ [line] = before ++ other :: (after ++ [line]) := by
      rw [split, List.append_assoc, List.cons_append]
    exact .fault longer accepted fits wrong
  | @overflow met rest split accepted full =>
    have longer : lines ++ [line] = met ++ (rest ++ [line]) := by
      rw [split, List.append_assoc]
    exact .overflow longer accepted full

section

variable {result : Except AssemblyFailure α} (outcome : pass.Outcome lines result)

include outcome

/-- A pass succeeds just when it accepts the lines and has enough addresses. -/
theorem Outcome.exists_ok_iff :
    (∃ state, result = .ok state) ↔ pass.Accepts lines ∧ pass.used lines ≤ Word.maxValue := by
  cases outcome with
  | @done state accepted fits => exact ⟨fun _ => ⟨accepted, fits⟩, fun _ => ⟨state, rfl⟩⟩
  | fault split accepted fits wrong =>
    refine ⟨nofun, ?_⟩
    rintro ⟨all, -⟩
    exact absurd (all _ _ _ split) (pass.not_good wrong)
  | @overflow met rest split accepted full =>
    refine ⟨nofun, ?_⟩
    rintro ⟨-, fits⟩
    have smaller := pass.used_append met rest
    rw [split] at fits
    omega

/-- A pass runs out of addresses just when some first lines are good and use too many. -/
theorem Outcome.eq_overflow_iff :
    result = .error .overflow ↔ ∃ met rest, lines = met ++ rest ∧ pass.Accepts met ∧
      Word.maxValue < pass.used met := by
  constructor
  · rintro rfl
    cases outcome with
    | overflow split accepted full => exact ⟨_, _, split, accepted, full⟩
  · rintro ⟨met, rest, split, accepted, full⟩
    cases outcome with
    | done all fits =>
      have smaller := pass.used_append met rest
      rw [← split] at smaller
      omega
    | overflow => rfl
    | @fault before after line cause same all fits wrong =>
      -- The line at fault is not among the good ones, so these end before it.
      rw [split] at same
      rcases List.append_eq_append_iff.mp same with ⟨others, rfl, -⟩ | ⟨others, rfl, remaining⟩
      · have smaller := pass.used_append met others
        omega
      · cases others with
        | nil =>
          rw [List.append_nil] at full
          omega
        | cons _ tail =>
          cases remaining
          exact absurd (accepted before line tail rfl) (pass.not_good wrong)

/-- A pass with addresses enough accepts all lines, or it blames the first that is not good. -/
theorem Outcome.ok_or_fault (room : result ≠ .error .overflow) :
    (∃ state, result = .ok state ∧ pass.Accepts lines) ∨
    ∃ before line after cause, result = .error (.fault line.number cause) ∧
      ¬pass.Accepts lines ∧ lines = before ++ line :: after ∧ pass.Accepts before ∧
      pass.Fault before line cause := by
  cases outcome with
  | done accepted => exact .inl ⟨_, rfl, accepted⟩
  | fault split accepted _ wrong =>
    refine .inr ⟨_, _, _, _, rfl, ?_, split, accepted, wrong⟩
    intro all
    exact pass.not_good wrong (all _ _ _ split)
  | overflow => exact absurd rfl room

end

end Pass

/-! ## The first pass -/

namespace CodeLine

/-- The line declares a name: it holds the name in round brackets. -/
def Declares (line : CodeLine) (name : String) : Prop :=
  line.code = '(' :: (name.toList ++ [')'])

/-- The declared names are those that a line declares. -/
theorem mem_declared_iff {lines : List CodeLine} {name : String} :
    name ∈ lines.filterMap declared? ↔ ∃ line ∈ lines, line.Declares name := by
  have form : ∀ line : CodeLine, line.declared? = some name ↔ line.Declares name := by
    intro line
    rw [Declares, ← statement_eq_label_iff, declared?]
    cases line.statement <;> simp [Statement.label?]
  simp only [List.mem_filterMap, form]

/-- If the line declares a name, the name is a symbol that is neither the machine's own nor declared
by an earlier line. -/
def LabelGood (earlier : List CodeLine) (line : CodeLine) : Prop :=
  ∀ name, line.Declares name →
    isSymbol name ∧ name ∉ SymbolTable.predefinedSymbols.map Prod.fst ∧
      ∀ other ∈ earlier, ¬other.Declares name

/-- What is wrong with a line that declares a name that it cannot declare. -/
inductive LabelFault (earlier : List CodeLine) (line : CodeLine) : AssemblyCause → Prop
  | invalid {name : String} (declares : line.Declares name) (wrong : ¬isSymbol name) :
    LabelFault earlier line .invalidLabel
  | used {name : String} (declares : line.Declares name) (symbol : isSymbol name)
    (taken : name ∈ SymbolTable.predefinedSymbols.map Prod.fst ∨
      ∃ other ∈ earlier, other.Declares name) :
    LabelFault earlier line (.labelUsed name)

/-- A line with a fault in its label is not good. -/
theorem LabelFault.not_labelGood {earlier : List CodeLine} {line : CodeLine}
    {cause : AssemblyCause} (fault : LabelFault earlier line cause) : ¬LabelGood earlier line := by
  intro good
  cases fault with
  | invalid declares wrong => exact wrong (good _ declares).1
  | used declares symbol taken =>
    obtain ⟨-, fresh, first⟩ := good _ declares
    rcases taken with own | ⟨other, among, same⟩
    · exact fresh own
    · exact first other among same

end CodeLine

/-- Every line that declares a name declares a new symbol. -/
def LabelsGood (lines : List CodeLine) : Prop :=
  ∀ before line after, lines = before ++ line :: after → CodeLine.LabelGood before line

/-- The rules of the first pass. -/
def Pass.declaration : Pass where
  Good := CodeLine.LabelGood
  Fault := CodeLine.LabelFault
  used := Program.addressAfter
  not_good := CodeLine.LabelFault.not_labelGood
  used_append lines others := by
    rw [Program.addressAfter_append]
    exact Nat.le_add_right _ _

namespace Program

/-- The labels on a last line are declared after those of the lines before it. -/
theorem declareLabels_concat (address : Nat) (table : SymbolTable) (lines : List CodeLine)
    (line : CodeLine) :
    declareLabels address table (lines ++ [line]) = declareLabels address table lines >>=
      fun found => declareLabels (address + addressAfter lines) found [line] := by
  induction lines generalizing address table with
  | nil => rfl
  | cons first rest hypothesis =>
    rw [List.cons_append, declareLabels, declareLabels, addressAfter_cons]
    cases found : first.statement with
    | label name =>
      simp only [hypothesis]
      split
      · rfl
      · split
        · rfl
        · rfl
    | unclosed | load _ | compute _ =>
      simp only [hypothesis]
      split
      · simp only [Statement.takesAddress, ↓reduceIte]
        congr 1
        funext table
        congr 1
        omega
      · rfl

/-- One step of the first pass. -/
theorem declareLabels_step {lines : List CodeLine} {table : SymbolTable}
    (declared : declareLabels 0 SymbolTable.predefined lines = .ok table) (line : CodeLine) :
    Pass.declaration.Step lines line (declareLabels (0 + addressAfter lines) table [line]) := by
  have known : ∀ name, name ∈ table ↔ name ∈ SymbolTable.predefinedSymbols.map Prod.fst ∨
      ∃ other ∈ lines, other.Declares name := by
    intro name
    rw [mem_declareLabels_iff declared, SymbolTable.mem_predefined_iff, CodeLine.mem_declared_iff]
  have fits : addressAfter lines ≤ Word.maxValue := by
    have bound := (declareLabels_ok declared).fits
    omega
  have grown : addressAfter (lines ++ [line]) =
      addressAfter lines + if line.statement.takesAddress then 1 else 0 := by
    rw [addressAfter_append, addressAfter_cons]
    simp [addressAfter]
  rw [Nat.zero_add, declareLabels]
  cases found : line.statement with
  | label name =>
    have declares : line.Declares name := CodeLine.statement_eq_label_iff.mp found
    simp only
    split
    · rename_i wrong
      exact .fault (.invalid declares (by simpa using wrong))
    · rename_i valid
      have symbol : isSymbol name := by simpa using valid
      split
      · rename_i taken
        exact .fault (.used declares symbol ((known name).mp taken))
      · rename_i fresh
        rw [known, not_or] at fresh
        refine .done ?_ ?_
        · intro other same
          cases (CodeLine.statement_eq_label_iff.mpr same).symm.trans found
          exact ⟨symbol, fresh.1, fun other among same => fresh.2 ⟨other, among, same⟩⟩
        · change addressAfter (lines ++ [line]) ≤ Word.maxValue
          rw [grown, found]
          exact fits
  | unclosed | load _ | compute _ =>
    have free : CodeLine.LabelGood lines line := by
      intro name declares
      rw [CodeLine.Declares, ← CodeLine.statement_eq_label_iff, found] at declares
      cases declares
    rw [found] at grown
    simp only
    split
    · rename_i room
      exact .done free (grown.trans_le room)
    · rename_i full
      exact .overflow free (Nat.lt_succ_of_le (Nat.le_of_not_lt full) |>.trans_eq grown.symm)

/-- The first pass is a pass that declares labels. -/
theorem declareLabels_outcome (lines : List CodeLine) :
    Pass.declaration.Outcome lines (declareLabels 0 SymbolTable.predefined lines) := by
  -- Whether a label is good depends on the lines before it, so lines are added at the end.
  induction lines using List.reverseRecOn with
  | nil => exact .done Pass.accepts_nil (Nat.zero_le _)
  | append_singleton lines line hypothesis =>
    rw [declareLabels_concat]
    exact hypothesis.next fun table declared => declareLabels_step declared line

/-! ## The second pass -/

/-- More lines have no fewer new symbols. -/
theorem length_newSymbols_append (table : SymbolTable) (lines others : List CodeLine) :
    (newSymbols table lines).length ≤ (newSymbols table (lines ++ others)).length := by
  unfold newSymbols
  rw [List.filterMap_append, List.filter_append, List.eraseDups_append, List.length_append]
  exact Nat.le_add_right _ _

/-- A line at fault is not good, as the second pass would have to refuse it and to take it. -/
theorem not_isGood_of_fault {line : CodeLine} {cause : AssemblyCause} (fault : line.Fault cause) :
    ¬line.IsGood := by
  intro good
  have refused := pushLine_of_fault fault ⟨⟨#[], ∅⟩, variableBase⟩
  rcases pushLine_of_decodable good.decodable ⟨⟨#[], ∅⟩, variableBase⟩ with
    ⟨next, taken⟩ | ⟨-, -, -, -, full⟩
  · cases taken.symm.trans refused
  · cases full.symm.trans refused

end Program

/-- The rules of the second pass, given the table that the first pass makes. -/
def Pass.decoding (table : SymbolTable) : Pass where
  Good _ line := line.IsGood
  Fault _ line cause := line.Fault cause
  used lines := Program.variableBase + (Program.newSymbols table lines).length
  not_good := Program.not_isGood_of_fault
  used_append lines others :=
    Nat.add_le_add_left (Program.length_newSymbols_append table lines others) _

namespace Program

/-- A last line is assembled after the lines before it. -/
theorem pushLines_concat (lines : List CodeLine) (line : CodeLine) (progress : Progress) :
    pushLines (lines ++ [line]) progress =
      pushLines lines progress >>= fun last => last.pushLine line := by
  induction lines generalizing progress with
  | nil =>
    change (progress.pushLine line >>= fun next => .ok next) = progress.pushLine line
    cases progress.pushLine line with
    | ok next => rfl
    | error failure => rfl
  | cons first rest hypothesis =>
    rw [List.cons_append, pushLines, pushLines]
    cases progress.pushLine first with
    | ok next => exact hypothesis next
    | error failure => rfl

/-- One step of the second pass. -/
theorem pushLine_step {table : SymbolTable} {lines : List CodeLine} {progress : Progress}
    (allocated : Allocated table lines progress) (line : CodeLine) :
    (Pass.decoding table).Step lines line (progress.pushLine line) := by
  rcases line.isGood_or_fault with good | ⟨cause, wrong⟩
  · rcases pushLine_of_decodable good.decodable progress with
      ⟨next, pushed⟩ | ⟨name, loaded, fresh, full, refused⟩
    · have grown := allocated.pushLine pushed
      rw [pushed]
      exact .done good (grown.next.symm.trans_le grown.fits)
    · rw [allocated.mem_iff, not_or] at fresh
      rw [refused]
      refine .overflow good ?_
      change _ < variableBase + (newSymbols table (lines ++ [line])).length
      rw [newSymbols_append_of_fresh loaded fresh.1 fresh.2, List.length_append,
        List.length_singleton, ← Nat.add_assoc, ← allocated.next]
      exact Nat.lt_succ_of_le full
  · rw [pushLine_of_fault wrong]
    exact .fault wrong

/-- The second pass is a pass that decodes lines. -/
theorem pushLines_outcome (table : SymbolTable) (lines : List CodeLine) :
    (Pass.decoding table).Outcome lines (pushLines lines ⟨⟨#[], table⟩, variableBase⟩) := by
  induction lines using List.reverseRecOn with
  | nil => exact .done Pass.accepts_nil (allocated_nil table #[]).fits
  | append_singleton lines line hypothesis =>
    rw [pushLines_concat]
    refine hypothesis.next fun progress pushed => ?_
    have allocated := (allocated_nil table #[]).pushLines pushed
    rw [List.nil_append] at allocated
    exact pushLine_step allocated line

/-- The second pass accepts good lines. -/
theorem accepts_decoding_iff {table : SymbolTable} {lines : List CodeLine} :
    (Pass.decoding table).Accepts lines ↔ ∀ line ∈ lines, line.IsGood := by
  constructor
  · intro accepted line member
    obtain ⟨before, after, split⟩ := List.append_of_mem member
    exact accepted before line after split
  · rintro good before line after rfl
    exact good line (List.mem_append_right _ List.mem_cons_self)

/-! ## Both passes -/

/-- Good lines hold one instruction each, unless they start with a bracket. -/
theorem length_emitted (symbols : SymbolTable) {lines : List CodeLine}
    (good : ∀ line ∈ lines, line.IsGood) :
    (emitted symbols lines).length = lines.countP fun line => line.code.head? ≠ some '(' := by
  rw [emitted, List.length_filterMap_eq_countP]
  apply List.countP_congr
  intro line member
  rw [decide_eq_true_iff, CodeLine.instruction?]
  cases found : line.statement with
  | label name =>
    rw [CodeLine.statement_eq_label_iff.mp found]
    simp [Statement.instruction?]
  | unclosed =>
    rw [(CodeLine.statement_eq_unclosed_iff.mp found).1]
    simp [Statement.instruction?]
  | load operand =>
    rw [CodeLine.statement_eq_load_iff.mp found]
    simp [Statement.instruction?]
  | compute text =>
    have decodable := (good line member).decodable
    rw [found] at decodable
    obtain ⟨instruction, decoded⟩ := decodable
    have bracket := (CodeLine.statement_eq_compute_iff.mp found).1
    simp [Statement.instruction?, decoded, bracket, Except.toOption]

/-- **The grammar of assembly code.** A text that does not use up the addresses is assembled just
when every line that declares a name declares a new symbol and every line that is to hold an
instruction holds one; there are then as many instructions as there are lines that start with no
bracket. Otherwise the number of a line is reported: that of the first line that declares a name
that it cannot declare, wherever it stands, or else that of the first line at fault. -/
theorem assemble_grammar {text : Text} (room : assemble text ≠ .error .overflow) :
    ((∃ program, assemble text = .ok program) ↔
      LabelsGood (CodeLine.ofLines text.endedLines) ∧
        ∀ line ∈ CodeLine.ofLines text.endedLines, line.IsGood) ∧
    (∀ program, assemble text = .ok program →
      program.instructions.size =
        (CodeLine.ofLines text.endedLines).countP fun line => line.code.head? ≠ some '(') ∧
    (¬LabelsGood (CodeLine.ofLines text.endedLines) →
      ∃ before line after cause, CodeLine.ofLines text.endedLines = before ++ line :: after ∧
        LabelsGood before ∧ CodeLine.LabelFault before line cause ∧
        assemble text = .error (.fault line.number cause)) ∧
    (LabelsGood (CodeLine.ofLines text.endedLines) →
      (¬∀ line ∈ CodeLine.ofLines text.endedLines, line.IsGood) →
        ∃ before line after cause, CodeLine.ofLines text.endedLines = before ++ line :: after ∧
          (∀ earlier ∈ before, earlier.IsGood) ∧ line.Fault cause ∧
          assemble text = .error (.fault line.number cause)) := by
  rw [CodeLine.ofLines_endedLines]
  have declaring : declareLabels 0 SymbolTable.predefined (CodeLine.ofText text) ≠
      .error .overflow := fun full => room (assemble_of_labels_error full)
  rcases (declareLabels_outcome _).ok_or_fault declaring with
    ⟨table, labels, declared⟩ | ⟨before, line, after, cause, labels, refused, blamed⟩
  · have assembled := assemble_of_labels labels
    have decoding : pushLines (CodeLine.ofText text) ⟨⟨#[], table⟩, variableBase⟩ ≠
        .error .overflow := by
      intro full
      rw [full] at assembled
      exact room assembled
    rcases (pushLines_outcome table _).ok_or_fault decoding with
      ⟨last, code, accepted⟩ | ⟨before, line, after, cause, code, refused, split, earlier, wrong⟩
    · have good := accepts_decoding_iff.mp accepted
      rw [code] at assembled
      refine ⟨⟨fun _ => ⟨declared, good⟩, fun _ => ⟨_, assembled⟩⟩, ?_,
        fun bad => absurd declared bad, fun _ bad => absurd good bad⟩
      intro program same
      rw [← Array.length_toList, instructions_eq_emitted same, length_emitted _ good]
    · rw [accepts_decoding_iff] at refused earlier
      rw [code] at assembled
      refine ⟨⟨?_, fun good => absurd good.2 refused⟩, ?_, fun bad => absurd declared bad,
        fun _ _ => ⟨before, line, after, cause, split, earlier, wrong, assembled⟩⟩
      · rintro ⟨program, same⟩
        cases assembled.symm.trans same
      · intro program same
        cases assembled.symm.trans same
  · have assembled := assemble_of_labels_error labels
    refine ⟨⟨?_, fun good => absurd good.1 refused⟩, ?_,
      fun _ => ⟨before, line, after, cause, ?_⟩, fun good => absurd good refused⟩
    · rintro ⟨program, same⟩
      cases assembled.symm.trans same
    · intro program same
      cases assembled.symm.trans same
    · exact ⟨blamed.1, blamed.2.1, blamed.2.2, assembled⟩

/-- A label at the end that the machine uses itself, and a computation before it that is none. -/
def lateLabel : Text :=
  "D=D+Q\r\n // note\n\n@x\n(SP)\n".toList

/-- A label that is predefined is reported before an earlier line that cannot be decoded. -/
theorem assemble_grammar_lateLabel : assemble lateLabel = .error (.fault 5 (.labelUsed "SP")) ∧
    ∃ before line after, CodeLine.ofLines lateLabel.endedLines = before ++ line :: after ∧
      line.number = 5 ∧ LabelsGood before ∧
      CodeLine.LabelFault before line (.labelUsed "SP") := by
  have found : assemble lateLabel = .error (.fault 5 (.labelUsed "SP")) := by rfl
  have room : assemble lateLabel ≠ .error .overflow := by
    rw [found]
    nofun
  have lines : CodeLine.ofLines lateLabel.endedLines = [⟨1, "D=D+Q".toList⟩, ⟨4, "@x".toList⟩,
      ⟨5, "(SP)".toList⟩] := by
    decide +kernel
  have refused : ¬LabelsGood (CodeLine.ofLines lateLabel.endedLines) := by
    rw [lines]
    intro good
    have label := good [⟨1, "D=D+Q".toList⟩, ⟨4, "@x".toList⟩] ⟨5, "(SP)".toList⟩ [] rfl "SP" rfl
    exact absurd label.2.1 (by decide)
  obtain ⟨-, -, labels, -⟩ := assemble_grammar room
  obtain ⟨before, line, after, cause, split, earlier, wrong, blamed⟩ := labels refused
  obtain ⟨number, rfl⟩ : line.number = 5 ∧ cause = .labelUsed "SP" := by
    simpa using blamed.symm.trans found
  exact ⟨found, before, line, after, split, number, earlier, wrong⟩

end Program

end HackToolchain
