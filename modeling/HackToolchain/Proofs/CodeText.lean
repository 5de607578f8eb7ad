import HackToolchain.Assembly.CodeLine
import HackToolchain.Assembly.Line
import HackToolchain.Command.Token
import HackToolchain.Proofs.Blocks
import HackToolchain.Symbol

/-! # The text of assembly lines

Lines of assembly code are written to a text and read back by the assembler. A line is clean when
nothing in it can be taken for a comment, a blank or a line break; the assembler then finds on every
line the statement that was written there (`map_statement_ofText`).
-/

namespace HackToolchain

/-- Whether a name consists of characters that can stand in a word. -/
def IsPlain (name : String) : Prop :=
  ∀ character ∈ name.toList, isWordCharacter character

instance (name : String) : Decidable (IsPlain name) :=
  decidable_of_iff (name.toList.all isWordCharacter) List.all_eq_true

/-- A plain name stays plain when another is put behind it. -/
theorem IsPlain.append {first second : String} (plain : IsPlain first) (also : IsPlain second) :
    IsPlain (first ++ second) := by
  intro character member
  rw [String.toList_append, List.mem_append] at member
  exact member.elim (plain character) (also character)

/-- The codes of letters and digits. -/
theorem toNat_of_isAlphanum {character : Char} (valid : character.isAlphanum) :
    65 ≤ character.toNat ∧ character.toNat ≤ 90 ∨ 97 ≤ character.toNat ∧ character.toNat ≤ 122 ∨
      48 ≤ character.toNat ∧ character.toNat ≤ 57 := by
  rcases Bool.or_eq_true_iff.mp valid with letter | digit
  · rcases Bool.or_eq_true_iff.mp letter with upper | lower
    · exact .inl (of_decide_eq_true upper)
    · obtain ⟨low, high⟩ := Bool.and_eq_true_iff.mp lower
      exact .inr (.inl ⟨of_decide_eq_true low, of_decide_eq_true high⟩)
  · obtain ⟨low, high⟩ := Bool.and_eq_true_iff.mp digit
    exact .inr (.inr ⟨of_decide_eq_true low, of_decide_eq_true high⟩)

/-- Characters of symbols are characters of words. -/
theorem isWordCharacter_of_isSymbolCharacter {character : Char}
    (valid : isSymbolCharacter character) : isWordCharacter character := by
  have free : character ≠ '/' := by
    rintro rfl
    exact absurd valid (by decide)
  have solid : isBlank character = false := by
    simp only [isSymbolCharacter, Bool.or_eq_true, beq_iff_eq] at valid
    rcases valid with (((letter | rfl) | rfl) | rfl) | rfl
    · have code := toNat_of_isAlphanum letter
      simp only [isBlank, blankRanges, List.any_cons, List.any_nil, Bool.or_false,
        Bool.or_eq_false_iff, Bool.and_eq_false_iff, decide_eq_false_iff_not]
      omega
    all_goals decide
  simp [isWordCharacter, free, solid]

/-- Symbols are plain. -/
theorem isPlain_of_isSymbol {name : String} (valid : isSymbol name) : IsPlain name := by
  intro character member
  rw [isSymbol] at valid
  split at valid
  · cases valid
  · rename_i first rest same
    rw [same] at member
    rw [Bool.and_eq_true, List.all_eq_true] at valid
    exact isWordCharacter_of_isSymbolCharacter (valid.2 character member)

namespace Text

/-- Nothing is trimmed off a text without blanks. -/
theorem trim_of_forall_not_isBlank {text : Text} (solid : ∀ character ∈ text, !isBlank character) :
    text.trim = text := by
  have keep : ∀ part : Text, (∀ character ∈ part, !isBlank character) →
      part.dropWhile isBlank = part := by
    intro part solid
    cases part with
    | nil => rfl
    | cons first rest =>
      have visible := solid first List.mem_cons_self
      rw [List.dropWhile_cons_of_neg (by simpa using visible)]
  have back : ∀ character ∈ text.reverse, !isBlank character := by
    intro character member
    exact solid character (List.mem_reverse.mp member)
  rw [trim, keep text solid, keep text.reverse back, List.reverse_reverse]

/-- A comment starts after a text that has no slash in it. -/
theorem beforeComment_append {text : Text} (free : '/' ∉ text) (rest : Text) :
    beforeComment (text ++ rest) = text ++ beforeComment rest := by
  induction text with
  | nil => rfl
  | cons character others hypothesis =>
    rw [List.mem_cons, not_or] at free
    rw [List.cons_append, beforeComment, hypothesis free.2, List.cons_append]
    rintro after rfl
    exact absurd rfl free.1

/-- A text without a slash has no comment. -/
theorem beforeComment_of_not_mem {text : Text} (free : '/' ∉ text) :
    beforeComment text = text := by
  have whole := beforeComment_append free []
  rwa [List.append_nil, beforeComment, List.append_nil] at whole

/-- A comment that starts before a character goes on after it. If there is none, the character is
not in a comment, unless it is a slash. -/
theorem beforeComment_concat {mark : Char} (other : mark ≠ '/') (text : Text) :
    beforeComment (text ++ [mark]) = beforeComment text ∨
      beforeComment text = text ∧ beforeComment (text ++ [mark]) = text ++ [mark] := by
  induction text with
  | nil =>
    refine .inr ⟨rfl, ?_⟩
    exact beforeComment_of_not_mem (mt List.mem_singleton.mp other.symm)
  | cons character rest hypothesis =>
    by_cases comment : ∃ after, character = '/' ∧ rest = '/' :: after
    · obtain ⟨after, rfl, rfl⟩ := comment
      exact .inl rfl
    · have here : beforeComment (character :: rest) = character :: beforeComment rest := by
        rw [beforeComment]
        rintro after rfl rfl
        exact comment ⟨after, rfl, rfl⟩
      have longer : beforeComment (character :: rest ++ [mark]) =
          character :: beforeComment (rest ++ [mark]) := by
        rw [List.cons_append, beforeComment]
        rintro after rfl same
        cases rest with
        | nil => exact other (List.cons.inj same).1
        | cons second others =>
          cases same
          exact comment ⟨others, rfl, rfl⟩
      rw [here, longer]
      rcases hypothesis with same | ⟨before, same⟩
      · exact .inl (by rw [same])
      · exact .inr (by rw [before, same, List.cons_append]; exact ⟨rfl, rfl⟩)

end Text

namespace AssemblyLine

/-- The statement that a line is to be read as; a comment is none. -/
def statement? : AssemblyLine → Option Statement
  | load operand => some (.load operand.render.toList)
  | compute text => some (.compute text.toList)
  | label name => some (.label name)
  | comment _ => none

/-- A line that is read as it is written. -/
def Clean : AssemblyLine → Prop
  | load operand => IsPlain operand.render
  | compute text => IsPlain text ∧ text.toList ≠ [] ∧ text.toList.head? ≠ some '(' ∧
      text.toList.head? ≠ some '@'
  | label name => IsPlain name
  | comment text => '\n' ∉ text.toList

/-- The code of a clean line is what is written, unless it is a comment. -/
theorem code_of_clean {line : AssemblyLine} (clean : line.Clean) :
    (Text.beforeComment line.render.toList).trim =
      if line.statement?.isSome then line.render.toList else [] := by
  have whole : ∀ text : Text, (∀ character ∈ text, isWordCharacter character) →
      (Text.beforeComment text).trim = text := by
    intro text plain
    rw [Text.beforeComment_of_not_mem, Text.trim_of_forall_not_isBlank]
    · intro character member
      have both := plain character member
      rw [isWordCharacter, Bool.and_eq_true] at both
      exact both.1
    · intro slash
      exact absurd (plain _ slash) (by decide)
  cases line with
  | load operand =>
    rw [statement?, Option.isSome_some, if_pos rfl]
    exact whole _ (IsPlain.append (by decide) clean)
  | compute text => exact whole _ clean.1
  | label name =>
    rw [statement?, Option.isSome_some, if_pos rfl]
    exact whole _ ((IsPlain.append (by decide) clean).append (by decide))
  | comment text =>
    have marked : (comment text).render.toList = '/' :: '/' :: ' ' :: text.toList := by
      simp [render]
    rw [marked]
    rfl

/-- The statement on the code of a clean line is the one that was written. -/
theorem statement_of_clean {line : AssemblyLine} (clean : line.Clean) {statement : Statement}
    (written : line.statement? = some statement) (number : Nat) :
    CodeLine.statement ⟨number, line.render.toList⟩ = statement := by
  cases line with
  | load operand =>
    cases written
    have code : (load operand).render.toList = '@' :: operand.render.toList := by simp [render]
    rw [code]
    rfl
  | compute text =>
    cases written
    obtain ⟨-, -, bracket, mark⟩ := clean
    change CodeLine.statement ⟨number, text.toList⟩ = _
    rw [CodeLine.statement]
    split
    · rename_i same
      exact absurd (congrArg List.head? same) bracket
    · rename_i same
      exact absurd (congrArg List.head? same) mark
    · rfl
  | label name =>
    cases written
    have code : (label name).render.toList = '(' :: (name.toList ++ [')']) := by simp [render]
    rw [code]
    simp [CodeLine.statement]
  | comment text => cases written

/-- A clean line is not empty. -/
theorem render_ne_nil {line : AssemblyLine} (clean : line.Clean) : line.render.toList ≠ [] := by
  cases line with
  | compute text => exact clean.2.1
  | load _ | label _ | comment _ => simp [render]

/-- A clean line is one line. -/
theorem not_mem_render {line : AssemblyLine} (clean : line.Clean) : '\n' ∉ line.render.toList := by
  have apart : ∀ {text : String}, IsPlain text → '\n' ∉ text.toList := by
    intro text plain member
    exact absurd (plain _ member) (by decide)
  cases line with
  | load operand => exact apart (IsPlain.append (by decide) clean)
  | compute text => exact apart clean.1
  | label name => exact apart ((IsPlain.append (by decide) clean).append (by decide))
  | comment text =>
    simp only [render, String.toList_append, List.mem_append, not_or]
    exact ⟨by decide, clean⟩

/-- Clean lines stand on lines of their own. -/
theorem lines_textOf {lines : List AssemblyLine} (clean : ∀ line ∈ lines, line.Clean) :
    (textOf lines).lines = lines.map (fun line => line.render.toList) ++ [[]] := by
  induction lines with
  | nil => rfl
  | cons line rest hypothesis =>
    have split : textOf (line :: rest) = line.render.toList ++ '\n' :: textOf rest := by
      simp [textOf, renderLine]
    have tail := hypothesis fun other member => clean other (List.mem_cons_of_mem _ member)
    rw [split, Text.lines, List.splitOn_append_cons_self_of_not_mem
      (not_mem_render (clean line List.mem_cons_self))]
    rw [Text.lines] at tail
    rw [tail, List.map_cons, List.cons_append]

end AssemblyLine

/-- The statements that the assembler finds in the text of clean lines are those that the lines
stand for. -/
theorem map_statement_ofText {lines : List AssemblyLine} (clean : ∀ line ∈ lines, line.Clean) :
    (CodeLine.ofText (AssemblyLine.textOf lines)).map CodeLine.statement =
      lines.filterMap AssemblyLine.statement? := by
  rw [CodeLine.ofText, AssemblyLine.lines_textOf clean, CodeLine.ofLines]
  -- The numbers of the lines do not matter for their statements.
  generalize 0 = start
  induction lines generalizing start with
  | nil => rfl
  | cons line rest hypothesis =>
    have here := clean line List.mem_cons_self
    have tail := hypothesis (fun other member => clean other (List.mem_cons_of_mem _ member))
      (start + 1)
    rw [List.map_cons, List.cons_append, List.zipIdx_cons, List.filterMap_cons,
      List.filterMap_cons]
    cases written : line.statement? with
    | none =>
      have empty := AssemblyLine.code_of_clean here
      rw [written, Option.isSome_none, if_neg (by decide)] at empty
      simp only [empty, ↓reduceIte]
      exact tail
    | some statement =>
      have code := AssemblyLine.code_of_clean here
      rw [written, Option.isSome_some, if_pos rfl] at code
      simp only [code, AssemblyLine.render_ne_nil here, ↓reduceIte, List.map_cons]
      rw [AssemblyLine.statement_of_clean here written, tail]

end HackToolchain
