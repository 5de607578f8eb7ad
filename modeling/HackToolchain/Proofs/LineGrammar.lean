import HackToolchain.Proofs.Blocks
import HackToolchain.Proofs.LineReading
import Mathlib.Data.List.Forall2

/-! # The grammar of lines

What the reader accepts, said without tokens. The words of a line form one of nine shapes
(`HasShape`), or something is wrong with them (`WordsFault`). A line is good when no slash comes
before its comment and its words, if it has any, form a shape (`Piece.IsGood`); of all that is wrong
with another line one thing is blamed (`Piece.Fault`). The reader reads exactly the texts whose
lines are good, and blames the first line that is not (`readAll_grammar`).
-/

namespace HackToolchain

/-! ## Numbers -/

/-- Digits stand for the value of a word. -/
def IsNumeral (digits : Text) (value : Word) : Prop :=
  (∀ digit ∈ digits, digit.isDigit) ∧ Nat.ofDigitChars 10 digits 0 = value.toNat

/-- What is wrong with a number: a character that is no digit, or digits that stand for no word,
whichever comes first. -/
inductive NumberFault (word : Piece) : CommandFault → Prop where
  | invalidDigit {digits rest : Text} {character : Char}
      (parts : word.text = digits ++ character :: rest) (all : ∀ digit ∈ digits, digit.isDigit)
      (fits : Nat.ofDigitChars 10 digits 0 ≤ Word.maxValue) (wrong : ¬character.isDigit) :
      NumberFault word ⟨.invalidDigit, Span.ofText (word.offset + digits.size) [character]⟩
  | literalRange {digits rest : Text} (parts : word.text = digits ++ rest)
      (all : ∀ digit ∈ digits, digit.isDigit)
      (large : Word.maxValue < Nat.ofDigitChars 10 digits 0) :
      NumberFault word ⟨.literalRange, word.span⟩

/-- A word is a number, or there is a fault in it. -/
theorem exists_number (word : Piece) :
    (∃ value, IsNumeral word.text value) ∨ ∃ fault, NumberFault word fault := by
  have parts := List.takeWhile_append_dropWhile (p := Char.isDigit) (l := word.text)
  have all : ∀ digit ∈ word.text.takeWhile Char.isDigit, digit.isDigit :=
    fun _ member => List.mem_takeWhile_imp member
  by_cases large : Word.maxValue < Nat.ofDigitChars 10 (word.text.takeWhile Char.isDigit) 0
  · exact .inr ⟨_, .literalRange parts.symm all large⟩
  · cases rest : word.text.dropWhile Char.isDigit with
    | nil =>
      rw [rest, List.append_nil] at parts
      rw [parts] at all large
      refine .inl ⟨BitVec.ofNat 16 (Nat.ofDigitChars 10 word.text 0), all, ?_⟩
      rw [BitVec.toNat_ofNat, Nat.mod_eq_of_lt]
      simp only [Word.maxValue] at large
      omega
    | cons character others =>
      have stop := List.head?_dropWhile_not Char.isDigit word.text
      rw [rest] at parts stop
      exact .inr ⟨_, .invalidDigit parts.symm all (Nat.le_of_not_lt large)
        (ne_true_of_eq_false stop)⟩

namespace Numeral

/-- A digit before others counts ten times for each of them. -/
theorem ofDigitChars_cons (digit : Char) (rest : Text) (value : Nat) :
    Nat.ofDigitChars 10 (digit :: rest) value =
      Nat.ofDigitChars 10 rest (10 * value + digitValue digit) :=
  Nat.ofDigitChars_cons

/-- Digits do not make a number smaller. -/
theorem le_ofDigitChars (digits : Text) (value : Nat) :
    value ≤ Nat.ofDigitChars 10 digits value := by
  induction digits generalizing value with
  | nil => exact Nat.le_refl _
  | cons digit rest hypothesis =>
    rw [ofDigitChars_cons]
    exact Nat.le_trans (by omega) (hypothesis _)

/-- Digits that fit are read. -/
theorem readFrom_append {digits : Text} (all : ∀ digit ∈ digits, digit.isDigit) {value : Nat}
    (fits : Nat.ofDigitChars 10 digits value ≤ Word.maxValue) (whole : Span) (offset : Nat)
    (rest : Text) :
    readFrom whole offset value (digits ++ rest) =
      readFrom whole (offset + digits.size) (Nat.ofDigitChars 10 digits value) rest := by
  induction digits generalizing offset value with
  | nil => rfl
  | cons digit others hypothesis =>
    rw [List.forall_mem_cons] at all
    rw [ofDigitChars_cons] at fits ⊢
    have next : 10 * value + digitValue digit ≤ Word.maxValue :=
      Nat.le_trans (le_ofDigitChars others _) fits
    rw [List.cons_append, readFrom, if_pos all.1]
    simp only [if_pos next]
    rw [hypothesis all.2 fits, Text.size_cons, Nat.add_assoc]

/-- Digits that do not fit are blamed as a whole. -/
theorem readFrom_large {digits : Text} (all : ∀ digit ∈ digits, digit.isDigit) {value : Nat}
    (small : value ≤ Word.maxValue) (large : Word.maxValue < Nat.ofDigitChars 10 digits value)
    (whole : Span) (offset : Nat) (rest : Text) :
    readFrom whole offset value (digits ++ rest) = .error ⟨.literalRange, whole⟩ := by
  induction digits generalizing offset value with
  | nil => exact absurd small (Nat.not_le_of_lt large)
  | cons digit others hypothesis =>
    rw [List.forall_mem_cons] at all
    rw [ofDigitChars_cons] at large
    rw [List.cons_append, readFrom, if_pos all.1]
    by_cases next : 10 * value + digitValue digit ≤ Word.maxValue
    · simp only [if_pos next]
      exact hypothesis all.2 next large _
    · simp only [if_neg next]

/-- A number is read as its value. -/
theorem read_of_isNumeral {word : Piece} {value : Word} (number : IsNumeral word.text value) :
    read word.token = .ok value := by
  have fits : Nat.ofDigitChars 10 word.text 0 ≤ Word.maxValue := by
    rw [number.2]
    exact Nat.le_of_lt_succ value.isLt
  have found := readFrom_append number.1 fits word.span word.offset []
  rw [List.append_nil, readFrom, number.2] at found
  exact (congrArg (Except.map (BitVec.ofNat 16)) found).trans
    (congrArg Except.ok (BitVec.ofNat_toNat 16 value))

/-- A fault in a number is reported. -/
theorem read_of_numberFault {word : Piece} {fault : CommandFault}
    (wrong : NumberFault word fault) : read word.token = .error fault := by
  refine congrArg (Except.map (BitVec.ofNat 16))
    (show readFrom word.span word.offset 0 word.text = .error fault from ?_)
  cases wrong with
  | invalidDigit parts all fits wrong =>
    rw [parts, readFrom_append all fits, readFrom, if_neg wrong]
  | literalRange parts all large =>
    rw [parts, readFrom_large all (Nat.zero_le _) large]

end Numeral

/-! ## Shapes -/

/-- The characters of a word, as a name. -/
def Piece.name (word : Piece) : String :=
  String.ofList word.text

namespace Command

/-- The nine shapes that the words of a command can have. -/
inductive HasShape : List Piece → Command → Prop where
  | operator {keyword : Piece} {op : Operator} (named : keyword.name = op.name) :
      HasShape [keyword] (.operator op)
  | push {keyword segment index : Piece} {known : Segment} {value : Word}
      (named : keyword.name = "push") (found : segment.name = known.name)
      (number : IsNumeral index.text value) : HasShape [keyword, segment, index] (.push known value)
  | pop {keyword segment index : Piece} {known : Segment} {value : Word}
      (named : keyword.name = "pop") (found : segment.name = known.name)
      (number : IsNumeral index.text value) : HasShape [keyword, segment, index] (.pop known value)
  | label {keyword name : Piece} (named : keyword.name = "label") :
      HasShape [keyword, name] (.label name.name)
  | goto {keyword name : Piece} (named : keyword.name = "goto") :
      HasShape [keyword, name] (.goto name.name)
  | ifGoto {keyword name : Piece} (named : keyword.name = "if-goto") :
      HasShape [keyword, name] (.ifGoto name.name)
  | function {keyword name locals : Piece} {value : Word} (named : keyword.name = "function")
      (number : IsNumeral locals.text value) :
      HasShape [keyword, name, locals] (.function name.name value)
  | call {keyword name arguments : Piece} {value : Word} (named : keyword.name = "call")
      (number : IsNumeral arguments.text value) :
      HasShape [keyword, name, arguments] (.call name.name value)
  | return {keyword : Piece} (named : keyword.name = "return") : HasShape [keyword] .return

/-- What is wrong with the words of a line. The keyword is looked at first, then the number of the
arguments, and then the arguments from left to right. -/
inductive WordsFault : List Piece → CommandFault → Prop where
  | unknownCommand {keyword : Piece} {arguments : List Piece}
      (unknown : ∀ known : Keyword, keyword.name ≠ known.name) :
      WordsFault (keyword :: arguments) ⟨.unknownCommand, keyword.span⟩
  | argumentCount {keyword : Piece} {arguments : List Piece} {known : Keyword}
      (named : keyword.name = known.name) (count : arguments.length ≠ known.arity) :
      WordsFault (keyword :: arguments)
        ⟨.argumentCount known.arity arguments.length, keyword.span⟩
  | unknownSegment {keyword segment index : Piece}
      (named : keyword.name = "push" ∨ keyword.name = "pop")
      (unknown : ∀ known : Segment, segment.name ≠ known.name) :
      WordsFault [keyword, segment, index] ⟨.unknownSegment, segment.span⟩
  | index {keyword segment index : Piece} {known : Segment} {fault : CommandFault}
      (named : keyword.name = "push" ∨ keyword.name = "pop") (found : segment.name = known.name)
      (wrong : NumberFault index fault) : WordsFault [keyword, segment, index] fault
  | count {keyword name count : Piece} {fault : CommandFault}
      (named : keyword.name = "function" ∨ keyword.name = "call")
      (wrong : NumberFault count fault) : WordsFault [keyword, name, count] fault

/-- What is made of words. -/
def classifyWords (keyword : Piece) (arguments : List Piece) : Except CommandFault Command :=
  classify keyword.token (arguments.map Piece.token)

section

variable {keyword : Piece} {arguments : List Piece}

/-- A line that starts with a keyword is read with its arguments. -/
theorem classifyWords_of_named {known : Keyword} (named : keyword.name = known.name) :
    classifyWords keyword arguments =
      readArguments keyword.token known (arguments.map Piece.token) := by
  have found : Keyword.ofName? keyword.token.name = some known :=
    Keyword.ofName?_eq_some_iff.mpr named.symm
  rw [classifyWords, classify, found]

/-- A segment is read by its name. -/
theorem readSegment_of_name {segment : Piece} {known : Segment}
    (found : segment.name = known.name) : readSegment segment.token = .ok known := by
  have same : Segment.ofName? segment.token.name = some known :=
    Segment.ofName?_eq_some_iff.mpr found.symm
  rw [readSegment, same]

/-- Any other name of a segment is reported. -/
theorem readSegment_of_ne {segment : Piece}
    (unknown : ∀ known : Segment, segment.name ≠ known.name) :
    readSegment segment.token = .error ⟨.unknownSegment, segment.span⟩ := by
  have none : Segment.ofName? segment.token.name = none := by
    cases found : Segment.ofName? segment.token.name with
    | none => rfl
    | some known => exact absurd (Segment.ofName?_eq_some_iff.mp found).symm (unknown known)
  rw [readSegment, none]
  rfl

/-- Words that form a shape are read as its command. -/
theorem classifyWords_of_hasShape {command : Command}
    (shape : HasShape (keyword :: arguments) command) :
    classifyWords keyword arguments = .ok command := by
  cases shape with
  | @operator _ op named =>
    rw [classifyWords_of_named (show keyword.name = (Keyword.operator op).name from named)]
    rfl
  | push named found number =>
    rw [classifyWords_of_named (show keyword.name = Keyword.push.name from named)]
    change (do return push (← readSegment _) (← Numeral.read _)) = _
    rw [readSegment_of_name found, Numeral.read_of_isNumeral number]
    rfl
  | pop named found number =>
    rw [classifyWords_of_named (show keyword.name = Keyword.pop.name from named)]
    change (do return pop (← readSegment _) (← Numeral.read _)) = _
    rw [readSegment_of_name found, Numeral.read_of_isNumeral number]
    rfl
  | label named =>
    rw [classifyWords_of_named (show keyword.name = Keyword.label.name from named)]
    rfl
  | goto named =>
    rw [classifyWords_of_named (show keyword.name = Keyword.goto.name from named)]
    rfl
  | ifGoto named =>
    rw [classifyWords_of_named (show keyword.name = Keyword.ifGoto.name from named)]
    rfl
  | function named number =>
    rw [classifyWords_of_named (show keyword.name = Keyword.function.name from named)]
    change (do return function _ (← Numeral.read _)) = _
    rw [Numeral.read_of_isNumeral number]
    rfl
  | call named number =>
    rw [classifyWords_of_named (show keyword.name = Keyword.call.name from named)]
    change (do return call _ (← Numeral.read _)) = _
    rw [Numeral.read_of_isNumeral number]
    rfl
  | «return» named =>
    rw [classifyWords_of_named (show keyword.name = Keyword.return.name from named)]
    rfl

/-- A wrong number of arguments is reported. -/
theorem readArguments_of_length_ne {first : Token} {known : Keyword} {tokens : List Token}
    (count : tokens.length ≠ known.arity) : readArguments first known tokens =
      .error ⟨.argumentCount known.arity tokens.length, first.span⟩ := by
  unfold readArguments
  split
  case h_10 => rfl
  all_goals exact absurd rfl count

/-- A push and a pop are read in the same way. -/
theorem classifyWords_segmented (named : keyword.name = "push" ∨ keyword.name = "pop")
    (segment index : Piece) : ∃ build : Segment → Word → Command,
      classifyWords keyword [segment, index] =
        do return build (← readSegment segment.token) (← Numeral.read index.token) := by
  rcases named with named | named
  · exact ⟨push, classifyWords_of_named (show keyword.name = Keyword.push.name from named)⟩
  · exact ⟨pop, classifyWords_of_named (show keyword.name = Keyword.pop.name from named)⟩

/-- A function and a call are read in the same way. -/
theorem classifyWords_counted (named : keyword.name = "function" ∨ keyword.name = "call")
    (name count : Piece) : ∃ build : Word → Command,
      classifyWords keyword [name, count] = do return build (← Numeral.read count.token) := by
  rcases named with named | named
  · exact ⟨function name.name,
      classifyWords_of_named (show keyword.name = Keyword.function.name from named)⟩
  · exact ⟨call name.name,
      classifyWords_of_named (show keyword.name = Keyword.call.name from named)⟩

/-- Words with a fault are blamed for it. -/
theorem classifyWords_of_wordsFault {fault : CommandFault}
    (wrong : WordsFault (keyword :: arguments) fault) :
    classifyWords keyword arguments = .error fault := by
  cases wrong with
  | unknownCommand unknown =>
    have none : Keyword.ofName? keyword.token.name = none := by
      cases found : Keyword.ofName? keyword.token.name with
      | none => rfl
      | some known => exact absurd (Keyword.ofName?_eq_some_iff.mp found).symm (unknown known)
    rw [classifyWords, classify, none]
    rfl
  | argumentCount named count =>
    have length : (arguments.map Piece.token).length = arguments.length := List.length_map _
    rw [classifyWords_of_named named, readArguments_of_length_ne (by rwa [length]), length]
    rfl
  | @unknownSegment _ segment index named unknown =>
    obtain ⟨build, same⟩ := classifyWords_segmented named segment index
    rw [same, readSegment_of_ne unknown]
    rfl
  | @index _ segment index _ _ named found wrong =>
    obtain ⟨build, same⟩ := classifyWords_segmented named segment index
    rw [same, readSegment_of_name found, Numeral.read_of_numberFault wrong]
    rfl
  | @count _ name count _ named wrong =>
    obtain ⟨build, same⟩ := classifyWords_counted named name count
    rw [same, Numeral.read_of_numberFault wrong]
    rfl

/-- A push and a pop have a shape, or a fault in one of their arguments. -/
theorem exists_segmented {segment index : Piece}
    (named : keyword.name = "push" ∨ keyword.name = "pop") :
    (∃ command, HasShape [keyword, segment, index] command) ∨
      ∃ fault, WordsFault [keyword, segment, index] fault := by
  cases found : Segment.ofName? segment.name with
  | none =>
    refine .inr ⟨_, .unknownSegment named ?_⟩
    intro known same
    rw [same, Segment.ofName?_name] at found
    cases found
  | some known =>
    have found := (Segment.ofName?_eq_some_iff.mp found).symm
    rcases exists_number index with ⟨value, number⟩ | ⟨fault, wrong⟩
    · rcases named with named | named
      · exact .inl ⟨_, .push named found number⟩
      · exact .inl ⟨_, .pop named found number⟩
    · exact .inr ⟨fault, .index named found wrong⟩

/-- A function and a call have a shape, or a fault in their number. -/
theorem exists_counted {name count : Piece}
    (named : keyword.name = "function" ∨ keyword.name = "call") :
    (∃ command, HasShape [keyword, name, count] command) ∨
      ∃ fault, WordsFault [keyword, name, count] fault := by
  rcases exists_number count with ⟨value, number⟩ | ⟨fault, wrong⟩
  · rcases named with named | named
    · exact .inl ⟨_, .function named number⟩
    · exact .inl ⟨_, .call named number⟩
  · exact .inr ⟨fault, .count named wrong⟩

/-- The words of a line form a shape, or something is wrong with them. -/
theorem exists_shape (keyword : Piece) (arguments : List Piece) :
    (∃ command, HasShape (keyword :: arguments) command) ∨
      ∃ fault, WordsFault (keyword :: arguments) fault := by
  cases named : Keyword.ofName? keyword.name with
  | none =>
    refine .inr ⟨_, .unknownCommand ?_⟩
    intro known same
    rw [same, Keyword.ofName?_name] at named
    cases named
  | some known =>
    have named := (Keyword.ofName?_eq_some_iff.mp named).symm
    by_cases count : arguments.length = known.arity
    · cases known with
      | operator op =>
        rw [List.length_eq_zero_iff.mp count]
        exact .inl ⟨_, .operator named⟩
      | «return» =>
        rw [List.length_eq_zero_iff.mp count]
        exact .inl ⟨_, .return named⟩
      | label =>
        obtain ⟨name, rfl⟩ := List.length_eq_one_iff.mp count
        exact .inl ⟨_, .label named⟩
      | goto =>
        obtain ⟨name, rfl⟩ := List.length_eq_one_iff.mp count
        exact .inl ⟨_, .goto named⟩
      | ifGoto =>
        obtain ⟨name, rfl⟩ := List.length_eq_one_iff.mp count
        exact .inl ⟨_, .ifGoto named⟩
      | push =>
        obtain ⟨segment, index, rfl⟩ := List.length_eq_two.mp count
        exact exists_segmented (.inl named)
      | pop =>
        obtain ⟨segment, index, rfl⟩ := List.length_eq_two.mp count
        exact exists_segmented (.inr named)
      | function =>
        obtain ⟨name, locals, rfl⟩ := List.length_eq_two.mp count
        exact exists_counted (.inl named)
      | call =>
        obtain ⟨name, number, rfl⟩ := List.length_eq_two.mp count
        exact exists_counted (.inr named)
    · exact .inr ⟨_, .argumentCount named count⟩

end

end Command

/-! ## Lines -/

namespace Piece

/-- A line that can be read. -/
structure IsGood (line : Piece) : Prop where
  free : '/' ∉ line.code
  shape : line.words ≠ [] → ∃ command, Command.HasShape line.words command

/-- What is wrong with a line. A slash before the comment is blamed before any word is. -/
inductive Fault (line : Piece) : CommandFault → Prop where
  | slash {before after : Text} (parts : line.code = before ++ '/' :: after)
      (first : '/' ∉ before) :
      Fault line ⟨.unexpectedCharacter, Span.ofText (line.offset + before.size) ['/']⟩
  | words {fault : CommandFault} (free : '/' ∉ line.code)
      (wrong : Command.WordsFault line.words fault) : Fault line fault

/-- A line stands for a command that goes from the start of its first word to the end of its
last. -/
structure Denotes (line : Piece) (located : LocatedCommand) : Prop where
  shape : Command.HasShape line.words located.command
  start : ∃ first, line.words.head? = some first ∧ located.span.start = first.span.start
  stop : ∃ last, line.words.getLast? = some last ∧ located.span.stop = last.span.stop

/-- A line is good, or there is a fault in it. -/
theorem isGood_or_fault (line : Piece) : line.IsGood ∨ ∃ fault, line.Fault fault := by
  by_cases slash : '/' ∈ line.code
  · obtain ⟨before, after, parts, first⟩ := List.eq_append_cons_of_mem slash
    exact .inr ⟨_, .slash parts first⟩
  · cases words : line.words with
    | nil => exact .inl ⟨slash, fun some => absurd words some⟩
    | cons keyword arguments =>
      rcases Command.exists_shape keyword arguments with ⟨command, shape⟩ | ⟨fault, wrong⟩
      · exact .inl ⟨slash, fun _ => ⟨command, by rwa [words]⟩⟩
      · exact .inr ⟨fault, .words slash (by rwa [words])⟩

/-- Words that come one after another are covered from the first through the last. -/
theorem foldl_cover {rest : List Piece} {covered : Span} (order : covered.start ≤ covered.stop)
    (later : ∀ word ∈ rest, covered.stop ≤ word.offset)
    (ordered : rest.Pairwise fun first second => first.span.stop ≤ second.offset) :
    (rest.map token).foldl (fun covered word => covered.cover word.span) covered =
      ⟨covered.start, (rest.getLast?.map fun last => last.span.stop).getD covered.stop⟩ := by
  induction rest generalizing covered with
  | nil => rfl
  | cons word others hypothesis =>
    rw [List.forall_mem_cons] at later
    rw [List.pairwise_cons] at ordered
    have bound : word.span.stop = word.offset + word.text.size := rfl
    have step : covered.cover word.token.span = ⟨covered.start, word.span.stop⟩ := by
      change Span.mk (min covered.start word.offset) (max covered.stop word.span.stop) = _
      rw [Nat.min_eq_left (by omega), Nat.max_eq_right (by omega)]
    have grown : (⟨covered.start, word.span.stop⟩ : Span).start ≤ word.span.stop := by
      change covered.start ≤ word.span.stop
      omega
    rw [List.map_cons, List.foldl_cons, step, hypothesis grown ordered.1 ordered.2]
    cases others with
    | nil => rfl
    | cons next more => rfl

/-- Words that are read are read with the span of all of them. -/
theorem readWords_eq {keyword : Piece} {arguments : List Piece}
    (ordered : (keyword :: arguments).Pairwise fun first second =>
      first.span.stop ≤ second.offset) :
    ∃ span : Span, span.start = keyword.span.start ∧
      (∃ last, (keyword :: arguments).getLast? = some last ∧ span.stop = last.span.stop) ∧
      Command.readWords ((keyword :: arguments).map token) =
        [(Command.classifyWords keyword arguments).map (LocatedCommand.mk span)] := by
  rw [List.pairwise_cons] at ordered
  have covered := foldl_cover (Nat.le_add_right _ _) ordered.1 ordered.2
  refine ⟨⟨keyword.span.start,
    (arguments.getLast?.map fun last => last.span.stop).getD keyword.span.stop⟩, rfl, ?_, ?_⟩
  · cases found : arguments.getLast? with
    | none =>
      rw [List.getLast?_eq_none_iff] at found
      subst found
      exact ⟨keyword, rfl, rfl⟩
    | some last =>
      refine ⟨last, ?_, rfl⟩
      rw [List.getLast?_cons, found]
      rfl
  · rw [List.map_cons, Command.readWords, ← covered]
    rfl

/-- The words of a line come one after another. -/
theorem pairwise_words (line : Piece) :
    line.words.Pairwise fun first second => first.span.stop ≤ second.offset :=
  (Text.pairwise_split line.offset line.code).2.filter _

section

variable {line : Piece}

/-- A line with words is read as the command that it stands for. -/
theorem lineReadings_of_denotes (single : '\n' ∉ line.text) (free : '/' ∉ line.code)
    {located : LocatedCommand} (denotes : line.Denotes located) :
    Command.lineReadings line = [.ok located] := by
  obtain ⟨keyword, head, start⟩ := denotes.start
  obtain ⟨arguments, words⟩ := List.head?_eq_some_iff.mp head
  obtain ⟨last, final, stop⟩ := denotes.stop
  have ordered := line.pairwise_words
  have shape := denotes.shape
  rw [words] at ordered shape final
  obtain ⟨span, first, ⟨other, same, ends⟩, read⟩ := readWords_eq ordered
  cases Option.some.inj (final.symm.trans same)
  obtain ⟨⟨low, high⟩, command⟩ := located
  obtain ⟨lower, upper⟩ := span
  cases start.trans first.symm
  cases stop.trans ends.symm
  rw [Command.lineReadings_of_free single free, words, read,
    Command.classifyWords_of_hasShape shape]
  rfl

/-- A good line that is not empty denotes a command. -/
theorem IsGood.exists_denotes (good : line.IsGood) (some : line.words ≠ []) :
    ∃ located, line.Denotes located := by
  obtain ⟨command, shape⟩ := good.shape some
  have first := List.head?_eq_some_head some
  have last := List.getLast?_eq_some_getLast some
  exact ⟨⟨⟨(line.words.head some).span.start, (line.words.getLast some).span.stop⟩, command⟩,
    shape, ⟨_, first, rfl⟩, ⟨_, last, rfl⟩⟩

/-- A line with a fault is blamed for it. -/
theorem lineReadings_of_fault (single : '\n' ∉ line.text) {fault : CommandFault}
    (wrong : line.Fault fault) : ∃ rest, Command.lineReadings line = .error fault :: rest := by
  cases wrong with
  | @slash before after parts first =>
    have slash : '/' ∈ Text.beforeComment line.text := by
      change '/' ∈ line.code
      rw [parts]
      exact List.mem_append_right _ List.mem_cons_self
    have blamed := @Command.readTokens_slash line.offset _ single slash []
    have cut : (Text.beforeComment line.text).takeWhile (· != '/') = before := by
      change line.code.takeWhile _ = before
      rw [parts, (takeWhile_append_cons (by decide)).1, List.takeWhile_eq_self_iff]
      intro other member
      exact bne_iff_ne.mpr fun same => first (same ▸ member)
    rw [cut] at blamed
    exact blamed
  | words free wrong =>
    rw [Command.lineReadings_of_free single free]
    cases words : line.words with
    | nil =>
      rw [words] at wrong
      cases wrong
    | cons keyword arguments =>
      have ordered := line.pairwise_words
      rw [words] at wrong ordered
      obtain ⟨span, -, -, read⟩ := readWords_eq ordered
      rw [read, Command.classifyWords_of_wordsFault wrong]
      exact ⟨[], rfl⟩

end

end Piece

/-! ## Texts -/

/-- Whether a line has words. -/
def Piece.isFull (line : Piece) : Bool :=
  !line.words.isEmpty

namespace Command

/-- A line without words gives no reading. -/
theorem lineReadings_of_not_isFull {line : Piece} (single : '\n' ∉ line.text)
    (free : '/' ∉ line.code) (empty : ¬line.isFull) : lineReadings line = [] := by
  have none : line.words = [] := by simpa [Piece.isFull] using empty
  rw [Command.lineReadings_of_free single free, none]
  rfl

variable {lines : List Piece}

/-- Good lines are read as the commands that they stand for. -/
theorem flatMap_lineReadings (single : ∀ line ∈ lines, '\n' ∉ line.text)
    (good : ∀ line ∈ lines, line.IsGood) {commands : List LocatedCommand}
    (denotes : List.Forall₂ Piece.Denotes (lines.filter Piece.isFull) commands) :
    lines.flatMap lineReadings = commands.map Except.ok := by
  induction lines generalizing commands with
  | nil =>
    cases denotes
    rfl
  | cons line others hypothesis =>
    rw [List.forall_mem_cons] at single good
    rw [List.flatMap_cons]
    by_cases full : line.isFull
    · rw [List.filter_cons_of_pos full] at denotes
      cases denotes with
      | cons one rest =>
        rw [Piece.lineReadings_of_denotes single.1 good.1.free one,
          hypothesis single.2 good.2 rest]
        rfl
    · rw [List.filter_cons_of_neg full] at denotes
      rw [lineReadings_of_not_isFull single.1 good.1.free full,
        hypothesis single.2 good.2 denotes]
      rfl

/-- Good lines denote a command each, but for empty ones. -/
theorem exists_forall₂_denotes (good : ∀ line ∈ lines, line.IsGood) :
    ∃ commands, List.Forall₂ Piece.Denotes (lines.filter Piece.isFull) commands := by
  induction lines with
  | nil => exact ⟨[], .nil⟩
  | cons line others hypothesis =>
    rw [List.forall_mem_cons] at good
    obtain ⟨commands, denotes⟩ := hypothesis good.2
    by_cases full : line.isFull
    · have some : line.words ≠ [] := by simpa [Piece.isFull] using full
      obtain ⟨located, one⟩ := good.1.exists_denotes some
      rw [List.filter_cons_of_pos full]
      exact ⟨located :: commands, .cons one denotes⟩
    · rw [List.filter_cons_of_neg full]
      exact ⟨commands, denotes⟩

/-- All lines are good, or one of them is the first that is not. -/
theorem forall_isGood_or_first (lines : List Piece) : (∀ line ∈ lines, line.IsGood) ∨
    ∃ fault before line after, lines = before ++ line :: after ∧
      (∀ earlier ∈ before, earlier.IsGood) ∧ line.Fault fault := by
  induction lines with
  | nil => exact .inl nofun
  | cons line others hypothesis =>
    rcases line.isGood_or_fault with good | ⟨fault, wrong⟩
    · rcases hypothesis with all | ⟨fault, before, bad, after, rfl, earlier, wrong⟩
      · exact .inl (List.forall_mem_cons.mpr ⟨good, all⟩)
      · exact .inr ⟨fault, line :: before, bad, after, rfl,
          List.forall_mem_cons.mpr ⟨good, earlier⟩, wrong⟩
    · exact .inr ⟨fault, [], line, others, rfl, nofun, wrong⟩

/-- Commands up to a fault are read as the fault. -/
theorem mapM_of_error (commands : List LocatedCommand) (fault : CommandFault)
    (rest : List Reading) :
    (commands.map Except.ok ++ .error fault :: rest : List Reading).mapM id = .error fault := by
  induction commands with
  | nil => rfl
  | cons located others hypothesis =>
    rw [List.map_cons, List.cons_append, List.mapM_cons, hypothesis]
    rfl

/-- The first line that is not good is blamed. -/
theorem readAll_of_fault {text : Text} {before after : List Piece} {line : Piece}
    {fault : CommandFault} (parts : text.locatedLines = before ++ line :: after)
    (earlier : ∀ other ∈ before, other.IsGood) (wrong : line.Fault fault) :
    readAll text = .error fault := by
  have single : ∀ other ∈ before ++ line :: after, '\n' ∉ other.text := by
    intro other member
    rw [← parts] at member
    exact Text.single_of_mem_locatedLines member
  obtain ⟨commands, denotes⟩ := exists_forall₂_denotes earlier
  obtain ⟨rest, blamed⟩ := Piece.lineReadings_of_fault
    (single line (List.mem_append_right _ List.mem_cons_self)) wrong
  have read := flatMap_lineReadings
    (fun other member => single other (List.mem_append_left _ member)) earlier denotes
  rw [readAll, readings_eq, parts, List.flatMap_append, List.flatMap_cons, read, blamed,
    List.cons_append, mapM_of_error]

/-- Good lines are read. -/
theorem readAll_of_isGood {text : Text} (good : ∀ line ∈ text.locatedLines, line.IsGood)
    {commands : List LocatedCommand}
    (denotes : List.Forall₂ Piece.Denotes (text.locatedLines.filter Piece.isFull) commands) :
    readAll text = .ok commands := by
  rw [readAll_eq_ok_iff, readings_eq]
  exact flatMap_lineReadings (fun _ => Text.single_of_mem_locatedLines) good denotes

/-- **The reader accepts the grammar of lines.** A text is read when all of its lines are good, and
then as the commands that its lines with words stand for. Otherwise the first line that is not good
is blamed for what is wrong with it. -/
theorem readAll_grammar (text : Text) :
    ((∃ commands, readAll text = .ok commands) ↔ ∀ line ∈ text.locatedLines, line.IsGood) ∧
      (∀ commands, readAll text = .ok commands ↔ (∀ line ∈ text.locatedLines, line.IsGood) ∧
        List.Forall₂ Piece.Denotes (text.locatedLines.filter Piece.isFull) commands) ∧
      ∀ fault, readAll text = .error fault ↔
        ∃ before line after, text.locatedLines = before ++ line :: after ∧
          (∀ earlier ∈ before, earlier.IsGood) ∧ line.Fault fault := by
  rcases forall_isGood_or_first text.locatedLines with
    good | ⟨fault, before, line, after, parts, earlier, wrong⟩
  · obtain ⟨commands, denotes⟩ := exists_forall₂_denotes good
    have read := readAll_of_isGood good denotes
    refine ⟨⟨fun _ => good, fun _ => ⟨commands, read⟩⟩, ?_, ?_⟩
    · intro others
      constructor
      · intro same
        cases read.symm.trans same
        exact ⟨good, denotes⟩
      · rintro ⟨-, denotes⟩
        exact readAll_of_isGood good denotes
    · intro fault
      constructor
      · intro same
        cases read.symm.trans same
      · rintro ⟨before, line, after, parts, earlier, wrong⟩
        exact readAll_of_fault parts earlier wrong
  · have blamed := readAll_of_fault parts earlier wrong
    have refused : ∀ commands, readAll text ≠ .ok commands := by
      intro commands same
      cases blamed.symm.trans same
    have bad : ¬∀ line ∈ text.locatedLines, line.IsGood := by
      intro good
      obtain ⟨commands, denotes⟩ := exists_forall₂_denotes good
      exact refused commands (readAll_of_isGood good denotes)
    refine ⟨⟨fun ⟨commands, same⟩ => absurd same (refused commands), fun good => absurd good bad⟩,
      ?_, ?_⟩
    · intro commands
      exact ⟨fun same => absurd same (refused commands), fun both => absurd both.1 bad⟩
    · intro other
      constructor
      · intro same
        cases blamed.symm.trans same
        exact ⟨before, line, after, parts, earlier, wrong⟩
      · rintro ⟨before, line, after, parts, earlier, wrong⟩
        exact readAll_of_fault parts earlier wrong

end Command

end HackToolchain
