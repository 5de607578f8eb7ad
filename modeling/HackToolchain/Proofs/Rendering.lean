import HackToolchain.Proofs.Assembling
import HackToolchain.Proofs.ShiftedReadings

/-! # Commands as they are written

A command is written as its words with a space between them, and a program as its commands with a
line break between them (`Command.renderAll`). What is written is read back (`readAll_render`,
`readAll_renderAll`), since the words of a command are the words of the text that it is written as
(`words_intercalate`) and lines are read one by one. How a unit is laid out has no influence on the
code that is made from it: the compiler looks only at its name and its commands
(`compile_of_listing_eq`).
-/

namespace HackToolchain

/-- A name that can be a word of a text. -/
def IsName (name : String) : Prop :=
  name ≠ "" ∧ IsPlain name

instance (name : String) : Decidable (IsName name) :=
  inferInstanceAs (Decidable (_ ∧ _))

/-! ## The words of a command -/

/-- Keywords can be read as names. -/
theorem Keyword.isName_name (keyword : Keyword) : IsName keyword.name := by
  cases keyword with
  | operator op => cases op <;> decide
  | _ => decide

/-- The names of segments can be read as names. -/
theorem Segment.isName_name (segment : Segment) : IsName segment.name := by
  cases segment <;> decide

/-- Numbers can be read as names. -/
theorem Word.isName_decimal (value : Word) : IsName value.decimal := by
  refine ⟨?_, isPlain_repr value.toNat⟩
  intro empty
  have digit := AssemblyLine.head_digit_of_decimal value
  rw [empty] at digit
  cases digit

/-- A word is written as a number with its value. -/
theorem isNumeral_decimal (value : Word) : IsNumeral value.decimal.toList value := by
  refine ⟨?_, AssemblyLine.ofDigitChars_decimal value⟩
  intro digit member
  rw [Word.decimal, Nat.toList_repr] at member
  exact Nat.isDigit_of_mem_toDigits (by decide) (by decide) member

namespace Command

/-- Everything that a command is written with is a word, if its names are. -/
theorem isName_of_mem_arguments {command : Command} (named : ∀ name ∈ command.names, IsName name) :
    ∀ word ∈ command.keyword.name :: command.arguments, IsName word := by
  rw [List.forall_mem_cons]
  refine ⟨Keyword.isName_name _, ?_⟩
  cases command with
  | operator op | «return» => nofun
  | push segment index | pop segment index =>
    exact List.forall_mem_cons.mpr ⟨segment.isName_name,
      List.forall_mem_singleton.mpr (Word.isName_decimal index)⟩
  | label name | goto name | ifGoto name => exact named
  | function name count | call name count =>
    exact List.forall_mem_cons.mpr ⟨named name List.mem_cons_self,
      List.forall_mem_singleton.mpr (Word.isName_decimal count)⟩

theorem eq_singleton_of_map_name {words : List Piece} {first : String}
    (written : words.map Piece.name = [first]) : ∃ word, words = [word] ∧ word.name = first := by
  obtain ⟨word, others, rfl, named, none⟩ := List.map_eq_cons_iff.mp written
  cases List.map_eq_nil_iff.mp none
  exact ⟨word, rfl, named⟩

/-- Two names come from two words. -/
theorem eq_pair_of_map_name {words : List Piece} {first second : String}
    (written : words.map Piece.name = [first, second]) :
    ∃ word other, words = [word, other] ∧ word.name = first ∧ other.name = second := by
  obtain ⟨word, others, rfl, named, rest⟩ := List.map_eq_cons_iff.mp written
  obtain ⟨other, rfl, same⟩ := eq_singleton_of_map_name rest
  exact ⟨word, other, rfl, named, same⟩

/-- The words that a command is written with have its shape. -/
theorem hasShape_of_map_name {command : Command} {words : List Piece}
    (written : words.map Piece.name = command.keyword.name :: command.arguments) :
    HasShape words command := by
  have number : ∀ {word : Piece} {value : Word}, word.name = value.decimal →
      IsNumeral word.text value := by
    intro word value same
    have digits := congrArg String.toList same
    rw [Piece.name, String.toList_ofList] at digits
    rw [digits]
    exact isNumeral_decimal value
  obtain ⟨keyword, arguments, rfl, named, rest⟩ := List.map_eq_cons_iff.mp written
  cases command with
  | operator op =>
    cases List.map_eq_nil_iff.mp rest
    exact .operator named
  | «return» =>
    cases List.map_eq_nil_iff.mp rest
    exact .return named
  | label name =>
    obtain ⟨word, rfl, rfl⟩ := eq_singleton_of_map_name rest
    exact .label named
  | goto name =>
    obtain ⟨word, rfl, rfl⟩ := eq_singleton_of_map_name rest
    exact .goto named
  | ifGoto name =>
    obtain ⟨word, rfl, rfl⟩ := eq_singleton_of_map_name rest
    exact .ifGoto named
  | push segment index =>
    obtain ⟨word, digits, rfl, found, value⟩ := eq_pair_of_map_name rest
    exact .push named found (number value)
  | pop segment index =>
    obtain ⟨word, digits, rfl, found, value⟩ := eq_pair_of_map_name rest
    exact .pop named found (number value)
  | function name count =>
    obtain ⟨word, digits, rfl, rfl, value⟩ := eq_pair_of_map_name rest
    exact .function named (number value)
  | call name count =>
    obtain ⟨word, digits, rfl, rfl, value⟩ := eq_pair_of_map_name rest
    exact .call named (number value)

end Command

/-! ## Words with spaces between them -/

namespace Text

/-- Words with one space between them, from an offset on. -/
def placed : Nat → List String → List Piece
  | _, [] => []
  | offset, name :: rest => ⟨offset, name.toList⟩ :: placed (offset + size name.toList + 1) rest

theorem map_name_placed (offset : Nat) (names : List String) :
    (placed offset names).map Piece.name = names := by
  induction names generalizing offset with
  | nil => rfl
  | cons name rest hypothesis =>
    rw [placed, List.map_cons, hypothesis, Piece.name, String.ofList_toList]

/-- Words that are put together start with the first one and the separator. -/
theorem intercalate_cons_cons (separator first second : String) (rest : List String) :
    (separator.intercalate (first :: second :: rest)).toList = first.toList ++
      (separator.toList ++ (separator.intercalate (second :: rest)).toList) := by
  rw [String.intercalate_cons_cons, String.toList_append, String.toList_append, List.append_assoc]

/-- The words of a text that was put together from words. -/
theorem words_intercalate {names : List String} (named : ∀ name ∈ names, IsName name)
    (offset : Nat) : words offset (" ".intercalate names).toList = placed offset names := by
  induction names generalizing offset with
  | nil => rfl
  | cons name rest hypothesis =>
    rw [List.forall_mem_cons] at named
    obtain ⟨⟨some, plain⟩, others⟩ := named
    have filled : name.toList ≠ [] := by simpa using some
    have visible : ∀ character ∈ name.toList, ¬isBlank character := by
      intro character member
      have both := plain character member
      rw [isWordCharacter, Bool.and_eq_true] at both
      simpa using both.1
    cases rest with
    | nil =>
      rw [String.intercalate_singleton, ← List.append_nil name.toList,
        words_append filled visible (by simp)]
      rfl
    | cons second more =>
      have space : isBlank ' ' := by decide
      have blank : ∀ character ∈ [' '], isBlank character := List.forall_mem_singleton.mpr space
      have next : ∀ character ∈ (" ".toList ++ (" ".intercalate (second :: more)).toList).head?,
          isBlank character := by
        intro character head
        cases head
        exact space
      rw [intercalate_cons_cons, words_append filled visible next]
      change _ :: words _ ([' '] ++ _) = _
      rw [words_blank_append blank, hypothesis others]
      rfl

/-- The last of some words ends where the text ends. -/
theorem getLast?_placed {names : List String} (some : names ≠ []) (offset : Nat) :
    ∃ last, (placed offset names).getLast? = .some last ∧
      last.span.stop = offset + size (" ".intercalate names).toList := by
  induction names generalizing offset with
  | nil => exact absurd rfl some
  | cons name rest hypothesis =>
    cases rest with
    | nil =>
      rw [String.intercalate_singleton]
      exact ⟨_, rfl, rfl⟩
    | cons second more =>
      obtain ⟨last, final, stop⟩ := hypothesis (List.cons_ne_nil _ _)
        (offset + size name.toList + 1)
      refine ⟨last, ?_, ?_⟩
      · rw [placed, placed, List.getLast?_cons_cons]
        exact final
      · rw [stop, intercalate_cons_cons]
        exact (add_size_append_cons rfl offset _ _).symm

end Text

namespace Command

/-- A command is read back from what it is written as, which it takes up as a whole. -/
theorem readings_render {command : Command} (named : ∀ name ∈ command.names, IsName name) :
    readings command.render.toList =
      [.ok ⟨⟨0, Text.size command.render.toList⟩, command⟩] := by
  have words := isName_of_mem_arguments named
  have single : '\n' ∉ command.render.toList :=
    not_mem_intercalate (by decide) fun word member => (words word member).2.not_mem
  have free : '/' ∉ command.render.toList := by
    refine not_mem_intercalate (by decide) ?_
    intro word member slash
    exact absurd ((words word member).2 _ slash) (by decide)
  have code : Piece.code ⟨0, command.render.toList⟩ = command.render.toList :=
    Text.beforeComment_of_not_mem free
  have same : Piece.words ⟨0, command.render.toList⟩ =
      Text.placed 0 (command.keyword.name :: command.arguments) := by
    rw [Piece.words, code]
    exact Text.words_intercalate words 0
  have denotes : Piece.Denotes ⟨0, command.render.toList⟩
      ⟨⟨0, Text.size command.render.toList⟩, command⟩ := by
    refine ⟨?_, ?_, ?_⟩
    · rw [same]
      exact hasShape_of_map_name (Text.map_name_placed 0 _)
    · rw [same]
      exact ⟨_, rfl, rfl⟩
    · obtain ⟨last, final, stop⟩ := Text.getLast?_placed (List.cons_ne_nil _ _) 0
      rw [same]
      refine ⟨last, final, ?_⟩
      rw [stop, Nat.zero_add]
      rfl
  rw [← readingsAt_zero, readingsAt_of_single single]
  exact Piece.lineReadings_of_denotes single (by rwa [code]) denotes

/-- Commands that are read have names that can be read again. -/
theorem isName_of_mem_readAll {text : Text} {commands : List LocatedCommand}
    (read : readAll text = .ok commands) {located : LocatedCommand} (member : located ∈ commands) :
    ∀ name ∈ located.command.names, IsName name := by
  intro name named
  obtain ⟨token, word, rfl⟩ := exists_isWord_of_mem_readAll read member name named
  refine ⟨?_, word.isPlain⟩
  intro empty
  apply word.1
  simpa [Token.name] using empty

/-- Commands, one on each line. -/
def renderAll (commands : List Command) : String :=
  "\n".intercalate (commands.map render)

/-- Commands that are written one on each line are read back. -/
theorem readAll_renderAll {commands : List Command}
    (named : ∀ command ∈ commands, ∀ name ∈ command.names, IsName name) :
    ∃ located, readAll (renderAll commands).toList = .ok located ∧
      located.map LocatedCommand.command = commands := by
  simp only [readAll_eq_ok_iff]
  induction commands with
  | nil => exact ⟨[], (readingsAt_zero []).symm.trans (readingsAt_nil 0), rfl⟩
  | cons command rest hypothesis =>
    rw [List.forall_mem_cons] at named
    have first := readings_render named.1
    cases rest with
    | nil =>
      refine ⟨[⟨⟨0, Text.size command.render.toList⟩, command⟩], ?_, rfl⟩
      rw [renderAll, List.map_singleton, String.intercalate_singleton, first]
      rfl
    | cons second more =>
      obtain ⟨located, read, same⟩ := hypothesis named.2
      rw [renderAll, List.map_cons, List.map_cons, Text.intercalate_cons_cons]
      change ∃ _, readings (_ ++ '\n' :: (renderAll (second :: more)).toList) = _ ∧ _
      rw [readings_append_newline, first, read]
      refine ⟨⟨⟨0, Text.size command.render.toList⟩, command⟩ ::
        located.map (LocatedCommand.shift (Text.size command.render.toList + 1)), ?_, ?_⟩
      · rw [List.map_cons, List.map_map, List.map_map]
        rfl
      · rw [List.map_cons, List.map_map]
        exact congrArg (command :: ·) same

/-- A text with its commands written one on each line, and nothing else. -/
def normalize (text : Text) : Except CommandFault Text :=
  (readAll text).map fun located => (renderAll (located.map LocatedCommand.command)).toList

/-- What was rendered is normal. -/
theorem normalize_renderAll {commands : List Command}
    (named : ∀ command ∈ commands, ∀ name ∈ command.names, IsName name) :
    normalize (renderAll commands).toList = .ok (renderAll commands).toList := by
  obtain ⟨located, read, same⟩ := readAll_renderAll named
  rw [normalize, read, ← same]
  rfl

end Command

/-! ## Layout -/

/-- What the compiler looks at in a unit: its name and its commands, unless its text is at fault. -/
def Source.listing (source : Source) : String × Option (List Command) :=
  (source.name, (Command.readAll source.text.toList).toOption.map
    (List.map LocatedCommand.command))

namespace Source

/-- The parts of a unit follow from its listing. -/
theorem parts_eq_listing (source : Source) :
    source.parts = (source.listing.2.getD []).map (Part.command source.listing.1) := by
  rw [parts, commands, listing]
  cases Command.readAll source.text.toList <;> rfl

/-- A unit has a listing just when it can be read. -/
theorem isSome_listing_iff {source : Source} : source.listing.2.isSome ↔
    ∃ located, Command.readAll source.text.toList = .ok located := by
  rw [listing]
  cases Command.readAll source.text.toList with
  | error fault => simp [Except.toOption]
  | ok located => simp [Except.toOption]

end Source

variable {first second : List Source}

/-- Units with the same listings have the same parts. -/
theorem parts_of_listing_eq (same : first.map Source.listing = second.map Source.listing)
    (options : EmissionOptions) : parts options first = parts options second := by
  have flat : ∀ sources : List Source, sources.flatMap Source.parts =
      (sources.map Source.listing).flatMap fun (name, commands) =>
        (commands.getD []).map (Part.command name) := by
    intro sources
    rw [List.flatMap_map]
    exact List.flatMap_congr fun source _ => source.parts_eq_listing
  rw [parts, parts, flat, flat, same]

/-- Units with the same listings can be read alike. -/
theorem readable_of_listing_eq (same : first.map Source.listing = second.map Source.listing)
    (readable : ∀ source ∈ first, ∃ located, Command.readAll source.text.toList = .ok located) :
    ∀ source ∈ second, ∃ located, Command.readAll source.text.toList = .ok located := by
  intro source member
  have listed : source.listing ∈ first.map Source.listing := by
    rw [same]
    exact List.mem_map_of_mem member
  obtain ⟨other, among, equal⟩ := List.mem_map.mp listed
  rw [← Source.isSome_listing_iff, ← equal, Source.isSome_listing_iff]
  exact readable other among

/-- Units with the same names and commands make the same code. -/
theorem compile_of_listing_eq (same : first.map Source.listing = second.map Source.listing)
    {options : EmissionOptions} {text : String}
    (compiled : (compile options first).result = .ok text) :
    (compile options second).result = .ok text := by
  obtain ⟨readable, ⟨last, expanded⟩, -⟩ := compile_ok compiled
  have program := parts_of_listing_eq same options
  have readableToo := readable_of_listing_eq same readable
  rw [program] at expanded
  obtain ⟨other, compiledToo⟩ := compile_succeeds readableToo ⟨_, expanded⟩
  rw [compiledToo, compile_ok_congr program compiled compiledToo]

/-- **What is written is read back, and layout does not matter.** A command is read back from the
text that it is written as, which it takes up as a whole. The commands of a text, written one on
each line, are read back, so that a text that was normalized stays as it is. Units that differ only
in the layout of their texts make the same code. -/
theorem rendering_faithful :
    (∀ command : Command, (∀ name ∈ command.names, IsName name) →
      Command.readAll command.render.toList =
        .ok [⟨⟨0, Text.size command.render.toList⟩, command⟩]) ∧
      (∀ text located, Command.readAll text = .ok located →
        (∃ again, Command.readAll
            (Command.renderAll (located.map LocatedCommand.command)).toList = .ok again ∧
          again.map LocatedCommand.command = located.map LocatedCommand.command) ∧
        ∀ normal, Command.normalize text = .ok normal → Command.normalize normal = .ok normal) ∧
      ∀ first second : List Source, first.map Source.listing = second.map Source.listing →
        ∀ options text, (compile options first).result = .ok text ↔
          (compile options second).result = .ok text := by
  refine ⟨?_, ?_, ?_⟩
  · intro command named
    exact Command.readAll_eq_ok_iff.mpr (Command.readings_render named)
  · intro text located read
    have named : ∀ command ∈ located.map LocatedCommand.command,
        ∀ name ∈ command.names, IsName name :=
      List.forall_mem_map.mpr fun _ => Command.isName_of_mem_readAll read
    refine ⟨Command.readAll_renderAll named, ?_⟩
    intro normal normalized
    rw [Command.normalize, read] at normalized
    cases normalized
    exact Command.normalize_renderAll named
  · intro first second same options text
    exact ⟨compile_of_listing_eq same, compile_of_listing_eq same.symm⟩

/-- A unit with a comment, an empty line, leading zeros and more spaces than needed. -/
def looseSource : Source :=
  ⟨"Main", "  push  constant 007 // seven\n\nlabel été"⟩

/-- The same unit, written without all of these. -/
def tightSource : Source :=
  ⟨"Main", "push constant 7\nlabel été"⟩

theorem readAll_looseSource : Command.readAll looseSource.text.toList =
    .ok [⟨⟨2, 20⟩, .push .constant 7⟩, ⟨⟨31, 42⟩, .label "été"⟩] := by
  have free : ∀ line ∈ Text.locatedLines looseSource.text.toList, '/' ∉ line.code := by decide
  rw [Command.readAll, Command.readings_of_free free]
  decide

theorem listing_tightSource : tightSource.listing = looseSource.listing := by
  have free : ∀ line ∈ Text.locatedLines tightSource.text.toList, '/' ∉ line.code := by decide
  have read : Command.readAll tightSource.text.toList =
      .ok [⟨⟨0, 15⟩, .push .constant 7⟩, ⟨⟨16, 27⟩, .label "été"⟩] := by
    rw [Command.readAll, Command.readings_of_free free]
    decide
  rw [Source.listing, Source.listing, readAll_looseSource, read]
  rfl

/-- A label with letters of two bytes, in a loose layout and in a tight one. -/
theorem rendering_faithful_looseSource :
    Command.readAll "label été".toList =
        .ok [⟨⟨0, 11⟩, .label "été"⟩] ∧
      (∃ again, Command.readAll "push constant 7\nlabel été".toList = .ok again ∧
        again.map LocatedCommand.command = [.push .constant 7, .label "été"]) ∧
      ∃ text, (compile {} [looseSource]).result = .ok text ∧
        (compile {} [tightSource]).result = .ok text := by
  obtain ⟨render, normal, layout⟩ := rendering_faithful
  refine ⟨render (.label "été") (by decide), (normal _ _ readAll_looseSource).1, ?_⟩
  have readable : ∀ source ∈ [looseSource],
      ∃ located, Command.readAll source.text.toList = .ok located :=
    List.forall_mem_singleton.mpr ⟨_, readAll_looseSource⟩
  have whole : parts {} [looseSource] = [.bootstrap "Sys.init",
      .command "Main" (.push .constant 7), .command "Main" (.label "été")] := by
    simp only [parts, List.flatMap_singleton, Source.parts, Source.commands, readAll_looseSource]
    rfl
  obtain ⟨text, compiled⟩ := compile_succeeds readable ⟨_, by rw [whole]; rfl⟩
  have same : [looseSource].map Source.listing = [tightSource].map Source.listing :=
    congrArg (fun listing => [listing]) listing_tightSource.symm
  exact ⟨text, compiled, (layout _ _ same {} text).mp compiled⟩

end HackToolchain
