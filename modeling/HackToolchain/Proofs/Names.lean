import HackToolchain.Command.Reading
import HackToolchain.Proofs.CodeText
import Mathlib.Data.List.TakeWhile

/-! # Names in commands

The names that a command is read with are words of the text, so they hold no blank and no slash
(`isPlain_of_mem_readAll`).
-/

namespace HackToolchain

namespace Token

/-- A token that is a word. -/
def IsWord (token : Token) : Prop :=
  token.text ≠ [] ∧ ∀ character ∈ token.text, isWordCharacter character

/-- What the scanner calls a word is one. -/
theorem isWord_of_first {character : Char} {rest : Text} (kind : (first character rest).1 = .word) :
    ∀ other ∈ character :: (first character rest).2.1, isWordCharacter other := by
  simp only [first] at kind ⊢
  split at kind
  · cases kind
  rename_i notBreak
  rw [if_neg notBreak]
  split at kind
  · cases kind
  rename_i notBlank
  rw [if_neg notBlank]
  split at kind
  · split at kind <;> cases kind
  rename_i notSlash
  rw [if_neg notSlash]
  intro other member
  rcases List.mem_cons.mp member with rfl | later
  · simp [isWordCharacter, notBlank, notSlash]
  · exact List.mem_takeWhile_imp later

/-- The words that are scanned are made of characters of words. -/
theorem isWord_of_mem_scanFrom {offset : Nat} {text : Text} {token : Token}
    (member : token ∈ scanFrom offset text) (kind : token.kind = .word) : token.IsWord := by
  fun_induction scanFrom offset text with
  | case1 => cases member
  | case2 offset character rest found lexeme hypothesis =>
    rcases List.mem_cons.mp member with rfl | later
    · exact ⟨by simp [lexeme], isWord_of_first kind⟩
    · exact hypothesis later

/-- The name of a word is plain. -/
theorem IsWord.isPlain {token : Token} (word : token.IsWord) : IsPlain token.name := by
  intro character member
  rw [name, String.toList_ofList] at member
  exact word.2 character member

end Token

namespace Command

/-- The names that a command is written with. -/
def names : Command → List String
  | label name | goto name | ifGoto name | function name _ | call name _ => [name]
  | operator _ | push _ _ | pop _ _ | .return => []

/-- A segment and a number are read from left to right. -/
theorem readSegmented_ok {build : Segment → Word → Command} {segment index : Token}
    {command : Command}
    (read : (do return build (← readSegment segment) (← Numeral.read index)) =
      (.ok command : Except CommandFault Command)) :
    ∃ found value, readSegment segment = .ok found ∧ Numeral.read index = .ok value ∧
      command = build found value := by
  cases first : readSegment segment with
  | error fault =>
    rw [first] at read
    cases read
  | ok found =>
    cases second : Numeral.read index with
    | error fault =>
      rw [first, second] at read
      cases read
    | ok value =>
      rw [first, second] at read
      cases read
      exact ⟨found, value, rfl, rfl, rfl⟩

/-- A command with a count was built with the value of its numeral. -/
theorem readCounted_ok {build : Word → Command} {count : Token} {command : Command}
    (read : (do return build (← Numeral.read count)) =
      (.ok command : Except CommandFault Command)) :
    ∃ value, Numeral.read count = .ok value ∧ command = build value := by
  cases found : Numeral.read count with
  | error fault =>
    rw [found] at read
    cases read
  | ok value =>
    rw [found] at read
    cases read
    exact ⟨value, rfl, rfl⟩

/-- A command takes its names from the tokens of its arguments. -/
theorem names_of_readArguments {first : Token} {keyword : Keyword} {arguments : List Token}
    {command : Command} (read : readArguments first keyword arguments = .ok command) :
    ∀ name ∈ command.names, ∃ token ∈ arguments, token.name = name := by
  unfold readArguments at read
  split at read
  case h_2 | h_3 =>
    obtain ⟨segment, index, -, -, rfl⟩ := readSegmented_ok read
    simp [names]
  case h_7 | h_8 =>
    obtain ⟨count, -, rfl⟩ := readCounted_ok read
    simp [names]
  all_goals
    cases read
    try simp [names]

/-- The names in a reading are words that were read. -/
theorem names_of_mem_readWords {words : List Token} {located : LocatedCommand}
    (member : .ok located ∈ readWords words) :
    ∀ name ∈ located.command.names, ∃ token ∈ words, token.name = name := by
  cases words with
  | nil => cases member
  | cons first arguments =>
    rw [readWords, List.mem_singleton, classify] at member
    split at member
    · rename_i keyword _
      cases read : readArguments first keyword arguments with
      | error fault =>
        rw [read] at member
        cases member
      | ok command =>
        rw [read] at member
        cases member
        intro name named
        obtain ⟨token, present, same⟩ := names_of_readArguments read name named
        exact ⟨token, List.mem_cons_of_mem _ present, same⟩
    · cases member

/-- The names of a command are those of words in front of it or among the tokens. -/
theorem names_of_mem_readTokens {words tokens : List Token} {located : LocatedCommand}
    (member : .ok located ∈ readTokens words tokens) :
    ∀ name ∈ located.command.names,
      ∃ token, (token ∈ words ∨ token ∈ tokens ∧ token.kind = .word) ∧ token.name = name := by
  fun_induction readTokens words tokens with
  | case1 words =>
    intro name named
    obtain ⟨token, present, same⟩ := names_of_mem_readWords member name named
    exact ⟨token, .inl (List.mem_reverse.mp present), same⟩
  | case2 words token rest kind hypothesis =>
    intro name named
    obtain ⟨found, present, same⟩ := hypothesis member name named
    grind
  | case3 words token rest kind hypothesis | case4 words token rest kind hypothesis =>
    intro name named
    obtain ⟨found, present, same⟩ := hypothesis member name named
    grind
  | case5 words token rest kind hypothesis =>
    intro name named
    rcases List.mem_append.mp member with line | later
    · obtain ⟨found, present, same⟩ := names_of_mem_readWords line name named
      exact ⟨found, .inl (List.mem_reverse.mp present), same⟩
    · obtain ⟨found, present, same⟩ := hypothesis later name named
      grind
  | case6 words token rest kind hypothesis =>
    intro name named
    rcases List.mem_cons.mp member with fault | later
    · cases fault
    · obtain ⟨found, present, same⟩ := hypothesis later name named
      grind

/-- The names of the commands of a text are words of the text. -/
theorem exists_isWord_of_mem_readAll {text : Text} {commands : List LocatedCommand}
    (read : readAll text = .ok commands) {located : LocatedCommand} (member : located ∈ commands) :
    ∀ name ∈ located.command.names, ∃ token : Token, token.IsWord ∧ token.name = name := by
  intro name named
  have reading : .ok located ∈ readings text := by
    rw [readAll_eq_ok_iff.mp read]
    exact List.mem_map_of_mem member
  obtain ⟨token, present, same⟩ := names_of_mem_readTokens reading name named
  rcases present with absent | ⟨scanned, kind⟩
  · cases absent
  · exact ⟨token, Token.isWord_of_mem_scanFrom scanned kind, same⟩

/-- Commands that are read have plain names. -/
theorem isPlain_of_mem_readAll {text : Text} {commands : List LocatedCommand}
    (read : readAll text = .ok commands) {located : LocatedCommand} (member : located ∈ commands) :
    ∀ name ∈ located.command.names, IsPlain name := by
  intro name named
  obtain ⟨token, word, rfl⟩ := exists_isWord_of_mem_readAll read member name named
  exact word.isPlain

end Command

end HackToolchain
