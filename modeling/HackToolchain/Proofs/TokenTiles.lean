import HackToolchain.Command.Token
import Mathlib.Data.List.Chain
import Mathlib.Data.List.TakeWhile

/-! # Tokens tile a text

The scanner leaves out nothing and takes nothing twice: the spans of the tokens of a text follow one
another from its start to its end (`tile_scanFrom`), and each of them is where the characters of
the token stand (`exists_append_of_mem_scanFrom`). Every token is made of what its kind says
(`TokenKind.Admits`) and is as long as it can be, so that not every kind of token can come next
(`TokenKind.Allows`).
-/

namespace HackToolchain

/-- Spans that are not empty and follow one another, without gaps, from an offset to another. -/
def Span.Tile : (low high : Nat) → List Span → Prop
  | low, high, [] => low = high
  | low, high, span :: rest => span.start = low ∧ span.start < span.stop ∧ Tile span.stop high rest

namespace TokenKind

/-- What a token of a kind is made of. -/
def Admits : TokenKind → Text → Prop
  | newline, text => text = ['\n']
  | blank, text => text ≠ [] ∧ ∀ character ∈ text, isBlank character ∧ character ≠ '\n'
  | word, text => text ≠ [] ∧ ∀ character ∈ text, ¬isBlank character ∧ character ≠ '/'
  | comment, text => ['/', '/'] <+: text ∧ '\n' ∉ text
  | strayMark, text => text = ['/']

/-- What kinds of token can come right behind a token of a kind. Words and blanks take in all that
belongs to them, a comment goes on to the end of its line, and a stray slash is alone. -/
def Allows : TokenKind → TokenKind → Prop
  | newline, _ => True
  | blank, next => next ≠ blank
  | word, next => next ≠ word
  | comment, next => next = newline
  | strayMark, next => next ≠ comment ∧ next ≠ strayMark

/-- What a token of a kind starts with. -/
def Opens : TokenKind → Char → Prop
  | newline, character => character = '\n'
  | blank, character => isInnerBlank character
  | word, character => isWordCharacter character
  | comment, character | strayMark, character => character = '/'

end TokenKind

namespace Token

/-- The token that a character starts, by the kind of the character. -/
theorem first_eq_cases (character : Char) (rest : Text) :
    (character = '\n' ∧ first character rest = (.newline, [], rest)) ∨
      (isInnerBlank character ∧ first character rest =
        (.blank, rest.takeWhile isInnerBlank, rest.dropWhile isInnerBlank)) ∨
      (character = '/' ∧ rest.head? = some '/' ∧ first character rest =
        (.comment, rest.takeWhile (· != '\n'), rest.dropWhile (· != '\n'))) ∨
      (character = '/' ∧ rest.head? ≠ some '/' ∧ first character rest = (.strayMark, [], rest)) ∨
      (isWordCharacter character ∧ first character rest =
        (.word, rest.takeWhile isWordCharacter, rest.dropWhile isWordCharacter)) := by
  by_cases newline : character = '\n'
  · exact .inl ⟨newline, by simp only [first, if_pos newline]⟩
  by_cases blank : isBlank character
  · refine .inr (.inl ⟨?_, by simp only [first, if_neg newline, if_pos blank]⟩)
    simp [isInnerBlank, blank, newline]
  by_cases slash : character = '/'
  · by_cases comment : rest.head? = some '/'
    · refine .inr (.inr (.inl ⟨slash, comment, ?_⟩))
      simp only [first, if_neg newline, if_neg blank, if_pos slash, if_pos comment]
    · refine .inr (.inr (.inr (.inl ⟨slash, comment, ?_⟩)))
      simp only [first, if_neg newline, if_neg blank, if_pos slash, if_neg comment]
  · refine .inr (.inr (.inr (.inr ⟨?_, ?_⟩)))
    · simp [isWordCharacter, blank, slash]
    · simp only [first, if_neg newline, if_neg blank, if_neg slash]

/-- The first character of a token is one that its kind opens with. -/
theorem opens_first (character : Char) (rest : Text) :
    (first character rest).1.Opens character := by
  rcases first_eq_cases character rest with ⟨same, found⟩ | ⟨same, found⟩ | ⟨same, -, found⟩ |
    ⟨same, -, found⟩ | ⟨same, found⟩
  all_goals
    rw [found]
    exact same

/-- A token is made of what its kind says. -/
theorem admits_first (character : Char) (rest : Text) :
    (first character rest).1.Admits (character :: (first character rest).2.1) := by
  -- The characters of a run are those that it accepts.
  have run : ∀ accepts : Char → Bool, accepts character →
      ∀ other ∈ character :: rest.takeWhile accepts, accepts other := by
    intro accepts accepted other member
    rcases List.mem_cons.mp member with rfl | later
    · exact accepted
    · exact List.mem_takeWhile_imp later
  rcases first_eq_cases character rest with ⟨rfl, found⟩ | ⟨blank, found⟩ |
    ⟨rfl, comment, found⟩ | ⟨rfl, -, found⟩ | ⟨word, found⟩
  all_goals rw [found]
  · rfl
  · refine ⟨List.cons_ne_nil _ _, ?_⟩
    intro other member
    simpa [isInnerBlank] using run isInnerBlank blank other member
  · obtain ⟨more, rfl⟩ := List.head?_eq_some_iff.mp comment
    refine ⟨⟨more.takeWhile (· != '\n'), ?_⟩, ?_⟩
    · rw [List.takeWhile_cons_of_pos (by decide)]
      rfl
    · intro member
      have other := run (· != '\n') (by decide) '\n' member
      exact absurd other (by decide)
  · rfl
  · refine ⟨List.cons_ne_nil _ _, ?_⟩
    intro other member
    simpa [isWordCharacter] using run isWordCharacter word other member

/-- A token ends where what comes next does not belong to it. -/
theorem allows_first {character next : Char} {rest more : Text}
    (left : (first character rest).2.2 = next :: more) :
    (first character rest).1.Allows (first next more).1 := by
  have opens := opens_first next more
  -- A run stops at a character that it does not accept.
  have stop : ∀ accepts : Char → Bool, rest.dropWhile accepts = next :: more →
      ¬accepts next := by
    intro accepts same
    have refused := List.head?_dropWhile_not accepts rest
    rw [same] at refused
    exact ne_true_of_eq_false refused
  rcases first_eq_cases character rest with ⟨-, found⟩ | ⟨-, found⟩ | ⟨-, -, found⟩ |
    ⟨-, alone, found⟩ | ⟨-, found⟩
  all_goals rw [found] at left ⊢
  · trivial
  · intro same
    rw [same] at opens
    exact stop isInnerBlank left opens
  · have newline : next = '\n' := by simpa using stop (· != '\n') left
    subst newline
    rfl
  · change rest = next :: more at left
    rw [left] at alone
    have other : next ≠ '/' := fun same => alone (congrArg some same)
    constructor
    · intro same
      rw [same] at opens
      exact other opens
    · intro same
      rw [same] at opens
      exact other opens
  · intro same
    rw [same] at opens
    exact stop isWordCharacter left opens

/-- The tokens tile the text. -/
theorem tile_scanFrom (offset : Nat) (text : Text) :
    Span.Tile offset (offset + text.size) ((scanFrom offset text).map Token.span) := by
  fun_induction scanFrom offset text with
  | case1 offset => rfl
  | case2 offset character rest found lexeme hypothesis =>
    have size : Text.size (character :: rest) = lexeme.size + Text.size found.2.2 := by
      rw [← Text.size_append]
      have whole : character :: rest = lexeme ++ found.2.2 :=
        congrArg (character :: ·) (first_append character rest).symm
      exact congrArg Text.size whole
    have filled : lexeme.size ≠ 0 := mt Text.size_eq_zero_iff.mp (List.cons_ne_nil _ _)
    rw [size, ← Nat.add_assoc]
    exact ⟨rfl, Nat.lt_add_of_pos_right (Nat.pos_of_ne_zero filled), hypothesis⟩

/-- The characters of a token stand at its span. -/
theorem exists_append_of_mem_scanFrom {offset : Nat} {text : Text} {token : Token}
    (member : token ∈ scanFrom offset text) :
    ∃ before after, text = before ++ (token.text ++ after) ∧
      token.span = Span.ofText (offset + before.size) token.text := by
  fun_induction scanFrom offset text with
  | case1 => cases member
  | case2 offset character rest found lexeme hypothesis =>
    have whole : character :: rest = lexeme ++ found.2.2 :=
      congrArg (character :: ·) (first_append character rest).symm
    rcases List.mem_cons.mp member with rfl | later
    · exact ⟨[], found.2.2, whole, rfl⟩
    · obtain ⟨before, after, parts, span⟩ := hypothesis later
      refine ⟨lexeme ++ before, after, ?_, ?_⟩
      · rw [whole, parts, List.append_assoc]
      · rw [span, Text.size_append, Nat.add_assoc]

/-- The text of a token is admitted by its kind. -/
theorem admits_of_mem_scanFrom {offset : Nat} {text : Text} {token : Token}
    (member : token ∈ scanFrom offset text) : token.kind.Admits token.text := by
  fun_induction scanFrom offset text with
  | case1 => cases member
  | case2 offset character rest found lexeme hypothesis =>
    rcases List.mem_cons.mp member with rfl | later
    · exact admits_first character rest
    · exact hypothesis later

/-- Each token is as long as its kind allows. -/
theorem isChain_scanFrom (offset : Nat) (text : Text) :
    ((scanFrom offset text).map Token.kind).IsChain TokenKind.Allows := by
  fun_induction scanFrom offset text with
  | case1 => exact .nil
  | case2 offset character rest found lexeme hypothesis =>
    rw [List.map_cons]
    cases left : found.2.2 with
    | nil =>
      rw [scanFrom]
      exact .singleton _
    | cons next more =>
      rw [left, scanFrom] at hypothesis
      rw [scanFrom]
      exact .cons_cons (allows_first left) hypothesis

/-- **Tokens tile a text.** The spans of the tokens of a text are not empty, start at its start,
follow one another without gaps and end at its end. They lie between boundaries of the text, and
each of them holds the characters of its token. Every token is made of what its kind says, words and
blanks do not come next to their like, a comment goes on to the next line break or to the end, and a
stray slash comes before no other one. -/
theorem scan_tiles (text : Text) :
    Span.Tile 0 text.size ((scan text).map Token.span) ∧
      (∀ token ∈ scan text, text.IsBoundary token.span.start ∧ text.IsBoundary token.span.stop ∧
        token.span.text? text = some token.text ∧ token.kind.Admits token.text) ∧
      ((scan text).map Token.kind).IsChain TokenKind.Allows := by
  have tile := tile_scanFrom 0 text
  rw [Nat.zero_add] at tile
  refine ⟨tile, ?_, isChain_scanFrom 0 text⟩
  intro token member
  obtain ⟨before, after, parts, span⟩ := exists_append_of_mem_scanFrom member
  rw [Nat.zero_add] at span
  rw [span]
  refine ⟨?_, ?_, ?_, admits_of_mem_scanFrom member⟩
  · exact Text.isBoundary_iff.mpr ⟨before, token.text ++ after, parts, rfl⟩
  · refine Text.isBoundary_iff.mpr ⟨before ++ token.text, after, ?_, Text.size_append _ _⟩
    rw [parts, List.append_assoc]
  · exact Text.slice?_eq_some_iff.mpr ⟨before, after, parts, rfl, rfl⟩

/-- A text with a token of each kind. -/
def mixedText : Text :=
  "é //\n/".toList

/-- A text with tokens of every kind, and a comment at its end. -/
theorem scan_tiles_mixedText :
    Span.Tile 0 7 ((scan mixedText).map Token.span) ∧
      ((scan mixedText).map Token.kind).IsChain TokenKind.Allows ∧
      ∃ token ∈ scan mixedText, token.kind = .comment ∧
        token.span.text? mixedText = some ['/', '/'] ∧ token.kind.Admits ['/', '/'] := by
  have tokens : scan mixedText = [⟨.word, ⟨0, 2⟩, ['é']⟩, ⟨.blank, ⟨2, 3⟩, [' ']⟩,
      ⟨.comment, ⟨3, 5⟩, ['/', '/']⟩, ⟨.newline, ⟨5, 6⟩, ['\n']⟩,
      ⟨.strayMark, ⟨6, 7⟩, ['/']⟩] := by decide +kernel
  have member : ⟨.comment, ⟨3, 5⟩, ['/', '/']⟩ ∈ scan mixedText := by simp [tokens]
  obtain ⟨tile, each, chain⟩ := scan_tiles mixedText
  obtain ⟨-, -, held, made⟩ := each _ member
  exact ⟨tile, chain, _, member, rfl, held, made⟩

end Token

end HackToolchain
