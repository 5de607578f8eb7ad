import HackToolchain.Span
import HackToolchain.Text.Blank

/-! # Tokens

A text is cut into tokens from left to right: line breaks, runs of other blank characters, words,
comments that go on to the end of their line, and slashes that start no comment. The tokens tile the
text: each starts where the one before it ended, and no character is left out.
-/

namespace HackToolchain

/-- The kinds of token. -/
inductive TokenKind where
  /-- A line break. -/
  | newline
  /-- A run of blank characters without a line break. -/
  | blank
  /-- A run of characters that are neither blank nor a slash. -/
  | word
  /-- Two slashes, and the rest of their line. -/
  | comment
  /-- A slash that starts no comment. -/
  | strayMark
deriving DecidableEq, Repr

/-- A token: its kind, the part of the text that it takes up, and its characters. -/
structure Token where
  kind : TokenKind
  span : Span
  text : Text
deriving DecidableEq, Repr

/-- Whether a character can stand in a word. -/
def isWordCharacter (character : Char) : Bool :=
  !isBlank character && character != '/'

namespace Token

/-- The characters of a token, as a name. -/
def name (token : Token) : String :=
  String.ofList token.text

/-- The token that a character starts: its kind, its other characters, and what follows it. -/
def first (character : Char) (rest : Text) : TokenKind × Text × Text :=
  let taking (kind : TokenKind) (accepts : Char → Bool) :=
    (kind, rest.takeWhile accepts, rest.dropWhile accepts)
  if character = '\n' then (.newline, [], rest)
  else if isBlank character then taking .blank isInnerBlank
  else if character = '/' then
    if rest.head? = some '/' then taking .comment (· != '\n') else (.strayMark, [], rest)
  else taking .word isWordCharacter

/-- The first token and what follows it are the whole text. -/
theorem first_append (character : Char) (rest : Text) :
    (first character rest).2.1 ++ (first character rest).2.2 = rest := by
  simp only [first]
  split
  · simp
  split
  · simp
  split
  · split <;> simp
  · simp

private theorem length_first_le (character : Char) (rest : Text) :
    (first character rest).2.2.length ≤ rest.length := by
  have parts := congrArg List.length (first_append character rest)
  simp only [List.length_append] at parts
  omega

/-- The tokens of a text that starts at an offset. -/
def scanFrom (offset : Nat) : Text → List Token
  | [] => []
  | character :: rest =>
    let found := first character rest
    let lexeme : Text := character :: found.2.1
    ⟨found.1, Span.ofText offset lexeme, lexeme⟩ :: scanFrom (offset + lexeme.size) found.2.2
termination_by text => text.length
decreasing_by
  have shorter := length_first_le character rest
  simp only [List.length_cons]
  omega

/-- The tokens of a text. -/
def scan (text : Text) : List Token :=
  scanFrom 0 text

end Token

end HackToolchain
