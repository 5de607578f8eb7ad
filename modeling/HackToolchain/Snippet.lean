import HackToolchain.Span
import HackToolchain.Text.Width

/-! # Snippets

A snippet shows a message at a span of a text: the place, the line of code that the span starts on,
and an underline below the span. Columns are counted as a terminal shows them, and there is no
snippet that is too wide to be laid out.
-/

namespace HackToolchain

/-- The parts of a snippet that can be coloured. -/
inductive Ink where
  | frame
  | underline
  | message
deriving DecidableEq, Repr

namespace Ink

/-- The terminal attributes of an ink: bold, and a colour. -/
def attributes : Ink → String
  | frame => "1;34"
  | underline => "1;31"
  | message => "1;49;39"

/-- A text in an ink, or plain, on the terminal that the program runs with. -/
def paint (colored : Bool) (ink : Ink) (text : String) : String :=
  if colored then "\x1b[" ++ ink.attributes ++ "m" ++ text ++ "\x1b[0m" else text

end Ink

/-- What a terminal is to a snippet: the number of columns that a text takes up on it, and its
inks. -/
structure Terminal where
  width : Text → Nat := Text.width
  paint : Bool → Ink → String → String := Ink.paint

/-- A message at a place of a text, with the code that it is about. -/
structure Snippet where
  file : String
  message : String
  /-- The line that the code stands on, and the columns before the underline. -/
  place : Position
  code : Text
  /-- The number of columns that are underlined. -/
  underline : Nat
  /-- The number of columns that the number of the line takes up. -/
  margin : Nat
deriving DecidableEq, Repr

namespace Snippet

/-- The largest number of columns that a part of a snippet can be padded to: the counts of columns
are words of sixteen bits. -/
def maxPadding : Nat := 65535

/-- The line that an offset lies on, given the lines from a number on, and the columns before the
offset on that line. An offset past all lines lies below the last one, after as many columns as that
line has; an offset inside a character has no place. -/
def place? (width : Text → Nat) (lastWidth : Nat) :
    (offset number : Nat) → List Text → Option Position
  | _, number, [] => some ⟨number, lastWidth⟩
  | offset, number, line :: rest =>
    if offset ≤ line.size then
      if line.IsBoundary offset then some ⟨number, width (line.before offset)⟩ else none
    else place? width lastWidth (offset - (line.size + 1)) (number + 1) rest

/-- The number of columns to underline: those of the span's text, and one at least. -/
def underlineWidth (width : Text → Nat) (span : Span) (text : Text) : Nat :=
  max 1 (((span.text? text).map width).getD 0)

/-- Whether a snippet can be laid out: neither the end of its underline nor its margin is padded
beyond the bound. -/
def Fits (snippet : Snippet) : Prop :=
  snippet.place.column + snippet.underline ≤ maxPadding ∧ snippet.margin ≤ maxPadding

instance (snippet : Snippet) : Decidable snippet.Fits :=
  inferInstanceAs (Decidable (_ ∧ _))

/-- What a snippet for a message at a span of a text from a file is to show, unless the span starts
inside a character. Below the last line, the last line is shown. -/
def sketch? (file message : String) (span : Span) (text : Text) (terminal : Terminal) :
    Option Snippet := do
  let lines := text.terminatedLines
  let lastLine := lines.getLast?.getD []
  let place ← place? terminal.width (terminal.width lastLine) span.start 0 lines
  return {
    file, message, place
    code := lines[place.line]?.getD lastLine
    underline := underlineWidth terminal.width span text
    margin := terminal.width (place.line + 1).repr.toList }

/-- The snippet for a message at a span of a text from a file, if it can be laid out. -/
def of? (file message : String) (span : Span) (text : Text) (terminal : Terminal := {}) :
    Option Snippet :=
  (sketch? file message span text terminal).filter fun snippet => snippet.Fits

/-- A number of spaces. -/
def spaces (count : Nat) : String :=
  String.ofList (List.replicate count ' ')

/-- A number of carets. -/
def carets (count : Nat) : String :=
  String.ofList (List.replicate count '^')

/-- The text of a snippet: four lines after an empty one, where lines and columns are counted from
one. -/
def render (colored : Bool) (snippet : Snippet) (terminal : Terminal := {}) : String :=
  let number := (snippet.place.line + 1).repr
  let column := (snippet.place.column + 1).repr
  let margin := spaces snippet.margin
  let paint := terminal.paint colored
  let bar := paint .frame "|"
  let underline := spaces snippet.place.column ++ carets snippet.underline
  "\n" ++ margin ++ " " ++ paint .frame "-->" ++ " " ++
    snippet.file ++ ":" ++ number ++ ":" ++ column ++ "\n " ++
    margin ++ " " ++ bar ++ "\n " ++
    paint .frame number ++ " " ++ bar ++ " " ++ String.ofList snippet.code ++ "\n " ++
    margin ++ " " ++ bar ++ " " ++ paint .underline underline ++ " " ++
    paint .message snippet.message ++ "\n"

end Snippet

end HackToolchain
