import HackToolchain.Text.Offset

/-! # Lines and positions

A line break separates two lines, so a text has one line more than it has line breaks. The position
of an offset is the number of its line and the number of characters before it on that line, both
counted from zero.
-/

namespace HackToolchain

/-- A place in a text: a line, and a character on that line, both counted from zero. -/
structure Position where
  line : Nat
  column : Nat
deriving DecidableEq, Repr

namespace Text

/-- The lines of a text, without their line breaks. -/
def lines (text : Text) : List Text :=
  text.splitOn '\n'

/-- The lines of a text whose last line break, if nothing follows it, ends the last line. -/
def terminatedLines (text : Text) : List Text :=
  let pieces := text.lines
  if pieces.getLast? = some [] then pieces.dropLast else pieces

/-- The position of the end of a text. -/
def endPosition (text : Text) : Position where
  line := text.count '\n'
  column := (text.reverse.takeWhile (· != '\n')).length

/-- The position of the last boundary that an offset reaches. -/
def position (offset : Nat) (text : Text) : Position :=
  (text.before offset).endPosition

/-- The position of an offset. An offset past the end is taken for the end, and an offset inside a
character has no position. -/
def position? (offset : Nat) (text : Text) : Option Position :=
  let reached := min offset text.size
  if text.IsBoundary reached then some (text.position reached) else none

end Text

end HackToolchain
