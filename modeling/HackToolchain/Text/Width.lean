import HackToolchain.Text.EmojiSequence
import HackToolchain.Text.Ligature
import HackToolchain.Text.Offset

/-! # Display width

The number of columns that a text takes on a terminal. A character can take other columns before
some characters than alone, so a text is read from its end, and what has been read is kept as far as
it matters to the character before it.

This is the width on the terminal that the program runs with. A snippet is laid out for any width
(`Terminal`).
-/

namespace HackToolchain

/-- The forms that a variation selector asks for. -/
inductive Presentation where
  | emoji
  | text
deriving DecidableEq, Repr

namespace Presentation

/-- The form that a character asks for as a variation selector. -/
def ofSelector? (character : Char) : Option Presentation :=
  if character = '\uFE0F' then some emoji
  else if character = '\uFE0E' then some text
  else none

/-- Whether a selector gives a character another form. -/
def applies (presentation : Presentation) (character : Char) : Bool :=
  match presentation with
  | emoji => hasEmojiForm character
  | text => hasNarrowTextForm character

end Presentation

/-- What a text starts with, as far as it matters to a character before it. -/
inductive Opening where
  | plain
  | lineFeed
  | ligature (ligature : Ligature)
  | emoji (sequence : EmojiSequence)
deriving DecidableEq, Repr

namespace Opening

/-- What a text starts with if it starts with a character that does not join the rest. -/
def ofChar (character : Char) : Opening :=
  if character = '\n' then lineFeed
  else match Ligature.start? character with
  | some start => ligature start
  | none => match EmojiSequence.start? character with
    | some start => emoji start
    | none => plain

/-- The columns that a character adds before an opening that it joins, and the opening of both. -/
def extend? (opening : Opening) (character : Char) : Option (Int × Opening) :=
  match opening with
  | plain => none
  | lineFeed => if character = '\r' then some (0, plain) else none
  | ligature tail =>
    (tail.extend? character).map fun (columns, joined) =>
      (columns, (joined.map ligature).getD plain)
  | emoji tail => (tail.extend? character).map fun (columns, joined) => (columns, emoji joined)

/-- The columns that a character adds before an opening, and the opening of both. -/
def cons (character : Char) (opening : Opening) : Int × Opening :=
  (opening.extend? character).getD (columns character, ofChar character)

/-- An opening with a selector before it, which parts all but ligatures; a selector for a picture
also joins the pictures after a joiner. -/
def select : Presentation → Opening → Opening
  | _, ligature tail => ligature tail
  | .emoji, emoji .joiner => emoji .joiner
  | .emoji, emoji .keycap => emoji .keycap
  | _, _ => plain

/-- What stays of an opening after a selector that gives the character before it no other form. -/
def unselected : Opening → Opening
  | ligature tail => ligature tail
  | _ => plain

/-- The columns of a character that a selector gives another form, before what follows the selector,
and the opening of all. A picture adds none to pictures that it is joined with. -/
def selected : Presentation → Opening → Int × Opening
  | .emoji, emoji _ => (0, emoji .picture)
  | .emoji, _ => (2, emoji .picture)
  | .text, _ => (1, plain)

end Opening

/-- The columns of a text, and what it starts with: perhaps a selector, and what follows it. -/
structure Extent where
  columns : Int
  selector : Option Presentation
  opening : Opening
deriving DecidableEq, Repr

namespace Extent

/-- The extent of the empty text. -/
def empty : Extent where
  columns := 0
  selector := none
  opening := .plain

/-- The extent of a text that starts with a character without a selector, from the columns that the
character adds. -/
def add (extent : Extent) (step : Int × Opening) : Extent where
  columns := extent.columns + step.1
  selector := none
  opening := step.2

/-- The extent of a text with a character before it, if what it starts with is an opening. -/
def consOpening (character : Char) (opening : Opening) (extent : Extent) : Extent :=
  match Presentation.ofSelector? character with
  | some presentation =>
    { extent with selector := some presentation, opening := opening.select presentation }
  | none => extent.add (opening.cons character)

/-- The extent of a text with a character before it. -/
def cons (character : Char) (extent : Extent) : Extent :=
  match extent.selector with
  | none => consOpening character extent.opening extent
  | some presentation =>
    if presentation.applies character then extent.add (extent.opening.selected presentation)
    else consOpening character extent.opening.unselected extent

end Extent

namespace Text

/-- The extent of a text. -/
def extent (text : Text) : Extent :=
  text.foldr Extent.cons Extent.empty

/-- The number of columns that a text takes. -/
def width (text : Text) : Nat :=
  text.extent.columns.toNat

end Text

end HackToolchain
