import HackToolchain.Text.Emoji

/-! # Emoji sequences

Several characters can make one picture of two columns: a picture and a skin tone, pictures with
joiners between them, a keycap, a flag. Such a sequence is read from its last character to its
first, and each character before it either goes on with it or leaves it.
-/

namespace HackToolchain

/-- What an unfinished sequence of emoji starts with, so far. -/
inductive EmojiSequence where
  /-- A whole picture. -/
  | picture
  /-- A skin tone. -/
  | modifier
  /-- One regional indicator. -/
  | indicator
  /-- Two regional indicators or more. -/
  | indicators
  /-- A joiner before a picture. -/
  | joiner
  /-- The frame of a keycap, before a joiner. -/
  | keycap
  /-- One regional indicator before a joiner. -/
  | joinedIndicator
  /-- Two regional indicators or more before a joiner, and whether their number is even. -/
  | joinedIndicators (even : Bool)
  /-- The last letters of the invisible name of a flag, before its end mark and a joiner. -/
  | tagLetters (count : Nat)
  /-- The last digits of the invisible name of a flag, with what comes after them in it. -/
  | tagDigits (count : Nat)
deriving DecidableEq, Repr

namespace EmojiSequence

/-- The sequence that a character opens as its last character. -/
def start? (character : Char) : Option EmojiSequence :=
  if isRegionalIndicator character then some indicator
  else if isEmojiModifier character then some modifier
  else if isEmoji character then some picture
  else none

/-- Whether a sequence can follow a joiner. -/
def followsJoiner : EmojiSequence → Bool
  | picture | modifier | indicators | joinedIndicators _ => true
  | _ => false

/-- The sequence that a character opens before a joiner and a picture, and the columns that it adds.
A single regional indicator keeps a column. -/
def joined? (character : Char) : Option (Int × EmojiSequence) :=
  if character = '\u20E3' then some (0, keycap)
  else if isRegionalIndicator character then some (1, joinedIndicator)
  else if isEmojiModifier character then some (0, modifier)
  else if character.toNat = 0xE007F then some (0, tagLetters 0)
  else if isEmoji character then some (0, picture)
  else none

/-- Whether a character is the black flag that names of flags follow. -/
def isTaggedFlag (character : Char) : Bool :=
  character.toNat = 0x1F3F4

/-- The name of a flag with a character before it. A name has three letters to six, or three digits
and up to four letters after them. -/
def extendLetters? (count : Nat) (character : Char) : Option EmojiSequence :=
  if isTagLetter character && count < 6 then some (tagLetters (count + 1))
  else if isTagDigit character && count ≤ 4 then some (tagDigits 1)
  else if isTaggedFlag character && 3 ≤ count then some picture
  else none

/-- The digits of the name of a flag with a character before them. -/
def extendDigits? (count : Nat) (character : Char) : Option EmojiSequence :=
  if isTagDigit character && count < 3 then some (tagDigits (count + 1))
  else if isTaggedFlag character && count = 3 then some picture
  else none

/-- The columns that a character before a sequence adds to it, and the sequence that both start, if
the character belongs to it. Regional indicators take a column each; an even number of them before a
joiner takes two columns less, since the last two are part of the picture after it. -/
def extend? (sequence : EmojiSequence) (character : Char) : Option (Int × EmojiSequence) :=
  if character = '\u200D' then if sequence.followsJoiner then some (0, joiner) else none
  else match sequence with
  | modifier => if isEmojiModifierBase character then some (0, picture) else none
  | indicator | indicators => if isRegionalIndicator character then some (1, indicators) else none
  | joiner => joined? character
  | joinedIndicator | joinedIndicators false =>
    if isRegionalIndicator character then some (-1, joinedIndicators true) else none
  | joinedIndicators true =>
    if isRegionalIndicator character then some (3, joinedIndicators false) else none
  | tagLetters count => (extendLetters? count character).map (0, ·)
  | tagDigits count => (extendDigits? count character).map (0, ·)
  | picture | keycap => none

end EmojiSequence

end HackToolchain
