import HackToolchain.Text.Columns

/-! # Ligatures

Letters of some scripts share a column with letters near them. Such a group is read from its last
letter to its first: a letter that can end a ligature opens one, and each letter before it either
goes on with it or leaves it.
-/

namespace HackToolchain

/-- What an unfinished ligature ends in. A letter of Hebrew, Buginese, Tifinagh or Old Turkic may
have a joiner before it. -/
inductive Ligature where
  | alef
  | lamed (joined : Bool)
  | coengLetter
  | ya (joined : Bool)
  | vowelAndYa
  | tifinaghConsonant (joined : Bool)
  | tifinaghJoiner
  | lisuTone
  | orkhonI (joined : Bool)
deriving DecidableEq, Repr

namespace Ligature

/-- The code points of the characters without a column that end the joining of Arabic letters around
them, in order. -/
def joiningOpaqueRanges : Array (Nat × Nat) :=
  #[(0x0605, 0x0605), (0x0890, 0x0891), (0x08E2, 0x08E2), (0x09BE, 0x09BE), (0x09D7, 0x09D7),
    (0x0B3E, 0x0B3E), (0x0B57, 0x0B57), (0x0BBE, 0x0BBE), (0x0BD7, 0x0BD7), (0x0CC0, 0x0CC0),
    (0x0CC2, 0x0CC2), (0x0CC7, 0x0CC8), (0x0CCA, 0x0CCB), (0x0CD5, 0x0CD6), (0x0D3E, 0x0D3E),
    (0x0D4E, 0x0D4E), (0x0D57, 0x0D57), (0x0DCF, 0x0DCF), (0x0DDF, 0x0DDF), (0x1160, 0x11FF),
    (0x180E, 0x180E), (0x1B35, 0x1B35), (0x1B3B, 0x1B3B), (0x1B3D, 0x1B3D), (0x1B43, 0x1B43),
    (0x200C, 0x200D), (0x2065, 0x2069), (0x302E, 0x302F), (0x3164, 0x3164), (0xA8FA, 0xA8FA),
    (0xD7B0, 0xD7C6), (0xD7CB, 0xD7FB), (0xFF9E, 0xFFA0), (0xFFF0, 0xFFF8), (0x111C2, 0x111C3),
    (0x1133E, 0x1133E), (0x11357, 0x11357), (0x114B0, 0x114B0), (0x114BD, 0x114BD),
    (0x115AF, 0x115AF), (0x11930, 0x11930), (0x1193F, 0x1193F), (0x11941, 0x11941),
    (0x11A3A, 0x11A3A), (0x11A84, 0x11A89), (0x11D46, 0x11D46), (0x11F02, 0x11F02),
    (0x1D165, 0x1D165), (0x1D16E, 0x1D172), (0xE0000, 0xE0000), (0xE0002, 0xE001F),
    (0xE0080, 0xE00FF), (0xE01F0, 0xE0FFF)]

/-- Whether Arabic letters join across a character. -/
def isJoiningTransparent (character : Char) : Bool :=
  inRanges zeroWidthRanges character.toNat && !inRanges joiningOpaqueRanges character.toNat

/-- Whether a character is a mark without a shape. -/
def isIgnorableMark (character : Char) : Bool :=
  inRanges #[(0x034F, 0x034F), (0x17B4, 0x17B5), (0x180B, 0x180D), (0x180F, 0x180F),
    (0xFE00, 0xFE0F), (0xE0100, 0xE01EF)] character.toNat

/-- Whether a character is an Arabic letter shaped like alef. -/
def isAlef (character : Char) : Bool :=
  inRanges #[(0x0622, 0x0623), (0x0625, 0x0625), (0x0627, 0x0627), (0x0671, 0x0673),
    (0x0675, 0x0675), (0x0773, 0x0774), (0x0870, 0x0882)] character.toNat

/-- Whether a character is an Arabic letter shaped like lam. -/
def isLam (character : Char) : Bool :=
  inRanges #[(0x0644, 0x0644), (0x06B5, 0x06B8), (0x076A, 0x076A), (0x08A6, 0x08A6),
    (0x08C7, 0x08C7)] character.toNat

/-- Whether a character is a Khmer letter that the sign coeng puts below the letter before it. -/
def isCoengLetter (character : Char) : Bool :=
  inRanges #[(0x1780, 0x1782), (0x1784, 0x1787), (0x1789, 0x178C), (0x178E, 0x1793),
    (0x1795, 0x1798), (0x179B, 0x179D), (0x17A0, 0x17A0), (0x17A2, 0x17A2), (0x17A7, 0x17A7),
    (0x17AB, 0x17AC), (0x17AF, 0x17AF)] character.toNat

/-- Whether a character is a Tifinagh consonant. -/
def isTifinaghConsonant (character : Char) : Bool :=
  inRanges #[(0x2D31, 0x2D65), (0x2D6F, 0x2D6F)] character.toNat

/-- Whether a character is the first of two tone letters of Lisu. -/
def isFirstLisuTone (character : Char) : Bool :=
  inRanges #[(0xA4F8, 0xA4FB)] character.toNat

/-- Whether a character is the second of two tone letters of Lisu. -/
def isSecondLisuTone (character : Char) : Bool :=
  inRanges #[(0xA4FC, 0xA4FD)] character.toNat

/-- The ligature that a character opens as its last letter. -/
def start? (character : Char) : Option Ligature :=
  if isAlef character then some alef
  else if character = '\u05DC' then some (lamed false)
  else if isCoengLetter character then some coengLetter
  else if character = '\u1A10' then some (ya false)
  else if isTifinaghConsonant character then some (tifinaghConsonant false)
  else if isSecondLisuTone character then some lisuTone
  else if character.toNat = 0x10C03 then some (orkhonI false)
  else none

/-- The same ligature with a joiner before it. -/
def join : Ligature → Ligature
  | lamed _ => lamed true
  | ya _ => ya true
  | tifinaghConsonant _ => tifinaghConsonant true
  | orkhonI _ => orkhonI true
  | ligature => ligature

/-- The ligature with an invisible character before it, if that character does not part it: for
Arabic, a mark that letters join across; for the other scripts, a joiner or a mark without a
shape. -/
def pass? (ligature : Ligature) (character : Char) : Option Ligature :=
  if ligature = alef then if isJoiningTransparent character then some ligature else none
  else if character = '\u200D' then some ligature.join
  else if isIgnorableMark character then some ligature
  else none

/-- The columns that a letter before a ligature adds to it, and the ligature that both end in, if
the letter belongs to it. The Khmer sign coeng and a consonant before a Tifinagh joiner take back a
column that was counted after them. -/
def letter? (ligature : Ligature) (character : Char) : Option (Int × Option Ligature) :=
  match ligature with
  | alef => if isLam character then some (0, none) else none
  | lamed true => if character = '\u05D0' then some (0, none) else none
  | coengLetter => if character = '\u17D2' then some (-1, none) else none
  | ya true => if character = '\u1A17' then some (0, some vowelAndYa) else none
  | vowelAndYa => if character = '\u1A15' then some (0, none) else none
  | tifinaghConsonant joined =>
    if character = '\u2D7F' then some (1, some tifinaghJoiner)
    else if joined && isTifinaghConsonant character then some (0, none)
    else none
  | tifinaghJoiner => if isTifinaghConsonant character then some (-1, none) else none
  | lisuTone => if isFirstLisuTone character then some (0, none) else none
  | orkhonI true => if character.toNat = 0x10C32 then some (0, none) else none
  | lamed false | ya false | orkhonI false => none

/-- The columns that a character before a ligature adds to it, and the ligature that both end in, if
the character belongs to it. -/
def extend? (ligature : Ligature) (character : Char) : Option (Int × Option Ligature) :=
  match ligature.pass? character with
  | some passed => some (0, some passed)
  | none => ligature.letter? character

end Ligature

end HackToolchain
