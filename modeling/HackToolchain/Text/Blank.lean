import HackToolchain.Text.Offset

/-! # Blank characters

The characters with the Unicode property White_Space, and texts without blank ends.
-/

namespace HackToolchain

/-- The code points with the Unicode property White_Space, as inclusive ranges. -/
def blankRanges : List (Nat × Nat) :=
  [(0x09, 0x0D), (0x20, 0x20), (0x85, 0x85), (0xA0, 0xA0), (0x1680, 0x1680), (0x2000, 0x200A),
    (0x2028, 0x2029), (0x202F, 0x202F), (0x205F, 0x205F), (0x3000, 0x3000)]

/-- Whether a character is blank. -/
def isBlank (character : Char) : Bool :=
  blankRanges.any fun (first, last) => first ≤ character.toNat && character.toNat ≤ last

/-- Whether a character is blank and does not end a line. -/
def isInnerBlank (character : Char) : Bool :=
  isBlank character && character != '\n'

namespace Text

/-- A text without the blank characters at its two ends. -/
def trim (text : Text) : Text :=
  ((text.dropWhile isBlank).reverse.dropWhile isBlank).reverse

end Text

end HackToolchain
