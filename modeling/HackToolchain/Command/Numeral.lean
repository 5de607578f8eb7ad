import HackToolchain.Command.Fault
import HackToolchain.Command.Token
import HackToolchain.Symbol

/-! # Numeric arguments

A numeric argument is a word of decimal digits whose value fits a machine word. The digits are read
from left to right, so of two faults the one that shows first is the one blamed.
-/

namespace HackToolchain

namespace Numeral

/-- The value of a decimal digit. -/
def digitValue (digit : Char) : Nat :=
  digit.toNat - '0'.toNat

/-- Reads the digits of a number from an offset on, after digits of a given value. A character that
is no digit is blamed alone, a number out of range as a whole. -/
def readFrom (whole : Span) : (offset value : Nat) → (digits : Text) → Except CommandFault Nat
  | _, value, [] => .ok value
  | offset, value, digit :: rest =>
    if digit.isDigit then
      let next := 10 * value + digitValue digit
      if next ≤ Word.maxValue then readFrom whole (offset + digit.utf8Size) next rest
      else .error ⟨.literalRange, whole⟩
    else .error ⟨.invalidDigit, Span.ofText offset [digit]⟩

/-- Reads a token as a number. -/
def read (token : Token) : Except CommandFault Word :=
  (readFrom token.span token.span.start 0 token.text).map (BitVec.ofNat 16)

end Numeral

end HackToolchain
