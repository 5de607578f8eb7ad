import HackToolchain.Text.Position

/-! # Spans

A span is the part of a text between two byte offsets.
-/

namespace HackToolchain

/-- The part of a text from one byte offset up to, and without, another. -/
structure Span where
  start : Nat
  stop : Nat
deriving DecidableEq, Repr, Inhabited

namespace Span

/-- The largest offset that a span can have: offsets are words of 64 bits. -/
def maxOffset : Nat :=
  18446744073709551615

/-- The span of one byte at an offset, unless no offset comes after it. -/
def single? (offset : Nat) : Option Span :=
  if offset < maxOffset then some ⟨offset, offset + 1⟩ else none

/-- The span that a text takes up at an offset. -/
def ofText (offset : Nat) (text : Text) : Span :=
  ⟨offset, offset + text.size⟩

/-- The smallest span that covers two spans. -/
def cover (first second : Span) : Span :=
  ⟨min first.start second.start, max first.stop second.stop⟩

/-- The text of a span, unless an end of the span is out of place. -/
def text? (span : Span) (text : Text) : Option Text :=
  text.slice? span.start span.stop

/-- The position where a span starts. -/
def position? (span : Span) (text : Text) : Option Position :=
  text.position? span.start

end Span

end HackToolchain
