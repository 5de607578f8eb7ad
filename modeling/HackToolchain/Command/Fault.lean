import HackToolchain.Span

/-! # Faults in commands

What can be wrong with a command, and where. A fault has one of three kinds, and a message that
follows from its cause.
-/

namespace HackToolchain

/-- What is wrong with a command. -/
inductive FaultCause where
  /-- A slash that starts no comment. -/
  | unexpectedCharacter
  | unknownCommand
  | argumentCount (expected found : Nat)
  | unknownSegment
  /-- A number with a character that is no digit. -/
  | invalidDigit
  /-- A number that does not fit a word. -/
  | literalRange
  /-- A number that fits a word, but no address instruction. -/
  | addressRange
  | popConstant
  | pointerIndex
deriving DecidableEq, Repr

/-- The kinds of fault. -/
inductive FaultKind where
  | malformedCommand
  | invalidNumericArgument
  | unsupportedSegment
deriving DecidableEq, Repr

namespace FaultCause

/-- The kind that a cause belongs to. -/
def kind : FaultCause → FaultKind
  | unexpectedCharacter | unknownCommand | argumentCount _ _ | unknownSegment => .malformedCommand
  | invalidDigit | literalRange | addressRange => .invalidNumericArgument
  | popConstant | pointerIndex => .unsupportedSegment

/-- The message for a cause. -/
def message : FaultCause → String
  | unexpectedCharacter => "unexpected character"
  | unknownCommand => "unknown command"
  | argumentCount expected found =>
    "expected " ++ expected.repr ++ (if expected = 1 then " argument" else " arguments") ++
      ", found " ++ found.repr
  | unknownSegment => "unknown memory segment"
  | invalidDigit => "invalid digit for base 10 literal"
  | literalRange => "literal out of range for 16-bit integer"
  | addressRange => "value out of range for a 15-bit address"
  | popConstant => "cannot pop into the constant segment"
  | pointerIndex => "pointer index must be 0 or 1"

end FaultCause

/-- A fault in a command, with the part of the text to blame for it. -/
structure CommandFault where
  cause : FaultCause
  span : Span
deriving DecidableEq, Repr

namespace CommandFault

/-- The kind of a fault. -/
def kind (fault : CommandFault) : FaultKind :=
  fault.cause.kind

/-- The message of a fault. -/
def message (fault : CommandFault) : String :=
  fault.cause.message

end CommandFault

end HackToolchain
