import HackToolchain.Command.Basic
import HackToolchain.Command.Numeral

/-! # Reading commands

A line with words on it is one command. A reading is what the reader makes of a line: a command with
its span, or a fault. Reading goes on after a fault, so the readings of a text say all that there is
to say about it; `Command.readAll` keeps the commands if there is no fault.
-/

namespace HackToolchain

/-- A unit of stack code: a name, which its static cells carry, and a text. -/
structure Source where
  name : String
  text : String
deriving DecidableEq, Repr

/-- A command, and the part of the text from its first word through its last. -/
structure LocatedCommand where
  span : Span
  command : Command
deriving DecidableEq, Repr

/-- What is read at one place of a text. -/
abbrev Reading := Except CommandFault LocatedCommand

namespace Command

/-- Reads a token as the name of a segment. -/
def readSegment (token : Token) : Except CommandFault Segment :=
  match Segment.ofName? token.name with
  | some segment => .ok segment
  | none => .error ⟨.unknownSegment, token.span⟩

/-- Reads the arguments of a keyword. The number of arguments is checked before any of them, and
they are read from left to right. -/
def readArguments (first : Token) (keyword : Keyword) (arguments : List Token) :
    Except CommandFault Command :=
  match keyword, arguments with
  | .operator op, [] => .ok (.operator op)
  | .push, [segment, index] => return .push (← readSegment segment) (← Numeral.read index)
  | .pop, [segment, index] => return .pop (← readSegment segment) (← Numeral.read index)
  | .label, [name] => .ok (.label name.name)
  | .goto, [name] => .ok (.goto name.name)
  | .ifGoto, [name] => .ok (.ifGoto name.name)
  | .function, [name, locals] => return .function name.name (← Numeral.read locals)
  | .call, [name, count] => return .call name.name (← Numeral.read count)
  | .return, [] => .ok .return
  | keyword, arguments => .error ⟨.argumentCount keyword.arity arguments.length, first.span⟩

/-- Reads the words of a line as a command. -/
def classify (first : Token) (arguments : List Token) : Except CommandFault Command :=
  match Keyword.ofName? first.name with
  | some keyword => readArguments first keyword arguments
  | none => .error ⟨.unknownCommand, first.span⟩

/-- The reading of a line with the given words, if there are any. -/
def readWords : List Token → List Reading
  | [] => []
  | first :: arguments =>
    let span := arguments.foldl (fun covered word => covered.cover word.span) first.span
    [(classify first arguments).map (LocatedCommand.mk span)]

/-- The readings of some tokens after the words of an unfinished line, which are kept in reverse.
A stray slash is a fault of its own: the words before it are dropped, and the line goes on. -/
def readTokens : List Token → List Token → List Reading
  | words, [] => readWords words.reverse
  | words, token :: rest =>
    match token.kind with
    | .word => readTokens (token :: words) rest
    | .blank | .comment => readTokens words rest
    | .newline => readWords words.reverse ++ readTokens [] rest
    | .strayMark => .error ⟨.unexpectedCharacter, token.span⟩ :: readTokens [] rest

/-- The readings of a text, in order. -/
def readings (text : Text) : List Reading :=
  readTokens [] (Token.scan text)

/-- The commands of a text, or its first fault. -/
def readAll (text : Text) : Except CommandFault (List LocatedCommand) :=
  (readings text).mapM id

end Command

end HackToolchain
