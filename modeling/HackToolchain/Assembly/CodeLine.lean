import HackToolchain.Text.Blank
import HackToolchain.Text.Cut
import HackToolchain.Text.Position

/-! # Lines of code

What the assembler sees of a text: the lines that hold more than blanks and comments, each with its
number, and each read as a statement.
-/

namespace HackToolchain

/-- A line of code: its number in the text, counted from one, and what it holds. -/
structure CodeLine where
  number : Nat
  code : Text
deriving DecidableEq, Repr

/-- The form of a line of code. -/
inductive Statement where
  /-- A name in round brackets. -/
  | label (name : String)
  /-- An opening bracket with no closing bracket at the end of the line. It stands for no
  instruction, but takes up an address. -/
  | unclosed
  /-- A mark followed by what to load into `A`. -/
  | load (operand : Text)
  /-- Anything else. -/
  | compute (text : Text)
deriving DecidableEq, Repr

namespace CodeLine

/-- The lines of code among some lines. -/
def ofLines (lines : List Text) : List CodeLine :=
  lines.zipIdx.filterMap fun (line, index) =>
    let code := (Text.beforeComment line).trim
    if code = [] then none else some ⟨index + 1, code⟩

/-- The lines of code of a text. -/
def ofText (text : Text) : List CodeLine :=
  ofLines text.lines

/-- The statement on a line of code. -/
def statement (line : CodeLine) : Statement :=
  match line.code with
  | '(' :: rest =>
    if rest.getLast? = some ')' then .label (String.ofList rest.dropLast) else .unclosed
  | '@' :: operand => .load operand
  | code => .compute code

end CodeLine

end HackToolchain
