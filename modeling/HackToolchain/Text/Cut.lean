import HackToolchain.Text.Offset

/-! # Cutting texts

Cuts at the first place where a mark stands.
-/

namespace HackToolchain.Text

/-- The part of a line before its comment, which starts at the first two slashes in a row. -/
def beforeComment : Text → Text
  | [] => []
  | '/' :: '/' :: _ => []
  | character :: rest => character :: beforeComment rest

/-- The parts of a text before and after the first of a character. -/
def splitOnce? (separator : Char) (text : Text) : Option (Text × Text) :=
  match text.dropWhile (· != separator) with
  | [] => none
  | _ :: rest => some (text.takeWhile (· != separator), rest)

end HackToolchain.Text
