import HackToolchain.Host
import HackToolchain.Command.Reading
import HackToolchain.Symbol

/-! # Loading sources

The name of a source is the stem of the name of its file. It must be a symbol, since the static
cells of the source carry it, and it is looked at before the file is.
-/

namespace HackToolchain

/-- Why a source cannot be loaded from a path. -/
inductive SourceFailure where
  | notFound (path : String)
  | unitName (path name : String)
  | unreadable (path : String) (cause : FileError)
deriving DecidableEq, Repr

namespace SourceFailure

/-- The message for a failure. -/
def message : SourceFailure → String
  | notFound path => "source `" ++ path ++ "` not found"
  | unitName path name => "`" ++ name ++ "` can't be used as a unit name, from `" ++ path ++ "`"
  | unreadable path _ => "failed to read `" ++ path ++ "`"

/-- The message for a failure, with its cause. -/
def fullMessage (failure : SourceFailure) : String :=
  match failure with
  | unreadable _ cause => failure.message ++ ": " ++ cause.message
  | notFound _ | unitName _ _ => failure.message

end SourceFailure

namespace Source

/-- The source in the bytes of a file. -/
def ofBytes (path name : String) : Except FileError ByteArray → Except SourceFailure Source
  | .error .notFound => .error (.notFound path)
  | .error cause => .error (.unreadable path cause)
  | .ok bytes =>
    match String.fromUTF8? bytes with
    | some text => .ok ⟨name, text⟩
    | none => .error (.unreadable path .invalidText)

/-- Loads the source in a file. -/
def load {m : Type → Type} [Monad m] (host : Host m) (path : String) :
    m (Except SourceFailure Source) := do
  let name := (Path.stem? path).getD ""
  if isSymbol name then return ofBytes path name (← host.read path)
  else return .error (.unitName path name)

end Source

end HackToolchain
