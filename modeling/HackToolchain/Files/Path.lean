import HackToolchain.Text.Offset

/-! # Paths

A path is a text whose pieces are separated by slashes. An empty piece and a piece that is one dot
name nothing, and a piece of two dots names the directory above.
-/

namespace HackToolchain.Path

/-- The pieces of a path. -/
def pieces (path : String) : List Text :=
  path.toList.splitOn '/'

/-- Whether a piece names nothing. -/
def isIdle (piece : Text) : Bool :=
  piece = [] || piece = ['.']

/-- Whether a piece names the directory above. -/
def isParent (piece : Text) : Bool :=
  piece = ['.', '.']

/-- The pieces of a path through the last that names something, in reverse. -/
def namingPieces (path : String) : List Text :=
  (pieces path).reverse.dropWhile isIdle

/-- The name of the file that a path leads to, unless the path ends in no name. -/
def fileName? (path : String) : Option Text :=
  match namingPieces path with
  | [] => none
  | last :: _ => if isParent last then none else some last

/-- A file name cut at its last dot, if something comes before that dot: the stem, and the
extension. -/
def splitName (name : Text) : Text × Option Text :=
  match name.reverse.dropWhile (· != '.') with
  | [] | [_] => (name, none)
  | _ :: stem => (stem.reverse, some (name.reverse.takeWhile (· != '.')).reverse)

/-- The file name of a path without its extension. -/
def stem? (path : String) : Option String :=
  (fileName? path).map fun name => String.ofList (splitName name).1

/-- The extension of a file name. -/
def extension? (name : String) : Option String :=
  (splitName name.toList).2.map String.ofList

/-- A file name with another extension. A name whose stem is one dot keeps its two dots: they name
the directory above, which has no extension. -/
def renameExtension (extension name : Text) : Text :=
  match splitName name with
  | (['.'], some _) => ['.', '.']
  | (stem, _) => stem ++ '.' :: extension

/-- A path with another extension for its file name, and nothing after the file name. -/
def withExtension (extension path : String) : String :=
  match namingPieces path with
  | [] => path
  | last :: before =>
    if isParent last then path
    else
      let name := renameExtension extension.toList last
      String.ofList (['/'].intercalate (name :: before).reverse)

/-- The path of a name in a directory. -/
def join (directory name : String) : String :=
  if directory = "" ∨ directory.toList.getLast? = some '/' then directory ++ name
  else directory ++ "/" ++ name

end HackToolchain.Path
