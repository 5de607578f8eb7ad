import HackToolchain.Files.Path

/-! # File trees

A file tree is a file or a directory of named trees. Paths are followed in it piece by piece: every
piece but the last must lead to a directory that is there.
-/

namespace HackToolchain

/-- A file with its bytes, or a directory with its entries in the order in which they are listed. -/
inductive FileTree where
  | file (contents : ByteArray)
  | directory (entries : List (String × FileTree))

/-- Why a file cannot be used. -/
inductive FileError where
  | notFound
  | notDirectory
  | isDirectory
  | nameTooLong
  | nulCharacter
  | invalidText
  | other (message : String)
deriving DecidableEq, Repr

/-- The message for an error. -/
def FileError.message : FileError → String
  | notFound => "No such file or directory (os error 2)"
  | notDirectory => "Not a directory (os error 20)"
  | isDirectory => "Is a directory (os error 21)"
  | nameTooLong => "File name too long (os error 36)"
  | nulCharacter => "file name contained an unexpected NUL byte"
  | invalidText => "stream did not contain valid UTF-8"
  | other message => message

namespace FileTree

/-- The tree at the end of a list of names. -/
def find? : List String → FileTree → Option FileTree
  | [], tree => some tree
  | _ :: _, file _ => none
  | name :: rest, directory entries => entries.lookup name >>= find? rest

/-- The tree after another is put at the end of a list of names, where missing directories are made
on the way. A file on the way stays. -/
def insert : FileTree → List String → FileTree → FileTree
  | _, [], added => added
  | file contents, _ :: _, _ => file contents
  | directory entries, name :: rest, added =>
    match entries.lookup name with
    | none => directory (entries ++ [(name, (directory []).insert rest added)])
    | some found =>
      let replaced := found.insert rest added
      directory (entries.map fun (other, tree) => (other, if other = name then replaced else tree))
termination_by structural _ names => names

mutual

/-- The files of a tree, with the names that lead to them. -/
def files : FileTree → List (List String × ByteArray)
  | file contents => [([], contents)]
  | directory entries => entryFiles entries

/-- The files of the entries of a directory. -/
def entryFiles : List (String × FileTree) → List (List String × ByteArray)
  | [] => []
  | (name, tree) :: rest =>
    (files tree).map (fun (path, contents) => (name :: path, contents)) ++ entryFiles rest

end

/-- The names that lead to where some pieces lead from a directory. -/
def follow (tree : FileTree) : (place : List String) → List Text → Except FileError (List String)
  | place, [] => .ok place
  | place, piece :: rest =>
    match tree.find? place with
    | none => .error .notFound
    | some (file _) => .error .notDirectory
    | some (directory _) =>
      if Path.isIdle piece then follow tree place rest
      else if Path.isParent piece then follow tree place.dropLast rest
      else if 255 < Text.size piece then .error .nameTooLong
      else follow tree (place ++ [String.ofList piece]) rest

/-- The names that lead to where some pieces of a path lead: from the top if the path starts with a
slash, from the current directory if not. -/
def resolve (tree : FileTree) (current : List String) (path : String) (pieces : List Text) :
    Except FileError (List String) :=
  if path.toList.contains '\x00' then .error .nulCharacter
  else if path = "" then .error .notFound
  else if 4096 ≤ path.utf8ByteSize then .error .nameTooLong
  else if path.toList.head? = some '/' then follow tree [] pieces
  else follow tree current pieces

/-- What a path leads to. -/
def access (tree : FileTree) (current : List String) (path : String) :
    Except FileError FileTree := do
  let place ← tree.resolve current path (Path.pieces path)
  match tree.find? place with
  | some found => .ok found
  | none => .error .notFound

/-- The pieces of a path to a file to write. After a path that ends in a slash no file is named, and
only the way to the directory before its last name is followed. -/
def targetPieces (path : String) : List Text :=
  let pieces := ((Path.pieces path).reverse.dropWhile (· = [])).reverse
  if path.toList.getLast? = some '/' then pieces.dropLast ++ [[]] else pieces

/-- Where a file can be written under a path: at a name in a directory that is there, which is not
itself a directory. -/
def target (tree : FileTree) (current : List String) (path : String) :
    Except FileError (List String) := do
  let place ← tree.resolve current path (targetPieces path)
  if path.toList.getLast? = some '/' then .error .isDirectory
  else match tree.find? place with
    | some (directory _) => .error .isDirectory
    | some (file _) | none => .ok place

/-- The tree with a directory at the end of a list of names, unless something is there. -/
def makeDirectory (tree : FileTree) (place : List String) : FileTree :=
  match tree.find? place with
  | some _ => tree
  | none => tree.insert place (directory [])

/-- The tree with all directories that some pieces lead through from a directory, and the names that
lead to the last of them. -/
def makeDirectories (tree : FileTree) (place : List String) : List Text → FileTree × List String
  | [] => (tree, place)
  | piece :: rest =>
    if Path.isIdle piece then makeDirectories tree place rest
    else if Path.isParent piece then makeDirectories tree place.dropLast rest
    else
      let next := place ++ [String.ofList piece]
      makeDirectories (tree.makeDirectory next) next rest

end FileTree

end HackToolchain
