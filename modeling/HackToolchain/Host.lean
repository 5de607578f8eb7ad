import HackToolchain.Files.Tree

/-! # Hosts

A host is what the command line needs from the system that it runs on: files, and two streams to
write to. Everything above it works with any host, in any monad. The world is a host without a
system: a file tree, the texts written so far, and what keeps files from being written to their end.
-/

namespace HackToolchain

/-- The operations of a host. -/
structure Host (m : Type → Type) where
  isDirectory : String → m Bool
  isFile : String → m Bool
  /-- The names of the entries of a directory, in any order. -/
  list : String → m (Except FileError (List String))
  /-- The last name on the way from the top to a directory, which the top itself does not have. -/
  directoryName : String → m (Except FileError (Option String))
  read : String → m (Except FileError ByteArray)
  write : String → ByteArray → m (Except FileError Unit)
  /-- Writes to the standard output. -/
  print : String → m Unit
  /-- Writes to the standard error output. -/
  log : String → m Unit

/-- What breaks off the writing of a file: the number of bytes that get through, and the cause. -/
structure Shortage where
  room : Nat
  cause : FileError
deriving DecidableEq, Repr

/-- A file tree, the names that lead to the current directory, and what was written. -/
structure World where
  tree : FileTree
  current : List String := []
  output : String := ""
  log : String := ""
  /-- What files that are longer than it allows come up against. -/
  shortage : Option Shortage := none

namespace World

/-- The world with a directory under a path from the current directory, and all directories on the
way. -/
def withDirectory (world : World) (path : String) : World :=
  { world with tree := (world.tree.makeDirectories world.current (Path.pieces path)).1 }

/-- The world with a file under a path from the current directory, and all directories on the
way. -/
def withFile (world : World) (path : String) (contents : ByteArray) : World :=
  let pieces := Path.pieces path
  let (tree, place) := world.tree.makeDirectories world.current pieces.dropLast
  let name := String.ofList (pieces.getLast?.getD [])
  { world with tree := tree.insert (place ++ [name]) (.file contents) }

/-- What a path leads to. -/
def access (world : World) (path : String) : Except FileError FileTree :=
  world.tree.access world.current path

/-- Whether a path leads to a directory. -/
def isDirectory (world : World) (path : String) : Bool :=
  match world.access path with
  | .ok (.directory _) => true
  | _ => false

/-- Whether a path leads to a file. -/
def isFile (world : World) (path : String) : Bool :=
  match world.access path with
  | .ok (.file _) => true
  | _ => false

/-- The names of the entries of a directory. -/
def list (world : World) (path : String) : Except FileError (List String) := do
  match ← world.access path with
  | .directory entries => .ok (entries.map Prod.fst)
  | .file _ => .error .notDirectory

/-- The last name on the way to what a path leads to. -/
def directoryName (world : World) (path : String) : Except FileError (Option String) := do
  let place ← world.tree.resolve world.current path (Path.pieces path)
  return place.getLast?

/-- The bytes of a file. -/
def read (world : World) (path : String) : Except FileError ByteArray := do
  match ← world.access path with
  | .file contents => .ok contents
  | .directory _ => .error .isDirectory

/-- The bytes of a file that get written, and whether these are all. -/
def stored (world : World) (contents : ByteArray) : ByteArray × Except FileError Unit :=
  match world.shortage with
  | none => (contents, .ok ())
  | some shortage =>
    if contents.size ≤ shortage.room then (contents, .ok ())
    else (contents.extract 0 shortage.room, .error shortage.cause)

/-- What comes of writing a file, and the world after it. A file is emptied before it is written, so
what it held is lost even where writing breaks off. -/
def write (world : World) (path : String) (contents : ByteArray) : Except FileError Unit × World :=
  match world.tree.target world.current path with
  | .error error => (.error error, world)
  | .ok place =>
    let (bytes, outcome) := world.stored contents
    (outcome, { world with tree := world.tree.insert place (.file bytes) })

/-- The world as a host. -/
def host : Host (StateM World) where
  isDirectory path := return (← get).isDirectory path
  isFile path := return (← get).isFile path
  list path := return (← get).list path
  directoryName path := return (← get).directoryName path
  read path := return (← get).read path
  write path contents := modifyGet fun world => world.write path contents
  print text := modify fun world => { world with output := world.output ++ text }
  log text := modify fun world => { world with log := world.log ++ text }

end World

end HackToolchain
