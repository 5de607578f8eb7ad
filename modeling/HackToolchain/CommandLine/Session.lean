import HackToolchain.Assembly.Program
import HackToolchain.CommandLine.Arguments
import HackToolchain.Machine.Computer
import HackToolchain.Snippet
import HackToolchain.Source.Load

/-! # Sessions

A session carries out a command line on a host. The input is a file or a directory of files; either
all of it is loaded, compiled and used, or nothing is written but messages. Writing itself can still
be broken off.
-/

namespace HackToolchain

/-- How much a message matters. -/
inductive Level where
  | error
  | info
  | debug
  | trace
deriving DecidableEq, Repr

namespace Level

/-- The heading of a message. -/
def name : Level → String
  | error => "error"
  | info => "info"
  | debug => "debug"
  | trace => "trace"

/-- How many times more messages have to be asked for before a message is shown. -/
def threshold : Level → Nat
  | error | info => 0
  | debug => 1
  | trace => 2

end Level

/-- How much a note matters. -/
def Note.level : Note → Level
  | classified _ => .trace
  | bootstrap _ | started _ | finished _ _ => .debug

/-- Why a session fails. -/
inductive SessionFailure where
  | unnamedOutput (input : String)
  | lostDirectory (cause : FileError)
  | unlistedDirectory (path : String) (cause : FileError)
  | noUnits (path : String)
  | source (failure : SourceFailure)
  | unknownUnit
  | faultyUnit (path : String)
  /-- A command at fault that there is no snippet for, because it would be too wide. -/
  | unshownFault (path : String)
  | emission (cause : SinkFailure)
  | unwrittenOutput (path : String) (cause : FileError)
  | assembly (failure : AssemblyFailure)
  | address (fault : AddressFault)
deriving DecidableEq, Repr

namespace SessionFailure

/-- The message for a failure, with its cause. -/
def message : SessionFailure → String
  | unnamedOutput input => "failed to name output for `" ++ input ++ "`"
  | lostDirectory cause => cause.message
  | unlistedDirectory path cause =>
    "failed to read directory `" ++ path ++ "`: " ++ cause.message
  | noUnits path => "no `.vm` files found in `" ++ path ++ "`"
  | source failure => failure.fullMessage
  | unknownUnit => "error in unknown unit"
  | faultyUnit path => "could not translate `" ++ path ++ "`"
  | unshownFault path => "no room to show the command at fault in `" ++ path ++ "`"
  | emission cause => (EmissionFailure.output cause).message ++ ": " ++ cause.message
  | unwrittenOutput path cause => "failed to write `" ++ path ++ "`: " ++ cause.message
  | assembly failure => failure.message
  | address fault => fault.message

/-- The exit code for a failure. What is out of bounds ends the program at once, with a code of its
own. -/
def exitCode : SessionFailure → Nat
  | assembly .overflow | unshownFault _ => 101
  | _ => 1

end SessionFailure

/-- A unit, and the path that it was loaded from. -/
structure LoadedUnit where
  path : String
  source : Source
deriving DecidableEq, Repr

namespace Session

variable {m : Type → Type} [Monad m] (host : Host m) (verbosity : Nat) (terminal : Terminal)

/-- Shows a message, if as many are asked for. -/
def report (level : Level) (text : String) : m Unit :=
  if level.threshold ≤ verbosity then host.log (level.name ++ ": " ++ text ++ "\n") else pure ()

/-- Whether an entry of a directory is a file of stack code. -/
def isUnit (directory name : String) : m Bool := do
  if Path.extension? name = some "vm" then host.isFile (Path.join directory name) else return false

/-- The paths of the units of an input: those of the files of stack code in a directory, by name, or
the input itself. -/
def unitPaths (input : String) : ExceptT SessionFailure m (List String) := do
  if ← host.isDirectory input then
    match ← host.list input with
    | .error cause => throw (.unlistedDirectory input cause)
    | .ok names =>
      let units ← names.filterM fun name => isUnit (m := m) host input name
      if units.isEmpty then throw (.noUnits input)
      return (units.mergeSort fun first second => decide (first ≤ second)).map (Path.join input)
  else return [input]

/-- Loads a unit. -/
def loadUnit (path : String) : ExceptT SessionFailure m LoadedUnit := do
  match ← Source.load (m := m) host path with
  | .ok source => return ⟨path, source⟩
  | .error failure => throw (.source failure)

/-- Loads the units of an input. -/
def loadUnits (input : String) : ExceptT SessionFailure m (List LoadedUnit) := do
  (← unitPaths host input).mapM (loadUnit host)

/-- Compiles units, and shows the command at fault if there is one. -/
def compileUnits (options : EmissionOptions) (units : List LoadedUnit) :
    ExceptT SessionFailure m String := do
  units.forM fun unit => report (m := m) host verbosity .debug ("reading " ++ unit.path)
  let compilation := compile options (units.map LoadedUnit.source)
  compilation.journal.toList.forM fun note => report (m := m) host verbosity note.level note.message
  match compilation.result with
  | .ok code => return code
  | .error (.output cause) => throw (.emission cause)
  | .error (.command name _ fault) =>
    match units.find? fun unit => unit.source.name = name with
    | none => throw .unknownUnit
    | some unit =>
      match Snippet.of? unit.path fault.message fault.span unit.source.text.toList terminal with
      | none => throw (.unshownFault unit.path)
      | some snippet =>
        host.log (snippet.render false terminal ++ "\n")
        throw (.faultyUnit unit.path)

/-- The file to write the code of an input to: in a directory, it is named like the directory. -/
def outputPath (input : String) : ExceptT SessionFailure m String := do
  if ← host.isDirectory input then
    match ← host.directoryName input with
    | .error cause => throw (.lostDirectory cause)
    | .ok none => throw (.unnamedOutput input)
    | .ok (some name) => return Path.join input (name ++ ".asm")
  else return Path.withExtension "asm" input

/-- Writes the code of an input to a file. -/
def build (input : String) (output : Option String) (options : EmissionOptions) :
    ExceptT SessionFailure m Unit := do
  let output ← match output with
    | some path => pure path
    | none => outputPath host input
  let units ← loadUnits host input
  report (m := m) host verbosity .info ("translating " ++ input)
  let code ← compileUnits host verbosity terminal options units
  match ← host.write output code.toUTF8 with
  | .error cause => throw (.unwrittenOutput output cause)
  | .ok () => report (m := m) host verbosity .info ("finished " ++ output)

/-- The computer that is to run a program. A program that does not set up the stack finds it set
up. -/
def boot (options : EmissionOptions) (program : Program) : Computer :=
  let memory :=
    if options.bootstrap then Memory.zeroed else Memory.zeroed.write 0 stackBase
  { program := program.instructions, memory }

/-- The text that shows the stack: its pointer, and its top if the pointer is positive. -/
def stackSummary (memory : Memory) : String :=
  let pointer := memory.read 0
  "SP: " ++ toString pointer.toInt ++ "\n" ++
    if 0 < pointer.toInt then "top: " ++ toString (memory.read (pointer - 1)).toInt ++ "\n" else ""

/-- Runs the code of an input. -/
def runCode (input : String) (steps : Nat) (options : EmissionOptions) (code : String) :
    ExceptT SessionFailure m Unit := do
  match Program.assemble code.toList with
  | .error failure => throw (.assembly failure)
  | .ok program =>
    report (m := m) host verbosity .info ("running " ++ input)
    let (computer, outcome) := (boot options program).run steps
    match outcome with
    | .faulted fault => throw (.address fault)
    | .halted =>
      report (m := m) host verbosity .info ("halted after " ++ computer.steps.repr ++ " steps")
    | .exhausted =>
      report (m := m) host verbosity .info ("stopped after " ++ computer.steps.repr ++ " steps")
    host.print (stackSummary computer.memory)

/-- Runs an input. -/
def run (input : String) (steps : Nat) (options : EmissionOptions) :
    ExceptT SessionFailure m Unit := do
  let units ← loadUnits host input
  let code ← compileUnits host verbosity terminal options units
  runCode host verbosity input steps options code

/-- Carries out a task. -/
def perform : Task → ExceptT SessionFailure m Unit
  | .build input output options => build host verbosity terminal input output options
  | .run input steps options => run host verbosity terminal input steps options

/-- Carries out an invocation, and gives its exit code. -/
def execute (invocation : Invocation) (terminal : Terminal := {}) : m Nat := do
  match ← (perform host invocation.verbosity terminal invocation.task).run with
  | .ok () => return 0
  | .error failure =>
    report host invocation.verbosity .error failure.message
    return failure.exitCode

/-- The name and version of the program that runs; no invocation shows it. -/
def versionText : String :=
  "hackvm 0.0.0\n"

/-- How to use the program that runs; no invocation shows it. -/
def helpText : String :=
  "hackvm [-v] build INPUT [-o FILE] [--no-annotate] [--no-bootstrap] [--entry NAME]\n" ++
    "hackvm [-v] run INPUT [--steps N] [--no-bootstrap] [--entry NAME]\n"

/-- Carries out a command line, and gives its exit code. -/
def start (arguments : List String) : m Nat := do
  match Arguments.parse arguments with
  | .ok invocation => execute host invocation
  | .error .version =>
    host.print versionText
    return 0
  | .error .help =>
    host.print helpText
    return 0
  | .error (.usage error) =>
    host.log ("error: " ++ error.message ++ "\n" ++ helpText)
    return 2

end Session

end HackToolchain
