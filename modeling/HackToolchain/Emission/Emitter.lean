import HackToolchain.Command.Reading
import HackToolchain.Emission.Sink
import HackToolchain.Emission.Template

/-! # Emitters

An emitter writes the assembly code of any number of units into one sink: first the bootstrap code,
if there is to be any, then every command of every unit as soon as it is read. It stays usable after
a failure. A journal records what it did.
-/

namespace HackToolchain

/-- What is written besides the lines of the commands. -/
structure EmissionOptions where
  /-- Whether code that sets up the stack and calls the entry function comes first. -/
  bootstrap : Bool := true
  /-- The name of the entry function. -/
  entry : String := "Sys.init"
  /-- Whether each command is written as a comment before its lines. -/
  annotate : Bool := true
deriving DecidableEq, Repr

/-- A step worth recording. -/
inductive Note where
  | bootstrap (entry : String)
  | started (unit : String)
  | classified (command : Command)
  | finished (unit : String) (commands : Nat)
deriving DecidableEq, Repr

/-- The message for a note. -/
def Note.message : Note → String
  | bootstrap entry => "writing bootstrap calling `" ++ entry ++ "`"
  | started unit => "translating `" ++ unit ++ "`"
  | classified command => "classified `" ++ command.render ++ "`"
  | finished unit commands => "translated `" ++ unit ++ "`: " ++ commands.repr ++ " commands"

/-- Why units cannot be emitted. -/
inductive EmissionFailure where
  /-- A command of a unit is at fault, at a position of the unit's text. -/
  | command (unit : String) (position : Position) (fault : CommandFault)
  /-- The sink refused. -/
  | output (cause : SinkFailure)
deriving DecidableEq, Repr

namespace EmissionFailure

/-- A fault in a command of a unit, with the position that it starts at. -/
def ofFault (source : Source) (fault : CommandFault) : EmissionFailure :=
  command source.name (Text.position fault.span.start source.text.toList) fault

/-- The message for a failure; lines and columns are counted from one. -/
def message : EmissionFailure → String
  | command unit position fault =>
    unit ++ ":" ++ (position.line + 1).repr ++ ":" ++ (position.column + 1).repr ++ ": " ++
      fault.message
  | output _ => "failed to write output"

end EmissionFailure

/-- The state of an emitter. -/
structure Emitter where
  options : EmissionOptions
  supply : LabelSupply := {}
  /-- Whether the bootstrap code has had its turn. -/
  started : Bool := false
  sink : Sink := {}
  journal : Array Note := #[]

namespace Emitter

/-- Records a note. -/
def record (note : Note) (emitter : Emitter) : Emitter :=
  { emitter with journal := emitter.journal.push note }

/-- Writes lines under a caption, if captions are wanted. -/
def write (caption : String) (lines : List AssemblyLine) : Emitter → Emitter × Option SinkFailure
  | ⟨options, supply, started, sink, journal⟩ =>
    let lines := if options.annotate then .comment caption :: lines else lines
    let (sink, failure) := sink.writeLines lines
    (⟨options, supply, started, sink, journal⟩, failure)

/-- Gives the bootstrap code its turn, once. -/
def start (emitter : Emitter) : Emitter × Option SinkFailure :=
  if emitter.started then (emitter, none)
  else if emitter.options.bootstrap then
    let entry := emitter.options.entry
    let (lines, supply) := Template.bootstrap emitter.supply entry
    { emitter with started := true, supply }.record (.bootstrap entry) |>.write "bootstrap" lines
  else ({ emitter with started := true }, none)

/-- Writes the lines of a command of a unit. -/
def command (source : Source) (located : LocatedCommand) (emitter : Emitter) :
    Emitter × Option EmissionFailure :=
  let emitter := emitter.record (.classified located.command)
  match Template.command source.name emitter.supply located.command with
  | .error cause => (emitter, some (.ofFault source ⟨cause, located.span⟩))
  | .ok (lines, supply) =>
    let (emitter, failure) := { emitter with supply }.write located.command.render lines
    (emitter, failure.map .output)

/-- Writes the commands of a unit up to the first fault, after so many commands of the unit. The
count has no bound here; kept in a signed word of 32 bits it is the same for units of fewer than
2 ^ 31 commands. -/
def readings (source : Source) : (count : Nat) → List Reading → Emitter →
    Emitter × Option EmissionFailure
  | count, [], emitter => (emitter.record (.finished source.name count), none)
  | _, .error fault :: _, emitter => (emitter, some (.ofFault source fault))
  | count, .ok located :: rest, emitter =>
    match emitter.command source located with
    | (emitter, none) => readings source (count + 1) rest emitter
    | (emitter, some failure) => (emitter, some failure)

/-- Writes a unit. -/
def unit (source : Source) (emitter : Emitter) : Emitter × Option EmissionFailure :=
  match emitter.start with
  | (emitter, some failure) => (emitter, some (.output failure))
  | (emitter, none) =>
    emitter.record (.started source.name) |>.readings source 0 (Command.readings source.text.toList)

/-- Completes the output. -/
def finish (emitter : Emitter) : Emitter × Option EmissionFailure :=
  match emitter.start with
  | (emitter, some failure) => (emitter, some (.output failure))
  | (emitter, none) => (emitter, emitter.sink.flush.map .output)

/-- Writes units up to the first that fails, and completes the output if none does. -/
def units : List Source → Emitter → Emitter × Option EmissionFailure
  | [], emitter => emitter.finish
  | source :: rest, emitter =>
    match emitter.unit source with
    | (emitter, none) => units rest emitter
    | (emitter, some failure) => (emitter, some failure)

end Emitter

/-- What becomes of some units: the code or the reason why there is none, and the journal. -/
structure Compilation where
  result : Except EmissionFailure String
  journal : Array Note

/-- Compiles units into one program of assembly code. -/
def compile (options : EmissionOptions) (sources : List Source) : Compilation :=
  match Emitter.units sources { options } with
  | (emitter, none) => ⟨.ok (emitter.sink.text?.getD ""), emitter.journal⟩
  | (emitter, some failure) => ⟨.error failure, emitter.journal⟩

end HackToolchain
