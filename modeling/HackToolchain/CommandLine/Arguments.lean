import HackToolchain.Emission.Emitter

/-! # Command line arguments

A command line is a task with its options, after options of its own. Options are written long, with
two dashes, or as letters that can share one dash; the value of an option follows it as the next
argument, after an equals sign, or right after its letter. All that follows two dashes alone is
taken as it stands.

This is the outermost layer of the program that runs. A session starts from an invocation, whichever
way that was read.
-/

namespace HackToolchain

/-- What the command line is asked to do. -/
inductive Task where
  /-- Writes the assembly code of an input to a file. -/
  | build (input : String) (output : Option String) (options : EmissionOptions)
  /-- Runs an input for a number of steps at most. -/
  | run (input : String) (steps : Nat) (options : EmissionOptions)
deriving DecidableEq, Repr

/-- A task, and how many times more messages are asked for. -/
structure Invocation where
  verbosity : Nat
  task : Task
deriving DecidableEq, Repr

/-- What is wrong with a command line. -/
inductive UsageError where
  | missingCommand
  | unknownCommand (name : String)
  | unknownOption (text : String)
  | repeatedOption
  | missingValue
  | unneededValue (text : String)
  | missingInput
  | extraArgument (text : String)
  | invalidSteps (text : String)
deriving DecidableEq, Repr

/-- The message for an error. -/
def UsageError.message : UsageError → String
  | missingCommand => "a command is required: build or run"
  | unknownCommand name => "there is no command `" ++ name ++ "`"
  | unknownOption text => "there is no option `" ++ text ++ "` here"
  | repeatedOption => "an option is given more than once"
  | missingValue => "an option lacks its value"
  | unneededValue text => "the option `" ++ text ++ "` takes no value"
  | missingInput => "an input is required"
  | extraArgument text => "there is no place for the argument `" ++ text ++ "`"
  | invalidSteps text => "`" ++ text ++ "` is no number of steps"

/-- Why a command line is no invocation. -/
inductive Interruption where
  | version
  | help
  | usage (error : UsageError)
deriving DecidableEq, Repr

namespace Arguments

/-- The commands. -/
inductive Verb where
  | build
  | run
deriving DecidableEq, Repr

/-- The command with a name. -/
def Verb.ofName? : String → Option Verb
  | "build" => some .build
  | "run" => some .run
  | _ => none

/-- An option without a value. -/
inductive Flag where
  | verbose
  | version
  | help
  | noAnnotate
  | noBootstrap
deriving DecidableEq, Repr

/-- An option with a value. -/
inductive Setting where
  | output
  | steps
  | entry
deriving DecidableEq, Repr

/-- An option. -/
inductive Choice where
  | flag (flag : Flag)
  | setting (setting : Setting)
deriving DecidableEq, Repr

/-- The option with a long name after a command, or before it. -/
def longChoice? : Option Verb → String → Option Choice
  | _, "verbose" => some (.flag .verbose)
  | _, "help" => some (.flag .help)
  | none, "version" => some (.flag .version)
  | some .build, "output" => some (.setting .output)
  | some .build, "no-annotate" => some (.flag .noAnnotate)
  | some .build, "no-bootstrap" => some (.flag .noBootstrap)
  | some .build, "entry" => some (.setting .entry)
  | some .run, "steps" => some (.setting .steps)
  | some .run, "no-bootstrap" => some (.flag .noBootstrap)
  | some .run, "entry" => some (.setting .entry)
  | _, _ => none

/-- The option with a letter after a command, or before it. -/
def shortChoice? : Option Verb → Char → Option Choice
  | _, 'v' => some (.flag .verbose)
  | _, 'h' => some (.flag .help)
  | none, 'V' => some (.flag .version)
  | some .build, 'o' => some (.setting .output)
  | _, _ => none

/-- What has been read before a command, or after it. -/
structure Given where
  verbosity : Nat := 0
  flags : List Flag := []
  settings : List (Setting × String) := []
  input : Option String := none
deriving DecidableEq, Repr

namespace Given

/-- Adds a flag. Only the flag for more messages can be given twice. -/
def addFlag (given : Given) : Flag → Except Interruption Given
  | .verbose => .ok { given with verbosity := given.verbosity + 1 }
  | .version => .error .version
  | .help => .error .help
  | flag =>
    if flag ∈ given.flags then .error (.usage .repeatedOption)
    else .ok { given with flags := flag :: given.flags }

/-- Adds a setting, unless it is there. -/
def addSetting (given : Given) (setting : Setting) (value : String) : Except Interruption Given :=
  if (given.settings.lookup setting).isSome then .error (.usage .repeatedOption)
  else .ok { given with settings := (setting, value) :: given.settings }

/-- Adds the input, unless it is there. -/
def addInput (given : Given) (text : String) : Except Interruption Given :=
  if given.input.isSome then .error (.usage (.extraArgument text))
  else .ok { given with input := some text }

end Given

/-- Whether an argument can stand by itself: a dash followed by something starts options. -/
def isPlain (argument : String) : Bool :=
  match argument.toList with
  | '-' :: _ :: _ => false
  | _ => true

/-- Reads letters that share a dash. The last of them can be a setting that lacks its value. -/
def readLetters (verb : Option Verb) : Text → Given → Except Interruption (Given × Option Setting)
  | [], given => .ok (given, none)
  | letter :: rest, given =>
    match shortChoice? verb letter with
    | none => .error (.usage (.unknownOption (String.ofList ['-', letter])))
    | some (.flag flag) => do readLetters verb rest (← given.addFlag flag)
    | some (.setting setting) =>
      match rest with
      | [] => .ok (given, some setting)
      | '=' :: value => return (← given.addSetting setting (String.ofList value), none)
      | value => return (← given.addSetting setting (String.ofList value), none)

/-- Reads what follows two dashes, which can be a setting that lacks its value. -/
def readLong (verb : Option Verb) (body : Text) (given : Given) :
    Except Interruption (Given × Option Setting) :=
  let name := String.ofList (body.takeWhile (· != '='))
  let value := (body.dropWhile (· != '=')).tail?.map String.ofList
  match longChoice? verb name, value with
  | none, _ => .error (.usage (.unknownOption ("--" ++ name)))
  | some (.flag flag), none => return (← given.addFlag flag, none)
  | some (.flag _), some _ => .error (.usage (.unneededValue ("--" ++ name)))
  | some (.setting setting), none => .ok (given, some setting)
  | some (.setting setting), some value => return (← given.addSetting setting value, none)

/-- Reads arguments, after a setting that lacks its value, if there is one. Before the command, it
stops at the first argument that stands by itself, and gives that and the rest back. -/
def read (verb : Option Verb) : List String → Option Setting → Given →
    Except Interruption (Given × List String)
  | [], none, given => .ok (given, [])
  | [], some _, _ => .error (.usage .missingValue)
  | argument :: rest, some setting, given =>
    if isPlain argument then do read verb rest none (← given.addSetting setting argument)
    else .error (.usage .missingValue)
  | argument :: rest, none, given =>
    match argument.toList with
    | ['-', '-'] =>
      if verb = none then .error (.usage .missingCommand)
      else do return (← rest.foldlM Given.addInput given, [])
    | '-' :: '-' :: body => do
      let (given, lacking) ← readLong verb body given
      read verb rest lacking given
    | '-' :: letter :: more => do
      let (given, lacking) ← readLetters verb (letter :: more) given
      read verb rest lacking given
    | _ =>
      if verb = none then .ok (given, argument :: rest)
      else do read verb rest none (← given.addInput argument)

/-- The largest number of steps that can be asked for. -/
def maxSteps : Nat := 18446744073709551615

/-- The number of steps that a text stands for: digits after an optional plus sign. -/
def readSteps (text : String) : Except Interruption Nat :=
  let digits := match text.toList with
    | '+' :: rest => rest
    | all => all
  let value := Nat.ofDigitChars 10 digits 0
  if digits ≠ [] ∧ digits.all Char.isDigit ∧ value ≤ maxSteps then .ok value
  else .error (.usage (.invalidSteps text))

/-- The number of steps that a program runs for if no number is given. -/
def usualSteps : Nat := 1000000

/-- The options for the code that follow from what was given. -/
def emissionOptions (annotate : Bool) (given : Given) : EmissionOptions :=
  let usual : EmissionOptions := {}
  { bootstrap := .noBootstrap ∉ given.flags
    entry := (given.settings.lookup .entry).getD usual.entry
    annotate }

/-- The task that a command with what was given stands for. -/
def makeTask (verb : Verb) (given : Given) : Except Interruption Task := do
  let some input := given.input | .error (.usage .missingInput)
  match verb with
  | .build =>
    return .build input (given.settings.lookup .output)
      (emissionOptions (.noAnnotate ∉ given.flags) given)
  | .run =>
    let steps ← match given.settings.lookup .steps with
      | some text => readSteps text
      | none => pure usualSteps
    return .run input steps (emissionOptions false given)

/-- The invocation that arguments stand for. A count of messages given after the command replaces
one given before it. -/
def parse (arguments : List String) : Except Interruption Invocation := do
  let (before, rest) ← read none arguments none {}
  match rest with
  | [] => .error (.usage .missingCommand)
  | name :: rest =>
    let some verb := Verb.ofName? name | .error (.usage (.unknownCommand name))
    let (given, _) ← read verb rest none {}
    let task ← makeTask verb given
    return ⟨if given.verbosity = 0 then before.verbosity else given.verbosity, task⟩

end Arguments

end HackToolchain
