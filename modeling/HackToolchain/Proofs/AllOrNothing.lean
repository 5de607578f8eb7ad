import HackToolchain.Proofs.LoadedUnits

/-! # All or nothing

A session writes what it is asked for, or no file at all. What it writes, says and answers hangs on
the files that it finds, and not on the order in which directories are listed
(`session_all_or_nothing`). A file of stack code whose path has 4096 bytes or more is passed over
without a word, though its directory can be read (`loadUnits_skips_unevenEntries`).
-/

namespace HackToolchain

namespace Task

/-- The file or directory that a task is about. -/
def input : Task → String
  | build input _ _ => input
  | run input _ _ => input

/-- How the units of a task are compiled. -/
def options : Task → EmissionOptions
  | build _ _ options => options
  | run _ _ options => options

end Task

/-- No failure ends a session with the code zero. -/
theorem SessionFailure.exitCode_ne_zero (failure : SessionFailure) : failure.exitCode ≠ 0 := by
  unfold exitCode
  split
  · decide
  · decide
  · decide

/-- The file at the end of a path holds some bytes, and is the only one in which a world differs
from what it was. -/
structure World.WritesOnly (world last : World) (path : String) (bytes : ByteArray) : Prop where
  read : last.read path = .ok bytes
  others : ∃ place, world.tree.target world.current path = .ok place ∧
    ∀ other, last.tree.fileAt? other =
      if other = place then some bytes else world.tree.fileAt? other

namespace Session

variable {terminal : Terminal}

/-! ## Exit codes -/

/-- A session ends with the code zero, or with a message that says why it does not. -/
theorem run_execute (invocation : Invocation) (world : World) :
    (execute World.host invocation terminal).run world =
      match world.outcome (perform World.host invocation.verbosity terminal invocation.task) with
      | (.ok (), last) => (0, last)
      | (.error failure, last) =>
        (failure.exitCode, told last ("error: " ++ failure.message ++ "\n")) := by
  rw [execute, StateT.run_bind]
  cases done : world.outcome
    (perform World.host invocation.verbosity terminal invocation.task) with
  | mk outcome last =>
    unfold World.outcome at done
    rw [done]
    cases outcome with
    | ok _ => rfl
    | error failure => rfl

/-! ## Order -/

/-- Carrying out a task does not depend on the order of directories. -/
theorem steady_perform (verbosity : Nat) (task : Task) :
    Steady (perform World.host verbosity terminal task) := by
  cases task with
  | build input output options => exact steady_build verbosity terminal input output options
  | run input steps options => exact steady_run verbosity terminal input steps options

/-- A session ends in the same way in worlds that differ in the order of directories. -/
theorem execute_reordered (invocation : Invocation) {first second : World}
    (reordered : first.Reordered second) :
    ((execute World.host invocation terminal).run first).1 =
        ((execute World.host invocation terminal).run second).1 ∧
      ((execute World.host invocation terminal).run first).2.Reordered
        ((execute World.host invocation terminal).run second).2 := by
  obtain ⟨same, after⟩ := @steady_perform terminal invocation.verbosity invocation.task first second
    reordered
  rw [run_execute, run_execute]
  generalize first.outcome _ = left at same after
  generalize second.outcome _ = right at same after
  obtain ⟨outcome, last⟩ := left
  obtain ⟨other, reached⟩ := right
  cases same
  cases outcome with
  | ok _ => exact ⟨rfl, after⟩
  | error failure => exact ⟨rfl, { after with log := congrArg (· ++ _) after.log }⟩

/-! ## Files -/

/-- The exit code for what comes of writing a file. -/
def writeCode : Except FileError Unit → Nat
  | .ok () => 0
  | .error _ => 1

/-- A file that is written is the only one that differs. -/
theorem Produces.writesOnly {world last : World} {input : String} {output : Option String}
    {options : EmissionOptions} {path text : String} {place : List String}
    (produces : Produces world input output options path text place) {bytes : ByteArray}
    (tree : last.tree = world.tree.insert place (.file bytes))
    (current : last.current = world.current) : world.WritesOnly last path bytes := by
  refine ⟨produces.read tree current, place, produces.place, ?_⟩
  intro other
  rw [tree, (FileTree.target_ok produces.place).2.fileAt?_insert]

/-- A build that has code to write and a place for it ends with what comes of writing it, and any
other has changed no files. -/
theorem execute_build {verbosity : Nat} {input : String} {output : Option String}
    {options : EmissionOptions} {world last : World} {code : Nat}
    (ended : (execute World.host ⟨verbosity, .build input output options⟩ terminal).run world =
      (code, last)) :
    ((∀ path text place, ¬Produces world input output options path text place) ∧
        code ≠ 0 ∧ last.tree = world.tree) ∨
      ∃ path text place, Produces world input output options path text place ∧
        world.WritesOnly last path (world.stored text.toUTF8).1 ∧
        code = writeCode (world.stored text.toUTF8).2 := by
  rw [run_execute] at ended
  cases built : world.outcome (build World.host verbosity terminal input output options) with
  | mk outcome reached =>
    rw [perform, built] at ended
    rcases build_outcome built with ⟨missing, ⟨failure, rfl⟩, same⟩ |
      ⟨path, text, place, produces, tree, current, rfl⟩
    · cases ended
      exact .inl ⟨missing, failure.exitCode_ne_zero, same.tree⟩
    · refine .inr ⟨path, text, place, produces, ?_⟩
      cases stored : (world.stored text.toUTF8).2 with
      | ok _ =>
        rw [stored] at ended
        cases ended
        exact ⟨produces.writesOnly tree current, rfl⟩
      | error cause =>
        rw [stored] at ended
        cases ended
        exact ⟨produces.writesOnly tree current, rfl⟩

/-- A run changes no files. -/
theorem execute_run {verbosity steps : Nat} {input : String} {options : EmissionOptions}
    {world last : World} {code : Nat}
    (ended : (execute World.host ⟨verbosity, .run input steps options⟩ terminal).run world =
      (code, last)) : last.tree = world.tree := by
  have same := sameFiles_run verbosity terminal input steps options world
  rw [run_execute] at ended
  cases finished : world.outcome (run World.host verbosity terminal input steps options) with
  | mk outcome reached =>
    rw [perform, finished] at ended
    rw [finished] at same
    cases outcome with
    | ok _ =>
      cases ended
      exact same.tree
    | error failure =>
      cases ended
      exact same.tree

/-! ## Commands at fault -/

/-- The units of a task. A build names its output before it loads them. -/
def taskUnits : Task → Action (List LoadedUnit)
  | .build input output _ => chosenOutput input output >>= fun _ => loadUnits World.host input
  | .run input _ _ => loadUnits World.host input

/-- A build has units if its output can be named and its input can be loaded. -/
theorem taskUnits_build_ok_iff {input : String} {output : Option String}
    {options : EmissionOptions} {world : World} {units : List LoadedUnit} :
    (world.outcome (taskUnits (.build input output options))).1 = .ok units ↔
      ∃ path, (world.outcome (chosenOutput input output)).1 = .ok path ∧
        (world.outcome (loadUnits World.host input)).1 = .ok units := by
  rw [taskUnits, (quiet_chosenOutput input output).bind_ok_iff]

/-- The units of a task are those of its input. -/
theorem loadUnits_of_taskUnits {task : Task} {world : World} {units : List LoadedUnit}
    (loaded : (world.outcome (taskUnits task)).1 = .ok units) :
    (world.outcome (loadUnits World.host task.input)).1 = .ok units := by
  cases task with
  | run input steps options => exact loaded
  | build input output options =>
    obtain ⟨path, -, units⟩ := taskUnits_build_ok_iff.mp loaded
    exact units

/-- A task with a command at fault ends after the command is shown, if it can be. -/
theorem outcome_perform_of_fault {verbosity : Nat} {task : Task} {world : World}
    {units : List LoadedUnit} {name : String} {position : Position} {fault : CommandFault}
    {unit : LoadedUnit} (loaded : (world.outcome (taskUnits task)).1 = .ok units)
    (failed : (compile task.options (units.map LoadedUnit.source)).result =
      .error (.command name position fault))
    (found : units.find? (fun other => other.source.name = name) = some unit) :
    ∃ text, world.outcome (perform World.host verbosity terminal task) =
      (.error (faultFailure unit.path (display terminal unit fault)),
        told world (text ++ shownText (display terminal unit fault))) := by
  have compiling : ∀ reached : World, ∃ text,
      reached.outcome (compileUnits World.host verbosity terminal task.options units) =
        (.error (faultFailure unit.path (display terminal unit fault)),
          told reached (text ++ shownText (display terminal unit fault))) := by
    intro reached
    obtain ⟨text, outcome⟩ := outcome_compileUnits verbosity terminal task.options units reached
    simp only [failed, found] at outcome
    exact ⟨text, outcome⟩
  have units : world.outcome (loadUnits World.host task.input) = (.ok units, world) :=
    Prod.ext (loadUnits_of_taskUnits loaded) (quiet_loadUnits task.input world).symm
  cases task with
  | run input steps options =>
    dsimp only [Task.input, Task.options] at units compiling
    obtain ⟨text, outcome⟩ := compiling world
    refine ⟨text, ?_⟩
    rw [perform, run, outcome_bind_of_ok units]
    exact outcome_bind_of_error outcome
  | build input output options =>
    dsimp only [Task.input, Task.options] at units compiling
    obtain ⟨path, done, -⟩ := taskUnits_build_ok_iff.mp loaded
    have chosen : world.outcome (chosenOutput input output) = (.ok path, world) :=
      Prod.ext done (quiet_chosenOutput input output world).symm
    obtain ⟨message, announced⟩ := tells_report verbosity .info ("translating " ++ input) world
    obtain ⟨text, outcome⟩ := compiling (told world message)
    refine ⟨message ++ text, ?_⟩
    rw [perform, build_eq, outcome_bind_of_ok chosen]
    simp only [build, pure_bind]
    rw [outcome_bind_of_ok units, outcome_bind_of_ok announced, outcome_bind_of_error outcome,
      told_told, String.append_assoc]

/-- The message after a command at fault that was shown. -/
theorem shown_faultyUnit (path : String) :
    "error: " ++ (SessionFailure.faultyUnit path).message ++ "\n" =
      "error: could not translate `" ++ path ++ "`\n" := by
  have message : (SessionFailure.faultyUnit path).message =
      "could not translate `" ++ path ++ "`" := rfl
  apply String.ext
  rw [message]
  simp

/-- How a session ends after a command at fault in a unit: the command is shown and the code is one,
or there is no room to show it and the program is broken off with another code. -/
structure EndsAtFault (terminal : Terminal) (world last : World) (code : Nat) (unit : LoadedUnit)
    (fault : CommandFault) : Prop where
  shown : ∀ snippet, display terminal unit fault = some snippet → code = 1 ∧
    ∃ text, last = told world (text ++ snippet ++ "\n" ++
      ("error: could not translate `" ++ unit.path ++ "`\n"))
  unshown : display terminal unit fault = none → code = 101 ∧ ∃ text, last = told world text

/-- A command at fault is shown in the text of the file that it is in. -/
theorem execute_of_fault {invocation : Invocation} {world last : World} {code : Nat}
    (formed : world.tree.WellFormed)
    (ended : (execute World.host invocation terminal).run world = (code, last))
    {units : List LoadedUnit}
    (loaded : (world.outcome (taskUnits invocation.task)).1 = .ok units) {name : String}
    {position : Position} {fault : CommandFault}
    (failed : (compile invocation.task.options (units.map LoadedUnit.source)).result =
      .error (.command name position fault)) :
    ∃ unit ∈ units, unit.source.fault? = some fault ∧
      units.find? (fun other => other.source.name = name) = some unit ∧
      world.read unit.path = .ok unit.source.text.toUTF8 ∧
      EndsAtFault terminal world last code unit fault := by
  obtain ⟨unit, inside, rfl, cause, -⟩ := exists_faulty_unit failed
  have known := loadUnits_of_taskUnits loaded
  have found := find?_source_name (nodup_sourceNames formed known) inside
  obtain ⟨text, outcome⟩ := @outcome_perform_of_fault terminal _ _ _ _ _ _ _ _ loaded failed found
  rw [run_execute, outcome] at ended
  obtain ⟨rfl, rfl⟩ := Prod.mk.inj ended
  refine ⟨unit, inside, cause, found, read_of_loadUnits known unit inside, ?_⟩
  constructor
  · intro snippet shown
    rw [shown, faultFailure, shownText, told_told, shown_faultyUnit]
    exact ⟨rfl, text, by simp only [String.append_assoc]⟩
  · intro unshown
    rw [unshown, told_told]
    exact ⟨rfl, _, rfl⟩

end Session

/-- **All or nothing.** A run changes no files, and neither does a build that fails before it
writes; one that is broken off while it writes leaves as much of its code in its output as there was
room for. A build that succeeds writes the code of its units to one file, and it succeeds if there
is such code, a place for it, and room. The units of a directory are its files of stack code in the
order of their names, as far as their paths have fewer than 4096 bytes, each with the text of its
own file. Nothing hangs on the order in which directories are listed. A command at fault is shown in
the text and under the path of the file that it is in, which is the one that its unit's name leads
to; if it would be too wide, the program is broken off. -/
theorem session_all_or_nothing (invocation : Invocation) (terminal : Terminal) {world : World}
    (formed : world.tree.WellFormed) {code : Nat} {last : World}
    (ended : (Session.execute World.host invocation terminal).run world = (code, last)) :
    (∀ input steps options, invocation.task = .run input steps options →
      last.tree = world.tree) ∧
    (∀ input output options, invocation.task = .build input output options →
      (code ≠ 0 → last.tree = world.tree ∨
        ∃ path text place shortage,
          Session.Produces world input output options path text place ∧
          world.shortage = some shortage ∧ shortage.room < text.toUTF8.size ∧ code = 1 ∧
          world.WritesOnly last path (text.toUTF8.extract 0 shortage.room)) ∧
      (code = 0 → ∃ path text place,
        Session.Produces world input output options path text place ∧
        world.WritesOnly last path text.toUTF8) ∧
      ∀ path text place, Session.Produces world input output options path text place →
        world.WritesOnly last path (world.stored text.toUTF8).1 ∧
        code = Session.writeCode (world.stored text.toUTF8).2) ∧
    (∀ entries, world.access invocation.task.input = .ok (.directory entries) →
      ∃ names, UnitsIn invocation.task.input entries names ∧
        (names = [] → (world.outcome (Session.loadUnits World.host invocation.task.input)).1 =
          .error (.noUnits invocation.task.input)) ∧
        ∀ units,
          (world.outcome (Session.loadUnits World.host invocation.task.input)).1 = .ok units ↔
          units ≠ [] ∧
            List.Forall₂ (LoadedUnit.IsEntry invocation.task.input entries) names units) ∧
    (∀ other, world.Reordered other → ∃ final,
      (Session.execute World.host invocation terminal).run other = (code, final) ∧
        last.Reordered final) ∧
    ∀ units, (world.outcome (Session.taskUnits invocation.task)).1 = .ok units →
      ∀ name position fault,
        (compile invocation.task.options (units.map LoadedUnit.source)).result =
          .error (.command name position fault) →
        ∃ unit ∈ units, unit.source.fault? = some fault ∧
          units.find? (fun other => other.source.name = name) = some unit ∧
          world.read unit.path = .ok unit.source.text.toUTF8 ∧
          Session.EndsAtFault terminal world last code unit fault := by
  obtain ⟨verbosity, task⟩ := invocation
  refine ⟨?_, ?_, ?_, ?_, ?_⟩
  · rintro input steps options rfl
    exact Session.execute_run ended
  · rintro input output options rfl
    rcases Session.execute_build ended with
      ⟨missing, failed, same⟩ | ⟨path, text, place, produces, written, rfl⟩
    · refine ⟨fun _ => .inl same, fun done => absurd done failed, ?_⟩
      exact fun path text place produces => absurd produces (missing path text place)
    · refine ⟨?_, ?_, ?_⟩
      · intro failed
        rcases world.stored_cases text.toUTF8 with stored | ⟨shortage, short, room, stored⟩
        · rw [stored] at failed
          exact absurd rfl failed
        · rw [stored] at written ⊢
          exact .inr ⟨path, text, place, shortage, produces, short, room, rfl, written⟩
      · intro done
        rcases world.stored_cases text.toUTF8 with stored | ⟨shortage, -, -, stored⟩
        · rw [stored] at written
          exact ⟨path, text, place, produces, written⟩
        · rw [stored] at done
          cases done
      · intro other content site also
        obtain ⟨rfl, rfl, -⟩ := produces.unique also
        exact ⟨written, rfl⟩
  · intro entries found
    refine ⟨_, Session.unitsIn_unitNames found formed, ?_, ?_⟩
    · exact fun none => Session.loadUnits_of_no_units found none
    · exact fun units => Session.loadUnits_ok_iff_of_directory found formed
  · intro other reordered
    obtain ⟨same, after⟩ :=
      @Session.execute_reordered terminal ⟨verbosity, task⟩ _ _ reordered
    rw [ended] at same after
    refine ⟨((Session.execute World.host ⟨verbosity, task⟩ terminal).run other).2, ?_, after⟩
    exact Prod.ext same.symm rfl
  · intro units loaded name position fault failed
    exact Session.execute_of_fault formed ended loaded failed

/-- A directory of two files of stack code, the first of which holds a command at fault. -/
def pairedEntries : List (String × FileTree) :=
  [("B.vm", .file "pop constant 2".toUTF8), ("A.vm", .file "push constant 1".toUTF8)]

/-- The world with that directory. -/
def pairedWorld : World where
  tree := .directory [("work", .directory pairedEntries)]

theorem wellFormed_pairedWorld : pairedWorld.tree.WellFormed := by
  have entries : (FileTree.directory pairedEntries).WellFormed :=
    FileTree.wellFormed_directory (by decide) (by decide)
      (by simp [pairedEntries, FileTree.wellFormed_file])
  refine FileTree.wellFormed_directory (by decide) (by decide) ?_
  rw [List.forall_mem_singleton]
  exact entries

/-- The units of that directory, in order. -/
def pairedUnits : List LoadedUnit :=
  [⟨"work/A.vm", "A", "push constant 1"⟩, ⟨"work/B.vm", "B", "pop constant 2"⟩]

/-- The units of the directory are its two files of stack code, sorted by name. -/
theorem unitsIn_pairedEntries : UnitsIn "work" pairedEntries ["A.vm", "B.vm"] := by
  refine ⟨by decide, fun name => ⟨?_, ?_⟩⟩
  · intro inside
    rw [List.mem_pair] at inside
    rcases inside with rfl | rfl
    · exact ⟨_, .tail _ (.head _), by decide, by decide +kernel⟩
    · exact ⟨_, .head _, by decide, by decide +kernel⟩
  · rintro ⟨contents, inside, -⟩
    have listed : name ∈ pairedEntries.map Prod.fst := List.mem_map.mpr ⟨_, inside, rfl⟩
    rw [List.mem_pair]
    exact (List.mem_pair.mp listed).symm

/-- Both units are loaded. -/
theorem loadUnits_pairedWorld :
    (pairedWorld.outcome (Session.loadUnits World.host "work")).1 = .ok pairedUnits := by
  have found : pairedWorld.access "work" = .ok (.directory pairedEntries) := rfl
  have names := (Session.unitsIn_unitNames found wellFormed_pairedWorld).unique
    unitsIn_pairedEntries
  rw [Session.loadUnits_ok_iff_of_directory found wellFormed_pairedWorld, names]
  refine ⟨by simp [pairedUnits], .cons ?_ (.cons ?_ .nil)⟩
  · exact ⟨by decide +kernel, by decide, by decide, .tail _ (.head _)⟩
  · exact ⟨by decide +kernel, by decide, by decide, .head _⟩

/-- The invocation to run that directory. -/
def pairedInvocation : Invocation :=
  ⟨0, .run "work" 1000000 ⟨true, "Sys.init", false⟩⟩

/-- The world with the second of the two files alone, and with as much room as there is. -/
def soloWorld (shortage : Option Shortage) : World where
  tree := .directory [("A.vm", .file "push constant 1".toUTF8)]
  shortage := shortage

theorem wellFormed_soloWorld (shortage : Option Shortage) :
    (soloWorld shortage).tree.WellFormed :=
  FileTree.wellFormed_directory (by decide) (by decide) (by simp [FileTree.wellFormed_file])

/-- The code of that file. -/
def soloCode : String :=
  "@1\nD=A\n@SP\nA=M\nM=D\n@SP\nM=M+1\n"

/-- The invocation to build that file. -/
def soloInvocation : Invocation :=
  ⟨0, .build "A.vm" none ⟨false, "Sys.init", false⟩⟩

/-- The world with one unit has code for its output, and a place for it. -/
theorem produces_soloWorld (shortage : Option Shortage) :
    Session.Produces (soloWorld shortage) "A.vm" none ⟨false, "Sys.init", false⟩ "A.asm" soloCode
      ["A.asm"] := by
  have outside : (soloWorld shortage).isDirectory "A.vm" = false := rfl
  refine ⟨?_, ⟨[⟨"A.vm", "A", "push constant 1"⟩], ?_, by decide +kernel⟩, rfl⟩
  · rfl
  · rw [Session.loadUnits_ok_iff, Session.outcome_unitPaths_of_not_directory outside]
    exact ⟨_, rfl, .cons ⟨rfl, by decide, by decide, rfl⟩ .nil⟩

/-- A terminal on which each character takes up one column. -/
def plainTerminal : Terminal where
  width := List.length

/-- A run that fails at a command, a build that succeeds, and one that there is no room for. -/
theorem session_all_or_nothing_pairedWorld :
    (pairedWorld.tree.WellFormed ∧ ∃ last,
      (Session.execute World.host pairedInvocation plainTerminal).run pairedWorld = (1, last) ∧
      ∀ other, pairedWorld.Reordered other → ∃ final,
        (Session.execute World.host pairedInvocation plainTerminal).run other = (1, final) ∧
          last.Reordered final) ∧
    (∃ last, (Session.execute World.host soloInvocation).run (soloWorld none) = (0, last) ∧
      last.read "A.asm" = .ok soloCode.toUTF8) ∧
    ∃ last, (Session.execute World.host soloInvocation).run
        (soloWorld (some ⟨5, .other "No space left on device (os error 28)"⟩)) = (1, last) ∧
      last.read "A.asm" = .ok (soloCode.toUTF8.extract 0 5) := by
  refine ⟨⟨wellFormed_pairedWorld, ?_⟩, ?_, ?_⟩
  · have failed : (compile ⟨true, "Sys.init", false⟩ (pairedUnits.map LoadedUnit.source)).result =
        .error (.command "B" ⟨0, 0⟩ ⟨.popConstant, ⟨0, 14⟩⟩) := by decide +kernel
    have shown : (Session.display plainTerminal ⟨"work/B.vm", "B", "pop constant 2"⟩
        ⟨.popConstant, ⟨0, 14⟩⟩).isSome := by decide +kernel
    obtain ⟨snippet, shown⟩ := Option.isSome_iff_exists.mp shown
    cases ended : (Session.execute World.host pairedInvocation plainTerminal).run pairedWorld with
    | mk code last =>
      obtain ⟨-, -, -, order, faults⟩ :=
        session_all_or_nothing _ plainTerminal wellFormed_pairedWorld ended
      obtain ⟨unit, -, -, found, -, ends⟩ :=
        faults pairedUnits loadUnits_pairedWorld "B" ⟨0, 0⟩ ⟨.popConstant, ⟨0, 14⟩⟩ failed
      cases found
      obtain ⟨rfl, -⟩ := ends.shown snippet shown
      exact ⟨last, rfl, order⟩
  · cases ended : (Session.execute World.host soloInvocation).run (soloWorld none) with
    | mk code last =>
      obtain ⟨-, builds, -⟩ := session_all_or_nothing _ {} (wellFormed_soloWorld none) ended
      obtain ⟨-, -, written⟩ := builds _ _ _ rfl
      obtain ⟨writes, rfl⟩ := written _ _ _ (produces_soloWorld none)
      exact ⟨last, rfl, writes.read⟩
  · cases ended : (Session.execute World.host soloInvocation).run
        (soloWorld (some ⟨5, .other "No space left on device (os error 28)"⟩)) with
    | mk code last =>
      obtain ⟨-, builds, -⟩ := session_all_or_nothing _ {} (wellFormed_soloWorld _) ended
      obtain ⟨-, -, written⟩ := builds _ _ _ rfl
      obtain ⟨writes, rfl⟩ := written _ _ _ (produces_soloWorld _)
      exact ⟨last, rfl, writes.read⟩

/-! ## Paths that are too long -/

/-- The current directory, with a number of slashes behind it. -/
def slashed : Nat → String
  | 0 => "."
  | count + 1 => slashed count ++ "/"

theorem utf8ByteSize_slashed (count : Nat) : (slashed count).utf8ByteSize = count + 1 := by
  induction count with
  | zero => rfl
  | succ count hypothesis =>
    rw [slashed, String.utf8ByteSize_append, hypothesis]
    rfl

theorem toList_slashed (count : Nat) :
    (slashed count).toList = '.' :: List.replicate count '/' := by
  induction count with
  | zero => rfl
  | succ count hypothesis =>
    rw [slashed, String.toList_append, hypothesis, List.replicate_succ']
    rfl

/-- A path of slashes leads nowhere else. -/
theorem isIdle_of_mem_pieces_slashed {count : Nat} :
    ∀ piece ∈ Path.pieces (slashed count), Path.isIdle piece := by
  induction count with
  | zero => decide
  | succ count hypothesis =>
    have cut : Path.pieces (slashed (count + 1)) = Path.pieces (slashed count) ++ [[]] := by
      rw [Path.pieces, slashed, String.toList_append]
      exact List.splitOnP_append_cons _ _ (by decide)
    rw [cut, List.forall_mem_append]
    exact ⟨hypothesis, by decide⟩

/-- Slashes lead from a directory to itself, unless there are too many. -/
theorem access_slashed {entries : List (String × FileTree)} {count : Nat} (short : count < 4095) :
    World.access { tree := .directory entries } (slashed count) = .ok (.directory entries) := by
  refine FileTree.access_ok_iff.mpr ⟨[], FileTree.resolve_ok_iff.mpr ⟨?_, ?_, ?_, ?_⟩, rfl⟩
  · simp [toList_slashed]
  · intro empty
    have characters := toList_slashed count
    rw [empty] at characters
    cases characters
  · rw [utf8ByteSize_slashed]
    omega
  · rw [toList_slashed, if_neg (by simp)]
    exact FileTree.follow_idle rfl isIdle_of_mem_pieces_slashed

/-- A name is put right behind the slashes. -/
theorem join_slashed (count : Nat) (name : String) :
    Path.join (slashed (count + 1)) name = slashed (count + 1) ++ name := by
  rw [Path.join, if_pos]
  right
  rw [slashed, String.toList_append]
  exact List.getLast?_concat

/-- Two files of stack code, of which one has the longer name. -/
def unevenEntries : List (String × FileTree) :=
  [("A.vm", .file "push constant 1".toUTF8), ("BBB.vm", .file "push constant 2".toUTF8)]

/-- Of the two files only the one with the shorter name is a unit. -/
theorem unitsIn_unevenEntries : UnitsIn (slashed 4089) unevenEntries ["A.vm"] := by
  refine ⟨by decide, fun name => ⟨?_, ?_⟩⟩
  · intro inside
    rw [List.mem_singleton] at inside
    subst inside
    refine ⟨_, .head _, by decide, ?_⟩
    rw [join_slashed, String.utf8ByteSize_append, utf8ByteSize_slashed]
    decide
  · rintro ⟨contents, inside, -, short⟩
    have listed : name ∈ unevenEntries.map Prod.fst := List.mem_map.mpr ⟨_, inside, rfl⟩
    rcases List.mem_pair.mp listed with rfl | rfl
    · exact List.mem_singleton.mpr rfl
    · rw [join_slashed, String.utf8ByteSize_append, utf8ByteSize_slashed] at short
      exact absurd short (by decide)

/-- Under a path of 4090 bytes, a directory can be read, and one of its two files of stack code is
passed over. -/
theorem loadUnits_skips_unevenEntries :
    World.access { tree := .directory unevenEntries } (slashed 4089) =
        .ok (.directory unevenEntries) ∧
      ("BBB.vm", .file "push constant 2".toUTF8) ∈ unevenEntries ∧
      Path.extension? "BBB.vm" = some "vm" ∧
      (World.outcome { tree := .directory unevenEntries }
        (Session.loadUnits World.host (slashed 4089))).1 =
          .ok [⟨slashed 4089 ++ "A.vm", "A", "push constant 1"⟩] := by
  have found : World.access { tree := .directory unevenEntries } (slashed 4089) =
      .ok (.directory unevenEntries) := access_slashed (by decide)
  have formed : (FileTree.directory unevenEntries).WellFormed :=
    FileTree.wellFormed_directory (by decide) (by decide)
      (by simp [unevenEntries, FileTree.wellFormed_file])
  have names := (Session.unitsIn_unitNames found formed).unique unitsIn_unevenEntries
  refine ⟨found, .tail _ (.head _), by decide, ?_⟩
  rw [Session.loadUnits_ok_iff_of_directory found formed, names]
  refine ⟨List.cons_ne_nil _ _, .cons ?_ .nil⟩
  exact ⟨(join_slashed 4088 "A.vm").symm, by decide, by decide, .head _⟩

end HackToolchain
