import HackToolchain.CommandLine.Session
import HackToolchain.Proofs.FileTrees
import HackToolchain.Proofs.UnitFailures
import Mathlib.Data.List.Forall2

/-! # Sessions and files

A session looks at files, writes messages, and writes one file at most, as the last thing that can
fail. What an action keeps (`Keeps`), what it only says (`Tells`), and that it does the same
whatever the order of directories is (`Steady`) carry over from the parts of an action to the whole,
so each is shown for the parts of a session first. `build_outcome` says what a build does to the
files.
-/

namespace HackToolchain

/-! ## Worlds -/

namespace World

section

variable {world : World} {path : String}

/-- What is no directory is not taken for one. -/
theorem isDirectory_eq_false (other : ∀ entries, world.access path ≠ .ok (.directory entries)) :
    world.isDirectory path = false := by
  rw [isDirectory]
  split
  · rename_i entries found
    exact absurd found (other entries)
  · rfl

/-- A path is taken for a file just when it leads to one. -/
theorem isFile_iff : world.isFile path ↔ ∃ contents, world.access path = .ok (.file contents) := by
  rw [isFile]
  split
  · rename_i contents found
    simp [found]
  · rename_i other
    simpa using other

/-- A file can be read just when the path leads to it. -/
theorem read_ok_iff {contents : ByteArray} :
    world.read path = .ok contents ↔ world.access path = .ok (.file contents) := by
  rw [read]
  cases world.access path with
  | error error => simp [bind, Except.bind]
  | ok found => cases found <;> simp [bind, Except.bind]

end

/-- All bytes of a file get written, or those that there is room for. -/
theorem stored_cases (world : World) (contents : ByteArray) :
    world.stored contents = (contents, .ok ()) ∨
      ∃ shortage, world.shortage = some shortage ∧ shortage.room < contents.size ∧
        world.stored contents = (contents.extract 0 shortage.room, .error shortage.cause) := by
  unfold stored
  cases world.shortage with
  | none => exact .inl rfl
  | some shortage =>
    by_cases fits : contents.size ≤ shortage.room
    · exact .inl (if_pos fits)
    · exact .inr ⟨shortage, rfl, Nat.lt_of_not_le fits, if_neg fits⟩

/-- Two worlds that differ in nothing but the order in which directories are listed. -/
structure Reordered (first second : World) : Prop where
  tree : first.tree.Reordered second.tree
  current : first.current = second.current
  output : first.output = second.output
  log : first.log = second.log
  shortage : first.shortage = second.shortage

namespace Reordered

variable {first second : World} (reordered : first.Reordered second)

include reordered

/-- A path leads to the same error, to the same file, or to directories with the same names. -/
theorem access_cases (path : String) :
    (∃ error, first.access path = .error error ∧ second.access path = .error error) ∨
    (∃ contents, first.access path = .ok (.file contents) ∧
      second.access path = .ok (.file contents)) ∨
    ∃ entries others, first.access path = .ok (.directory entries) ∧
      second.access path = .ok (.directory others) ∧
      (entries.map Prod.fst).Perm (others.map Prod.fst) := by
  rw [access, access, ← reordered.current]
  exact reordered.tree.access_cases first.current path

theorem isDirectory_eq (path : String) : first.isDirectory path = second.isDirectory path := by
  rw [isDirectory, isDirectory]
  rcases reordered.access_cases path with ⟨_, left, right⟩ | ⟨_, left, right⟩ |
    ⟨_, _, left, right, -⟩
  · rw [left, right]
  · rw [left, right]
  · rw [left, right]

theorem isFile_eq (path : String) : first.isFile path = second.isFile path := by
  rw [isFile, isFile]
  rcases reordered.access_cases path with ⟨_, left, right⟩ | ⟨_, left, right⟩ |
    ⟨_, _, left, right, -⟩
  · rw [left, right]
  · rw [left, right]
  · rw [left, right]

theorem read_eq (path : String) : first.read path = second.read path := by
  rw [read, read]
  rcases reordered.access_cases path with ⟨_, left, right⟩ | ⟨_, left, right⟩ |
    ⟨_, _, left, right, -⟩
  · rw [left, right]
  · rw [left, right]
  · rw [left, right]
    rfl

theorem directoryName_eq (path : String) :
    first.directoryName path = second.directoryName path := by
  rw [directoryName, directoryName, ← reordered.current, reordered.tree.resolve_eq]

/-- Writing a file comes to the same in both worlds, which then differ in nothing else than
before. -/
theorem write_reordered (path : String) (contents : ByteArray) :
    (first.write path contents).1 = (second.write path contents).1 ∧
      (first.write path contents).2.Reordered (second.write path contents).2 := by
  have stored : first.stored contents = second.stored contents := by
    rw [World.stored, World.stored, reordered.shortage]
  rw [write, write, ← reordered.current, ← reordered.tree.target_eq]
  cases targeted : first.tree.target first.current path with
  | error error => exact ⟨rfl, reordered⟩
  | ok place =>
    refine ⟨congrArg Prod.snd stored, { reordered with tree := ?_, current := rfl }⟩
    dsimp only
    rw [stored]
    exact reordered.tree.insert (FileTree.target_ok targeted).2 _

end Reordered

/-- The files of a world, and the room for more of them, are those of another. -/
structure SameFiles (first last : World) : Prop where
  tree : last.tree = first.tree
  current : last.current = first.current
  shortage : last.shortage = first.shortage

instance : IsPreorder World SameFiles where
  refl _ := ⟨rfl, rfl, rfl⟩
  trans _ _ _ left right := ⟨right.tree.trans left.tree, right.current.trans left.current,
    right.shortage.trans left.shortage⟩

end World

/-! ## Actions -/

/-- What a session does in a world. -/
abbrev Session.Action (α : Type) : Type :=
  ExceptT SessionFailure (StateM World) α

/-- What comes of an action in a world, and the world after it. -/
def World.outcome {α : Type} (world : World) (action : Session.Action α) :
    Except SessionFailure α × World :=
  action.run.run world

namespace Session

variable {α β : Type}

/-- After an action that succeeds comes the next one. -/
theorem outcome_bind_of_ok {action : Action α} {next : α → Action β} {world reached : World}
    {value : α} (first : world.outcome action = (.ok value, reached)) :
    world.outcome (action >>= next) = reached.outcome (next value) := by
  unfold World.outcome at first ⊢
  rw [ExceptT.run_bind, StateT.run_bind, first]
  rfl

/-- After an action that fails comes nothing. -/
theorem outcome_bind_of_error {action : Action α} {next : α → Action β} {world reached : World}
    {failure : SessionFailure} (first : world.outcome action = (.error failure, reached)) :
    world.outcome (action >>= next) = (.error failure, reached) := by
  unfold World.outcome at first ⊢
  rw [ExceptT.run_bind, StateT.run_bind, first]
  rfl

/-- An action that consists of two ends with the first, if that fails, or with the second. -/
theorem outcome_bind_cases {action : Action α} {next : α → Action β} {world last : World}
    {outcome : Except SessionFailure β} (done : world.outcome (action >>= next) = (outcome, last)) :
    (∃ failure, world.outcome action = (.error failure, last) ∧ outcome = .error failure) ∨
      ∃ value reached, world.outcome action = (.ok value, reached) ∧
        reached.outcome (next value) = (outcome, last) := by
  cases first : world.outcome action with
  | mk result reached =>
    cases result with
    | error failure =>
      rw [outcome_bind_of_error first] at done
      cases done
      exact .inl ⟨failure, rfl, rfl⟩
    | ok value =>
      rw [outcome_bind_of_ok first] at done
      exact .inr ⟨value, reached, rfl, done⟩

theorem outcome_pure (value : α) (world : World) :
    world.outcome (pure value) = (.ok value, world) := rfl

/-- An action that cannot fail succeeds. -/
theorem outcome_lift (action : StateM World α) (world : World) :
    world.outcome (liftM action) = (.ok (action.run world).1, (action.run world).2) := rfl

/-- A source is loaded from its file if the stem of the path is a symbol. -/
theorem run_load (path : String) (world : World) : (Source.load World.host path).run world =
    (if isSymbol ((Path.stem? path).getD "") then
      Source.ofBytes path ((Path.stem? path).getD "") (world.read path)
      else .error (.unitName path ((Path.stem? path).getD "")), world) := by
  rw [Source.load]
  split_ifs
  · rfl
  · rfl

/-! ## What actions keep -/

/-- After an action, the world is related to what it was before. -/
def Keeps (relation : World → World → Prop) (action : Action α) : Prop :=
  ∀ world, relation world (world.outcome action).2

namespace Keeps

variable {relation : World → World → Prop} [IsPreorder World relation]

theorem pure (value : α) : Keeps relation (pure value : Action α) :=
  fun world => refl_of relation world

theorem throw (failure : SessionFailure) : Keeps relation (throw failure : Action α) :=
  fun world => refl_of relation world

/-- Two actions that keep a relation keep it together. -/
theorem bind {action : Action α} {next : α → Action β} (first : Keeps relation action)
    (rest : ∀ value, Keeps relation (next value)) : Keeps relation (action >>= next) := by
  intro world
  have kept := first world
  cases whole : world.outcome (action >>= next) with
  | mk outcome last =>
    rcases outcome_bind_cases whole with ⟨failure, failed, -⟩ | ⟨value, reached, done, after⟩
    · rw [failed] at kept
      exact kept
    · rw [done] at kept
      have further := rest value reached
      rw [after] at further
      exact trans_of relation kept further

omit [IsPreorder World relation] in
theorem lift {action : StateM World α} (kept : ∀ world, relation world (action.run world).2) :
    Keeps relation (liftM action : Action α) :=
  kept

/-- Actions for some values keep what each of them keeps. -/
theorem mapM {action : α → Action β} (each : ∀ value, Keeps relation (action value))
    (values : List α) : Keeps relation (values.mapM action) := by
  induction values with
  | nil => exact pure []
  | cons value rest hypothesis =>
    rw [List.mapM_cons]
    exact bind (each value) fun _ => bind hypothesis fun _ => pure _

theorem filterAuxM {action : α → Action Bool} (each : ∀ value, Keeps relation (action value))
    (values kept : List α) : Keeps relation (values.filterAuxM action kept) := by
  induction values generalizing kept with
  | nil => exact pure kept
  | cons value rest hypothesis => exact bind (each value) fun _ => hypothesis _

theorem filterM {action : α → Action Bool} (each : ∀ value, Keeps relation (action value))
    (values : List α) : Keeps relation (values.filterM action) :=
  bind (filterAuxM each values []) fun _ => pure _

end Keeps

/-- An action that changes nothing ends in the world that it started in. -/
theorem Keeps.eq_of_outcome {action : Action α} (quiet : Keeps Eq action) {world last : World}
    {outcome : Except SessionFailure α} (done : world.outcome action = (outcome, last)) :
    last = world := by
  have same := quiet world
  rw [done] at same
  exact same.symm

/-- What comes of a quiet action and another after it comes of each alone. -/
theorem Keeps.bind_ok_iff {action : Action α} (quiet : Keeps Eq action) {next : α → Action β}
    {world : World} {result : β} : (world.outcome (action >>= next)).1 = .ok result ↔
      ∃ value, (world.outcome action).1 = .ok value ∧
        (world.outcome (next value)).1 = .ok result := by
  cases first : world.outcome action with
  | mk outcome reached =>
    obtain rfl := quiet.eq_of_outcome first
    cases outcome with
    | error failure => simp [outcome_bind_of_error first]
    | ok value => simp [outcome_bind_of_ok first]

/-- Quiet actions on values in turn do on each what they would do alone. -/
theorem Keeps.mapM_ok_iff {action : α → Action β} (quiet : ∀ value, Keeps Eq (action value))
    {world : World} {values : List α} {results : List β} :
    (world.outcome (values.mapM action)).1 = .ok results ↔
      List.Forall₂ (fun value result => (world.outcome (action value)).1 = .ok result)
        values results := by
  induction values generalizing results with
  | nil =>
    rw [List.forall₂_nil_left_iff, List.mapM_nil, outcome_pure, Except.ok.injEq, eq_comm]
  | cons value rest hypothesis =>
    simp only [List.mapM_cons, (quiet value).bind_ok_iff, (Keeps.mapM quiet rest).bind_ok_iff,
      List.forall₂_cons_left_iff, hypothesis, outcome_pure, Except.ok.injEq]
    constructor
    · rintro ⟨result, first, others, second, rfl⟩
      exact ⟨result, others, first, second, rfl⟩
    · rintro ⟨result, others, first, second, rfl⟩
      exact ⟨result, first, others, second, rfl⟩

/-- Listing the units changes nothing. -/
theorem quiet_unitPaths (input : String) : Keeps Eq (unitPaths World.host input) := by
  unfold unitPaths
  refine .bind (.lift fun _ => rfl) fun inside => ?_
  split_ifs
  · refine .bind (.lift fun _ => rfl) fun listed => ?_
    split
    · exact .throw _
    · refine .bind (.filterM (fun name => .lift fun world => ?_) _) fun units => ?_
      · rw [isUnit]
        split_ifs
        · rfl
        · rfl
      · split_ifs
        · exact .bind (.throw _) fun _ => .pure _
        · exact .pure _
  · exact .pure _

theorem quiet_loadUnit (path : String) : Keeps Eq (loadUnit World.host path) := by
  unfold loadUnit
  refine .bind (.lift fun world => ?_) fun loaded => ?_
  · rw [run_load]
  · split
    · exact .pure _
    · exact .throw _

theorem quiet_loadUnits (input : String) : Keeps Eq (loadUnits World.host input) :=
  .bind (quiet_unitPaths input) fun paths => .mapM quiet_loadUnit paths

theorem quiet_outputPath (input : String) : Keeps Eq (outputPath World.host input) := by
  unfold outputPath
  refine .bind (.lift fun _ => rfl) fun inside => ?_
  split_ifs
  · refine .bind (.lift fun _ => rfl) fun named => ?_
    split
    · exact .throw _
    · exact .throw _
    · exact .pure _
  · exact .pure _

/-! ## Messages -/

/-- The world after some messages. -/
def told (world : World) (text : String) : World :=
  { world with log := world.log ++ text }

theorem told_told (world : World) (first second : String) :
    told (told world first) second = told world (first ++ second) := by
  simp [told, String.append_assoc]

/-- An action that writes messages, and nothing else. -/
def Tells (action : Action Unit) : Prop :=
  ∀ world, ∃ text, world.outcome action = (.ok (), told world text)

/-- A report tells at most a message. -/
theorem tells_report (verbosity : Nat) (level : Level) (text : String) :
    Tells (liftM (report World.host verbosity level text)) := by
  intro world
  unfold report
  split_ifs
  · exact ⟨_, rfl⟩
  · refine ⟨"", ?_⟩
    rw [outcome_lift, told, String.append_empty]
    rfl

/-- Actions for some values tell what each of them tells. -/
theorem Tells.forM {action : α → Action Unit} (each : ∀ value, Tells (action value))
    (values : List α) : Tells (values.forM action) := by
  induction values with
  | nil =>
    intro world
    refine ⟨"", ?_⟩
    rw [told, String.append_empty]
    rfl
  | cons value rest hypothesis =>
    intro world
    obtain ⟨first, done⟩ := each value world
    obtain ⟨second, others⟩ := hypothesis (told world first)
    refine ⟨first ++ second, ?_⟩
    rw [← told_told, ← others]
    exact outcome_bind_of_ok done

/-- How a command at fault is shown, if it can be: in the text of a unit, under the path of the
unit. -/
def display (terminal : Terminal) (unit : LoadedUnit) (fault : CommandFault) : Option String :=
  (Snippet.of? unit.path fault.message fault.span unit.source.text.toList terminal).map
    fun snippet => snippet.render false terminal

/-- Why a session with a command at fault in a unit fails, given how the command is shown. -/
def faultFailure (path : String) : Option String → SessionFailure
  | some _ => .faultyUnit path
  | none => .unshownFault path

/-- What is said of a command at fault, given how it is shown. -/
def shownText : Option String → String
  | some shown => shown ++ "\n"
  | none => ""

/-- Compiling units gives their code, or a failure, after some messages. The last message for a
command at fault shows it in the first unit with its name, if it can be shown. -/
theorem outcome_compileUnits (verbosity : Nat) (terminal : Terminal) (options : EmissionOptions)
    (units : List LoadedUnit) (world : World) : ∃ text,
      world.outcome (compileUnits World.host verbosity terminal options units) =
        match (compile options (units.map LoadedUnit.source)).result with
        | .ok code => (.ok code, told world text)
        | .error (.output cause) => (.error (.emission cause), told world text)
        | .error (.command name _ fault) =>
          match units.find? fun unit => unit.source.name = name with
          | none => (.error .unknownUnit, told world text)
          | some unit => (.error (faultFailure unit.path (display terminal unit fault)),
              told world (text ++ shownText (display terminal unit fault))) := by
  obtain ⟨first, readings⟩ := Tells.forM (fun unit : LoadedUnit =>
    tells_report verbosity .debug ("reading " ++ unit.path)) units world
  obtain ⟨second, notes⟩ := Tells.forM (fun note : Note =>
    tells_report verbosity note.level note.message)
    (compile options (units.map LoadedUnit.source)).journal.toList (told world first)
  refine ⟨first ++ second, ?_⟩
  rw [compileUnits, outcome_bind_of_ok readings, outcome_bind_of_ok notes, told_told]
  cases (compile options (units.map LoadedUnit.source)).result with
  | ok code => rfl
  | error failure =>
    cases failure with
    | output cause => rfl
    | command name position fault =>
      dsimp only
      cases units.find? fun unit => unit.source.name = name with
      | none => rfl
      | some unit =>
        dsimp only [display]
        cases Snippet.of? unit.path fault.message fault.span unit.source.text.toList terminal with
        | none =>
          rw [Option.map_none, shownText, String.append_empty]
          rfl
        | some snippet =>
          rw [Option.map_some, shownText, ← told_told world (first ++ second)]
          rfl

/-- The code of units that are compiled in a session is that of their sources. -/
theorem compile_of_outcome {verbosity : Nat} {terminal : Terminal} {options : EmissionOptions}
    {units : List LoadedUnit} {world reached : World} {code : String}
    (done : world.outcome (compileUnits World.host verbosity terminal options units) =
      (.ok code, reached)) :
    (compile options (units.map LoadedUnit.source)).result = .ok code := by
  obtain ⟨text, outcome⟩ := outcome_compileUnits verbosity terminal options units world
  rw [done] at outcome
  split at outcome
  · rename_i compiled
    cases outcome
    exact compiled
  · cases outcome
  · split at outcome
    · cases outcome
    · cases outcome

/-! ## What sessions keep -/

/-- An action that changes nothing changes no files. -/
theorem Keeps.sameFiles {action : Action α} (quiet : Keeps Eq action) :
    Keeps World.SameFiles action := by
  intro world
  rw [← quiet world]
  exact ⟨rfl, rfl, rfl⟩

/-- A report keeps the files. -/
theorem sameFiles_report (verbosity : Nat) (level : Level) (text : String) :
    Keeps World.SameFiles (liftM (report World.host verbosity level text) : Action Unit) := by
  refine .lift fun world => ?_
  unfold report
  split_ifs
  · exact ⟨rfl, rfl, rfl⟩
  · exact ⟨rfl, rfl, rfl⟩

theorem sameFiles_compileUnits (verbosity : Nat) (terminal : Terminal) (options : EmissionOptions)
    (units : List LoadedUnit) :
    Keeps World.SameFiles (compileUnits World.host verbosity terminal options units) := by
  intro world
  obtain ⟨text, outcome⟩ := outcome_compileUnits verbosity terminal options units world
  rw [outcome]
  split
  · exact ⟨rfl, rfl, rfl⟩
  · exact ⟨rfl, rfl, rfl⟩
  · split
    · exact ⟨rfl, rfl, rfl⟩
    · exact ⟨rfl, rfl, rfl⟩

theorem sameFiles_runCode (verbosity : Nat) (input : String) (steps : Nat)
    (options : EmissionOptions) (code : String) :
    Keeps World.SameFiles (runCode World.host verbosity input steps options code) := by
  unfold runCode
  split
  · exact .throw _
  · refine .bind (sameFiles_report _ _ _) fun _ => ?_
    cases (boot options _).run steps with
    | mk computer outcome =>
      cases outcome with
      | faulted fault => exact .bind (.throw _) fun _ => .lift fun _ => ⟨rfl, rfl, rfl⟩
      | halted => exact .bind (sameFiles_report _ _ _) fun _ => .lift fun _ => ⟨rfl, rfl, rfl⟩
      | exhausted => exact .bind (sameFiles_report _ _ _) fun _ => .lift fun _ => ⟨rfl, rfl, rfl⟩

/-- Running an input changes no files. -/
theorem sameFiles_run (verbosity : Nat) (terminal : Terminal) (input : String) (steps : Nat)
    (options : EmissionOptions) :
    Keeps World.SameFiles (run World.host verbosity terminal input steps options) :=
  .bind (quiet_loadUnits input).sameFiles fun units =>
    .bind (sameFiles_compileUnits verbosity terminal options units) fun code =>
      sameFiles_runCode verbosity input steps options code

/-- The file that a build writes to: the one that is asked for, or one that is named for its
input. -/
def chosenOutput (input : String) : Option String → Action String
  | some path => pure path
  | none => outputPath World.host input

theorem quiet_chosenOutput (input : String) (output : Option String) :
    Keeps Eq (chosenOutput input output) := by
  cases output with
  | some path => exact .pure path
  | none => exact quiet_outputPath input

/-- A build chooses its output first, and goes on as if it was asked for. -/
theorem build_eq (verbosity : Nat) (terminal : Terminal) (input : String) (output : Option String)
    (options : EmissionOptions) : build World.host verbosity terminal input output options =
      chosenOutput input output >>= fun path =>
        build World.host verbosity terminal input (some path) options := by
  cases output with
  | some path => rfl
  | none => rfl

/-- What a build is about to write: the code of its units, to a place in the file tree under the
path of its output. -/
structure Produces (world : World) (input : String) (output : Option String)
    (options : EmissionOptions) (path text : String) (place : List String) : Prop where
  output : (world.outcome (chosenOutput input output)).1 = .ok path
  units : ∃ units, (world.outcome (loadUnits World.host input)).1 = .ok units ∧
    (compile options (units.map LoadedUnit.source)).result = .ok text
  place : world.tree.target world.current path = .ok place

namespace Produces

variable {world : World} {input : String} {output : Option String} {options : EmissionOptions}
  {path text : String} {place : List String}

/-- There is one text that a build can write, and one place for it. -/
theorem unique {other content : String} {site : List String}
    (first : Produces world input output options path text place)
    (second : Produces world input output options other content site) :
    path = other ∧ text = content ∧ place = site := by
  obtain ⟨units, loaded, compiled⟩ := first.units
  obtain ⟨others, loadedToo, compiledToo⟩ := second.units
  cases first.output.symm.trans second.output
  cases loaded.symm.trans loadedToo
  cases compiled.symm.trans compiledToo
  cases first.place.symm.trans second.place
  exact ⟨rfl, rfl, rfl⟩

/-- The file that a build writes holds the bytes that get through. -/
theorem read (produces : Produces world input output options path text place) {last : World}
    {bytes : ByteArray} (tree : last.tree = world.tree.insert place (.file bytes))
    (current : last.current = world.current) : last.read path = .ok bytes := by
  have written := FileTree.access_insert produces.place bytes
  rw [World.read, World.access, tree, current, written]
  rfl

end Produces

/-- Writing a file to where no path leads changes nothing; else the bytes that get through replace
what was there. -/
theorem run_write_cases (path : String) (contents : ByteArray) (world : World) :
    (∃ error, world.tree.target world.current path = .error error ∧
        (World.host.write path contents).run world = (.error error, world)) ∨
      ∃ place, world.tree.target world.current path = .ok place ∧
        (World.host.write path contents).run world = ((world.stored contents).2,
          { world with tree := world.tree.insert place (.file (world.stored contents).1) }) := by
  have run : (World.host.write path contents).run world = world.write path contents := rfl
  rw [run, World.write]
  cases world.tree.target world.current path with
  | error error => exact .inl ⟨error, rfl, rfl⟩
  | ok place => exact .inr ⟨place, rfl, rfl⟩

/-- A build comes to its last step, which is to write the code of its units, if there is code and a
place for it; else it fails and has changed no files. -/
theorem build_outcome {verbosity : Nat} {terminal : Terminal} {input : String}
    {output : Option String} {options : EmissionOptions} {world last : World}
    {outcome : Except SessionFailure Unit}
    (built : world.outcome (build World.host verbosity terminal input output options) =
      (outcome, last)) :
    ((∀ path text place, ¬Produces world input output options path text place) ∧
        (∃ failure, outcome = .error failure) ∧ world.SameFiles last) ∨
      ∃ path text place, Produces world input output options path text place ∧
        last.tree = world.tree.insert place (.file (world.stored text.toUTF8).1) ∧
        last.current = world.current ∧
        outcome = (world.stored text.toUTF8).2.mapError (.unwrittenOutput path) := by
  rw [build_eq] at built
  -- Choosing the output and loading the units change nothing, and messages change no files.
  rcases outcome_bind_cases built with ⟨failure, failed, rfl⟩ | ⟨path, reached, chosen, loading⟩
  · obtain rfl := (quiet_chosenOutput input output).eq_of_outcome failed
    refine .inl ⟨fun path text place produces => ?_, ⟨failure, rfl⟩, refl_of _ _⟩
    cases (congrArg Prod.fst failed).symm.trans produces.output
  obtain rfl := (quiet_chosenOutput input output).eq_of_outcome chosen
  simp only [build, pure_bind] at loading
  rcases outcome_bind_cases loading with ⟨failure, failed, rfl⟩ | ⟨units, world, loaded, telling⟩
  · obtain rfl := (quiet_loadUnits input).eq_of_outcome failed
    refine .inl ⟨fun path text place produces => ?_, ⟨failure, rfl⟩, refl_of _ _⟩
    obtain ⟨units, loaded, -⟩ := produces.units
    cases (congrArg Prod.fst failed).symm.trans loaded
  obtain rfl := (quiet_loadUnits input).eq_of_outcome loaded
  obtain ⟨message, announced⟩ := tells_report verbosity .info ("translating " ++ input) world
  rw [outcome_bind_of_ok announced] at telling
  have same := sameFiles_compileUnits verbosity terminal options units (told world message)
  rcases outcome_bind_cases telling with ⟨failure, failed, rfl⟩ | ⟨text, compiled, done, writing⟩
  · rw [failed] at same
    refine .inl ⟨fun path text place produces => ?_, ⟨failure, rfl⟩,
      same.tree, same.current, same.shortage⟩
    obtain ⟨others, loadedToo, compiled⟩ := produces.units
    cases (congrArg Prod.fst loaded).symm.trans loadedToo
    obtain ⟨said, outcome⟩ :=
      outcome_compileUnits verbosity terminal options units (told world message)
    rw [compiled, failed] at outcome
    cases outcome
  rw [done] at same
  have stored : compiled.stored text.toUTF8 = world.stored text.toUTF8 := by
    rw [World.stored, World.stored, same.shortage]
    rfl
  rw [outcome_bind_of_ok (outcome_lift _ compiled)] at writing
  rcases run_write_cases path text.toUTF8 compiled with
    ⟨error, targeted, refused⟩ | ⟨place, targeted, written⟩
  · rw [refused] at writing
    rw [same.tree, same.current] at targeted
    cases writing
    refine .inl ⟨fun other content place produces => ?_, ⟨_, rfl⟩,
      same.tree, same.current, same.shortage⟩
    cases (congrArg Prod.fst chosen).symm.trans produces.output
    cases targeted.symm.trans produces.place
  · rw [written, stored] at writing
    rw [same.tree, same.current] at targeted
    have produces : Produces world input output options path text place :=
      ⟨congrArg Prod.fst chosen, ⟨units, congrArg Prod.fst loaded, compile_of_outcome done⟩,
        targeted⟩
    have tree := congrArg (FileTree.insert · place (.file (world.stored text.toUTF8).1)) same.tree
    refine .inr ⟨path, text, place, produces, ?_⟩
    cases ended : (world.stored text.toUTF8).2 with
    | error cause =>
      rw [ended] at writing
      cases writing
      exact ⟨tree, same.current, rfl⟩
    | ok _ =>
      rw [ended] at writing
      obtain ⟨ending, finished⟩ := tells_report verbosity .info ("finished " ++ path)
        { compiled with
          tree := compiled.tree.insert place (.file (world.stored text.toUTF8).1) }
      cases finished.symm.trans writing
      exact ⟨tree, same.current, rfl⟩

/-! ## The units of an input -/

/-- Whether a name in a directory is that of a file of stack code that can be reached. -/
def isUnitIn (world : World) (directory name : String) : Bool :=
  Path.extension? name = some "vm" && world.isFile (Path.join directory name)

/-- Whether an entry is a unit is seen without a change to the world. -/
theorem run_isUnit (directory name : String) (world : World) :
    (isUnit World.host directory name).run world = (isUnitIn world directory name, world) := by
  unfold isUnit isUnitIn
  split_ifs with extension
  · simp only [extension, decide_true, Bool.true_and]
    rfl
  · simp only [extension, decide_false, Bool.false_and]
    rfl

/-- The entries are chosen that are units. -/
theorem outcome_filterM (directory : String) (names : List String) (world : World) :
    world.outcome (names.filterM fun name => liftM (isUnit World.host directory name)) =
      (.ok (names.filter (isUnitIn world directory)), world) := by
  have collected : ∀ kept : List String, world.outcome (names.filterAuxM
      (fun name => liftM (isUnit World.host directory name)) kept) =
        (.ok ((names.filter (isUnitIn world directory)).reverse ++ kept), world) := by
    induction names with
    | nil => exact fun kept => rfl
    | cons name rest hypothesis =>
      intro kept
      rw [List.filterAuxM, outcome_bind_of_ok (outcome_lift _ world), run_isUnit]
      cases unit : isUnitIn world directory name with
      | false =>
        rw [List.filter_cons_of_neg (by simp [unit])]
        exact hypothesis kept
      | true =>
        rw [List.filter_cons_of_pos unit, List.reverse_cons, List.append_assoc]
        exact hypothesis (name :: kept)
  rw [List.filterM, outcome_bind_of_ok (collected []), List.append_nil, List.reverse_reverse]
  rfl

/-- The names of the units in a directory, in order. -/
def unitNames (world : World) (directory : String) (names : List String) : List String :=
  (names.filter (isUnitIn world directory)).mergeSort fun first second => decide (first ≤ second)

/-- There are no units just when no entry is one. -/
theorem unitNames_eq_nil_iff {world : World} {directory : String} {names : List String} :
    unitNames world directory names = [] ↔ names.filter (isUnitIn world directory) = [] := by
  rw [← List.length_eq_zero_iff, unitNames, List.length_mergeSort, List.length_eq_zero_iff]

/-- The units of a directory are listed by their sorted names, unless there are none. -/
theorem outcome_unitPaths_of_directory {world : World} {input : String}
    {entries : List (String × FileTree)} (found : world.access input = .ok (.directory entries)) :
    world.outcome (unitPaths World.host input) =
      (if unitNames world input (entries.map Prod.fst) = [] then .error (.noUnits input)
        else .ok ((unitNames world input (entries.map Prod.fst)).map (Path.join input)),
        world) := by
  have inside : world.isDirectory input = true := by rw [World.isDirectory, found]
  have listed : world.list input = .ok (entries.map Prod.fst) := by
    rw [World.list, found]
    rfl
  have asked : world.outcome (liftM (World.host.isDirectory input)) = (.ok true, world) := by
    rw [← inside]
    rfl
  have names : world.outcome (liftM (World.host.list input)) =
      (.ok (.ok (entries.map Prod.fst)), world) := by
    rw [← listed]
    rfl
  rw [unitPaths, outcome_bind_of_ok asked, if_pos rfl, outcome_bind_of_ok names]
  dsimp only
  rw [outcome_bind_of_ok (outcome_filterM input (entries.map Prod.fst) world)]
  by_cases none : unitNames world input (entries.map Prod.fst) = []
  · rw [if_pos none, unitNames_eq_nil_iff.mp none]
    rfl
  · have some : ¬((entries.map Prod.fst).filter (isUnitIn world input)).isEmpty = true := by
      rw [List.isEmpty_iff, ← unitNames_eq_nil_iff]
      exact none
    rw [if_neg none, if_neg some]
    rfl

theorem outcome_unitPaths_of_not_directory {world : World} {input : String}
    (outside : world.isDirectory input = false) :
    world.outcome (unitPaths World.host input) = (.ok [input], world) := by
  have asked : world.outcome (liftM (World.host.isDirectory input)) = (.ok false, world) := by
    rw [← outside]
    rfl
  rw [unitPaths, outcome_bind_of_ok asked]
  rfl

theorem sorted_unitNames (world : World) (directory : String) (names : List String) :
    (unitNames world directory names).Pairwise fun first second => first ≤ second := by
  have sorted := @List.pairwise_mergeSort _ (fun first second : String => decide (first ≤ second))
    (by simpa using fun _ _ _ => String.le_trans) (by simpa using String.le_total)
    (names.filter (isUnitIn world directory))
  simp only [decide_eq_true_eq] at sorted
  exact sorted

theorem perm_unitNames (world : World) (directory : String) (names : List String) :
    (unitNames world directory names).Perm (names.filter (isUnitIn world directory)) :=
  List.mergeSort_perm _ _

/-- Names in another order give the same units in order. -/
theorem unitNames_congr {first second : World} (reordered : first.Reordered second)
    (directory : String) {names others : List String} (same : names.Perm others) :
    unitNames first directory names = unitNames second directory others := by
  have units : isUnitIn first directory = isUnitIn second directory := by
    funext name
    rw [isUnitIn, isUnitIn, reordered.isFile_eq]
  have perm : (unitNames first directory names).Perm (unitNames second directory others) := by
    refine (perm_unitNames _ _ _).trans ?_
    rw [units]
    exact (same.filter _).trans (perm_unitNames _ _ _).symm
  exact perm.eq_of_pairwise (fun _ _ _ _ => String.le_antisymm) (sorted_unitNames _ _ _)
    (sorted_unitNames _ _ _)

/-! ## The order of directories -/

/-- An action gives the same and does the same in worlds that differ in the order of directories. -/
def Steady (action : Action α) : Prop :=
  ∀ first second : World, first.Reordered second →
    (first.outcome action).1 = (second.outcome action).1 ∧
      (first.outcome action).2.Reordered (second.outcome action).2

namespace Steady

theorem pure (value : α) : Steady (pure value : Action α) :=
  fun _ _ reordered => ⟨rfl, reordered⟩

theorem throw (failure : SessionFailure) : Steady (throw failure : Action α) :=
  fun _ _ reordered => ⟨rfl, reordered⟩

/-- Two steady actions are steady together. -/
theorem bind {action : Action α} {next : α → Action β} (head : Steady action)
    (rest : ∀ value, Steady (next value)) : Steady (action >>= next) := by
  intro first second reordered
  obtain ⟨same, after⟩ := head first second reordered
  cases left : first.outcome action with
  | mk outcome reached =>
    cases right : second.outcome action with
    | mk result other =>
      rw [left, right] at same after
      cases same
      cases outcome with
      | error failure =>
        rw [outcome_bind_of_error left, outcome_bind_of_error right]
        exact ⟨rfl, after⟩
      | ok value =>
        rw [outcome_bind_of_ok left, outcome_bind_of_ok right]
        exact rest value reached other after

theorem forM {action : α → Action Unit} (each : ∀ value, Steady (action value))
    (values : List α) : Steady (values.forM action) := by
  induction values with
  | nil => exact pure ()
  | cons value rest hypothesis => exact bind (each value) fun _ => hypothesis

theorem mapM {action : α → Action β} (each : ∀ value, Steady (action value))
    (values : List α) : Steady (values.mapM action) := by
  induction values with
  | nil => exact pure []
  | cons value rest hypothesis =>
    rw [List.mapM_cons]
    exact bind (each value) fun _ => bind hypothesis fun _ => pure _

end Steady

theorem steady_print (text : String) : Steady (liftM (World.host.print text) : Action Unit) := by
  intro first second reordered
  exact ⟨rfl, { reordered with output := congrArg (· ++ text) reordered.output }⟩

theorem steady_log (text : String) : Steady (liftM (World.host.log text) : Action Unit) := by
  intro first second reordered
  exact ⟨rfl, { reordered with log := congrArg (· ++ text) reordered.log }⟩

theorem steady_report (verbosity : Nat) (level : Level) (text : String) :
    Steady (liftM (report World.host verbosity level text) : Action Unit) := by
  unfold report
  split_ifs
  · exact steady_log _
  · exact .pure ()

theorem steady_write (path : String) (contents : ByteArray) :
    Steady (liftM (World.host.write path contents) : Action (Except FileError Unit)) := by
  intro first second reordered
  obtain ⟨same, after⟩ := reordered.write_reordered path contents
  exact ⟨congrArg Except.ok same, after⟩

theorem steady_unitPaths (input : String) : Steady (unitPaths World.host input) := by
  intro first second reordered
  rcases reordered.access_cases input with ⟨error, left, right⟩ | ⟨contents, left, right⟩ |
    ⟨entries, others, left, right, same⟩
  · rw [outcome_unitPaths_of_not_directory (World.isDirectory_eq_false (by simp [left])),
      outcome_unitPaths_of_not_directory (World.isDirectory_eq_false (by simp [right]))]
    exact ⟨rfl, reordered⟩
  · rw [outcome_unitPaths_of_not_directory (World.isDirectory_eq_false (by simp [left])),
      outcome_unitPaths_of_not_directory (World.isDirectory_eq_false (by simp [right]))]
    exact ⟨rfl, reordered⟩
  · rw [outcome_unitPaths_of_directory left, outcome_unitPaths_of_directory right,
      unitNames_congr reordered input same]
    exact ⟨rfl, reordered⟩

theorem steady_loadUnit (path : String) : Steady (loadUnit World.host path) := by
  unfold loadUnit
  refine .bind ?_ fun loaded => ?_
  · intro first second reordered
    rw [outcome_lift, outcome_lift, run_load, run_load, reordered.read_eq]
    exact ⟨rfl, reordered⟩
  · split
    · exact .pure _
    · exact .throw _

theorem steady_loadUnits (input : String) : Steady (loadUnits World.host input) :=
  .bind (steady_unitPaths input) fun paths => .mapM steady_loadUnit paths

theorem steady_outputPath (input : String) : Steady (outputPath World.host input) := by
  unfold outputPath
  refine .bind ?_ fun inside => ?_
  · intro first second reordered
    exact ⟨congrArg Except.ok (reordered.isDirectory_eq input), reordered⟩
  · split_ifs
    · refine .bind ?_ fun named => ?_
      · intro first second reordered
        exact ⟨congrArg Except.ok (reordered.directoryName_eq input), reordered⟩
      · split
        · exact .throw _
        · exact .throw _
        · exact .pure _
    · exact .pure _

theorem steady_compileUnits (verbosity : Nat) (terminal : Terminal) (options : EmissionOptions)
    (units : List LoadedUnit) :
    Steady (compileUnits World.host verbosity terminal options units) := by
  unfold compileUnits
  refine .bind (.forM (fun unit => steady_report _ _ _) _) fun _ => ?_
  refine .bind (.forM (fun note => steady_report _ _ _) _) fun _ => ?_
  split
  · exact .pure _
  · exact .throw _
  · split
    · exact .throw _
    · split
      · exact .throw _
      · exact .bind (steady_log _) fun _ => .throw _

theorem steady_build (verbosity : Nat) (terminal : Terminal) (input : String)
    (output : Option String) (options : EmissionOptions) :
    Steady (build World.host verbosity terminal input output options) := by
  have chosen : Steady (chosenOutput input output) := by
    cases output with
    | some path => exact .pure path
    | none => exact steady_outputPath input
  rw [build_eq]
  refine .bind chosen fun path => ?_
  simp only [build, pure_bind]
  refine .bind (steady_loadUnits input) fun units => ?_
  refine .bind (steady_report _ _ _) fun _ => ?_
  refine .bind (steady_compileUnits verbosity terminal options units) fun code => ?_
  refine .bind (steady_write path _) fun written => ?_
  split
  · exact .throw _
  · exact steady_report _ _ _

theorem steady_runCode (verbosity : Nat) (input : String) (steps : Nat)
    (options : EmissionOptions) (code : String) :
    Steady (runCode World.host verbosity input steps options code) := by
  unfold runCode
  split
  · exact .throw _
  · refine .bind (steady_report _ _ _) fun _ => ?_
    cases (boot options _).run steps with
    | mk computer outcome =>
      cases outcome with
      | faulted fault => exact .bind (.throw _) fun _ => steady_print _
      | halted => exact .bind (steady_report _ _ _) fun _ => steady_print _
      | exhausted => exact .bind (steady_report _ _ _) fun _ => steady_print _

theorem steady_run (verbosity : Nat) (terminal : Terminal) (input : String) (steps : Nat)
    (options : EmissionOptions) :
    Steady (run World.host verbosity terminal input steps options) :=
  .bind (steady_loadUnits input) fun units =>
    .bind (steady_compileUnits verbosity terminal options units) fun code =>
      steady_runCode verbosity input steps options code

end Session

end HackToolchain
