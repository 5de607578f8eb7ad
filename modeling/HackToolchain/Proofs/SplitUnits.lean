import HackToolchain.Proofs.Recovery

/-! # Units that are split at a line break

A unit whose text has a line break in it makes the same code as two units of the same name with the
texts on both sides of the break. Nothing that is kept from one line to the next is lost between two
units, and nothing that is kept from one unit to the next depends on where units end. A fault in the
second text is found in both cases; its position and its span tell where it is in its own unit, so
they differ by the lines and the bytes of the first text (`failure?_joined`).
-/

namespace HackToolchain

/-! ## Positions -/

namespace Text

/-- Text behind an offset does not change its position. -/
theorem position_append_of_le {offset : Nat} {first : Text} (short : offset ≤ first.size)
    (second : Text) : position offset (first ++ second) = position offset first := by
  rw [position, position, before_append_of_le short]

/-- A line break starts a new line, and the lines before it are counted. -/
theorem endPosition_append_newline (first second : Text) :
    endPosition (first ++ '\n' :: second) =
      ⟨second.endPosition.line + (first.count '\n' + 1), second.endPosition.column⟩ := by
  have column : ((first ++ '\n' :: second).reverse.takeWhile (· != '\n')).length =
      (second.reverse.takeWhile (· != '\n')).length := by
    rw [List.reverse_append, List.reverse_cons, List.append_assoc, List.takeWhile_append]
    split
    · rename_i whole
      simp [whole]
    · rfl
  have line : (first ++ '\n' :: second).count '\n' =
      second.count '\n' + (first.count '\n' + 1) := by
    rw [List.count_append, List.count_cons_self]
    omega
  rw [endPosition, endPosition, column, line]

/-- Lines in front of a text move its positions down. -/
theorem position_append_newline (first second : Text) (offset : Nat) :
    position (first.size + 1 + offset) (first ++ '\n' :: second) =
      ⟨(position offset second).line + (first.count '\n' + 1),
        (position offset second).column⟩ := by
  have size : size (first ++ ['\n']) = first.size + 1 := size_append first ['\n']
  have text : ∀ rest : Text, first ++ '\n' :: rest = (first ++ ['\n']) ++ rest := by simp
  rw [position, text, ← size, before_append_of_ge, ← text, endPosition_append_newline]
  rfl

end Text

/-! ## Faults -/

/-- A failure in the text behind a line break, as it is reported for the whole text. -/
def EmissionFailure.behind (first : String) : EmissionFailure → EmissionFailure
  | command unit position fault => command unit
      ⟨position.line + (first.toList.count '\n' + 1), position.column⟩
      (fault.shift (Text.size first.toList + 1))
  | output cause => output cause

namespace Source

variable {source : Source}

/-- A reading that is moved has the same fault, moved with it. -/
theorem faultOf?_shift (distance : Nat) (reading : Reading) :
    source.faultOf? (reading.shift distance) =
      (source.faultOf? reading).map (CommandFault.shift distance) := by
  cases reading with
  | error fault => rfl
  | ok located =>
    rw [Reading.shift, faultOf?, faultOf?, LocatedCommand.shift]
    cases Template.command source.name {} located.command <;> rfl

/-- What is wrong with a reading is where the reading is. -/
theorem span_of_faultOf? {reading : Reading} {fault : CommandFault}
    (wrong : source.faultOf? reading = some fault) : fault.span = Reading.span reading := by
  cases reading with
  | error other =>
    cases wrong
    rfl
  | ok located =>
    cases empty : Template.command source.name {} located.command with
    | ok result => cases wrong.symm.trans (faultOf?_of_ok empty)
    | error cause =>
      cases wrong.symm.trans (faultOf?_of_error empty)
      rfl

/-- A fault lies in the text of its unit. -/
theorem start_le_of_fault? {fault : CommandFault} (found : source.fault? = some fault) :
    fault.span.start ≤ Text.size source.text.toList := by
  obtain ⟨reading, member, wrong⟩ := List.exists_of_findSome?_eq_some found
  have span := span_of_faultOf? wrong
  have ascending := Command.ascending_readings source.text.toList
  have listed : Reading.span reading ∈
      (Command.readings source.text.toList).map Reading.span := List.mem_map_of_mem member
  have order := (ascending.start_of_mem _ listed).2
  have bound := ascending.stop_of_mem _ listed
  rw [span]
  omega

/-- A unit with a line break between two texts. -/
def joined (name first second : String) : Source :=
  ⟨name, first ++ "\n" ++ second⟩

variable (name first second : String)

/-- The joined unit has both texts on lines of their own. -/
theorem toList_joined :
    (joined name first second).text.toList = first.toList ++ '\n' :: second.toList := by
  simp [joined]

/-- The first fault of the joined unit is that of its first part, or else that of the second, moved
down. -/
theorem fault?_joined : (joined name first second).fault? =
    (Source.mk name first).fault?.or ((Source.mk name second).fault?.map
      (CommandFault.shift (Text.size first.toList + 1))) := by
  have same : ∀ text, (Source.mk name text).faultOf? = (joined name first second).faultOf? :=
    fun _ => rfl
  have moved : (joined name first second).faultOf? ∘ Reading.shift (Text.size first.toList + 1) =
      Option.map (CommandFault.shift (Text.size first.toList + 1)) ∘
        (joined name first second).faultOf? :=
    funext (faultOf?_shift _)
  rw [fault?, fault?, fault?, toList_joined, Command.readings_append_newline,
    List.findSome?_append, same, same, List.findSome?_map, moved, ← List.map_findSome?]

/-- A unit fails as the part before the line break, or else as the part behind it, that many lines
and bytes further on. -/
theorem failure?_joined : (joined name first second).failure? =
    (Source.mk name first).failure?.or
      ((Source.mk name second).failure?.map (EmissionFailure.behind first)) := by
  rw [failure?, failure?, failure?, fault?_joined]
  cases found : (Source.mk name first).fault? with
  | some fault =>
    have inside : fault.span.start ≤ Text.size first.toList := start_le_of_fault? found
    rw [Option.some_or, Option.map_some, Option.map_some, Option.some_or, EmissionFailure.ofFault,
      toList_joined, Text.position_append_of_le inside]
    rfl
  | none =>
    cases (Source.mk name second).fault? with
    | none => rfl
    | some fault =>
      rw [Option.none_or, Option.map_some, Option.map_some, EmissionFailure.ofFault, toList_joined]
      change some (EmissionFailure.command name (Text.position
        (Text.size first.toList + 1 + fault.span.start) _) _) = _
      rw [Text.position_append_newline]
      rfl

/-- The commands of a unit are those before the line break and those behind it. -/
theorem parts_joined {located further : List LocatedCommand}
    (read : Command.readAll first.toList = .ok located)
    (readToo : Command.readAll second.toList = .ok further) :
    (joined name first second).parts =
      (Source.mk name first).parts ++ (Source.mk name second).parts := by
  have whole : Command.readAll (joined name first second).text.toList =
      .ok (located ++ further.map (LocatedCommand.shift (Text.size first.toList + 1))) := by
    rw [Command.readAll_eq_ok_iff, toList_joined, Command.readings_append_newline,
      Command.readAll_eq_ok_iff.mp read, Command.readAll_eq_ok_iff.mp readToo, List.map_append,
      List.map_map, List.map_map]
    rfl
  have same : LocatedCommand.command ∘ LocatedCommand.shift (Text.size first.toList + 1) =
      LocatedCommand.command := rfl
  simp only [parts, commands, whole, read, readToo, List.map_append, List.map_map, same]
  rfl

end Source

/-! ## Compilations -/

/-- A compilation fails in a unit after some others. -/
def FailsIn (options : EmissionOptions) (earlier : List Source) (source : Source) : Prop :=
  (∃ text, (compile options earlier).result = .ok text) ∧
    ∃ failure, (compile options (earlier ++ [source])).result = .error failure

section

variable (options : EmissionOptions) (before after : List Source) (name first second : String)

/-- A compilation fails in a unit just when the earlier units do not fail and it does. -/
theorem failsIn_iff {earlier : List Source} {source : Source} : FailsIn options earlier source ↔
    earlier.findSome? Source.failure? = none ∧ ∃ failure, source.failure? = some failure := by
  rw [FailsIn, exists_compile_ok_iff, ← List.findSome?_eq_none_iff]
  refine and_congr_right fun fine => exists_congr fun failure => ?_
  rw [compile_error_iff, List.findSome?_append, fine, Option.none_or, List.findSome?_singleton]

/-- The first failure of some units is that of the first one, or else of the rest. -/
theorem findSome?_failure?_cons (source : Source) (rest : List Source) :
    (source :: rest).findSome? Source.failure? =
      source.failure?.or (rest.findSome? Source.failure?) := by
  rw [List.findSome?_cons]
  cases source.failure? <;> rfl

/-- The first failure with the whole unit: before the line break, behind it, or in the units that
follow. -/
theorem findSome?_failure?_whole :
    (before ++ Source.joined name first second :: after).findSome? Source.failure? =
      ((before ++ [Source.mk name first]).findSome? Source.failure?).or
        (((Source.mk name second).failure?.map (EmissionFailure.behind first)).or
          (after.findSome? Source.failure?)) := by
  rw [List.findSome?_append, findSome?_failure?_cons, Source.failure?_joined, List.findSome?_append,
    List.findSome?_singleton, Option.or_assoc, Option.or_assoc]

/-- The first failure with the two units. -/
theorem findSome?_failure?_parted :
    (before ++ ⟨name, first⟩ :: ⟨name, second⟩ :: after).findSome? Source.failure? =
      ((before ++ [Source.mk name first]).findSome? Source.failure?).or
        ((Source.mk name second).failure?.or (after.findSome? Source.failure?)) := by
  rw [List.findSome?_append, findSome?_failure?_cons, findSome?_failure?_cons,
    List.findSome?_append, List.findSome?_singleton, Option.or_assoc]

/-- Both compilations succeed with the same code if no text is at fault. -/
theorem compile_joined_ok {text other : String}
    (compiled : (compile options (before ++ Source.joined name first second :: after)).result =
      .ok text)
    (compiledToo : (compile options
      (before ++ ⟨name, first⟩ :: ⟨name, second⟩ :: after)).result = .ok other) : text = other := by
  obtain ⟨readable, -, -⟩ := compile_ok compiledToo
  obtain ⟨located, read⟩ := readable ⟨name, first⟩ (by simp)
  obtain ⟨further, readToo⟩ := readable ⟨name, second⟩ (by simp)
  refine compile_ok_congr ?_ compiled compiledToo
  rw [parts, parts, List.flatMap_append, List.flatMap_append, List.flatMap_cons, List.flatMap_cons,
    List.flatMap_cons, Source.parts_joined name first second read readToo, List.append_assoc]

end

/-- **A line break can end a unit.** A unit with a line break in its text makes the same code as the
two units with the texts before and behind the break, among any other units; or there is no code in
both cases. Then, if the failure is in the second text, it is one of a command, with the same unit,
cause and column, but the line and the span are counted from the start of the whole text. Any other
failure is the same. -/
theorem compile_joined (options : EmissionOptions) (before after : List Source)
    (name first second : String) :
    let whole := (compile options (before ++ ⟨name, first ++ "\n" ++ second⟩ :: after)).result
    let parted := (compile options (before ++ ⟨name, first⟩ :: ⟨name, second⟩ :: after)).result
    (∃ text, whole = .ok text ∧ parted = .ok text) ∨
    (FailsIn options (before ++ [⟨name, first⟩]) ⟨name, second⟩ ∧
      ∃ position cause span, parted = .error (.command name position ⟨cause, span⟩) ∧
        whole = .error (.command name
          ⟨position.line + (first.toList.count '\n' + 1), position.column⟩
          ⟨cause, span.shift (Text.size first.toList + 1)⟩)) ∨
    (¬FailsIn options (before ++ [⟨name, first⟩]) ⟨name, second⟩ ∧
      ∃ failure, parted = .error failure ∧ whole = .error failure) := by
  intro whole parted
  have wholeFails : ∀ failure, whole = .error failure ↔
      (before ++ Source.joined name first second :: after).findSome? Source.failure? =
        some failure := fun _ => compile_error_iff
  have partedFails : ∀ failure, parted = .error failure ↔
      (before ++ ⟨name, first⟩ :: ⟨name, second⟩ :: after).findSome? Source.failure? =
        some failure := fun _ => compile_error_iff
  rw [findSome?_failure?_whole] at wholeFails
  rw [findSome?_failure?_parted] at partedFails
  rw [failsIn_iff]
  cases opening : (before ++ [Source.mk name first]).findSome? Source.failure? with
  | some failure =>
    rw [opening] at wholeFails partedFails
    exact .inr (.inr ⟨nofun, failure, (partedFails failure).mpr rfl, (wholeFails failure).mpr rfl⟩)
  | none =>
    rw [opening] at wholeFails partedFails
    cases found : (Source.mk name second).failure? with
    | some failure =>
      obtain ⟨fault, -, rfl⟩ := Option.map_eq_some_iff.mp found
      rw [found] at wholeFails partedFails
      exact .inr (.inl ⟨⟨rfl, _, rfl⟩, _, fault.cause, fault.span, (partedFails _).mpr rfl,
        (wholeFails _).mpr rfl⟩)
    | none =>
      -- Neither text is at fault, so only a unit that follows can be.
      rw [found] at wholeFails partedFails
      have alike : ∀ failure, whole = .error failure ↔ parted = .error failure :=
        fun failure => (wholeFails failure).trans (partedFails failure).symm
      cases compiled : whole with
      | error failure =>
        refine .inr (.inr ⟨?_, failure, (alike failure).mp compiled, rfl⟩)
        rintro ⟨-, other, failed⟩
        cases failed
      | ok text =>
        cases compiledToo : parted with
        | error failure => cases compiled.symm.trans ((alike failure).mpr compiledToo)
        | ok other =>
          have same := compile_joined_ok options before after name first second compiled
            compiledToo
          exact .inl ⟨text, rfl, by rw [same]⟩

end HackToolchain
