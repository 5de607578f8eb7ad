import HackToolchain.Emission.Emitter

/-! # Blocks of emitted code

The output of the compiler is a sequence of blocks. Each block holds the lines of one part of the
program: the bootstrap code, or one command of one unit. The parts of a program follow from its
sources alone (`parts`), the blocks follow from the parts (`expand`), and the text of a compilation
that succeeds is the text of its blocks (`compile_ok`).
-/

namespace HackToolchain

/-- What a block of the output stands for. -/
inductive Part where
  /-- The code that sets up the stack and calls the entry function. -/
  | bootstrap (entry : String)
  /-- A command of a unit. -/
  | command (unit : String) (command : Command)
deriving DecidableEq, Repr

namespace Part

/-- The lines for a part, and the labels that are left after it. -/
def lines (supply : LabelSupply) : Part → Except FaultCause (List AssemblyLine × LabelSupply)
  | bootstrap entry => .ok (Template.bootstrap supply entry)
  | command unit given => Template.command unit supply given

/-- The comment over the lines for a part. -/
def caption : Part → String
  | bootstrap _ => "bootstrap"
  | command _ given => given.render

end Part

/-- A part of a program with the lines that stand for it. -/
structure Block where
  part : Part
  lines : List AssemblyLine
deriving DecidableEq, Repr

/-- The lines of a block as they are written, under a caption if captions are wanted. -/
def Block.written (annotate : Bool) (block : Block) : List AssemblyLine :=
  if annotate then .comment block.part.caption :: block.lines else block.lines

/-- The text of some lines. -/
def AssemblyLine.textOf (lines : List AssemblyLine) : Text :=
  lines.flatMap fun line => line.renderLine.toList

@[simp]
theorem AssemblyLine.textOf_append (first second : List AssemblyLine) :
    textOf (first ++ second) = textOf first ++ textOf second := by
  simp [textOf]

/-- The blocks of some parts, and the labels that are left after them. -/
def expand : LabelSupply → List Part → Except FaultCause (List Block × LabelSupply)
  | supply, [] => .ok ([], supply)
  | supply, part :: rest => do
    let (lines, supply) ← part.lines supply
    let (blocks, supply) ← expand supply rest
    return (⟨part, lines⟩ :: blocks, supply)

/-- The commands of a source; none if the text is at fault. -/
def Source.commands (source : Source) : List Command :=
  match Command.readAll source.text.toList with
  | .ok located => located.map LocatedCommand.command
  | .error _ => []

/-- The parts of a unit. -/
def Source.parts (source : Source) : List Part :=
  source.commands.map (Part.command source.name)

/-- The parts of a program. -/
def parts (options : EmissionOptions) (sources : List Source) : List Part :=
  (if options.bootstrap then [.bootstrap options.entry] else []) ++ sources.flatMap Source.parts

/-- The blocks of a program; none if a command has no lines. -/
def blocks (options : EmissionOptions) (sources : List Source) : List Block :=
  match expand {} (parts options sources) with
  | .ok (blocks, _) => blocks
  | .error _ => []

/-! ## Expanding parts -/

theorem expand_cons {supply next last : LabelSupply} {part : Part} {lines : List AssemblyLine}
    {rest : List Part} {written : List Block} (head : part.lines supply = .ok (lines, next))
    (tail : expand next rest = .ok (written, last)) :
    expand supply (part :: rest) = .ok (⟨part, lines⟩ :: written, last) := by
  rw [expand, head]
  change (do
    let (blocks, supply) ← expand next rest
    return (⟨part, lines⟩ :: blocks, supply) : Except FaultCause _) = _
  rw [tail]
  rfl

/-- The blocks of some parts come one by one. -/
theorem expand_cons_inv {supply last : LabelSupply} {part : Part} {rest : List Part}
    {written : List Block} (expanded : expand supply (part :: rest) = .ok (written, last)) :
    ∃ lines next tail, part.lines supply = .ok (lines, next) ∧
      expand next rest = .ok (tail, last) ∧ written = ⟨part, lines⟩ :: tail := by
  rw [expand] at expanded
  cases head : part.lines supply with
  | error cause =>
    rw [head] at expanded
    cases expanded
  | ok found =>
    obtain ⟨lines, next⟩ := found
    rw [head] at expanded
    change (do
      let (blocks, supply) ← expand next rest
      return (⟨part, lines⟩ :: blocks, supply) : Except FaultCause _) = _ at expanded
    cases tail : expand next rest with
    | error cause =>
      rw [tail] at expanded
      cases expanded
    | ok found =>
      obtain ⟨blocks, final⟩ := found
      rw [tail] at expanded
      cases expanded
      exact ⟨lines, next, blocks, rfl, tail, rfl⟩

/-- Two lists of parts are expanded one after the other. -/
theorem expand_append {supply middle last : LabelSupply} {first second : List Part}
    {before after : List Block} (head : expand supply first = .ok (before, middle))
    (tail : expand middle second = .ok (after, last)) :
    expand supply (first ++ second) = .ok (before ++ after, last) := by
  induction first generalizing supply before with
  | nil =>
    cases head
    exact tail
  | cons part rest hypothesis =>
    obtain ⟨lines, next, written, found, expanded, rfl⟩ := expand_cons_inv head
    exact expand_cons found (hypothesis expanded)

/-- The expansion of two lists of parts is that of the first and then that of the second. -/
theorem expand_append_inv {supply last : LabelSupply} {first second : List Part}
    {written : List Block} (expanded : expand supply (first ++ second) = .ok (written, last)) :
    ∃ before middle after, expand supply first = .ok (before, middle) ∧
      expand middle second = .ok (after, last) ∧ written = before ++ after := by
  induction first generalizing supply written with
  | nil => exact ⟨[], supply, written, rfl, expanded, rfl⟩
  | cons part rest hypothesis =>
    obtain ⟨lines, next, tail, found, remaining, rfl⟩ := expand_cons_inv expanded
    obtain ⟨before, middle, after, head, others, rfl⟩ := hypothesis remaining
    exact ⟨⟨part, lines⟩ :: before, middle, after, expand_cons found head, others, rfl⟩

/-- Every part has one block, in order. -/
theorem map_part_of_expand {supply last : LabelSupply} {program : List Part}
    {written : List Block} (expanded : expand supply program = .ok (written, last)) :
    written.map Block.part = program := by
  induction program generalizing supply written with
  | nil =>
    cases expanded
    rfl
  | cons part rest hypothesis =>
    obtain ⟨lines, next, tail, -, remaining, rfl⟩ := expand_cons_inv expanded
    rw [List.map_cons, hypothesis remaining]

/-- Every block holds the lines for its part, with the labels that were left when it was written. -/
theorem lines_of_mem_expand {supply last : LabelSupply} {program : List Part}
    {written : List Block} (expanded : expand supply program = .ok (written, last))
    {block : Block} (member : block ∈ written) :
    ∃ before after, block.part.lines before = .ok (block.lines, after) := by
  induction program generalizing supply written with
  | nil =>
    cases expanded
    cases member
  | cons part rest hypothesis =>
    obtain ⟨lines, next, tail, found, remaining, rfl⟩ := expand_cons_inv expanded
    rcases List.mem_cons.mp member with rfl | later
    · exact ⟨supply, next, found⟩
    · exact hypothesis remaining later

/-- A text is read when none of its readings is a fault. -/
theorem Command.readAll_eq_ok_iff {text : Text} {located : List LocatedCommand} :
    Command.readAll text = .ok located ↔ Command.readings text = located.map Except.ok := by
  rw [Command.readAll]
  generalize Command.readings text = readings
  induction readings generalizing located with
  | nil =>
    cases located with
    | nil => exact ⟨fun _ => rfl, fun _ => rfl⟩
    | cons _ _ =>
      constructor
      · intro read
        cases read
      · intro same
        cases same
  | cons reading rest hypothesis =>
    rw [List.mapM_cons]
    cases reading with
    | error fault =>
      constructor
      · intro read
        cases read
      · intro same
        cases located <;> cases same
    | ok found =>
      change (rest.mapM id >>= fun others => pure (found :: others)) = _ ↔ _
      constructor
      · intro read
        cases tail : rest.mapM id with
        | error fault =>
          rw [tail] at read
          cases read
        | ok others =>
          rw [tail] at read
          cases read
          rw [hypothesis.mp tail, List.map_cons]
      · intro same
        cases located with
        | nil => cases same
        | cons first others =>
          cases same
          rw [hypothesis.mpr rfl]
          rfl

/-! ## Writing blocks -/

namespace Sink

/-- A sink that takes whatever is written to it. -/
structure Unlimited (sink : Sink) : Prop where
  capacity : sink.capacity = none
  flush : sink.flushFails = false

/-- A sink with more text at its end. -/
def append (sink : Sink) (text : Text) : Sink :=
  { sink with contents := sink.contents ++ (String.ofList text).toUTF8 }

theorem append_nil (sink : Sink) : sink.append [] = sink := by
  simp [append]

theorem append_append (sink : Sink) (first second : Text) :
    (sink.append first).append second = sink.append (first ++ second) := by
  simp [append, ByteArray.append_assoc]

/-- A sink without a limit has none after more was written to it. -/
theorem Unlimited.append {sink : Sink} (unlimited : sink.Unlimited) (text : Text) :
    (sink.append text).Unlimited :=
  ⟨unlimited.capacity, unlimited.flush⟩

/-- A sink without a limit takes any text. -/
theorem Unlimited.write_eq {sink : Sink} (unlimited : sink.Unlimited) (text : String) :
    sink.write text = (sink.append text.toList, none) := by
  obtain ⟨contents, capacity, flushFails⟩ := sink
  obtain ⟨rfl, rfl⟩ := unlimited
  simp [write, Sink.append]

/-- A sink without a limit takes any lines. -/
theorem Unlimited.writeLines_eq {sink : Sink} (unlimited : sink.Unlimited)
    (lines : List AssemblyLine) :
    sink.writeLines lines = (sink.append (AssemblyLine.textOf lines), none) := by
  induction lines generalizing sink with
  | nil => rw [writeLines, AssemblyLine.textOf, List.flatMap_nil, append_nil]
  | cons line rest hypothesis =>
    rw [writeLines, unlimited.write_eq]
    change (sink.append line.renderLine.toList).writeLines rest = _
    rw [hypothesis (unlimited.append _), append_append]
    rfl

/-- What is written to an empty sink can be read back. -/
theorem text?_append_empty (text : Text) :
    (append {} text).text? = some (String.ofList text) := by
  have contents : (append {} text).contents = (String.ofList text).toByteArray := by
    simp [append]
  rw [text?, contents, String.fromUTF8?, dif_pos (String.ofList text).isValidUTF8]
  rfl

end Sink

namespace Emitter

/-- From one state to another, an emitter wrote the blocks of some parts. -/
structure Wrote (program : List Part) (first last : Emitter) : Prop where
  options : last.options = first.options
  started : first.started → last.started
  unlimited : last.sink.Unlimited
  blocks : ∃ written, expand first.supply program = .ok (written, last.supply) ∧
    last.sink = first.sink.append
      (AssemblyLine.textOf (written.flatMap (Block.written first.options.annotate)))

theorem Wrote.refl {emitter : Emitter} (unlimited : emitter.sink.Unlimited) :
    Wrote [] emitter emitter :=
  ⟨rfl, id, unlimited, [], rfl, (Sink.append_nil _).symm⟩

theorem Wrote.trans {first middle last : Emitter} {earlier later : List Part}
    (head : Wrote earlier first middle) (tail : Wrote later middle last) :
    Wrote (earlier ++ later) first last := by
  obtain ⟨before, expandedBefore, sinkBefore⟩ := head.blocks
  obtain ⟨after, expandedAfter, sinkAfter⟩ := tail.blocks
  refine ⟨tail.options.trans head.options, tail.started ∘ head.started, tail.unlimited,
    before ++ after, expand_append expandedBefore expandedAfter, ?_⟩
  rw [sinkAfter, sinkBefore, Sink.append_append, head.options]
  simp

/-- Notes are not part of the output. -/
theorem Wrote.record_left {first last : Emitter} {program : List Part} {note : Note}
    (wrote : Wrote program (first.record note) last) : Wrote program first last :=
  ⟨wrote.options, wrote.started, wrote.unlimited, wrote.blocks⟩

/-- To a sink without a limit, lines are written as a whole, with their caption if it is wanted. -/
theorem write_eq (emitter : Emitter) (unlimited : emitter.sink.Unlimited) (caption : String)
    (lines : List AssemblyLine) :
    emitter.write caption lines =
      ({ emitter with sink := emitter.sink.append (AssemblyLine.textOf
          (if emitter.options.annotate then .comment caption :: lines else lines)) }, none) := by
  obtain ⟨options, supply, started, sink, journal⟩ := emitter
  simp only [write]
  rw [Sink.Unlimited.writeLines_eq unlimited]

/-- Writing the lines of a part under its caption writes the block of the part. -/
theorem wrote_write (emitter : Emitter) (part : Part) (unlimited : emitter.sink.Unlimited)
    {lines : List AssemblyLine} {supply : LabelSupply}
    (found : part.lines emitter.supply = .ok (lines, supply)) :
    Wrote [part] emitter ({ emitter with supply }.write part.caption lines).1 := by
  have state := write_eq { emitter with supply } unlimited part.caption lines
  rw [state]
  refine ⟨rfl, id, unlimited.append _, [⟨part, lines⟩], expand_cons found rfl, ?_⟩
  simp [Block.written]

/-- A command that succeeds has written its part. -/
theorem command_ok {source : Source} {located : LocatedCommand} {emitter last : Emitter}
    (unlimited : emitter.sink.Unlimited) (done : emitter.command source located = (last, none)) :
    Wrote [.command source.name located.command] emitter last := by
  simp only [command] at done
  cases found : Template.command source.name emitter.supply located.command with
  | error cause =>
    simp only [record, found] at done
    cases done
  | ok result =>
    obtain ⟨lines, supply⟩ := result
    have wrote := wrote_write (emitter.record (.classified located.command))
      (.command source.name located.command) unlimited found
    simp only [record, found, Prod.mk.injEq] at done
    rw [← done.1]
    exact wrote.record_left

/-- A unit whose readings are all written has no fault. -/
theorem readings_ok {source : Source} {count : Nat} {readings : List Reading}
    (emitter : Emitter) {last : Emitter} (unlimited : emitter.sink.Unlimited)
    (done : Emitter.readings source count readings emitter = (last, none)) :
    ∃ located : List LocatedCommand, readings = located.map Except.ok ∧
      Wrote (located.map fun found => .command source.name found.command) emitter last := by
  induction readings generalizing count emitter with
  | nil =>
    simp only [Emitter.readings, Prod.mk.injEq, and_true] at done
    subst done
    exact ⟨[], rfl, rfl, id, unlimited, [], rfl, (Sink.append_nil _).symm⟩
  | cons reading rest hypothesis =>
    cases reading with
    | error fault =>
      simp [Emitter.readings] at done
    | ok found =>
      rw [Emitter.readings] at done
      cases step : emitter.command source found with
      | mk next failure =>
        rw [step] at done
        cases failure with
        | some failure => simp at done
        | none =>
          have wrote := command_ok unlimited step
          obtain ⟨located, rfl, remaining⟩ := hypothesis next wrote.unlimited done
          exact ⟨found :: located, rfl, wrote.trans remaining⟩

/-- A start that succeeds has written the bootstrap part, if it is wanted and not written yet. -/
theorem start_ok {emitter last : Emitter} (unlimited : emitter.sink.Unlimited)
    (done : emitter.start = (last, none)) :
    last.started ∧ Wrote (if emitter.started then [] else if emitter.options.bootstrap then
      [.bootstrap emitter.options.entry] else []) emitter last := by
  rw [start] at done
  split at done
  · rename_i started
    cases done
    simpa [started] using Wrote.refl unlimited
  · rename_i fresh
    split at done
    · rename_i wanted
      let marked : Emitter :=
        { emitter with started := true }.record (.bootstrap emitter.options.entry)
      have wrote : Wrote [.bootstrap emitter.options.entry] marked last := by
        rw [← show _ = last from congrArg Prod.fst done]
        exact wrote_write marked (.bootstrap emitter.options.entry) unlimited rfl
      refine ⟨wrote.started rfl, ?_⟩
      rw [if_neg fresh, if_pos wanted]
      exact ⟨wrote.options, fun _ => wrote.started rfl, wrote.unlimited, wrote.blocks⟩
    · rename_i unwanted
      cases done
      refine ⟨rfl, ?_⟩
      rw [if_neg fresh, if_neg unwanted]
      exact ⟨rfl, fun _ => rfl, unlimited, [], rfl, (Sink.append_nil _).symm⟩

/-- A unit that succeeds can be read as a whole, and has written its parts. -/
theorem unit_ok {source : Source} {emitter last : Emitter} (unlimited : emitter.sink.Unlimited)
    (started : emitter.started) (done : emitter.unit source = (last, none)) :
    (∃ located, Command.readAll source.text.toList = .ok located) ∧
      Wrote source.parts emitter last := by
  rw [unit, start, if_pos started] at done
  obtain ⟨located, read, wrote⟩ :=
    readings_ok (emitter.record (.started source.name)) unlimited done
  have all := Command.readAll_eq_ok_iff.mpr read
  refine ⟨⟨located, all⟩, ?_⟩
  rw [Source.parts, Source.commands, all, List.map_map]
  exact wrote.record_left

/-- Finishing writes nothing once there was a start. -/
theorem finish_ok {emitter last : Emitter} (started : emitter.started)
    (done : emitter.finish = (last, none)) : last = emitter := by
  rw [finish, start, if_pos started] at done
  exact (congrArg Prod.fst done).symm

/-- Units that are all written have no fault. -/
theorem units_ok {sources : List Source} {emitter last : Emitter}
    (unlimited : emitter.sink.Unlimited) (started : emitter.started)
    (done : emitter.units sources = (last, none)) :
    (∀ source ∈ sources, ∃ located, Command.readAll source.text.toList = .ok located) ∧
      Wrote (sources.flatMap Source.parts) emitter last := by
  induction sources generalizing emitter with
  | nil =>
    rw [finish_ok started done]
    exact ⟨by simp, Wrote.refl unlimited⟩
  | cons source rest hypothesis =>
    rw [units] at done
    cases step : emitter.unit source with
    | mk next failure =>
      rw [step] at done
      cases failure with
      | some failure => cases done
      | none =>
        obtain ⟨read, wrote⟩ := unit_ok unlimited started step
        obtain ⟨readRest, remaining⟩ :=
          hypothesis wrote.unlimited (wrote.started started) done
        refine ⟨?_, wrote.trans remaining⟩
        intro other member
        rcases List.mem_cons.mp member with rfl | later
        · exact read
        · exact readRest other later

/-- Units that are all written are written after the bootstrap code has had its turn. -/
theorem units_start {sources : List Source} {emitter last : Emitter}
    (unlimited : emitter.sink.Unlimited) (done : emitter.units sources = (last, none)) :
    ∃ begun, emitter.start = (begun, none) ∧ begun.units sources = (last, none) := by
  cases step : emitter.start with
  | mk begun failure =>
    cases failure with
    | some failure =>
      cases sources with
      | nil =>
        rw [units, finish, step] at done
        cases done
      | cons source rest =>
        rw [units, unit, step] at done
        cases done
    | none =>
      have started := (start_ok unlimited step).1
      have again : begun.start = (begun, none) := by rw [start, if_pos started]
      refine ⟨begun, rfl, ?_⟩
      cases sources with
      | nil =>
        rw [units, finish, step] at done
        rw [units, finish, again]
        exact done
      | cons source rest =>
        rw [units, unit, step] at done
        rw [units, unit, again]
        exact done

/-! ## Emitters that succeed -/

/-- A command that has lines for it is written. -/
theorem command_succeeds {source : Source} {located : LocatedCommand} {emitter : Emitter}
    (unlimited : emitter.sink.Unlimited) {lines : List AssemblyLine} {supply : LabelSupply}
    (found : Template.command source.name emitter.supply located.command = .ok (lines, supply)) :
    ∃ last, emitter.command source located = (last, none) ∧ last.supply = supply := by
  let noted : Emitter := { emitter.record (.classified located.command) with supply }
  have state := write_eq noted unlimited located.command.render lines
  refine ⟨(noted.write located.command.render lines).1, ?_, ?_⟩
  · simp only [command, record, found]
    refine Prod.ext rfl ?_
    exact congrArg (Option.map EmissionFailure.output) (congrArg Prod.snd state)
  · rw [state]

/-- Commands that can be expanded are written. -/
theorem readings_succeeds {source : Source} {count : Nat} {located : List LocatedCommand}
    {emitter : Emitter} (unlimited : emitter.sink.Unlimited) {written : List Block}
    {final : LabelSupply} (expanded : expand emitter.supply
      (located.map fun found => .command source.name found.command) = .ok (written, final)) :
    ∃ last, Emitter.readings source count (located.map Except.ok) emitter = (last, none) := by
  induction located generalizing count emitter written with
  | nil => exact ⟨_, rfl⟩
  | cons found rest hypothesis =>
    obtain ⟨lines, supply, tail, head, remaining, rfl⟩ := expand_cons_inv expanded
    obtain ⟨next, step, rfl⟩ := command_succeeds unlimited head
    obtain ⟨last, done⟩ : ∃ last, Emitter.readings source (count + 1) (rest.map Except.ok) next =
        (last, none) := hypothesis (command_ok unlimited step).unlimited remaining
    refine ⟨last, ?_⟩
    rw [List.map_cons, Emitter.readings, step]
    exact done

/-- A unit that can be read and expanded is written. -/
theorem unit_succeeds {source : Source} {emitter : Emitter} (unlimited : emitter.sink.Unlimited)
    (started : emitter.started)
    (readable : ∃ located, Command.readAll source.text.toList = .ok located)
    {written : List Block} {final : LabelSupply}
    (expanded : expand emitter.supply source.parts = .ok (written, final)) :
    ∃ last, emitter.unit source = (last, none) := by
  obtain ⟨located, read⟩ := readable
  rw [Source.parts, Source.commands, read, List.map_map] at expanded
  rw [unit, start, if_pos started, Command.readAll_eq_ok_iff.mp read]
  exact readings_succeeds unlimited expanded

/-- Units without faults whose parts can be expanded are all written. -/
theorem units_succeeds {sources : List Source} {emitter : Emitter}
    (unlimited : emitter.sink.Unlimited) (started : emitter.started)
    (readable : ∀ source ∈ sources, ∃ located, Command.readAll source.text.toList = .ok located)
    {written : List Block} {final : LabelSupply}
    (expanded : expand emitter.supply (sources.flatMap Source.parts) = .ok (written, final)) :
    ∃ last, emitter.units sources = (last, none) := by
  induction sources generalizing emitter written with
  | nil =>
    refine ⟨emitter, ?_⟩
    rw [units, finish, start, if_pos started]
    simp [Sink.flush, unlimited.flush]
  | cons source rest hypothesis =>
    obtain ⟨first, others⟩ := List.forall_mem_cons.mp readable
    rw [List.flatMap_cons] at expanded
    obtain ⟨before, middle, after, head, tail, rfl⟩ := expand_append_inv expanded
    obtain ⟨next, step⟩ := unit_succeeds unlimited started first head
    obtain ⟨-, wrote⟩ := unit_ok unlimited started step
    obtain ⟨own, same, -⟩ := wrote.blocks
    cases head.symm.trans same
    obtain ⟨last, done⟩ := hypothesis wrote.unlimited (wrote.started started) others tail
    refine ⟨last, ?_⟩
    rw [units, step]
    exact done

/-- Units can be written after a start of their own. -/
theorem units_of_start {sources : List Source} {emitter begun last : Emitter}
    (start : emitter.start = (begun, none)) (started : begun.started)
    (done : begun.units sources = (last, none)) : emitter.units sources = (last, none) := by
  have again : begun.start = (begun, none) := by rw [Emitter.start, if_pos started]
  cases sources with
  | nil =>
    rw [units, finish, again] at done
    rw [units, finish, start]
    exact done
  | cons source rest =>
    rw [units, unit, again] at done
    rw [units, unit, start]
    exact done

/-- A sink without a limit can take the bootstrap part. -/
theorem start_succeeds {emitter : Emitter} (unlimited : emitter.sink.Unlimited) :
    ∃ last, emitter.start = (last, none) := by
  rw [start]
  split
  · exact ⟨_, rfl⟩
  · split
    · let marked : Emitter :=
        { emitter with started := true, supply := (Template.bootstrap emitter.supply
          emitter.options.entry).2 }.record (.bootstrap emitter.options.entry)
      exact ⟨_, write_eq marked unlimited "bootstrap" _⟩
    · exact ⟨_, rfl⟩

end Emitter

/-- The text of a compilation that succeeds is the text of the blocks of its parts, and all of its
sources can be read. -/
theorem compile_ok {options : EmissionOptions} {sources : List Source} {text : String}
    (compiled : (compile options sources).result = .ok text) :
    (∀ source ∈ sources, ∃ located, Command.readAll source.text.toList = .ok located) ∧
      (∃ last, expand {} (parts options sources) = .ok (blocks options sources, last)) ∧
      text.toList = AssemblyLine.textOf
        ((blocks options sources).flatMap (Block.written options.annotate)) := by
  rw [compile] at compiled
  cases run : Emitter.units sources { options } with
  | mk last failure =>
    rw [run] at compiled
    cases failure with
    | some failure => cases compiled
    | none =>
      have unlimited : (Emitter.sink { options }).Unlimited := ⟨rfl, rfl⟩
      obtain ⟨begun, start, remaining⟩ := Emitter.units_start unlimited run
      obtain ⟨started, opened⟩ := Emitter.start_ok unlimited start
      obtain ⟨read, wrote⟩ := Emitter.units_ok opened.unlimited started remaining
      obtain ⟨written, expanded, sink⟩ := (opened.trans wrote).blocks
      have whole : expand {} (parts options sources) = .ok (written, last.supply) := expanded
      have same : blocks options sources = written := by rw [blocks, whole]
      rw [same]
      refine ⟨read, ⟨last.supply, whole⟩, ?_⟩
      cases compiled
      rw [sink, Sink.text?_append_empty]
      simp

/-- The text of a compilation depends on the parts of the program alone. -/
theorem compile_ok_congr {options : EmissionOptions} {first second : List Source}
    (program : parts options first = parts options second) {text other : String}
    (compiled : (compile options first).result = .ok text)
    (compiledToo : (compile options second).result = .ok other) : text = other := by
  obtain ⟨-, -, written⟩ := compile_ok compiled
  obtain ⟨-, -, writtenToo⟩ := compile_ok compiledToo
  have block : blocks options first = blocks options second := by rw [blocks, blocks, program]
  rw [block, ← writtenToo] at written
  exact String.toList_inj.mp written

/-- A compilation succeeds if all sources can be read and every part has lines. -/
theorem compile_succeeds {options : EmissionOptions} {sources : List Source}
    (readable : ∀ source ∈ sources, ∃ located, Command.readAll source.text.toList = .ok located)
    (expanded : ∃ result, expand {} (parts options sources) = .ok result) :
    ∃ text, (compile options sources).result = .ok text := by
  obtain ⟨⟨written, final⟩, expanded⟩ := expanded
  have unlimited : (Emitter.sink { options }).Unlimited := ⟨rfl, rfl⟩
  obtain ⟨begun, start⟩ := Emitter.start_succeeds unlimited
  obtain ⟨started, opened⟩ := Emitter.start_ok unlimited start
  obtain ⟨first, middle, others, head, tail, rfl⟩ := expand_append_inv expanded
  obtain ⟨own, same, -⟩ := opened.blocks
  cases head.symm.trans same
  obtain ⟨last, done⟩ := Emitter.units_succeeds opened.unlimited started readable tail
  have whole := Emitter.units_of_start start started done
  refine ⟨last.sink.text?.getD "", ?_⟩
  rw [compile, whole]

end HackToolchain
