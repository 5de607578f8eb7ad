import HackToolchain.Proofs.LineParts
import HackToolchain.Proofs.UnitFailures

/-! # Units that fail and their valid beginnings

The fault that a unit fails with starts on a line of its text. Nothing is wrong with the lines
before that one, and all that the unit wrote came from them: the fault of a line is the first thing
that is read on it. So a unit that fails leaves an emitter as the lines before the fault would have
(`unit_eq_beforeLine`), and a sequence of units leaves the templates of all commands before the
fault of each.
-/

namespace HackToolchain

/-! ## Positions on lines -/

namespace Text

/-- A text is its last line, or a line with a line break and more text. -/
@[elab_as_elim]
theorem line_induction {motive : Text → Prop} (text : Text)
    (last : ∀ line, '\n' ∉ line → motive line)
    (more : ∀ line rest, '\n' ∉ line → motive rest → motive (line ++ '\n' :: rest)) :
    motive text := by
  by_cases broken : '\n' ∈ text
  · obtain ⟨line, rest, parts, single⟩ := List.eq_append_cons_of_mem broken
    rw [parts]
    exact more line rest single (line_induction rest last more)
  · exact last text broken
termination_by text.length
decreasing_by
  rw [parts, List.length_append, List.length_cons]
  omega

/-- The lines of a text before one of them, each with its line break. -/
def beforeLine (index : Nat) (text : Text) : Text :=
  (text.lines.take index).flatMap (· ++ ['\n'])

@[simp]
theorem beforeLine_zero (text : Text) : text.beforeLine 0 = [] := by
  rw [beforeLine, List.take_zero, List.flatMap_nil]

/-- The first line is before all others. -/
theorem beforeLine_succ {line : Text} (single : '\n' ∉ line) (rest : Text) (index : Nat) :
    beforeLine (index + 1) (line ++ '\n' :: rest) = line ++ '\n' :: rest.beforeLine index := by
  rw [beforeLine, lines, List.splitOn_append_cons_self_of_not_mem single, List.take_succ_cons,
    List.flatMap_cons, List.append_assoc]
  rfl

/-- What is before an offset does not change with the text behind it. -/
theorem before_append_of_le {offset : Nat} {first : Text} (short : offset ≤ first.size)
    (second : Text) : before offset (first ++ second) = before offset first := by
  induction first generalizing offset with
  | nil =>
    rw [size_nil, Nat.le_zero] at short
    subst short
    exact before_size_append [] second
  | cons character rest hypothesis =>
    rw [size_cons] at short
    rw [List.cons_append, before_cons, before_cons, hypothesis (by omega)]

/-- A first text is before every offset of the second. -/
theorem before_append_of_ge (first second : Text) (offset : Nat) :
    before (first.size + offset) (first ++ second) = first ++ before offset second := by
  induction first with
  | nil => rw [size_nil, Nat.zero_add, List.nil_append, List.nil_append]
  | cons character rest hypothesis =>
    rw [List.cons_append, before_cons, size_cons, Nat.add_assoc, if_pos (Nat.le_add_right _ _),
      Nat.add_sub_cancel_left, hypothesis, List.cons_append]

/-- Offsets on the first line have the position of the first line. -/
theorem line_position_of_le {offset : Nat} {line : Text} (single : '\n' ∉ line)
    (short : offset ≤ line.size) (rest : Text) : (position offset (line ++ rest)).line = 0 := by
  change (before offset (line ++ rest)).count '\n' = 0
  rw [before_append_of_le short, List.count_eq_zero]
  intro member
  apply single
  rw [← before_append_after offset line]
  exact List.mem_append_left _ member

/-- A line in front of a text moves its positions down by one. -/
theorem line_position_append {line : Text} (single : '\n' ∉ line) (rest : Text) (offset : Nat) :
    (position (line.size + 1 + offset) (line ++ '\n' :: rest)).line =
      (position offset rest).line + 1 := by
  have size : size (line ++ ['\n']) = line.size + 1 := size_append line ['\n']
  have text : line ++ '\n' :: rest = (line ++ ['\n']) ++ rest := by simp
  change (before _ _).count '\n' = (before offset rest).count '\n' + 1
  rw [text, ← size, before_append_of_ge]
  simp [List.count_eq_zero.mpr single, Nat.add_comm]

end Text

/-! ## Where faults start -/

namespace Piece

/-- An offset is not outside of a piece. -/
def Holds (piece : Piece) (offset : Nat) : Prop :=
  piece.offset ≤ offset ∧ offset ≤ piece.offset + piece.text.size

variable {line : Piece}

/-- A piece that covers a span holds its start. -/
theorem Covers.holds {piece : Piece} {span : Span} (covers : piece.Covers span) :
    piece.Holds span.start := by
  obtain ⟨part, within, -, rfl⟩ := covers
  exact ⟨within.start_le, (Nat.le_add_right _ _).trans within.stop_le⟩

/-- A line holds its faults. -/
theorem Fault.holds {fault : CommandFault} (wrong : line.Fault fault) :
    line.Holds fault.span.start := by
  have code := within_beforeComment line.offset line.text
  refine Covers.holds (Covers.of_within code ?_)
  cases wrong with
  | @slash before after parts first =>
    exact ⟨⟨line.offset + before.size, ['/']⟩, ⟨before, after, parts, rfl⟩,
      List.cons_ne_nil _ _, rfl⟩
  | words _ wrong =>
    have filled : ∀ word ∈ line.words, word.text ≠ [] := fun _ => text_ne_nil_of_mem_words
    obtain ⟨word, member, covers⟩ := exists_covers_of_wordsFault filled wrong
    exact covers.of_within (within_of_mem_words member)

/-- A line holds the command that it denotes. -/
theorem Denotes.holds {located : LocatedCommand} (denotes : line.Denotes located) :
    line.Holds located.span.start := by
  obtain ⟨first, head, start⟩ := denotes.start
  have member := List.mem_of_head? head
  have code := within_beforeComment line.offset line.text
  have covers := Covers.refl (text_ne_nil_of_mem_words member)
  rw [start]
  exact ((covers.of_within (within_of_mem_words member)).of_within code).holds

end Piece

/-! ## The first fault -/

namespace Source

variable {source : Source}

/-- After readings without a fault, the rest is accepted as it would be alone. -/
theorem accepted_append {readings : List Reading}
    (fine : readings.findSome? source.faultOf? = none) (rest : List Reading) :
    source.accepted (readings ++ rest) = source.accepted readings ++ source.accepted rest := by
  rw [List.findSome?_eq_none_iff] at fine
  have all : ∀ reading ∈ readings, (source.faultOf? reading).isNone := by
    intro reading member
    rw [fine reading member]
    rfl
  rw [accepted, accepted, List.takeWhile_append_of_pos all, List.filterMap_append,
    List.takeWhile_eq_self_iff.mpr all]
  rfl

/-- Nothing is accepted on a line with a fault, since the fault is the first thing that is read. -/
theorem fault_of_lineReadings {line : Piece} (single : '\n' ∉ line.text) {fault : CommandFault}
    (found : (Command.lineReadings line).findSome? source.faultOf? = some fault) :
    line.Holds fault.span.start ∧
      ∀ rest, source.accepted (Command.lineReadings line ++ rest) = [] := by
  rcases line.isGood_or_fault with good | ⟨other, wrong⟩
  · by_cases full : line.isFull
    · have some : line.words ≠ [] := by simpa [Piece.isFull] using full
      obtain ⟨located, denotes⟩ := good.exists_denotes some
      rw [Piece.lineReadings_of_denotes single good.free denotes] at found ⊢
      rw [List.findSome?_singleton] at found
      refine ⟨?_, accepted_of_fault found⟩
      -- The line is read as a command, so the fault is that no lines stand for it.
      cases empty : Template.command source.name {} located.command with
      | ok result => cases found.symm.trans (faultOf?_of_ok empty)
      | error cause =>
        cases found.symm.trans (faultOf?_of_error empty)
        exact denotes.holds
    · rw [Command.lineReadings_of_not_isFull single good.free full] at found
      cases found
  · obtain ⟨rest, blamed⟩ := Piece.lineReadings_of_fault single wrong
    rw [blamed] at found ⊢
    cases found
    exact ⟨wrong.holds, fun more => accepted_of_fault rfl _⟩

end Source

namespace Command

/-- The readings of a text that starts at an offset. -/
def readingsAt (offset : Nat) (text : Text) : List Reading :=
  (Text.split (· == '\n') offset text).flatMap lineReadings

theorem readingsAt_zero (text : Text) : readingsAt 0 text = readings text :=
  (readings_eq text).symm

theorem readingsAt_nil (offset : Nat) : readingsAt offset [] = [] := by
  rw [readingsAt, Text.split, List.flatMap_singleton]
  rw [lineReadings, Token.scanFrom, readTokens]
  rfl

variable {line : Text} (single : '\n' ∉ line)

include single

/-- A text without a line break is read as one line. -/
theorem readingsAt_of_single (offset : Nat) :
    readingsAt offset line = lineReadings ⟨offset, line⟩ := by
  rw [readingsAt, Text.split_of_forall, List.flatMap_singleton]
  intro character member same
  exact single (beq_iff_eq.mp same ▸ member)

/-- A line break ends the readings of the first line. -/
theorem readingsAt_append_newline (offset : Nat) (rest : Text) :
    readingsAt offset (line ++ '\n' :: rest) =
      lineReadings ⟨offset, line⟩ ++ readingsAt (offset + line.size + 1) rest := by
  rw [readingsAt, Text.split_append_cons, List.flatMap_cons]
  · rfl
  · intro character member same
    exact single (beq_iff_eq.mp same ▸ member)
  · rfl

end Command

namespace Source

variable (source : Source)

/-- A unit with the lines of another before one of them. -/
def beforeLine (index : Nat) : Source where
  name := source.name
  text := String.ofList (Text.beforeLine index source.text.toList)

/-- Without the line of an offset and all that follows it, a text has no fault, and the same
commands before it. -/
structure SoundBefore (offset : Nat) (text : Text) (reached : Nat) : Prop where
  fine : (Command.readingsAt offset (text.beforeLine (text.position reached).line)).findSome?
    source.faultOf? = none
  accepted : source.accepted
    (Command.readingsAt offset (text.beforeLine (text.position reached).line)) =
      source.accepted (Command.readingsAt offset text)

variable {source}

/-- A fault on the first line comes before everything else. -/
theorem soundBefore_of_first {offset : Nat} {text line more : Text} (parts : text = line ++ more)
    (single : '\n' ∉ line) {others : List Reading}
    (readings : Command.readingsAt offset text = Command.lineReadings ⟨offset, line⟩ ++ others)
    {fault : CommandFault}
    (found : (Command.lineReadings ⟨offset, line⟩).findSome? source.faultOf? = some fault) :
    ∃ reached, fault.span.start = offset + reached ∧ source.SoundBefore offset text reached := by
  obtain ⟨⟨lower, upper⟩, nothing⟩ := fault_of_lineReadings single found
  obtain ⟨reached, start⟩ := Nat.exists_eq_add_of_le lower
  have short : reached ≤ line.size := Nat.le_of_add_le_add_left (start ▸ upper)
  have empty : text.beforeLine (text.position reached).line = [] := by
    rw [parts, Text.line_position_of_le single short, Text.beforeLine_zero]
  refine ⟨reached, start, ?_, ?_⟩
  · rw [empty, Command.readingsAt_nil, List.findSome?_nil]
  · rw [empty, Command.readingsAt_nil, readings, nothing]
    rfl

/-- The line of the first fault is preceded by lines without fault, which hold all commands before
the fault. -/
theorem exists_soundBefore {offset : Nat} {text : Text} {fault : CommandFault}
    (found : (Command.readingsAt offset text).findSome? source.faultOf? = some fault) :
    ∃ reached, fault.span.start = offset + reached ∧ source.SoundBefore offset text reached := by
  induction text using Text.line_induction generalizing offset with
  | last line single =>
    have readings := Command.readingsAt_of_single single offset
    rw [readings] at found
    rw [← List.append_nil (Command.lineReadings _)] at readings
    exact soundBefore_of_first (List.append_nil line).symm single readings found
  | more line rest single hypothesis =>
    have readings := Command.readingsAt_append_newline single offset
    rw [readings, List.findSome?_append] at found
    cases own : (Command.lineReadings ⟨offset, line⟩).findSome? source.faultOf? with
    | some other =>
      rw [own] at found
      cases found
      exact soundBefore_of_first rfl single (readings rest) own
    | none =>
      -- The line is kept whole, so the offset moves on by its size and that of its line break.
      rw [own] at found
      obtain ⟨reached, start, before⟩ := hypothesis found
      refine ⟨line.size + 1 + reached, by omega, ?_, ?_⟩
      · rw [Text.line_position_append single, Text.beforeLine_succ single, readings,
          List.findSome?_append, own, before.fine]
        rfl
      · rw [Text.line_position_append single, Text.beforeLine_succ single, readings, readings,
          accepted_append own, accepted_append own, before.accepted]

/-- The beginning of a unit has the faults of the unit. -/
theorem faultOf?_beforeLine (index : Nat) : (source.beforeLine index).faultOf? = source.faultOf? :=
  rfl

/-- The beginning of a unit is read from its own text. -/
theorem readings_beforeLine (index : Nat) :
    Command.readings (source.beforeLine index).text.toList =
      Command.readingsAt 0 (Text.beforeLine index source.text.toList) := by
  rw [Command.readingsAt_zero, beforeLine, String.toList_ofList]

/-- A unit without the line of its fault and all that follows it does not fail, and has the same
parts before it. -/
theorem beforeLine_of_fault {fault : CommandFault} (found : source.fault? = some fault) :
    (source.beforeLine (Text.position fault.span.start source.text.toList).line).failure? = none ∧
      (source.beforeLine (Text.position fault.span.start source.text.toList).line).soundParts =
        source.soundParts := by
  rw [fault?, ← Command.readingsAt_zero] at found
  obtain ⟨reached, start, before⟩ := exists_soundBefore found
  rw [Nat.zero_add] at start
  subst start
  constructor
  · rw [failure?, fault?, readings_beforeLine, faultOf?_beforeLine, before.fine, Option.map_none]
  · rw [soundParts, soundParts, readings_beforeLine, accepted, faultOf?_beforeLine, ← accepted,
      before.accepted, Command.readingsAt_zero]
    rfl

end Source

namespace Emitter

/-- What is written is the same for the same parts. -/
theorem Wrote.unique {program : List Part} {first last other : Emitter}
    (wrote : Wrote program first last) (again : Wrote program first other) :
    last.sink = other.sink ∧ last.supply = other.supply := by
  obtain ⟨written, expanded, sink⟩ := wrote.blocks
  obtain ⟨rewritten, same, sinkAgain⟩ := again.blocks
  have both := Prod.mk.inj (Except.ok.inj (expanded.symm.trans same))
  rw [sink, sinkAgain, both.1]
  exact ⟨rfl, both.2⟩

/-- A unit that fails leaves what the lines before its fault leave. -/
theorem unit_eq_beforeLine {emitter last : Emitter} (unlimited : emitter.sink.Unlimited)
    {source : Source} {name : String} {position : Position} {fault : CommandFault}
    (failed : emitter.unit source = (last, some (.command name position fault))) :
    ∃ other, emitter.unit (source.beforeLine position.line) = (other, none) ∧
      last.sink = other.sink ∧ last.supply = other.supply ∧ last.started = other.started := by
  obtain ⟨outcome, begun, wrote⟩ := unit_outcome unlimited source
  rw [failed] at outcome begun wrote
  obtain ⟨found, located, same⟩ := Option.map_eq_some_iff.mp outcome.symm
  cases same
  obtain ⟨fine, parts⟩ := Source.beforeLine_of_fault located
  obtain ⟨outcomeBefore, begunBefore, wroteBefore⟩ := unit_outcome unlimited
    (source.beforeLine (Text.position fault.span.start source.text.toList).line)
  rw [parts] at wroteBefore
  obtain ⟨sink, supply⟩ := wrote.unique wroteBefore
  exact ⟨_, Prod.ext rfl (outcomeBefore.trans fine), sink, supply, begun.trans begunBefore.symm⟩

/-- **A unit that fails is as good as the lines before its fault.** Into a sink that takes
everything, it writes what they would, and leaves the same labels. Units that are written one after
another, failing or not, leave the bootstrap code, if it is wanted and has not had its turn, and the
templates of all commands before the first fault of each. A compilation succeeds if none of them
fails. -/
theorem units_written_until_fault {emitter : Emitter} (unlimited : emitter.sink.Unlimited) :
    (∀ source last name position fault,
      emitter.unit source = (last, some (.command name position fault)) →
        ∃ other, emitter.unit (source.beforeLine position.line) = (other, none) ∧
          last.sink = other.sink ∧ last.supply = other.supply ∧ last.started = other.started) ∧
      (∀ sources : List Source,
        (emitter.calls (sources.map .unit)).2 = sources.map Source.failure? ∧
        ∃ written, expand emitter.supply ((if sources = [] then [] else emitter.opening) ++
            sources.flatMap Source.soundParts) =
              .ok (written, (emitter.calls (sources.map .unit)).1.supply) ∧
          (emitter.calls (sources.map .unit)).1.sink = emitter.sink.append
            (AssemblyLine.textOf (written.flatMap (Block.written emitter.options.annotate)))) ∧
      ∀ (options : EmissionOptions) (sources : List Source),
        (∃ text, (compile options sources).result = .ok text) ↔
          ∀ outcome ∈ (calls (sources.map .unit) { options }).2, outcome = none := by
  refine ⟨?_, ?_, ?_⟩
  · intro source last name position fault failed
    exact unit_eq_beforeLine unlimited failed
  · intro sources
    obtain ⟨outcomes, wrote⟩ := calls_outcome unlimited sources
    exact ⟨outcomes, wrote.blocks⟩
  · intro options sources
    have unlimited : (Emitter.sink { options }).Unlimited := ⟨rfl, rfl⟩
    rw [exists_compile_ok_iff, (calls_outcome unlimited sources).1, List.forall_mem_map]

/-- A unit whose third line is at fault. -/
def faultySource : Source :=
  ⟨"Main", "push constant 1\nlt // ok\npop constant 0\nadd"⟩

/-- The unit fails at its last command. -/
theorem failure?_faultySource : faultySource.failure? =
    some (.command "Main" ⟨2, 0⟩ ⟨.popConstant, ⟨25, 39⟩⟩) := by
  have free : ∀ line ∈ Text.locatedLines faultySource.text.toList, '/' ∉ line.code := by decide
  rw [Source.failure?, Source.fault?, Command.readings_of_free free]
  decide

/-- A pop into a constant after a comment, and the unit without it. -/
theorem units_written_until_fault_faultySource : ∃ last other,
    unit faultySource { options := {} } =
        (last, some (.command "Main" ⟨2, 0⟩ ⟨.popConstant, ⟨25, 39⟩⟩)) ∧
      unit ⟨"Main", "push constant 1\nlt // ok\n"⟩ { options := {} } = (other, none) ∧
      last.sink = other.sink ∧ last.supply = other.supply ∧ last.started = other.started := by
  have unlimited : (Emitter.sink { options := {} }).Unlimited := ⟨rfl, rfl⟩
  have outcome := (unit_outcome unlimited faultySource).1.trans failure?_faultySource
  have cut : faultySource.beforeLine 2 = ⟨"Main", "push constant 1\nlt // ok\n"⟩ := by decide
  have failed : unit faultySource { options := {} } =
      ((unit faultySource { options := {} }).1, some _) := Prod.ext rfl outcome
  obtain ⟨other, succeeded, same⟩ :=
    (units_written_until_fault unlimited).1 faultySource _ _ _ _ failed
  exact ⟨_, other, failed, cut ▸ succeeded, same⟩

end Emitter

end HackToolchain
