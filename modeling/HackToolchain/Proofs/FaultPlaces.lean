import HackToolchain.Proofs.Coordinates
import HackToolchain.Snippet

/-! # Where faults are shown

A fault is reported with a position and shown with a snippet of the text. The two are found in
different ways: the position by counting the line breaks before the fault, the snippet by going
through the lines. They name the same line for every offset in the text, and both fail for an offset
inside a character (`place?_of_le`).

What is read on a line stands there: the span of every command and of every fault takes up some of
the characters of one line (`exists_line_of_mem_readings`), and a unit that fails blames one of its
readings, whatever becomes of its output (`blames_unit`). So a fault is always shown on the line
that it is on, with its own characters underlined (`exists_isShown_of_covers`).
-/

namespace HackToolchain

/-! ## Where readings stand -/

namespace Command

/-- What is read on a line stands there. -/
theorem covers_of_mem_lineReadings {offset : Nat} {line : Text} (single : '\n' ∉ line) :
    ∀ reading ∈ lineReadings ⟨offset, line⟩,
      Piece.Covers ⟨offset, line⟩ (Reading.span reading) := by
  induction line using Text.slash_induction generalizing offset with
  | last line free =>
    intro reading member
    have covers := (@Piece.yields_lineReadings offset line single free).covers reading member
    exact covers.of_within (Piece.within_beforeComment offset line)
  | more before after free alone hypothesis =>
    rw [List.mem_append, List.mem_cons, not_or, not_or] at single
    rw [lineReadings, readTokens_append_slash single.1 free alone, List.forall_mem_cons]
    constructor
    · exact ⟨⟨offset + before.size, ['/']⟩, ⟨before, after, rfl, rfl⟩, List.cons_ne_nil _ _, rfl⟩
    · intro reading member
      have covers := hypothesis single.2.2 reading member
      refine covers.of_within ⟨before ++ ['/'], [], ?_, ?_⟩
      · simp only [List.append_assoc, List.append_nil, List.cons_append, List.nil_append]
      · rw [Text.size_append, ← Nat.add_assoc]
        rfl

/-- The readings of a text stand on its lines. -/
theorem exists_line_of_mem_readingsAt {offset : Nat} {text : Text} {reading : Reading}
    (member : reading ∈ readingsAt offset text) :
    ∃ index line, text.lines[index]? = some line ∧
      Piece.Covers ⟨offset + text.lineStart index, line⟩ (Reading.span reading) := by
  induction text using Text.line_induction generalizing offset with
  | last line single =>
    rw [readingsAt_of_single single] at member
    refine ⟨0, line, ?_, covers_of_mem_lineReadings single reading member⟩
    rw [Text.lines_of_single single]
    rfl
  | more line rest single hypothesis =>
    rw [readingsAt_append_newline single] at member
    rcases List.mem_append.mp member with here | later
    · refine ⟨0, line, ?_, covers_of_mem_lineReadings single reading here⟩
      rw [Text.lines_append_newline single]
      rfl
    · obtain ⟨index, other, found, covers⟩ := hypothesis later
      refine ⟨index + 1, other, ?_, ?_⟩
      · rw [Text.lines_append_newline single]
        exact found
      · rw [Text.lineStart_append_newline single, ← Nat.add_assoc, ← Nat.add_assoc]
        exact covers

/-- A reading lies on a line of its text. -/
theorem exists_line_of_mem_readings {text : Text} {reading : Reading}
    (member : reading ∈ readings text) :
    ∃ index line, text.lines[index]? = some line ∧
      Piece.Covers ⟨text.lineStart index, line⟩ (Reading.span reading) := by
  rw [← readingsAt_zero] at member
  simpa only [Nat.zero_add] using exists_line_of_mem_readingsAt member

end Command

/-- A unit fails because its output is refused, or because of what is wrong with a reading. -/
def Source.Blames (source : Source) (readings : List Reading) (failure : EmissionFailure) : Prop :=
  (∃ cause, failure = .output cause) ∨
    ∃ reading ∈ readings, ∃ fault, source.faultOf? reading = some fault ∧
      failure = .ofFault source fault

namespace Emitter

variable {source : Source} {emitter : Emitter} {failure : EmissionFailure}

/-- A command that fails is to blame itself. -/
theorem blames_command {located : LocatedCommand}
    (failed : (emitter.command source located).2 = some failure) :
    source.Blames [.ok located] failure := by
  cases found : Template.command source.name emitter.supply located.command with
  | error cause =>
    simp only [command, record, found, Option.some.injEq] at failed
    exact .inr ⟨_, List.mem_cons_self, _, Source.faultOf?_of_error found, failed.symm⟩
  | ok result =>
    simp only [command, record, found] at failed
    obtain ⟨cause, -, same⟩ := Option.map_eq_some_iff.mp failed
    exact .inl ⟨cause, same.symm⟩

/-- Readings that fail have one that is to blame. -/
theorem blames_readings {count : Nat} {readings : List Reading}
    (failed : (Emitter.readings source count readings emitter).2 = some failure) :
    source.Blames readings failure := by
  induction readings generalizing count emitter with
  | nil => cases failed
  | cons reading rest hypothesis =>
    cases reading with
    | error fault =>
      cases failed
      exact .inr ⟨_, List.mem_cons_self, fault, rfl, rfl⟩
    | ok located =>
      rw [Emitter.readings] at failed
      cases step : emitter.command source located with
      | mk next outcome =>
        rw [step] at failed
        cases outcome with
        | none =>
          rcases hypothesis failed with refused | ⟨reading, member, wrong⟩
          · exact .inl refused
          · exact .inr ⟨reading, List.mem_cons_of_mem _ member, wrong⟩
        | some found =>
          cases failed
          rcases blames_command (congrArg Prod.snd step) with refused | ⟨reading, member, wrong⟩
          · exact .inl refused
          · cases List.mem_singleton.mp member
            exact .inr ⟨_, List.mem_cons_self, wrong⟩

/-- A unit that fails has a reading that is to blame, or nothing to do with its text. -/
theorem blames_unit (failed : (emitter.unit source).2 = some failure) :
    source.Blames (Command.readings source.text.toList) failure := by
  rw [unit] at failed
  cases begun : emitter.start with
  | mk next outcome =>
    rw [begun] at failed
    cases outcome with
    | none => exact blames_readings failed
    | some cause =>
      cases failed
      exact .inl ⟨cause, rfl⟩

end Emitter

/-! ## Lines of snippets -/

namespace Text

/-- A text without a line break is one line, unless it is empty. -/
theorem terminatedLines_of_single {line : Text} (single : '\n' ∉ line) :
    line.terminatedLines = if line = [] then [] else [line] := by
  rw [terminatedLines, lines_of_single single]
  simp only [List.getLast?_singleton, Option.some.injEq, List.dropLast_singleton]

/-- A line break ends the first line, and none comes after the last one. -/
theorem terminatedLines_append_newline {line : Text} (single : '\n' ∉ line) (rest : Text) :
    terminatedLines (line ++ '\n' :: rest) = line :: rest.terminatedLines := by
  have some : rest.lines ≠ [] := List.splitOn_ne_nil _ _
  obtain ⟨first, others, found⟩ := List.exists_cons_of_ne_nil some
  rw [terminatedLines, terminatedLines, lines_append_newline single, found]
  simp only [List.getLast?_cons_cons, List.dropLast_cons_cons]
  split <;> rfl

/-- A line with characters on it is never taken for the end of the text. -/
theorem getElem?_terminatedLines {text line : Text} {index : Nat}
    (found : text.lines[index]? = some line) (some : line ≠ []) :
    text.terminatedLines[index]? = .some line := by
  induction text using line_induction generalizing index with
  | last only single =>
    rw [lines_of_single single] at found
    cases index with
    | zero =>
      cases found
      rw [terminatedLines_of_single single, if_neg some]
      rfl
    | succ index => cases found
  | more first rest single hypothesis =>
    rw [lines_append_newline single] at found
    rw [terminatedLines_append_newline single]
    cases index with
    | zero => exact found
    | succ index => exact hypothesis found

end Text

namespace Snippet

variable {width : Text → Nat} {lastWidth number : Nat}

/-- An offset on the first line is looked for on that line alone. -/
theorem place?_cons_of_le {offset : Nat} {line : Text} (short : offset ≤ line.size)
    (rest : List Text) : place? width lastWidth offset number (line :: rest) =
      if line.IsBoundary offset then some ⟨number, width (line.before offset)⟩ else none := by
  rw [place?, if_pos short]

/-- An offset behind the first line is looked for on the others. -/
theorem place?_cons_add (line : Text) (rest : List Text) (offset : Nat) :
    place? width lastWidth (line.size + 1 + offset) number (line :: rest) =
      place? width lastWidth offset (number + 1) rest := by
  rw [place?, if_neg (by omega), Nat.add_sub_cancel_left]

/-- Behind some characters of the first line, the columns of these are counted. -/
theorem place?_cons_append (before after : Text) (rest : List Text) :
    place? width lastWidth before.size number ((before ++ after) :: rest) =
      some ⟨number, width before⟩ := by
  have short : before.size ≤ Text.size (before ++ after) := by
    rw [Text.size_append]
    exact Nat.le_add_right _ _
  have boundary : Text.IsBoundary (before ++ after) before.size :=
    Text.isBoundary_iff.mpr ⟨before, after, rfl, rfl⟩
  rw [place?_cons_of_le short, if_pos boundary, Text.before_size_append]

/-- The line of a snippet is the line of the position, and both are missing for the same offsets. -/
theorem place?_of_le {text : Text} {offset : Nat} (inside : offset ≤ text.size) :
    (¬text.IsBoundary offset → place? width lastWidth offset number text.terminatedLines = none) ∧
      (text.IsBoundary offset → ∃ column,
        place? width lastWidth offset number text.terminatedLines =
          some ⟨number + (text.position offset).line, column⟩) := by
  induction text using Text.line_induction generalizing offset number with
  | last line single =>
    have first := Text.line_position_of_le single inside []
    rw [List.append_nil] at first
    rw [Text.terminatedLines_of_single single, first]
    by_cases empty : line = []
    · -- An empty last line is no line of the snippet, and its only offset lies below the others.
      subst empty
      cases Nat.le_zero.mp inside
      exact ⟨fun inner => absurd rfl inner, fun _ => ⟨lastWidth, rfl⟩⟩
    · rw [if_neg empty, place?_cons_of_le inside]
      exact ⟨fun inner => if_neg inner, fun boundary => ⟨_, if_pos boundary⟩⟩
  | more line rest single hypothesis =>
    rw [Text.terminatedLines_append_newline single]
    by_cases short : offset ≤ line.size
    · rw [Text.isBoundary_append_of_le short, Text.line_position_of_le single short,
        place?_cons_of_le short]
      exact ⟨fun inner => if_neg inner, fun boundary => ⟨_, if_pos boundary⟩⟩
    · obtain ⟨further, rfl⟩ : ∃ further, offset = line.size + 1 + further :=
        Nat.exists_eq_add_of_le (Nat.lt_of_not_le short)
      have bound : further ≤ rest.size := by
        rw [Text.size_append, Text.size_cons, ← Nat.add_assoc] at inside
        exact Nat.le_of_add_le_add_left inside
      rw [Text.isBoundary_append_newline, Text.line_position_append single, place?_cons_add,
        ← Nat.add_assoc, Nat.add_right_comm]
      exact hypothesis bound

/-- Behind some characters of a line that is not empty, the columns of these are counted. -/
theorem place?_of_line {text before after : Text} {index : Nat}
    (found : text.lines[index]? = some (before ++ after)) (some : before ++ after ≠ []) :
    place? width lastWidth (text.lineStart index + before.size) number text.terminatedLines =
      .some ⟨number + index, width before⟩ := by
  induction text using Text.line_induction generalizing index number with
  | last line single =>
    rw [Text.lines_of_single single] at found
    cases index with
    | zero =>
      cases found
      rw [Text.terminatedLines_of_single single, if_neg some, Text.lineStart_zero, Nat.zero_add]
      exact place?_cons_append before after []
    | succ index => cases found
  | more line rest single hypothesis =>
    rw [Text.lines_append_newline single] at found
    rw [Text.terminatedLines_append_newline single]
    cases index with
    | zero =>
      cases found
      rw [Text.lineStart_zero, Nat.zero_add]
      exact place?_cons_append before after _
    | succ index =>
      rw [Text.lineStart_append_newline single, Nat.add_assoc, place?_cons_add, hypothesis found,
        Nat.add_assoc, Nat.add_comm 1]

/-- There is something to show for every offset of a text that has a position, and on the same
line. -/
theorem sketch?_of_le {file message : String} {span : Span} {text : Text} {terminal : Terminal}
    (inside : span.start ≤ text.size) :
    (¬text.IsBoundary span.start → sketch? file message span text terminal = none) ∧
      (text.IsBoundary span.start → ∃ snippet,
        sketch? file message span text terminal = some snippet ∧
          snippet.place.line = (text.position span.start).line) := by
  obtain ⟨inner, outer⟩ := @place?_of_le terminal.width
    (terminal.width (text.terminatedLines.getLast?.getD [])) 0 text span.start inside
  constructor
  · intro inaccessible
    simp only [sketch?, inner inaccessible, Option.bind_eq_bind, Option.bind_none]
  · intro boundary
    obtain ⟨column, found⟩ := outer boundary
    rw [Nat.zero_add] at found
    simp only [sketch?, found, Option.bind_eq_bind, Option.bind_some]
    exact ⟨_, rfl, rfl⟩

/-- What can be laid out is shown. -/
theorem of?_of_sketch? {file message : String} {span : Span} {text : Text} {terminal : Terminal}
    {snippet : Snippet} (found : sketch? file message span text terminal = some snippet) :
    of? file message span text terminal = if snippet.Fits then some snippet else none := by
  rw [of?, found, Option.filter_some]
  simp only [decide_eq_true_eq]

/-- Whether there is room on a terminal for some characters of a line and an underline below them,
and for the number of the line in the margin. -/
def HasRoom (terminal : Terminal) (number : Nat) (before code : Text) : Prop :=
  terminal.width before + max 1 (terminal.width code) ≤ maxPadding ∧
    terminal.width (number + 1).repr.toList ≤ maxPadding

instance (terminal : Terminal) (number : Nat) (before code : Text) :
    Decidable (HasRoom terminal number before code) :=
  inferInstanceAs (Decidable (_ ∧ _))

/-- What is printed about some characters of a line: the place, the line, and its characters
underlined. -/
def printed (terminal : Terminal) (colored : Bool) (file message : String) (number : Nat)
    (before code after : Text) : List String :=
  let paint := terminal.paint colored
  let bar := paint .frame "|"
  let margin := spaces (terminal.width (number + 1).repr.toList) ++ " "
  let place := file ++ ":" ++ (number + 1).repr ++ ":" ++ (terminal.width before + 1).repr
  let underline := spaces (terminal.width before) ++ carets (max 1 (terminal.width code))
  ["",
    margin ++ paint .frame "-->" ++ " " ++ place,
    " " ++ margin ++ bar,
    " " ++ paint .frame (number + 1).repr ++ " " ++ bar ++ " " ++
      String.ofList (before ++ (code ++ after)),
    " " ++ margin ++ bar ++ " " ++ paint .underline underline ++ " " ++ paint .message message,
    ""]

/-- The text of a snippet is what is printed, line by line. -/
theorem render_eq_intercalate (terminal : Terminal) (colored : Bool) (file message : String)
    (number : Nat) (before code after : Text) :
    render colored
        { file, message
          place := ⟨number, terminal.width before⟩
          code := before ++ (code ++ after)
          underline := max 1 (terminal.width code)
          margin := terminal.width (number + 1).repr.toList } terminal =
      "\n".intercalate (printed terminal colored file message number before code after) := by
  have opening (rest : String) : "\n" ++ (" " ++ rest) = "\n " ++ rest := by
    have both : "\n" ++ " " = "\n " := by decide
    simp only [← String.append_assoc, both]
  unfold render printed
  simp only [String.intercalate_cons_cons, String.intercalate_singleton, String.append_assoc,
    String.append_empty, String.empty_append, opening]

end Snippet

/-! ## Where faults are shown -/

/-- A span that starts in a text has a position unless it starts inside a character. -/
theorem Span.position?_of_le {span : Span} {text : Text} (inside : span.start ≤ text.size) :
    span.position? text =
      if text.IsBoundary span.start then some (text.position span.start) else none := by
  rw [Span.position?, Text.position?, Nat.min_eq_left inside]

/-- The characters of a line stand in the text where the line does. -/
theorem Span.text?_of_line {text before code after : Text} {index : Nat}
    (found : text.lines[index]? = some (before ++ (code ++ after))) :
    (Span.ofText (text.lineStart index + before.size) code).text? text = some code := by
  obtain ⟨above, below, parts, size⟩ := Text.exists_append_of_line found
  refine Text.slice?_eq_some_iff.mpr ⟨above ++ before, after ++ below, ?_, ?_, ?_⟩
  · simp only [parts, List.append_assoc]
  · rw [Text.size_append, size]
    rfl
  · rw [Text.size_append, size]
    rfl

/-- What there is to show about some characters of a line that stand there. -/
theorem Snippet.sketch?_of_line {file message : String} {text before code after : Text}
    {index : Nat} {terminal : Terminal}
    (found : text.lines[index]? = some (before ++ (code ++ after))) (some : code ≠ []) :
    sketch? file message (.ofText (text.lineStart index + before.size) code) text terminal =
      .some {
        file, message
        place := ⟨index, terminal.width before⟩
        code := before ++ (code ++ after)
        underline := max 1 (terminal.width code)
        margin := terminal.width (index + 1).repr.toList } := by
  have nonempty : before ++ (code ++ after) ≠ [] := by simp [some]
  have place := @place?_of_line terminal.width
    (terminal.width (text.terminatedLines.getLast?.getD [])) 0 _ _ _ _ found nonempty
  rw [Nat.zero_add] at place
  have line := Text.getElem?_terminatedLines found nonempty
  have underline := Span.text?_of_line found
  simp only [Span.ofText] at underline
  simp only [sketch?, Span.ofText, place, Option.bind_eq_bind, Option.bind_some, line,
    underlineWidth, underline]
  rfl

/-- Some characters of a line are printed as they stand there, if there is room for them. -/
theorem Snippet.map_render_of_line {file message : String} {text before code after : Text}
    {index : Nat} {terminal : Terminal} {colored : Bool}
    (found : text.lines[index]? = some (before ++ (code ++ after))) (some : code ≠ []) :
    (of? file message (.ofText (text.lineStart index + before.size) code) text terminal).map
        (fun snippet => snippet.render colored terminal) =
      if HasRoom terminal index before code then
        .some ("\n".intercalate (printed terminal colored file message index before code after))
      else none := by
  rw [of?_of_sketch? (sketch?_of_line found some), ← render_eq_intercalate]
  by_cases room : HasRoom terminal index before code
  · rw [if_pos room, if_pos (by exact room)]
    rfl
  · rw [if_neg room, if_neg (by exact room)]
    rfl

/-- A fault is shown where it is. Its span takes up some of the characters of one line, and its
position is the first of them. A snippet of the text has that line, and they are underlined; but
there is no snippet where the terminal has no room for the underline. -/
structure CommandFault.IsShown (terminal : Terminal) (text : Text) (fault : CommandFault)
    (position : Position) (before code after : Text) : Prop where
  nonempty : fault.span.start < fault.span.stop
  span : fault.span = .ofText (text.lineStart position.line + before.size) code
  boundary : text.IsBoundary fault.span.start ∧ text.IsBoundary fault.span.stop
  characters : fault.span.text? text = some code
  line : text.lines[position.line]? = some (before ++ (code ++ after))
  column : before.length = position.column
  place : fault.span.position? text = some position
  printed : ∀ colored file,
    (Snippet.of? file fault.message fault.span text terminal).map
        (fun snippet => snippet.render colored terminal) =
      if Snippet.HasRoom terminal position.line before code then
        some ("\n".intercalate (Snippet.printed terminal colored file fault.message position.line
          before code after))
      else none

/-- A fault that takes up a part of a line is shown there. -/
theorem CommandFault.exists_isShown_of_covers {text line : Text} {index : Nat}
    (found : text.lines[index]? = some line) {fault : CommandFault}
    (covers : Piece.Covers ⟨text.lineStart index, line⟩ fault.span) (terminal : Terminal) :
    ∃ before code after,
      fault.IsShown terminal text (text.position fault.span.start) before code after := by
  obtain ⟨cause, span⟩ := fault
  obtain ⟨⟨offset, code⟩, ⟨before, after, parts, start⟩, some, rfl⟩ := covers
  change line = before ++ (code ++ after) at parts
  change offset = text.lineStart index + before.size at start
  subst parts start
  have opening : Position.IsAt text (text.lineStart index + before.size) ⟨index, before.length⟩ :=
    Position.isAt_iff_exists_append.mpr ⟨before, code ++ after, found, rfl, rfl⟩
  have closing : Position.IsAt text (text.lineStart index + Text.size (before ++ code))
      ⟨index, (before ++ code).length⟩ := by
    refine Position.isAt_iff_exists_append.mpr ⟨before ++ code, after, ?_, rfl, rfl⟩
    rw [List.append_assoc]
    exact found
  obtain ⟨boundary, position⟩ := Position.isAt_iff_position.mp opening
  have stop : text.lineStart index + before.size + code.size =
      text.lineStart index + Text.size (before ++ code) := by
    rw [Text.size_append, Nat.add_assoc]
  refine ⟨before, code, after, ?_⟩
  simp only [Piece.span, Span.ofText, position]
  constructor
  · exact Nat.lt_add_of_pos_right (Nat.pos_of_ne_zero (mt Text.size_eq_zero_iff.mp some))
  · rfl
  · exact ⟨boundary, stop ▸ closing.isBoundary⟩
  · exact Span.text?_of_line found
  · exact found
  · rfl
  · rw [Span.position?, Text.position?_of_isBoundary boundary, position]
  · intro colored file
    exact Snippet.map_render_of_line found some

/-- What is wrong with a reading is shown where it is. -/
theorem CommandFault.exists_isShown_of_mem_readings {text : Text} {reading : Reading}
    (member : reading ∈ Command.readings text) {fault : CommandFault}
    (same : fault.span = Reading.span reading) (terminal : Terminal) :
    ∃ before code after,
      fault.IsShown terminal text (text.position fault.span.start) before code after := by
  obtain ⟨index, line, found, covers⟩ := Command.exists_line_of_mem_readings member
  rw [← same] at covers
  exact exists_isShown_of_covers found covers terminal

/-- **Faults are shown where they are.** On every terminal, a unit with a command at fault fails
with the position of the fault, which is shown there; so is every fault of a reading, and every
fault that a command has for the templates. For any offset of a text there is something to show if
there is a position, that is unless the offset is inside a character, and both are on the same line.
It is shown if it can be laid out. -/
theorem faults_isShown (terminal : Terminal) :
    (∀ (emitter : Emitter) (source : Source) (name : String) (position : Position)
      (fault : CommandFault), (emitter.unit source).2 = some (.command name position fault) →
        EmissionFailure.message (.command name position fault) =
          source.name ++ ":" ++ (position.line + 1).repr ++ ":" ++ (position.column + 1).repr ++
            ": " ++ fault.message ∧
        ∃ before code after,
          fault.IsShown terminal source.text.toList position before code after) ∧
    (∀ (text : Text) (fault : CommandFault), .error fault ∈ Command.readings text →
      ∃ position before code after, fault.IsShown terminal text position before code after) ∧
    (∀ (text : Text) (located : LocatedCommand), .ok located ∈ Command.readings text →
      ∀ (unit : String) (supply : LabelSupply) (cause : FaultCause),
        Template.command unit supply located.command = .error cause →
          ∃ position before code after,
            CommandFault.IsShown terminal text ⟨cause, located.span⟩ position before code after) ∧
    ∀ (text : Text) (span : Span), span.start ≤ text.size → ∀ file message : String,
      (span.position? text = none ↔ ¬text.IsBoundary span.start) ∧
      (span.position? text = none → Snippet.of? file message span text terminal = none) ∧
      ∀ position, span.position? text = some position →
        ∃ snippet, Snippet.sketch? file message span text terminal = some snippet ∧
          snippet.place.line = position.line ∧
          Snippet.of? file message span text terminal =
            if snippet.Fits then some snippet else none := by
  refine ⟨?_, ?_, ?_, ?_⟩
  · intro emitter source name position fault failed
    rcases Emitter.blames_unit failed with ⟨cause, refused⟩ | ⟨reading, member, other, wrong, same⟩
    · cases refused
    · cases same
      have span := Source.span_of_faultOf? wrong
      exact ⟨rfl, CommandFault.exists_isShown_of_mem_readings member span terminal⟩
  · intro text fault member
    exact ⟨_, CommandFault.exists_isShown_of_mem_readings member rfl terminal⟩
  · intro text located member unit supply cause _
    exact ⟨_, CommandFault.exists_isShown_of_mem_readings member rfl terminal⟩
  · intro text span inside file message
    obtain ⟨inner, outer⟩ := @Snippet.sketch?_of_le file message span text terminal inside
    have none : span.position? text = none ↔ ¬text.IsBoundary span.start := by
      rw [Span.position?_of_le inside, ite_eq_right_iff]
      exact imp_congr_right fun _ => iff_of_false (Option.some_ne_none _) id
    refine ⟨none, ?_, ?_⟩
    · intro missing
      rw [Snippet.of?, inner (none.mp missing), Option.filter_none]
    · intro position placed
      have boundary : text.IsBoundary span.start := by
        by_contra inside
        cases placed.symm.trans (none.mpr inside)
      obtain ⟨snippet, found, line⟩ := outer boundary
      rw [Span.position?_of_le inside, if_pos boundary, Option.some.injEq] at placed
      rw [placed] at line
      exact ⟨snippet, found, line, Snippet.of?_of_sketch? found⟩

/-- A number with a character of several bytes in it, and a command that there is no code for. -/
def accentedSource : Source :=
  ⟨"Main", "// é\npush local 1é\npop constant 0"⟩

/-- A number with a stray character in it, and a command to pop into a constant. -/
theorem readings_accentedSource : Command.readings accentedSource.text.toList =
    [.error ⟨.invalidDigit, ⟨18, 20⟩⟩, .ok ⟨⟨21, 35⟩, .pop .constant 0⟩] := by
  have free : ∀ line ∈ Text.locatedLines accentedSource.text.toList, '/' ∉ line.code := by decide
  rw [Command.readings_of_free free]
  decide

/-- A stray character of two bytes is shown, and so is a command without code. -/
theorem faults_isShown_accentedSource :
    (Emitter.unit accentedSource { options := { bootstrap := false } }).2 =
      some (.command "Main" ⟨1, 12⟩ ⟨.invalidDigit, ⟨18, 20⟩⟩) ∧
    (∃ before code after, CommandFault.IsShown {} accentedSource.text.toList
      ⟨.invalidDigit, ⟨18, 20⟩⟩ ⟨1, 12⟩ before code after) ∧
    (∃ position before code after, CommandFault.IsShown {} accentedSource.text.toList
      ⟨.popConstant, ⟨21, 35⟩⟩ position before code after) ∧
    Snippet.of? "Main.vm" "" ⟨19, 20⟩ accentedSource.text.toList = none := by
  obtain ⟨ofUnit, ofReading, ofCommand, ofSpan⟩ := faults_isShown {}
  have failed : (Emitter.unit accentedSource { options := { bootstrap := false } }).2 =
      some (.command "Main" ⟨1, 12⟩ ⟨.invalidDigit, ⟨18, 20⟩⟩) := by
    rw [Emitter.unit, readings_accentedSource]
    rfl
  have member : .ok ⟨⟨21, 35⟩, .pop .constant 0⟩ ∈ Command.readings accentedSource.text.toList := by
    rw [readings_accentedSource]
    decide
  refine ⟨failed, (ofUnit _ _ _ _ _ failed).2, ofCommand _ _ member "" {} _ rfl, ?_⟩
  obtain ⟨inner, missing, -⟩ :=
    ofSpan accentedSource.text.toList ⟨19, 20⟩ (by decide) "Main.vm" ""
  exact missing (inner.mpr (by decide))

/-! ## Lines that are too wide -/

/-- A word behind a number of blanks. -/
def indented (count : Nat) : Text :=
  List.replicate count ' ' ++ ['x']

/-- A unit with a word behind as many blanks as a snippet can be padded with. -/
def wideSource : Source :=
  ⟨"Main", String.ofList (indented 65535)⟩

/-- Blanks have a byte each. -/
theorem size_replicate_blank (count : Nat) : Text.size (List.replicate count ' ') = count := by
  induction count with
  | zero => rfl
  | succ count hypothesis =>
    rw [List.replicate_succ, Text.size_cons, hypothesis]
    exact Nat.add_comm 1 count

/-- A blank takes up one column, and does not join what follows it. -/
theorem cons_blank : Opening.cons ' ' .plain = (1, .plain) := by
  have column : columns ' ' = 1 := by
    -- The kernel goes through a list faster than through an array.
    simp only [columns, inRanges, ← Array.any_toList]
    decide +kernel
  have opens : Opening.ofChar ' ' = .plain := by decide +kernel
  rw [Opening.cons, Opening.extend?, Option.getD_none, column, opens]
  rfl

/-- Blanks are neither joined nor selected: each takes up one column. -/
theorem extent_replicate_blank (count : Nat) :
    Text.extent (List.replicate count ' ') = ⟨count, none, .plain⟩ := by
  induction count with
  | zero => rfl
  | succ count hypothesis =>
    rw [List.replicate_succ]
    change Extent.cons ' ' (Text.extent (List.replicate count ' ')) = _
    have unselected : Presentation.ofSelector? ' ' = none := rfl
    simp only [hypothesis, Extent.cons, Extent.consOpening, unselected, cons_blank]
    rfl

/-- Blanks take up a column each. -/
theorem width_replicate_blank (count : Nat) : Text.width (List.replicate count ' ') = count := by
  rw [Text.width, extent_replicate_blank, Int.toNat_natCast]

/-- A word behind blanks is no command. -/
theorem readings_indented (count : Nat) :
    Command.readings (indented count) = [.error ⟨.unknownCommand, ⟨count, count + 1⟩⟩] := by
  have blank : ∀ character ∈ List.replicate count ' ', isBlank character := by
    intro character member
    rw [List.eq_of_mem_replicate member]
    decide
  have mark : ∀ character : Char, character ≠ ' ' → character ≠ 'x' →
      character ∉ indented count := by
    intro character inner last member
    rcases List.mem_append.mp member with blanks | word
    · exact inner (List.eq_of_mem_replicate blanks)
    · exact last (List.mem_singleton.mp word)
  have newline : '\n' ∉ indented count := mark _ (by decide) (by decide)
  have slash : '/' ∉ indented count := mark _ (by decide) (by decide)
  have code : Piece.code ⟨0, indented count⟩ = indented count :=
    Text.beforeComment_of_not_mem slash
  have words : Piece.words ⟨0, indented count⟩ = [⟨count, ['x']⟩] := by
    rw [Piece.words, code, indented, Text.words_blank_append blank, size_replicate_blank,
      Nat.zero_add]
    rfl
  rw [← Command.readingsAt_zero, Command.readingsAt_of_single newline,
    Command.lineReadings_of_free newline (by rwa [code]), words]
  rfl

/-- A word behind blanks stands on the first line. -/
theorem lines_indented (count : Nat) : Text.lines (indented count) = [indented count] := by
  apply Text.lines_of_single
  intro member
  rcases List.mem_append.mp member with blanks | word
  · exact absurd (List.eq_of_mem_replicate blanks) (by decide)
  · exact absurd (List.mem_singleton.mp word) (by decide)

/-- The word stands behind the blanks, on the first line. -/
theorem position_indented (count : Nat) :
    Text.IsBoundary (indented count) count ∧
      Text.position count (indented count) = ⟨0, count⟩ := by
  rw [← Position.isAt_iff_position, Position.isAt_iff_exists_append, lines_indented]
  refine ⟨List.replicate count ' ', ['x'], rfl, List.length_replicate, ?_⟩
  rw [Text.lineStart_zero, size_replicate_blank, Nat.zero_add]

/-- A word behind more blanks than a snippet can be padded with is not shown. -/
theorem Snippet.of?_indented {count : Nat} (wide : maxPadding ≤ count) {terminal : Terminal}
    (counted : terminal.width (List.replicate count ' ') = count) (file message : String) :
    Snippet.of? file message ⟨count, count + 1⟩ (indented count) terminal = none := by
  have found : (Text.lines (indented count))[0]? =
      some (List.replicate count ' ' ++ (['x'] ++ [])) := by
    rw [lines_indented]
    rfl
  have sketched := @sketch?_of_line file message _ _ _ _ _ terminal found (by decide)
  rw [Text.lineStart_zero, size_replicate_blank, Nat.zero_add] at sketched
  change sketch? file message ⟨count, count + 1⟩ (indented count) terminal = _ at sketched
  rw [of?_of_sketch? sketched, if_neg]
  rintro ⟨room, -⟩
  dsimp only at room
  rw [counted] at room
  omega

/-- On a terminal that counts columns as usual, blanks take up one column each. -/
theorem Snippet.of?_indented_default {count : Nat} (wide : maxPadding ≤ count)
    (file message : String) :
    Snippet.of? file message ⟨count, count + 1⟩ (indented count) = none :=
  of?_indented wide (width_replicate_blank count) file message

/-- A command at fault that starts behind as many blanks as a snippet can be padded with has a
position, and there is no snippet for it. -/
theorem fault_unshown_wideSource :
    (Emitter.unit wideSource { options := { bootstrap := false } }).2 =
      some (.command "Main" ⟨0, 65535⟩ ⟨.unknownCommand, ⟨65535, 65536⟩⟩) ∧
    Text.IsBoundary wideSource.text.toList 65535 ∧
    Span.position? ⟨65535, 65536⟩ wideSource.text.toList = some ⟨0, 65535⟩ ∧
    (∀ terminal : Terminal, terminal.width (List.replicate 65535 ' ') = 65535 →
      Snippet.of? "Main.vm" "unknown command" ⟨65535, 65536⟩ wideSource.text.toList terminal =
        none) ∧
    Snippet.of? "Main.vm" "unknown command" ⟨65535, 65536⟩ wideSource.text.toList = none := by
  have text : wideSource.text.toList = indented 65535 := String.toList_ofList
  obtain ⟨boundary, position⟩ := position_indented 65535
  have unshown (terminal : Terminal)
      (counted : terminal.width (List.replicate 65535 ' ') = 65535) :=
    Snippet.of?_indented (Nat.le_refl _) counted "Main.vm" "unknown command"
  rw [text]
  refine ⟨?_, boundary, ?_, unshown, Snippet.of?_indented_default (Nat.le_refl _) _ _⟩
  · rw [Emitter.unit, text, readings_indented]
    change some (EmissionFailure.ofFault wideSource ⟨.unknownCommand, ⟨65535, 65536⟩⟩) = _
    rw [EmissionFailure.ofFault]
    dsimp only
    rw [text, position]
    rfl
  · rw [Span.position?, Text.position?_of_isBoundary boundary, position]

end HackToolchain
