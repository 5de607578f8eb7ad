import HackToolchain.Proofs.SplitUnits

/-! # Coordinates of offsets

An offset counts bytes from the start of a text, a position counts lines, and then characters on a
line. A position *is at* an offset when the line has that many characters, and the offset is the
number of bytes of the lines before it and of these characters (`Position.IsAt`). At every boundary
of a text there is exactly one position, the one that is reported for it (`isAt_iff_position`), and
positions come in the order of their offsets (`isBefore_iff_lt`).
-/

namespace HackToolchain

/-! ## Lines and where they start -/

namespace Text

/-- A text without a line break is one line. -/
theorem lines_of_single {line : Text} (single : '\n' ∉ line) : lines line = [line] :=
  List.splitOn_eq_singleton single

/-- A line break ends the first line. -/
theorem lines_append_newline {line : Text} (single : '\n' ∉ line) (rest : Text) :
    lines (line ++ '\n' :: rest) = line :: lines rest :=
  List.splitOn_append_cons_self_of_not_mem single rest

/-- The number of bytes before a line: those of the lines that come first, and of the line break
behind each of them. -/
def lineStart (index : Nat) (text : Text) : Nat :=
  size ((text.lines.take index).flatMap (· ++ ['\n']))

@[simp]
theorem lineStart_zero (text : Text) : text.lineStart 0 = 0 := rfl

/-- Further lines start as many bytes later as the first line and its break have. -/
theorem lineStart_append_newline {line : Text} (single : '\n' ∉ line) (rest : Text)
    (index : Nat) :
    lineStart (index + 1) (line ++ '\n' :: rest) = line.size + 1 + rest.lineStart index := by
  rw [lineStart, lines_append_newline single, List.take_succ_cons, List.flatMap_cons, size_append,
    size_append]
  rfl

/-- A line starts after the line before it and its break. -/
theorem lineStart_succ_of_line {text line : Text} {index : Nat}
    (found : text.lines[index]? = some line) :
    text.lineStart (index + 1) = text.lineStart index + (line.size + 1) := by
  rw [lineStart, List.take_add_one, found, List.flatMap_append, size_append, Option.toList_some,
    List.flatMap_singleton, size_append]
  rfl

/-- Lines start one after another. -/
theorem lineStart_le_succ (text : Text) (index : Nat) :
    text.lineStart index ≤ text.lineStart (index + 1) := by
  rw [lineStart, lineStart, List.take_add_one, List.flatMap_append, size_append]
  exact Nat.le_add_right _ _

/-- A line ends before any later line starts. -/
theorem lineStart_add_size_lt {text line : Text} {index later : Nat}
    (found : text.lines[index]? = some line) (order : index < later) :
    text.lineStart index + line.size < text.lineStart later := by
  induction order with
  | refl =>
    rw [lineStart_succ_of_line found]
    exact Nat.lt_succ_self _
  | step _ hypothesis => exact hypothesis.trans_le (lineStart_le_succ text _)

/-- A line of a text stands behind as many bytes as come before it. -/
theorem exists_append_of_line {text line : Text} {index : Nat}
    (found : text.lines[index]? = some line) :
    ∃ before after, text = before ++ (line ++ after) ∧ before.size = text.lineStart index := by
  induction text using line_induction generalizing index with
  | last only single =>
    rw [lines_of_single single] at found
    cases index with
    | zero =>
      cases found
      exact ⟨[], [], (List.append_nil line).symm, rfl⟩
    | succ index => cases found
  | more first rest single hypothesis =>
    rw [lines_append_newline single] at found
    cases index with
    | zero =>
      cases found
      exact ⟨[], '\n' :: rest, rfl, rfl⟩
    | succ index =>
      obtain ⟨before, after, parts, size⟩ := hypothesis found
      refine ⟨first ++ '\n' :: before, after, ?_, ?_⟩
      · rw [List.append_assoc, List.cons_append, ← parts]
      · rw [lineStart_append_newline single, ← size, size_append, size_cons, ← Nat.add_assoc]
        rfl

end Text

/-! ## Positions and offsets -/

namespace Position

/-- A position is at an offset: its line has so many characters, and the offset counts the bytes
before the line and those of these characters. -/
def IsAt (text : Text) (offset : Nat) (position : Position) : Prop :=
  ∃ line, text.lines[position.line]? = some line ∧ position.column ≤ line.length ∧
    offset = text.lineStart position.line + Text.size (line.take position.column)

/-- A position is before another one: on an earlier line, or earlier on the same line. -/
def IsBefore (first second : Position) : Prop :=
  first.line < second.line ∨ first.line = second.line ∧ first.column < second.column

/-- Of two positions that differ, one is before the other. -/
theorem isBefore_trichotomy (first second : Position) :
    first.IsBefore second ∨ first = second ∨ second.IsBefore first := by
  rcases Nat.lt_trichotomy first.line second.line with less | same | more
  · exact .inl (.inl less)
  · rcases Nat.lt_trichotomy first.column second.column with less | equal | more
    · exact .inl (.inr ⟨same, less⟩)
    · refine .inr (.inl ?_)
      cases first
      cases second
      cases same
      cases equal
      rfl
    · exact .inr (.inr (.inr ⟨same.symm, more⟩))
  · exact .inr (.inr (.inl more))

variable {text : Text} {offset : Nat} {position : Position}

/-- A position is behind some of the characters of its line. -/
theorem isAt_iff_exists_append : position.IsAt text offset ↔
    ∃ before after, text.lines[position.line]? = some (before ++ after) ∧
      before.length = position.column ∧
      offset = text.lineStart position.line + before.size := by
  constructor
  · rintro ⟨line, found, fits, rfl⟩
    refine ⟨line.take position.column, line.drop position.column, ?_, ?_, rfl⟩
    · rw [List.take_append_drop, found]
    · exact List.length_take_of_le fits
  · rintro ⟨before, after, found, length, rfl⟩
    refine ⟨before ++ after, found, ?_, ?_⟩
    · rw [← length, List.length_append]
      exact Nat.le_add_right _ _
    · rw [← length, List.take_left]

/-- Positions on the first line stay what they are when more lines follow. -/
theorem IsAt.append {line : Text} (single : '\n' ∉ line) (place : position.IsAt line offset)
    (rest : Text) : position.IsAt (line ++ '\n' :: rest) offset := by
  obtain ⟨index, column⟩ := position
  obtain ⟨other, found, fits, rfl⟩ := place
  rw [Text.lines_of_single single] at found
  cases index with
  | zero =>
    cases found
    refine ⟨line, ?_, fits, rfl⟩
    rw [Text.lines_append_newline single]
    rfl
  | succ index => cases found

/-- Positions move down by a line when a line is put before them. -/
theorem IsAt.below {line : Text} (single : '\n' ∉ line) (place : position.IsAt text offset) :
    IsAt (line ++ '\n' :: text) (line.size + 1 + offset)
      ⟨position.line + 1, position.column⟩ := by
  obtain ⟨other, found, fits, rfl⟩ := place
  refine ⟨other, ?_, fits, ?_⟩
  · rw [Text.lines_append_newline single, List.getElem?_cons_succ, found]
  · rw [Text.lineStart_append_newline single, Nat.add_assoc (line.size + 1)]

/-- What is before another position is at a smaller offset. -/
theorem IsAt.lt_of_isBefore {other : Nat} {later : Position} (place : position.IsAt text offset)
    (placed : later.IsAt text other) (order : position.IsBefore later) : offset < other := by
  obtain ⟨before, after, found, length, rfl⟩ := isAt_iff_exists_append.mp place
  obtain ⟨line, foundToo, fits, rfl⟩ := placed
  rcases order with less | ⟨same, less⟩
  · have ends := Text.lineStart_add_size_lt found less
    rw [Text.size_append] at ends
    omega
  · -- On one line, the characters before the later position go on behind the others.
    rw [← same, found, Option.some.injEq] at foundToo
    subst foundToo
    rw [← length] at less
    rw [← same, List.take_append, List.take_of_length_le less.le, Text.size_append]
    have some : after.take (later.column - before.length) ≠ [] := by
      intro empty
      have none := congrArg List.length empty
      rw [List.length_take, List.length_nil] at none
      rw [List.length_append] at fits
      omega
    have positive := Nat.pos_of_ne_zero (mt Text.size_eq_zero_iff.mp some)
    omega

/-- There is one position at an offset. -/
theorem IsAt.unique {other : Position} (place : position.IsAt text offset)
    (placed : other.IsAt text offset) : position = other := by
  rcases isBefore_trichotomy position other with before | same | behind
  · exact absurd (place.lt_of_isBefore placed before) (Nat.lt_irrefl _)
  · exact same
  · exact absurd (placed.lt_of_isBefore place behind) (Nat.lt_irrefl _)

/-- A position is at one offset. -/
theorem IsAt.offset_unique {other : Nat} (place : position.IsAt text offset)
    (placed : position.IsAt text other) : offset = other := by
  obtain ⟨line, found, -, rfl⟩ := place
  obtain ⟨same, foundToo, -, rfl⟩ := placed
  cases found.symm.trans foundToo
  rfl

/-- Positions are at boundaries only. -/
theorem IsAt.isBoundary (place : position.IsAt text offset) : text.IsBoundary offset := by
  obtain ⟨before, after, found, -, rfl⟩ := isAt_iff_exists_append.mp place
  obtain ⟨above, below, parts, size⟩ := Text.exists_append_of_line found
  refine Text.isBoundary_iff.mpr ⟨above ++ before, after ++ below, ?_, ?_⟩
  · simp only [parts, List.append_assoc]
  · rw [Text.size_append, size]

/-- Positions come in the order of their offsets. -/
theorem isBefore_iff_lt {other : Nat} {later : Position} (place : position.IsAt text offset)
    (placed : later.IsAt text other) : position.IsBefore later ↔ offset < other := by
  refine ⟨place.lt_of_isBefore placed, ?_⟩
  intro less
  rcases isBefore_trichotomy position later with before | rfl | behind
  · exact before
  · exact absurd less (place.offset_unique placed).not_lt
  · exact absurd less (Nat.lt_asymm (placed.lt_of_isBefore place behind))

end Position

namespace Text

variable {text : Text} {offset : Nat}

/-- The end of a single line is after its characters. -/
theorem endPosition_of_single {line : Text} (single : '\n' ∉ line) :
    line.endPosition = ⟨0, line.length⟩ := by
  have whole : line.reverse.takeWhile (· != '\n') = line.reverse := by
    rw [List.takeWhile_eq_self_iff]
    intro character member
    rw [List.mem_reverse] at member
    exact bne_iff_ne.mpr fun same => single (same ▸ member)
  rw [endPosition, whole, List.length_reverse, List.count_eq_zero.mpr single]

/-- On a single line, the position of a boundary is where its column is. -/
theorem isAt_position_of_single {line : Text} (single : '\n' ∉ line)
    (boundary : line.IsBoundary offset) : (line.position offset).IsAt line offset := by
  have parts := before_append_after offset line
  have free : '\n' ∉ line.before offset := by
    intro member
    apply single
    rw [← parts]
    exact List.mem_append_left _ member
  rw [position, endPosition_of_single free, Position.isAt_iff_exists_append]
  refine ⟨line.before offset, line.after offset, ?_, rfl, ?_⟩
  · rw [lines_of_single single, parts]
    rfl
  · rw [lineStart_zero, Nat.zero_add]
    exact boundary.symm

/-- The boundaries of a text do not change when another comes behind it. -/
theorem isBoundary_append_of_le {first : Text} (short : offset ≤ first.size) (second : Text) :
    IsBoundary (first ++ second) offset ↔ first.IsBoundary offset := by
  rw [IsBoundary, before_append_of_le short, IsBoundary]

/-- Behind the line break of a line, boundaries are those of the rest. -/
theorem isBoundary_append_newline (line rest : Text) (offset : Nat) :
    IsBoundary (line ++ '\n' :: rest) (line.size + 1 + offset) ↔ rest.IsBoundary offset := by
  have size : size (line ++ ['\n']) = line.size + 1 := size_append line ['\n']
  have text : line ++ '\n' :: rest = (line ++ ['\n']) ++ rest := by simp
  rw [IsBoundary, text, ← size, before_append_of_ge, size_append, Nat.add_left_cancel_iff,
    IsBoundary]

/-- The position that is reported for a boundary is at it. -/
theorem isAt_position (boundary : text.IsBoundary offset) :
    (text.position offset).IsAt text offset := by
  induction text using line_induction generalizing offset with
  | last line single => exact isAt_position_of_single single boundary
  | more line rest single hypothesis =>
    by_cases short : offset ≤ line.size
    · rw [isBoundary_append_of_le short] at boundary
      rw [position_append_of_le short]
      exact (isAt_position_of_single single boundary).append single rest
    · obtain ⟨further, rfl⟩ : ∃ further, offset = line.size + 1 + further :=
        Nat.exists_eq_add_of_le (Nat.lt_of_not_le short)
      rw [isBoundary_append_newline] at boundary
      rw [position_append_newline, List.count_eq_zero.mpr single, Nat.zero_add]
      exact (hypothesis boundary).below single

/-- Every boundary has a position. -/
theorem position?_of_isBoundary (boundary : text.IsBoundary offset) :
    text.position? offset = some (text.position offset) := by
  have reached : min offset text.size = offset := Nat.min_eq_left boundary.le_size
  rw [position?, reached, if_pos boundary]

/-- Behind the end of a text there is only the position of the end. -/
theorem position?_of_size_le (beyond : text.size ≤ offset) :
    text.position? offset = some text.endPosition := by
  have reached : min offset text.size = text.size := Nat.min_eq_right beyond
  have whole : text.before text.size = text := by
    have all := before_size_append text []
    rwa [List.append_nil] at all
  have boundary : text.IsBoundary text.size := congrArg size whole
  rw [position?, reached, if_pos boundary, position, whole]

end Text

/-- The position at an offset is the one that is reported for it. -/
theorem Position.isAt_iff_position {text : Text} {offset : Nat} {position : Position} :
    position.IsAt text offset ↔ text.IsBoundary offset ∧ text.position offset = position := by
  constructor
  · intro place
    exact ⟨place.isBoundary, (Text.isAt_position place.isBoundary).unique place⟩
  · rintro ⟨boundary, rfl⟩
    exact Text.isAt_position boundary

/-- **Positions are coordinates of offsets.** The position of a boundary is a line of the text and
so many characters of it, and the boundary is behind exactly these. Every line and number of
characters that it has are the position of one boundary. So different boundaries have different
positions, which come in the order of the boundaries. Whatever is behind the end has the position of
the end. -/
theorem position_coordinates (text : Text) :
    (∀ span : Span, text.IsBoundary span.start →
      ∃ position, span.position? text = some position ∧ position.IsAt text span.start) ∧
    (∀ offset position, position.IsAt text offset →
      text.IsBoundary offset ∧ text.position? offset = some position) ∧
    (∀ first second : Span, text.IsBoundary first.start → text.IsBoundary second.start →
      ∀ position other, first.position? text = some position →
        second.position? text = some other →
          (position = other ↔ first.start = second.start) ∧
          (position.IsBefore other ↔ first.start < second.start)) ∧
    ∀ span : Span, text.size < span.start →
      span.position? text = some text.endPosition ∧ text.endPosition.IsAt text text.size := by
  have reported : ∀ {offset position}, text.IsBoundary offset →
      text.position? offset = some position → position.IsAt text offset := by
    intro offset position boundary found
    rw [Text.position?_of_isBoundary boundary, Option.some.injEq] at found
    exact Position.isAt_iff_position.mpr ⟨boundary, found⟩
  refine ⟨?_, ?_, ?_, ?_⟩
  · intro span boundary
    exact ⟨_, Text.position?_of_isBoundary boundary, Text.isAt_position boundary⟩
  · intro offset position place
    obtain ⟨boundary, rfl⟩ := Position.isAt_iff_position.mp place
    exact ⟨boundary, Text.position?_of_isBoundary boundary⟩
  · intro first second boundary boundaryToo position other found foundToo
    have place := reported boundary found
    have placed := reported boundaryToo foundToo
    refine ⟨⟨?_, ?_⟩, Position.isBefore_iff_lt place placed⟩
    · rintro rfl
      exact place.offset_unique placed
    · intro same
      rw [← same] at placed
      exact place.unique placed
  · intro span beyond
    have final : text.position? text.size = some text.endPosition :=
      Text.position?_of_size_le (Nat.le_refl _)
    have boundary : text.IsBoundary text.size :=
      Text.isBoundary_iff.mpr ⟨text, [], (List.append_nil text).symm, rfl⟩
    exact ⟨Text.position?_of_size_le beyond.le, reported boundary final⟩

/-- Two lines, an empty one after them, and characters of several bytes. -/
def accentedText : Text :=
  "né\nab é\n".toList

/-- A text with a character of several bytes, where offsets and columns differ. -/
theorem position_coordinates_accentedText :
    (∃ position, Span.position? ⟨7, 9⟩ accentedText = some position ∧
      position.IsAt accentedText 7) ∧
    accentedText.position? 4 = some ⟨1, 0⟩ ∧
    Position.IsBefore ⟨0, 2⟩ ⟨1, 3⟩ ∧
    Span.position? ⟨11, 11⟩ accentedText = some ⟨2, 0⟩ := by
  obtain ⟨exact, inverse, order, beyond⟩ := position_coordinates accentedText
  refine ⟨exact ⟨7, 9⟩ (by decide), ?_, ?_, ?_⟩
  · exact (inverse 4 ⟨1, 0⟩ ⟨"ab é".toList, by decide, by decide, by decide⟩).2
  · exact (order ⟨3, 4⟩ ⟨7, 9⟩ (by decide) (by decide) _ _ rfl rfl).2.mpr (by decide)
  · exact (beyond ⟨11, 11⟩ (by decide)).1

end HackToolchain
