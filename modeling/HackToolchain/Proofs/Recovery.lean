import HackToolchain.Proofs.LineParts
import HackToolchain.Proofs.ShiftedReadings

/-! # Reading on after a fault

A reader that is asked for its next result takes up where it stopped: behind the stray slash that it
found, or on the next line (`Command.next`). Asked until it has no more, it gives the readings of
the text (`readsOut_iff`). These can be told line by line: a fault for each slash before the comment
of the line, and then what the words behind the last of them are (`Piece.Reads`). Their spans do not
overlap and come in order, so that there are no more of them than the text has bytes
(`Span.Ascending`).
-/

namespace HackToolchain

/-! ## One result after another -/

namespace Command

/-- The words of a line, after words that are kept in reverse, and the tokens after the line. There
is no line at the end of the tokens, and a stray slash breaks a line off. -/
def eatLine : List Token → List Token → Except CommandFault (Option (List Token)) × List Token
  | words, [] => (.ok (if words = [] then none else some words.reverse), [])
  | words, token :: rest =>
    match token.kind with
    | .word => eatLine (token :: words) rest
    | .blank | .comment => eatLine words rest
    | .newline => (.ok (some words.reverse), rest)
    | .strayMark => (.error ⟨.unexpectedCharacter, token.span⟩, rest)

/-- Reading on takes a token away. -/
theorem length_eatLine_lt {words tokens : List Token} (more : (eatLine words tokens).1 ≠ .ok none) :
    (eatLine words tokens).2.length < words.length + tokens.length := by
  fun_induction eatLine words tokens with
  | case1 words =>
    have some : words ≠ [] := by
      intro empty
      exact more (congrArg Except.ok (if_pos empty))
    exact Nat.add_pos_left (List.length_pos_of_ne_nil some) _
  | case2 words token rest kind hypothesis =>
    have shorter := hypothesis more
    rw [List.length_cons] at shorter ⊢
    omega
  | case3 words token rest kind hypothesis | case4 words token rest kind hypothesis =>
    exact Nat.lt_succ_of_lt (hypothesis more)
  | case5 words token rest | case6 words token rest =>
    exact Nat.lt_of_lt_of_le (Nat.lt_succ_self rest.length) (Nat.le_add_left _ _)

/-- What is left after a line or a stray slash is shorter. -/
theorem length_lt_of_eatLine {tokens rest : List Token}
    {line : Except CommandFault (Option (List Token))} (found : eatLine [] tokens = (line, rest))
    (more : line ≠ .ok none) : rest.length < tokens.length := by
  have shorter := @length_eatLine_lt [] tokens (by rwa [found])
  rwa [found, List.length_nil, Nat.zero_add] at shorter

/-- What is read on a line comes before what is read behind it. -/
theorem readTokens_eq_eatLine (words tokens : List Token) :
    readTokens words tokens =
      match eatLine words tokens with
      | (.error fault, rest) => .error fault :: readTokens [] rest
      | (.ok none, _) => []
      | (.ok (some line), rest) => readWords line ++ readTokens [] rest := by
  fun_induction eatLine words tokens with
  | case1 words =>
    rw [readTokens]
    by_cases empty : words = []
    · rw [if_pos empty, empty]
      rfl
    · rw [if_neg empty]
      exact (List.append_nil _).symm
  | case2 words token rest kind hypothesis | case3 words token rest kind hypothesis
  | case4 words token rest kind hypothesis =>
    rw [readTokens, kind]
    exact hypothesis
  | case5 words token rest kind | case6 words token rest kind =>
    rw [readTokens, kind]

/-- The next result of a reader, if there is one, and the tokens that it has not looked at. Lines
without words are passed over. -/
def next (tokens : List Token) : Option Reading × List Token :=
  match _found : eatLine [] tokens with
  | (.error fault, rest) => (some (.error fault), rest)
  | (.ok none, rest) => (none, rest)
  | (.ok (some line), rest) =>
    match readWords line with
    | [] => next rest
    | reading :: _ => (some reading, rest)
termination_by tokens.length
decreasing_by exact length_lt_of_eatLine _found nofun

/-- One result is the first of the readings, and leaves the others. -/
theorem readTokens_eq_next (tokens : List Token) :
    readTokens [] tokens =
      match next tokens with
      | (some reading, rest) => reading :: readTokens [] rest
      | (none, _) => [] := by
  fun_induction next tokens with
  | case1 tokens fault rest found => rw [readTokens_eq_eatLine, found]
  | case2 tokens rest found => rw [readTokens_eq_eatLine, found]
  | case3 tokens line rest found empty hypothesis =>
    rw [readTokens_eq_eatLine, found]
    simp only [empty, List.nil_append]
    exact hypothesis
  | case4 tokens line rest found reading others words =>
    rw [readTokens_eq_eatLine, found]
    have alone : others = [] := by
      cases line with
      | nil => cases words
      | cons first arguments =>
        cases words
        rfl
    simp only [words, alone, List.cons_append, List.nil_append]

/-- Every reading takes a token away. -/
theorem length_next_lt {tokens rest : List Token} {reading : Reading}
    (more : next tokens = (some reading, rest)) : rest.length < tokens.length := by
  fun_induction next tokens with
  | case1 tokens fault left found =>
    cases more
    exact length_lt_of_eatLine found nofun
  | case2 tokens left found => cases more
  | case3 tokens line left found empty hypothesis =>
    exact Nat.lt_trans (hypothesis more) (length_lt_of_eatLine found nofun)
  | case4 tokens line left found first others words =>
    cases more
    exact length_lt_of_eatLine found nofun

/-- Asked again and again, whatever the results are, a reader gives them and then no more. -/
inductive ReadsOut : List Token → List Reading → Prop where
  | none {tokens rest : List Token} (last : next tokens = (none, rest)) : ReadsOut tokens []
  | some {tokens rest : List Token} {reading : Reading} {further : List Reading}
      (first : next tokens = (some reading, rest)) (others : ReadsOut rest further) :
      ReadsOut tokens (reading :: further)

/-- What is read out one after another is what is read at once. -/
theorem ReadsOut.eq_readTokens {tokens : List Token} {results : List Reading}
    (all : ReadsOut tokens results) : results = readTokens [] tokens := by
  induction all with
  | none last => rw [readTokens_eq_next, last]
  | some first others hypothesis => rw [readTokens_eq_next, first, hypothesis]

/-- What is read at once can be read out one after another. -/
theorem readsOut_readTokens (tokens : List Token) : ReadsOut tokens (readTokens [] tokens) := by
  rw [readTokens_eq_next]
  match found : next tokens with
  | (.none, rest) => exact .none found
  | (.some reading, rest) => exact .some found (readsOut_readTokens rest)
termination_by tokens.length
decreasing_by exact length_next_lt found

/-- A reader of a text always comes to an end, and then has given the readings of the text. -/
theorem readsOut_iff {text : Text} {results : List Reading} :
    ReadsOut (Token.scan text) results ↔ results = readings text := by
  constructor
  · exact ReadsOut.eq_readTokens
  · rintro rfl
    exact readsOut_readTokens (Token.scan text)

end Command

/-! ## Slashes before a comment -/

/-- A token that is no comment ends before a slash. -/
theorem Token.first_append_slash {character : Char} (other : character ≠ '/')
    (before after : Text) :
    first character (before ++ '/' :: after) = ((first character before).1,
      (first character before).2.1, (first character before).2.2 ++ '/' :: after) := by
  have taken : ∀ (kind : TokenKind) (accepts : Char → Bool), ¬accepts '/' →
      (kind, (before ++ '/' :: after).takeWhile accepts,
          (before ++ '/' :: after).dropWhile accepts) =
        (kind, before.takeWhile accepts, before.dropWhile accepts ++ '/' :: after) := by
    intro kind accepts refused
    obtain ⟨take, drop⟩ := @takeWhile_append_cons accepts before after '/' refused
    rw [take, drop]
  simp only [first, if_neg other]
  split
  · rfl
  · split
    · exact taken _ _ (by decide)
    · exact taken _ _ (by decide)

namespace Text

/-- A line has no slash before its comment, or its first one and more text. -/
@[elab_as_elim]
theorem slash_induction {motive : Text → Prop} (line : Text)
    (last : ∀ line, '/' ∉ beforeComment line → motive line)
    (more : ∀ before after, '/' ∉ before → after.head? ≠ some '/' → motive after →
      motive (before ++ '/' :: after)) :
    motive line := by
  by_cases slash : '/' ∈ beforeComment line
  · have member : '/' ∈ line := by
      by_contra free
      rw [beforeComment_of_not_mem free] at slash
      exact free slash
    obtain ⟨before, after, parts, first⟩ := List.eq_append_cons_of_mem member
    have alone : after.head? ≠ some '/' := by
      intro comment
      rw [parts, beforeComment_append first, beforeComment_comment comment,
        List.append_nil] at slash
      exact first slash
    rw [parts]
    exact more before after first alone (slash_induction after last more)
  · exact last line slash
termination_by line.length
decreasing_by
  rw [parts, List.length_append, List.length_cons]
  omega

/-- The words of a text come one after another. -/
theorem pairwise_words (offset : Nat) (text : Text) :
    (words offset text).Pairwise fun first second => first.span.stop ≤ second.offset :=
  (pairwise_split offset text).2.filter _

end Text

namespace Piece

/-- The parts of a line between the slashes before its comment. -/
def cuts (line : Piece) : List Piece :=
  Text.split (· == '/') line.offset line.code

/-- The reading of the slash behind a part of a line. -/
def strayAfter (part : Piece) : Reading :=
  .error ⟨.unexpectedCharacter, Span.ofText part.span.stop ['/']⟩

/-- What is read on a part of a line without slashes: nothing, a command from its first word to its
last, or what is wrong with the words. -/
inductive Yields (part : Piece) : List Reading → Prop where
  | nothing (empty : Text.words part.offset part.text = []) : Yields part []
  | command {located : LocatedCommand} {first last : Piece}
      (shape : Command.HasShape (Text.words part.offset part.text) located.command)
      (head : (Text.words part.offset part.text).head? = some first)
      (final : (Text.words part.offset part.text).getLast? = some last)
      (span : located.span = ⟨first.span.start, last.span.stop⟩) : Yields part [.ok located]
  | fault {fault : CommandFault}
      (wrong : Command.WordsFault (Text.words part.offset part.text) fault) :
      Yields part [.error fault]

/-- What is read on a line: a fault for each slash before the comment, and what the words behind the
last of them are. The words before a slash are dropped. -/
def Reads (line : Piece) (results : List Reading) : Prop :=
  ∃ before last behind, line.cuts = before ++ [last] ∧ last.Yields behind ∧
    results = before.map strayAfter ++ behind

/-- The words of a part are read as the grammar says. -/
theorem yields_readWords (part : Piece) :
    part.Yields (Command.readWords ((Text.words part.offset part.text).map token)) := by
  cases words : Text.words part.offset part.text with
  | nil => exact .nothing words
  | cons keyword arguments =>
    have ordered := Text.pairwise_words part.offset part.text
    rw [words] at ordered
    obtain ⟨span, start, ⟨last, final, stop⟩, read⟩ := readWords_eq ordered
    rw [read]
    rcases Command.exists_shape keyword arguments with ⟨command, shape⟩ | ⟨fault, wrong⟩
    · rw [Command.classifyWords_of_hasShape shape]
      rw [← words] at shape final
      refine .command shape (by rw [words, List.head?_cons]) final ?_
      rw [← start, ← stop]
    · rw [Command.classifyWords_of_wordsFault wrong]
      rw [← words] at wrong
      exact .fault wrong

/-- A line without slashes before its comment is read as one part. -/
theorem yields_lineReadings {offset : Nat} {line : Text} (single : '\n' ∉ line)
    (free : '/' ∉ Text.beforeComment line) :
    Yields ⟨offset, Text.beforeComment line⟩ (Command.lineReadings ⟨offset, line⟩) := by
  rw [Command.lineReadings, Command.readTokens_words single free]
  exact yields_readWords ⟨offset, Text.beforeComment line⟩

end Piece

namespace Command

/-- The first slash of a line is a fault, the words before it are dropped, and the line goes on
behind it. -/
theorem readTokens_append_slash {before after : Text} (single : '\n' ∉ before)
    (free : '/' ∉ before) (alone : after.head? ≠ some '/') (offset : Nat) (words : List Token) :
    readTokens words (Token.scanFrom offset (before ++ '/' :: after)) =
      Piece.strayAfter ⟨offset, before⟩ ::
        lineReadings ⟨offset + before.size + 1, after⟩ := by
  fun_induction Token.scanFrom offset before generalizing words with
  | case1 offset =>
    have visible : ¬isBlank '/' := by decide
    have mark : Token.first '/' after = (.strayMark, [], after) := by
      simp only [Token.first, if_neg (show '/' ≠ '\n' by decide), if_neg visible, if_neg alone,
        ↓reduceIte]
    rw [List.nil_append, Token.scanFrom, mark, readTokens]
    rfl
  | case2 offset character rest found lexeme hypothesis =>
    have whole : character :: rest = lexeme ++ found.2.2 :=
      congrArg (character :: ·) (Token.first_append character rest).symm
    have outside : '\n' ∉ found.2.2 ∧ '/' ∉ found.2.2 := by
      rw [whole, List.mem_append, not_or] at single free
      exact ⟨single.2, free.2⟩
    have size : offset + Text.size (character :: rest) =
        offset + lexeme.size + Text.size found.2.2 := by
      rw [whole, Text.size_append, Nat.add_assoc]
    have other : character ≠ '/' := fun same => free (same ▸ List.mem_cons_self)
    have further := hypothesis outside.1 outside.2
    have behind : Piece.strayAfter ⟨offset, character :: rest⟩ =
        Piece.strayAfter ⟨offset + lexeme.size, found.2.2⟩ := by
      simp only [Piece.strayAfter, Piece.span, Span.ofText, size]
    rw [List.cons_append, Token.scanFrom, Token.first_append_slash other, readTokens, behind, size]
    rcases Token.first_cases single with ⟨kind, -⟩ | ⟨slash, -⟩ | ⟨slash, -⟩ | ⟨kind, -⟩
    · simp only [kind]
      exact further words
    · exact absurd slash other
    · exact absurd slash other
    · simp only [kind]
      exact further _

end Command

namespace Piece

/-- A slash that is alone cuts a line in two. -/
theorem cuts_append_slash {before after : Text} (free : '/' ∉ before)
    (alone : after.head? ≠ some '/') (offset : Nat) :
    cuts ⟨offset, before ++ '/' :: after⟩ =
      ⟨offset, before⟩ :: cuts ⟨offset + before.size + 1, after⟩ := by
  rw [cuts, code, Text.beforeComment_append free, Text.beforeComment_slash alone,
    Text.split_append_cons]
  · rfl
  · intro character member same
    exact free (beq_iff_eq.mp same ▸ member)
  · rfl

/-- A line is read from slash to slash. -/
theorem reads_lineReadings {offset : Nat} {line : Text} (single : '\n' ∉ line) :
    Reads ⟨offset, line⟩ (Command.lineReadings ⟨offset, line⟩) := by
  induction line using Text.slash_induction generalizing offset with
  | last line free =>
    refine ⟨[], _, _, ?_, yields_lineReadings single free, rfl⟩
    apply Text.split_of_forall
    intro character member same
    exact free (beq_iff_eq.mp same ▸ member)
  | more before after free alone hypothesis =>
    rw [List.mem_append, List.mem_cons, not_or, not_or] at single
    obtain ⟨parts, last, results, cuts, yields, read⟩ :=
      @hypothesis (offset + before.size + 1) single.2.2
    refine ⟨⟨offset, before⟩ :: parts, last, results, ?_, yields, ?_⟩
    · rw [cuts_append_slash free alone, cuts, List.cons_append]
    · rw [Command.lineReadings, Command.readTokens_append_slash single.1 free alone, read]
      rfl

end Piece

/-- The readings of a text are those of its lines, one line after another. -/
theorem Command.exists_forall₂_reads (text : Text) :
    ∃ results, readings text = results.flatten ∧
      List.Forall₂ Piece.Reads text.locatedLines results := by
  refine ⟨text.locatedLines.map lineReadings, readings_eq text, ?_⟩
  rw [List.forall₂_map_right_iff, List.forall₂_same]
  intro line member
  exact Piece.reads_lineReadings (Text.single_of_mem_locatedLines member)

/-! ## Spans in order -/

/-- The part of the text that a reading is about. -/
def Reading.span : Reading → Span
  | .ok located => located.span
  | .error fault => fault.span

/-- Spans between two offsets that are not empty and come one after another. -/
def Span.Ascending : (low high : Nat) → List Span → Prop
  | low, high, [] => low ≤ high
  | low, high, span :: rest => low ≤ span.start ∧ span.start < span.stop ∧
      Ascending span.stop high rest

namespace Span

variable {low high : Nat} {spans : List Span}

/-- Spans that ascend from an offset ascend from any earlier one. -/
theorem Ascending.mono {other : Nat} (less : other ≤ low) (ascending : Ascending low high spans) :
    Ascending other high spans := by
  cases spans with
  | nil => exact less.trans ascending
  | cons span rest => exact ⟨less.trans ascending.1, ascending.2⟩

/-- Spans that ascend to an offset and spans that ascend from it ascend together. -/
theorem Ascending.append {middle : Nat} {others : List Span} (first : Ascending low middle spans)
    (second : Ascending middle high others) : Ascending low high (spans ++ others) := by
  induction spans generalizing low with
  | nil => exact second.mono first
  | cons span rest hypothesis => exact ⟨first.1, first.2.1, hypothesis first.2.2⟩

/-- Spans that ascend are not empty and start after the lower bound. -/
theorem Ascending.start_of_mem (ascending : Ascending low high spans) :
    ∀ span ∈ spans, low ≤ span.start ∧ span.start < span.stop := by
  induction spans generalizing low with
  | nil => nofun
  | cons span rest hypothesis =>
    obtain ⟨lower, some, further⟩ := ascending
    rw [List.forall_mem_cons]
    refine ⟨⟨lower, some⟩, ?_⟩
    intro other member
    obtain ⟨later, filled⟩ := hypothesis further other member
    exact ⟨(lower.trans some.le).trans later, filled⟩

/-- There are no more spans than bytes between the bounds. -/
theorem Ascending.length_le (ascending : Ascending low high spans) :
    low + spans.length ≤ high := by
  induction spans generalizing low with
  | nil => exact ascending
  | cons span rest hypothesis =>
    obtain ⟨lower, some, further⟩ := ascending
    have count := hypothesis further
    rw [List.length_cons]
    omega

/-- Spans that ascend stop before the upper bound. -/
theorem Ascending.stop_of_mem (ascending : Ascending low high spans) :
    ∀ span ∈ spans, span.stop ≤ high := by
  induction spans generalizing low with
  | nil => nofun
  | cons span rest hypothesis =>
    obtain ⟨-, -, further⟩ := ascending
    refine List.forall_mem_cons.mpr ⟨?_, hypothesis further⟩
    have bound := further.length_le
    omega

/-- Spans that ascend come one after another. -/
theorem Ascending.pairwise (ascending : Ascending low high spans) :
    spans.Pairwise fun first second => first.stop ≤ second.start := by
  induction spans generalizing low with
  | nil => exact .nil
  | cons span rest hypothesis =>
    obtain ⟨-, -, further⟩ := ascending
    exact .cons (fun other member => (further.start_of_mem other member).1) (hypothesis further)

end Span

namespace Piece

/-- A span that is not empty lies within a piece. -/
structure Encloses (piece : Piece) (span : Span) : Prop where
  start : piece.offset ≤ span.start
  some : span.start < span.stop
  stop : span.stop ≤ piece.span.stop

/-- A piece that covers a span encloses it. -/
theorem Covers.encloses {piece : Piece} {span : Span} (covers : piece.Covers span) :
    piece.Encloses span := by
  obtain ⟨part, within, some, rfl⟩ := covers
  have positive := Nat.pos_of_ne_zero (mt Text.size_eq_zero_iff.mp some)
  exact ⟨within.start_le, Nat.lt_add_of_pos_right positive, within.stop_le⟩

/-- What is read on a part of a line without slashes stands there. -/
theorem Yields.covers {part : Piece} {results : List Reading} (yields : part.Yields results) :
    ∀ reading ∈ results, part.Covers (Reading.span reading) := by
  cases yields with
  | nothing => nofun
  | @command located first last shape head final span =>
    have opening := List.mem_of_head? head
    have closing := List.mem_of_getLast? final
    have ordered : first.span.stop ≤ last.span.stop := by
      obtain ⟨arguments, words⟩ := List.head?_eq_some_iff.mp head
      have pairs := Text.pairwise_words part.offset part.text
      rw [words] at pairs closing
      rcases List.mem_cons.mp closing with rfl | later
      · exact Nat.le_refl _
      · exact ((List.pairwise_cons.mp pairs).1 last later).trans (Nat.le_add_right _ _)
    have filled := text_ne_nil_of_mem_words opening
    have size := Nat.pos_of_ne_zero (mt Text.size_eq_zero_iff.mp filled)
    rw [List.forall_mem_singleton]
    change part.Covers located.span
    rw [span]
    apply covers_between (within_of_mem_words opening) (within_of_mem_words closing)
    exact Nat.lt_of_lt_of_le (Nat.lt_add_of_pos_right size) ordered
  | fault wrong =>
    have filled : ∀ word ∈ Text.words part.offset part.text, word.text ≠ [] :=
      fun _ => text_ne_nil_of_mem_words
    obtain ⟨word, member, covers⟩ := exists_covers_of_wordsFault filled wrong
    rw [List.forall_mem_singleton]
    exact covers.of_within (within_of_mem_words member)

/-- The readings of a part ascend in it. -/
theorem Yields.ascending {part : Piece} {results : List Reading} (yields : part.Yields results) :
    Span.Ascending part.offset part.span.stop (results.map Reading.span) := by
  have covers := yields.covers
  -- At most one span, and it lies within the part.
  have single : ∀ reading ∈ results,
      Span.Ascending part.offset part.span.stop [Reading.span reading] := by
    intro reading member
    have inside := (covers reading member).encloses
    exact ⟨inside.start, inside.some, inside.stop⟩
  cases yields with
  | nothing => exact Nat.le_add_right _ _
  | command => exact single _ List.mem_cons_self
  | fault => exact single _ List.mem_cons_self

end Piece

namespace Command

/-- The readings of a line ascend in it. -/
theorem ascending_lineReadings {offset : Nat} {line : Text} (single : '\n' ∉ line) :
    Span.Ascending offset (offset + line.size)
      ((lineReadings ⟨offset, line⟩).map Reading.span) := by
  induction line using Text.slash_induction generalizing offset with
  | last line free =>
    have yields := @Piece.yields_lineReadings offset line single free
    have short := (Piece.within_beforeComment offset line).stop_le
    rw [← List.append_nil (List.map _ _)]
    exact yields.ascending.append short
  | more before after free alone hypothesis =>
    rw [List.mem_append, List.mem_cons, not_or, not_or] at single
    have further := @hypothesis (offset + before.size + 1) single.2.2
    rw [lineReadings, readTokens_append_slash single.1 free alone, List.map_cons,
      Text.add_size_append_cons rfl]
    exact ⟨Nat.le_add_right _ _, Nat.lt_succ_self _, further⟩

/-- The readings of a text ascend in it. -/
theorem ascending_readingsAt (offset : Nat) (text : Text) :
    Span.Ascending offset (offset + text.size) ((readingsAt offset text).map Reading.span) := by
  induction text using Text.line_induction generalizing offset with
  | last line single =>
    rw [readingsAt_of_single single]
    exact ascending_lineReadings single
  | more line rest single hypothesis =>
    have here := @ascending_lineReadings offset line single
    have further := (hypothesis (offset + line.size + 1)).mono (Nat.le_succ _)
    rw [readingsAt_append_newline single, List.map_append, Text.add_size_append_cons rfl]
    exact here.append further

/-- The readings of a text do not overlap, and come in order. -/
theorem ascending_readings (text : Text) :
    Span.Ascending 0 text.size ((readings text).map Reading.span) := by
  have ascending := ascending_readingsAt 0 text
  rwa [readingsAt_zero, Nat.zero_add] at ascending

/-- Readings are all commands, or there is a first fault among them. -/
theorem forall_ok_or_first (readings : List Reading) :
    (∃ commands : List LocatedCommand, readings = commands.map .ok) ∨
      ∃ (commands : List LocatedCommand) (fault : CommandFault) (rest : List Reading),
        readings = commands.map .ok ++ .error fault :: rest := by
  induction readings with
  | nil => exact .inl ⟨[], rfl⟩
  | cons reading others hypothesis =>
    cases reading with
    | error fault => exact .inr ⟨[], fault, others, rfl⟩
    | ok located =>
      rcases hypothesis with ⟨commands, rfl⟩ | ⟨commands, fault, rest, rfl⟩
      · exact .inl ⟨located :: commands, rfl⟩
      · exact .inr ⟨located :: commands, fault, rest, rfl⟩

/-- The first fault among the readings is the one that is reported. -/
theorem readAll_eq_error_iff {text : Text} {fault : CommandFault} :
    readAll text = .error fault ↔ ∃ (commands : List LocatedCommand) (rest : List Reading),
      readings text = commands.map .ok ++ .error fault :: rest := by
  constructor
  · intro failed
    rcases forall_ok_or_first (readings text) with ⟨commands, all⟩ | ⟨commands, other, rest, parts⟩
    · cases failed.symm.trans (readAll_eq_ok_iff.mpr all)
    · rw [readAll, parts, mapM_of_error] at failed
      cases failed
      exact ⟨commands, rest, parts⟩
  · rintro ⟨commands, rest, parts⟩
    rw [readAll, parts, mapM_of_error]

/-- **Reading on after faults.** A reader of a text that is asked until it has no more comes to an
end, and has given the readings of the text: no more than the text has bytes, about parts of the
text that are not empty, do not overlap and come in order. What follows a line break is read as if
it stood alone, at its place. On each line there is a fault for each slash before the comment, and
then what the words behind the last slash are. Of all readings the first fault is reported, or else
all commands. -/
theorem readings_recover (text : Text) :
    (∀ results, ReadsOut (Token.scan text) results ↔ results = readings text) ∧
      (readings text).length ≤ text.size ∧
      (∀ reading ∈ readings text, (Reading.span reading).start < (Reading.span reading).stop) ∧
      ((readings text).Pairwise fun first second =>
        (Reading.span first).stop ≤ (Reading.span second).start) ∧
      (∀ rest, readings (text ++ '\n' :: rest) =
        readings text ++ (readings rest).map (Reading.shift (text.size + 1))) ∧
      (∃ results, readings text = results.flatten ∧
        List.Forall₂ Piece.Reads text.locatedLines results) ∧
      (∀ commands, readAll text = .ok commands ↔ readings text = commands.map .ok) ∧
      ∀ fault, readAll text = .error fault ↔
        ∃ (commands : List LocatedCommand) (rest : List Reading),
          readings text = commands.map .ok ++ .error fault :: rest := by
  have ascending := ascending_readings text
  have length := ascending.length_le
  rw [Nat.zero_add, List.length_map] at length
  refine ⟨fun results => readsOut_iff, length, ?_, List.pairwise_map.mp ascending.pairwise,
    readings_append_newline text, exists_forall₂_reads text, fun commands => readAll_eq_ok_iff,
    fun fault => readAll_eq_error_iff⟩
  intro reading member
  exact (ascending.start_of_mem _ (List.mem_map_of_mem member)).2

end Command

end HackToolchain
