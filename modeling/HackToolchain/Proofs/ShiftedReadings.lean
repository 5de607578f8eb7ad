import HackToolchain.Proofs.ValidPrefix

/-! # Readings of a text that stands further on

Nothing that is read depends on the offset of a text, except that all spans move with it. Every
stage of the reader, from the scanner to the classification of a line, commutes with moving spans by
a distance (`Token.shift`, `Reading.shift`). So the readings of two texts with a line break between
them are those of the first, and those of the second behind it (`readings_append_newline`).
-/

namespace HackToolchain

/-- A span that is a distance further on. -/
def Span.shift (distance : Nat) (span : Span) : Span :=
  ⟨distance + span.start, distance + span.stop⟩

/-- A token that is a distance further on. -/
def Token.shift (distance : Nat) (token : Token) : Token :=
  { token with span := token.span.shift distance }

/-- A fault that is a distance further on. -/
def CommandFault.shift (distance : Nat) (fault : CommandFault) : CommandFault :=
  { fault with span := fault.span.shift distance }

/-- A command that is a distance further on. -/
def LocatedCommand.shift (distance : Nat) (located : LocatedCommand) : LocatedCommand :=
  { located with span := located.span.shift distance }

/-- A reading that is a distance further on. -/
def Reading.shift (distance : Nat) : Reading → Reading
  | .ok located => .ok (located.shift distance)
  | .error fault => .error (fault.shift distance)

section

variable (distance : Nat)

theorem Span.shift_ofText (offset : Nat) (text : Text) :
    (ofText offset text).shift distance = ofText (distance + offset) text := by
  rw [shift, ofText, ofText, Nat.add_assoc]

theorem Span.shift_cover (first second : Span) :
    (first.cover second).shift distance = (first.shift distance).cover (second.shift distance) := by
  simp only [shift, cover, Nat.add_min_add_left, Nat.add_max_add_left]

@[simp]
theorem Token.shift_kind (token : Token) : (token.shift distance).kind = token.kind := rfl

@[simp]
theorem Token.shift_name (token : Token) : (token.shift distance).name = token.name := rfl

/-- A text that starts later has the same tokens later. -/
theorem Token.scanFrom_add (offset : Nat) (text : Text) :
    scanFrom (distance + offset) text = (scanFrom offset text).map (shift distance) := by
  fun_induction scanFrom offset text with
  | case1 => rw [scanFrom, List.map_nil]
  | case2 offset character rest found lexeme hypothesis =>
    rw [scanFrom, List.map_cons, ← hypothesis, ← Nat.add_assoc, shift, Span.shift_ofText]

namespace Numeral

theorem readFrom_shift (whole : Span) (offset value : Nat) (digits : Text) :
    readFrom (whole.shift distance) (distance + offset) value digits =
      (readFrom whole offset value digits).mapError (CommandFault.shift distance) := by
  fun_induction readFrom whole offset value digits with
  | case1 => rfl
  | case2 offset value digit rest isDigit next fits hypothesis =>
    rw [readFrom, if_pos isDigit]
    simp only [next] at fits
    simp only [fits, ↓reduceIte]
    rw [Nat.add_assoc, hypothesis]
  | case3 offset value digit rest isDigit next large =>
    simp only [next] at large
    rw [readFrom, if_pos isDigit]
    simp only [large, ↓reduceIte]
    rfl
  | case4 offset value digit rest wrong =>
    rw [readFrom, if_neg wrong, ← Span.shift_ofText]
    rfl

theorem read_shift (token : Token) :
    read (token.shift distance) = (read token).mapError (CommandFault.shift distance) := by
  have same := readFrom_shift distance token.span token.span.start 0 token.text
  rw [read]
  change (readFrom (token.span.shift distance) (distance + token.span.start) 0 token.text).map _ = _
  rw [same, read]
  cases readFrom token.span token.span.start 0 token.text <;> rfl

end Numeral

namespace Command

theorem readSegment_shift (token : Token) : readSegment (token.shift distance) =
    (readSegment token).mapError (CommandFault.shift distance) := by
  rw [readSegment, readSegment, Token.shift_name]
  cases Segment.ofName? token.name <;> rfl

theorem readSegmented_shift (build : Segment → Word → Command) (segment index : Token) :
    (readSegment (segment.shift distance) >>= fun known =>
        Numeral.read (index.shift distance) >>= fun value => pure (build known value)) =
      (readSegment segment >>= fun known =>
        Numeral.read index >>= fun value => pure (build known value)).mapError
          (CommandFault.shift distance) := by
  rw [readSegment_shift, Numeral.read_shift]
  cases readSegment segment with
  | error fault => rfl
  | ok known => cases Numeral.read index <;> rfl

theorem readCounted_shift (build : Word → Command) (count : Token) :
    (Numeral.read (count.shift distance) >>= fun value => pure (build value)) =
      (Numeral.read count >>= fun value => pure (build value)).mapError
        (CommandFault.shift distance) := by
  rw [Numeral.read_shift]
  cases Numeral.read count <;> rfl

/-- Arguments that are moved are read alike. -/
theorem readArguments_shift (first : Token) (keyword : Keyword) (arguments : List Token) :
    readArguments (first.shift distance) keyword (arguments.map (Token.shift distance)) =
      (readArguments first keyword arguments).mapError (CommandFault.shift distance) := by
  by_cases count : arguments.length = keyword.arity
  · cases keyword with
    | operator | «return» =>
      cases List.length_eq_zero_iff.mp count
      rfl
    | label | goto | ifGoto =>
      obtain ⟨name, rfl⟩ := List.length_eq_one_iff.mp count
      rfl
    | push | pop =>
      obtain ⟨segment, index, rfl⟩ := List.length_eq_two.mp count
      exact readSegmented_shift distance _ segment index
    | function | call =>
      obtain ⟨name, number, rfl⟩ := List.length_eq_two.mp count
      exact readCounted_shift distance _ number
  · have length : (arguments.map (Token.shift distance)).length = arguments.length :=
      List.length_map _
    rw [readArguments_of_length_ne count, readArguments_of_length_ne (by rwa [length]), length]
    rfl

/-- A line that is moved is read alike. -/
theorem classify_shift (first : Token) (arguments : List Token) :
    classify (first.shift distance) (arguments.map (Token.shift distance)) =
      (classify first arguments).mapError (CommandFault.shift distance) := by
  rw [classify, classify, Token.shift_name]
  cases Keyword.ofName? first.name with
  | none => rfl
  | some keyword => exact readArguments_shift distance first keyword arguments

theorem foldl_cover_shift (words : List Token) (covered : Span) :
    (words.map (Token.shift distance)).foldl (fun covered word => covered.cover word.span)
        (covered.shift distance) =
      (words.foldl (fun covered word => covered.cover word.span) covered).shift distance := by
  induction words generalizing covered with
  | nil => rfl
  | cons word others hypothesis =>
    rw [List.map_cons, List.foldl_cons, List.foldl_cons, ← hypothesis, Span.shift_cover]
    rfl

/-- Words that are moved are read alike. -/
theorem readWords_shift (words : List Token) : readWords (words.map (Token.shift distance)) =
    (readWords words).map (Reading.shift distance) := by
  cases words with
  | nil => rfl
  | cons first arguments =>
    rw [List.map_cons, readWords, readWords, classify_shift]
    simp only [List.map_cons, List.map_nil]
    have covered := foldl_cover_shift distance arguments first.span
    change [Except.map (LocatedCommand.mk (List.foldl _ (first.span.shift distance) _)) _] = _
    rw [covered]
    cases classify first arguments <;> rfl

/-- Tokens that are moved are read alike. -/
theorem readTokens_shift (words tokens : List Token) :
    readTokens (words.map (Token.shift distance)) (tokens.map (Token.shift distance)) =
      (readTokens words tokens).map (Reading.shift distance) := by
  induction tokens generalizing words with
  | nil =>
    rw [List.map_nil, readTokens, readTokens, ← List.map_reverse, readWords_shift]
  | cons token rest hypothesis =>
    have fresh := hypothesis []
    rw [List.map_nil] at fresh
    rw [List.map_cons, readTokens, readTokens, Token.shift_kind]
    cases token.kind with
    | word => exact hypothesis (token :: words)
    | blank | comment => exact hypothesis words
    | newline =>
      simp only [List.map_append, fresh, ← List.map_reverse, readWords_shift]
    | strayMark =>
      simp only [List.map_cons, fresh]
      rfl

end Command

end

/-- The end of two texts with a mark of one byte between them. -/
theorem Text.add_size_append_cons {mark : Char} (byte : mark.utf8Size = 1) (offset : Nat)
    (first second : Text) :
    offset + size (first ++ mark :: second) = offset + first.size + 1 + second.size := by
  rw [size_append, size_cons, byte]
  omega

namespace Command

/-- The readings of a text that starts at an offset are those of the text, moved by the offset. -/
theorem readingsAt_eq_map_shift (offset : Nat) (text : Text) :
    readingsAt offset text = (readings text).map (Reading.shift offset) := by
  have lines := readTokens_append List.not_mem_nil offset text
  have tokens := Token.scanFrom_add offset 0 text
  rw [readingsAt, ← List.nil_append text, ← lines, List.nil_append]
  rw [Nat.add_zero] at tokens
  rw [tokens]
  exact readTokens_shift offset [] (Token.scanFrom 0 text)

/-- The readings of two texts on lines of their own are those of the first and then those of the
second. -/
theorem readingsAt_append (offset : Nat) (first second : Text) :
    readingsAt offset (first ++ '\n' :: second) =
      readingsAt offset first ++ readingsAt (offset + first.size + 1) second := by
  induction first using Text.line_induction generalizing offset with
  | last line single =>
    rw [readingsAt_append_newline single, readingsAt_of_single single]
  | more line rest single hypothesis =>
    rw [List.append_assoc, List.cons_append, readingsAt_append_newline single, hypothesis,
      readingsAt_append_newline single, List.append_assoc, Text.add_size_append_cons rfl]

/-- The readings of two texts with a line break between them. -/
theorem readings_append_newline (first second : Text) :
    readings (first ++ '\n' :: second) =
      readings first ++ (readings second).map (Reading.shift (first.size + 1)) := by
  rw [← readingsAt_zero, readingsAt_append, readingsAt_zero, Nat.zero_add,
    readingsAt_eq_map_shift]

end Command

end HackToolchain
