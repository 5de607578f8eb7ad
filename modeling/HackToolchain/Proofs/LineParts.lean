import HackToolchain.Proofs.LineGrammar

/-! # Parts of lines

A word is part of what comes before the comment of its line, a character that is no digit is part of
a word, and a command goes from one word to another. What is part of a part is part of the whole
(`Piece.Within`), so that the spans of all of these take up characters of the line
(`Piece.Covers`).
-/

namespace HackToolchain

namespace Piece

/-- A piece that is part of another one. -/
def Within (inner outer : Piece) : Prop :=
  ∃ before after, outer.text = before ++ (inner.text ++ after) ∧
    inner.offset = outer.offset + before.size

/-- A span takes up some of the characters of a piece, and one at least. -/
def Covers (piece : Piece) (span : Span) : Prop :=
  ∃ part : Piece, part.Within piece ∧ part.text ≠ [] ∧ span = part.span

theorem Within.refl (piece : Piece) : piece.Within piece :=
  ⟨[], [], (List.append_nil piece.text).symm, rfl⟩

theorem Within.trans {inner middle outer : Piece} (first : inner.Within middle)
    (second : middle.Within outer) : inner.Within outer := by
  obtain ⟨before, after, parts, offset⟩ := first
  obtain ⟨earlier, later, whole, start⟩ := second
  refine ⟨earlier ++ before, after ++ later, ?_, ?_⟩
  · simp only [whole, parts, List.append_assoc]
  · rw [offset, start, Text.size_append, Nat.add_assoc]

theorem Within.start_le {inner outer : Piece} (part : inner.Within outer) :
    outer.offset ≤ inner.offset := by
  obtain ⟨before, -, -, offset⟩ := part
  rw [offset]
  exact Nat.le_add_right _ _

theorem Within.stop_le {inner outer : Piece} (part : inner.Within outer) :
    inner.span.stop ≤ outer.span.stop := by
  obtain ⟨before, after, parts, offset⟩ := part
  change inner.offset + inner.text.size ≤ outer.offset + outer.text.size
  rw [offset, parts, Text.size_append, Text.size_append]
  omega

/-- What a piece covers is covered by the piece that it is in. -/
theorem Covers.of_within {inner outer : Piece} (part : inner.Within outer) {span : Span}
    (covers : inner.Covers span) : outer.Covers span := by
  obtain ⟨smallest, inside, some, same⟩ := covers
  exact ⟨smallest, inside.trans part, some, same⟩

/-- A piece that is not empty covers its own span. -/
theorem Covers.refl {piece : Piece} (some : piece.text ≠ []) : piece.Covers piece.span :=
  ⟨piece, .refl piece, some, rfl⟩

/-! ## Parts of a line -/

/-- The pieces of a text are within it. -/
theorem within_of_mem_split {separates : Char → Bool} {offset : Nat} {text : Text} {piece : Piece}
    (member : piece ∈ Text.split separates offset text) : piece.Within ⟨offset, text⟩ := by
  induction text generalizing offset piece with
  | nil =>
    rw [Text.split, List.mem_singleton] at member
    subst member
    exact .refl _
  | cons character rest hypothesis =>
    have tail : Within ⟨offset + character.utf8Size, rest⟩ ⟨offset, character :: rest⟩ :=
      ⟨[character], [], by rw [List.append_nil]; rfl, rfl⟩
    rw [Text.split] at member
    split at member
    · rcases List.mem_cons.mp member with rfl | later
      · exact ⟨[], character :: rest, rfl, rfl⟩
      · exact (hypothesis later).trans tail
    · obtain ⟨first, others, found⟩ := @Text.exists_split_eq_cons separates
        (offset + character.utf8Size) rest
      have parts : ∀ other ∈ ⟨offset + character.utf8Size, first⟩ :: others,
          Within other ⟨offset + character.utf8Size, rest⟩ := by
        rw [← found]
        exact fun other => hypothesis
      rw [found, List.modifyHead_cons] at member
      rcases List.mem_cons.mp member with rfl | later
      · -- The first piece starts with the character, and goes on as before.
        obtain ⟨before, after, whole, same⟩ := parts _ List.mem_cons_self
        have none : before = [] := Text.size_eq_zero_iff.mp (Nat.left_eq_add.mp same)
        subst none
        exact ⟨[], after, congrArg (character :: ·) whole, rfl⟩
      · exact (parts piece (List.mem_cons_of_mem _ later)).trans tail

/-- The words of a piece are within it. -/
theorem within_of_mem_words {part word : Piece}
    (member : word ∈ Text.words part.offset part.text) : word.Within part :=
  within_of_mem_split (List.mem_filter.mp member).1

/-- Words are not empty. -/
theorem text_ne_nil_of_mem_words {offset : Nat} {text : Text} {word : Piece}
    (member : word ∈ Text.words offset text) : word.text ≠ [] := by
  simpa using (List.mem_filter.mp member).2

/-- What comes before a comment is the beginning of the line. -/
theorem exists_beforeComment_append (text : Text) :
    ∃ rest, text = Text.beforeComment text ++ rest := by
  fun_induction Text.beforeComment text with
  | case1 => exact ⟨[], rfl⟩
  | case2 rest => exact ⟨'/' :: '/' :: rest, rfl⟩
  | case3 character rest _ hypothesis =>
    obtain ⟨comment, parts⟩ := hypothesis
    exact ⟨comment, congrArg (character :: ·) parts⟩

/-- What is before a comment is within its line. -/
theorem within_beforeComment (offset : Nat) (line : Text) :
    Within ⟨offset, Text.beforeComment line⟩ ⟨offset, line⟩ := by
  obtain ⟨comment, parts⟩ := exists_beforeComment_append line
  exact ⟨[], comment, parts, rfl⟩

/-- From the start of one part to the end of another there is a part. -/
theorem covers_between {piece first last : Piece} (opening : first.Within piece)
    (closing : last.Within piece) (order : first.offset < last.span.stop) :
    piece.Covers ⟨first.offset, last.span.stop⟩ := by
  obtain ⟨before, after, parts, start⟩ := opening
  obtain ⟨earlier, later, same, offset⟩ := closing
  have stop : last.span.stop = piece.offset + (earlier.size + last.text.size) := by
    rw [Piece.span, Span.ofText, offset, Nat.add_assoc]
  rw [start, stop] at order ⊢
  have low : piece.text.IsBoundary before.size := Text.isBoundary_iff.mpr ⟨before, _, parts, rfl⟩
  have high : piece.text.IsBoundary (earlier.size + last.text.size) := by
    refine Text.isBoundary_iff.mpr ⟨earlier ++ last.text, later, ?_, Text.size_append _ _⟩
    rw [same, List.append_assoc]
  obtain ⟨left, middle, right, whole, size, ends⟩ := Text.exists_between low high (by omega)
  refine ⟨⟨piece.offset + left.size, middle⟩, ⟨left, right, whole, rfl⟩, ?_, ?_⟩
  · rintro (rfl : middle = [])
    rw [Text.size_nil] at ends
    omega
  · rw [Piece.span, Span.ofText, ← ends, size, Nat.add_assoc]

/-! ## Faults and commands -/

/-- A fault in a number is within its word. -/
theorem covers_of_numberFault {word : Piece} (some : word.text ≠ []) {fault : CommandFault}
    (wrong : NumberFault word fault) : word.Covers fault.span := by
  cases wrong with
  | literalRange => exact .refl some
  | @invalidDigit digits rest character parts =>
    exact ⟨⟨word.offset + digits.size, [character]⟩, ⟨digits, rest, parts, rfl⟩,
      List.cons_ne_nil _ _, rfl⟩

/-- What is wrong with words is part of one of them. -/
theorem exists_covers_of_wordsFault {words : List Piece} (some : ∀ word ∈ words, word.text ≠ [])
    {fault : CommandFault} (wrong : Command.WordsFault words fault) :
    ∃ word ∈ words, word.Covers fault.span := by
  cases wrong with
  | unknownCommand | argumentCount =>
    exact ⟨_, List.mem_cons_self, .refl (some _ List.mem_cons_self)⟩
  | unknownSegment =>
    refine ⟨_, List.mem_cons_of_mem _ List.mem_cons_self, .refl (some _ ?_)⟩
    exact List.mem_cons_of_mem _ List.mem_cons_self
  | index _ _ wrong | count _ wrong =>
    refine ⟨_, ?_, covers_of_numberFault (some _ ?_) wrong⟩
    all_goals exact List.mem_cons_of_mem _ (List.mem_cons_of_mem _ List.mem_cons_self)

end Piece

end HackToolchain
