/-! # Texts and byte offsets

A text is the list of its characters. Places in a text are counted in bytes of its UTF-8 encoding,
so not every offset falls between two characters: those that do are the boundaries of the text.
`Text.splitAt` cuts at the last boundary that an offset reaches, and `Text.slice?` cuts out what
lies between two boundaries.
-/

namespace HackToolchain

/-- A text, as the list of its characters. -/
abbrev Text := List Char

namespace Text

/-- The number of bytes of the UTF-8 encoding of a text. -/
def size (text : Text) : Nat :=
  text.foldr (fun character total => character.utf8Size + total) 0

@[simp]
theorem size_nil : size [] = 0 := rfl

@[simp]
theorem size_cons (character : Char) (rest : Text) :
    size (character :: rest) = character.utf8Size + size rest := rfl

/-- Texts that are put together have their bytes together. -/
@[simp]
theorem size_append (first second : Text) : size (first ++ second) = size first + size second := by
  induction first with
  | nil => simp
  | cons character rest hypothesis => simp [hypothesis, Nat.add_assoc]

/-- Only the empty text has no bytes. -/
theorem size_eq_zero_iff {text : Text} : size text = 0 ↔ text = [] := by
  cases text with
  | nil => simp
  | cons character rest =>
    have positive := character.utf8Size_pos
    simp only [size_cons, reduceCtorEq, iff_false]
    omega

/-- Moves characters from the rest to the passed ones, which are kept in reverse, as long as they
fit into the room left. -/
private def advance : Nat → Text → Text → Text × Text
  | _, passed, [] => (passed.reverse, [])
  | room, passed, character :: rest =>
    if character.utf8Size ≤ room then
      advance (room - character.utf8Size) (character :: passed) rest
    else (passed.reverse, character :: rest)

/-- The longest beginning of a text that fits into a number of bytes, and what follows it. -/
def splitAt (offset : Nat) (text : Text) : Text × Text :=
  advance offset [] text

/-- The part of a text before an offset. -/
def before (offset : Nat) (text : Text) : Text :=
  (splitAt offset text).1

/-- The part of a text from an offset on. -/
def after (offset : Nat) (text : Text) : Text :=
  (splitAt offset text).2

/-- Advancing passes what is before the offset and stops at what is after it. -/
private theorem advance_eq (room : Nat) (passed text : Text) :
    advance room passed text = (passed.reverse ++ before room text, after room text) := by
  simp only [before, after, splitAt]
  induction text generalizing room passed with
  | nil => simp [advance]
  | cons character rest hypothesis =>
    by_cases fits : character.utf8Size ≤ room
    · simp only [advance, fits, ↓reduceIte]
      rw [hypothesis, hypothesis (room - character.utf8Size) [character]]
      simp
    · simp [advance, fits]

theorem before_cons (offset : Nat) (character : Char) (rest : Text) :
    before offset (character :: rest) =
      if character.utf8Size ≤ offset then
        character :: before (offset - character.utf8Size) rest
      else [] := by
  by_cases fits : character.utf8Size ≤ offset
  · have moved := advance_eq (offset - character.utf8Size) [character] rest
    simp only [before, splitAt, advance, fits, ↓reduceIte]
    rw [moved]
    simp [before, splitAt]
  · simp [before, splitAt, advance, fits]

theorem after_cons (offset : Nat) (character : Char) (rest : Text) :
    after offset (character :: rest) =
      if character.utf8Size ≤ offset then after (offset - character.utf8Size) rest
      else character :: rest := by
  by_cases fits : character.utf8Size ≤ offset
  · have moved := advance_eq (offset - character.utf8Size) [character] rest
    simp only [after, splitAt, advance, fits, ↓reduceIte]
    rw [moved]
    simp [after, splitAt]
  · simp [after, splitAt, advance, fits]

/-- Cutting a text loses nothing. -/
@[simp]
theorem before_append_after (offset : Nat) (text : Text) :
    before offset text ++ after offset text = text := by
  induction text generalizing offset with
  | nil => rfl
  | cons character rest hypothesis =>
    rw [before_cons, after_cons]
    split
    · simp [hypothesis]
    · rfl

/-- A text is what is before its end, whatever comes after it. -/
@[simp]
theorem before_size_append (first second : Text) :
    before (size first) (first ++ second) = first := by
  induction first with
  | nil =>
    cases second with
    | nil => rfl
    | cons character rest =>
      have positive := character.utf8Size_pos
      rw [List.nil_append, before_cons, if_neg (by simp only [size_nil]; omega)]
  | cons character rest hypothesis =>
    rw [List.cons_append, before_cons, size_cons, if_pos (Nat.le_add_right _ _),
      Nat.add_sub_cancel_left, hypothesis]

/-- What comes after a text is after its end. -/
@[simp]
theorem after_size_append (first second : Text) :
    after (size first) (first ++ second) = second := by
  have parts := before_append_after (size first) (first ++ second)
  rw [before_size_append] at parts
  exact List.append_cancel_left parts

/-- An offset is a boundary of a text when it lies between two characters, or at either end. -/
def IsBoundary (text : Text) (offset : Nat) : Prop :=
  size (before offset text) = offset

instance (text : Text) (offset : Nat) : Decidable (text.IsBoundary offset) :=
  inferInstanceAs (Decidable (size (before offset text) = offset))

/-- The boundaries of a text are the sizes of its beginnings. -/
theorem isBoundary_iff {text : Text} {offset : Nat} :
    text.IsBoundary offset ↔ ∃ first second, text = first ++ second ∧ size first = offset := by
  constructor
  · intro boundary
    exact ⟨before offset text, after offset text, (before_append_after offset text).symm, boundary⟩
  · rintro ⟨first, second, rfl, rfl⟩
    simp [IsBoundary]

/-- A boundary is no further than the end of the text. -/
theorem IsBoundary.le_size {text : Text} {offset : Nat} (boundary : text.IsBoundary offset) :
    offset ≤ text.size := by
  obtain ⟨first, second, rfl, rfl⟩ := isBoundary_iff.mp boundary
  rw [size_append]
  exact Nat.le_add_right _ _

/-- Two boundaries in order cut a text into three parts. -/
theorem exists_between {text : Text} {low high : Nat} (start : text.IsBoundary low)
    (stop : text.IsBoundary high) (order : low ≤ high) :
    ∃ first middle last, text = first ++ (middle ++ last) ∧ size first = low ∧
      size first + size middle = high := by
  obtain ⟨first, second, parts, rfl⟩ := isBoundary_iff.mp start
  obtain ⟨longer, last, same, rfl⟩ := isBoundary_iff.mp stop
  rcases List.append_eq_append_iff.mp (parts.symm.trans same) with
    ⟨middle, rfl, rfl⟩ | ⟨middle, rfl, rfl⟩
  · exact ⟨first, middle, last, parts, rfl, (size_append first middle).symm⟩
  · rw [size_append] at order ⊢
    have empty : size middle = 0 := by omega
    rw [size_eq_zero_iff] at empty
    subst empty
    exact ⟨longer, [], second, by rw [parts, List.append_nil, List.nil_append], rfl, rfl⟩

/-- The part of a text between two boundaries in order, or nothing if they are not. -/
def slice? (start stop : Nat) (text : Text) : Option Text :=
  if start ≤ stop ∧ text.IsBoundary start ∧ text.IsBoundary stop then
    some (after start (before stop text))
  else none

/-- A part of a text starts behind what comes before it, and is as long as it is. -/
theorem slice?_eq_some_iff {start stop : Nat} {text part : Text} :
    text.slice? start stop = some part ↔ ∃ first last, text = first ++ (part ++ last) ∧
      size first = start ∧ size first + size part = stop := by
  -- What is cut out from between two sizes of beginnings.
  have cut : ∀ first middle last : Text,
      after (size first) (before (size first + size middle) (first ++ (middle ++ last))) =
        middle := by
    intro first middle last
    rw [← size_append, ← List.append_assoc, before_size_append, after_size_append]
  constructor
  · intro found
    unfold slice? at found
    split at found
    · rename_i fits
      obtain ⟨first, middle, last, parts, low, high⟩ := exists_between fits.2.1 fits.2.2 fits.1
      subst parts low high
      rw [cut, Option.some.injEq] at found
      subst found
      exact ⟨first, last, rfl, rfl, rfl⟩
    · contradiction
  · rintro ⟨first, last, rfl, rfl, rfl⟩
    have low : IsBoundary (first ++ (part ++ last)) (size first) :=
      isBoundary_iff.mpr ⟨first, part ++ last, rfl, rfl⟩
    have high : IsBoundary (first ++ (part ++ last)) (size first + size part) :=
      isBoundary_iff.mpr ⟨first ++ part, last, (List.append_assoc _ _ _).symm, size_append _ _⟩
    rw [slice?, if_pos ⟨Nat.le_add_right _ _, low, high⟩, cut]

end Text

end HackToolchain
