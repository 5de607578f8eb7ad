import HackToolchain.Proofs.Rendering

/-! # Numeric arguments

A word is read as a number digit by digit, and reading stops at the first thing that is wrong. What
comes of it can be said without the order: a word of digits whose value fits is read as that value
(`read_ok_iff`), and otherwise the digits that the word starts with decide. If their value does not
fit, the whole word is blamed (`read_of_large`), and if it does, the character behind them
(`read_of_stray`).
-/

namespace HackToolchain

/-- Zeros before a number do not change its value. -/
theorem IsNumeral.zeros {digits : Text} {value : Word} (number : IsNumeral digits value)
    (count : Nat) : IsNumeral (List.replicate count '0' ++ digits) value := by
  refine ⟨?_, ?_⟩
  · intro digit member
    rcases List.mem_append.mp member with zero | later
    · rw [List.eq_of_mem_replicate zero]
      rfl
    · exact number.1 digit later
  · rw [Nat.ofDigitChars_append, Nat.ofDigitChars_replicate_zero, Nat.mul_zero, number.2]

/-- Digits are a number just when they are digits and their value is that of a word. -/
theorem exists_isNumeral_iff {digits : Text} : (∃ value, IsNumeral digits value) ↔
    (∀ digit ∈ digits, digit.isDigit) ∧ Nat.ofDigitChars 10 digits 0 ≤ Word.maxValue := by
  constructor
  · rintro ⟨value, all, same⟩
    refine ⟨all, ?_⟩
    rw [same]
    exact Nat.le_of_lt_succ value.isLt
  · rintro ⟨all, fits⟩
    have small : Nat.ofDigitChars 10 digits 0 < 2 ^ 16 := Nat.lt_succ_of_le fits
    refine ⟨BitVec.ofNat 16 (Nat.ofDigitChars 10 digits 0), all, ?_⟩
    rw [BitVec.toNat_ofNat, Nat.mod_eq_of_lt small]

namespace Numeral

/-- A token is blamed as a number, with a message, and at a part of the text. -/
def IsBlamed (token : Token) (message : String) (span : Span) : Prop :=
  ∃ fault, read token = .error fault ∧ fault.kind = .invalidNumericArgument ∧
    fault.message = message ∧ fault.span = span

/-- A word that stands at a span of a text is a piece of the text. -/
theorem token_of_text? {text word : Text} {span : Span} (placed : span.text? text = some word) :
    Token.mk .word span word = Piece.token ⟨span.start, word⟩ := by
  obtain ⟨first, last, -, start, stop⟩ := Text.slice?_eq_some_iff.mp placed
  have same : span = Span.ofText span.start word := by
    rw [Span.ofText, ← start, stop, start]
  rw [Piece.token, Piece.span, ← same]

variable {word : Piece}

/-- A word is read as a value just when it is a number with that value. -/
theorem read_ok_iff {value : Word} : read word.token = .ok value ↔ IsNumeral word.text value := by
  refine ⟨?_, read_of_isNumeral⟩
  intro found
  rcases exists_number word with ⟨other, number⟩ | ⟨fault, wrong⟩
  · rw [read_of_isNumeral number, Except.ok.injEq] at found
    exact found ▸ number
  · rw [read_of_numberFault wrong] at found
    contradiction

/-- Digits in front that do not fit are blamed on the whole word, whatever follows them. -/
theorem read_of_large
    (large : Word.maxValue < Nat.ofDigitChars 10 (word.text.takeWhile Char.isDigit) 0) :
    IsBlamed word.token "literal out of range for 16-bit integer" word.span := by
  have parts := List.takeWhile_append_dropWhile (p := Char.isDigit) (l := word.text)
  have wrong : NumberFault word ⟨.literalRange, word.span⟩ :=
    .literalRange parts.symm (fun _ => List.mem_takeWhile_imp) large
  exact ⟨_, read_of_numberFault wrong, rfl, rfl, rfl⟩

/-- If the digits in front fit, the first character that is none is blamed alone. -/
theorem read_of_stray (stray : ¬∀ digit ∈ word.text, digit.isDigit)
    (fits : Nat.ofDigitChars 10 (word.text.takeWhile Char.isDigit) 0 ≤ Word.maxValue) :
    ∃ character rest, word.text = word.text.takeWhile Char.isDigit ++ character :: rest ∧
      ¬character.isDigit ∧ IsBlamed word.token "invalid digit for base 10 literal"
        (Span.ofText (word.offset + Text.size (word.text.takeWhile Char.isDigit)) [character]) := by
  have parts := List.takeWhile_append_dropWhile (p := Char.isDigit) (l := word.text)
  have stop := List.head?_dropWhile_not Char.isDigit word.text
  cases rest : word.text.dropWhile Char.isDigit with
  | nil =>
    rw [List.dropWhile_eq_nil_iff] at rest
    exact absurd rest stray
  | cons character others =>
    rw [rest] at parts stop
    have other : ¬character.isDigit := ne_true_of_eq_false stop
    have wrong := NumberFault.invalidDigit parts.symm (fun _ => List.mem_takeWhile_imp) fits other
    exact ⟨character, others, parts.symm, other, _, read_of_numberFault wrong, rfl, rfl, rfl⟩

/-- **Numbers are read exactly.** A word at a span of a text is read as a value if and only if all
of its characters are digits that stand for this value, with any number of zeros in front; such a
value there is if the digits stand for a number that fits a word. Otherwise the digits that the word
starts with decide. If they do not fit, the literal is out of range, on the span of the whole word.
If they do, the first character that is no digit is invalid, on exactly its own bytes. -/
theorem read_exact {text word : Text} {span : Span} (placed : span.text? text = some word) :
    let token : Token := ⟨.word, span, word⟩
    let digits : Text := word.takeWhile Char.isDigit
    (∀ value : Word, read token = .ok value ↔
      (∀ digit ∈ word, digit.isDigit) ∧ Nat.ofDigitChars 10 word 0 = value.toNat) ∧
    ((∃ value, read token = .ok value) ↔
      (∀ digit ∈ word, digit.isDigit) ∧ Nat.ofDigitChars 10 word 0 ≤ Word.maxValue) ∧
    (∀ (count : Nat) (value : Word),
      word = List.replicate count '0' ++ value.decimal.toList → read token = .ok value) ∧
    (Word.maxValue < Nat.ofDigitChars 10 digits 0 →
      IsBlamed token "literal out of range for 16-bit integer" span) ∧
    (¬(∀ digit ∈ word, digit.isDigit) → Nat.ofDigitChars 10 digits 0 ≤ Word.maxValue →
      ∃ character rest blamed, word = digits ++ character :: rest ∧ ¬character.isDigit ∧
        IsBlamed token "invalid digit for base 10 literal" blamed ∧
        blamed.start = span.start + digits.size ∧ blamed.text? text = some [character]) := by
  intro token digits
  obtain ⟨first, last, whole, start, stop⟩ := Text.slice?_eq_some_iff.mp placed
  have same : token = Piece.token ⟨span.start, word⟩ := token_of_text? placed
  have spanned : span = Piece.span ⟨span.start, word⟩ := congrArg Token.span same
  rw [same]
  refine ⟨fun value => read_ok_iff, ?_, ?_, ?_, ?_⟩
  · rw [← exists_isNumeral_iff]
    exact exists_congr fun value => read_ok_iff
  · rintro count value rfl
    exact read_ok_iff.mpr ((isNumeral_decimal value).zeros count)
  · intro large
    have blamed := @read_of_large ⟨span.start, word⟩ large
    rwa [← spanned] at blamed
  · intro stray fits
    obtain ⟨character, rest, parts, wrong, blamed⟩ := @read_of_stray ⟨span.start, word⟩ stray fits
    refine ⟨character, rest, _, parts, wrong, blamed, rfl, ?_⟩
    -- What stands before the character is what stands before the word, and its digits.
    refine Text.slice?_eq_some_iff.mpr ⟨first ++ digits, rest ++ last, ?_, ?_, ?_⟩
    · rw [whole]
      rw [show word = digits ++ character :: rest from parts]
      simp only [List.append_assoc, List.cons_append, List.nil_append]
    · rw [Text.size_append, start]
      rfl
    · rw [Text.size_append, start]
      rfl

/-- A number with zeros in front, one that is too large, and one with a stray character. -/
theorem read_exact_samples :
    read ⟨.word, ⟨0, 3⟩, "007".toList⟩ = .ok 7 ∧
    IsBlamed ⟨.word, ⟨4, 10⟩, "65536x".toList⟩ "literal out of range for 16-bit integer"
      ⟨4, 10⟩ ∧
    ∃ character rest blamed, "12é3".toList = "12".toList ++ character :: rest ∧
      ¬character.isDigit ∧
      IsBlamed ⟨.word, ⟨11, 16⟩, "12é3".toList⟩ "invalid digit for base 10 literal" blamed ∧
      blamed.start = 11 + 2 ∧
      blamed.text? "007 65536x 12é3".toList = some [character] := by
  have zeros := @read_exact "007 65536x 12é3".toList "007".toList ⟨0, 3⟩ (by decide)
  have large := @read_exact "007 65536x 12é3".toList "65536x".toList ⟨4, 10⟩ (by decide)
  have stray := @read_exact "007 65536x 12é3".toList "12é3".toList ⟨11, 16⟩ (by decide)
  have other : ¬∀ digit ∈ "12é3".toList, digit.isDigit := by
    intro digits
    have accented := digits 'é' (by decide)
    cases accented
  exact ⟨zeros.2.2.1 2 7 rfl, large.2.2.2.1 (by decide), stray.2.2.2.2 other (by decide)⟩

end Numeral

end HackToolchain
