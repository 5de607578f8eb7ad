import HackToolchain.Proofs.Names
import Mathlib.Data.List.Basic

/-! # Reading line by line

The reader works on the tokens of a whole text. It might as well work on one line at a time, and on
the words of what comes before the comment of the line: a text is split at line breaks, and the part
of a line before its comment at blank characters (`Text.split`). The readings of a text are those of
its lines (`readings_eq`), and the readings of a line are those of its words (`readTokens_words`)
unless there is a slash before its comment (`readTokens_slash`).
-/

namespace HackToolchain

/-- A piece of a text: the offset that it starts at, and its characters. -/
structure Piece where
  offset : Nat
  text : Text
deriving DecidableEq, Repr

/-- The part of the text that a piece takes up. -/
def Piece.span (piece : Piece) : Span :=
  Span.ofText piece.offset piece.text

namespace Text

/-- Splits a text that starts at an offset at the characters that separate, which are left out. -/
def split (separates : Char → Bool) : (offset : Nat) → Text → List Piece
  | offset, [] => [⟨offset, []⟩]
  | offset, character :: rest =>
    if separates character then
      ⟨offset, []⟩ :: split separates (offset + character.utf8Size) rest
    else (split separates (offset + character.utf8Size) rest).modifyHead fun next =>
      ⟨offset, character :: next.text⟩

section

variable {separates : Char → Bool}

/-- The first piece of a text starts where the text does. -/
theorem exists_split_eq_cons (offset : Nat) (text : Text) :
    ∃ first rest, split separates offset text = ⟨offset, first⟩ :: rest := by
  induction text generalizing offset with
  | nil => exact ⟨[], [], rfl⟩
  | cons character others hypothesis =>
    rw [split]
    split
    · exact ⟨[], _, rfl⟩
    · obtain ⟨first, rest, found⟩ := hypothesis (offset + character.utf8Size)
      rw [found]
      exact ⟨character :: first, rest, rfl⟩

/-- A text without separators is one piece. -/
theorem split_of_forall {offset : Nat} {text : Text}
    (plain : ∀ character ∈ text, ¬separates character) :
    split separates offset text = [⟨offset, text⟩] := by
  induction text generalizing offset with
  | nil => rfl
  | cons character rest hypothesis =>
    rw [List.forall_mem_cons] at plain
    rw [split, if_neg plain.1, hypothesis plain.2]
    rfl

/-- The first separator ends the first piece. -/
theorem split_append_cons {offset : Nat} {first rest : Text} {separator : Char}
    (plain : ∀ character ∈ first, ¬separates character) (found : separates separator) :
    split separates offset (first ++ separator :: rest) =
      ⟨offset, first⟩ :: split separates (offset + first.size + separator.utf8Size) rest := by
  induction first generalizing offset with
  | nil =>
    rw [List.nil_append, split, if_pos found]
    rfl
  | cons character others hypothesis =>
    rw [List.forall_mem_cons] at plain
    rw [List.cons_append, split, if_neg plain.1, hypothesis plain.2, List.modifyHead_cons,
      size_cons, ← Nat.add_assoc offset]

/-- A piece has no separator in it. -/
theorem not_separates_of_mem_split {offset : Nat} {text : Text} {piece : Piece}
    (member : piece ∈ split separates offset text) :
    ∀ character ∈ piece.text, ¬separates character := by
  induction text generalizing offset piece with
  | nil =>
    rw [split, List.mem_singleton] at member
    subst member
    nofun
  | cons character rest hypothesis =>
    rw [split] at member
    split at member
    · rcases List.mem_cons.mp member with rfl | later
      · nofun
      · exact hypothesis later
    · rename_i kept
      obtain ⟨first, others, found⟩ := @exists_split_eq_cons separates
        (offset + character.utf8Size) rest
      have plain : ∀ piece ∈ ⟨offset + character.utf8Size, first⟩ :: others,
          ∀ other ∈ piece.text, ¬separates other := by
        rw [← found]
        exact fun piece => hypothesis
      rw [found, List.modifyHead_cons] at member
      rcases List.mem_cons.mp member with rfl | later
      · exact List.forall_mem_cons.mpr ⟨kept, plain _ List.mem_cons_self⟩
      · exact plain piece (List.mem_cons_of_mem _ later)

/-- Pieces come one after another. -/
theorem pairwise_split (offset : Nat) (text : Text) :
    (∀ piece ∈ split separates offset text, offset ≤ piece.offset) ∧
      (split separates offset text).Pairwise fun first second =>
        first.span.stop ≤ second.offset := by
  induction text generalizing offset with
  | nil => exact ⟨by simp [split], List.pairwise_singleton _ _⟩
  | cons character others hypothesis =>
    obtain ⟨later, ordered⟩ := hypothesis (offset + character.utf8Size)
    rw [split]
    split
    · refine ⟨?_, List.pairwise_cons.mpr ⟨?_, ordered⟩⟩
      · rw [List.forall_mem_cons]
        exact ⟨Nat.le_refl _, fun piece member => by have := later piece member; omega⟩
      · intro piece member
        exact Nat.le_trans (Nat.le_add_right _ _) (later piece member)
    · obtain ⟨first, rest, found⟩ := @exists_split_eq_cons separates
        (offset + character.utf8Size) others
      rw [found, List.forall_mem_cons] at later
      rw [found, List.pairwise_cons] at ordered
      rw [found, List.modifyHead_cons, List.forall_mem_cons, List.pairwise_cons]
      refine ⟨⟨Nat.le_refl _, ?_⟩, ?_, ordered.2⟩
      · intro piece member
        exact Nat.le_trans (Nat.le_add_right _ _) (later.2 piece member)
      · intro piece member
        have start := ordered.1 piece member
        simp only [Piece.span, Span.ofText, size_cons] at start ⊢
        omega

end

/-- The words of a text that starts at an offset. -/
def words (offset : Nat) (text : Text) : List Piece :=
  (split isBlank offset text).filter fun piece => !piece.text.isEmpty

/-- Blanks at the start only move the words. -/
theorem words_blank_append {offset : Nat} {blanks rest : Text}
    (blank : ∀ character ∈ blanks, isBlank character) :
    words offset (blanks ++ rest) = words (offset + blanks.size) rest := by
  induction blanks generalizing offset with
  | nil => rfl
  | cons character others hypothesis =>
    rw [List.forall_mem_cons] at blank
    rw [List.cons_append, words, split, if_pos blank.1, List.filter_cons_of_neg (by simp), ← words,
      hypothesis blank.2, size_cons, Nat.add_assoc]

/-- A word ends where the text ends, or at a blank character. -/
theorem words_append {offset : Nat} {word rest : Text} (some : word ≠ [])
    (plain : ∀ character ∈ word, ¬isBlank character)
    (ends : ∀ character ∈ rest.head?, isBlank character) :
    words offset (word ++ rest) = ⟨offset, word⟩ :: words (offset + word.size) rest := by
  have kept : (!word.isEmpty) = true := by simpa using some
  cases rest with
  | nil =>
    rw [List.append_nil, words, split_of_forall plain]
    simp only [List.filter_cons, kept, ↓reduceIte]
    rfl
  | cons character others =>
    have blank : isBlank character := ends character rfl
    rw [words, split_append_cons plain blank]
    simp only [List.filter_cons, kept, ↓reduceIte]
    congr 1
    rw [words, split, if_pos blank, List.filter_cons_of_neg (by simp)]

end Text

/-! ## Lines -/

/-- What is accepted at the start of a text ends at a mark that is refused. -/
theorem takeWhile_append_cons {accepts : Char → Bool} {first rest : Text} {mark : Char}
    (refused : ¬accepts mark) :
    (first ++ mark :: rest).takeWhile accepts = first.takeWhile accepts ∧
      (first ++ mark :: rest).dropWhile accepts = first.dropWhile accepts ++ mark :: rest := by
  induction first with
  | nil => simp [refused]
  | cons character others hypothesis =>
    by_cases accepted : accepts character
    · simpa [accepted] using hypothesis
    · simp [accepted]

namespace Token

/-- A token that starts on a line is not longer than the line. -/
theorem first_append_newline {character : Char} (other : character ≠ '\n') (line rest : Text) :
    first character (line ++ '\n' :: rest) = ((first character line).1,
      (first character line).2.1, (first character line).2.2 ++ '\n' :: rest) := by
  have taken : ∀ (kind : TokenKind) (accepts : Char → Bool), ¬accepts '\n' →
      (kind, (line ++ '\n' :: rest).takeWhile accepts, (line ++ '\n' :: rest).dropWhile accepts) =
        (kind, line.takeWhile accepts, line.dropWhile accepts ++ '\n' :: rest) := by
    intro kind accepts refused
    obtain ⟨take, drop⟩ := @takeWhile_append_cons accepts line rest '\n' refused
    rw [take, drop]
  have comment : (line ++ '\n' :: rest).head? = some '/' ↔ line.head? = some '/' := by
    cases line <;> simp
  simp only [first, if_neg other, comment]
  split
  · exact taken _ _ (by decide)
  · split
    · split
      · exact taken _ _ (by decide)
      · rfl
    · exact taken _ _ (by decide)

/-- The tokens of a text are those of its first line, a line break, and those of the rest. -/
theorem scanFrom_append_newline {offset : Nat} {line rest : Text} (single : '\n' ∉ line) :
    scanFrom offset (line ++ '\n' :: rest) = scanFrom offset line ++
      ⟨.newline, Span.ofText (offset + line.size) ['\n'], ['\n']⟩ ::
        scanFrom (offset + line.size + 1) rest := by
  fun_induction scanFrom offset line with
  | case1 offset =>
    rw [List.nil_append, scanFrom]
    rfl
  | case2 offset character others found lexeme hypothesis =>
    have other : character ≠ '\n' := fun same => single (same ▸ List.mem_cons_self)
    have whole := first_append character others
    have inner : '\n' ∉ found.2.2 := by
      intro member
      apply single
      rw [← whole]
      exact List.mem_cons_of_mem _ (List.mem_append_right _ member)
    have length : lexeme.size + Text.size found.2.2 = Text.size (character :: others) := by
      rw [← whole, ← Text.size_append]
      rfl
    rw [List.cons_append, scanFrom, first_append_newline other]
    change _ :: scanFrom (offset + lexeme.size) (found.2.2 ++ '\n' :: rest) = _
    rw [hypothesis inner, List.cons_append, Nat.add_assoc offset, length]

end Token

namespace Command

/-- A line break ends the reading of a line. -/
theorem readTokens_append_newline {newline : Token} (kind : newline.kind = .newline)
    (words tokens rest : List Token) :
    readTokens words (tokens ++ newline :: rest) =
      readTokens words tokens ++ readTokens [] rest := by
  induction tokens generalizing words with
  | nil =>
    simp only [List.nil_append, readTokens, kind]
  | cons token others hypothesis =>
    rw [List.cons_append, readTokens, readTokens]
    cases token.kind with
    | newline => simp only [hypothesis, List.append_assoc]
    | blank | comment | word => exact hypothesis _
    | strayMark => simp only [hypothesis, List.cons_append]

/-- The readings of a line. -/
def lineReadings (line : Piece) : List Reading :=
  readTokens [] (Token.scanFrom line.offset line.text)

/-- A line that goes on with more text, which can have further lines. -/
theorem readTokens_append {line : Text} (single : '\n' ∉ line) (offset : Nat) (text : Text) :
    readTokens [] (Token.scanFrom offset (line ++ text)) =
      (Text.split (· == '\n') offset (line ++ text)).flatMap lineReadings := by
  have plain : ∀ {line : Text}, '\n' ∉ line → ∀ character ∈ line, ¬(character == '\n') = true := by
    intro line single character member same
    exact single (beq_iff_eq.mp same ▸ member)
  induction text generalizing line offset with
  | nil =>
    rw [List.append_nil, Text.split_of_forall (plain single), List.flatMap_singleton]
    rfl
  | cons character rest hypothesis =>
    by_cases ends : character = '\n'
    · subst ends
      have further := hypothesis List.not_mem_nil (offset + line.size + 1)
      rw [List.nil_append] at further
      rw [Token.scanFrom_append_newline single, readTokens_append_newline rfl, further,
        Text.split_append_cons (plain single) rfl, List.flatMap_cons]
      rfl
    · have longer : '\n' ∉ line ++ [character] := by
        rw [List.mem_append, List.mem_singleton, not_or]
        exact ⟨single, Ne.symm ends⟩
      have further := hypothesis longer offset
      rw [List.append_assoc] at further
      exact further

end Command

/-- The lines of a text. -/
def Text.locatedLines (text : Text) : List Piece :=
  split (· == '\n') 0 text

/-- A line has no line break in it. -/
theorem Text.single_of_mem_locatedLines {text : Text} {line : Piece}
    (member : line ∈ text.locatedLines) : '\n' ∉ line.text :=
  fun newline => not_separates_of_mem_split member '\n' newline rfl

/-- The readings of a text are those of its lines. -/
theorem Command.readings_eq (text : Text) :
    readings text = text.locatedLines.flatMap lineReadings :=
  readTokens_append List.not_mem_nil 0 text

/-! ## Words -/

/-- The token at the start of a line: blank characters, a comment, a slash that starts no comment,
or a word. -/
theorem Token.first_cases {character : Char} {rest : Text} (single : '\n' ∉ character :: rest) :
    ((first character rest).1 = .blank ∧
        ∀ other ∈ character :: (first character rest).2.1, isBlank other) ∨
      (character = '/' ∧ rest.head? = some '/' ∧ (first character rest).1 = .comment ∧
        (first character rest).2.2 = []) ∨
      (character = '/' ∧ rest.head? ≠ some '/' ∧ first character rest = (.strayMark, [], rest)) ∨
      ((first character rest).1 = .word ∧
        (∀ other ∈ character :: (first character rest).2.1, isWordCharacter other) ∧
        ∀ other ∈ (first character rest).2.2.head?, ¬isWordCharacter other) := by
  rw [List.mem_cons, not_or] at single
  have other : character ≠ '\n' := Ne.symm single.1
  by_cases blank : isBlank character
  · left
    have found : first character rest =
        (.blank, rest.takeWhile isInnerBlank, rest.dropWhile isInnerBlank) := by
      simp only [first, if_neg other, if_pos blank]
    rw [found]
    refine ⟨rfl, ?_⟩
    intro other member
    rcases List.mem_cons.mp member with rfl | later
    · exact blank
    · have inner := List.mem_takeWhile_imp later
      rw [isInnerBlank, Bool.and_eq_true] at inner
      exact inner.1
  · right
    by_cases slash : character = '/'
    · by_cases comment : rest.head? = some '/'
      · left
        have found : first character rest =
            (.comment, rest.takeWhile (· != '\n'), rest.dropWhile (· != '\n')) := by
          simp only [first, if_neg other, if_neg blank, if_pos slash, if_pos comment]
        rw [found]
        refine ⟨slash, comment, rfl, ?_⟩
        rw [List.dropWhile_eq_nil_iff]
        intro later member
        exact bne_iff_ne.mpr fun same => single.2 (same ▸ member)
      · right
        left
        refine ⟨slash, comment, ?_⟩
        simp only [first, if_neg other, if_neg blank, if_pos slash, if_neg comment]
    · right
      right
      have found : first character rest =
          (.word, rest.takeWhile isWordCharacter, rest.dropWhile isWordCharacter) := by
        simp only [first, if_neg other, if_neg blank, if_neg slash]
      refine ⟨by rw [found], isWord_of_first (by rw [found]), ?_⟩
      intro next head accepted
      have stop := List.head?_dropWhile_not isWordCharacter rest
      rw [found] at head
      rw [Option.mem_def.mp head] at stop
      exact Bool.false_ne_true (stop.symm.trans accepted)

namespace Piece

/-- A word of a text, as a token. -/
def token (word : Piece) : Token :=
  ⟨.word, word.span, word.text⟩

/-- The part of a line before its comment. -/
def code (line : Piece) : Text :=
  Text.beforeComment line.text

/-- The words of a line. -/
def words (line : Piece) : List Piece :=
  Text.words line.offset line.code

end Piece

/-- A mark that is refused is not in a text where all is accepted. -/
theorem not_mem_of_forall {accepts : Char → Bool} {text : Text} {mark : Char}
    (all : ∀ character ∈ text, accepts character) (refused : ¬accepts mark) : mark ∉ text :=
  fun member => refused (all mark member)

namespace Text

/-- Nothing is before a comment at the start. -/
theorem beforeComment_comment {rest : Text} (comment : rest.head? = some '/') :
    beforeComment ('/' :: rest) = [] := by
  cases rest with
  | nil => cases comment
  | cons next others =>
    cases comment
    rfl

/-- A slash that is alone is no comment. -/
theorem beforeComment_slash {rest : Text} (alone : rest.head? ≠ some '/') :
    beforeComment ('/' :: rest) = '/' :: beforeComment rest := by
  rw [beforeComment]
  rintro others - rfl
  exact alone rfl

/-- What comes after a word starts with a blank character, unless there is a slash in it. -/
theorem isBlank_of_head?_beforeComment {text : Text} (free : '/' ∉ beforeComment text)
    (stop : ∀ other ∈ text.head?, ¬isWordCharacter other) :
    ∀ other ∈ (beforeComment text).head?, isBlank other := by
  cases text with
  | nil => nofun
  | cons character rest =>
    have refused := stop character rfl
    by_cases slash : character = '/'
    · subst slash
      by_cases comment : rest.head? = some '/'
      · rw [beforeComment_comment comment]
        nofun
      · rw [beforeComment_slash comment] at free
        exact absurd List.mem_cons_self free
    · have kept := @beforeComment_append [character] (by simpa using Ne.symm slash) rest
      rw [List.singleton_append] at kept
      rw [kept]
      intro other head
      cases head
      simpa [isWordCharacter, slash] using refused

end Text

namespace Command

/-- A line without a slash before its comment is read word by word. -/
theorem readTokens_words {offset : Nat} {text : Text} (single : '\n' ∉ text)
    (free : '/' ∉ Text.beforeComment text) (before : List Token) :
    readTokens before (Token.scanFrom offset text) = readWords (before.reverse ++
      (Text.words offset (Text.beforeComment text)).map Piece.token) := by
  fun_induction Token.scanFrom offset text generalizing before with
  | case1 offset =>
    rw [Text.beforeComment]
    change _ = readWords (before.reverse ++ [])
    rw [List.append_nil, readTokens]
  | case2 offset character rest found lexeme hypothesis =>
    have whole : character :: rest = lexeme ++ found.2.2 :=
      congrArg (character :: ·) (Token.first_append character rest).symm
    have inner : '\n' ∉ found.2.2 := by
      rw [whole] at single
      exact fun member => single (List.mem_append_right _ member)
    rcases Token.first_cases single with ⟨kind, blank⟩ | ⟨rfl, comment, kind, ends⟩ |
      ⟨rfl, alone, -⟩ | ⟨kind, word, stop⟩
    · have kept := Text.beforeComment_append (not_mem_of_forall blank (by decide)) found.2.2
      rw [whole, kept] at free ⊢
      rw [readTokens, kind, Text.words_blank_append blank]
      exact hypothesis inner (fun member => free (List.mem_append_right _ member)) before
    · rw [readTokens, kind, ends, Token.scanFrom, Text.beforeComment_comment comment]
      change readTokens before [] = readWords (before.reverse ++ [])
      rw [List.append_nil, readTokens]
    · rw [Text.beforeComment_slash alone] at free
      exact absurd List.mem_cons_self free
    · have plain : ∀ other ∈ lexeme, ¬isBlank other := by
        intro other member
        have both := word other member
        rw [isWordCharacter, Bool.and_eq_true] at both
        simpa using both.1
      have kept := Text.beforeComment_append (not_mem_of_forall word (by decide)) found.2.2
      rw [whole, kept] at free ⊢
      have clear : '/' ∉ Text.beforeComment found.2.2 :=
        fun member => free (List.mem_append_right _ member)
      have blank := Text.isBlank_of_head?_beforeComment clear stop
      rw [readTokens, kind, Text.words_append (List.cons_ne_nil _ _) plain blank]
      change readTokens (Piece.token ⟨offset, lexeme⟩ :: before) _ = _
      rw [hypothesis inner clear, List.reverse_cons, List.append_assoc, List.map_cons]
      rfl

/-- The first slash before the comment of a line is the first thing that is read. -/
theorem readTokens_slash {offset : Nat} {text : Text} (single : '\n' ∉ text)
    (slash : '/' ∈ Text.beforeComment text) (before : List Token) :
    ∃ rest, readTokens before (Token.scanFrom offset text) = .error ⟨.unexpectedCharacter,
      Span.ofText (offset + Text.size ((Text.beforeComment text).takeWhile (· != '/'))) ['/']⟩ ::
        rest := by
  fun_induction Token.scanFrom offset text generalizing before with
  | case1 offset => cases slash
  | case2 offset character rest found lexeme hypothesis =>
    have whole : character :: rest = lexeme ++ found.2.2 :=
      congrArg (character :: ·) (Token.first_append character rest).symm
    have inner : '\n' ∉ found.2.2 := by
      rw [whole] at single
      exact fun member => single (List.mem_append_right _ member)
    -- A token without a slash is passed over.
    have skip : '/' ∉ lexeme → '/' ∈ Text.beforeComment found.2.2 ∧ offset +
        Text.size ((Text.beforeComment (character :: rest)).takeWhile (· != '/')) =
          offset + lexeme.size +
            Text.size ((Text.beforeComment found.2.2).takeWhile (· != '/')) := by
      intro free
      rw [whole, Text.beforeComment_append free] at slash ⊢
      refine ⟨(List.mem_append.mp slash).resolve_left free, ?_⟩
      rw [List.takeWhile_append_of_pos, Text.size_append, Nat.add_assoc]
      intro other member
      exact bne_iff_ne.mpr fun same => free (same ▸ member)
    rcases Token.first_cases single with ⟨kind, blank⟩ | ⟨rfl, comment, kind, ends⟩ |
      ⟨rfl, alone, same⟩ | ⟨kind, word, stop⟩
    · obtain ⟨later, shifted⟩ := skip (not_mem_of_forall blank (by decide))
      rw [readTokens, kind, shifted]
      exact hypothesis inner later before
    · rw [Text.beforeComment_comment comment] at slash
      cases slash
    · have kind : found.1 = .strayMark := congrArg Prod.fst same
      have text : lexeme = ['/'] := congrArg (fun token => '/' :: token.2.1) same
      rw [readTokens, kind, text, Text.beforeComment_slash alone]
      exact ⟨_, rfl⟩
    · obtain ⟨later, shifted⟩ := skip (not_mem_of_forall word (by decide))
      rw [readTokens, kind, shifted]
      exact hypothesis inner later _

/-- A line without a slash is read as its words. -/
theorem lineReadings_of_free {line : Piece} (single : '\n' ∉ line.text) (free : '/' ∉ line.code) :
    lineReadings line = readWords (line.words.map Piece.token) :=
  readTokens_words single free []

/-- A text without a slash before the comments of its lines is read word by word. -/
theorem readings_of_free {text : Text} (free : ∀ line ∈ text.locatedLines, '/' ∉ line.code) :
    readings text =
      text.locatedLines.flatMap fun line => readWords (line.words.map Piece.token) := by
  rw [readings_eq]
  apply List.flatMap_congr
  intro line member
  exact lineReadings_of_free (Text.single_of_mem_locatedLines member) (free line member)

end Command

end HackToolchain
