import HackToolchain.Proofs.Linking
import HackToolchain.Proofs.SymbolAddresses
import Mathlib.Data.List.TakeWhile

/-! # The grammar of instructions

What the second pass of the assembler accepts on a line, and what it blames on a line that it does
not accept, said by the characters of the line. An instruction that computes has up to three parts
(`Cuts`); each has its own spellings, and of several wrong parts the destination is blamed before
the jump, and the jump before the computation. Every line is good or at fault (`isGood_or_fault`),
and the decoders agree (`decodeCompute_of_isCompute`, `decodeCompute_of_fault`), as does the second
pass (`pushLine_of_decodable`, `pushLine_of_fault`).
-/

namespace HackToolchain

/-! ## Spellings -/

/-- All ways to write a computation. -/
def Computation.spellings : List String :=
  ["0", "1", "-1", "D", "A", "M", "!D", "!A", "!M", "-D", "-A", "-M", "D+1", "1+D", "A+1", "1+A",
    "M+1", "1+M", "D-1", "A-1", "M-1", "D+A", "A+D", "D+M", "M+D", "D-A", "D-M", "A-D", "M-D",
    "D&A", "A&D", "D&M", "M&D", "D|A", "A|D", "D|M", "M|D"]

/-- All ways to write a jump. -/
def Jump.spellings : List String :=
  ["JGT", "JEQ", "JGE", "JLT", "JNE", "JLE", "JMP"]

/-- A jump is known by its spellings. -/
theorem Jump.isSome_ofText?_iff {text : String} :
    (ofText? text).isSome ↔ text ∈ spellings := by
  have known : ∀ jump ∈ written, jump.text ∈ spellings := by decide
  have found : ∀ text ∈ spellings, (ofText? text).isSome := by decide
  constructor
  · intro some
    obtain ⟨jump, same⟩ := Option.isSome_iff_exists.mp some
    have spelled : jump.text = text := by simpa using List.find?_some same
    rw [← spelled]
    exact known jump (List.mem_of_find?_eq_some same)
  · exact found text

namespace Computation

/-- The texts that become a given one when an `A` is written for every `M`. -/
def sources : Text → List Text
  | [] => [[]]
  | letter :: rest =>
    (if letter = 'A' then ['A', 'M'] else [letter]).flatMap fun source =>
      (sources rest).map (source :: ·)

/-- A text is among those that become the same when an `A` is written for every `M`. -/
theorem mem_sources (text : Text) :
    text ∈ sources (text.map fun letter => if letter = 'M' then 'A' else letter) := by
  induction text with
  | nil => exact List.mem_singleton.mpr rfl
  | cons letter rest hypothesis =>
    rw [List.map_cons, sources, List.mem_flatMap]
    refine ⟨letter, ?_, List.mem_map_of_mem hypothesis⟩
    by_cases memory : letter = 'M'
    · subst memory
      decide
    · rw [if_neg memory]
      split
      · rename_i address
        rw [address]
        decide
      · exact List.mem_singleton.mpr rfl

/-- A computation on `M` is spelled as the one on `A`. -/
theorem isSome_ofText?_iff {text : Text} :
    (ofText? (String.ofList (text.map fun letter => if letter = 'M' then 'A' else letter))).isSome ↔
      String.ofList text ∈ spellings := by
  have known : ∀ computation ∈ all, ∀ spelling ∈ computation.texts,
      ∀ source ∈ sources spelling.toList, String.ofList source ∈ spellings := by decide
  have found : ∀ spelling ∈ spellings, (ofText? (String.ofList (spelling.toList.map fun letter =>
      if letter = 'M' then 'A' else letter))).isSome := by decide
  constructor
  · intro some
    obtain ⟨computation, same⟩ := Option.isSome_iff_exists.mp some
    have spelled := List.find?_some same
    rw [decide_eq_true_iff] at spelled
    refine known computation (List.mem_of_find?_eq_some same) _ spelled text ?_
    rw [String.toList_ofList]
    exact mem_sources text
  · intro listed
    have accepted := found _ listed
    rwa [String.toList_ofList] at accepted

end Computation

/-! ## Texts with parts -/

namespace Text

/-- A text without the separator cannot be split. -/
theorem splitOnce?_of_not_mem {separator : Char} {text : Text} (free : separator ∉ text) :
    text.splitOnce? separator = none := by
  have all : ∀ character ∈ text, (character != separator) = true := by
    intro character member
    exact bne_iff_ne.mpr fun same => free (same ▸ member)
  rw [splitOnce?, List.dropWhile_eq_nil_iff.mpr all]

/-- A text is split at its first separator. -/
theorem splitOnce?_append_cons {separator : Char} {before : Text} (free : separator ∉ before)
    (after : Text) :
    (before ++ separator :: after).splitOnce? separator = some (before, after) := by
  have all : ∀ character ∈ before, (character != separator) = true := by
    intro character member
    exact bne_iff_ne.mpr fun same => free (same ▸ member)
  rw [splitOnce?, List.dropWhile_append_of_pos all, List.takeWhile_append_of_pos all,
    List.dropWhile_cons_of_neg (by simp), List.takeWhile_cons_of_neg (by simp), List.append_nil]

end Text

/-- The text of an instruction with a computation, and with a destination and a jump if they are
given. -/
def computeText (destination : Option Text) (computation : Text) (jump : Option Text) : Text :=
  destination.elim [] (· ++ ['=']) ++ computation ++ jump.elim [] (';' :: ·)

/-- A text consists of a destination before its first equals sign, a jump behind the first semicolon
that follows, and a computation between them; the first and the last part can be missing. -/
structure Cuts (text : Text) (destination : Option Text) (computation : Text)
    (jump : Option Text) : Prop where
  whole : text = computeText destination computation jump
  equals : destination.elim ('=' ∉ text) ('=' ∉ ·)
  semicolon : ';' ∉ computation

/-- Every text can be cut up into a destination, a computation and a jump. -/
theorem exists_cuts (text : Text) :
    ∃ destination computation jump, Cuts text destination computation jump := by
  have behind : ∀ rest : Text, ∃ computation jump,
      rest = computation ++ Option.elim jump [] (';' :: ·) ∧ ';' ∉ computation := by
    intro rest
    by_cases marked : ';' ∈ rest
    · obtain ⟨computation, jump, parts, free⟩ := List.eq_append_cons_of_mem marked
      exact ⟨computation, some jump, parts, free⟩
    · exact ⟨rest, none, (List.append_nil rest).symm, marked⟩
  by_cases marked : '=' ∈ text
  · obtain ⟨destination, rest, parts, free⟩ := List.eq_append_cons_of_mem marked
    obtain ⟨computation, jump, remaining, single⟩ := behind rest
    refine ⟨some destination, computation, jump, ?_, free, single⟩
    rw [parts, remaining, computeText]
    simp
  · obtain ⟨computation, jump, whole, single⟩ := behind text
    exact ⟨none, computation, jump, whole, marked, single⟩

/-- Whether a destination is written with the letters `A`, `D` and `M`. -/
def IsDestination (letters : Text) : Prop :=
  ∀ letter ∈ letters, letter = 'A' ∨ letter = 'D' ∨ letter = 'M'

/-- A text that stands for an instruction that computes. -/
inductive IsCompute (text : Text) : Prop
  | intro {destination : Option Text} {computation : Text} {jump : Option Text}
    (whole : text = computeText destination computation jump)
    (letters : ∀ letters ∈ destination, IsDestination letters)
    (known : String.ofList computation ∈ Computation.spellings)
    (condition : ∀ written ∈ jump, String.ofList written ∈ Jump.spellings)

/-- What is wrong with a text that stands for no instruction. -/
inductive ComputeFault (text : Text) : AssemblyCause → Prop
  | destination {letters computation : Text} {jump : Option Text}
    (cuts : Cuts text (some letters) computation jump) (wrong : ¬IsDestination letters) :
    ComputeFault text (.unknownDestination (String.ofList letters))
  | jump {destination : Option Text} {computation written : Text}
    (cuts : Cuts text destination computation (some written))
    (letters : ∀ letters ∈ destination, IsDestination letters)
    (wrong : String.ofList written ∉ Jump.spellings) :
    ComputeFault text (.unknownJump (String.ofList written))
  | computation {destination : Option Text} {computation : Text} {jump : Option Text}
    (cuts : Cuts text destination computation jump)
    (letters : ∀ letters ∈ destination, IsDestination letters)
    (condition : ∀ written ∈ jump, String.ofList written ∈ Jump.spellings)
    (wrong : String.ofList computation ∉ Computation.spellings) :
    ComputeFault text (.unknownComputation (String.ofList computation))

/-- A text is an instruction that computes, or there is a fault in it. -/
theorem isCompute_or_fault (text : Text) : IsCompute text ∨ ∃ cause, ComputeFault text cause := by
  obtain ⟨destination, computation, jump, cuts⟩ := exists_cuts text
  by_cases letters : ∀ letters ∈ destination, IsDestination letters
  · by_cases condition : ∀ written ∈ jump, String.ofList written ∈ Jump.spellings
    · by_cases known : String.ofList computation ∈ Computation.spellings
      · exact .inl ⟨cuts.whole, letters, known, condition⟩
      · exact .inr ⟨_, .computation cuts letters condition known⟩
    · cases jump with
      | none => exact absurd nofun condition
      | some written =>
        have wrong : String.ofList written ∉ Jump.spellings := by simpa using condition
        exact .inr ⟨_, .jump cuts letters wrong⟩
  · cases destination with
    | none => exact absurd nofun letters
    | some given =>
      have wrong : ¬IsDestination given := by simpa using letters
      exact .inr ⟨_, .destination cuts wrong⟩

/-- The parts of an instruction are those that it is cut into. -/
theorem cuts_of_good {destination : Option Text} {computation : Text} {jump : Option Text}
    (letters : ∀ letters ∈ destination, IsDestination letters)
    (known : String.ofList computation ∈ Computation.spellings)
    (condition : ∀ written ∈ jump, String.ofList written ∈ Jump.spellings) :
    Cuts (computeText destination computation jump) destination computation jump := by
  -- No spelling has one of the two marks in it, so the first marks are those between the parts.
  have marks : ∀ spelling ∈ Computation.spellings,
      '=' ∉ spelling.toList ∧ ';' ∉ spelling.toList := by decide
  have jumps : ∀ spelling ∈ Jump.spellings, '=' ∉ spelling.toList := by decide
  have free := marks _ known
  rw [String.toList_ofList] at free
  refine ⟨rfl, ?_, free.2⟩
  cases destination with
  | some given =>
    intro member
    rcases letters given rfl '=' member with same | same | same
    all_goals exact absurd same (by decide)
  | none =>
    cases jump with
    | none => simpa [computeText] using free.1
    | some written =>
      have apart := jumps _ (condition written rfl)
      rw [String.toList_ofList] at apart
      simp [computeText, free.1, apart]

namespace Program

/-! ## Decoding -/

/-- What follows the destination is decoded part by part: the jump, then the computation. -/
theorem decodeJump_of_cuts {stored : Destination} {computation : Text} {jump : Option Text}
    (single : ';' ∉ computation) :
    (do
      let (known, taken) ← match Text.splitOnce? ';' (computation ++ jump.elim [] (';' :: ·)) with
        | some (before, after) => do pure (before, ← decodeJump after)
        | none => pure (computation ++ jump.elim [] (';' :: ·), .never)
      let (input, known) ← decodeComputation known
      return .compute stored input known taken : Except AssemblyCause Instruction) = (do
        let taken ← jump.elim (pure .never) decodeJump
        let (input, known) ← decodeComputation computation
        return .compute stored input known taken) := by
  cases jump with
  | none =>
    simp only [Option.elim, List.append_nil]
    rw [Text.splitOnce?_of_not_mem single]
    rfl
  | some written =>
    simp only [Option.elim]
    rw [Text.splitOnce?_append_cons single]
    cases given : decodeJump written with
    | error cause =>
      simp only [given]
      rfl
    | ok taken =>
      simp only [given]
      rfl

/-- An instruction is decoded part by part: the destination, the jump and the computation. -/
theorem decodeCompute_of_cuts {text : Text} {destination : Option Text} {computation : Text}
    {jump : Option Text} (cuts : Cuts text destination computation jump) :
    decodeCompute text = (do
      let stored ← destination.elim (pure {}) decodeDestination
      let taken ← jump.elim (pure .never) decodeJump
      let (input, known) ← decodeComputation computation
      return .compute stored input known taken) := by
  obtain ⟨rfl, equals, semicolon⟩ := cuts
  cases destination with
  | none =>
    rw [decodeCompute, Text.splitOnce?_of_not_mem equals]
    exact decodeJump_of_cuts semicolon
  | some letters =>
    have parts : computeText (some letters) computation jump =
        letters ++ '=' :: (computation ++ jump.elim [] (';' :: ·)) := by
      simp [computeText]
    rw [decodeCompute, parts, Text.splitOnce?_append_cons equals]
    cases given : decodeDestination letters with
    | error cause =>
      simp only [Option.elim, given]
      rfl
    | ok stored =>
      simp only [Option.elim, given]
      exact decodeJump_of_cuts semicolon

/-- A good destination can be decoded. -/
theorem decodeDestination_of_isDestination {letters : Text} (good : IsDestination letters) :
    ∃ stored, decodeDestination letters = .ok stored := by
  refine ⟨_, if_pos (List.all_eq_true.mpr ?_)⟩
  intro letter member
  simpa [or_assoc] using good letter member

/-- Any other destination is reported. -/
theorem decodeDestination_of_not {letters : Text} (wrong : ¬IsDestination letters) :
    decodeDestination letters = .error (.unknownDestination (String.ofList letters)) := by
  refine if_neg fun all => wrong fun letter member => ?_
  simpa [or_assoc] using List.all_eq_true.mp all letter member

/-- A known jump can be decoded. -/
theorem decodeJump_of_mem {written : Text} (known : String.ofList written ∈ Jump.spellings) :
    ∃ taken, decodeJump written = .ok taken := by
  obtain ⟨jump, found⟩ := Option.isSome_iff_exists.mp (Jump.isSome_ofText?_iff.mpr known)
  exact ⟨jump, by rw [decodeJump, found]⟩

/-- Any other jump is reported. -/
theorem decodeJump_of_not_mem {written : Text} (wrong : String.ofList written ∉ Jump.spellings) :
    decodeJump written = .error (.unknownJump (String.ofList written)) := by
  rw [← Jump.isSome_ofText?_iff, Option.not_isSome_iff_eq_none] at wrong
  rw [decodeJump, wrong]

/-- A known computation can be decoded. -/
theorem decodeComputation_of_mem {text : Text}
    (known : String.ofList text ∈ Computation.spellings) :
    ∃ result, decodeComputation text = .ok result := by
  obtain ⟨computation, found⟩ :=
    Option.isSome_iff_exists.mp (Computation.isSome_ofText?_iff.mpr known)
  refine ⟨(if text.contains 'M' then .memory else .address, computation), ?_⟩
  simp only [decodeComputation, found]

/-- Any other computation is reported. -/
theorem decodeComputation_of_not_mem {text : Text}
    (wrong : String.ofList text ∉ Computation.spellings) :
    decodeComputation text = .error (.unknownComputation (String.ofList text)) := by
  rw [← Computation.isSome_ofText?_iff, Option.not_isSome_iff_eq_none] at wrong
  simp only [decodeComputation, wrong]

/-- A destination that can be missing. -/
theorem exists_destination {destination : Option Text}
    (letters : ∀ letters ∈ destination, IsDestination letters) :
    ∃ stored, destination.elim (pure {}) decodeDestination = .ok stored := by
  cases destination with
  | none => exact ⟨{}, rfl⟩
  | some given => exact decodeDestination_of_isDestination (letters given rfl)

/-- A jump that can be missing. -/
theorem exists_jump {jump : Option Text}
    (condition : ∀ written ∈ jump, String.ofList written ∈ Jump.spellings) :
    ∃ taken, jump.elim (pure .never) decodeJump = .ok taken := by
  cases jump with
  | none => exact ⟨.never, rfl⟩
  | some written => exact decodeJump_of_mem (condition written rfl)

/-- An instruction that computes can be decoded. -/
theorem decodeCompute_of_isCompute {text : Text} (good : IsCompute text) :
    ∃ instruction, decodeCompute text = .ok instruction := by
  obtain ⟨rfl, letters, known, condition⟩ := good
  obtain ⟨stored, givenDestination⟩ := exists_destination letters
  obtain ⟨taken, givenJump⟩ := exists_jump condition
  obtain ⟨⟨input, computation⟩, given⟩ := decodeComputation_of_mem known
  rw [decodeCompute_of_cuts (cuts_of_good letters known condition), givenDestination, givenJump,
    given]
  exact ⟨_, rfl⟩

/-- The first wrong part is blamed, where the computation is looked at last. -/
theorem decodeCompute_of_fault {text : Text} {cause : AssemblyCause}
    (fault : ComputeFault text cause) : decodeCompute text = .error cause := by
  cases fault with
  | destination cuts wrong =>
    rw [decodeCompute_of_cuts cuts, Option.elim, decodeDestination_of_not wrong]
    rfl
  | jump cuts letters wrong =>
    obtain ⟨stored, given⟩ := exists_destination letters
    rw [decodeCompute_of_cuts cuts, given, Option.elim, decodeJump_of_not_mem wrong]
    rfl
  | computation cuts letters condition wrong =>
    obtain ⟨stored, givenDestination⟩ := exists_destination letters
    obtain ⟨taken, givenJump⟩ := exists_jump condition
    rw [decodeCompute_of_cuts cuts, givenDestination, givenJump, decodeComputation_of_not_mem wrong]
    rfl

end Program

/-! ## Lines -/

/-- Digits whose value an address instruction can hold. -/
def IsAddress (operand : Text) : Prop :=
  operand ≠ [] ∧ (∀ digit ∈ operand, digit.isDigit) ∧
    Nat.ofDigitChars 10 operand 0 ≤ Word.maxAddress

/-- What is wrong with an operand that cannot be loaded: it starts as a number and is none that an
address instruction can hold, or it is no symbol. -/
inductive LoadFault (operand : Text) : AssemblyCause → Prop
  | address (digit : operand.head?.any Char.isDigit) (wrong : ¬IsAddress operand) :
    LoadFault operand .invalidAddress
  | symbol (other : ¬operand.head?.any Char.isDigit) (wrong : ¬isSymbol (String.ofList operand)) :
    LoadFault operand .invalidSymbol

/-- An address starts with a digit. -/
theorem IsAddress.digit {operand : Text} (address : IsAddress operand) :
    operand.head?.any Char.isDigit := by
  obtain ⟨some, digits, -⟩ := address
  cases operand with
  | nil => exact absurd rfl some
  | cons first rest => exact digits first List.mem_cons_self

/-- An operand is an address or a symbol, or there is a fault in it. -/
theorem isAddress_or_isSymbol_or_fault (operand : Text) :
    (IsAddress operand ∨ isSymbol (String.ofList operand)) ∨ ∃ cause, LoadFault operand cause := by
  by_cases digit : operand.head?.any Char.isDigit
  · by_cases address : IsAddress operand
    · exact .inl (.inl address)
    · exact .inr ⟨_, .address digit address⟩
  · by_cases symbol : isSymbol (String.ofList operand)
    · exact .inl (.inr symbol)
    · exact .inr ⟨_, .symbol digit symbol⟩

namespace CodeLine

/-- A line that holds an instruction if it is to hold one. -/
structure IsGood (line : CodeLine) : Prop where
  load : ∀ operand, line.code = '@' :: operand →
    IsAddress operand ∨ isSymbol (String.ofList operand)
  compute : line.code.head? ≠ some '(' → line.code.head? ≠ some '@' → IsCompute line.code

/-- What is wrong with a line that is to hold an instruction and does not. -/
inductive Fault (line : CodeLine) : AssemblyCause → Prop
  | load {operand : Text} {cause : AssemblyCause} (code : line.code = '@' :: operand)
    (wrong : LoadFault operand cause) : Fault line cause
  | compute {cause : AssemblyCause} (bracket : line.code.head? ≠ some '(')
    (mark : line.code.head? ≠ some '@') (wrong : ComputeFault line.code cause) : Fault line cause

/-- A line is good, or there is a fault in it. -/
theorem isGood_or_fault (line : CodeLine) : line.IsGood ∨ ∃ cause, line.Fault cause := by
  by_cases bracket : line.code.head? = some '('
  · refine .inl ⟨?_, fun other => absurd bracket other⟩
    intro operand code
    rw [code] at bracket
    cases bracket
  · by_cases mark : line.code.head? = some '@'
    · obtain ⟨operand, code⟩ := List.head?_eq_some_iff.mp mark
      rcases isAddress_or_isSymbol_or_fault operand with good | ⟨cause, wrong⟩
      · refine .inl ⟨?_, fun _ other => absurd mark other⟩
        intro other same
        cases code.symm.trans same
        exact good
      · exact .inr ⟨cause, .load code wrong⟩
    · rcases isCompute_or_fault line.code with good | ⟨cause, wrong⟩
      · refine .inl ⟨?_, fun _ _ => good⟩
        intro operand code
        exact absurd (congrArg List.head? code) mark
      · exact .inr ⟨cause, .compute bracket mark wrong⟩

/-- A line without a bracket and a load mark is a computation. -/
theorem statement_eq_compute_iff {line : CodeLine} {text : Text} :
    line.statement = .compute text ↔
      line.code.head? ≠ some '(' ∧ line.code.head? ≠ some '@' ∧ line.code = text := by
  unfold statement
  split
  · rename_i rest same
    rw [same]
    split <;> simp
  · rename_i same
    rw [same]
    simp
  · rename_i bracket mark
    have others : line.code.head? ≠ some '(' ∧ line.code.head? ≠ some '@' := by
      constructor
      · intro head
        obtain ⟨rest, same⟩ := List.head?_eq_some_iff.mp head
        exact bracket rest same
      · intro head
        obtain ⟨rest, same⟩ := List.head?_eq_some_iff.mp head
        exact mark rest same
    simp [others]

/-- Good lines can be decoded. -/
theorem IsGood.decodable {line : CodeLine} (good : line.IsGood) : line.statement.Decodable := by
  cases found : line.statement with
  | label _ | unclosed => trivial
  | load operand =>
    rcases good.load operand (statement_eq_load_iff.mp found) with address | symbol
    · rw [Statement.Decodable, if_pos address.digit]
      exact ⟨_, if_pos ⟨List.all_eq_true.mpr address.2.1, address.2.2⟩⟩
    · have name := AssemblyLine.not_digit_of_isSymbol symbol
      rw [String.toList_ofList] at name
      rw [Statement.Decodable, if_neg name]
      exact symbol
  | compute text =>
    obtain ⟨bracket, mark, rfl⟩ := statement_eq_compute_iff.mp found
    exact Program.decodeCompute_of_isCompute (good.compute bracket mark)

end CodeLine

namespace Program

/-- The second pass blames a line at fault. -/
theorem pushLine_of_fault {line : CodeLine} {cause : AssemblyCause} (fault : line.Fault cause)
    (progress : Progress) : progress.pushLine line = .error (.fault line.number cause) := by
  cases fault with
  | @load operand _ code wrong =>
    rw [Progress.pushLine, CodeLine.statement_eq_load_iff.mpr code]
    cases wrong with
    | address digit wrong =>
      have some : operand ≠ [] := by
        rintro rfl
        cases digit
      have refused : decodeNumber operand = .error .invalidAddress :=
        if_neg fun held => wrong ⟨some, List.all_eq_true.mp held.1, held.2⟩
      simp only [digit, ↓reduceIte, refused]
      rfl
    | symbol other wrong => simp only [other, wrong, Bool.false_eq_true, ↓reduceIte]
  | compute bracket mark wrong =>
    rw [Progress.pushLine, CodeLine.statement_eq_compute_iff.mpr ⟨bracket, mark, rfl⟩]
    simp only [decodeCompute_of_fault wrong]
    rfl

/-- A line that can be decoded is added, or it names a new symbol when there is no address left. -/
theorem pushLine_of_decodable {line : CodeLine} (decodable : line.statement.Decodable)
    (progress : Progress) :
    (∃ next, progress.pushLine line = .ok next) ∨
    ∃ name, line.loaded? = some name ∧ name ∉ progress.program.symbols ∧
      Word.maxValue ≤ progress.nextVariable ∧ progress.pushLine line = .error .overflow := by
  rw [Progress.pushLine, CodeLine.loaded?]
  cases found : line.statement with
  | label _ | unclosed => exact .inl ⟨progress, rfl⟩
  | compute text =>
    rw [found] at decodable
    obtain ⟨instruction, decoded⟩ := decodable
    simp only [decoded]
    exact .inl ⟨progress.push instruction, rfl⟩
  | load operand =>
    rw [found, Statement.Decodable] at decodable
    split at decodable
    · rename_i number
      obtain ⟨value, decoded⟩ := decodable
      simp only [number, ↓reduceIte, decoded]
      exact .inl ⟨progress.push (.load value), rfl⟩
    · rename_i name
      simp only [name, Bool.false_eq_true, ↓reduceIte, decodable, Progress.pushSymbol]
      cases known : progress.program.symbols[String.ofList operand]? with
      | some address => exact .inl ⟨_, rfl⟩
      | none =>
        by_cases room : progress.nextVariable < Word.maxValue
        · simp only [room, ↓reduceIte]
          exact .inl ⟨_, rfl⟩
        · refine .inr ⟨_, rfl, ?_, Nat.le_of_not_lt room, ?_⟩
          · rw [SymbolTable.mem_iff_exists, known]
            rintro ⟨address, found⟩
            cases found
          · simp only [room, ↓reduceIte]

end Program

end HackToolchain
