import Std.Data.TreeMap

/-! # Words and symbols

The machine has one size of number: a word of sixteen bits. As a value a word is signed, as an
address or an index it is not. Symbols are the names that assembly code can use for addresses, and a
symbol table holds the addresses of symbols, in the order of their names.
-/

namespace HackToolchain

/-! ## Words -/

/-- A word of sixteen bits. -/
abbrev Word := BitVec 16

namespace Word

/-- The largest number that an address instruction can hold. -/
def maxAddress : Nat := 32767

/-- The largest number that fits a word. -/
def maxValue : Nat := 65535

/-- The decimal digits of a word, read as an unsigned number. -/
def decimal (word : Word) : String :=
  word.toNat.repr

end Word

/-! ## Symbols -/

/-- Whether a character can stand in a symbol. -/
def isSymbolCharacter (character : Char) : Bool :=
  character.isAlphanum || character == '_' || character == '.' || character == '$' ||
    character == ':'

/-- Whether a name is a symbol: it has a character, starts with no digit, and has symbol characters
only. -/
def isSymbol (name : String) : Bool :=
  match name.toList with
  | [] => false
  | first :: rest => !first.isDigit && (first :: rest).all isSymbolCharacter

/-! ## Symbol tables -/

/-- The addresses of symbols. -/
abbrev SymbolTable := Std.TreeMap String Word

namespace SymbolTable

/-- The symbols of the machine itself: segment bases, sixteen registers, the screen and the
keyboard. -/
def predefinedSymbols : List (String × Word) :=
  [("SP", 0), ("LCL", 1), ("ARG", 2), ("THIS", 3), ("THAT", 4), ("R0", 0), ("R1", 1), ("R2", 2),
    ("R3", 3), ("R4", 4), ("R5", 5), ("R6", 6), ("R7", 7), ("R8", 8), ("R9", 9), ("R10", 10),
    ("R11", 11), ("R12", 12), ("R13", 13), ("R14", 14), ("R15", 15), ("SCREEN", 16384),
    ("KBD", 24576)]

/-- The table of the symbols of the machine itself. -/
def predefined : SymbolTable :=
  predefinedSymbols.foldl (fun table (name, address) => table.insert name address) ∅

end SymbolTable

end HackToolchain
