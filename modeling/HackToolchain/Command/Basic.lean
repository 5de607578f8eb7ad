import HackToolchain.Symbol

/-! # Commands of the stack machine

The stack machine has nine operators, eight memory segments and nine shapes of command. Every
command is written as a keyword followed by its arguments, with one space between the words.
-/

namespace HackToolchain

/-- An operator on the top of the stack. -/
inductive Operator where
  | add
  | sub
  | neg
  | eq
  | gt
  | lt
  | and
  | or
  | not
deriving DecidableEq, Repr

namespace Operator

/-- Every operator. -/
def all : List Operator :=
  [add, sub, neg, eq, gt, lt, and, or, not]

/-- The keyword of an operator. -/
def name : Operator → String
  | add => "add"
  | sub => "sub"
  | neg => "neg"
  | eq => "eq"
  | gt => "gt"
  | lt => "lt"
  | and => "and"
  | or => "or"
  | not => "not"

/-- The operator with a name. -/
def ofName? (name : String) : Option Operator :=
  all.find? fun operator => operator.name = name

end Operator

/-- A named region of the memory that commands can see. -/
inductive Segment where
  | constant
  | local
  | argument
  | this
  | that
  | temp
  | pointer
  | static
deriving DecidableEq, Repr

namespace Segment

/-- Every segment. -/
def all : List Segment :=
  [constant, .local, argument, this, that, temp, pointer, static]

/-- The name of a segment. -/
def name : Segment → String
  | constant => "constant"
  | .local => "local"
  | argument => "argument"
  | this => "this"
  | that => "that"
  | temp => "temp"
  | pointer => "pointer"
  | static => "static"

/-- The segment with a name. -/
def ofName? (name : String) : Option Segment :=
  all.find? fun segment => segment.name = name

/-- A segment is found by its name. -/
@[simp]
theorem ofName?_name (segment : Segment) : ofName? segment.name = some segment := by
  cases segment <;> rfl

/-- Only the name of a segment finds it. -/
theorem ofName?_eq_some_iff {name : String} {segment : Segment} :
    ofName? name = some segment ↔ segment.name = name := by
  constructor
  · intro found
    simpa using List.find?_some found
  · rintro rfl
    exact ofName?_name segment

end Segment

/-- The first word of a command. -/
inductive Keyword where
  | operator (op : Operator)
  | push
  | pop
  | label
  | goto
  | ifGoto
  | function
  | call
  | return
deriving DecidableEq, Repr

namespace Keyword

/-- Every keyword. -/
def all : List Keyword :=
  [push, pop, label, goto, ifGoto, function, call, .return] ++ Operator.all.map operator

/-- The text of a keyword. -/
def name : Keyword → String
  | operator op => op.name
  | push => "push"
  | pop => "pop"
  | label => "label"
  | goto => "goto"
  | ifGoto => "if-goto"
  | function => "function"
  | call => "call"
  | .return => "return"

/-- The keyword with a text. -/
def ofName? (name : String) : Option Keyword :=
  all.find? fun keyword => keyword.name = name

/-- The number of arguments that follow a keyword. -/
def arity : Keyword → Nat
  | operator _ | .return => 0
  | label | goto | ifGoto => 1
  | push | pop | function | call => 2

/-- A keyword is found by its name. -/
@[simp]
theorem ofName?_name (keyword : Keyword) : ofName? keyword.name = some keyword := by
  cases keyword with
  | operator op => cases op <;> rfl
  | _ => rfl

/-- Only the name of a keyword finds it. -/
theorem ofName?_eq_some_iff {name : String} {keyword : Keyword} :
    ofName? name = some keyword ↔ keyword.name = name := by
  constructor
  · intro found
    simpa using List.find?_some found
  · rintro rfl
    exact ofName?_name keyword

end Keyword

/-- A command of the stack machine. -/
inductive Command where
  /-- Applies an operator to the top of the stack. -/
  | operator (op : Operator)
  /-- Pushes the value of a cell of a segment. -/
  | push (segment : Segment) (index : Word)
  /-- Pops the top of the stack into a cell of a segment. -/
  | pop (segment : Segment) (index : Word)
  /-- Marks a place to jump to. -/
  | label (name : String)
  /-- Jumps. -/
  | goto (name : String)
  /-- Pops the top of the stack, and jumps unless it is zero. -/
  | ifGoto (name : String)
  /-- Starts a function with a number of local cells. -/
  | function (name : String) (locals : Word)
  /-- Calls a function on a number of arguments. -/
  | call (name : String) (arguments : Word)
  /-- Goes back to the caller. -/
  | return
deriving DecidableEq, Repr

namespace Command

/-- The keyword of a command. -/
def keyword : Command → Keyword
  | operator op => .operator op
  | push _ _ => .push
  | pop _ _ => .pop
  | label _ => .label
  | goto _ => .goto
  | ifGoto _ => .ifGoto
  | function _ _ => .function
  | call _ _ => .call
  | .return => .return

/-- The arguments of a command, each as a word of text. -/
def arguments : Command → List String
  | push segment index | pop segment index => [segment.name, index.decimal]
  | label name | goto name | ifGoto name => [name]
  | function name count | call name count => [name, count.decimal]
  | operator _ | .return => []

/-- The text of a command. -/
def render (command : Command) : String :=
  " ".intercalate (command.keyword.name :: command.arguments)

end Command

end HackToolchain
