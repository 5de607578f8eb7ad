import HackToolchain.Proofs.Names
import HackToolchain.Proofs.Resolution
import Mathlib.Tactic.Common

/-! # Lines of templates

Every line that a template writes is one that the assembler accepts, as long as the names that the
part is written with are symbols: numbers fit address instructions, computations are in the table of
computations, and the symbols that templates compose from names are symbols again.
-/

namespace HackToolchain

namespace Part

/-- The name that a part declares. -/
def declared? : Part → Option String
  | command _ (.label name) | command _ (.function name _) => some name
  | _ => none

/-- The name that a part jumps to. -/
def target? : Part → Option String
  | bootstrap entry => some entry
  | command _ (.goto name) | command _ (.ifGoto name) | command _ (.call name _) => some name
  | _ => none

/-- The symbol of the static cell that a part reads or writes. -/
def static? : Part → Option String
  | command unit (.push .static index) | command unit (.pop .static index) =>
    some (Template.staticSymbol unit index)
  | _ => none

/-- The names that a part is written with. -/
def names (part : Part) : List String :=
  part.declared?.toList ++ part.target?.toList ++ part.static?.toList

/-- The names of a part are the one it declares, the one it goes to, and the symbol of its static
cell. -/
theorem forall_mem_names {part : Part} {symbol : String → Prop} :
    (∀ name ∈ part.names, symbol name) ↔ (∀ name ∈ part.declared?, symbol name) ∧
      (∀ name ∈ part.target?, symbol name) ∧ ∀ name ∈ part.static?, symbol name := by
  simp only [names, List.forall_mem_append, Option.mem_toList, and_assoc, Option.mem_def]

end Part

/-- The computations in templates. -/
def Template.computations : List String :=
  ["0;JMP", "A=A+1", "A=A-1", "A=D+A", "A=D-A", "A=M", "A=M-1", "AM=M-1", "D;JEQ", "D;JGT",
    "D;JLT", "D;JNE", "D=!A", "D=A", "D=D+A", "D=D-A", "D=M", "D=M+1", "D=M-D", "M=!M", "M=-1",
    "M=-M", "M=0", "M=D", "M=D&M", "M=D+M", "M=D|M", "M=M+1", "M=M-D"]

namespace AssemblyLine

/-- A line of a template, whose symbols have a property. -/
def Sound (symbol : String → Prop) : AssemblyLine → Prop
  | load (.number value) => value.toNat ≤ Word.maxAddress
  | load (.register _) => True
  | load (.symbol name) | label name => symbol name
  | compute text => text ∈ Template.computations
  | comment _ => False

section

variable {symbol : String → Prop}

@[simp]
theorem sound_number {value : Word} :
    (load (.number value)).Sound symbol ↔ value.toNat ≤ Word.maxAddress := Iff.rfl

@[simp]
theorem sound_register {register : Register} : (load (.register register)).Sound symbol := trivial

@[simp]
theorem sound_symbol {name : String} : (load (.symbol name)).Sound symbol ↔ symbol name := Iff.rfl

@[simp]
theorem sound_label {name : String} : (label name).Sound symbol ↔ symbol name := Iff.rfl

@[simp]
theorem sound_compute {text : String} :
    (compute text).Sound symbol ↔ text ∈ Template.computations := Iff.rfl

end

/-- A line stays sound for a weaker property of names. -/
theorem Sound.mono {weak strong : String → Prop} (weaker : ∀ name, strong name → weak name)
    {line : AssemblyLine} (sound : line.Sound strong) : line.Sound weak := by
  cases line with
  | load operand =>
    cases operand with
    | number _ | register _ => exact sound
    | symbol name => exact weaker name sound
  | compute _ | comment _ => exact sound
  | label name => exact weaker name sound

end AssemblyLine

/-- A property of names that the symbols composed from them keep. -/
structure Composable (symbol : String → Prop) : Prop where
  comparison : ∀ number, symbol (LabelSupply.comparisonLabels number).holds ∧
    symbol (LabelSupply.comparisonLabels number).done
  call : ∀ name number, symbol name → symbol (LabelSupply.returnLabel name number)

namespace Template

variable {symbol : String → Prop}

/-- The lines for an operator are sound. -/
theorem operator_sound (composable : Composable symbol) (supply : LabelSupply) (op : Operator) :
    ∀ line ∈ (operator supply op).1, line.Sound symbol := by
  have labels := composable.comparison supply.comparisons
  cases op <;>
    simp [operator, binary, unary, freshComparison, LabelSupply.nextComparison, comparison, popD,
      top, cell, Template.symbol, computations, labels]

/-- Where the cells of an indexed segment start. -/
def base? : Segment → Option Base
  | .local => some (.register .local)
  | .argument => some (.register .argument)
  | .this => some (.register .this)
  | .that => some (.register .that)
  | .temp => some (.fixed tempBase)
  | .constant | .pointer | .static => none

/-- A value that can be loaded is loaded as it is. -/
theorem loadable_ok {value result : Word} (found : loadable value = .ok result) :
    result = value ∧ value.toNat ≤ Word.maxAddress := by
  rw [loadable] at found
  split at found
  · rename_i fits
    cases found
    exact ⟨rfl, fits⟩
  · cases found

/-- An index that can be loaded gives the location at that index. -/
theorem indexed_ok {base : Base} {index : Word} {location : Location}
    (found : (loadable index).map (Location.indexed base) = .ok location) :
    location = .indexed base index ∧ index.toNat ≤ Word.maxAddress := by
  cases loaded : loadable index with
  | error cause =>
    rw [loaded] at found
    cases found
  | ok value =>
    rw [loaded] at found
    obtain ⟨rfl, fits⟩ := loadable_ok loaded
    cases found
    exact ⟨rfl, fits⟩

/-- All that a segment and an index can lead to. -/
theorem locate_ok {unit : String} {segment : Segment} {index : Word} {location : Location}
    (found : locate unit segment index = .ok location) :
    (segment = .constant ∧ location = .constant index) ∨
    (∃ base, base? segment = some base ∧ location = .indexed base index ∧
      index.toNat ≤ Word.maxAddress) ∨
    (segment = .pointer ∧ (index = 0 ∧ location = .named (.register .this) ∨
      index = 1 ∧ location = .named (.register .that))) ∨
    (segment = .static ∧ location = .named (.symbol (staticSymbol unit index))) := by
  cases segment with
  | constant =>
    cases found
    exact .inl ⟨rfl, rfl⟩
  | «local» | argument | this | that | temp =>
    exact .inr (.inl ⟨_, rfl, indexed_ok found⟩)
  | pointer =>
    simp only [locate] at found
    split at found
    · rename_i zero
      cases found
      exact .inr (.inr (.inl ⟨rfl, .inl ⟨zero, rfl⟩⟩))
    · split at found
      · rename_i one
        cases found
        exact .inr (.inr (.inl ⟨rfl, .inr ⟨one, rfl⟩⟩))
      · cases found
  | static =>
    cases found
    exact .inr (.inr (.inr ⟨rfl, rfl⟩))

/-- The lines for a push read the location of its cell and take no label. -/
theorem push_ok {unit : String} {supply next : LabelSupply} {segment : Segment} {index : Word}
    {lines : List AssemblyLine}
    (found : command unit supply (.push segment index) = .ok (lines, next)) :
    ∃ location, locate unit segment index = .ok location ∧ lines = pushFrom location ∧
      next = supply := by
  cases located : locate unit segment index with
  | error cause =>
    rw [command, located] at found
    cases found
  | ok location =>
    rw [command, located] at found
    cases found
    exact ⟨location, rfl, rfl, rfl⟩

/-- The lines for a pop write the location of its cell and take no label. -/
theorem pop_ok {unit : String} {supply next : LabelSupply} {segment : Segment} {index : Word}
    {lines : List AssemblyLine}
    (found : command unit supply (.pop segment index) = .ok (lines, next)) :
    ∃ location, locate unit segment index = .ok location ∧ popInto location = .ok lines ∧
      next = supply := by
  cases located : locate unit segment index with
  | error cause =>
    rw [command, located] at found
    cases found
  | ok location =>
    cases popped : popInto location with
    | error cause =>
      rw [command, located] at found
      change (popInto location >>= fun lines => pure (lines, supply)) = _ at found
      rw [popped] at found
      cases found
    | ok result =>
      rw [command, located] at found
      change (popInto location >>= fun lines => pure (lines, supply)) = _ at found
      rw [popped] at found
      cases found
      exact ⟨location, rfl, popped, rfl⟩

/-- The lines for a call return to the next label for calls, and take it from the supply. -/
theorem call_ok (unit : String) {name : String} {supply next : LabelSupply} {arguments : Word}
    {lines : List AssemblyLine}
    (found : command unit supply (.call name arguments) = .ok (lines, next)) :
    arguments.toNat ≤ Word.maxAddress ∧
      lines = callWith (LabelSupply.returnLabel name supply.calls) name arguments ∧
      next = { supply with calls := supply.calls + 1 } := by
  cases loaded : loadable arguments with
  | error cause =>
    rw [command, loaded] at found
    cases found
  | ok value =>
    rw [command, loaded] at found
    obtain ⟨rfl, fits⟩ := loadable_ok loaded
    cases found
    exact ⟨fits, rfl, rfl⟩

/-- A location that templates can reach. -/
def Location.Sound (symbol : String → Prop) : Location → Prop
  | .constant _ => True
  | .indexed (.register _) index => index.toNat ≤ Word.maxAddress
  | .indexed (.fixed address) index =>
    address.toNat ≤ Word.maxAddress ∧ index.toNat ≤ Word.maxAddress
  | .named operand => (AssemblyLine.load operand).Sound symbol

/-- The location of a cell is sound if its static symbol is. -/
theorem locate_sound {unit : String} {segment : Segment} {index : Word} {location : Location}
    (found : locate unit segment index = .ok location)
    (static : segment = .static → symbol (staticSymbol unit index)) : location.Sound symbol := by
  rcases locate_ok found with ⟨-, rfl⟩ | ⟨base, start, rfl, fits⟩ | ⟨-, ⟨-, rfl⟩ | ⟨-, rfl⟩⟩ |
    ⟨rfl, rfl⟩
  · trivial
  · cases base with
    | register _ => exact fits
    | fixed address =>
      refine ⟨?_, fits⟩
      cases segment <;> cases start
      decide
  · trivial
  · trivial
  · exact static rfl

/-- The complement of a value that is too large to load can be loaded. -/
theorem toNat_not_le {value : Word} (large : ¬value.toNat ≤ Word.maxAddress) :
    (~~~value).toNat ≤ Word.maxAddress := by
  have bound := value.isLt
  simp only [Word.maxAddress, BitVec.toNat_not] at large ⊢
  omega

/-- The lines that load a constant are sound. -/
theorem loadConstant_sound (value : Word) : ∀ line ∈ loadConstant value, line.Sound symbol := by
  rw [loadConstant]
  split
  · rename_i small
    simp [number, computations, small]
  · rename_i large
    refine List.forall_mem_cons.mpr ⟨toNat_not_le large, ?_⟩
    simp [computations]

/-- The lines that push from a sound location are sound. -/
theorem pushFrom_sound {location : Location} (sound : location.Sound symbol) :
    ∀ line ∈ pushFrom location, line.Sound symbol := by
  have tail : ∀ line ∈ pushD, line.Sound symbol := by
    simp [pushD, cell, computations]
  cases location with
  | constant value => exact List.forall_mem_append.mpr ⟨loadConstant_sound value, tail⟩
  | indexed base index =>
    refine List.forall_mem_append.mpr ⟨?_, tail⟩
    cases base with
    | register _ =>
      simp only [Location.Sound] at sound
      simp [Base.load, cell, number, computations, sound]
    | fixed _ =>
      simp only [Location.Sound] at sound
      simp [Base.load, number, computations, sound]
  | named operand =>
    refine List.forall_mem_append.mpr ⟨?_, tail⟩
    simp only [Location.Sound] at sound
    simp [sound, computations]

/-- The lines that pop into a sound location are sound. -/
theorem popInto_sound {location : Location} (sound : location.Sound symbol)
    {lines : List AssemblyLine} (found : popInto location = .ok lines) :
    ∀ line ∈ lines, line.Sound symbol := by
  cases location with
  | constant value => cases found
  | indexed base index =>
    cases found
    cases base with
    | register _ =>
      simp only [Location.Sound] at sound
      simp [Base.load, cell, number, popToScratch, popD, computations, sound]
    | fixed _ =>
      simp only [Location.Sound] at sound
      simp [Base.load, cell, number, popToScratch, popD, computations, sound]
  | named operand =>
    cases found
    simp only [Location.Sound] at sound
    simp [popD, cell, computations, sound]

/-- The lines for a function are sound if its name is. -/
theorem function_sound {name : String} (valid : symbol name) (locals : Word) :
    ∀ line ∈ function name locals, line.Sound symbol := by
  rw [function]
  split
  · simpa using valid
  · have body : ∀ line ∈ (List.replicate locals.toNat
        [AssemblyLine.compute "M=0", .compute "A=A+1"]).flatten, line.Sound symbol := by
      intro line member
      obtain ⟨pair, repeated, inside⟩ := List.mem_flatten.mp member
      rw [List.eq_of_mem_replicate repeated] at inside
      rcases List.mem_pair.mp inside with rfl | rfl
      · simp [computations]
      · simp [computations]
    refine List.forall_mem_cons.mpr ⟨valid, List.forall_mem_append.mpr
      ⟨List.forall_mem_append.mpr ⟨?_, body⟩, ?_⟩⟩
    · simp [cell, computations]
    · simp [cell, computations]

/-- The lines for a call are sound if its names are. -/
theorem callWith_sound {returnLabel name : String} (back : symbol returnLabel) (valid : symbol name)
    {arguments : Word} (fits : arguments.toNat ≤ Word.maxAddress) :
    ∀ line ∈ callWith returnLabel name arguments, line.Sound symbol := by
  have frame : frameSize.toNat ≤ Word.maxAddress := by decide
  simp [callWith, pushD, pushRegister, cell, number, Template.symbol, computations, back, valid,
    fits, frame]

/-- The lines for a return are sound. -/
theorem leave_sound : ∀ line ∈ leave, line.Sound symbol := by
  simp [leave, restore, popD, cell, number, frameSize, computations,
    Word.maxAddress]

end Template

/-- The lines for a part whose names have a property are sound. -/
theorem Part.lines_sound {symbol : String → Prop} (composable : Composable symbol)
    {supply next : LabelSupply} {part : Part} {lines : List AssemblyLine}
    (found : part.lines supply = .ok (lines, next)) (valid : ∀ name ∈ part.names, symbol name) :
    ∀ line ∈ lines, line.Sound symbol := by
  cases part with
  | bootstrap entry =>
    cases found
    have named : symbol entry := valid entry (by simp [names, declared?, target?, static?])
    refine List.forall_mem_append.mpr ⟨?_, Template.callWith_sound
      (composable.call entry supply.calls named) named (by decide)⟩
    simp [Template.number, Template.cell, Template.computations, stackBase, Word.maxAddress]
  | command unit given =>
    cases given with
    | operator op =>
      have same : (Template.operator supply op).1 = lines := congrArg Prod.fst (Except.ok.inj found)
      rw [← same]
      exact Template.operator_sound composable supply op
    | push segment index =>
      obtain ⟨location, located, rfl, -⟩ := Template.push_ok found
      refine Template.pushFrom_sound (Template.locate_sound located ?_)
      rintro rfl
      exact valid _ (by simp [names, declared?, target?, static?])
    | pop segment index =>
      obtain ⟨location, located, popped, -⟩ := Template.pop_ok found
      refine Template.popInto_sound (Template.locate_sound located ?_) popped
      rintro rfl
      exact valid _ (by simp [names, declared?, target?, static?])
    | label name =>
      cases found
      simpa using valid name (by simp [names, declared?, target?, static?])
    | goto name =>
      cases found
      have named := valid name (by simp [names, declared?, target?, static?])
      simp [Template.symbol, Template.computations, named]
    | ifGoto name =>
      cases found
      have named := valid name (by simp [names, declared?, target?, static?])
      simp [Template.popD, Template.cell, Template.symbol, Template.computations, named]
    | function name locals =>
      cases found
      exact Template.function_sound (valid name (by simp [names, declared?, target?, static?]))
        locals
    | call name arguments =>
      obtain ⟨fits, rfl, -⟩ := Template.call_ok unit found
      have named := valid name (by simp [names, declared?, target?, static?])
      exact Template.callWith_sound (composable.call name supply.calls named) named fits
    | «return» =>
      cases found
      exact Template.leave_sound

end HackToolchain
