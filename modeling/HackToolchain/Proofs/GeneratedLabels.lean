import HackToolchain.Symbol
import HackToolchain.Proofs.TemplateLines

/-! # Generated labels

A generated label is a stem, a dot and a number. The number can be read off the label, since a
decimal numeral holds no dot, and every label takes a number that no label before it took. So no two
generated labels of a program are the same (`generated_of_expand`).
-/

namespace HackToolchain

/-! ## Numbered names -/

/-- A stem, a dot and a number. -/
def numbered (stem : String) (number : Nat) : String :=
  stem ++ "." ++ number.repr

/-- Read from its end, a numbered name is its digits up to a dot, and then the stem. -/
theorem toList_reverse_numbered (stem : String) (number : Nat) :
    (numbered stem number).toList.reverse =
      (Nat.toDigits 10 number).reverse ++ '.' :: stem.toList.reverse := by
  simp [numbered, Nat.toList_repr]

/-- The stem and the number of a name can be told from it. -/
theorem numbered_injective {first second : String} {left right : Nat}
    (same : numbered first left = numbered second right) : first = second ∧ left = right := by
  have characters := congrArg (fun name => name.toList.reverse) same
  simp only [toList_reverse_numbered] at characters
  have digits : ∀ number, ∀ character ∈ (Nat.toDigits 10 number).reverse,
      (character != '.') = true := by
    intro number character member
    have digit := Nat.isDigit_of_mem_toDigits (by decide) (by decide) (List.mem_reverse.mp member)
    rw [bne_iff_ne]
    rintro rfl
    exact absurd digit (by decide)
  -- The digits are what stands before the first dot from the right.
  have numbers := congrArg (List.takeWhile (· != '.')) characters
  have stems := congrArg (List.dropWhile (· != '.')) characters
  rw [List.takeWhile_append_of_pos (digits left), List.takeWhile_append_of_pos (digits right)]
    at numbers
  rw [List.dropWhile_append_of_pos (digits left), List.dropWhile_append_of_pos (digits right)]
    at stems
  simp only [List.takeWhile_cons, List.dropWhile_cons, bne_self_eq_false, Bool.false_eq_true,
    ↓reduceIte, List.append_nil, List.reverse_inj, List.cons.injEq, true_and] at numbers stems
  refine ⟨String.toList_injective stems, ?_⟩
  have values := congrArg (fun text => Nat.ofDigitChars 10 text 0) numbers
  simpa only [Nat.ofDigitChars_ten_toDigits] using values

/-- The first label of a comparison is a numbered name. -/
theorem holds_eq_numbered (number : Nat) :
    (LabelSupply.comparisonLabels number).holds = numbered "$compare.true" number := by
  simp [LabelSupply.comparisonLabels, numbered]

/-- The other label of a comparison is a numbered name. -/
theorem done_eq_numbered (number : Nat) :
    (LabelSupply.comparisonLabels number).done = numbered "$compare.end" number := by
  simp [LabelSupply.comparisonLabels, numbered]

/-- The label that a call returns to is a numbered name. -/
theorem returnLabel_eq_numbered (name : String) (number : Nat) :
    LabelSupply.returnLabel name number = numbered (name ++ "$ret") number := by
  simp [LabelSupply.returnLabel, numbered, String.append_assoc]

/-- The stem of a label for a return is that of no label of a comparison. -/
theorem append_ret_ne {name stem : String} (last : stem.toList.getLast? ≠ some 't') :
    name ++ "$ret" ≠ stem := by
  rintro rfl
  simp at last

/-! ## Labels from a supply on -/

/-- A label that a supply can still give. -/
inductive FromSupply (supply : LabelSupply) : String → Prop
  | holds (number : Nat) (free : supply.comparisons ≤ number) :
    FromSupply supply (LabelSupply.comparisonLabels number).holds
  | done (number : Nat) (free : supply.comparisons ≤ number) :
    FromSupply supply (LabelSupply.comparisonLabels number).done
  | call (name : String) (number : Nat) (free : supply.calls ≤ number) :
    FromSupply supply (LabelSupply.returnLabel name number)

/-- The labels on some lines. -/
def AssemblyLine.label? : AssemblyLine → Option String
  | label name => some name
  | load _ | compute _ | comment _ => none

/-- The labels of a block. -/
def Block.labels (block : Block) : List String :=
  block.lines.filterMap AssemblyLine.label?

/-- The labels of a block that its part does not declare itself. -/
def Block.generated (block : Block) : List String :=
  if block.part.declared?.isSome then [] else block.labels

/-- A push has no labels. -/
theorem label?_pushFrom (location : Template.Location) :
    (Template.pushFrom location).filterMap AssemblyLine.label? = [] := by
  cases location with
  | constant value =>
    rw [Template.pushFrom, Template.loadConstant]
    split
    · rfl
    · rfl
  | indexed base index => cases base <;> rfl
  | named operand => rfl

/-- A pop has no labels. -/
theorem label?_popInto {location : Template.Location} {lines : List AssemblyLine}
    (popped : Template.popInto location = .ok lines) :
    lines.filterMap AssemblyLine.label? = [] := by
  cases location with
  | constant value => cases popped
  | indexed base index =>
    cases popped
    cases base <;> rfl
  | named operand =>
    cases popped
    rfl

/-- A function has its name as its only label. -/
theorem label?_function (name : String) (locals : Word) :
    (Template.function name locals).filterMap AssemblyLine.label? = [name] := by
  rw [Template.function]
  split
  · rfl
  · have body : (List.replicate locals.toNat
        [AssemblyLine.compute "M=0", .compute "A=A+1"]).flatten.filterMap AssemblyLine.label? =
        [] := by
      rw [List.filterMap_eq_nil_iff]
      intro line member
      obtain ⟨pair, repeated, inside⟩ := List.mem_flatten.mp member
      rw [List.eq_of_mem_replicate repeated] at inside
      rcases List.mem_pair.mp inside with rfl | rfl
      · rfl
      · rfl
    rw [List.filterMap_cons, List.filterMap_append, List.filterMap_append, body]
    rfl

/-- All the labels that the lines for a part can declare. -/
theorem Part.labels_cases {supply next : LabelSupply} {part : Part} {lines : List AssemblyLine}
    (found : part.lines supply = .ok (lines, next)) :
    (∃ name, part.declared? = some name ∧ lines.filterMap AssemblyLine.label? = [name] ∧
      next = supply) ∨
    (part.declared? = none ∧ lines.filterMap AssemblyLine.label? = [] ∧ next = supply) ∨
    (part.declared? = none ∧ lines.filterMap AssemblyLine.label? =
      [(LabelSupply.comparisonLabels supply.comparisons).holds,
        (LabelSupply.comparisonLabels supply.comparisons).done] ∧
      next = { supply with comparisons := supply.comparisons + 1 }) ∨
    (∃ name, part.declared? = none ∧ lines.filterMap AssemblyLine.label? =
      [LabelSupply.returnLabel name supply.calls] ∧
      next = { supply with calls := supply.calls + 1 }) := by
  cases part with
  | bootstrap entry =>
    cases found
    exact .inr (.inr (.inr ⟨entry, rfl, rfl, rfl⟩))
  | command unit given =>
    cases given with
    | operator op =>
      cases op with
      | eq | gt | lt =>
        cases found
        exact .inr (.inr (.inl ⟨rfl, rfl, rfl⟩))
      | add | sub | neg | and | or | not =>
        cases found
        exact .inr (.inl ⟨rfl, rfl, rfl⟩)
    | push segment index =>
      obtain ⟨location, located, rfl, rfl⟩ := Template.push_ok found
      exact .inr (.inl ⟨rfl, label?_pushFrom location, rfl⟩)
    | pop segment index =>
      obtain ⟨location, located, popped, rfl⟩ := Template.pop_ok found
      exact .inr (.inl ⟨rfl, label?_popInto popped, rfl⟩)
    | label name =>
      cases found
      exact .inl ⟨name, rfl, rfl, rfl⟩
    | goto name | ifGoto name =>
      cases found
      exact .inr (.inl ⟨rfl, rfl, rfl⟩)
    | function name locals =>
      cases found
      exact .inl ⟨name, rfl, label?_function name locals, rfl⟩
    | call name arguments =>
      obtain ⟨fits, rfl, rfl⟩ := Template.call_ok unit found
      exact .inr (.inr (.inr ⟨name, rfl, rfl, rfl⟩))
    | «return» =>
      cases found
      exact .inr (.inl ⟨rfl, rfl, rfl⟩)

/-! ## Distinct labels -/

/-- A label that a later supply can give, an earlier one can. -/
theorem FromSupply.mono {large small : LabelSupply} {name : String}
    (comparisons : small.comparisons ≤ large.comparisons) (calls : small.calls ≤ large.calls)
    (given : FromSupply large name) : FromSupply small name := by
  cases given with
  | holds number free => exact .holds number (comparisons.trans free)
  | done number free => exact .done number (comparisons.trans free)
  | call name number free => exact .call name number (calls.trans free)

/-- A supply can still give a numbered label if it has not come to the number yet: that of
comparisons for the two labels of a comparison, and that of calls for the label of a return. -/
theorem fromSupply_numbered_iff {supply : LabelSupply} {stem : String} {number : Nat} :
    FromSupply supply (numbered stem number) ↔
      (stem ∈ ["$compare.true", "$compare.end"] ∧ supply.comparisons ≤ number) ∨
        (∃ name, stem = name ++ "$ret") ∧ supply.calls ≤ number := by
  constructor
  · intro given
    generalize same : numbered stem number = label at given
    cases given with
    | holds other free =>
      rw [holds_eq_numbered] at same
      obtain ⟨rfl, rfl⟩ := numbered_injective same
      exact .inl ⟨List.mem_cons_self, free⟩
    | done other free =>
      rw [done_eq_numbered] at same
      obtain ⟨rfl, rfl⟩ := numbered_injective same
      exact .inl ⟨List.mem_cons_of_mem _ List.mem_cons_self, free⟩
    | call name other free =>
      rw [returnLabel_eq_numbered] at same
      obtain ⟨rfl, rfl⟩ := numbered_injective same
      exact .inr ⟨⟨name, rfl⟩, free⟩
  · rintro (⟨member, free⟩ | ⟨⟨name, rfl⟩, free⟩)
    · rcases List.mem_pair.mp member with rfl | rfl
      · rw [← holds_eq_numbered]
        exact .holds number free
      · rw [← done_eq_numbered]
        exact .done number free
    · rw [← returnLabel_eq_numbered]
      exact .call name number free

/-- The two labels of a comparison differ. -/
theorem holds_ne_done (number : Nat) : (LabelSupply.comparisonLabels number).holds ≠
    (LabelSupply.comparisonLabels number).done := by
  rw [holds_eq_numbered, done_eq_numbered]
  intro same
  exact absurd (numbered_injective same).1 (by decide)

/-- The labels that are taken for a part are those that the supply no longer gives after it. -/
theorem Part.generated_fresh {supply next : LabelSupply} {part : Part} {lines : List AssemblyLine}
    (found : part.lines supply = .ok (lines, next)) :
    (∀ name ∈ (Block.mk part lines).generated, FromSupply supply name ∧ ¬FromSupply next name) ∧
      (Block.mk part lines).generated.Nodup ∧ supply.comparisons ≤ next.comparisons ∧
      supply.calls ≤ next.calls := by
  simp only [Block.generated, Block.labels]
  rcases Part.labels_cases found with ⟨name, declared, labels, rfl⟩ | ⟨declared, labels, rfl⟩ |
    ⟨declared, labels, rfl⟩ | ⟨name, declared, labels, rfl⟩
  · simp [declared]
  · simp [labels]
  · have holds (name : String) : "$compare.true" ≠ name ++ "$ret" :=
      (append_ret_ne (by decide)).symm
    have done (name : String) : "$compare.end" ≠ name ++ "$ret" :=
      (append_ret_ne (by decide)).symm
    have apart := holds_ne_done supply.comparisons
    rw [holds_eq_numbered, done_eq_numbered] at labels apart
    simp [declared, labels, fromSupply_numbered_iff, holds, done, apart]
  · have holds : name ++ "$ret" ≠ "$compare.true" := append_ret_ne (by decide)
    have done : name ++ "$ret" ≠ "$compare.end" := append_ret_ne (by decide)
    simp [declared, labels, returnLabel_eq_numbered, fromSupply_numbered_iff, holds, done]

/-- No two generated labels of some parts are the same, and the supply could give them all. -/
theorem generated_of_expand {supply last : LabelSupply} {program : List Part}
    {written : List Block} (expanded : expand supply program = .ok (written, last)) :
    (∀ name ∈ written.flatMap Block.generated, FromSupply supply name) ∧
      (written.flatMap Block.generated).Nodup := by
  induction program generalizing supply written with
  | nil =>
    cases expanded
    exact ⟨by simp, List.nodup_nil⟩
  | cons part rest hypothesis =>
    obtain ⟨lines, next, tail, found, remaining, rfl⟩ := expand_cons_inv expanded
    obtain ⟨taken, distinct, comparisons, calls⟩ := Part.generated_fresh found
    obtain ⟨free, others⟩ := hypothesis remaining
    rw [List.flatMap_cons]
    constructor
    · intro name member
      rcases List.mem_append.mp member with here | later
      · exact (taken name here).1
      · exact (free name later).mono comparisons calls
    · rw [List.nodup_append]
      refine ⟨distinct, others, ?_⟩
      rintro name here other later rfl
      exact (taken name here).2 (free name later)

/-- No generated label is a symbol of the machine. -/
theorem FromSupply.not_predefined {supply : LabelSupply} {name : String}
    (given : FromSupply supply name) : name ∉ SymbolTable.predefinedSymbols.map Prod.fst := by
  have dotted : ∀ stem number, '.' ∈ (numbered stem number).toList := by
    intro stem number
    simp [numbered]
  have marked : '.' ∈ name.toList := by
    cases given with
    | holds number _ =>
      rw [holds_eq_numbered]
      exact dotted _ _
    | done number _ =>
      rw [done_eq_numbered]
      exact dotted _ _
    | call function number _ =>
      rw [returnLabel_eq_numbered]
      exact dotted _ _
  have plain : ∀ name ∈ SymbolTable.predefinedSymbols.map Prod.fst, '.' ∉ name.toList := by decide
  exact fun member => plain name member marked

end HackToolchain
