import HackToolchain.Proofs.GeneratedLabels

/-! # Emitters in use

An emitter is used by one call after another, and goes on after calls that fail. Each call draws
labels from the supply: a pair for every comparison and one for every call of a function, also when
the lines that hold them cannot be written. No two labels that are drawn in the life of an emitter
are the same (`nodup_drawnLabels`), since what a step draws can be drawn before the step and not
after it (`Draws`).
-/

namespace HackToolchain

/-- A call of an emitter, or what happens to its sink between two calls. -/
inductive EmitterCall where
  | unit (source : Source)
  | finish
  /-- The sink becomes another one, with more room or less. -/
  | changeSink (sink : Sink)

namespace Emitter

/-- Makes a call. -/
def call : EmitterCall → Emitter → Emitter × Option EmissionFailure
  | .unit source, emitter => emitter.unit source
  | .finish, emitter => emitter.finish
  | .changeSink sink, emitter => ({ emitter with sink }, none)

/-- Makes calls, whether they fail or not. -/
def calls : List EmitterCall → Emitter → Emitter × List (Option EmissionFailure)
  | [], emitter => (emitter, [])
  | call :: rest, emitter =>
    let (next, failure) := emitter.call call
    let (last, failures) := calls rest next
    (last, failure :: failures)

end Emitter

/-! ## Drawing labels -/

/-- The labels that the lines for a part draw from a supply. -/
def Part.drawn (supply : LabelSupply) : Part → List String
  | bootstrap entry => [(supply.nextCall entry).1]
  | command _ (.operator .eq) | command _ (.operator .gt) | command _ (.operator .lt) =>
    [supply.nextComparison.1.holds, supply.nextComparison.1.done]
  | command _ (.call name arguments) =>
    if arguments.toNat ≤ Word.maxAddress then [(supply.nextCall name).1] else []
  | command _ _ => []

/-- From one supply to another, some labels were drawn. -/
structure Draws (labels : List String) (first last : LabelSupply) : Prop where
  comparisons : first.comparisons ≤ last.comparisons
  calls : first.calls ≤ last.calls
  taken : ∀ name ∈ labels, FromSupply first name ∧ ¬FromSupply last name
  nodup : labels.Nodup
  length : labels.length + (2 * first.comparisons + first.calls) =
    2 * last.comparisons + last.calls

namespace Draws

theorem refl (supply : LabelSupply) : Draws [] supply supply :=
  ⟨Nat.le_refl _, Nat.le_refl _, nofun, List.nodup_nil, Nat.zero_add _⟩

theorem trans {earlier later : List String} {first middle last : LabelSupply}
    (head : Draws earlier first middle) (tail : Draws later middle last) :
    Draws (earlier ++ later) first last := by
  refine ⟨head.comparisons.trans tail.comparisons, head.calls.trans tail.calls, ?_, ?_, ?_⟩
  · intro name member
    rcases List.mem_append.mp member with before | after
    · refine ⟨(head.taken name before).1, fun given => (head.taken name before).2 ?_⟩
      exact given.mono tail.comparisons tail.calls
    · exact ⟨(tail.taken name after).1.mono head.comparisons head.calls, (tail.taken name after).2⟩
  · rw [List.nodup_append]
    refine ⟨head.nodup, tail.nodup, ?_⟩
    rintro name before other after rfl
    exact (head.taken name before).2 (tail.taken name after).1
  · have lengthBefore := head.length
    have lengthAfter := tail.length
    rw [List.length_append]
    omega

end Draws

/-- The labels that are drawn for a part are those that its lines declare besides its own name. -/
theorem Part.drawn_eq_generated {supply next : LabelSupply} {part : Part}
    {lines : List AssemblyLine} (found : part.lines supply = .ok (lines, next)) :
    part.drawn supply = (Block.mk part lines).generated := by
  cases part with
  | bootstrap entry =>
    cases found
    rfl
  | command unit given =>
    cases given with
    | operator op => cases op <;> cases found <;> rfl
    | push segment index =>
      obtain ⟨location, -, rfl, -⟩ := Template.push_ok found
      exact (label?_pushFrom location).symm
    | pop segment index =>
      obtain ⟨location, -, popped, -⟩ := Template.pop_ok found
      exact (label?_popInto popped).symm
    | label name | goto name | ifGoto name | function name locals | «return» =>
      cases found
      rfl
    | call name arguments =>
      obtain ⟨fits, rfl, -⟩ := Template.call_ok unit found
      rw [drawn, if_pos fits]
      rfl

/-- The lines of a part draw its labels. -/
theorem Part.draws_of_lines {supply next : LabelSupply} {part : Part}
    {lines : List AssemblyLine} (found : part.lines supply = .ok (lines, next)) :
    Draws (part.drawn supply) supply next := by
  rw [drawn_eq_generated found]
  obtain ⟨taken, nodup, comparisons, calls⟩ := Part.generated_fresh found
  refine ⟨comparisons, calls, taken, nodup, ?_⟩
  simp only [Block.generated, Block.labels]
  rcases Part.labels_cases found with ⟨name, declared, labels, rfl⟩ | ⟨declared, labels, rfl⟩ |
    ⟨declared, labels, rfl⟩ | ⟨name, declared, labels, rfl⟩
  · simp [declared]
  · simp [labels]
  · simp [declared, labels]
    omega
  · simp [declared, labels]
    omega

/-- A part without lines draws no label. -/
theorem Part.drawn_of_error {supply : LabelSupply} {part : Part} {cause : FaultCause}
    (refused : part.lines supply = .error cause) : part.drawn supply = [] := by
  cases part with
  | bootstrap entry => cases refused
  | command unit given =>
    cases given with
    | operator op => cases refused
    | push segment index | pop segment index => rfl
    | label name | goto name | ifGoto name | function name locals | «return» => cases refused
    | call name arguments =>
      by_cases fits : arguments.toNat ≤ Word.maxAddress
      · rw [lines, Template.command, Template.loadable, if_pos fits] at refused
        cases refused
      · rw [drawn, if_neg fits]

namespace Emitter

/-- The labels that are drawn when the bootstrap code has its turn. -/
def startLabels (emitter : Emitter) : List String :=
  if emitter.started then []
  else if emitter.options.bootstrap then
    (Part.bootstrap emitter.options.entry).drawn emitter.supply
  else []

/-- The labels that are drawn while the commands of a unit are written. -/
def readingsLabels (source : Source) : List Reading → Emitter → List String
  | [], _ => []
  | .error _ :: _, _ => []
  | .ok located :: rest, emitter =>
    (Part.command source.name located.command).drawn emitter.supply ++
      match emitter.command source located with
      | (next, none) => readingsLabels source rest next
      | (_, some _) => []

/-- The labels that are drawn in a call. -/
def callLabels : EmitterCall → Emitter → List String
  | .unit source, emitter =>
    emitter.startLabels ++
      match emitter.start with
      | (begun, none) => (begun.record (.started source.name)).readingsLabels source
          (Command.readings source.text.toList)
      | (_, some _) => []
  | .finish, emitter => emitter.startLabels
  | .changeSink _, _ => []

/-- The labels that are drawn in some calls. -/
def drawnLabels : List EmitterCall → Emitter → List String
  | [], _ => []
  | call :: rest, emitter => emitter.callLabels call ++ drawnLabels rest (emitter.call call).1

/-- The start draws the label of the bootstrap call. -/
theorem start_draws (emitter : Emitter) :
    Draws emitter.startLabels emitter.supply emitter.start.1.supply := by
  unfold startLabels start
  by_cases started : emitter.started
  · simp only [started, ↓reduceIte]
    exact Draws.refl _
  · by_cases wanted : emitter.options.bootstrap
    · simp only [started, wanted, Bool.false_eq_true, ↓reduceIte]
      exact Part.draws_of_lines rfl
    · simp only [started, wanted, Bool.false_eq_true, ↓reduceIte]
      exact Draws.refl _

/-- A command draws its labels whether or not its lines can be written. -/
theorem command_draws (source : Source) (located : LocatedCommand) (emitter : Emitter) :
    Draws ((Part.command source.name located.command).drawn emitter.supply) emitter.supply
      (emitter.command source located).1.supply := by
  unfold command
  cases found : (Part.command source.name located.command).lines emitter.supply with
  | error cause =>
    have refused : Template.command source.name emitter.supply located.command = .error cause :=
      found
    simp only [record, refused]
    rw [Part.drawn_of_error found]
    exact Draws.refl _
  | ok result =>
    obtain ⟨lines, supply⟩ := result
    have accepted : Template.command source.name emitter.supply located.command =
        .ok (lines, supply) := found
    simp only [record, accepted]
    exact Part.draws_of_lines found

/-- Readings draw the labels of their commands. -/
theorem readings_draws (source : Source) (count : Nat) (readings : List Reading)
    (emitter : Emitter) :
    Draws (emitter.readingsLabels source readings) emitter.supply
      (Emitter.readings source count readings emitter).1.supply := by
  induction readings generalizing count emitter with
  | nil => exact Draws.refl _
  | cons reading rest hypothesis =>
    cases reading with
    | error fault => exact Draws.refl _
    | ok located =>
      have drawn := command_draws source located emitter
      rw [readingsLabels, Emitter.readings]
      cases step : emitter.command source located with
      | mk next failure =>
        rw [step] at drawn
        cases failure with
        | none => exact drawn.trans (hypothesis (count + 1) next)
        | some failure =>
          rw [List.append_nil]
          exact drawn

/-- Any call to an emitter draws its labels. -/
theorem call_draws (call : EmitterCall) (emitter : Emitter) :
    Draws (emitter.callLabels call) emitter.supply (emitter.call call).1.supply := by
  have opening := emitter.start_draws
  cases call with
  | changeSink sink => exact Draws.refl _
  | unit source =>
    rw [callLabels, Emitter.call, unit]
    cases begun : emitter.start with
    | mk next failure =>
      rw [begun] at opening
      cases failure with
      | none =>
        exact opening.trans (readings_draws source 0 _ (next.record (.started source.name)))
      | some failure =>
        rw [List.append_nil]
        exact opening
  | finish =>
    rw [callLabels, Emitter.call, finish]
    cases begun : emitter.start with
    | mk next failure =>
      rw [begun] at opening
      cases failure <;> exact opening

/-- Any calls to an emitter draw their labels one after another. -/
theorem calls_draws (calls : List EmitterCall) (emitter : Emitter) :
    Draws (emitter.drawnLabels calls) emitter.supply (emitter.calls calls).1.supply := by
  induction calls generalizing emitter with
  | nil => exact Draws.refl _
  | cons call rest hypothesis =>
    rw [drawnLabels, Emitter.calls]
    exact (call_draws call emitter).trans (hypothesis (emitter.call call).1)

/-- **Labels are fresh for life.** No two of the labels that are drawn in any calls of a new emitter
are the same, whatever its options, its sink and the names in the sources, and whichever of the
calls fail. There are as many of them as the supply has counted in the end. -/
theorem nodup_drawnLabels (options : EmissionOptions) (sink : Sink) (calls : List EmitterCall) :
    (drawnLabels calls { options, sink }).Nodup ∧
      (drawnLabels calls { options, sink }).length =
        2 * (Emitter.calls calls { options, sink }).1.supply.comparisons +
          (Emitter.calls calls { options, sink }).1.supply.calls := by
  have drawn := calls_draws calls { options, sink }
  exact ⟨drawn.nodup, drawn.length⟩

end Emitter

end HackToolchain
