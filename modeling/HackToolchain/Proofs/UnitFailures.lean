import HackToolchain.Proofs.EmitterCalls

/-! # Units that fail

A unit fails at the first of its readings that is a fault, or a command that no lines stand for.
Where that is follows from the source alone (`Source.fault?`), and so does what is written before it
(`Source.soundParts`), as long as the sink takes everything. The outcomes of a call
(`unit_outcome`), of a sequence of calls (`calls_outcome`) and of a compilation
(`compile_error_iff`) are said in these terms.
-/

namespace HackToolchain

/-- Whether lines stand for a command does not depend on the labels that are left. -/
theorem Template.command_error_congr {unit : String} {given : Command}
    {supply : LabelSupply} {cause : FaultCause} (refused : command unit supply given = .error cause)
    (other : LabelSupply) : command unit other given = .error cause := by
  cases given with
  | operator _ | label _ | goto _ | ifGoto _ | function _ _ | «return» => cases refused
  | push segment index =>
    rw [command] at refused ⊢
    cases located : locate unit segment index with
    | error found =>
      rw [located] at refused
      cases refused
      rfl
    | ok location =>
      rw [located] at refused
      cases refused
  | pop segment index =>
    rw [command] at refused ⊢
    cases located : locate unit segment index with
    | error found =>
      rw [located] at refused
      cases refused
      rfl
    | ok location =>
      rw [located] at refused
      cases location with
      | constant value =>
        cases refused
        rfl
      | indexed base index => cases refused
      | named operand => cases refused
  | call name arguments =>
    rw [command] at refused ⊢
    cases loaded : loadable arguments with
    | error found =>
      rw [loaded] at refused
      cases refused
      rfl
    | ok value =>
      rw [loaded] at refused
      cases refused

namespace Source

variable (source : Source)

/-- What is wrong with a reading in a unit: it is a fault, or no lines stand for its command. -/
def faultOf? : Reading → Option CommandFault
  | .error fault => some fault
  | .ok located =>
    match Template.command source.name {} located.command with
    | .error cause => some ⟨cause, located.span⟩
    | .ok _ => none

/-- The commands of readings in a unit before the first with which something is wrong. -/
def accepted (readings : List Reading) : List Command :=
  (readings.takeWhile fun reading => (source.faultOf? reading).isNone).filterMap
    fun reading => reading.toOption.map LocatedCommand.command

/-- The first fault of a unit. -/
def fault? : Option CommandFault :=
  (Command.readings source.text.toList).findSome? source.faultOf?

/-- Why a unit fails. -/
def failure? : Option EmissionFailure :=
  source.fault?.map (EmissionFailure.ofFault source)

/-- The parts of a unit before its first fault. -/
def soundParts : List Part :=
  (source.accepted (Command.readings source.text.toList)).map (Part.command source.name)

variable {source}

/-- A command without code has that as its fault. -/
theorem faultOf?_of_error {located : LocatedCommand} {supply : LabelSupply} {cause : FaultCause}
    (refused : Template.command source.name supply located.command = .error cause) :
    source.faultOf? (.ok located) = some ⟨cause, located.span⟩ := by
  rw [faultOf?, Template.command_error_congr refused]

/-- A command with code has no fault. -/
theorem faultOf?_of_ok {located : LocatedCommand} {supply : LabelSupply}
    {result : List AssemblyLine × LabelSupply}
    (found : Template.command source.name supply located.command = .ok result) :
    source.faultOf? (.ok located) = none := by
  cases empty : Template.command source.name {} located.command with
  | error cause => cases found.symm.trans (Template.command_error_congr empty supply)
  | ok _ => rw [faultOf?, empty]

/-- Nothing is accepted from a fault on. -/
theorem accepted_of_fault {reading : Reading} {fault : CommandFault}
    (wrong : source.faultOf? reading = some fault) (rest : List Reading) :
    source.accepted (reading :: rest) = [] := by
  rw [accepted, List.takeWhile_cons_of_neg (by simp [wrong]), List.filterMap_nil]

/-- A command without a fault is accepted. -/
theorem accepted_of_none {located : LocatedCommand} (fine : source.faultOf? (.ok located) = none)
    (rest : List Reading) :
    source.accepted (.ok located :: rest) = located.command :: source.accepted rest := by
  rw [accepted, List.takeWhile_cons_of_pos (by simp [fine])]
  rfl

end Source

namespace Emitter

/-- What is written before the first command. -/
def opening (emitter : Emitter) : List Part :=
  if emitter.started then []
  else if emitter.options.bootstrap then [.bootstrap emitter.options.entry]
  else []

/-- An emitter that has started has nothing to open with. -/
theorem opening_of_started {emitter : Emitter} (started : emitter.started) :
    emitter.opening = [] := by
  rw [opening, if_pos started]

section

variable {emitter : Emitter} (unlimited : emitter.sink.Unlimited)

include unlimited

/-- A note writes nothing. -/
theorem Wrote.of_record (note : Note) : Wrote [] emitter (emitter.record note) :=
  ⟨rfl, id, unlimited, [], rfl, (Sink.append_nil _).symm⟩

/-- Readings are written up to the first with which something is wrong, and that one is blamed. -/
theorem readings_outcome (source : Source) (count : Nat) (readings : List Reading) :
    (Emitter.readings source count readings emitter).2 =
        (readings.findSome? source.faultOf?).map (EmissionFailure.ofFault source) ∧
      Wrote ((source.accepted readings).map (Part.command source.name)) emitter
        (Emitter.readings source count readings emitter).1 := by
  induction readings generalizing count emitter with
  | nil => exact ⟨rfl, Wrote.of_record unlimited _⟩
  | cons reading rest hypothesis =>
    cases reading with
    | error fault =>
      rw [Source.accepted_of_fault rfl]
      exact ⟨rfl, Wrote.refl unlimited⟩
    | ok located =>
      cases found : Template.command source.name emitter.supply located.command with
      | error cause =>
        have wrong := Source.faultOf?_of_error found
        have step : emitter.command source located =
            (emitter.record (.classified located.command),
              some (.ofFault source ⟨cause, located.span⟩)) := by
          simp only [command, record, found]
        rw [Source.accepted_of_fault wrong, List.findSome?_cons, wrong, Emitter.readings, step]
        exact ⟨rfl, Wrote.of_record unlimited _⟩
      | ok result =>
        have fine := Source.faultOf?_of_ok found
        obtain ⟨next, step, -⟩ := command_succeeds unlimited found
        have wrote := command_ok unlimited step
        obtain ⟨outcome, remaining⟩ := hypothesis wrote.unlimited (count + 1)
        rw [Source.accepted_of_none fine, List.findSome?_cons, fine, Emitter.readings, step]
        exact ⟨outcome, wrote.trans remaining⟩

/-- A unit fails with its first fault, after its commands before the fault are written. -/
theorem unit_outcome (source : Source) :
    (emitter.unit source).2 = source.failure? ∧ (emitter.unit source).1.started ∧
      Wrote (emitter.opening ++ source.soundParts) emitter (emitter.unit source).1 := by
  obtain ⟨begun, start⟩ := start_succeeds unlimited
  obtain ⟨started, opened⟩ := start_ok unlimited start
  have same : emitter.unit source = Emitter.readings source 0
      (Command.readings source.text.toList) (begun.record (.started source.name)) := by
    rw [unit, start]
  have noted : (begun.record (.started source.name)).sink.Unlimited := opened.unlimited
  obtain ⟨outcome, wrote⟩ := readings_outcome noted source 0 (Command.readings source.text.toList)
  rw [same]
  exact ⟨outcome, wrote.started started, opened.trans wrote.record_left⟩

end

/-- Units are written up to the first fault of each, one after another. -/
theorem calls_of_started {emitter : Emitter} (unlimited : emitter.sink.Unlimited)
    (started : emitter.started) (sources : List Source) :
    (emitter.calls (sources.map EmitterCall.unit)).2 = sources.map Source.failure? ∧
      Wrote (sources.flatMap Source.soundParts) emitter
        (emitter.calls (sources.map EmitterCall.unit)).1 := by
  induction sources generalizing emitter with
  | nil => exact ⟨rfl, Wrote.refl unlimited⟩
  | cons source rest hypothesis =>
    obtain ⟨outcome, begun, wrote⟩ := unit_outcome unlimited source
    obtain ⟨outcomes, remaining⟩ := hypothesis wrote.unlimited begun
    rw [opening_of_started started, List.nil_append] at wrote
    rw [List.map_cons, List.map_cons, List.flatMap_cons, ← outcome, ← outcomes]
    exact ⟨rfl, wrote.trans remaining⟩

/-- The first of some calls writes what comes before the first command. -/
theorem calls_outcome {emitter : Emitter} (unlimited : emitter.sink.Unlimited)
    (sources : List Source) :
    (emitter.calls (sources.map EmitterCall.unit)).2 = sources.map Source.failure? ∧
      Wrote ((if sources = [] then [] else emitter.opening) ++ sources.flatMap Source.soundParts)
        emitter (emitter.calls (sources.map EmitterCall.unit)).1 := by
  cases sources with
  | nil => exact ⟨rfl, Wrote.refl unlimited⟩
  | cons source rest =>
    obtain ⟨outcome, begun, wrote⟩ := unit_outcome unlimited source
    obtain ⟨outcomes, remaining⟩ := calls_of_started wrote.unlimited begun rest
    rw [if_neg (List.cons_ne_nil _ _), List.map_cons, List.map_cons, List.flatMap_cons, ← outcome,
      ← outcomes, ← List.append_assoc]
    exact ⟨rfl, wrote.trans remaining⟩

/-- Units that are to be written until one fails do so as they would alone. -/
theorem units_outcome {emitter : Emitter} (unlimited : emitter.sink.Unlimited)
    (sources : List Source) :
    (emitter.units sources).2 = sources.findSome? Source.failure? := by
  induction sources generalizing emitter with
  | nil =>
    obtain ⟨begun, start⟩ := start_succeeds unlimited
    have flushes := (start_ok unlimited start).2.unlimited.flush
    rw [units, finish, start, List.findSome?_nil]
    simp [Sink.flush, flushes]
  | cons source rest hypothesis =>
    obtain ⟨outcome, -, wrote⟩ := unit_outcome unlimited source
    rw [units, List.findSome?_cons, ← outcome]
    cases step : emitter.unit source with
    | mk next failure =>
      rw [step] at wrote
      cases failure with
      | none => exact hypothesis wrote.unlimited
      | some failure => rfl

end Emitter

/-- A compilation fails as the first of its units that fails. -/
theorem compile_error_iff {options : EmissionOptions} {sources : List Source}
    {failure : EmissionFailure} : (compile options sources).result = .error failure ↔
      sources.findSome? Source.failure? = some failure := by
  have unlimited : (Emitter.sink { options }).Unlimited := ⟨rfl, rfl⟩
  rw [← Emitter.units_outcome unlimited, compile]
  cases Emitter.units sources { options } with
  | mk last outcome => cases outcome <;> simp

/-- A compilation succeeds if no unit fails. -/
theorem exists_compile_ok_iff {options : EmissionOptions} {sources : List Source} :
    (∃ text, (compile options sources).result = .ok text) ↔
      ∀ source ∈ sources, source.failure? = none := by
  rw [← List.findSome?_eq_none_iff]
  cases result : (compile options sources).result with
  | error failure => simp [compile_error_iff.mp result]
  | ok text =>
    cases failed : sources.findSome? Source.failure? with
    | none => simp
    | some failure => cases result.symm.trans (compile_error_iff.mpr failed)

end HackToolchain
