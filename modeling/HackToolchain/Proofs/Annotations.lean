import HackToolchain.Proofs.Assembling
import HackToolchain.Proofs.Sessions

/-! # Annotations

Captions are comments, and the assembler does not see comments. What it makes of a text depends on
the code of its lines alone, but for the numbers of the lines in its failures (`assemble_congr`),
and the code of a text is the same with captions and without (`map_code_written`). An emitter that
writes captions does all else as one that does not (`Alike`), so a compilation has the same outcome
and the same journal, and a session that runs a program does not tell the two apart.
-/

namespace HackToolchain

/-! ## Numbers of lines -/

/-- What a failure to assemble says of the code, without the number of a line. -/
def AssemblyFailure.cause? : AssemblyFailure → Option AssemblyCause
  | fault _ cause => some cause
  | overflow => none

/-- An error is erased in each of two steps. -/
theorem mapError_bind {ε δ α β : Type} (result : Except ε α) (next : α → Except ε β)
    (erase : ε → δ) : (result >>= next).mapError erase =
      result.mapError erase >>= fun value => (next value).mapError erase := by
  cases result <;> rfl

namespace Program

/-- The number of a line only shows when it is blamed. -/
theorem declareLabels_congr {first second : List CodeLine}
    (same : first.map CodeLine.code = second.map CodeLine.code) (address : Nat)
    (table : SymbolTable) : (declareLabels address table first).mapError AssemblyFailure.cause? =
      (declareLabels address table second).mapError AssemblyFailure.cause? := by
  induction first generalizing second address table with
  | nil =>
    cases List.map_eq_nil_iff.mp same.symm
    rfl
  | cons line rest hypothesis =>
    obtain ⟨other, others, rfl, code, tail⟩ := List.map_eq_cons_iff.mp same.symm
    have statement : other.statement = line.statement := by
      rw [CodeLine.statement, CodeLine.statement, code]
    have further := hypothesis tail.symm
    rw [declareLabels, declareLabels, statement]
    cases line.statement with
    | label name =>
      simp only
      split
      · rfl
      · split
        · rfl
        · exact further _ _
    | unclosed | load operand | compute text =>
      simp only
      split
      · exact further _ _
      · rfl

/-- A line is assembled by its code. -/
theorem pushLine_congr {first second : CodeLine} (same : first.code = second.code)
    (progress : Progress) : (progress.pushLine first).mapError AssemblyFailure.cause? =
      (progress.pushLine second).mapError AssemblyFailure.cause? := by
  have statement : first.statement = second.statement := by
    rw [CodeLine.statement, CodeLine.statement, same]
  rw [Progress.pushLine, Progress.pushLine, statement]
  cases second.statement with
  | label name | unclosed => rfl
  | load operand =>
    simp only
    split
    · cases decodeNumber operand <;> rfl
    · split <;> rfl
  | compute text =>
    simp only
    cases decodeCompute text <;> rfl

/-- Lines are assembled by their code. -/
theorem pushLines_congr {first second : List CodeLine}
    (same : first.map CodeLine.code = second.map CodeLine.code) (progress : Progress) :
    (pushLines first progress).mapError AssemblyFailure.cause? =
      (pushLines second progress).mapError AssemblyFailure.cause? := by
  induction first generalizing second progress with
  | nil =>
    cases List.map_eq_nil_iff.mp same.symm
    rfl
  | cons line rest hypothesis =>
    obtain ⟨other, others, rfl, code, tail⟩ := List.map_eq_cons_iff.mp same.symm
    rw [pushLines, pushLines, mapError_bind, mapError_bind, pushLine_congr code]
    exact congrArg _ (funext (hypothesis tail.symm))

/-- Two texts with the same code are assembled to the same program, or fail for the same cause. -/
theorem assemble_congr {first second : Text} (same : (CodeLine.ofText first).map CodeLine.code =
      (CodeLine.ofText second).map CodeLine.code) :
    (assemble first).mapError AssemblyFailure.cause? =
      (assemble second).mapError AssemblyFailure.cause? := by
  rw [assemble, assemble, mapError_bind, mapError_bind, declareLabels_congr same]
  refine congrArg _ (funext fun table => ?_)
  rw [mapError_bind, mapError_bind, pushLines_congr same]

/-- Two texts that are assembled alike give the same program, or fail for the same cause. -/
theorem eq_or_causes {first second : Except AssemblyFailure Program}
    (same : first.mapError AssemblyFailure.cause? = second.mapError AssemblyFailure.cause?) :
    (∃ program, first = .ok program ∧ second = .ok program) ∨ ∃ failure other,
      first = .error failure ∧ second = .error other ∧ failure.cause? = other.cause? := by
  cases first with
  | ok program =>
    cases second with
    | ok other =>
      cases same
      exact .inl ⟨program, rfl, rfl⟩
    | error failure => cases same
  | error failure =>
    cases second with
    | ok other => cases same
    | error other => exact .inr ⟨failure, other, rfl, rfl, Except.error.inj same⟩

end Program

/-! ## Comments -/

namespace CodeLine

/-- The code on a line, if there is any. -/
def code? (line : Text) : Option Text :=
  let code := (Text.beforeComment line).trim
  if code = [] then none else some code

/-- The code of a text is that of its lines. -/
theorem map_code_ofText (text : Text) : (ofText text).map code = text.lines.filterMap code? :=
  calc (ofText text).map code
    _ = text.lines.zipIdx.filterMap (code? ∘ Prod.fst) := by
      rw [ofText, ofLines, List.map_filterMap]
      congr 1
      funext numbered
      simp only [code?, Function.comp]
      split <;> rfl
    _ = (text.lines.zipIdx.map Prod.fst).filterMap code? := List.filterMap_map.symm
    _ = text.lines.filterMap code? := by rw [List.zipIdx_map_fst]

/-- A line break separates code. -/
theorem map_code_append_newline (first rest : Text) :
    (ofText (first ++ '\n' :: rest)).map code =
      (ofText first).map code ++ (ofText rest).map code := by
  have lines : (first ++ '\n' :: rest).lines = first.lines ++ rest.lines :=
    List.splitOnP_append_cons first rest rfl
  rw [map_code_ofText, map_code_ofText, map_code_ofText, lines, List.filterMap_append]

/-- The code of some lines of assembly is that of each of them. -/
theorem map_code_textOf (lines : List AssemblyLine) :
    (ofText (AssemblyLine.textOf lines)).map code =
      lines.flatMap fun line => (ofText line.render.toList).map code := by
  induction lines with
  | nil => rfl
  | cons line rest hypothesis =>
    have text : AssemblyLine.textOf (line :: rest) =
        line.render.toList ++ '\n' :: AssemblyLine.textOf rest := by
      simp [AssemblyLine.textOf, AssemblyLine.renderLine]
    rw [text, map_code_append_newline, hypothesis, List.flatMap_cons]

/-- A comment on one line has no code. -/
theorem map_code_comment {caption : String} (single : '\n' ∉ caption.toList) :
    (ofText (AssemblyLine.comment caption).render.toList).map code = [] := by
  have clean : (AssemblyLine.comment caption).Clean := single
  have alone : Text.lines (AssemblyLine.comment caption).render.toList =
      [(AssemblyLine.comment caption).render.toList] := by
    apply List.splitOnP_eq_singleton
    intro character member
    exact beq_false_of_ne fun same => AssemblyLine.not_mem_render clean (same ▸ member)
  have empty : (Text.beforeComment (AssemblyLine.comment caption).render.toList).trim = [] :=
    AssemblyLine.code_of_clean clean
  rw [map_code_ofText, alone, List.filterMap_cons_none]
  · rfl
  · rw [code?, empty, if_pos rfl]

/-- Captions hold no code. -/
theorem map_code_written {blocks : List Block}
    (captions : ∀ block ∈ blocks, '\n' ∉ block.part.caption.toList) (annotate : Bool) :
    (ofText (AssemblyLine.textOf (blocks.flatMap (Block.written annotate)))).map code =
      (ofText (AssemblyLine.textOf (blocks.flatMap Block.lines))).map code := by
  rw [map_code_textOf, map_code_textOf, List.flatMap_assoc, List.flatMap_assoc]
  apply List.flatMap_congr
  intro block member
  cases annotate with
  | false => rfl
  | true =>
    rw [Block.written, if_pos rfl, List.flatMap_cons, map_code_comment (captions block member),
      List.nil_append]

end CodeLine

/-! ## Emitters -/

namespace Emitter

/-- Two emitters that differ at most in whether they write captions, and in what they wrote. -/
structure Alike (first second : Emitter) : Prop where
  bootstrap : first.options.bootstrap = second.options.bootstrap
  entry : first.options.entry = second.options.entry
  supply : first.supply = second.supply
  started : first.started = second.started
  journal : first.journal = second.journal
  unlimited : first.sink.Unlimited ∧ second.sink.Unlimited

/-- Two emitters are alike after a step with the same outcome. -/
def AlikeAfter {ε : Type} (first second : Emitter × Option ε) : Prop :=
  Alike first.1 second.1 ∧ first.2 = second.2

/-- A step of two emitters succeeds for both, or fails for both in the same way. -/
theorem AlikeAfter.cases {ε : Type} {first second : Emitter × Option ε}
    (after : AlikeAfter first second) : ∃ reached other, Alike reached other ∧
      (first = (reached, none) ∧ second = (other, none) ∨
        ∃ failure, first = (reached, some failure) ∧ second = (other, some failure)) := by
  obtain ⟨reached, failure⟩ := first
  obtain ⟨other, same⟩ := second
  obtain ⟨alike, outcome⟩ := after
  cases outcome
  refine ⟨reached, other, alike, ?_⟩
  cases failure with
  | none => exact .inl ⟨rfl, rfl⟩
  | some failure => exact .inr ⟨failure, rfl, rfl⟩

namespace Alike

variable {first second : Emitter}

theorem record (alike : Alike first second) (note : Note) :
    Alike (first.record note) (second.record note) :=
  { alike with journal := congrArg (Array.push · note) alike.journal }

theorem write (alike : Alike first second) (caption : String) (lines : List AssemblyLine) :
    AlikeAfter (first.write caption lines) (second.write caption lines) := by
  rw [write_eq first alike.unlimited.1, write_eq second alike.unlimited.2]
  exact ⟨{ alike with
    unlimited := ⟨alike.unlimited.1.append _, alike.unlimited.2.append _⟩ }, rfl⟩

theorem start (alike : Alike first second) : AlikeAfter first.start second.start := by
  unfold Emitter.start
  rw [← alike.started, ← alike.bootstrap, ← alike.entry, ← alike.supply]
  by_cases started : first.started
  · simp only [started, ↓reduceIte]
    exact ⟨alike, rfl⟩
  · by_cases wanted : first.options.bootstrap
    · simp only [started, wanted, Bool.false_eq_true, ↓reduceIte]
      apply write
      apply record
      exact { alike with started := rfl, supply := rfl }
    · simp only [started, wanted, Bool.false_eq_true, ↓reduceIte]
      exact ⟨{ alike with started := rfl, supply := rfl }, rfl⟩

theorem command (alike : Alike first second) (source : Source) (located : LocatedCommand) :
    AlikeAfter (first.command source located) (second.command source located) := by
  have noted := alike.record (.classified located.command)
  unfold Emitter.command
  simp only [← noted.supply]
  cases Template.command source.name (first.record (.classified located.command)).supply
      located.command with
  | error cause => exact ⟨noted, rfl⟩
  | ok result =>
    obtain ⟨lines, supply⟩ := result
    have supplied : Alike { first.record (.classified located.command) with supply }
        { second.record (.classified located.command) with supply } :=
      { noted with supply := rfl }
    obtain ⟨written, outcome⟩ := supplied.write located.command.render lines
    exact ⟨written, congrArg (Option.map _) outcome⟩

/-- Readings are written alike. -/
theorem readings (alike : Alike first second) (source : Source) (count : Nat)
    (found : List Reading) :
    AlikeAfter (Emitter.readings source count found first)
      (Emitter.readings source count found second) := by
  induction found generalizing count first second with
  | nil => exact ⟨alike.record _, rfl⟩
  | cons reading rest hypothesis =>
    cases reading with
    | error fault => exact ⟨alike, rfl⟩
    | ok located =>
      rw [Emitter.readings, Emitter.readings]
      obtain ⟨_, _, next, ⟨step, other⟩ | ⟨failure, step, other⟩⟩ :=
        (alike.command source located).cases
      · rw [step, other]
        exact hypothesis next (count + 1)
      · rw [step, other]
        exact ⟨next, rfl⟩

/-- A unit is written alike. -/
theorem unit (alike : Alike first second) (source : Source) :
    AlikeAfter (first.unit source) (second.unit source) := by
  rw [Emitter.unit, Emitter.unit]
  obtain ⟨_, _, next, ⟨step, other⟩ | ⟨failure, step, other⟩⟩ := alike.start.cases
  · rw [step, other]
    exact (next.record _).readings source 0 _
  · rw [step, other]
    exact ⟨next, rfl⟩

theorem finish (alike : Alike first second) : AlikeAfter first.finish second.finish := by
  rw [Emitter.finish, Emitter.finish]
  obtain ⟨reached, reachedToo, next, ⟨step, other⟩ | ⟨failure, step, other⟩⟩ := alike.start.cases
  · have flushes : reached.sink.flush = reachedToo.sink.flush := by
      rw [Sink.flush, Sink.flush, next.unlimited.1.flush, next.unlimited.2.flush]
    rw [step, other]
    exact ⟨next, congrArg (Option.map _) flushes⟩
  · rw [step, other]
    exact ⟨next, rfl⟩

/-- Units are written alike. -/
theorem units (alike : Alike first second) (sources : List Source) :
    AlikeAfter (first.units sources) (second.units sources) := by
  induction sources generalizing first second with
  | nil => exact alike.finish
  | cons source rest hypothesis =>
    rw [Emitter.units, Emitter.units]
    obtain ⟨_, _, next, ⟨step, other⟩ | ⟨failure, step, other⟩⟩ := (alike.unit source).cases
    · rw [step, other]
      exact hypothesis next
    · rw [step, other]
      exact ⟨next, rfl⟩

end Alike

end Emitter

/-! ## Compilations -/

section

variable (bootstrap : Bool) (entry : String) (sources : List Source)

/-- A compilation with captions and one without succeed together or fail in the same way, with the
same journal. -/
theorem compile_alike : (compile ⟨bootstrap, entry, true⟩ sources).journal =
      (compile ⟨bootstrap, entry, false⟩ sources).journal ∧
    ((∃ failure, (compile ⟨bootstrap, entry, true⟩ sources).result = .error failure ∧
        (compile ⟨bootstrap, entry, false⟩ sources).result = .error failure) ∨
      ∃ annotated plain, (compile ⟨bootstrap, entry, true⟩ sources).result = .ok annotated ∧
        (compile ⟨bootstrap, entry, false⟩ sources).result = .ok plain) := by
  have alike : Emitter.Alike { options := ⟨bootstrap, entry, true⟩ }
      { options := ⟨bootstrap, entry, false⟩ } :=
    ⟨rfl, rfl, rfl, rfl, rfl, ⟨rfl, rfl⟩, ⟨rfl, rfl⟩⟩
  rw [compile, compile]
  obtain ⟨_, _, next, ⟨step, other⟩ | ⟨failure, step, other⟩⟩ := (alike.units sources).cases
  · rw [step, other]
    exact ⟨next.journal, .inr ⟨_, _, rfl, rfl⟩⟩
  · rw [step, other]
    exact ⟨next.journal, .inl ⟨failure, rfl, rfl⟩⟩

variable {bootstrap entry sources}

/-- The code of a compiled text is that of the lines of its blocks. -/
theorem map_code_compile {annotate : Bool} {text : String}
    (compiled : (compile ⟨bootstrap, entry, annotate⟩ sources).result = .ok text) :
    (CodeLine.ofText text.toList).map CodeLine.code =
      (CodeLine.ofText (AssemblyLine.textOf
        ((blocks ⟨bootstrap, entry, annotate⟩ sources).flatMap Block.lines))).map
          CodeLine.code := by
  obtain ⟨-, ⟨last, expanded⟩, written⟩ := compile_ok compiled
  rw [written, CodeLine.map_code_written (captions_of_expand expanded)]

/-- Compiled texts with captions and without are assembled to the same program, or fail for the same
cause. -/
theorem assemble_compiled {annotated plain : String}
    (compiled : (compile ⟨bootstrap, entry, true⟩ sources).result = .ok annotated)
    (compiledToo : (compile ⟨bootstrap, entry, false⟩ sources).result = .ok plain) :
    (Program.assemble annotated.toList).mapError AssemblyFailure.cause? =
      (Program.assemble plain.toList).mapError AssemblyFailure.cause? :=
  Program.assemble_congr ((map_code_compile compiled).trans (map_code_compile compiledToo).symm)

/-- What is compiled with captions or without is compiled without, to a text that is assembled to
the same program, or fails for the same cause. -/
theorem compile_plain {annotate : Bool} {text : String}
    (compiled : (compile ⟨bootstrap, entry, annotate⟩ sources).result = .ok text) :
    ∃ plain, (compile ⟨bootstrap, entry, false⟩ sources).result = .ok plain ∧
      (Program.assemble plain.toList).mapError AssemblyFailure.cause? =
        (Program.assemble text.toList).mapError AssemblyFailure.cause? := by
  cases annotate with
  | false => exact ⟨text, compiled, rfl⟩
  | true =>
    rcases (compile_alike bootstrap entry sources).2 with
      ⟨failure, failed, -⟩ | ⟨annotated, plain, compiledToo, compiledPlain⟩
    · cases compiled.symm.trans failed
    · cases compiled.symm.trans compiledToo
      exact ⟨plain, compiledPlain, (assemble_compiled compiled compiledPlain).symm⟩

end

/-! ## Sessions -/

/-- A failure of a session, without the number of the line of code that it is about. -/
def SessionFailure.unnumbered : SessionFailure → SessionFailure
  | assembly (.fault _ cause) => assembly (.fault 0 cause)
  | failure => failure

namespace Session

/-- Two sessions have the same effects in every world, and the same outcome but for the number of a
line of code. -/
def Alike (first second : ExceptT SessionFailure (StateM World) Unit) : Prop :=
  ∀ world, (first.run.run world).2 = (second.run.run world).2 ∧
    (first.run.run world).1.mapError SessionFailure.unnumbered =
      (second.run.run world).1.mapError SessionFailure.unnumbered

theorem Alike.refl (session : ExceptT SessionFailure (StateM World) Unit) : Alike session session :=
  fun _ => ⟨rfl, rfl⟩

/-- Sessions that start with the same action and go on alike are alike. -/
theorem Alike.bind {α : Type} (action : ExceptT SessionFailure (StateM World) α)
    {first second : α → ExceptT SessionFailure (StateM World) Unit}
    (alike : ∀ value, Alike (first value) (second value)) :
    Alike (action >>= first) (action >>= second) := by
  intro world
  simp only [ExceptT.run_bind, StateT.run_bind]
  cases action.run.run world with
  | mk outcome next =>
    cases outcome with
    | ok value => exact alike value next
    | error failure => exact ⟨rfl, rfl⟩

/-- Failures to assemble with the same cause are the same but for the number of a line. -/
theorem alike_throw {first second : AssemblyFailure} (same : first.cause? = second.cause?) :
    Alike (throw (.assembly first)) (throw (.assembly second)) := by
  have erased : SessionFailure.unnumbered (.assembly first) = .unnumbered (.assembly second) := by
    cases first <;> cases second <;> cases same <;> rfl
  exact fun world => ⟨rfl, congrArg Except.error erased⟩

/-- Codes that are assembled to the same program, or fail for the same cause, run alike. -/
theorem runCode_alike (verbosity : Nat) (input : String) (steps : Nat) (bootstrap : Bool)
    (entry : String) (annotate annotateToo : Bool) {first second : String}
    (same : (Program.assemble first.toList).mapError AssemblyFailure.cause? =
      (Program.assemble second.toList).mapError AssemblyFailure.cause?) :
    Alike (runCode World.host verbosity input steps ⟨bootstrap, entry, annotate⟩ first)
      (runCode World.host verbosity input steps ⟨bootstrap, entry, annotateToo⟩ second) := by
  have boots : boot ⟨bootstrap, entry, annotate⟩ = boot ⟨bootstrap, entry, annotateToo⟩ := rfl
  unfold runCode
  rw [boots]
  rcases Program.eq_or_causes same with
    ⟨program, assembled, assembledToo⟩ | ⟨failure, other, failed, failedToo, causes⟩
  · rw [assembled, assembledToo]
    exact Alike.refl _
  · rw [failed, failedToo]
    exact alike_throw causes

/-- Running a program does not depend on captions. -/
theorem run_alike (verbosity : Nat) (terminal : Terminal) (input : String) (steps : Nat)
    (bootstrap : Bool) (entry : String) :
    Alike (run World.host verbosity terminal input steps ⟨bootstrap, entry, true⟩)
      (run World.host verbosity terminal input steps ⟨bootstrap, entry, false⟩) := by
  unfold run
  apply Alike.bind
  intro units
  obtain ⟨journal, outcome⟩ := compile_alike bootstrap entry (units.map LoadedUnit.source)
  unfold compileUnits
  simp only [bind_assoc, journal]
  -- What is reported before the code is used depends on the units and on the journal.
  apply Alike.bind
  intro _
  apply Alike.bind
  intro _
  rcases outcome with ⟨failure, failed, failedToo⟩ | ⟨annotated, plain, compiled, compiledToo⟩
  · rw [failed, failedToo]
    exact Alike.refl _
  · rw [compiled, compiledToo, pure_bind, pure_bind]
    exact runCode_alike verbosity input steps bootstrap entry true false
      (assemble_compiled compiled compiledToo)

/-- After a build, a run of the same input goes as one of the text that the build has written. -/
theorem run_of_build {bootstrap annotate : Bool} {entry input : String} {verbosity : Nat}
    {terminal : Terminal} {output : Option String} {world last : World}
    (built : world.outcome
      (build World.host verbosity terminal input output ⟨bootstrap, entry, annotate⟩) =
        (.ok (), last)) :
    ∃ path text, last.read path = .ok text.toUTF8 ∧ ∀ (detail steps : Nat), ∃ message,
      let whole := world.outcome
        (run World.host detail terminal input steps ⟨bootstrap, entry, false⟩)
      let written := (told world message).outcome
        (runCode World.host detail input steps ⟨bootstrap, entry, annotate⟩ text)
      whole.2 = written.2 ∧ whole.1.mapError SessionFailure.unnumbered =
        written.1.mapError SessionFailure.unnumbered := by
  rcases build_outcome built with ⟨-, ⟨failure, failed⟩, -⟩ |
    ⟨path, text, place, produces, tree, current, outcome⟩
  · cases failed
  rcases world.stored_cases text.toUTF8 with stored | ⟨shortage, -, -, stored⟩
  case inr =>
    rw [stored] at outcome
    cases outcome
  rw [stored] at tree
  refine ⟨path, text, produces.read tree current, ?_⟩
  intro detail steps
  obtain ⟨units, loaded, compiled⟩ := produces.units
  have loads : world.outcome (loadUnits World.host input) = (.ok units, world) :=
    Prod.ext loaded (quiet_loadUnits input world).symm
  obtain ⟨plain, compiledToo, same⟩ := compile_plain compiled
  obtain ⟨message, compiles⟩ :=
    outcome_compileUnits detail terminal ⟨bootstrap, entry, false⟩ units world
  rw [compiledToo] at compiles
  refine ⟨message, ?_⟩
  rw [run, outcome_bind_of_ok loads, outcome_bind_of_ok compiles]
  exact runCode_alike detail input steps bootstrap entry false annotate same (told world message)

end Session

/-- **Annotations mean nothing.** A compilation with captions and one without fail in the same way,
or both succeed, and their texts are then assembled to the same instructions and symbols, or fail
for the same cause, if with another line number, or both run out of addresses. So a session that
runs a program does the same with the text with captions, which is what a build writes unless told
otherwise, and with the text without, which is what a run uses; and after any build that succeeds, a
run of the input does what the text in the output of the build does. -/
theorem annotations_irrelevant (bootstrap : Bool) (entry : String) :
    (∀ sources : List Source,
      (∃ failure, (compile ⟨bootstrap, entry, true⟩ sources).result = .error failure ∧
          (compile ⟨bootstrap, entry, false⟩ sources).result = .error failure) ∨
        ∃ annotated plain, (compile ⟨bootstrap, entry, true⟩ sources).result = .ok annotated ∧
          (compile ⟨bootstrap, entry, false⟩ sources).result = .ok plain ∧
          (Program.assemble annotated.toList).mapError AssemblyFailure.cause? =
            (Program.assemble plain.toList).mapError AssemblyFailure.cause?) ∧
    (∀ (verbosity : Nat) (terminal : Terminal) (input : String) (steps : Nat),
      Session.Alike
        (Session.run World.host verbosity terminal input steps ⟨bootstrap, entry, true⟩)
        (Session.run World.host verbosity terminal input steps ⟨bootstrap, entry, false⟩)) ∧
    ∀ (annotate : Bool) (verbosity : Nat) (terminal : Terminal) (input : String)
      (output : Option String) (world last : World),
      world.outcome (Session.build World.host verbosity terminal input output
        ⟨bootstrap, entry, annotate⟩) = (.ok (), last) →
      ∃ path text, last.read path = .ok text.toUTF8 ∧ ∀ (detail steps : Nat), ∃ message,
        let whole := world.outcome
          (Session.run World.host detail terminal input steps ⟨bootstrap, entry, false⟩)
        let written := (Session.told world message).outcome
          (Session.runCode World.host detail input steps ⟨bootstrap, entry, annotate⟩ text)
        whole.2 = written.2 ∧ whole.1.mapError SessionFailure.unnumbered =
          written.1.mapError SessionFailure.unnumbered := by
  refine ⟨?_, ?_, ?_⟩
  · intro sources
    rcases (compile_alike bootstrap entry sources).2 with failed | ⟨annotated, plain, compiled⟩
    · exact .inl failed
    · exact .inr ⟨annotated, plain, compiled.1, compiled.2, assemble_compiled compiled.1 compiled.2⟩
  · intro verbosity terminal input steps
    exact Session.run_alike verbosity terminal input steps bootstrap entry
  · intro annotate verbosity terminal input output world last built
    exact Session.run_of_build built

end HackToolchain
