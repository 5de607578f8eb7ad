import HackToolchain.Proofs.UnitFailures

/-! # Sinks that fill up

An emitter with a limited sink does what one with an unlimited sink does, as long as everything fits
(`Mirrors`). The first write that does not fit leaves the limited sink with as many bytes of the
output as it can hold, and the call that wrote fails; whatever the unlimited emitter goes on to
write comes after those bytes (`MirrorsAfter`). So units that are written up to the first that fails
leave in a limited sink the beginning of what they leave in an unlimited one, wherever the cut falls
(`filled_sink_holds_beginning`).
-/

namespace HackToolchain

/-- Nothing is cut off where there is room. -/
theorem extract_of_size_le {bytes : ByteArray} {limit : Nat} (short : bytes.size ≤ limit) :
    bytes.extract 0 limit = bytes := by
  apply ByteArray.ext
  rw [ByteArray.data_extract]
  exact Array.extract_eq_self_of_le short

/-- What comes after the first bytes does not change them. -/
theorem extract_append_of_le {bytes : ByteArray} {limit : Nat} (long : limit ≤ bytes.size)
    (more : ByteArray) : (bytes ++ more).extract 0 limit = bytes.extract 0 limit := by
  have none : limit - bytes.size = 0 := by omega
  rw [ByteArray.extract_append, Nat.zero_sub, none, ByteArray.extract_same, ByteArray.append_empty]

/-! ## Writing to a limited sink -/

namespace Sink

variable {sink : Sink} {capacity : Nat} (limit : sink.capacity = some capacity)
  (fits : sink.contents.size ≤ capacity)

include limit fits

/-- A text is written whole if there is room for it, and otherwise fills the sink. -/
theorem write_cases (text : String) :
    ((sink.append text.toList).contents.size ≤ capacity ∧
        sink.write text = (sink.append text.toList, none)) ∨
      (capacity < (sink.append text.toList).contents.size ∧ (sink.write text).2 = some .full ∧
        (sink.write text).1.contents =
          (sink.append text.toList).contents.extract 0 capacity) := by
  obtain ⟨contents, room, flushFails⟩ := sink
  cases limit
  have grown : (Sink.append ⟨contents, some capacity, flushFails⟩ text.toList).contents =
      contents ++ text.toUTF8 := by
    simp [Sink.append]
  rw [grown, ByteArray.size_append]
  simp only at fits
  by_cases enough : text.toUTF8.size ≤ capacity - contents.size
  · refine .inl ⟨by omega, ?_⟩
    simp only [write, enough, ↓reduceIte]
    rw [Sink.append, String.ofList_toList]
  · refine .inr ⟨by omega, ?_, ?_⟩
    · simp only [write, enough, ↓reduceIte]
    · simp only [write, enough, ↓reduceIte]
      rw [ByteArray.extract_append, extract_of_size_le fits, Nat.zero_sub]

/-- Lines are all written if there is room for them, and otherwise fill the sink. -/
theorem writeLines_cases (lines : List AssemblyLine) :
    ((sink.append (AssemblyLine.textOf lines)).contents.size ≤ capacity ∧
        sink.writeLines lines = (sink.append (AssemblyLine.textOf lines), none)) ∨
      (capacity < (sink.append (AssemblyLine.textOf lines)).contents.size ∧
        (sink.writeLines lines).2 = some .full ∧ (sink.writeLines lines).1.contents =
          (sink.append (AssemblyLine.textOf lines)).contents.extract 0 capacity) := by
  induction lines generalizing sink with
  | nil =>
    rw [AssemblyLine.textOf, List.flatMap_nil, append_nil]
    exact .inl ⟨fits, rfl⟩
  | cons line rest hypothesis =>
    have whole : sink.append (AssemblyLine.textOf (line :: rest)) =
        (sink.append line.renderLine.toList).append (AssemblyLine.textOf rest) :=
      (append_append _ _ _).symm
    rw [whole, writeLines]
    rcases write_cases limit fits line.renderLine with ⟨room, written⟩ | ⟨exceeds, failed, kept⟩
    · rw [written]
      exact hypothesis limit room
    · obtain ⟨filled, refused⟩ : ∃ filled, sink.write line.renderLine = (filled, some .full) :=
        ⟨_, Prod.ext rfl failed⟩
      rw [refused] at kept ⊢
      have grown : ((sink.append line.renderLine.toList).append
          (AssemblyLine.textOf rest)).contents = (sink.append line.renderLine.toList).contents ++
            (String.ofList (AssemblyLine.textOf rest)).toUTF8 := rfl
      refine .inr ⟨?_, rfl, ?_⟩
      · rw [grown, ByteArray.size_append]
        omega
      · rw [grown, extract_append_of_le (Nat.le_of_lt exceeds)]
        exact kept

end Sink

namespace Emitter

/-! ## Emitters with the same output so far -/

/-- An emitter with a limited sink that has written the same as one with an unlimited sink. -/
structure Mirrors (capacity : Nat) (short long : Emitter) : Prop where
  options : short.options = long.options
  supply : short.supply = long.supply
  started : short.started = long.started
  limit : short.sink.capacity = some capacity
  contents : short.sink.contents = long.sink.contents
  fits : long.sink.contents.size ≤ capacity
  unlimited : long.sink.Unlimited

/-- What a step of two emitters, of which the first has a limited sink, leads to: both go on with
the same outcome, or the limited sink is full, and the step fails for that. -/
inductive MirrorsAfter {ε : Type} (capacity : Nat) (refusal : ε) :
    Emitter × Option ε → Emitter × Option ε → Prop
  | within {short long : Emitter} {outcome : Option ε} (mirrors : Mirrors capacity short long) :
    MirrorsAfter capacity refusal (short, outcome) (long, outcome)
  | beyond {short long : Emitter} {outcome : Option ε}
    (exceeds : capacity < long.sink.contents.size)
    (kept : short.sink.contents = long.sink.contents.extract 0 capacity)
    (unlimited : long.sink.Unlimited) :
    MirrorsAfter capacity refusal (short, some refusal) (long, outcome)

/-- Two steps that go alike go alike when their failures are named. -/
theorem MirrorsAfter.map {ε δ : Type} {capacity : Nat} {refusal : ε}
    {short long : Emitter × Option ε} (after : MirrorsAfter capacity refusal short long)
    (blame : ε → δ) : MirrorsAfter capacity (blame refusal) (short.1, short.2.map blame)
      (long.1, long.2.map blame) := by
  cases after with
  | within mirrors => exact .within mirrors
  | beyond exceeds kept unlimited => exact .beyond exceeds kept unlimited

/-- What an emitter writes after so many bytes does not change them. -/
theorem Wrote.extract_contents {program : List Part} {first last : Emitter}
    (wrote : Wrote program first last) {capacity : Nat}
    (exceeds : capacity < first.sink.contents.size) : capacity < last.sink.contents.size ∧
      last.sink.contents.extract 0 capacity = first.sink.contents.extract 0 capacity := by
  obtain ⟨written, -, sink⟩ := wrote.blocks
  rw [sink]
  constructor
  · rw [Sink.append, ByteArray.size_append]
    omega
  · exact extract_append_of_le (Nat.le_of_lt exceeds) _

namespace Mirrors

variable {capacity : Nat} {short long : Emitter} (mirrors : Mirrors capacity short long)

include mirrors

theorem record (first second : Note) : Mirrors capacity (short.record first) (long.record second) :=
  ⟨mirrors.options, mirrors.supply, mirrors.started, mirrors.limit, mirrors.contents, mirrors.fits,
    mirrors.unlimited⟩

theorem write (caption : String) (lines : List AssemblyLine) :
    MirrorsAfter capacity .full (short.write caption lines) (long.write caption lines) := by
  obtain ⟨options, supply, started, ⟨contents, room, flushFails⟩, journal⟩ := short
  obtain ⟨sameOptions, sameSupply, sameStarted, limit, same, fits, unlimited⟩ := mirrors
  simp only at sameOptions sameSupply sameStarted limit same
  subst sameOptions sameSupply sameStarted limit same
  rw [write_eq long unlimited, Emitter.write]
  generalize (if long.options.annotate then AssemblyLine.comment caption :: lines else lines) =
    written
  let sink : Sink := ⟨long.sink.contents, some capacity, flushFails⟩
  have limited : sink.capacity = some capacity := rfl
  rcases Sink.writeLines_cases limited fits written with ⟨room, done⟩ | ⟨exceeds, failed, kept⟩
  · rw [done]
    exact .within ⟨rfl, rfl, rfl, rfl, rfl, room, unlimited.append _⟩
  · obtain ⟨filled, refused⟩ : ∃ filled, sink.writeLines written = (filled, some .full) :=
      ⟨_, Prod.ext rfl failed⟩
    rw [refused] at kept ⊢
    exact .beyond exceeds kept (unlimited.append _)

theorem start : MirrorsAfter capacity .full short.start long.start := by
  unfold Emitter.start
  rw [mirrors.started, mirrors.options, mirrors.supply]
  by_cases started : long.started
  · simp only [started, ↓reduceIte]
    exact .within mirrors
  · by_cases wanted : long.options.bootstrap
    · simp only [started, wanted, Bool.false_eq_true, ↓reduceIte]
      apply write
      apply record
      exact { mirrors with started := rfl, supply := rfl, options := rfl }
    · simp only [started, wanted, Bool.false_eq_true, ↓reduceIte]
      exact .within { mirrors with started := rfl, supply := rfl, options := rfl }

theorem command (source : Source) (located : LocatedCommand) :
    MirrorsAfter capacity (.output .full) (short.command source located)
      (long.command source located) := by
  have noted := mirrors.record (.classified located.command) (.classified located.command)
  unfold Emitter.command
  simp only [noted.supply]
  cases Template.command source.name (long.record (.classified located.command)).supply
      located.command with
  | error cause => exact .within noted
  | ok result =>
    obtain ⟨lines, supply⟩ := result
    have supplied : Mirrors capacity
        { short.record (.classified located.command) with supply }
        { long.record (.classified located.command) with supply } :=
      { noted with supply := rfl }
    exact (supplied.write located.command.render lines).map EmissionFailure.output

/-- After the write that fills the limited sink, the unlimited emitter goes on with its unit. -/
theorem readings (source : Source) (count : Nat) (found : List Reading) :
    MirrorsAfter capacity (.output .full) (Emitter.readings source count found short)
      (Emitter.readings source count found long) := by
  induction found generalizing count short long with
  | nil => exact .within (mirrors.record _ _)
  | cons reading rest hypothesis =>
    cases reading with
    | error fault => exact .within mirrors
    | ok located =>
      rw [Emitter.readings, Emitter.readings]
      generalize shortStep : short.command source located = reached
      generalize longStep : long.command source located = expected
      have step := mirrors.command source located
      rw [shortStep, longStep] at step
      cases step with
      | @within _ _ outcome next =>
        cases outcome with
        | none => exact hypothesis next (count + 1)
        | some failure => exact .within next
      | @beyond _ next outcome exceeds kept unlimited =>
        cases outcome with
        | some failure => exact .beyond exceeds kept unlimited
        | none =>
          obtain ⟨-, wrote⟩ := readings_outcome unlimited source (count + 1) rest
          obtain ⟨still, same⟩ := wrote.extract_contents exceeds
          exact .beyond still (kept.trans same.symm) wrote.unlimited

/-- A unit goes alike as long as there is room. -/
theorem unit (source : Source) :
    MirrorsAfter capacity (.output .full) (short.unit source) (long.unit source) := by
  rw [Emitter.unit, Emitter.unit]
  generalize shortStep : short.start = reached
  generalize longStep : long.start = expected
  have step := mirrors.start
  rw [shortStep, longStep] at step
  cases step with
  | @within _ _ outcome next =>
    cases outcome with
    | none => exact (next.record _ _).readings source 0 _
    | some failure =>
      obtain ⟨begun, started⟩ := start_succeeds mirrors.unlimited
      cases started.symm.trans longStep
  | @beyond _ next outcome exceeds kept unlimited =>
    cases outcome with
    | some failure => exact .beyond exceeds kept unlimited
    | none =>
      have noted : (next.record (.started source.name)).sink.Unlimited := unlimited
      obtain ⟨-, wrote⟩ := readings_outcome noted source 0 (Command.readings source.text.toList)
      obtain ⟨still, same⟩ := wrote.extract_contents exceeds
      exact .beyond still (kept.trans same.symm) wrote.unlimited

end Mirrors

/-! ## Units up to the first that fails -/

/-- The units that are called when units are written one after another up to the first that
fails. -/
def called : List Source → Emitter → List Source
  | [], _ => []
  | source :: rest, emitter =>
    match emitter.unit source with
    | (next, none) => source :: called rest next
    | (_, some _) => [source]

/-- After a unit that succeeds, the next ones are called. -/
theorem called_of_none {source : Source} {emitter next : Emitter}
    (done : emitter.unit source = (next, none)) (rest : List Source) :
    emitter.called (source :: rest) = source :: next.called rest := by
  rw [called, done]

/-- After a unit that fails, no other one is called. -/
theorem called_of_some {source : Source} {emitter next : Emitter} {failure : EmissionFailure}
    (failed : emitter.unit source = (next, some failure)) (rest : List Source) :
    emitter.called (source :: rest) = [source] := by
  rw [called, failed]

/-- How some calls of an emitter with a limited sink end, next to the same calls of one with an
unlimited sink: only the last of them can fail, and it fails if not everything fits, or else as it
does with the unlimited sink. -/
structure Filled (capacity : Nat) (short long : Emitter × List (Option EmissionFailure)) :
    Prop where
  earlier : ∀ outcome ∈ short.2.dropLast, outcome = none
  contents : short.1.sink.contents =
    long.1.sink.contents.extract 0 (min capacity long.1.sink.contents.size)
  last : short.2.getLast?.join =
    if capacity < long.1.sink.contents.size then some (.output .full) else long.2.getLast?.join

/-- Calls that end alike, and of which none but the last can fail. -/
theorem Filled.of_mirrors {capacity : Nat} {short long : Emitter}
    (mirrors : Mirrors capacity short long) {outcomes : List (Option EmissionFailure)}
    (earlier : ∀ outcome ∈ outcomes.dropLast, outcome = none) :
    Filled capacity (short, outcomes) (long, outcomes) := by
  refine ⟨earlier, ?_, ?_⟩
  · rw [Nat.min_eq_right mirrors.fits, ByteArray.extract_zero_size, mirrors.contents]
  · rw [if_neg (Nat.not_lt.mpr mirrors.fits)]

/-- A success at the beginning does not change the last outcome. -/
theorem getLast?_join_cons (outcomes : List (Option EmissionFailure)) :
    (none :: outcomes).getLast?.join = outcomes.getLast?.join := by
  cases outcomes <;> rfl

/-- One more call that succeeds before some calls. -/
theorem Filled.cons {capacity : Nat} {short long : Emitter}
    {outcomes expected : List (Option EmissionFailure)}
    (filled : Filled capacity (short, outcomes) (long, expected)) :
    Filled capacity (short, none :: outcomes) (long, none :: expected) := by
  obtain ⟨earlier, contents, last⟩ := filled
  refine ⟨?_, contents, ?_⟩
  · cases outcomes with
    | nil => exact nofun
    | cons outcome others => exact List.forall_mem_cons.mpr ⟨rfl, earlier⟩
  · rw [getLast?_join_cons, getLast?_join_cons]
    exact last

/-- The calls up to the first that fails end alike. -/
theorem Mirrors.calls {capacity : Nat} {short long : Emitter}
    (mirrors : Mirrors capacity short long) (sources : List Source) :
    Filled capacity (short.calls ((short.called sources).map .unit))
      (long.calls ((short.called sources).map .unit)) := by
  induction sources generalizing short long with
  | nil => exact Filled.of_mirrors mirrors (List.forall_mem_nil _)
  | cons source rest hypothesis =>
    generalize shortStep : short.unit source = reached
    generalize longStep : long.unit source = expected
    have step := mirrors.unit source
    rw [shortStep, longStep] at step
    have alone : ∀ {emitter next : Emitter} {outcome : Option EmissionFailure},
        emitter.unit source = (next, outcome) →
          emitter.calls ([source].map .unit) = (next, [outcome]) := by
      intro emitter next outcome done
      rw [List.map_singleton, Emitter.calls, call, done]
      rfl
    cases step with
    | @within reached expected outcome next =>
      cases outcome with
      | none =>
        have tail := (hypothesis next).cons
        rw [called_of_none shortStep, List.map_cons, Emitter.calls, Emitter.calls, call, call,
          shortStep, longStep]
        exact tail
      | some failure =>
        rw [called_of_some shortStep, alone shortStep, alone longStep]
        exact Filled.of_mirrors next (List.forall_mem_nil _)
    | beyond exceeds kept unlimited =>
      rw [called_of_some shortStep, alone shortStep, alone longStep]
      refine ⟨List.forall_mem_nil _, ?_, ?_⟩
      · rw [Nat.min_eq_left (Nat.le_of_lt exceeds)]
        exact kept
      · rw [if_pos exceeds]
        rfl

/-- The units that are called are the first ones. -/
theorem called_prefix_sources (sources : List Source) (emitter : Emitter) :
    emitter.called sources <+: sources := by
  induction sources generalizing emitter with
  | nil => exact List.prefix_refl _
  | cons source rest hypothesis =>
    cases step : emitter.unit source with
    | mk next outcome =>
      cases outcome with
      | none =>
        rw [called_of_none step]
        exact List.cons_prefix_cons.mpr ⟨rfl, hypothesis next⟩
      | some failure =>
        rw [called_of_some step]
        exact List.prefix_append [source] rest

/-- All units are called if the last call succeeds. -/
theorem called_eq_of_none {sources : List Source} {emitter : Emitter}
    (done : (emitter.calls ((emitter.called sources).map .unit)).2.getLast?.join = none) :
    emitter.called sources = sources := by
  induction sources generalizing emitter with
  | nil => rfl
  | cons source rest hypothesis =>
    cases step : emitter.unit source with
    | mk next outcome =>
      cases outcome with
      | none =>
        rw [called_of_none step, List.map_cons, Emitter.calls, call, step] at done
        rw [called_of_none step, hypothesis (getLast?_join_cons _ ▸ done)]
      | some failure =>
        rw [called_of_some step, List.map_singleton, Emitter.calls, call, step] at done
        cases done

/-- No call fails because of an unlimited sink. -/
theorem last_ne_output {emitter : Emitter} (unlimited : emitter.sink.Unlimited)
    (sources : List Source) (cause : SinkFailure) :
    (emitter.calls (sources.map .unit)).2.getLast?.join ≠ some (.output cause) := by
  rw [(calls_outcome unlimited sources).1]
  intro failed
  have present := List.mem_of_getLast? (Option.join_eq_some_iff.mp failed)
  obtain ⟨source, -, refused⟩ := List.mem_map.mp present
  obtain ⟨fault, -, blamed⟩ := Option.map_eq_some_iff.mp refused
  cases blamed

/-- A new emitter whose sink has so much room, or no end of it. -/
def ofCapacity (options : EmissionOptions) (capacity : Option Nat) : Emitter :=
  { options, sink := { capacity } }

/-- **A sink that fills up holds the beginning of the output.** Units are written one after another
into a sink of some capacity, up to and including the first call that fails. The same calls on an
unlimited sink leave an output of some size. The limited sink then holds the first bytes of this
output, as many as the capacity and the size allow. If the size is larger than the capacity, the
last call fails because the sink is full; otherwise it ends as it does on the unlimited sink, where
no call fails because of the sink. -/
theorem filled_sink_holds_beginning (options : EmissionOptions) (sources : List Source)
    (capacity : Nat) :
    let made := called sources (ofCapacity options (some capacity))
    let short := calls (made.map .unit) (ofCapacity options (some capacity))
    let long := calls (made.map .unit) (ofCapacity options none)
    let size := long.1.sink.contents.size
    (made <+: sources ∧ (∀ outcome ∈ short.2.dropLast, outcome = none) ∧
      (short.2.getLast?.join = none → made = sources)) ∧
    short.1.sink.contents = long.1.sink.contents.extract 0 (min capacity size) ∧
    ((∃ cause, short.2.getLast?.join = some (.output cause)) ↔ capacity < size) ∧
    (size ≤ capacity → short.2.getLast?.join = long.2.getLast?.join) := by
  intro made short long size
  have mirrors : Mirrors capacity (ofCapacity options (some capacity)) (ofCapacity options none) :=
    ⟨rfl, rfl, rfl, rfl, rfl, Nat.zero_le _, rfl, rfl⟩
  have filled := mirrors.calls sources
  have last : short.2.getLast?.join =
      if capacity < size then some (.output .full) else long.2.getLast?.join := filled.last
  refine ⟨⟨called_prefix_sources _ _, filled.earlier, called_eq_of_none⟩, filled.contents, ?_, ?_⟩
  · constructor
    · rintro ⟨cause, failed⟩
      by_contra small
      rw [last, if_neg small] at failed
      exact last_ne_output mirrors.unlimited made cause failed
    · intro exceeds
      exact ⟨.full, last.trans (if_pos exceeds)⟩
  · intro fits
    exact last.trans (if_neg (Nat.not_lt.mpr fits))

end Emitter

end HackToolchain
