import HackToolchain.Proofs.StraightCode

/-! # Runs

A run executes one instruction after another until it stops, and there are three ways to stop: past
the program, with the budget spent, and at a fault (`run_outcome`). All of this follows from what
one step can do (`step_cases`): past the program and at a fault a step changes nothing, so that a
computer which has stopped there stays where it is. A run can therefore be cut in two at any number
of steps (`run_in_two`).
-/

namespace HackToolchain.Computer

/-! ## One step -/

/-- All that a step can do: nothing past the program, nothing at a fault, and otherwise one
instruction, which is counted. -/
theorem step_cases (computer : Computer) :
    (computer.halted ∧ computer.step = (computer, .ended)) ∨
    (¬computer.halted ∧ computer.step = (computer, .faulted ⟨computer.a, computer.counter⟩)) ∨
    ∃ next, ¬computer.halted ∧ computer.Executes next ∧ next.steps = computer.steps + 1 := by
  obtain ⟨program, memory, a, d, counter, steps⟩ := computer
  simp only [halted, decide_eq_true_eq, Nat.not_le, Executes]
  cases found : program[counter]? with
  | none =>
    refine .inl ⟨Array.getElem?_eq_none_iff.mp found, ?_⟩
    simp only [step, found]
  | some instruction =>
    obtain ⟨inside, -⟩ := Array.getElem?_eq_some_iff.mp found
    right
    cases instruction with
    | load value =>
      refine .inr ⟨⟨program, memory, value, d, counter + 1, steps + 1⟩, inside, ?_, rfl⟩
      simp only [step, found]
    | compute destination input computation jump =>
      by_cases refused : touchesMemory destination input && !decide (Memory.InRange a)
      · refine .inl ⟨inside, ?_⟩
        simp only [step, found, refused, ↓reduceIte]
      · refine .inr ⟨(step ⟨program, memory, a, d, counter, steps⟩).1, inside, ?_, ?_⟩
        · simp only [step, found, refused, Bool.false_eq_true, ↓reduceIte]
        · simp only [step, found, refused, Bool.false_eq_true, ↓reduceIte]

/-- A computer that has halted stays where it is. -/
theorem step_of_halted {computer : Computer} (halted : computer.halted) :
    computer.step = (computer, .ended) := by
  rcases computer.step_cases with ⟨-, ended⟩ | ⟨running, -⟩ | ⟨-, running, -⟩
  · exact ended
  · exact absurd halted running
  · exact absurd halted running

/-- A computer that executes an instruction has not halted. -/
theorem Executes.not_halted {first last : Computer} (executes : first.Executes last) :
    ¬first.halted := by
  intro halted
  cases (step_of_halted halted).symm.trans executes

/-- An instruction counts as a step. -/
theorem Executes.steps_eq {first last : Computer} (executes : first.Executes last) :
    last.steps = first.steps + 1 := by
  rcases first.step_cases with ⟨halted, -⟩ | ⟨-, faulted⟩ | ⟨next, -, same, counted⟩
  · exact absurd halted executes.not_halted
  · cases faulted.symm.trans executes
  · rw [executes.unique same, counted]

/-- A step at fault changes nothing, and names the address and the instruction. -/
theorem eq_of_step_faulted {computer next : Computer} {fault : AddressFault}
    (faulted : computer.step = (next, .faulted fault)) :
    next = computer ∧ fault = ⟨computer.a, computer.counter⟩ := by
  rcases computer.step_cases with ⟨-, ended⟩ | ⟨-, refused⟩ | ⟨other, -, executes, -⟩
  · cases ended.symm.trans faulted
  · cases refused.symm.trans faulted
    exact ⟨rfl, rfl⟩
  · cases executes.symm.trans faulted

/-! ## Many steps -/

/-- So many steps that execute instructions. -/
inductive ExecutesFor : Nat → Computer → Computer → Prop where
  | none (computer : Computer) : ExecutesFor 0 computer computer
  | step {count : Nat} {first middle last : Computer} (executes : first.Executes middle)
      (rest : ExecutesFor count middle last) : ExecutesFor (count + 1) first last

namespace ExecutesFor

variable {count : Nat} {first last : Computer}

theorem program_eq (executes : ExecutesFor count first last) : last.program = first.program := by
  induction executes with
  | none => rfl
  | step executes _ hypothesis => exact hypothesis.trans executes.program_eq

theorem steps_eq (executes : ExecutesFor count first last) : last.steps = first.steps + count := by
  induction executes with
  | none => rfl
  | step executes _ hypothesis =>
    rw [hypothesis, executes.steps_eq]
    omega

/-- What is left of a budget after some steps is spent from where they lead. -/
theorem run_add (executes : ExecutesFor count first last) (budget : Nat) :
    first.run (count + budget) = last.run budget := by
  induction executes with
  | none => rw [Nat.zero_add]
  | step executes _ hypothesis =>
    rw [Nat.succ_add, run, show _ = _ from executes]
    exact hypothesis

/-- A run with the budget for some steps ends where they lead. -/
theorem run_eq (executes : ExecutesFor count first last) :
    first.run count = (last, if last.halted then .halted else .exhausted) := by
  have spent := executes.run_add 0
  rw [Nat.add_zero] at spent
  rw [spent, run]
  split
  · rfl
  · rfl

end ExecutesFor

/-- Straight code is executed in as many steps as it has instructions. -/
theorem Straight.executesFor {count : Nat} {first last : Computer}
    (straight : Straight count first last) : ExecutesFor count first last := by
  induction straight with
  | done computer => exact .none computer
  | step executes _ _ hypothesis => exact .step executes hypothesis

/-- Straight code after straight code is straight. -/
theorem Straight.append {count further : Nat} {first middle last : Computer}
    (straight : Straight count first middle) (rest : Straight further middle last) :
    Straight (count + further) first last := by
  induction straight with
  | done => rwa [Nat.zero_add]
  | step executes next _ hypothesis =>
    rw [Nat.succ_add]
    exact .step executes next (hypothesis rest)

/-! ## Runs -/

/-- A run from where the computer has halted ends at once. -/
theorem run_of_halted {computer : Computer} (halted : computer.halted) (budget : Nat) :
    computer.run budget = (computer, .halted) := by
  cases budget with
  | zero => rw [run, if_pos halted]
  | succ budget => rw [run, step_of_halted halted]

/-- A run up to a fault stays there. -/
theorem run_of_faulted {computer : Computer} {fault : AddressFault}
    (faulted : computer.step = (computer, .faulted fault)) (budget : Nat) :
    computer.run (budget + 1) = (computer, .faulted fault) := by
  rw [run, faulted]

/-- How a run stops, after how many steps: past the program, with the budget spent to the last step,
or at a fault with some of the budget left. -/
theorem run_outcome (computer : Computer) (budget : Nat) :
    ∃ count last, count ≤ budget ∧ computer.ExecutesFor count last ∧
      (last.halted ∧ computer.run budget = (last, .halted) ∨
        ¬last.halted ∧ count = budget ∧ computer.run budget = (last, .exhausted) ∨
        ∃ fault, ¬last.halted ∧ count < budget ∧ last.step = (last, .faulted fault) ∧
          computer.run budget = (last, .faulted fault)) := by
  induction budget generalizing computer with
  | zero =>
    refine ⟨0, computer, Nat.le_refl 0, .none computer, ?_⟩
    by_cases halted : computer.halted
    · exact .inl ⟨halted, run_of_halted halted 0⟩
    · exact .inr (.inl ⟨halted, rfl, by rw [run, if_neg halted]⟩)
  | succ budget hypothesis =>
    rcases computer.step_cases with ⟨halted, -⟩ | ⟨running, faulted⟩ | ⟨next, -, executes, -⟩
    · exact ⟨0, computer, Nat.zero_le _, .none computer, .inl ⟨halted, run_of_halted halted _⟩⟩
    · exact ⟨0, computer, Nat.zero_le _, .none computer, .inr (.inr ⟨_, running,
        Nat.succ_pos budget, faulted, run_of_faulted faulted budget⟩)⟩
    · obtain ⟨count, last, within, further, stops⟩ := hypothesis next
      have rest : computer.run (budget + 1) = next.run budget := by
        rw [run, show _ = _ from executes]
      rw [rest]
      refine ⟨count + 1, last, Nat.succ_le_succ within, .step executes further, ?_⟩
      rcases stops with halted | ⟨running, spent, exhausted⟩ |
        ⟨fault, running, left, faulted, stopped⟩
      · exact .inl halted
      · exact .inr (.inl ⟨running, congrArg (· + 1) spent, exhausted⟩)
      · exact .inr (.inr ⟨fault, running, Nat.succ_lt_succ left, faulted, stopped⟩)

/-- A run that does not end in a fault goes on as if it had not stopped. -/
theorem run_add_of_not_faulted {computer : Computer} {budget : Nat}
    (fine : ∀ fault, (computer.run budget).2 ≠ .faulted fault) (further : Nat) :
    computer.run (budget + further) = (computer.run budget).1.run further := by
  obtain ⟨count, last, within, executes, ⟨halted, stopped⟩ | ⟨-, rfl, stopped⟩ |
    ⟨fault, -, -, -, stopped⟩⟩ := computer.run_outcome budget
  · obtain ⟨left, rfl⟩ := Nat.exists_eq_add_of_le within
    rw [stopped, Nat.add_assoc, executes.run_add, run_of_halted halted, run_of_halted halted]
  · rw [stopped, executes.run_add]
  · rw [stopped] at fine
    exact absurd rfl (fine fault)

/-- A run that ends in a fault is not changed by a larger budget. -/
theorem run_add_of_faulted {computer : Computer} {budget : Nat} {fault : AddressFault}
    (faulty : (computer.run budget).2 = .faulted fault) (further : Nat) :
    computer.run (budget + further) = computer.run budget := by
  obtain ⟨count, last, -, executes, ⟨-, stopped⟩ | ⟨-, -, stopped⟩ |
    ⟨fault, -, left, faulted, stopped⟩⟩ := computer.run_outcome budget
  · rw [stopped] at faulty
    cases faulty
  · rw [stopped] at faulty
    cases faulty
  · obtain ⟨rest, rfl⟩ := Nat.exists_eq_add_of_lt left
    have whole : count + rest + 1 + further = count + (rest + further + 1) := by omega
    rw [stopped, whole, executes.run_add, run_of_faulted faulted]

/-- A run has halted just when the counter has left the program. -/
theorem run_halted_iff (computer : Computer) (budget : Nat) :
    (computer.run budget).2 = .halted ↔
      computer.program.size ≤ (computer.run budget).1.counter := by
  obtain ⟨count, last, -, executes, stops⟩ := computer.run_outcome budget
  have past : last.halted ↔ computer.program.size ≤ last.counter := by
    rw [halted, decide_eq_true_iff, executes.program_eq]
  rcases stops with ⟨halted, stopped⟩ | ⟨running, -, stopped⟩ | ⟨fault, running, -, -, stopped⟩
  · rw [stopped, ← past]
    exact iff_of_true rfl halted
  · rw [stopped, ← past]
    exact iff_of_false nofun running
  · rw [stopped, ← past]
    exact iff_of_false nofun running

/-- A run that is spent has executed as many instructions as it was given. -/
theorem executesFor_of_exhausted {computer : Computer} {budget : Nat}
    (exhausted : (computer.run budget).2 = .exhausted) :
    computer.ExecutesFor budget (computer.run budget).1 := by
  obtain ⟨count, last, -, executes, ⟨-, stopped⟩ | ⟨-, rfl, stopped⟩ |
    ⟨fault, -, -, -, stopped⟩⟩ := computer.run_outcome budget
  · rw [stopped] at exhausted
    cases exhausted
  · rw [stopped]
    exact executes
  · rw [stopped] at exhausted
    cases exhausted

/-- **A run can be cut in two.** A run that does not end in a fault, followed by another from where
it ended, is one run with both budgets, and a run that ends in a fault ends there with any larger
budget too. A run halts just when it leaves the program, and its budget is spent only when it has
executed so many instructions. A step at fault changes nothing, so that it is at fault again in the
same way, and a computer past its program is not changed by a step or a run. -/
theorem run_in_two (computer : Computer) (budget further : Nat) :
    ((∀ fault, (computer.run budget).2 ≠ .faulted fault) →
      computer.run (budget + further) = (computer.run budget).1.run further) ∧
    (∀ fault, (computer.run budget).2 = .faulted fault →
      computer.run (budget + further) = computer.run budget) ∧
    ((computer.run budget).2 = .halted ↔
      computer.program.size ≤ (computer.run budget).1.counter) ∧
    ((computer.run budget).2 = .exhausted →
      computer.ExecutesFor budget (computer.run budget).1 ∧
        (computer.run budget).1.steps = computer.steps + budget) ∧
    (∀ next fault, computer.step = (next, .faulted fault) →
      next = computer ∧ fault = ⟨computer.a, computer.counter⟩ ∧
        next.step = (next, .faulted fault)) ∧
    (computer.halted →
      computer.step = (computer, .ended) ∧ computer.run budget = (computer, .halted)) := by
  refine ⟨fun fine => run_add_of_not_faulted fine further,
    fun fault faulty => run_add_of_faulted faulty further, run_halted_iff computer budget, ?_, ?_,
    fun halted => ⟨step_of_halted halted, run_of_halted halted budget⟩⟩
  · intro exhausted
    have executes := executesFor_of_exhausted exhausted
    exact ⟨executes, executes.steps_eq⟩
  · intro next fault faulted
    obtain ⟨rfl, named⟩ := eq_of_step_faulted faulted
    exact ⟨rfl, named, faulted⟩

/-- A program that reads outside the memory with its second instruction. -/
def strayProgram : Array Instruction :=
  #[.compute { a := true } .address .minusOne .never, .compute { d := true } .memory .y .never,
    .load 0]

/-- The run that is stopped before the fault goes on to it, and the fault is met again. -/
theorem run_in_two_strayProgram :
    (∀ fault, (run 1 { program := strayProgram }).2 ≠ .faulted fault) ∧
      run (1 + 4) { program := strayProgram } = (run 1 { program := strayProgram }).1.run 4 ∧
      (run 5 { program := strayProgram }).2 = .faulted ⟨65535, 1⟩ ∧
      run (5 + 3) { program := strayProgram } = run 5 { program := strayProgram } ∧
      (run 1 { program := strayProgram }).1.steps = 1 := by
  have exhausted : (run 1 { program := strayProgram }).2 = .exhausted := rfl
  have faulted : (run 5 { program := strayProgram }).2 = .faulted ⟨65535, 1⟩ := rfl
  have fine : ∀ fault, (run 1 { program := strayProgram }).2 ≠ .faulted fault := by
    rw [exhausted]
    nofun
  obtain ⟨composes, -, -, counts, -⟩ := run_in_two { program := strayProgram } 1 4
  obtain ⟨-, stays, -⟩ := run_in_two { program := strayProgram } 5 3
  exact ⟨fine, composes fine, faulted, stays _ faulted, (counts exhausted).2⟩

end HackToolchain.Computer
