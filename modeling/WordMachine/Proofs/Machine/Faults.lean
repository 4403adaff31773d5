import WordMachine.Proofs.Machine.Effects

/-!
# What a fault leaves

Storing, pushing and popping change nothing if they fault, and almost every instruction changes
nothing before it can no longer fault.  So a step that faults leaves memory as it was: its
instruction is counted and the pointer has moved on.  Only a pop has gone further when it finds that
it cannot store its word.
-/

namespace WordMachine

namespace Machine

section Operations

variable {σ α β : Type} {m m' : Machine σ} {i : Instruction} {op : Opcode}

/-! ## Operations that fault in place -/

/-- An operation that faults leaves the machine as it was. -/
def FaultsInPlace (x : Exec σ α) : Prop :=
  ∀ m fault after, x m = .error fault after → after = m

namespace FaultsInPlace

theorem pure (a : α) : FaultsInPlace (pure a : Exec σ α) :=
  fun _ _ _ failed => nomatch failed

theorem throw (fault : Fault) : FaultsInPlace (throw fault : Exec σ α) := by
  intro m fault after failed
  cases failed
  rfl

theorem inspect_bind {f : Machine σ → Except Fault α} {k : α → Exec σ β}
    (rest : ∀ a, FaultsInPlace (k a)) : FaultsInPlace (inspect f >>= k) := by
  intro m fault after failed
  rcases inspect_bind_eq_error_iff.1 failed with ⟨-, same⟩ | ⟨a, -, failed⟩
  · exact same
  · exact rest a m fault after failed

theorem get_bind {k : Machine σ → Exec σ β} (rest : ∀ m, FaultsInPlace (k m)) :
    FaultsInPlace (get >>= k) :=
  fun m => rest m m

/-- What cannot fault may follow: the machine has not changed before the fault. -/
theorem bind_total {x : Exec σ α} {k : α → Exec σ β} (first : FaultsInPlace x)
    (total : ∀ a m fault after, k a m ≠ .error fault after) : FaultsInPlace (x >>= k) := by
  intro m fault after failed
  rcases Exec.bind_eq_error_iff.1 failed with failed | ⟨a, between, -, failed⟩
  · exact first m fault after failed
  · exact absurd failed (total a between fault after)

theorem ite {c : Prop} [Decidable c] {x y : Exec σ α} (yes : FaultsInPlace x)
    (no : FaultsInPlace y) : FaultsInPlace (if c then x else y) := by
  split
  · exact yes
  · exact no

theorem writeWord (address w : Word) : FaultsInPlace (σ := σ) (writeWord address w) := by
  intro m fault after failed
  unfold Machine.writeWord at failed
  split at failed
  · cases failed
  · cases failed
    rfl

theorem store (x : Operand) (w : Word) : FaultsInPlace (σ := σ) (store x w) := by
  intro m fault after failed
  unfold Machine.store at failed
  split at failed
  · split at failed
    · exact writeWord _ _ m fault after failed
    · cases failed
      rfl
  · split at failed
    · exact writeWord _ _ m fault after failed
    · cases failed
      rfl
  · split at failed
    · split at failed
      · exact writeWord _ _ m fault after failed
      · cases failed
    · cases failed
      rfl
  · cases failed
    rfl

theorem push (w : Word) : FaultsInPlace (σ := σ) (push w) := by
  intro m fault after failed
  unfold Machine.push at failed
  dsimp only at failed
  split at failed
  · cases failed
    rfl
  · split at failed
    · rename_i refused
      cases failed
      exact writeWord _ _ m _ _ refused
    · cases failed

theorem pop : FaultsInPlace (σ := σ) pop := by
  intro m fault after failed
  unfold Machine.pop at failed
  dsimp only at failed
  split at failed
  · cases failed
    rfl
  · split at failed
    · cases failed
      rfl
    · cases failed

theorem branch (i : Instruction) (condition : Bool) :
    FaultsInPlace (σ := σ) (branch i condition) :=
  .ite (.inspect_bind fun _ => fun _ _ _ failed => nomatch failed) (.pure ())

end FaultsInPlace

theorem execute_faultsInPlace [RandomSource σ] (pops : op ≠ .pop) (draws : op ≠ .rdrand) :
    FaultsInPlace (σ := σ) (execute op i) := by
  cases op with
  | nop => exact .pure ()
  | halt => exact fun _ _ _ failed => nomatch failed
  | push => exact .inspect_bind fun a => .push a
  | pop => exact absurd rfl pops
  | add | sub | mul | shl | shr | cmp => exact .inspect_bind fun _ => .store _ _
  | inc | dec | not | mov => exact .inspect_bind fun _ => .store _ _
  | div =>
      refine .inspect_bind fun _ => .ite (.throw _) ?_
      exact .bind_total (.store _ _) fun _ _ _ _ failed => nomatch failed
  | mod => exact .inspect_bind fun _ => .ite (.throw _) (.store _ _)
  | call =>
      refine .inspect_bind fun _ => .get_bind fun _ => ?_
      exact .bind_total (.push _) fun _ _ _ _ failed => nomatch failed
  | ret => exact .bind_total .pop fun _ _ _ _ failed => nomatch failed
  | jmp => exact .branch i true
  | jeq | jne | jnz => exact .inspect_bind fun _ => .branch i _
  | rdrand => exact absurd rfl draws

theorem execute_pop_error [RandomSource σ] {fault : Fault}
    (failed : execute .pop i m = .error fault m') :
    pop m = .error fault m' ∧ m' = m ∨
      ∃ w, pop m = .ok w m' ∧ store i.a w m' = .error fault m' := by
  rcases Exec.bind_eq_error_iff.1 failed with failed | ⟨w, after, popped, failed⟩
  · exact .inl ⟨failed, FaultsInPlace.pop m fault m' failed⟩
  · have same := FaultsInPlace.store i.a w after fault m' failed
    subst same
    exact .inr ⟨w, popped, failed⟩

theorem execute_rdrand_error [RandomSource σ] {fault : Fault}
    (failed : execute .rdrand i m = .error fault m') : ∃ source, m' = { m with source } := by
  rcases inspect_bind_eq_error_iff.1 failed with ⟨-, rfl⟩ | ⟨⟨low, high⟩, -, failed⟩
  · exact ⟨m'.source, rfl⟩
  · dsimp only at failed
    split at failed
    · rcases Exec.bind_eq_error_iff.1 failed with failed | ⟨w, after, drawn, failed⟩
      · cases failed
      · cases drawn
        exact ⟨_, FaultsInPlace.store i.a _ _ fault m' failed⟩
    · split at failed
      · cases failed
        exact ⟨m.source, rfl⟩
      · rcases Exec.bind_eq_error_iff.1 failed with failed | ⟨w, after, drawn, failed⟩
        · cases failed
        · cases drawn
          exact ⟨_, FaultsInPlace.store i.a _ _ fault m' failed⟩

/-- What an instruction that faults has changed: nothing but the random source, or, if it has popped
a word that it cannot store, the count of the stack. -/
theorem execute_error_cases [RandomSource σ] {fault : Fault}
    (failed : execute op i m = .error fault m') :
    (∃ source, m' = { m with source }) ∧ (op = .pop → pop m = .error fault m') ∨
      op = .pop ∧ ∃ w, pop m = .ok w m' ∧ store i.a w m' = .error fault m' := by
  by_cases pops : op = .pop
  · subst pops
    rcases execute_pop_error failed with ⟨empty, rfl⟩ | stored
    · exact .inl ⟨⟨m'.source, rfl⟩, fun _ => empty⟩
    · exact .inr ⟨rfl, stored⟩
  · refine .inl ⟨?_, fun same => absurd same pops⟩
    by_cases draws : op = .rdrand
    · subst draws
      exact execute_rdrand_error failed
    · exact ⟨m.source, execute_faultsInPlace pops draws m fault m' failed⟩

end Operations

/-! ## Steps that fault -/

variable {σ : Type} {m m' : Machine σ}

/-- The next instruction is a pop that takes a word off the stack and cannot store it. -/
def CannotStorePopped (m : Machine σ) (fault : Fault) : Prop :=
  ∃ i w after, m.fetch = .ok (.pop, i) ∧ pop m.advance = .ok w after ∧
    store i.a w after = .error fault after

/-- The machine that a faulting step leaves.  An instruction that is not fetched has changed
nothing, one that faults has been counted, and a pop that cannot store its word has taken it off the
stack. -/
inductive FaultLeaves (m : Machine σ) : StepFault → Machine σ → Prop
  | refused {fault : StepFault} (refused : m.fetch = .error fault) : FaultLeaves m fault m
  | counted {op : Opcode} {cause : Fault} (source : σ) (whole : ¬ m.CannotStorePopped cause) :
      FaultLeaves m (.execution (m.register Register.instructionPointer) op cause)
        { m.advance with source }
  | popped {cause : Fault} (unstored : m.CannotStorePopped cause) :
      FaultLeaves m (.execution (m.register Register.instructionPointer) .pop cause)
        (m.advance.setRegister Register.stackCount (m.register Register.stackCount - 1))

theorem faultLeaves_of_step [RandomSource σ] {fault : StepFault}
    (failed : step m = .error fault m') : FaultLeaves m fault m' := by
  obtain ⟨-, ⟨refused, rfl⟩ | ⟨op, i, cause, fetched, faulted, rfl⟩⟩ := step_eq_error_iff.1 failed
  · exact .refused refused
  · rcases execute_error_cases faulted with ⟨⟨source, rfl⟩, empty⟩ | ⟨rfl, w, popped, unstored⟩
    · refine .counted source ?_
      rintro ⟨j, w, after, pop, popped, -⟩
      rw [fetched, Except.ok.injEq, Prod.mk.injEq] at pop
      rw [empty pop.1] at popped
      cases popped
    · have cannot : m.CannotStorePopped cause := ⟨i, w, m', fetched, popped, unstored⟩
      obtain ⟨-, -, -, -, rfl⟩ := pop_eq_ok_iff.1 popped
      rw [m.register_advance (by decide) (by decide)]
      exact .popped cannot

theorem fetch_ne_execution {address : Word} {op : Opcode} {cause : Fault} :
    m.fetch ≠ .error (.execution address op cause) := by
  unfold fetch
  dsimp only
  split
  · simp
  · split <;> simp

end Machine

open Machine in
/-- A step that faults leaves the machine so that it can be looked at.  Memory is as it was, the
machine is not stopped, and if no instruction was fetched, nothing has changed at all.  Otherwise
the pointer has moved on and the instruction is counted; no other register has changed, except that
a pop which cannot store its word has taken it off the stack.  So a division has not touched the
remainder, and a call has neither jumped nor pushed. -/
theorem faulting_step_leaves_machine {σ : Type} [RandomSource σ] {m m' : Machine σ}
    {fault : StepFault} (failed : step m = .error fault m') :
    m'.memory = m.memory ∧ m'.running = m.running ∧
      (∀ address, fault = .fetch address → m' = m) ∧
      (∀ address defect, fault = .illegal address defect → m' = m) ∧
      ∀ address op cause, fault = .execution address op cause →
        address = m.register Register.instructionPointer ∧
        m'.register Register.instructionPointer = address + 4 ∧
        m'.register Register.instructionCount = m.register Register.instructionCount + 1 ∧
        (∀ r, r ≠ Register.instructionPointer → r ≠ Register.instructionCount →
          (r = Register.stackCount → ¬ m.CannotStorePopped cause) →
            m'.register r = m.register r) ∧
        (m.CannotStorePopped cause → op = .pop ∧
          m'.register Register.stackCount = m.register Register.stackCount - 1) ∧
        (op = .div → m'.register Register.remainder = m.register Register.remainder) ∧
        (op = .call → m'.register Register.stackCount = m.register Register.stackCount) := by
  cases faultLeaves_of_step failed with
  | refused refused =>
      refine ⟨rfl, rfl, fun _ _ => rfl, fun _ _ _ => rfl, ?_⟩
      rintro address op cause rfl
      exact absurd refused fetch_ne_execution
  | counted source whole =>
      refine ⟨rfl, rfl, nofun, nofun, ?_⟩
      intro address op cause same
      cases same
      have kept (r : Register) (pointer : r ≠ Register.instructionPointer)
          (count : r ≠ Register.instructionCount) : m.advance.register r = m.register r :=
        m.register_advance pointer count
      exact ⟨rfl, m.instructionPointer_advance, m.instructionCount_advance,
        fun r pointer count _ => kept r pointer count, fun cannot => absurd cannot whole,
        fun _ => kept _ (by decide) (by decide), fun _ => kept _ (by decide) (by decide)⟩
  | popped unstored =>
      refine ⟨rfl, rfl, nofun, nofun, ?_⟩
      intro address op cause same
      cases same
      have kept (r : Register) (pointer : r ≠ Register.instructionPointer)
          (count : r ≠ Register.instructionCount) (stack : r ≠ Register.stackCount) :
          (m.advance.setRegister Register.stackCount (m.register Register.stackCount - 1)).register
            r = m.register r := by
        rw [register_setRegister_of_ne _ _ stack.symm, m.register_advance pointer count]
      refine ⟨rfl, ?_, ?_, ?_, fun _ => ⟨rfl, register_setRegister_same _ _ _⟩, nofun, nofun⟩
      · rw [register_setRegister_of_ne _ _ (by decide), instructionPointer_advance]
      · rw [register_setRegister_of_ne _ _ (by decide), instructionCount_advance]
      · exact fun r pointer count other => kept r pointer count fun stack => other stack unstored

theorem pop_into_literal_leaves_count :
    let m := oneInstruction (.ofOperands .pop [.literal 5]) 63
    ∃ m', Machine.step m = .error (.execution 0 .pop .literalDestination) m' ∧
      m.CannotStorePopped .literalDestination ∧ m'.memory = m.memory ∧ m'.running = true ∧
      m'.register Register.instructionPointer = 4 ∧ m'.register Register.instructionCount = 1 ∧
      m'.register Register.stackCount = 62 ∧
      m'.register Register.stackBase = m.register Register.stackBase := by
  intro m
  have failed : Machine.step m =
      .error (.execution 0 .pop .literalDestination) (Machine.left (Machine.step m)) :=
    Machine.eq_error_of_fault? (by decide +kernel)
  have fetched : m.fetch = .ok (.pop, .ofOperands .pop [.literal 5]) := by decide +kernel
  have popped : Machine.pop m.advance = .ok 5 (m.advance.setRegister Register.stackCount
      (m.advance.register Register.stackCount - 1)) :=
    Machine.pop_eq_ok_iff.2
      ⟨by decide +kernel, .memory 1, by decide +kernel, by decide +kernel, rfl⟩
  have unstored : m.CannotStorePopped .literalDestination := ⟨_, _, _, fetched, popped, rfl⟩
  obtain ⟨memory, running, -, -, execution⟩ := faulting_step_leaves_machine failed
  obtain ⟨-, pointer, count, others, stack, -⟩ := execution _ _ _ rfl
  exact ⟨_, failed, unstored, memory, running, pointer, count,
    (stack unstored).2.trans (by decide +kernel), others _ (by decide) (by decide) nofun⟩

end WordMachine
