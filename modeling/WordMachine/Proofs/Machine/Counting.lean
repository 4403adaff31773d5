import WordMachine.Proofs.Machine.Faults
import WordMachine.Proofs.Machine.Runs

/-!
# The count of instructions

The count of instructions is a register that every instruction moves on before it does anything
else.  Only a result that goes to that very register can change it otherwise: no address leads to a
register.  So along any steps, and in every run, the count grows by the number of instructions that
have been executed, those that fault included.
-/

namespace WordMachine

/-- The result of the instruction goes to a register. -/
def Trace.Targets (t : Trace) (r : Register) : Prop :=
  t.op.stores = true ∧ t.operands.head? = some ⟨Mode.of .register false, .ofNat r.val⟩

instance (t : Trace) (r : Register) : Decidable (t.Targets r) :=
  inferInstanceAs (Decidable (_ ∧ _))

namespace Machine

variable {σ : Type} {m m' : Machine σ} {i : Instruction} {op : Opcode}

/-! ## Results that go to a register -/

theorem eq_of_location?_register {x : Operand} {r : Register}
    (found : m.location? x = some (.register r)) :
    x = ⟨Mode.of .register false, .ofNat r.val⟩ := by
  unfold location? at found
  split at found
  · split at found
    · exact absurd found Location.ofAddress?_ne_register
    · cases found
  · obtain ⟨cell, at_cell, found⟩ := Option.bind_eq_some_iff.1 found
    split at found
    · exact absurd found Location.ofAddress?_ne_register
    · cases found
      exact absurd at_cell Location.ofAddress?_ne_register
  · rename_i kind
    obtain ⟨s, named, found⟩ := Option.bind_eq_some_iff.1 found
    split at found
    · exact absurd found Location.ofAddress?_ne_register
    · rename_i direct
      cases found
      have mode := Mode.eq_of_of_kind? kind
      rw [Bool.not_eq_true] at direct
      rw [direct] at mode
      have value : x.value = .ofNat r.val := by
        rw [← Register.ofWord?_eq_some_iff.1 named, UInt64.ofNat_toNat]
      rw [← mode, ← value]
  · cases found

theorem targets_of_destination? {address : Word} {r : Register}
    (destination : m.destination? op i = some (.register r)) :
    Trace.Targets ⟨address, op, i.operands.take op.arity⟩ r := by
  obtain ⟨stores, found⟩ := destination?_eq_some_iff.1 destination
  have first : (i.operands.take op.arity).head? = some i.a := by
    cases op <;> first | rfl | cases stores
  exact ⟨stores, first.trans (congrArg some (eq_of_location?_register found))⟩

/-! ## One instruction -/

section Execution

variable [RandomSource σ]

theorem instructionCount_of_execute_error {fault : Fault}
    (failed : execute op i m = .error fault m') :
    m'.register Register.instructionCount = m.register Register.instructionCount := by
  rcases execute_error_cases failed with ⟨⟨source, rfl⟩, -⟩ | ⟨-, w, popped, -⟩
  · rfl
  · exact pop_frame popped (.register Register.instructionCount) (by decide)

end Execution

/-! ## One step -/

theorem trace?_of_stopped (stopped : m.running = false) : m.trace? = none := by
  simp [trace?, stopped]

theorem trace?_of_refused {fault : StepFault} (refused : m.fetch = .error fault) :
    m.trace? = none := by
  simp [trace?, refused]

theorem trace?_of_fetch (running : m.running = true) (fetched : m.fetch = .ok (op, i)) :
    m.trace? =
      some ⟨m.register Register.instructionPointer, op, i.operands.take op.arity⟩ := by
  simp [trace?, running, fetched]

variable [RandomSource σ]

/-- A step counts the instruction that it executes, if it gets that far. -/
theorem instructionCount_of_step
    (free : ∀ t ∈ m.trace?.toList, ¬ t.Targets Register.instructionCount) :
    (left (step m)).register Register.instructionCount =
      m.register Register.instructionCount + .ofNat m.trace?.toList.length := by
  cases running : m.running with
  | false =>
      rw [step_eq_ok_iff.2 (.inl ⟨running, rfl⟩), trace?_of_stopped running]
      simp [left]
  | true =>
      cases fetched : m.fetch with
      | error fault =>
          rw [step_eq_error_iff.2 ⟨running, .inl ⟨fetched, rfl⟩⟩, trace?_of_refused fetched]
          simp [left]
      | ok pair =>
          obtain ⟨op, i⟩ := pair
          rw [trace?_of_fetch running fetched] at free ⊢
          have counted : (left (step m)).register Register.instructionCount =
              m.advance.register Register.instructionCount := by
            rw [step_of_fetch running fetched]
            cases executed : execute op i m.advance with
            | ok _ after =>
                refine register_of_execute executed ?_ (by decide) (by decide) fun _ => by decide
                intro destination
                exact free _ (List.mem_singleton.2 rfl) (targets_of_destination? destination)
            | error fault after => exact instructionCount_of_execute_error executed
          rw [counted, instructionCount_advance]
          rfl

/-! ## Many steps -/

def afterSteps : Nat → Machine σ → Machine σ
  | 0, m => m
  | n + 1, m => afterSteps n (left (step m))

def executedIn : Nat → Machine σ → List Trace
  | 0, _ => []
  | n + 1, m => m.trace?.toList ++ executedIn n (left (step m))

/-- The count has grown by the number of the instructions that have been executed, modulo `2 ^ 64`,
unless one of them has the count as its destination. -/
def Counts (m : Machine σ) (executed : List Trace) (m' : Machine σ) : Prop :=
  (∀ t ∈ executed, ¬ t.Targets Register.instructionCount) →
    (m'.register Register.instructionCount).toNat =
      ((m.register Register.instructionCount).toNat + executed.length) % UInt64.size

theorem counts_afterSteps (n : Nat) (m : Machine σ) :
    Counts m (executedIn n m) (afterSteps n m) := by
  induction n generalizing m with
  | zero =>
      intro _
      exact (Nat.mod_eq_of_lt (m.register Register.instructionCount).toNat_lt).symm
  | succ n ih =>
      intro free
      simp only [executedIn, List.forall_mem_append] at free
      -- Whether the first step faults does not matter: the others go on from what it leaves.
      have first := instructionCount_of_step free.1
      rw [afterSteps, ih (left (step m)) free.2, first, executedIn, List.length_append,
        UInt64.toNat_add, UInt64.toNat_ofNat', UInt64.size]
      omega

/-! ## Runs -/

theorem traceFrom_eq (done : List Trace) (n : Nat) (m : Machine σ) :
    traceFrom done n m = done.reverse ++ traceFrom [] n m := by
  induction n generalizing done m with
  | zero => simp [traceFrom]
  | succ n ih =>
      unfold traceFrom
      split
      · simp
      · split
        · rename_i t _ _ next _
          rw [ih (t :: done), ih [t]]
          simp
        · simp

theorem traceFrom_succ_of_step (running : m.running = true) (stepped : step m = .ok () m')
    (n : Nat) : traceFrom [] (n + 1) m = m.trace?.toList ++ traceFrom [] n m' := by
  rcases step_eq_ok_iff.1 stepped with ⟨stopped, -⟩ | ⟨-, op, i, fetched, -⟩
  · rw [running] at stopped
    cases stopped
  · rw [traceFrom, trace?_of_fetch running fetched, stepped]
    exact traceFrom_eq [_] n m'

theorem traceFrom_succ_of_fault {fault : StepFault} (failed : step m = .error fault m') (n : Nat) :
    traceFrom [] (n + 1) m = m.trace?.toList := by
  rw [traceFrom, failed]
  cases m.trace? with
  | none => rfl
  | some t => rfl

/-- A run is a number of steps, of which its trace shows the instructions, and then the machine is
stopped. -/
theorem exists_afterSteps_of_runSteps (n : Nat) (m : Machine σ) :
    ∃ k ≤ n, left (runSteps n m) = { afterSteps k m with running := false } ∧
      traceFrom [] n m = executedIn k m := by
  induction n generalizing m with
  | zero =>
      refine ⟨0, Nat.le_refl 0, ?_, rfl⟩
      cases running : m.running with
      | true => simp [runSteps, running, left, afterSteps]
      | false =>
          rw [runSteps_of_stopped running]
          exact congrArg (fun b => { m with running := b }) running
  | succ n ih =>
      cases running : m.running with
      | false =>
          refine ⟨0, Nat.zero_le _, ?_, ?_⟩
          · rw [runSteps_of_stopped running]
            exact congrArg (fun b => { m with running := b }) running
          · simp [traceFrom, trace?_of_stopped running, executedIn]
      | true =>
          -- A fault ends the run, so the step that faults is its last one.
          cases stepped : step m with
          | ok _ next =>
              obtain ⟨k, bound, machine, instructions⟩ := ih next
              refine ⟨k + 1, Nat.succ_le_succ bound, ?_, ?_⟩
              · rw [runSteps_succ_of_step stepped, machine, afterSteps, stepped]
                rfl
              · rw [traceFrom_succ_of_step running stepped, instructions, executedIn, stepped]
                rfl
          | error fault after =>
              refine ⟨1, Nat.succ_le_succ (Nat.zero_le n), ?_, ?_⟩
              · rw [runSteps_succ_of_fault stepped, afterSteps, stepped]
                rfl
              · rw [traceFrom_succ_of_fault stepped, executedIn, executedIn, List.append_nil]

theorem counts_runSteps (n : Nat) (m : Machine σ) :
    Counts m (traceFrom [] n m) (left (runSteps n m)) := by
  obtain ⟨k, -, machine, instructions⟩ := exists_afterSteps_of_runSteps n m
  rw [machine, instructions]
  exact counts_afterSteps k m

end Machine

open Machine in
/-- The count of instructions counts those that have been executed.  It does along any steps,
whether they succeed or fault, in every run with a limit and in every run without one that ends, as
long as no instruction has the count as its destination.  Each run consists of such steps, and its
trace is the list of what they execute.  An instruction that faults is counted, and a block that is
not an instruction is not. -/
theorem instruction_count_counts_executed {σ : Type} [RandomSource σ] (m : Machine σ) :
    (∀ n, Counts m (executedIn n m) (afterSteps n m)) ∧
      (∀ limit, Counts m (m.trace limit) (left (run limit m))) ∧
      (∀ result, Ends { m with running := true } result → ∃ n,
        runSteps n { m with running := true } = result ∧
          Counts m (traceFrom [] n { m with running := true }) (left result)) ∧
      (∀ n, ∃ k ≤ n, left (runSteps n m) = { afterSteps k m with running := false } ∧
        traceFrom [] n m = executedIn k m) ∧
      (∀ address op cause after, step m = .error (.execution address op cause) after →
        (executedIn 1 m).length = 1 ∧ after.register Register.instructionCount =
          m.register Register.instructionCount + 1) ∧
      ∀ fault, m.fetch = .error fault → executedIn 1 m = [] ∧
        (left (step m)).register Register.instructionCount =
          m.register Register.instructionCount := by
  refine ⟨fun n => counts_afterSteps n m, ?_, ?_, fun n => exists_afterSteps_of_runSteps n m,
    ?_, ?_⟩
  · intro limit
    exact counts_runSteps (allowedSteps limit) { m with running := true }
  · intro result ends
    obtain ⟨n, rfl⟩ := ends.exists_runSteps
    exact ⟨n, rfl, counts_runSteps n { m with running := true }⟩
  · intro address op cause after failed
    obtain ⟨running, ⟨refused, -⟩ | ⟨op', i, cause', fetched, faulted, -⟩⟩ :=
      step_eq_error_iff.1 failed
    · exact absurd refused fetch_ne_execution
    · constructor
      · rw [executedIn, trace?_of_fetch running fetched]
        rfl
      · rw [instructionCount_of_execute_error faulted, instructionCount_advance]
  · intro fault refused
    have none : m.trace? = none := trace?_of_refused refused
    constructor
    · rw [executedIn, none]
      rfl
    · have kept := instructionCount_of_step (m := m) (by simp [none])
      simpa [none] using kept

/-- A machine that divides by zero, and after that finds a block that is not an instruction. -/
def faultsTwice : Machine Script :=
  let divides : Instruction :=
    .ofOperands .div [⟨Mode.of .register false, 0⟩, .literal 1, .literal 0]
  (oneInstruction divides 0).put (.memory 4) Word.greatest

theorem only_division_is_counted :
    (Machine.executedIn 4 faultsTwice).length = 1 ∧
      (∀ t ∈ Machine.executedIn 4 faultsTwice, ¬ t.Targets Register.instructionCount) ∧
      ((Machine.afterSteps 4 faultsTwice).register Register.instructionCount).toNat = 1 := by
  have executed : Machine.executedIn 4 faultsTwice =
      [⟨0, .div, [⟨Mode.of .register false, 0⟩, .literal 1, .literal 0]⟩] := by
    decide +kernel
  have free : ∀ t ∈ Machine.executedIn 4 faultsTwice,
      ¬ t.Targets Register.instructionCount := by
    rw [executed]
    decide
  have counted := (instruction_count_counts_executed faultsTwice).1 4 free
  rw [executed] at counted
  refine ⟨by rw [executed]; rfl, free, counted.trans ?_⟩
  decide +kernel

end WordMachine
