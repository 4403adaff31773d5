import WordMachine.Machine.Run
import WordMachine.Proofs.Assembly.Encoding
import WordMachine.Proofs.Machine.Fetch

/-!
# Runs and their limits

A run that its limit stops has made that many steps, and continues from there as if the limit had
been greater.  A run that ends by itself ends in the same way with every greater limit and with
none.
-/

namespace WordMachine

namespace Machine

variable {σ : Type} [RandomSource σ] {m m' : Machine σ} {n : Nat}

inductive Steps : Nat → Machine σ → Machine σ → Prop
  | zero (m : Machine σ) : Steps 0 m m
  | succ {n : Nat} {m next last : Machine σ} (stepped : step m = .ok () next)
      (rest : Steps n next last) : Steps (n + 1) m last

/-- How a machine that runs on without a limit ends, if it ends. -/
inductive Ends : Machine σ → EStateM.Result RunFault (Machine σ) Unit → Prop
  | halted {m : Machine σ} (stopped : m.running = false) : Ends m (.ok () m)
  | faulted {m after : Machine σ} {fault : StepFault} (failed : step m = .error fault after) :
      Ends m (.error (.step fault) { after with running := false })
  | step {m next : Machine σ} {result : EStateM.Result RunFault (Machine σ) Unit}
      (running : m.running = true) (stepped : step m = .ok () next) (rest : Ends next result) :
      Ends m result

/-! ## Machines that have stopped -/

theorem step_of_stopped (stopped : m.running = false) : step m = .ok () m :=
  step_eq_ok_iff.2 (.inl ⟨stopped, rfl⟩)

theorem runSteps_of_stopped (stopped : m.running = false) (n : Nat) :
    runSteps n m = .ok () m := by
  cases n <;> simp [runSteps, stopped]

/-! ## Runs of a number of steps -/

theorem runSteps_succ_of_step (stepped : step m = .ok () m') (n : Nat) :
    runSteps (n + 1) m = runSteps n m' := by
  cases running : m.running with
  | true => simp [runSteps, running, stepped]
  | false =>
      rw [step_of_stopped running] at stepped
      cases stepped
      rw [runSteps_of_stopped running, runSteps_of_stopped running]

theorem runSteps_succ_of_fault {fault : StepFault} (failed : step m = .error fault m') (n : Nat) :
    runSteps (n + 1) m = .error (.step fault) { m' with running := false } := by
  have running := (step_eq_error_iff.1 failed).1
  simp [runSteps, running, failed]

theorem Steps.runSteps_add (steps : Steps n m m') (k : Nat) :
    runSteps (n + k) m = runSteps k m' := by
  induction steps with
  | zero m => rw [Nat.zero_add]
  | succ stepped rest ih => rw [Nat.add_right_comm, runSteps_succ_of_step stepped, ih]

theorem runSteps_eq_limit_iff :
    runSteps n m = .error .stepLimit m' ↔
      ∃ last, Steps n m last ∧ last.running = true ∧ m' = { last with running := false } := by
  constructor
  · intro limited
    induction n generalizing m with
    | zero =>
        unfold runSteps at limited
        split at limited
        · rename_i running
          cases limited
          exact ⟨m, .zero m, running, rfl⟩
        · cases limited
    | succ n ih =>
        cases stepped : step m with
        | ok _ next =>
            rw [runSteps_succ_of_step stepped] at limited
            obtain ⟨last, steps, running, same⟩ := ih limited
            exact ⟨last, .succ stepped steps, running, same⟩
        | error fault after =>
            rw [runSteps_succ_of_fault stepped] at limited
            cases limited
  · rintro ⟨last, steps, running, rfl⟩
    rw [← Nat.add_zero n, steps.runSteps_add, runSteps, if_pos running]

theorem running_of_runSteps (n : Nat) (m : Machine σ) : (left (runSteps n m)).running = false := by
  induction n generalizing m with
  | zero =>
      unfold runSteps
      split
      · rfl
      · rename_i stopped
        simpa [left] using stopped
  | succ n ih =>
      cases stepped : step m with
      | ok _ next =>
          rw [runSteps_succ_of_step stepped]
          exact ih next
      | error fault after =>
          rw [runSteps_succ_of_fault stepped]
          rfl

/-! ## Runs that end by themselves -/

theorem Ends.unique {r s : EStateM.Result RunFault (Machine σ) Unit} (first : Ends m r)
    (second : Ends m s) : r = s := by
  induction first with
  | halted stopped =>
      cases second with
      | halted _ => rfl
      | faulted failed =>
          rw [step_of_stopped stopped] at failed
          cases failed
      | step running =>
          rw [stopped] at running
          cases running
  | faulted failed =>
      cases second with
      | halted stopped =>
          rw [step_of_stopped stopped] at failed
          cases failed
      | faulted again =>
          rw [failed] at again
          cases again
          rfl
      | step _ stepped =>
          rw [failed] at stepped
          cases stepped
  | step running stepped rest ih =>
      cases second with
      | halted stopped =>
          rw [stopped] at running
          cases running
      | faulted failed =>
          rw [stepped] at failed
          cases failed
      | step _ again rest' =>
          rw [stepped] at again
          cases again
          exact ih rest'

/-- A run that its limit does not stop ends as it would without a limit. -/
theorem ends_of_runSteps (unlimited : ∀ after, runSteps n m ≠ .error .stepLimit after) :
    Ends m (runSteps n m) := by
  induction n generalizing m with
  | zero =>
      cases running : m.running with
      | true =>
          rw [runSteps, if_pos running] at unlimited
          exact absurd rfl (unlimited _)
      | false =>
          rw [runSteps_of_stopped running]
          exact .halted running
  | succ n ih =>
      cases running : m.running with
      | false =>
          rw [runSteps_of_stopped running]
          exact .halted running
      | true =>
          cases stepped : step m with
          | ok _ next =>
              rw [runSteps_succ_of_step stepped] at unlimited ⊢
              exact .step running stepped (ih unlimited)
          | error fault after =>
              rw [runSteps_succ_of_fault stepped]
              exact .faulted stepped

theorem Ends.exists_runSteps {result : EStateM.Result RunFault (Machine σ) Unit}
    (ends : Ends m result) : ∃ n, runSteps n m = result := by
  induction ends with
  | halted stopped => exact ⟨0, runSteps_of_stopped stopped 0⟩
  | faulted failed => exact ⟨1, runSteps_succ_of_fault failed 0⟩
  | step running stepped rest ih =>
      obtain ⟨n, same⟩ := ih
      exact ⟨n + 1, (runSteps_succ_of_step stepped n).trans same⟩

/-- A run that its limit does not stop is the same with every greater limit. -/
theorem runSteps_of_le {k : Nat} (more : n ≤ k)
    (unlimited : ∀ after, runSteps n m ≠ .error .stepLimit after) :
    runSteps k m = runSteps n m := by
  induction n generalizing m k with
  | zero =>
      cases running : m.running with
      | true =>
          rw [runSteps, if_pos running] at unlimited
          exact absurd rfl (unlimited _)
      | false => rw [runSteps_of_stopped running, runSteps_of_stopped running]
  | succ n ih =>
      obtain ⟨k, rfl⟩ := Nat.exists_eq_add_of_le' more
      rw [← Nat.add_assoc]
      cases stepped : step m with
      | ok _ next =>
          rw [runSteps_succ_of_step stepped] at unlimited
          rw [runSteps_succ_of_step stepped, runSteps_succ_of_step stepped]
          exact ih (Nat.le_add_left n k) unlimited
      | error fault after =>
          rw [runSteps_succ_of_fault stepped, runSteps_succ_of_fault stepped]

/-! ## Limits as words -/

theorem allowedSteps_of_pos {limit : Word} (h : 0 < limit) : allowedSteps limit = limit.toNat := by
  rw [allowedSteps, if_neg]
  rintro rfl
  exact absurd h (by decide)

theorem run_of_limit {k l : Word} (first : 0 < k) (second : 0 < l)
    (small : k.toNat + l.toNat < UInt64.size) {after : Machine σ}
    (limited : run k m = .error .stepLimit after) : run l after = run (k + l) m := by
  have sum : (k + l).toNat = k.toNat + l.toNat := by
    rw [UInt64.toNat_add, Nat.mod_eq_of_lt small]
  have third : 0 < k + l := by
    rw [UInt64.lt_iff_toNat_lt] at first ⊢
    rw [sum]
    exact Nat.lt_of_lt_of_le first (Nat.le_add_right _ _)
  unfold run at limited ⊢
  rw [allowedSteps_of_pos first] at limited
  obtain ⟨last, steps, running, rfl⟩ := runSteps_eq_limit_iff.1 limited
  -- Starting the machine again gives back what the limit has stopped.
  have resumed : { { last with running := false } with running := true } = last := by
    rw [← running]
  rw [resumed, allowedSteps_of_pos second, allowedSteps_of_pos third, sum, steps.runSteps_add]

end Machine

/-- Runs with a limit compose.  The limit stops a run exactly if so many steps succeed and leave the
machine running, and a second run continues it as one run with both limits together would.  Any
other run is the same with every greater limit and without one, and after each run the machine has
stopped. -/
theorem bounded_runs_compose {σ : Type} [RandomSource σ] (m : Machine σ) {k l : Word}
    (first : 0 < k) (second : 0 < l) (small : k.toNat + l.toNat < UInt64.size) :
    ((∃ after, Machine.run k m = .error .stepLimit after) ↔
        ∃ last, Machine.Steps k.toNat { m with running := true } last ∧ last.running = true) ∧
      (∀ after, Machine.run k m = .error .stepLimit after →
        Machine.run l after = Machine.run (k + l) m) ∧
      ((∀ after, Machine.run k m ≠ .error .stepLimit after) →
        (∀ limit, k ≤ limit → Machine.run limit m = Machine.run k m) ∧
          Machine.run 0 m = Machine.run k m ∧
          ∀ result, Machine.Ends { m with running := true } result ↔ result = Machine.run k m) ∧
      ∀ limit, (Machine.left (Machine.run limit m)).running = false := by
  have steps : Machine.run k m = Machine.runSteps k.toNat { m with running := true } := by
    rw [Machine.run, Machine.allowedSteps_of_pos first]
  refine ⟨?_, fun after => Machine.run_of_limit first second small, ?_, fun limit =>
    Machine.running_of_runSteps _ _⟩
  · simp only [steps, Machine.runSteps_eq_limit_iff]
    constructor
    · rintro ⟨_, last, made, running, -⟩
      exact ⟨last, made, running⟩
    · rintro ⟨last, made, running⟩
      exact ⟨_, last, made, running, rfl⟩
  · intro unlimited
    rw [steps] at unlimited ⊢
    refine ⟨?_, ?_, ?_⟩
    · intro limit greater
      have positive : 0 < limit := UInt64.lt_of_lt_of_le first greater
      rw [Machine.run, Machine.allowedSteps_of_pos positive]
      exact Machine.runSteps_of_le (UInt64.le_iff_toNat_le.1 greater) unlimited
    · exact Machine.runSteps_of_le (Nat.le_of_lt k.toNat_lt) unlimited
    · intro result
      have ends := Machine.ends_of_runSteps unlimited
      exact ⟨fun other => other.unique ends, fun same => same ▸ ends⟩

/-- A machine whose third instruction halts. -/
def thirdHalts : Machine Script :=
  { Machine.new ⟨[]⟩ with
    memory := ((Image.zero.put? 8 (Instruction.ofOperands .halt []).encode).getD .zero).words }

theorem third_step_halts :
    (0 : Word) < 2 ∧ (0 : Word) < 1 ∧ ∃ after, Machine.run 2 thirdHalts = .error .stepLimit after ∧
      Machine.run 1 after = Machine.run 3 thirdHalts ∧
      (∃ last, Machine.run 3 thirdHalts = .ok () last ∧ last.running = false) ∧
      Machine.run 0 thirdHalts = Machine.run 3 thirdHalts := by
  have limited : Machine.run 2 thirdHalts =
      .error .stepLimit (Machine.left (Machine.run 2 thirdHalts)) :=
    Machine.eq_error_of_fault? (by decide +kernel)
  have halted : Machine.run 3 thirdHalts = .ok () (Machine.left (Machine.run 3 thirdHalts)) :=
    Machine.eq_ok_of_fault? (by decide +kernel)
  obtain ⟨-, continued, -, -⟩ := bounded_runs_compose thirdHalts (k := 2) (l := 1)
    (by decide) (by decide) (by decide)
  obtain ⟨-, -, ended, stopped⟩ := bounded_runs_compose thirdHalts (k := 3) (l := 1)
    (by decide) (by decide) (by decide)
  have unlimited (after : Machine Script) :
      Machine.run 3 thirdHalts ≠ .error .stepLimit after := by
    rw [halted]
    exact nofun
  exact ⟨by decide, by decide, _, limited, continued _ limited, ⟨_, halted, stopped 3⟩,
    (ended unlimited).2.1⟩

end WordMachine
