import WordMachine.Machine.Step
import WordMachine.Proofs.Validity

/-!
# Fetching

What the machine finds at the instruction pointer, and what a step does with it: a stopped machine
stays as it is, an instruction that is not fetched changes nothing, and one that is fetched is
executed after the pointer has moved on.
-/

namespace WordMachine.Machine

variable {σ : Type} {m : Machine σ} {op : Opcode} {i : Instruction}

theorem block?_eq_some_iff {address : Word} {block : Block} :
    m.block? address = some block ↔ address.toNat + 4 ≤ memorySize ∧
      ∀ k, k < 4 → m.memory[address.toNat + k]? = block.words[k]? := by
  unfold block?
  split
  · rename_i fits
    rw [Option.some.injEq]
    constructor
    · rintro rfl
      refine ⟨fits, ?_⟩
      intro k bound
      match k, bound with
      | 0, _ => exact Vector.getElem?_eq_getElem _
      | 1, _ => exact Vector.getElem?_eq_getElem _
      | 2, _ => exact Vector.getElem?_eq_getElem _
      | 3, _ => exact Vector.getElem?_eq_getElem _
    · rintro ⟨-, words⟩
      have word (k : Nat) (bound : k < 4) :
          some (m.memory[address.toNat + k]) = block.words[k]? := by
        rw [← Vector.getElem?_eq_getElem, words k bound]
      obtain ⟨control, a, b, c⟩ := block
      rw [Block.mk.injEq]
      exact ⟨Option.some.inj (word 0 (by decide)), Option.some.inj (word 1 (by decide)),
        Option.some.inj (word 2 (by decide)), Option.some.inj (word 3 (by decide))⟩
  · rename_i outside
    simp [outside]

theorem fetch_eq_ok_iff :
    m.fetch = .ok (op, i) ↔
      ∃ block, m.block? (m.register Register.instructionPointer) = some block ∧
        i = .decode block ∧ i.Valid op := by
  unfold fetch
  dsimp only
  cases m.block? (m.register Register.instructionPointer) with
  | none => simp
  | some block =>
      simp only [Option.some.injEq, exists_eq_left']
      cases validated : (Instruction.decode block).validate with
      | error defect =>
          simp only [reduceCtorEq, false_iff, not_and]
          rintro rfl valid
          rw [Instruction.validate_eq_ok_iff.2 valid] at validated
          cases validated
      | ok found =>
          simp only [Except.ok.injEq, Prod.mk.injEq]
          constructor
          · rintro ⟨rfl, rfl⟩
            exact ⟨rfl, Instruction.validate_eq_ok_iff.1 validated⟩
          · rintro ⟨rfl, valid⟩
            rw [Instruction.validate_eq_ok_iff.2 valid] at validated
            exact ⟨(Except.ok.inj validated).symm, rfl⟩

theorem validate_of_fetch_illegal {address : Word} {defect : Instruction.Defect}
    (h : m.fetch = .error (.illegal address defect)) :
    ∃ block, m.block? (m.register Register.instructionPointer) = some block ∧
      (Instruction.decode block).validate = .error defect := by
  unfold fetch at h
  dsimp only at h
  split at h
  · cases h
  · rename_i block found
    split at h
    · rename_i found_defect refused
      cases h
      exact ⟨block, found, refused⟩
    · cases h

theorem fetch_eq_fetch_iff {address : Word} :
    m.fetch = .error (.fetch address) ↔
      memorySize - 4 < (m.register Register.instructionPointer).toNat ∧
        address = m.register Register.instructionPointer := by
  have size : memorySize = 65536 := rfl
  unfold fetch block?
  dsimp only
  by_cases fits : (m.register Register.instructionPointer).toNat + 4 ≤ memorySize
  · rw [dif_pos fits]
    dsimp only
    have inside : ¬ memorySize - 4 < (m.register Register.instructionPointer).toNat := by omega
    split <;> simp [inside]
  · rw [dif_neg fits]
    have outside : memorySize - 4 < (m.register Register.instructionPointer).toNat := by omega
    simp [outside, eq_comm]

section Results

variable {ε : Type} {r : EStateM.Result ε (Machine σ) Unit}

def left : EStateM.Result ε (Machine σ) Unit → Machine σ
  | .ok () m => m
  | .error _ m => m

def fault? : EStateM.Result ε (Machine σ) Unit → Option ε
  | .ok () _ => none
  | .error fault _ => some fault

theorem eq_ok_of_fault? (h : fault? r = none) : r = .ok () (left r) := by
  cases r with
  | ok _ m => rfl
  | error fault m => cases h

theorem eq_error_of_fault? {fault : ε} (h : fault? r = some fault) : r = .error fault (left r) := by
  cases r with
  | ok _ m => cases h
  | error found m =>
      cases h
      rfl

end Results

/-- The outcome of an instruction at an address, as a step reports it. -/
def located (address : Word) (op : Opcode) :
    EStateM.Result Fault (Machine σ) Unit → EStateM.Result StepFault (Machine σ) Unit
  | .ok () m => .ok () m
  | .error fault m => .error (.execution address op fault) m

variable [RandomSource σ]

theorem step_of_fetch (running : m.running = true) (fetched : m.fetch = .ok (op, i)) :
    step m =
      located (m.register Register.instructionPointer) op (execute op i m.advance) := by
  rw [step, if_pos running, fetched]
  rfl

/-- How a step succeeds: a stopped machine stays as it is, and a running one executes the
instruction that it fetches. -/
theorem step_eq_ok_iff {m' : Machine σ} :
    step m = .ok () m' ↔ m.running = false ∧ m' = m ∨ m.running = true ∧
      ∃ op i, m.fetch = .ok (op, i) ∧ execute op i m.advance = .ok () m' := by
  unfold step
  by_cases running : m.running = true
  · rw [if_pos running]
    cases fetched : m.fetch with
    | error refused => simp [running]
    | ok pair =>
        obtain ⟨op, i⟩ := pair
        dsimp only
        cases executed : execute op i m.advance with
        | ok _ after => simp [running, executed]
        | error cause after => simp [running, executed]
  · simp [running, eq_comm]

theorem execute_of_step {m' : Machine σ} (running : m.running = true)
    (fetched : m.fetch = .ok (op, i)) (stepped : step m = .ok () m') :
    execute op i m.advance = .ok () m' := by
  rcases step_eq_ok_iff.1 stepped with ⟨stopped, -⟩ | ⟨-, _, _, found, executed⟩
  · rw [running] at stopped
    cases stopped
  · rw [fetched] at found
    cases found
    exact executed

theorem step_ok_iff_of_fetch {m' : Machine σ} (running : m.running = true)
    (fetched : m.fetch = .ok (op, i)) :
    step m = .ok () m' ↔ execute op i m.advance = .ok () m' := by
  rw [step_of_fetch running fetched]
  cases execute op i m.advance with
  | ok _ after => simp [located]
  | error cause after => simp [located]

theorem step_error_iff_of_fetch {fault : StepFault} {m' : Machine σ} (running : m.running = true)
    (fetched : m.fetch = .ok (op, i)) :
    step m = .error fault m' ↔ ∃ cause, execute op i m.advance = .error cause m' ∧
      fault = .execution (m.register Register.instructionPointer) op cause := by
  rw [step_of_fetch running fetched]
  cases execute op i m.advance with
  | ok _ after => simp [located]
  | error cause after => simp [located, and_comm, eq_comm]

/-- How a step fails: nothing is fetched and nothing changes, or the instruction that is fetched
faults. -/
theorem step_eq_error_iff {fault : StepFault} {m' : Machine σ} :
    step m = .error fault m' ↔ m.running = true ∧
      (m.fetch = .error fault ∧ m' = m ∨
        ∃ op i cause, m.fetch = .ok (op, i) ∧ execute op i m.advance = .error cause m' ∧
          fault = .execution (m.register Register.instructionPointer) op cause) := by
  unfold step
  by_cases running : m.running = true
  · rw [if_pos running]
    cases fetched : m.fetch with
    | error refused => simp [running, eq_comm]
    | ok pair =>
        obtain ⟨op, i⟩ := pair
        dsimp only
        cases executed : execute op i m.advance with
        | ok _ after => simp [running, executed]
        | error cause after => simp [running, executed, and_comm, eq_comm]
  · simp [running]

theorem step_eq_fetch_iff {address : Word} :
    step m = .error (.fetch address) m' ↔ m.running = true ∧
      memorySize - 4 < (m.register Register.instructionPointer).toNat ∧
      address = m.register Register.instructionPointer ∧ m' = m := by
  rw [step_eq_error_iff, fetch_eq_fetch_iff]
  simp [and_assoc]

theorem fetch_of_step_illegal {address : Word} {defect : Instruction.Defect} {m' : Machine σ}
    (h : step m = .error (.illegal address defect) m') :
    m.fetch = .error (.illegal address defect) := by
  obtain ⟨-, ⟨refused, -⟩ | ⟨op, i, cause, -, -, other⟩⟩ := step_eq_error_iff.1 h
  · exact refused
  · cases other

end WordMachine.Machine
