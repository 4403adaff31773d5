import WordMachine.Proofs.Assembly.Encoding
import WordMachine.Proofs.Machine.Footprint

/-!
# What a step leaves as it is

A step that succeeds changes one word of memory at most, and of the registers those that its opcode
is there to change.  Whether the machine runs and where its random words come from are not in any
location; each of the two has one opcode that changes it.
-/

namespace WordMachine

namespace Machine

variable {σ α β γ : Type} {m m' : Machine σ} {i : Instruction} {op : Opcode}

/-! ## Parts of the machine beside its locations -/

/-- A part of the machine that does not depend on the contents of its locations. -/
def Hidden (part : Machine σ → γ) : Prop :=
  ∀ m l w, part (m.put l w) = part m

theorem hidden_running : Hidden (running : Machine σ → Bool) :=
  running_put

theorem hidden_source : Hidden (source : Machine σ → σ) :=
  source_put

def Keeps (part : Machine σ → γ) (x : Exec σ α) : Prop :=
  ∀ m a after, x m = .ok a after → part after = part m

namespace Keeps

variable {part : Machine σ → γ}

theorem pure (a : α) : Keeps part (pure a : Exec σ α) := by
  intro m a after succeeded
  cases succeeded
  rfl

theorem throw (fault : Fault) : Keeps part (throw fault : Exec σ α) :=
  fun _ _ _ succeeded => nomatch succeeded

theorem modify {f : Machine σ → Machine σ} (kept : ∀ m, part (f m) = part m) :
    Keeps part (modify f : Exec σ Unit) := by
  intro m a after succeeded
  cases succeeded
  exact kept m

theorem bind {x : Exec σ α} {k : α → Exec σ β} (first : Keeps part x)
    (rest : ∀ a, Keeps part (k a)) : Keeps part (x >>= k) := by
  intro m b after succeeded
  obtain ⟨a, between, started, finished⟩ := Exec.bind_eq_ok_iff.1 succeeded
  rw [rest a between b after finished, first m a between started]

theorem inspect_bind {f : Machine σ → Except Fault α} {k : α → Exec σ β}
    (rest : ∀ a, Keeps part (k a)) : Keeps part (inspect f >>= k) := by
  intro m b after succeeded
  obtain ⟨a, -, finished⟩ := inspect_bind_eq_ok_iff.1 succeeded
  exact rest a m b after finished

theorem get_bind {k : Machine σ → Exec σ β} (rest : ∀ m, Keeps part (k m)) :
    Keeps part (get >>= k) :=
  fun m => rest m m

theorem ite {c : Prop} [Decidable c] {x y : Exec σ α} (yes : Keeps part x) (no : Keeps part y) :
    Keeps part (if c then x else y) := by
  split
  · exact yes
  · exact no

section Hidden

variable (hidden : Hidden part)

include hidden

theorem store (x : Operand) (w : Word) : Keeps part (store x w) := by
  intro m _ after stored
  obtain ⟨l, -, rfl⟩ := store_eq_ok_iff.1 stored
  exact hidden m l w

theorem push (w : Word) : Keeps part (push w) := by
  intro m _ after pushed
  obtain ⟨-, l, -, rfl⟩ := push_eq_ok_iff.1 pushed
  rw [← put_register, hidden, hidden]

theorem pop : Keeps part pop := by
  intro m w after popped
  obtain ⟨-, -, -, -, rfl⟩ := pop_eq_ok_iff.1 popped
  exact hidden m (.register Register.stackCount) _

theorem jump (address : Word) : Keeps part (jump address) := by
  intro m _ after jumped
  cases jumped
  exact hidden m (.register Register.instructionPointer) address

theorem branch (i : Instruction) (condition : Bool) : Keeps part (branch i condition) :=
  .ite (.inspect_bind fun target => .jump hidden target) (.pure ())

/-- An instruction leaves such a part as it is, unless it is about stopping and the instruction
halts, or about the random source and the instruction draws. -/
theorem execute [RandomSource σ]
    (halts : op = .halt → ∀ m, part { m with running := false } = part m)
    (draws : op = .rdrand → ∀ m source, part { m with source } = part m) :
    Keeps part (execute op i) := by
  cases op with
  | nop => exact .pure ()
  | halt => exact .modify (halts rfl)
  | push => exact .inspect_bind fun a => .push hidden a
  | pop => exact .bind (.pop hidden) fun w => .store hidden i.a w
  | add | sub | mul | shl | shr | cmp => exact .inspect_bind fun _ => .store hidden i.a _
  | inc | dec | not | mov => exact .inspect_bind fun _ => .store hidden i.a _
  | div =>
      refine .inspect_bind fun _ => .ite (.throw _) (.bind (.store hidden i.a _) fun _ => ?_)
      exact .modify fun m => hidden m (.register Register.remainder) _
  | mod => exact .inspect_bind fun _ => .ite (.throw _) (.store hidden i.a _)
  | call =>
      refine .inspect_bind fun target => .get_bind fun _ => ?_
      exact .bind (.push hidden _) fun _ => .jump hidden target
  | ret => exact .bind (.pop hidden) fun back => .jump hidden back
  | jmp => exact .branch hidden i true
  | jeq | jne | jnz => exact .inspect_bind fun _ => .branch hidden i _
  | rdrand =>
      intro m _ after executed
      obtain ⟨low, high, w, source, -, -, stored⟩ := execute_rdrand_ok executed
      rw [store hidden i.a w _ _ after stored, draws rfl]

end Hidden

end Keeps

/-! ## Steps that succeed -/

theorem destination?_eq_some_iff {l : Location} :
    m.destination? op i = some l ↔
      op.stores = true ∧ (m.beforeStore op).location? i.a = some l := by
  unfold destination?
  split
  · rename_i stores
    simp [stores]
  · rename_i other
    simp [other]

/-- The word of memory that an instruction may change: the one that it pushes, or the one that its
result goes to. -/
def written? (m : Machine σ) (op : Opcode) (i : Instruction) : Option Location :=
  if op.pushes then m.nextOnStack? else m.destination? op i

theorem memory_mem_footprint_iff {n : Fin memorySize} :
    .memory n ∈ m.footprint op i ↔ m.written? op i = some (.memory n) := by
  rw [mem_footprint_iff, written?]
  cases pushes : op.pushes with
  | false => simp
  | true =>
      have stores : op.stores = false := by
        cases op <;> first | rfl | cases pushes
      simp [destination?, stores]

variable [RandomSource σ]

section Steps

variable (running : m.running = true) (fetched : m.fetch = .ok (op, i))
  (stepped : step m = .ok () m')

include running fetched stepped

theorem memory_of_step {n : Fin memorySize} (changed : m'.memory.get n ≠ m.memory.get n) :
    m.advance.written? op i = some (.memory n) := by
  by_contra other
  refine changed (step_frame running fetched stepped (.memory n) ?_)
  simpa [memory_mem_footprint_iff] using other

theorem changed_register_of_step {r : Register} (changed : m'.register r ≠ m.register r) :
    r = Register.instructionPointer ∨ r = Register.instructionCount ∨
      m.advance.destination? op i = some (.register r) ∨
      (op.pushes = true ∨ op.pops = true) ∧ r = Register.stackCount ∨
      op = .div ∧ r = Register.remainder := by
  by_contra other
  simp only [not_or] at other
  obtain ⟨pointer, counter, result, stack, remainder⟩ := other
  refine changed (step_frame running fetched stepped (.register r) ?_)
  simpa [mem_footprint_iff, nextOnStack?_ne_register, pointer, counter, result] using
    And.intro stack remainder

theorem running_of_step (other : op ≠ .halt) : m'.running = m.running :=
  Keeps.execute hidden_running (fun halts => absurd halts other) (fun _ _ _ => rfl) m.advance () m'
    (execute_of_step running fetched stepped)

theorem source_of_step (other : op ≠ .rdrand) : m'.source = m.source :=
  Keeps.execute hidden_source (fun _ _ => rfl) (fun draws => absurd draws other) m.advance () m'
    (execute_of_step running fetched stepped)

end Steps

end Machine

open Machine in
/-- A step that succeeds changes only what its instruction may.  At most one word of memory changes,
and that is the word which the first operand designates when the result is stored, or the word below
the stack.  Beside the pointer and the count of instructions, a register changes only as that
destination, as the count of the stack or as the remainder.  Only a halt stops the machine, and only
a draw uses its random source; a stopped machine stays as it is. -/
theorem step_changes_only_targets {σ : Type} [RandomSource σ] (m : Machine σ) :
    (m.running = false → step m = .ok () m) ∧
      ∀ m', m.running = true → step m = .ok () m' → ∃ op i, m.fetch = .ok (op, i) ∧
        (∀ n, m'.memory.get n ≠ m.memory.get n →
          op.stores = true ∧ (m.advance.beforeStore op).location? i.a = some (.memory n) ∨
            op.pushes = true ∧ Location.ofAddress?
              (m.register Register.stackBase - m.register Register.stackCount) =
                some (.memory n)) ∧
        (∀ n k, m'.memory.get n ≠ m.memory.get n → m'.memory.get k ≠ m.memory.get k → n = k) ∧
        (∀ r, m'.register r ≠ m.register r →
          r = Register.instructionPointer ∨ r = Register.instructionCount ∨
            op.stores = true ∧ (m.advance.beforeStore op).location? i.a = some (.register r) ∨
            (op.pushes = true ∨ op.pops = true) ∧ r = Register.stackCount ∨
            op = .div ∧ r = Register.remainder) ∧
        (m'.running = false ↔ op = .halt) ∧
        (op ≠ .rdrand → m'.source = m.source) := by
  refine ⟨fun stopped => step_eq_ok_iff.2 (.inl ⟨stopped, rfl⟩), ?_⟩
  intro m' running stepped
  rcases step_eq_ok_iff.1 stepped with ⟨stopped, -⟩ | ⟨-, op, i, fetched, executed⟩
  · rw [running] at stopped
    cases stopped
  · have written (n : Fin memorySize) := memory_of_step (n := n) running fetched stepped
    refine ⟨op, i, fetched, ?_, ?_, ?_, ?_, ?_⟩
    · intro n changed
      have found := written n changed
      rw [Machine.written?, nextOnStack?_advance] at found
      split at found
      · rename_i pushes
        exact .inr ⟨pushes, found⟩
      · exact .inl (destination?_eq_some_iff.1 found)
    · intro n k first second
      have same := (written n first).symm.trans (written k second)
      simpa using same
    · intro r changed
      have cases := changed_register_of_step running fetched stepped changed
      rwa [destination?_eq_some_iff] at cases
    · constructor
      · intro stopped
        by_contra other
        rw [running_of_step running fetched stepped other, running] at stopped
        cases stopped
      · rintro rfl
        cases executed
        rfl
    · exact source_of_step running fetched stepped

/-- A running machine with one instruction at address zero, and a stack of some words down from
address 63. -/
def oneInstruction (i : Instruction) (count : Word) : Machine Script :=
  let memory := ((Image.zero.put? 0 i.encode).getD .zero).words
  let loaded : Machine Script := { Machine.new ⟨[]⟩ with memory, running := true }
  (loaded.setRegister Register.stackBase 63).setRegister Register.stackCount count

theorem pop_through_count_changes_one_word :
    let m := oneInstruction (.ofOperands .pop [⟨Mode.of .register true, 18⟩]) 63
    ∃ m', Machine.step m = .ok () m' ∧ m'.memory.get 62 = 18 ∧
      ∀ n, m'.memory.get n ≠ m.memory.get n → n = 62 := by
  intro m
  have stepped : Machine.step m = .ok () (Machine.left (Machine.step m)) :=
    Machine.eq_ok_of_fault? (by decide +kernel)
  have word : (Machine.left (Machine.step m)).memory.get 62 = 18 := by decide +kernel
  have changed : (Machine.left (Machine.step m)).memory.get 62 ≠ m.memory.get 62 := by
    decide +kernel
  obtain ⟨op, i, -, -, one, -⟩ := (step_changes_only_targets m).2 _ rfl stepped
  exact ⟨_, stepped, word, fun n other => one n 62 other changed⟩

end WordMachine
