import WordMachine.Proofs.Machine.Arithmetic

/-!
# Where a step goes on

The instruction pointer is a register like others.  It has moved on before an instruction reads its
operands; a call, a return, a jump on a condition that holds or a result that is stored there
replaces it.  A jump reads its target only if it jumps, and whether there is an instruction at the
target is for the next step to find.
-/

namespace WordMachine

namespace Machine

variable {σ : Type} {m m' : Machine σ} {i : Instruction} {op : Opcode}

/-! ## Conditions of jumps -/

/-- The condition on which an instruction jumps, about the words that it compares. -/
inductive Condition (m : Machine σ) (i : Instruction) : Opcode → Prop → Prop
  | always : Condition m i .jmp True
  | equal {b c : Word} (first : m.value i.b = .ok b) (second : m.value i.c = .ok c) :
      Condition m i .jeq (b = c)
  | unequal {b c : Word} (first : m.value i.b = .ok b) (second : m.value i.c = .ok c) :
      Condition m i .jne (b ≠ c)
  | nonzero {b : Word} (value : m.value i.b = .ok b) : Condition m i .jnz (b ≠ 0)

theorem branch_true_eq_ok_iff :
    branch i true m = .ok () m' ↔
      ∃ target, m.value i.a = .ok target ∧
        m' = m.setRegister Register.instructionPointer target := by
  refine inspect_bind_eq_ok_iff.trans ?_
  simp [jump, eq_comm]

theorem branch_true_eq_error_iff {fault : Fault} :
    branch i true m = .error fault m' ↔ m.value i.a = .error fault ∧ m' = m := by
  refine inspect_bind_eq_error_iff.trans ?_
  simp [jump]

variable [RandomSource σ]

/-- The first operand is the target if the condition holds, and otherwise it is not read. -/
theorem Condition.execute_eq {p : Prop} [decidable : Decidable p] (condition : Condition m i op p) :
    execute op i m = branch i (decide p) m := by
  cases condition with
  | always =>
      have holds : (decide True) = true := decide_eq_true trivial
      rw [holds]
      rfl
  | equal first second =>
      refine (inspect_bind_of_ok (sourceValues_eq_ok_iff.2 ⟨first, second⟩)).trans ?_
      dsimp only
      congr
  | unequal first second =>
      refine (inspect_bind_of_ok (sourceValues_eq_ok_iff.2 ⟨first, second⟩)).trans ?_
      dsimp only
      congr
  | nonzero value =>
      refine (inspect_bind_of_ok value).trans ?_
      congr

theorem Condition.execute_of_holds {p : Prop} (condition : Condition m i op p) (holds : p) :
    execute op i m = branch i true m := by
  classical
  rw [condition.execute_eq, decide_eq_true holds]

theorem Condition.execute_of_not {p : Prop} (condition : Condition m i op p) (fails : ¬ p) :
    execute op i m = .ok () m := by
  classical
  rw [condition.execute_eq, decide_eq_false fails]
  rfl

theorem exists_condition_of_execute (jumps : op.jumps = true) (call : op ≠ .call)
    (ret : op ≠ .ret) (executed : execute op i m = .ok () m') : ∃ p, Condition m i op p := by
  cases op with
  | jmp => exact ⟨True, .always⟩
  | jeq =>
      obtain ⟨⟨b, c⟩, values, -⟩ := inspect_bind_eq_ok_iff.1 executed
      obtain ⟨first, second⟩ := sourceValues_eq_ok_iff.1 values
      exact ⟨b = c, .equal first second⟩
  | jne =>
      obtain ⟨⟨b, c⟩, values, -⟩ := inspect_bind_eq_ok_iff.1 executed
      obtain ⟨first, second⟩ := sourceValues_eq_ok_iff.1 values
      exact ⟨b ≠ c, .unequal first second⟩
  | jnz =>
      obtain ⟨b, value, -⟩ := inspect_bind_eq_ok_iff.1 executed
      exact ⟨b ≠ 0, .nonzero value⟩
  | call => exact absurd rfl call
  | ret => exact absurd rfl ret
  | nop | halt | push | pop | add | sub | mul | div | shl | shr | mod | inc | dec | not | cmp | mov
  | rdrand => cases jumps

/-! ## Words that are stored -/

/-- The word that an instruction produces for its destination: what its formula gives, what it has
popped or what it has drawn. -/
inductive Produces (m : Machine σ) (op : Opcode) (i : Instruction) : Word → Prop
  | computed {formula : Formula} {n : Int} {w : Word} (rule : op.formula? = some formula)
      (yields : Yields m i formula n) (represents : w.Represents n) : Produces m op i w
  | popped {w : Word} {after : Machine σ} (pops : op = .pop) (popped : pop m = .ok w after) :
      Produces m op i w
  | drawn {low high w : Word} {source : σ} (draws : op = .rdrand) (first : m.value i.b = .ok low)
      (second : m.value i.c = .ok high)
      (drawn : low = 0 ∧ high = 0 ∧ RandomSource.word m.source = (w, source) ∨
        ¬ high ≤ low ∧ ∃ offset, RandomSource.below (high - low) m.source = (offset, source) ∧
          w = low + offset) : Produces m op i w

theorem produces_of_execute {l : Location} (destination : m.destination? op i = some l)
    (apart : ¬ (op = .div ∧ l = .register Register.remainder))
    (executed : execute op i m = .ok () m') : Produces m op i (m'.contents l) := by
  obtain ⟨stores, found⟩ := destination?_eq_some_iff.1 destination
  rcases Opcode.cases_of_stores stores with rfl | rfl | computes
  · obtain ⟨w, after, popped, stored⟩ := Exec.bind_eq_ok_iff.1 executed
    obtain ⟨k, found', rfl⟩ := store_eq_ok_iff.1 stored
    obtain ⟨-, -, -, -, rfl⟩ := pop_eq_ok_iff.1 popped
    cases found.symm.trans found'
    rw [contents_put_same]
    exact .popped rfl popped
  · obtain ⟨low, high, w, source, values, drawn, stored⟩ := execute_rdrand_ok executed
    obtain ⟨first, second⟩ := sourceValues_eq_ok_iff.1 values
    obtain ⟨k, found', rfl⟩ := store_eq_ok_iff.1 stored
    cases found.symm.trans found'
    rw [contents_put_same]
    exact .drawn rfl first second drawn
  · obtain ⟨formula, rule⟩ := Option.isSome_iff_exists.1 computes
    obtain ⟨n, k, yields, found', represents⟩ := represents_of_execute rule executed
    have other : op ≠ .pop := by
      rintro rfl
      cases rule
    rw [beforeStore, if_neg other, found'] at found
    cases found
    exact .computed rule yields (represents apart)

/-! ## The instruction pointer -/

/-- How the pointer after an instruction is found: in its first operand for calls and for jumps
whose condition holds, on the stack for returns, and in the result that is stored there.  Otherwise
it is the address behind the instruction. -/
structure Continues (m : Machine σ) (op : Opcode) (i : Instruction) (pointer : Word) : Prop where
  call : op = .call → m.advance.value i.a = .ok pointer
  jump : ∀ p, Condition m.advance i op p → p → m.advance.value i.a = .ok pointer
  ret : op = .ret → ∃ after, pop m.advance = .ok pointer after
  store : m.advance.destination? op i = some (.register Register.instructionPointer) →
    Produces m.advance op i pointer
  next : op ≠ .call → op ≠ .ret → (∀ p, Condition m.advance i op p → ¬ p) →
    m.advance.destination? op i ≠ some (.register Register.instructionPointer) →
      pointer = m.register Register.instructionPointer + 4

theorem continues_of_execute (executed : execute op i m.advance = .ok () m') :
    Continues m op i (m'.register Register.instructionPointer) where
  call := by
    rintro rfl
    obtain ⟨target, after, value, -, rfl⟩ := execute_call_ok executed
    rw [register_setRegister_same]
    exact value
  jump := by
    intro p condition holds
    rw [condition.execute_of_holds holds] at executed
    obtain ⟨target, value, rfl⟩ := branch_true_eq_ok_iff.1 executed
    rw [register_setRegister_same]
    exact value
  ret := by
    rintro rfl
    obtain ⟨back, after, popped, jumped⟩ := Exec.bind_eq_ok_iff.1 executed
    cases jumped
    rw [register_setRegister_same]
    exact ⟨after, popped⟩
  store := by
    intro destination
    exact produces_of_execute destination (fun both => absurd both.2 (by decide)) executed
  next := by
    intro call ret untaken elsewhere
    rw [← instructionPointer_advance]
    -- A jump that is not taken does nothing, and what does not jump leaves the pointer alone.
    cases jumps : op.jumps with
    | true =>
        obtain ⟨p, condition⟩ := exists_condition_of_execute jumps call ret executed
        rw [condition.execute_of_not (untaken p condition)] at executed
        cases executed
        rfl
    | false =>
        refine register_of_execute executed elsewhere (by decide) (by decide) ?_
        rw [jumps]
        exact nofun

theorem step_of_holds {p : Prop} {target : Word} (running : m.running = true)
    (fetched : m.fetch = .ok (op, i)) (condition : Condition m.advance i op p) (holds : p)
    (value : m.advance.value i.a = .ok target) :
    step m = .ok () (m.advance.setRegister Register.instructionPointer target) := by
  rw [step_ok_iff_of_fetch running fetched, condition.execute_of_holds holds]
  exact branch_true_eq_ok_iff.2 ⟨target, value, rfl⟩

end Machine

open Machine in
/-- Control flow is exact, and targets are read only when they are needed.  After a step that
succeeds, the pointer is where its instruction continues.  A jump whose condition does not hold
moves on and changes nothing else, whatever its first operand is.  One whose condition holds faults
exactly if that operand cannot be read; if there is no instruction at the target, the next step says
so. -/
theorem control_flow_is_exact {σ : Type} [RandomSource σ] {m : Machine σ}
    (running : m.running = true) :
    (∀ m', step m = .ok () m' → ∃ op i, m.fetch = .ok (op, i) ∧
        Continues m op i (m'.register Register.instructionPointer)) ∧
      (∀ op i p, m.fetch = .ok (op, i) → Condition m.advance i op p → ¬ p →
        step m = .ok () m.advance ∧
          Frame [.register Register.instructionPointer, .register Register.instructionCount] m
            m.advance ∧
          m.advance.running = m.running ∧ m.advance.source = m.source) ∧
      ∀ op i p, m.fetch = .ok (op, i) → Condition m.advance i op p → p →
        ((∃ fault m', step m = .error fault m') ↔ ∃ fault, m.advance.value i.a = .error fault) ∧
          ∀ target, m.advance.value i.a = .ok target → ∃ m', step m = .ok () m' ∧
            m'.register Register.instructionPointer = target ∧
            ((∃ address after, step m' = .error (.fetch address) after) ↔
              memorySize - 4 < target.toNat) ∧
            (memorySize - 4 < target.toNat → step m' = .error (.fetch target) m') := by
  refine ⟨?_, ?_, ?_⟩
  · intro m' stepped
    rcases step_eq_ok_iff.1 stepped with ⟨stopped, -⟩ | ⟨-, op, i, fetched, executed⟩
    · rw [running] at stopped
      cases stopped
    · exact ⟨op, i, fetched, continues_of_execute executed⟩
  · intro op i p fetched condition fails
    refine ⟨?_, m.advance_frame, rfl, rfl⟩
    exact (step_ok_iff_of_fetch running fetched).2 (condition.execute_of_not fails)
  · intro op i p fetched condition holds
    constructor
    · simp only [step_error_iff_of_fetch running fetched, condition.execute_of_holds holds,
        branch_true_eq_error_iff]
      simp
    · intro target value
      have stepped := step_of_holds running fetched condition holds value
      have pointer : (m.advance.setRegister Register.instructionPointer target).register
          Register.instructionPointer = target := register_setRegister_same ..
      refine ⟨_, stepped, pointer, ?_, ?_⟩
      · constructor
        · rintro ⟨address, after, refused⟩
          exact pointer ▸ (step_eq_fetch_iff.1 refused).2.1
        · intro outside
          exact ⟨_, _, step_eq_fetch_iff.2 ⟨running, pointer.symm ▸ outside, rfl, rfl⟩⟩
      · intro outside
        exact step_eq_fetch_iff.2 ⟨running, pointer.symm ▸ outside, pointer.symm, rfl⟩

/-- A comparison of different words passes a jump whose target lies beyond the memory. -/
theorem unequal_words_pass_unreadable_target :
    let i : Instruction :=
      .ofOperands .jeq [⟨Mode.of .memory false, 65536⟩, .literal 1, .literal 2]
    let m := oneInstruction i 0
    m.running = true ∧ m.fetch = .ok (.jeq, i) ∧ m.advance.value i.a = .error (.badRead 65536) ∧
      Machine.step m = .ok () m.advance := by
  intro i m
  have fetched : m.fetch = .ok (.jeq, i) := by decide +kernel
  have first : m.advance.value i.b = .ok 1 := by decide +kernel
  have second : m.advance.value i.c = .ok 2 := by decide +kernel
  obtain ⟨-, untaken, -⟩ := control_flow_is_exact (m := m) rfl
  exact ⟨rfl, fetched, by decide +kernel,
    (untaken _ _ _ fetched (.equal first second) (by decide)).1⟩

end WordMachine
