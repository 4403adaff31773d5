import WordMachine.Proofs.Machine.Fetch
import WordMachine.Proofs.Machine.Location

/-!
# What an instruction changes

The footprint of an instruction is the locations it may change: the destination of its result, the
word that it pushes, and the registers for the stack, for jumps and for remainders as its opcode
uses them.  Outside its footprint an instruction leaves everything as it is.
-/

namespace WordMachine

namespace Opcode

def stores : Opcode → Bool
  | pop | add | sub | mul | div | shl | shr | mod | inc | dec | not | cmp | mov | rdrand => true
  | nop | halt | push | call | ret | jmp | jeq | jne | jnz => false

def pushes : Opcode → Bool
  | push | call => true
  | _ => false

def pops : Opcode → Bool
  | pop | ret => true
  | _ => false

/-- Whether the next instruction may be another than the following one, whatever the operands. -/
def jumps : Opcode → Bool
  | call | ret | jmp | jeq | jne | jnz => true
  | _ => false

end Opcode

namespace Machine

variable {σ : Type} {m m' : Machine σ} {i : Instruction}

/-- The machine that a result is stored in.  A word is off the stack before it is stored. -/
def beforeStore (m : Machine σ) (op : Opcode) : Machine σ :=
  if op = .pop then m.setRegister Register.stackCount (m.register Register.stackCount - 1) else m

def destination? (m : Machine σ) (op : Opcode) (i : Instruction) : Option Location :=
  if op.stores then (m.beforeStore op).location? i.a else none

/-- The word below the top of the stack, which a push writes. -/
def nextOnStack? (m : Machine σ) : Option Location :=
  Location.ofAddress? (m.register Register.stackBase - m.register Register.stackCount)

/-- The locations that an instruction may change. -/
def footprint (m : Machine σ) (op : Opcode) (i : Instruction) : List Location :=
  (m.destination? op i).toList ++
    (if op.pushes then m.nextOnStack?.toList else []) ++
    (if op.pushes || op.pops then [.register Register.stackCount] else []) ++
    (if op.jumps then [.register Register.instructionPointer] else []) ++
    (if op = .div then [.register Register.remainder] else [])

theorem nextOnStack?_ne_register {r : Register} : m.nextOnStack? ≠ some (.register r) :=
  Location.ofAddress?_ne_register

theorem mem_footprint_iff {op : Opcode} {l : Location} :
    l ∈ m.footprint op i ↔ m.destination? op i = some l ∨
      op.pushes = true ∧ m.nextOnStack? = some l ∨
      (op.pushes = true ∨ op.pops = true) ∧ l = .register Register.stackCount ∨
      op.jumps = true ∧ l = .register Register.instructionPointer ∨
      op = .div ∧ l = .register Register.remainder := by
  unfold footprint
  simp only [List.mem_append, Option.mem_toList, List.mem_ite_nil_right,
    List.mem_singleton, Bool.or_eq_true, or_assoc]

theorem location_subset_footprint {op : Opcode} (stores : op.stores = true) (other : op ≠ .pop) :
    (m.location? i.a).toList ⊆ m.footprint op i := by
  intro l member
  refine mem_footprint_iff.2 (.inl ?_)
  rw [destination?, if_pos stores, beforeStore, if_neg other]
  exact Option.mem_toList.1 member

/-! ## Parts of instructions -/

theorem store_frame {x : Operand} {w : Word} (h : store x w m = .ok () m') :
    Frame (m.location? x).toList m m' := by
  obtain ⟨l, found, rfl⟩ := store_eq_ok_iff.1 h
  rw [found]
  exact .put m l w

theorem push_frame {w : Word} (h : push w m = .ok () m') :
    Frame (m.nextOnStack?.toList ++ [.register Register.stackCount]) m m' := by
  obtain ⟨-, l, found, rfl⟩ := push_eq_ok_iff.1 h
  rw [nextOnStack?, found]
  exact (Frame.put m l w).trans (.put _ (.register Register.stackCount) _)

theorem pop_frame {w : Word} (h : pop m = .ok w m') :
    Frame [.register Register.stackCount] m m' := by
  obtain ⟨-, -, -, -, rfl⟩ := pop_eq_ok_iff.1 h
  exact .put m (.register Register.stackCount) _

theorem jump_frame {address : Word} (h : jump address m = .ok () m') :
    Frame [.register Register.instructionPointer] m m' := by
  cases h
  exact .put m (.register Register.instructionPointer) address

theorem binary_ok {f : Word → Word → Word} (h : binary i f m = .ok () m') :
    ∃ b c, m.sourceValues i = .ok (b, c) ∧ store i.a (f b c) m = .ok () m' := by
  obtain ⟨⟨b, c⟩, values, stored⟩ := inspect_bind_eq_ok_iff.1 h
  exact ⟨b, c, values, stored⟩

theorem unary_ok {f : Word → Word} (h : unary i f m = .ok () m') :
    ∃ a, m.value i.a = .ok a ∧ store i.a (f a) m = .ok () m' := by
  obtain ⟨a, value, stored⟩ := inspect_bind_eq_ok_iff.1 h
  exact ⟨a, value, stored⟩

theorem sourceValues_eq_ok_iff {b c : Word} :
    m.sourceValues i = .ok (b, c) ↔ m.value i.b = .ok b ∧ m.value i.c = .ok c := by
  unfold sourceValues
  cases m.value i.b with
  | error fault => simp
  | ok first =>
      cases m.value i.c with
      | error fault => simp
      | ok second => simp

def dividing (i : Instruction) (k : Word → Word → Exec σ Unit) : Exec σ Unit :=
  inspect (·.sourceValues i) >>= fun v =>
    if v.2 = 0 then throw .divisionByZero else k v.1 v.2

theorem dividing_eq_ok_iff {k : Word → Word → Exec σ Unit} :
    dividing i k m = .ok () m' ↔
      ∃ b c, m.value i.b = .ok b ∧ m.value i.c = .ok c ∧ c ≠ 0 ∧ k b c m = .ok () m' := by
  unfold dividing
  rw [inspect_bind_eq_ok_iff]
  constructor
  · rintro ⟨⟨b, c⟩, values, rest⟩
    obtain ⟨first, second⟩ := sourceValues_eq_ok_iff.1 values
    split at rest
    · cases rest
    · rename_i divisor
      exact ⟨b, c, first, second, divisor, rest⟩
  · rintro ⟨b, c, first, second, divisor, rest⟩
    refine ⟨(b, c), sourceValues_eq_ok_iff.2 ⟨first, second⟩, ?_⟩
    rw [if_neg divisor]
    exact rest

theorem branch_frame {condition : Bool} (h : branch i condition m = .ok () m') :
    Frame [.register Register.instructionPointer] m m' := by
  cases condition with
  | false =>
      cases h
      exact (Frame.refl m).mono (List.nil_subset _)
  | true =>
      obtain ⟨target, -, jumped⟩ := inspect_bind_eq_ok_iff.1 h
      exact jump_frame jumped

theorem advance_frame (m : Machine σ) :
    Frame [.register Register.instructionPointer, .register Register.instructionCount] m
      m.advance :=
  (Frame.put m (.register Register.instructionPointer) _).trans
    (.put _ (.register Register.instructionCount) _)

theorem register_advance (m : Machine σ) {r : Register} (pointer : r ≠ Register.instructionPointer)
    (count : r ≠ Register.instructionCount) : m.advance.register r = m.register r :=
  m.advance_frame (.register r) (by simp [pointer, count])

@[simp] theorem instructionPointer_advance (m : Machine σ) :
    m.advance.register Register.instructionPointer =
      m.register Register.instructionPointer + 4 := by
  rw [advance, register_setRegister_of_ne _ _ (by decide), register_setRegister_same]

@[simp] theorem instructionCount_advance (m : Machine σ) :
    m.advance.register Register.instructionCount = m.register Register.instructionCount + 1 := by
  rw [advance, register_setRegister_same]

theorem nextOnStack?_advance (m : Machine σ) : m.advance.nextOnStack? = m.nextOnStack? := by
  rw [nextOnStack?, m.register_advance (by decide) (by decide),
    m.register_advance (by decide) (by decide), nextOnStack?]

/-! ## Instructions -/

variable [RandomSource σ]

theorem execute_mod_eq (i : Instruction) :
    execute .mod i = dividing (σ := σ) i fun b c => store i.a (b % c) := rfl

theorem execute_div_eq (i : Instruction) :
    execute .div i = dividing (σ := σ) i fun b c =>
      store i.a (b / c) >>= fun _ => modify (·.setRegister Register.remainder (b % c)) := rfl

theorem execute_div_eq_ok_iff :
    execute .div i m = .ok () m' ↔ ∃ b c l, m.value i.b = .ok b ∧ m.value i.c = .ok c ∧ c ≠ 0 ∧
      m.location? i.a = some l ∧
      m' = (m.put l (b / c)).setRegister Register.remainder (b % c) := by
  rw [execute_div_eq, dividing_eq_ok_iff]
  constructor
  · rintro ⟨b, c, first, second, divisor, rest⟩
    obtain ⟨_, after, stored, last⟩ := Exec.bind_eq_ok_iff.1 rest
    obtain ⟨l, found, rfl⟩ := store_eq_ok_iff.1 stored
    cases last
    exact ⟨b, c, l, first, second, divisor, found, rfl⟩
  · rintro ⟨b, c, l, first, second, divisor, found, rfl⟩
    exact ⟨b, c, first, second, divisor,
      Exec.bind_eq_ok_iff.2 ⟨(), _, store_eq_ok_iff.2 ⟨l, found, rfl⟩, rfl⟩⟩

theorem execute_rdrand_ok (h : execute .rdrand i m = .ok () m') :
    ∃ low high w source, m.sourceValues i = .ok (low, high) ∧
      (low = 0 ∧ high = 0 ∧ RandomSource.word m.source = (w, source) ∨
        ¬ high ≤ low ∧ ∃ offset, RandomSource.below (high - low) m.source = (offset, source) ∧
          w = low + offset) ∧
      store i.a w { m with source } = .ok () m' := by
  obtain ⟨⟨low, high⟩, values, rest⟩ := inspect_bind_eq_ok_iff.1 h
  dsimp only at rest
  split at rest
  · rename_i any
    obtain ⟨w, after, drawn, stored⟩ := Exec.bind_eq_ok_iff.1 rest
    cases drawn
    exact ⟨low, high, _, _, values, .inl ⟨any.1, any.2, rfl⟩, stored⟩
  · split at rest
    · cases rest
    · rename_i range
      obtain ⟨offset, after, drawn, stored⟩ := Exec.bind_eq_ok_iff.1 rest
      cases drawn
      exact ⟨low, high, _, _, values, .inr ⟨range, _, rfl, rfl⟩, stored⟩

theorem execute_call_ok (h : execute .call i m = .ok () m') :
    ∃ target after, m.value i.a = .ok target ∧
      push (m.register Register.instructionPointer) m = .ok () after ∧
      m' = after.setRegister Register.instructionPointer target := by
  obtain ⟨target, value, rest⟩ := inspect_bind_eq_ok_iff.1 h
  obtain ⟨_, _, got, rest⟩ := Exec.bind_eq_ok_iff.1 rest
  cases got
  obtain ⟨_, after, pushed, jumped⟩ := Exec.bind_eq_ok_iff.1 rest
  cases jumped
  exact ⟨target, after, value, pushed, rfl⟩

/-- An instruction leaves what is outside its footprint as it is. -/
theorem execute_frame {op : Opcode} (h : execute op i m = .ok () m') :
    Frame (m.footprint op i) m m' := by
  cases op with
  | nop =>
      cases h
      exact .refl m
  | halt =>
      cases h
      intro l _
      cases l <;> rfl
  | push =>
      obtain ⟨a, -, pushed⟩ := inspect_bind_eq_ok_iff.1 h
      exact (push_frame pushed).mono (by simp [footprint, Opcode.pushes])
  | pop =>
      obtain ⟨w, after, popped, stored⟩ := Exec.bind_eq_ok_iff.1 h
      have frame := (pop_frame popped).trans (store_frame stored)
      obtain ⟨-, -, -, -, rfl⟩ := pop_eq_ok_iff.1 popped
      exact frame.mono (by
        simp [footprint, destination?, beforeStore, Opcode.stores, Opcode.pushes, Opcode.pops])
  | add | sub | mul | shl | shr | cmp =>
      obtain ⟨b, c, -, stored⟩ := binary_ok h
      exact (store_frame stored).mono (location_subset_footprint rfl (by decide))
  | inc | dec | not =>
      obtain ⟨a, -, stored⟩ := unary_ok h
      exact (store_frame stored).mono (location_subset_footprint rfl (by decide))
  | div =>
      obtain ⟨b, c, l, -, -, -, found, rfl⟩ := execute_div_eq_ok_iff.1 h
      have stored : store i.a (b / c) m = .ok () (m.put l (b / c)) :=
        store_eq_ok_iff.2 ⟨l, found, rfl⟩
      exact ((store_frame stored).trans (.put _ (.register Register.remainder) _)).mono
        (List.append_subset.2 ⟨location_subset_footprint rfl (by decide), by simp [footprint]⟩)
  | mod =>
      rw [execute_mod_eq] at h
      obtain ⟨b, c, -, -, -, stored⟩ := dividing_eq_ok_iff.1 h
      exact (store_frame stored).mono (location_subset_footprint rfl (by decide))
  | mov =>
      obtain ⟨b, -, stored⟩ := inspect_bind_eq_ok_iff.1 h
      exact (store_frame stored).mono (location_subset_footprint rfl (by decide))
  | call =>
      obtain ⟨target, after, -, pushed, rfl⟩ := execute_call_ok h
      exact ((push_frame pushed).trans
        (.put after (.register Register.instructionPointer) target)).mono (by
          simp [footprint, Opcode.pushes, Opcode.jumps])
  | ret =>
      obtain ⟨back, after, popped, jumped⟩ := Exec.bind_eq_ok_iff.1 h
      exact ((pop_frame popped).trans (jump_frame jumped)).mono (by
        simp [footprint, Opcode.pops, Opcode.jumps])
  | jmp => exact (branch_frame h).mono (by simp [footprint, Opcode.jumps])
  | jeq | jne =>
      obtain ⟨⟨b, c⟩, -, branched⟩ := inspect_bind_eq_ok_iff.1 h
      exact (branch_frame branched).mono (by simp [footprint, Opcode.jumps])
  | jnz =>
      obtain ⟨b, -, branched⟩ := inspect_bind_eq_ok_iff.1 h
      exact (branch_frame branched).mono (by simp [footprint, Opcode.jumps])
  | rdrand =>
      -- Drawing changes the source only, which no location shows.
      obtain ⟨low, high, w, source, -, -, stored⟩ := execute_rdrand_ok h
      have drawn : Frame [] m { m with source } := fun l _ => by cases l <;> rfl
      exact (drawn.trans (store_frame stored)).mono (location_subset_footprint rfl (by decide))

/-- A register that no opcode changes by itself stays unless a result goes there; the pointer is one
for instructions that do not jump. -/
theorem register_of_execute {op : Opcode} {r : Register} (executed : execute op i m = .ok () m')
    (result : m.destination? op i ≠ some (.register r)) (stack : r ≠ Register.stackCount)
    (remainder : r ≠ Register.remainder)
    (pointer : op.jumps = true → r ≠ Register.instructionPointer) :
    m'.register r = m.register r := by
  refine execute_frame executed (.register r) ?_
  simpa [mem_footprint_iff, result, nextOnStack?_ne_register, stack, remainder] using pointer

/-- A step changes what its instruction changes, the instruction pointer and the count of
instructions. -/
theorem step_frame {op : Opcode} (running : m.running = true) (fetched : m.fetch = .ok (op, i))
    (stepped : step m = .ok () m') :
    Frame (.register Register.instructionPointer :: .register Register.instructionCount ::
      m.advance.footprint op i) m m' :=
  m.advance_frame.trans (execute_frame (execute_of_step running fetched stepped))

theorem contents_memory_of_step {op : Opcode} {n : Fin memorySize}
    (running : m.running = true) (fetched : m.fetch = .ok (op, i)) (stepped : step m = .ok () m')
    (result : m.advance.destination? op i ≠ some (.memory n))
    (pushed : m.nextOnStack? ≠ some (.memory n)) :
    m'.contents (.memory n) = m.contents (.memory n) := by
  refine step_frame running fetched stepped _ ?_
  simp [mem_footprint_iff, result, pushed, nextOnStack?_advance]

theorem register_of_step {op : Opcode} {r : Register} (running : m.running = true)
    (fetched : m.fetch = .ok (op, i)) (stepped : step m = .ok () m')
    (result : m.advance.destination? op i ≠ some (.register r))
    (general : r ∉ [Register.instructionPointer, Register.instructionCount, Register.stackCount,
      Register.remainder]) :
    m'.register r = m.register r := by
  simp only [List.mem_cons, List.not_mem_nil, or_false, not_or] at general
  obtain ⟨pointer, counter, count, remainder⟩ := general
  have executed := execute_of_step running fetched stepped
  rw [register_of_execute executed result count remainder fun _ => pointer,
    m.register_advance pointer counter]

end Machine

end WordMachine
