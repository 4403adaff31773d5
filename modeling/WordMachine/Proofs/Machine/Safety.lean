import WordMachine.Proofs.Machine.Partial
import WordMachine.Proofs.Machine.Runs

/-!
# Steps are defined

Each operation agrees with the one that is made of partial operations, provided that its operands
are well formed.  Validation makes them so: every opcode reads and stores only operands that it
takes.  A step is therefore defined for every machine, and all its faults have a category.
-/

namespace WordMachine

/-- A result of partial operations and a result: both the same, or the same fault. -/
inductive SameResult {δ ε S α : Type} (plain : δ → ε) :
    EStateM.Result (Break δ) S α → EStateM.Result ε S α → Prop
  | ok (a : α) (s : S) : SameResult plain (.ok a s) (.ok a s)
  | fault (f : δ) (s : S) : SameResult plain (.error (.fault f) s) (.error (plain f) s)

namespace Partial

open Machine

variable {σ α β : Type}

def Agrees (x : Partial σ α) (y : Exec σ α) : Prop :=
  ∀ m, SameResult Subtype.val (x m) (y m)

namespace Agrees

theorem pure (a : α) : Agrees (pure a : Partial σ α) (pure a) :=
  fun m => .ok a m

theorem fail (fault : KnownFault) :
    Agrees (fail fault.val fault.property : Partial σ α) (throw fault.val) :=
  fun m => .fault fault m

theorem bind {x : Partial σ α} {y : Exec σ α} {f : α → Partial σ β} {g : α → Exec σ β}
    (first : Agrees x y) (rest : ∀ a, Agrees (f a) (g a)) : Agrees (x >>= f) (y >>= g) := by
  intro m
  have same := first m
  show SameResult Subtype.val (EStateM.bind x f m) (EStateM.bind y g m)
  unfold EStateM.bind
  generalize x m = r, y m = s at same ⊢
  cases same with
  | ok a m => exact rest a m
  | fault fault m => exact .fault fault m

theorem ite {c : Prop} [Decidable c] {x x' : Partial σ α} {y y' : Exec σ α}
    (yes : c → Agrees x y) (no : ¬ c → Agrees x' y') :
    Agrees (if c then x else x') (if c then y else y') := by
  split
  · exact yes ‹_›
  · exact no ‹_›

end Agrees

/-! ## Memory and registers -/

theorem read_agrees (address : Word) :
    Agrees (σ := σ) (read address) (inspect (·.readWord address)) := by
  intro m
  unfold read inspect readWord
  by_cases bound : address.toNat < memorySize
  · simp only [bound, if_true, dite_true, cell, Vector.getElem?_eq_getElem]
    exact .ok _ m
  · simp only [bound, if_false, dite_false]
    exact Agrees.fail ⟨.badRead address, rfl⟩ m

theorem write_agrees (address w : Word) :
    Agrees (σ := σ) (write address w) (writeWord address w) := by
  intro m
  unfold write writeWord
  by_cases bound : address.toNat < memorySize
  · simp only [bound, if_true, dite_true, setCell]
    exact .ok () _
  · simp only [bound, if_false, dite_false]
    exact Agrees.fail ⟨.badWrite address, rfl⟩ m

theorem register_agrees (r : Register) :
    Agrees (σ := σ) (register r.val) (inspect fun m => .ok (m.register r)) := by
  intro m
  have bound := r.isLt
  simp only [register, Vector.getElem?_eq_getElem bound]
  exact .ok _ m

theorem setRegister_agrees (r : Register) (w : Word) :
    Agrees (σ := σ) (setRegister r.val w) (modify (·.setRegister r w)) := by
  intro m
  simp only [setRegister, r.isLt, dite_true]
  exact .ok () _

theorem cell_agrees {n : Nat} (bound : n < memorySize) :
    Agrees (σ := σ) (cell n) (inspect fun m => .ok m.memory[n]) := by
  intro m
  simp only [cell, Vector.getElem?_eq_getElem bound]
  exact .ok _ m

/-! ## Operands -/

theorem inspect_value (x : Operand) :
    inspect (σ := σ) (·.value x) =
      inspect (·.direct x) >>= fun w =>
        if x.mode.isIndirect then inspect (·.readWord w) else pure w := by
  funext m
  simp only [bind, EStateM.bind, inspect, Machine.value]
  cases m.direct x with
  | error fault => rfl
  | ok w => cases x.mode.isIndirect <;> rfl

theorem kind_of_wellFormed {x : Operand} (formed : x.WellFormed) :
    x.mode.kind? = some .literal ∨ x.mode.kind? = some .memory ∨
      ∃ r : Register, x.mode.kind? = some .register ∧ x.value.toNat = r.val ∧
        Register.ofWord? x.value = some r := by
  unfold Operand.WellFormed at formed
  split at formed
  · exact formed.elim
  · rename_i kind
    exact .inr (.inr ⟨⟨x.value.toNat, formed⟩, kind, rfl, Register.ofWord?_eq_some_iff.2 rfl⟩)
  · rename_i kind other found
    cases kind with
    | literal => exact .inl found
    | memory => exact .inr (.inl found)
    | register => exact absurd rfl other

theorem direct_agrees {x : Operand} (formed : x.WellFormed) :
    Agrees (σ := σ) (direct x) (inspect (·.direct x)) := by
  unfold direct Machine.direct
  rcases kind_of_wellFormed formed with kind | kind | ⟨r, kind, number, known⟩
  · simp only [kind]
    exact .pure x.value
  · simp only [kind]
    exact read_agrees x.value
  · simp only [kind, number, known]
    exact register_agrees r

theorem value_agrees {x : Operand} (formed : x.WellFormed) :
    Agrees (σ := σ) (value x) (inspect (·.value x)) := by
  rw [inspect_value]
  refine (direct_agrees formed).bind fun w => ?_
  exact .ite (fun _ => read_agrees w) fun _ => .pure w

theorem store_agrees {x : Operand} (formed : x.WellFormed) (w : Word) :
    Agrees (σ := σ) (store x w) (Machine.store x w) := by
  intro m
  unfold store Machine.store
  rcases kind_of_wellFormed formed with kind | kind | ⟨r, kind, number, known⟩
  · simp only [kind]
    cases x.mode.isIndirect with
    | true => exact write_agrees x.value w m
    | false => exact Agrees.fail ⟨.literalDestination, rfl⟩ m
  · simp only [kind]
    by_cases bound : x.value.toNat < memorySize
    · simp only [bound, if_true, dite_true]
      cases x.mode.isIndirect with
      | true => exact (cell_agrees bound).bind (fun address => write_agrees address w) m
      | false =>
          have same := write_agrees x.value w m
          rwa [write, if_pos bound] at same
    · simp only [bound, if_false, dite_false]
      exact Agrees.fail ⟨.badWrite x.value, rfl⟩ m
  · simp only [kind, number, known]
    cases x.mode.isIndirect with
    | true => exact (register_agrees r).bind (fun address => write_agrees address w) m
    | false => exact setRegister_agrees r w m

/-! ## The stack -/

theorem push_agrees (w : Word) : Agrees (σ := σ) (push w) (Machine.push w) := by
  have spelled : Machine.push w =
      inspect (fun m : Machine σ => .ok (m.register Register.stackCount)) >>= fun count =>
        inspect (fun m => .ok (m.register Register.stackBase)) >>= fun base =>
          if base < count then throw .stackOverflow
          else writeWord (base - count) w >>= fun _ =>
            modify (·.setRegister Register.stackCount (count + 1)) := by
    funext m
    simp only [bind, EStateM.bind, inspect, Machine.push]
    split
    · rfl
    · unfold EStateM.bind
      cases writeWord (m.register Register.stackBase - m.register Register.stackCount) w m with
      | ok _ after => rfl
      | error fault after => rfl
  rw [spelled]
  refine (register_agrees Register.stackCount).bind fun count =>
    (register_agrees Register.stackBase).bind fun base => .ite (fun _ => ?_) fun _ => ?_
  · exact .fail ⟨.stackOverflow, rfl⟩
  · exact (write_agrees (base - count) w).bind fun _ => setRegister_agrees _ (count + 1)

theorem pop_agrees : Agrees (σ := σ) pop Machine.pop := by
  have spelled : Machine.pop =
      inspect (fun m : Machine σ => .ok (m.register Register.stackCount)) >>= fun count =>
        inspect (fun m => .ok (m.register Register.stackBase)) >>= fun base =>
          if count = 0 then throw .stackUnderflow
          else inspect (·.readWord (base - (count - 1))) >>= fun w =>
            modify (·.setRegister Register.stackCount (count - 1)) >>= fun _ => pure w := by
    funext m
    simp only [bind, EStateM.bind, inspect, Machine.pop]
    split
    · rfl
    · unfold EStateM.bind inspect
      dsimp only
      cases m.readWord (m.register Register.stackBase - (m.register Register.stackCount - 1)) with
      | ok w => rfl
      | error fault => rfl
  rw [spelled]
  refine (register_agrees Register.stackCount).bind fun count =>
    (register_agrees Register.stackBase).bind fun base => .ite (fun _ => ?_) fun _ => ?_
  · exact .fail ⟨.stackUnderflow, rfl⟩
  · exact (read_agrees (base - (count - 1))).bind fun w =>
      (setRegister_agrees _ (count - 1)).bind fun _ => .pure w

/-! ## Handlers -/

theorem sourceValue_agrees {x : Operand} (formed : x.WellFormed) (slot : Nat) :
    Agrees (σ := σ) (sourceValue slot x)
      (inspect fun m => (m.value x).mapError (.source slot)) := by
  intro m
  have same := value_agrees formed m
  unfold inspect at same
  unfold sourceValue inspect
  dsimp only at same ⊢
  generalize value x m = r at same ⊢
  cases known : m.value x with
  | error fault =>
      rw [known] at same
      cases same with
      | fault fault m => exact .fault (⟨.source slot fault.val, fault.property⟩ : KnownFault) m
  | ok w =>
      rw [known] at same
      cases same with
      | ok w m => exact .ok w m

theorem sourceValues_agrees {i : Instruction} (b : i.b.WellFormed) (c : i.c.WellFormed) :
    Agrees (σ := σ) (sourceValues i) (inspect (·.sourceValues i)) := by
  have spelled : inspect (fun m : Machine σ => m.sourceValues i) =
      inspect (fun m => (m.value i.b).mapError (.source 1)) >>= fun b =>
        inspect (fun m => (m.value i.c).mapError (.source 2)) >>= fun c => pure (b, c) := by
    funext m
    simp only [bind, EStateM.bind, inspect, Machine.sourceValues]
    cases m.value i.b with
    | error fault => rfl
    | ok w =>
        cases known : m.value i.c with
        | error fault => simp [Except.mapError, known]
        | ok w => simp [Except.mapError, known]; rfl
  rw [spelled]
  exact (sourceValue_agrees b 1).bind fun _ => (sourceValue_agrees c 2).bind fun _ => .pure _

theorem binary_agrees {i : Instruction} (a : i.a.WellFormed) (b : i.b.WellFormed)
    (c : i.c.WellFormed) (f : Word → Word → Word) :
    Agrees (σ := σ) (binary f i) (Machine.binary i f) :=
  (sourceValues_agrees b c).bind fun _ => store_agrees a _

theorem unary_agrees {i : Instruction} (a : i.a.WellFormed) (f : Word → Word) :
    Agrees (σ := σ) (unary f i) (Machine.unary i f) :=
  (value_agrees a).bind fun _ => store_agrees a _

theorem jump_agrees (address : Word) : Agrees (σ := σ) (jump address) (Machine.jump address) :=
  setRegister_agrees Register.instructionPointer address

theorem branch_agrees {i : Instruction} (a : i.a.WellFormed) (condition : Bool) :
    Agrees (σ := σ) (branch i condition) (Machine.branch i condition) :=
  .ite (fun _ => (value_agrees a).bind jump_agrees) fun _ => .pure ()

theorem quotient_of_ne {c : Word} (h : c ≠ 0) (b : Word) :
    (quotient b c : Partial σ Word) = pure (b / c) :=
  if_neg h

theorem remainder_of_ne {c : Word} (h : c ≠ 0) (b : Word) :
    (remainder b c : Partial σ Word) = pure (b % c) :=
  if_neg h

section Handlers

variable [RandomSource σ] {i : Instruction}

theorem drawWord_agrees : Agrees (σ := σ) drawWord Machine.drawWord :=
  fun _ => .ok _ _

theorem drawBelow_agrees {n : Word} (h : n ≠ 0) :
    Agrees (σ := σ) (drawBelow n) (Machine.drawBelow n) := by
  intro m
  rw [drawBelow, if_neg h]
  exact .ok _ _

theorem divide_agrees (a : i.a.WellFormed) (b : i.b.WellFormed) (c : i.c.WellFormed) :
    Agrees (σ := σ) (divide i) (execute .div i) := by
  refine (sourceValues_agrees b c).bind ?_
  rintro ⟨x, y⟩
  refine .ite (fun _ => .fail ⟨.divisionByZero, rfl⟩) fun divisor => ?_
  rw [quotient_of_ne divisor, remainder_of_ne divisor]
  simp only [pure_bind]
  exact (store_agrees a (x / y)).bind fun _ => setRegister_agrees Register.remainder (x % y)

theorem modulo_agrees (a : i.a.WellFormed) (b : i.b.WellFormed) (c : i.c.WellFormed) :
    Agrees (σ := σ) (modulo i) (execute .mod i) := by
  refine (sourceValues_agrees b c).bind ?_
  rintro ⟨x, y⟩
  refine .ite (fun _ => .fail ⟨.divisionByZero, rfl⟩) fun divisor => ?_
  rw [remainder_of_ne divisor, pure_bind]
  exact store_agrees a (x % y)

theorem call_agrees (a : i.a.WellFormed) : Agrees (σ := σ) (call i) (execute .call i) :=
  (value_agrees a).bind fun target =>
    (register_agrees Register.instructionPointer).bind fun back =>
      (push_agrees back).bind fun _ => jump_agrees target

theorem random_agrees (a : i.a.WellFormed) (b : i.b.WellFormed) (c : i.c.WellFormed) :
    Agrees (σ := σ) (random i) (execute .rdrand i) := by
  refine (sourceValues_agrees b c).bind ?_
  rintro ⟨low, high⟩
  refine .ite (fun _ => drawWord_agrees.bind fun w => store_agrees a w) fun _ =>
    .ite (fun _ => .fail ⟨.emptyRange, rfl⟩) fun above => ?_
  have nonempty : high - low ≠ 0 := by
    intro none
    have same : high = low := by
      rw [← UInt64.sub_add_cancel high low, none, UInt64.zero_add]
    exact above (UInt64.le_of_eq same)
  exact (drawBelow_agrees nonempty).bind fun w => store_agrees a (low + w)

/-- Every opcode has a handler, which is defined and does what the opcode does with a valid
instruction. -/
theorem handler_agrees {op : Opcode} (valid : i.Valid op) :
    ∃ handler, handlers[op.code.toNat]? = some handler ∧
      Agrees (σ := σ) (handler i) (execute op i) := by
  -- An operand below the arity is well formed; each handler uses no other.
  have a (used : 0 < op.arity) : i.a.WellFormed := by
    have formed := valid.operands 0 i.a rfl
    rwa [if_neg (Nat.not_le_of_gt used)] at formed
  have b (used : 1 < op.arity) : i.b.WellFormed := by
    have formed := valid.operands 1 i.b rfl
    rwa [if_neg (Nat.not_le_of_gt used)] at formed
  have c (used : 2 < op.arity) : i.c.WellFormed := by
    have formed := valid.operands 2 i.c rfl
    rwa [if_neg (Nat.not_le_of_gt used)] at formed
  cases op with
  | nop => exact ⟨_, rfl, .pure ()⟩
  | halt => exact ⟨_, rfl, fun m => .ok () _⟩
  | push => exact ⟨_, rfl, (value_agrees (a (by decide))).bind push_agrees⟩
  | pop => exact ⟨_, rfl, pop_agrees.bind (store_agrees (a (by decide)))⟩
  | add | sub | mul | shl | shr | cmp =>
      exact ⟨_, rfl, binary_agrees (a (by decide)) (b (by decide)) (c (by decide)) _⟩
  | div => exact ⟨_, rfl, divide_agrees (a (by decide)) (b (by decide)) (c (by decide))⟩
  | mod => exact ⟨_, rfl, modulo_agrees (a (by decide)) (b (by decide)) (c (by decide))⟩
  | inc | dec | not => exact ⟨_, rfl, unary_agrees (a (by decide)) _⟩
  | mov =>
      exact ⟨_, rfl, (value_agrees (b (by decide))).bind (store_agrees (a (by decide)))⟩
  | call => exact ⟨_, rfl, call_agrees (a (by decide))⟩
  | ret => exact ⟨_, rfl, pop_agrees.bind jump_agrees⟩
  | jmp => exact ⟨_, rfl, branch_agrees (a (by decide)) true⟩
  | jeq | jne =>
      exact ⟨_, rfl, (sourceValues_agrees (b (by decide)) (c (by decide))).bind fun _ =>
        branch_agrees (a (by decide)) _⟩
  | jnz =>
      exact ⟨_, rfl, (value_agrees (b (by decide))).bind fun _ =>
        branch_agrees (a (by decide)) _⟩
  | rdrand => exact ⟨_, rfl, random_agrees (a (by decide)) (b (by decide)) (c (by decide))⟩

end Handlers

/-! ## Steps and runs -/

theorem block_of_block? {m : Machine σ} {address : Word} {words : Block}
    (found : m.block? address = some words) : block address.toNat m = .ok words m := by
  have cells := (block?_eq_some_iff.1 found).2
  have at_cell (k : Nat) (small : k < 4) (w : Word) (known : words.words[k]? = some w) :
      cell (address.toNat + k) m = .ok w m := by
    rw [cell, cells k small, known]
  have first : cell address.toNat m = .ok words.control m := at_cell 0 (by decide) _ rfl
  simp only [block, bind, EStateM.bind, first, at_cell 1 (by decide) words.a rfl,
    at_cell 2 (by decide) words.b rfl, at_cell 3 (by decide) words.c rfl]
  rfl

theorem located_agrees {x : EStateM.Result (Break KnownFault) (Machine σ) Unit}
    {y : EStateM.Result Fault (Machine σ) Unit} (same : SameResult Subtype.val x y)
    (address : Word) (op : Opcode) :
    SameResult (Subtype.val : KnownStepFault → StepFault) (located address op x)
      (Machine.located address op y) := by
  cases same with
  | ok _ m => exact .ok () m
  | fault fault m =>
      exact .fault (⟨.execution address op fault.val, fault.property⟩ : KnownStepFault) m

theorem step_agrees [RandomSource σ] (m : Machine σ) :
    SameResult Subtype.val (step m) (Machine.step m) := by
  unfold step Machine.step fetch
  dsimp only
  by_cases running : m.running = true
  · rw [if_pos running, if_pos running]
    cases found : m.block? (m.register Register.instructionPointer) with
    | none =>
        have outside : ¬ (m.register Register.instructionPointer).toNat ≤ memorySize - 4 := by
          intro inside
          rw [block?, dif_pos (by simp only [memorySize] at inside ⊢; omega)] at found
          cases found
        rw [if_neg outside]
        exact .fault (⟨.fetch _, rfl⟩ : KnownStepFault) m
    | some words =>
        have fits := (block?_eq_some_iff.1 found).1
        rw [if_pos (by omega), block_of_block? found]
        dsimp only
        cases validated : (Instruction.decode words).validate with
        | error defect => exact .fault (⟨.illegal _ defect, rfl⟩ : KnownStepFault) m
        | ok op =>
            have valid := Instruction.validate_eq_ok_iff.1 validated
            obtain ⟨handler, known, agrees⟩ := handler_agrees (σ := σ) valid
            rw [valid.opcode, known]
            exact located_agrees (agrees m.advance) _ op
  · rw [if_neg running, if_neg running]
    exact .ok () m

end Partial

namespace Machine

variable {σ : Type} [RandomSource σ] {m m' : Machine σ}

theorem category_of_step {fault : StepFault} (h : step m = .error fault m') :
    fault.category?.isSome := by
  have same := Partial.step_agrees m
  rw [h] at same
  generalize Partial.step m = r at same
  cases same with
  | fault fault m => exact fault.property

theorem category_of_ends {result : EStateM.Result RunFault (Machine σ) Unit} {fault : RunFault}
    (ends : Ends m result) (failed : result = .error fault m') :
    ∃ cause category, fault = .step cause ∧ cause.category? = some category := by
  induction ends with
  | halted stopped => cases failed
  | faulted refused =>
      cases failed
      obtain ⟨category, found⟩ := Option.isSome_iff_exists.1 (category_of_step refused)
      exact ⟨_, category, rfl, found⟩
  | step running stepped rest ih => exact ih failed

theorem limit_or_ends (limit : Word) (m : Machine σ) :
    (∃ after, run limit m = .error .stepLimit after) ∨
      Ends { m with running := true } (run limit m) := by
  by_cases limited : ∃ after, run limit m = .error .stepLimit after
  · exact .inl limited
  · exact .inr (ends_of_runSteps (not_exists.1 limited))

end Machine

/-- No machine makes a step ask for a cell, register or handler that does not exist, divide by zero
or draw below zero, and what a step reports is a fault of one of the seven categories.  So is what
ends a machine that no limit stops, and a run either ends so or reports the limit on steps. -/
theorem step_defined_and_categorized {σ : Type} [RandomSource σ] (m : Machine σ) :
    SameResult Subtype.val (Partial.step m) (Machine.step m) ∧
      (∀ fault after, Machine.step m = .error fault after →
        ∃ category, fault.category? = some category) ∧
      (∀ fault after, Machine.Ends { m with running := true } (.error fault after) →
        ∃ cause category, fault = .step cause ∧ cause.category? = some category) ∧
      ∀ limit,
        ((∃ after, Machine.run limit m = .error .stepLimit after) ∨
          Machine.Ends { m with running := true } (Machine.run limit m)) ∧
        ∀ fault after, Machine.run limit m = .error fault after →
          fault = .stepLimit ∨
            ∃ cause category, fault = .step cause ∧ cause.category? = some category := by
  refine ⟨Partial.step_agrees m, ?_, ?_, ?_⟩
  · intro fault after failed
    exact Option.isSome_iff_exists.1 (Machine.category_of_step failed)
  · intro fault after ends
    exact Machine.category_of_ends ends rfl
  · intro limit
    refine ⟨Machine.limit_or_ends limit m, ?_⟩
    intro fault after failed
    rcases Machine.limit_or_ends limit m with ⟨last, limited⟩ | ends
    · rw [failed] at limited
      cases limited
      exact .inl rfl
    · exact .inr (Machine.category_of_ends ends failed)

end WordMachine
