import WordMachine.Listing
import WordMachine.Proofs.Results

/-!
# Which addresses a listing labels

A listing labels the addresses of valid instructions that are plain literal targets of valid jumps.
An address is labelled as a subroutine if some call has it as its target, wherever the call stands
among the jumps to it, and as a branch if none has.
-/

namespace WordMachine

open Results

/-- The block holds a valid jump with an opcode, and its target is an address as a plain literal. -/
structure SweptBlock.JumpsTo (b : SweptBlock) (op : Opcode) (address : Word) : Prop where
  valid : b.validate = .ok op
  jump : op.isJump
  target : b.instruction.a = .literal address

namespace Listing

theorem plainTarget?_eq_some_iff {op : Opcode} {i : Instruction} {address : Word} :
    plainTarget? op i = some address ↔ op.isJump ∧ i.a = .literal address := by
  obtain ⟨opcode, flags, reserved, ⟨mode, value⟩, b, c⟩ := i
  simp only [plainTarget?, Operand.literal, Operand.mk.injEq]
  by_cases jump : op.isJump ∧ mode = Mode.of .literal false
  · simp [jump]
  · rw [if_neg jump]
    simp only [reduceCtorEq, false_iff]
    intro h
    exact jump ⟨h.1, h.2.1⟩

theorem jumpsTo_iff {b : SweptBlock} {op op' : Opcode} {address : Word}
    (valid : b.validate = .ok op) :
    b.JumpsTo op' address ↔ op' = op ∧ plainTarget? op b.instruction = some address := by
  rw [plainTarget?_eq_some_iff]
  constructor
  · intro h
    have same : op = op' := Except.ok.inj (valid.symm.trans h.valid)
    subst same
    exact ⟨rfl, h.jump, h.target⟩
  · rintro ⟨rfl, jump, target⟩
    exact ⟨valid, jump, target⟩

/-! ## Collecting targets -/

/-- The targets that the jumps of some blocks give rise to: the valid addresses that they jump to,
and those that they call as subroutines. -/
structure Collected (valid : Std.TreeSet Word) (done : List SweptBlock) (targets : Targets) : Prop
    where
  mem : ∀ address, address ∈ targets ↔ address ∈ valid ∧ ∃ b ∈ done, ∃ op, b.JumpsTo op address
  subroutine : ∀ address : Word, targets[address]? = some .subroutine ↔
    address ∈ valid ∧ ∃ b ∈ done, b.JumpsTo .call address

namespace Collected

variable {valid : Std.TreeSet Word} {targets : Targets} {done : List SweptBlock} {b : SweptBlock}

theorem start (valid : Std.TreeSet Word) : Collected valid [] ∅ where
  mem _ := by simp
  subroutine _ := by simp

theorem pass (h : Collected valid done targets)
    (away : ∀ op address, b.JumpsTo op address → address ∉ valid) :
    Collected valid (done ++ [b]) targets where
  mem address := by
    rw [h.mem]
    apply and_congr_right
    intro listed
    have other : ∀ op, ¬ b.JumpsTo op address := fun op jump => away op address jump listed
    simp [or_and_right, exists_or, other]
  subroutine address := by
    rw [h.subroutine]
    apply and_congr_right
    intro listed
    have other : ¬ b.JumpsTo .call address := fun jump => away .call address jump listed
    simp [or_and_right, exists_or, other]

variable {op : Opcode} {target : Word}

theorem exists_append_iff
    (jumps : ∀ op' address, b.JumpsTo op' address ↔ op' = op ∧ target = address) (address : Word) :
    (∃ x ∈ done ++ [b], ∃ op', x.JumpsTo op' address) ↔
      (∃ x ∈ done, ∃ op', x.JumpsTo op' address) ∨ target = address := by
  simp [or_and_right, exists_or, jumps]

theorem exists_call_append_iff
    (jumps : ∀ op' address, b.JumpsTo op' address ↔ op' = op ∧ target = address) (address : Word) :
    (∃ x ∈ done ++ [b], x.JumpsTo .call address) ↔
      (∃ x ∈ done, x.JumpsTo .call address) ∨ .call = op ∧ target = address := by
  simp [or_and_right, exists_or, jumps]

/-- A call makes its target a subroutine, whatever it was before. -/
theorem call (h : Collected valid done targets) (listed : target ∈ valid)
    (jumps : ∀ op' address, b.JumpsTo op' address ↔ op' = .call ∧ target = address) :
    Collected valid (done ++ [b]) (targets.insert target .subroutine) where
  mem address := by
    rw [Std.TreeMap.mem_insert, Std.compare_eq_iff_eq, h.mem, exists_append_iff jumps]
    by_cases here : target = address
    · subst here
      simp [listed]
    · simp [here]
  subroutine address := by
    rw [Std.TreeMap.getElem?_insert, exists_call_append_iff jumps]
    by_cases here : target = address
    · subst here
      simp [listed]
    · simp [here, h.subroutine]

/-- Any other jump makes its target a branch, unless it has a role already. -/
theorem jump (h : Collected valid done targets) (listed : target ∈ valid) (other : op ≠ .call)
    (jumps : ∀ op' address, b.JumpsTo op' address ↔ op' = op ∧ target = address) :
    Collected valid (done ++ [b]) (targets.insertIfNew target .branch) where
  mem address := by
    rw [Std.TreeMap.mem_insertIfNew, Std.compare_eq_iff_eq, h.mem, exists_append_iff jumps]
    by_cases here : target = address
    · subst here
      simp [listed]
    · simp [here]
  subroutine address := by
    rw [Std.TreeMap.getElem?_insertIfNew, exists_call_append_iff jumps]
    simp only [other.symm, false_and, or_false, ← h.subroutine]
    split
    · rename_i new
      rcases new with ⟨same, unbound⟩
      rw [Std.compare_eq_iff_eq] at same
      subst same
      rw [Std.TreeMap.getElem?_eq_none unbound]
      simp
    · rfl

theorem addTarget (h : Collected valid done targets) (b : SweptBlock) :
    Collected valid (done ++ [b]) (addTarget valid targets b) := by
  unfold Listing.addTarget
  cases checked : b.validate with
  | error defect =>
      apply h.pass
      intro op address jump
      rw [jump.valid] at checked
      cases checked
  | ok op =>
      have jumps (op' : Opcode) (address : Word) : b.JumpsTo op' address ↔
          op' = op ∧ plainTarget? op b.instruction = some address := jumpsTo_iff checked
      dsimp only
      cases plain : plainTarget? op b.instruction with
      | none =>
          apply h.pass
          intro op' address jump
          rw [jumps, plain] at jump
          cases jump.2
      | some target =>
          simp only [plain, Option.some.injEq] at jumps
          dsimp only
          split
          · rename_i listed
            split
            · rename_i call
              subst call
              exact h.call listed jumps
            · rename_i other
              exact h.jump listed other jumps
          · rename_i unlisted
            apply h.pass
            intro op' address jump
            rw [← ((jumps op' address).1 jump).2]
            exact unlisted

theorem foldl (h : Collected valid done targets) (blocks : List SweptBlock) :
    Collected valid (done ++ blocks) (blocks.foldl (Listing.addTarget valid) targets) := by
  induction blocks generalizing done targets with
  | nil => simpa using h
  | cons b blocks ih =>
      have stepped := ih (h.addTarget b)
      rwa [List.append_assoc] at stepped

end Collected

/-! ## The labels of a listing -/

theorem mem_validAddresses {blocks : List SweptBlock} {address : Word} :
    address ∈ validAddresses blocks ↔
      ∃ b ∈ blocks, ∃ op, b.validate = .ok op ∧ b.address = address := by
  simp only [validAddresses, Std.TreeSet.mem_ofList, List.contains_eq_mem, List.mem_map,
    List.mem_filter, Results.isOk_iff, decide_eq_true_eq]
  constructor
  · rintro ⟨b, ⟨member, op, valid⟩, at_address⟩
    exact ⟨b, member, op, valid, at_address⟩
  · rintro ⟨b, member, op, valid, at_address⟩
    exact ⟨b, ⟨member, op, valid⟩, at_address⟩

section Labels

variable {blocks : List SweptBlock} {address : Word} {role : Role}

theorem collected_targetsOf (blocks : List SweptBlock) :
    Collected (validAddresses blocks) blocks (targetsOf blocks) :=
  (Collected.start _).foldl blocks

theorem mem_targetsOf (h : (targetsOf blocks)[address]? = some role) :
    address ∈ targetsOf blocks := by
  rw [Std.TreeMap.mem_iff_isSome_getElem?, h]
  rfl

theorem targetsOf_valid (h : (targetsOf blocks)[address]? = some role) :
    ∃ b ∈ blocks, ∃ op, b.validate = .ok op ∧ b.address = address :=
  mem_validAddresses.1 ((collected_targetsOf blocks).mem address |>.1 (mem_targetsOf h)).1

theorem targetsOf_jump (h : (targetsOf blocks)[address]? = some role) :
    ∃ b ∈ blocks, ∃ op, b.JumpsTo op address :=
  ((collected_targetsOf blocks).mem address |>.1 (mem_targetsOf h)).2

theorem exists_role_of_jumpsTo {source target : SweptBlock} {op op' : Opcode}
    (among : source ∈ blocks) (jumps : source.JumpsTo op target.address) (aimed : target ∈ blocks)
    (valid : target.validate = .ok op') :
    ∃ role, (targetsOf blocks)[target.address]? = some role := by
  have listed := mem_validAddresses.2 ⟨target, aimed, op', valid, rfl⟩
  have member := (collected_targetsOf blocks).mem target.address |>.2
    ⟨listed, source, among, op, jumps⟩
  rw [Std.TreeMap.mem_iff_isSome_getElem?] at member
  exact Option.isSome_iff_exists.1 member

/-- A label names a subroutine if and only if some call has it as its target. -/
theorem targetsOf_subroutine_iff (h : (targetsOf blocks)[address]? = some role) :
    role = .subroutine ↔ ∃ b ∈ blocks, b.JumpsTo .call address := by
  have collected := collected_targetsOf blocks
  have listed := ((collected.mem address).1 (mem_targetsOf h)).1
  have called := collected.subroutine address
  rw [h, Option.some.injEq] at called
  rw [called]
  exact and_iff_right listed

end Labels

end Listing

end WordMachine
