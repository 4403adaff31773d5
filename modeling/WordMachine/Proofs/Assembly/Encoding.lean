import WordMachine.Assembly.Encoding
import WordMachine.Proofs.Validity

/-!
# What statements encode to

A statement that has an instruction has a valid one: its opcode is that of the mnemonic, each
written operand stands in its slot as it resolves, and the slots beyond them are empty.
-/

namespace WordMachine

open Results

theorem Opcode.arity_le_three (op : Opcode) : op.arity ≤ 3 := by
  cases op <;> decide

namespace Instruction

/-- The instruction of an opcode with some operands; slots without one are empty. -/
def ofOperands (op : Opcode) (operands : List Operand) : Instruction where
  opcode := op.code
  flags := 0
  reserved := 0
  a := operands[0]?.getD .empty
  b := operands[1]?.getD .empty
  c := operands[2]?.getD .empty

theorem operands_ofOperands (op : Opcode) (operands : List Operand) {slot : Nat} (h : slot < 3) :
    (ofOperands op operands).operands[slot]? = some (operands[slot]?.getD .empty) := by
  match slot, h with
  | 0, _ => rfl
  | 1, _ => rfl
  | 2, _ => rfl

theorem ofOperands_valid {op : Opcode} {operands : List Operand}
    (count : operands.length = op.arity) (formed : ∀ x ∈ operands, x.WellFormed) :
    (ofOperands op operands).Valid op := by
  refine ⟨rfl, rfl, rfl, ?_⟩
  intro slot x h
  have bound : slot < 3 := (List.getElem?_eq_some_iff.1 h).1
  rw [operands_ofOperands op operands bound, Option.some.injEq] at h
  subst h
  split
  · rename_i beyond
    rw [List.getElem?_eq_none (by omega)]
    rfl
  · rename_i within
    have inside : slot < operands.length := by omega
    rw [List.getElem?_eq_getElem inside]
    exact formed _ (List.getElem_mem inside)

theorem Valid.eq_ofOperands {i : Instruction} {op : Opcode} (h : i.Valid op) :
    i = ofOperands op (i.operands.take op.arity) := by
  have slots : ∀ (slot : Nat) (x : Operand), i.operands[slot]? = some x →
      (i.operands.take op.arity)[slot]?.getD Operand.empty = x := by
    intro slot x at_slot
    have formed := h.operands slot x at_slot
    rw [List.getElem?_take]
    split at formed
    · rename_i beyond
      rw [if_neg (by omega), formed]
      rfl
    · rename_i within
      rw [if_pos (by omega), at_slot]
      rfl
  rw [ofOperands, slots 0 i.a rfl, slots 1 i.b rfl, slots 2 i.c rfl, ← h.opcode, ← h.flags,
    ← h.reserved]

end Instruction

section Targets

variable {labels : Labels} {t : Token}

theorem Token.target_of_register {r : Register} (kind : t.kind = .register)
    (name : Register.ofName? t.text = some r) : t.target labels = .ok (.register, .ofNat r) := by
  simp [target, kind, name]

theorem Token.target_of_literal {w : Word} (kind : t.kind = .literal) (word : t.word = .ok w) :
    t.target labels = .ok (.literal, w) := by
  simp [target, kind, word]

theorem Token.target_of_number {w : Word} (kind : t.kind = .number) (word : t.word = .ok w) :
    t.target labels = .ok (.memory, w) := by
  simp [target, kind, word]

theorem Token.target_labelRef_iff (h : t.kind = .labelRef) {kind : Mode.Kind} {w : Word} :
    t.target labels = .ok (kind, w) ↔ kind = .literal ∧ labels[t.text]? = some w := by
  unfold target
  simp only [h]
  cases labels[t.text]? with
  | none => simp
  | some address => simp [eq_comm]

end Targets

theorem Token.target_eq_ok_register {labels : Labels} {t : Token} {w : Word}
    (h : t.target labels = .ok (.register, w)) : w.toNat < registerCount := by
  unfold target at h
  split at h
  · split at h
    · rename_i r known
      cases h
      have bound : r.val < 21 := r.isLt
      rw [UInt64.toNat_ofNat_of_lt' (by simp only [UInt64.size]; omega)]
      exact bound
    · cases h
  all_goals
    first
      | (split at h <;> cases h)
      | cases h

theorem WrittenOperand.resolve_eq_ok_iff {labels : Labels} {x : WrittenOperand} {y : Operand} :
    x.resolve labels = .ok y ↔
      ∃ kind w, x.token.target labels = .ok (kind, w) ∧ y = ⟨Mode.of kind x.indirect, w⟩ := by
  unfold resolve
  cases known : x.token.target labels with
  | error e => simp
  | ok pair =>
      obtain ⟨kind, w⟩ := pair
      simp [eq_comm]

theorem WrittenOperand.resolve_wellFormed {labels : Labels} {x : WrittenOperand} {y : Operand}
    (h : x.resolve labels = .ok y) : y.WellFormed := by
  obtain ⟨kind, w, target, rfl⟩ := resolve_eq_ok_iff.1 h
  unfold Operand.WellFormed
  rw [Mode.kind?_of]
  cases kind with
  | register => exact Token.target_eq_ok_register target
  | literal => trivial
  | memory => trivial

theorem WrittenOperand.wellFormed_of_resolved {labels : Labels} {xs : List WrittenOperand}
    {ys : List Operand} (resolved : List.Forall₂ (fun x y => x.resolve labels = .ok y) xs ys)
    {y : Operand} (member : y ∈ ys) : y.WellFormed := by
  obtain ⟨x, -, resolves⟩ := exists_mem_of_forall₂ resolved member
  exact resolve_wellFormed resolves

namespace Statement

theorem instruction_eq_ok_iff {labels : Labels} {s : Statement} {i : Instruction} :
    s.instruction labels = .ok i ↔
      ∃ op operands, Opcode.ofMnemonic? s.mnemonic = some op ∧ s.operands.length = op.arity ∧
        List.Forall₂ (fun x y => x.resolve labels = .ok y) s.operands operands ∧
        i = .ofOperands op operands := by
  unfold instruction
  cases known : Opcode.ofMnemonic? s.mnemonic with
  | none => simp
  | some op =>
      by_cases count : s.operands.length = op.arity
      · dsimp only
        rw [if_neg (not_not_intro count)]
        simp only [Option.some.injEq, ← mapM_eq_ok_iff]
        cases resolved : s.operands.mapM (·.resolve labels) with
        | error e => simp
        | ok operands =>
            constructor
            · intro h
              cases h
              exact ⟨op, operands, rfl, count, rfl, rfl⟩
            · rintro ⟨_, _, rfl, _, result, rfl⟩
              cases result
              rfl
      · dsimp only
        rw [if_pos count]
        simp only [Option.some.injEq, reduceCtorEq, false_iff]
        rintro ⟨_, _, rfl, same, _⟩
        exact count same

theorem encode_eq_ok_iff {labels : Labels} {s : Statement} {block : Block} :
    s.encode labels = .ok block ↔ ∃ i, s.instruction labels = .ok i ∧ i.encode = block :=
  map_eq_ok_iff

/-- The instruction of a statement is valid, with the opcode of the mnemonic. -/
theorem instruction_valid {labels : Labels} {s : Statement} {i : Instruction}
    (h : s.instruction labels = .ok i) :
    ∃ op, Opcode.ofMnemonic? s.mnemonic = some op ∧ i.Valid op := by
  obtain ⟨op, operands, known, count, resolved, rfl⟩ := instruction_eq_ok_iff.1 h
  exact ⟨op, known, Instruction.ofOperands_valid (resolved.length_eq ▸ count) fun y =>
    WrittenOperand.wellFormed_of_resolved resolved⟩

end Statement

end WordMachine
