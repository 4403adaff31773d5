import WordMachine.Proofs.Codec
import WordMachine.Proofs.Results

/-!
# Valid instructions

What validation accepts, said without it: the opcode is known, no reserved bit and no flag is set,
the operands that the opcode takes are well formed, and the others are empty.
-/

namespace WordMachine

open Results

namespace Mode

theorem eq_of_of_kind? {mode : Mode} {kind : Kind} (h : mode.kind? = some kind) :
    mode = of kind mode.isIndirect := by
  obtain ⟨bits⟩ := mode
  have every : ∀ b : Fin 256, (⟨UInt8.ofFin b⟩ : Mode).kind? = some kind →
      (⟨UInt8.ofFin b⟩ : Mode) = of kind (⟨UInt8.ofFin b⟩ : Mode).isIndirect := by
    cases kind <;> decide +kernel
  exact every bits.toFin h

end Mode

namespace Operand

/-- An operand that has a kind, and names a register if that is its kind. -/
def WellFormed (x : Operand) : Prop :=
  match x.mode.kind? with
  | none => False
  | some .register => x.value.toNat < registerCount
  | some _ => True

end Operand

namespace Instruction

theorem checkOperand_eq_ok_iff {op : Opcode} {slot : Nat} {x : Operand} :
    checkOperand op slot x = .ok () ↔ if op.arity ≤ slot then x = .empty else x.WellFormed := by
  unfold checkOperand Operand.WellFormed
  split
  · split <;> simp_all
  · cases x.mode.kind? with
    | none => simp
    | some kind =>
        cases kind with
        | register =>
            dsimp only
            split <;> simp_all
        | literal => simp
        | memory => simp

theorem validate_eq_ok_iff_checks {i : Instruction} {op : Opcode} :
    i.validate = .ok op ↔ Opcode.ofCode? i.opcode = some op ∧ i.reserved = 0 ∧ i.flags = 0 ∧
      checkOperand op 0 i.a = .ok () ∧ checkOperand op 1 i.b = .ok () ∧
      checkOperand op 2 i.c = .ok () := by
  unfold validate
  cases known : Opcode.ofCode? i.opcode with
  | none => simp
  | some found =>
      by_cases reserved : i.reserved = 0
      · by_cases flags : i.flags = 0
        · simp only [reserved, flags, ne_eq, not_true_eq_false, if_false, bind_eq_ok_iff,
            Option.some.injEq, true_and]
          constructor
          · rintro ⟨_, first, _, second, _, third, result⟩
            cases result
            exact ⟨rfl, first, second, third⟩
          · rintro ⟨rfl, first, second, third⟩
            exact ⟨(), first, (), second, (), third, rfl⟩
        · simp [reserved, flags, throw, throwThe, MonadExceptOf.throw]
      · simp [reserved, throw, throwThe, MonadExceptOf.throw]

/-- An instruction that means something, with its opcode. -/
structure Valid (i : Instruction) (op : Opcode) : Prop where
  opcode : i.opcode = op.code
  reserved : i.reserved = 0
  flags : i.flags = 0
  operands : ∀ slot x, i.operands[slot]? = some x →
    if op.arity ≤ slot then x = .empty else x.WellFormed

theorem validate_eq_ok_iff {i : Instruction} {op : Opcode} :
    i.validate = .ok op ↔ i.Valid op := by
  rw [validate_eq_ok_iff_checks]
  simp only [checkOperand_eq_ok_iff]
  constructor
  · rintro ⟨opcode, reserved, flags, first, second, third⟩
    refine ⟨(Opcode.code_eq_of_ofCode? opcode).symm, reserved, flags, ?_⟩
    intro slot x h
    match slot, h with
    | 0, h => cases h; exact first
    | 1, h => cases h; exact second
    | 2, h => cases h; exact third
  · intro h
    refine ⟨?_, h.reserved, h.flags, h.operands 0 _ rfl, h.operands 1 _ rfl, h.operands 2 _ rfl⟩
    rw [h.opcode, Opcode.ofCode?_code]

end Instruction

end WordMachine
