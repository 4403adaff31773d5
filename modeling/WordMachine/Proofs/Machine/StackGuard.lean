import WordMachine.Proofs.Machine.Location

/-!
# The guards of the stack at the limits of a word

The base and the count of the stack are registers like others, so that a program can set them to any
words.  A push compares the two, and its count is right unless it wraps around, which takes a base
at the greatest word.  A pop compares its count with nothing: with a count beyond what lies below
the base, the address wraps around, and the word may lie above the base.
-/

namespace WordMachine

namespace Machine

variable {σ : Type} {m m' : Machine σ}

/-! ## Words that wrap around -/

theorem toNat_sub_one {w : Word} (some : w ≠ 0) : (w - 1).toNat = w.toNat - 1 := by
  have positive : w.toNat ≠ 0 := fun zero => some (UInt64.toNat_inj.1 zero)
  rw [UInt64.toNat_sub_of_le _ _ (UInt64.le_iff_toNat_le.2 (by simp; omega))]
  rfl

theorem toNat_sub_le_iff {a b : Word} : (a - b).toNat ≤ a.toNat ↔ b.toNat ≤ a.toNat := by
  have first := a.toNat_lt
  have second := b.toNat_lt
  rw [UInt64.toNat_sub]
  omega

/-! ## A push and the pop after it -/

theorem pop_of_push {w : Word} (pushed : push w m = .ok () m')
    (room : (m.register Register.stackCount).toNat + 1 < UInt64.size) :
    ∃ popped, pop m' = .ok w popped ∧
      popped.register Register.stackCount = m.register Register.stackCount := by
  obtain ⟨-, l, found, rfl⟩ := push_eq_ok_iff.1 pushed
  obtain ⟨n, rfl, -⟩ := Location.ofAddress?_eq_some_iff.1 found
  have some : m.register Register.stackCount + 1 ≠ 0 := by
    intro none
    have grown := toNat_add_one_iff.2 room
    rw [none] at grown
    cases grown
  have base : ((m.put (.memory n) w).setRegister Register.stackCount
      (m.register Register.stackCount + 1)).register Register.stackBase =
        m.register Register.stackBase :=
    register_setRegister_of_ne _ _ (by decide)
  refine ⟨_, pop_eq_ok_iff.2 ⟨?_, .memory n, ?_, ?_, rfl⟩, ?_⟩
  · rw [register_setRegister_same]
    exact some
  · rw [register_setRegister_same, base, UInt64.add_sub_cancel]
    exact found
  · exact contents_put_same m (.memory n) w
  · rw [register_setRegister_same, register_setRegister_same, UInt64.add_sub_cancel]

/-- A count that wraps around looks like an empty stack. -/
theorem pop_of_wrapped_push {w : Word} (pushed : push w m = .ok () m')
    (full : ¬ (m.register Register.stackCount).toNat + 1 < UInt64.size) :
    m'.register Register.stackCount = 0 ∧ pop m' = .error .stackUnderflow m' := by
  obtain ⟨-, l, -, rfl⟩ := push_eq_ok_iff.1 pushed
  have bound := (m.register Register.stackCount).toNat_lt
  have wrapped : m.register Register.stackCount + 1 = 0 := by
    rw [← UInt64.toNat_inj, UInt64.toNat_add]
    simp only [UInt64.size] at full
    simp only [UInt64.toNat_one, UInt64.toNat_zero]
    omega
  have none : ((m.put l w).setRegister Register.stackCount
      (m.register Register.stackCount + 1)).register Register.stackCount = 0 := by
    rw [register_setRegister_same, wrapped]
  refine ⟨none, ?_⟩
  simp only [pop, none, if_true]

/-! ## Where a pop reads -/

/-- The word that a pop gives is the contents of one word of memory, whatever this holds.  It is not
above the base exactly if there are at most so many words on the stack as lie down from the base. -/
theorem word_of_pop {w : Word} (popped : pop m = .ok w m') :
    ∃ n : Fin memorySize, m.contents (.memory n) = w ∧
      (∀ v, ∃ after, pop (m.put (.memory n) v) = .ok v after) ∧
      (n.val ≤ (m.register Register.stackBase).toNat ↔
        (m.register Register.stackCount).toNat ≤ (m.register Register.stackBase).toNat + 1) := by
  obtain ⟨some, l, found, word, -⟩ := pop_eq_ok_iff.1 popped
  obtain ⟨n, rfl, address⟩ := Location.ofAddress?_eq_some_iff.1 found
  refine ⟨n, word, ?_, ?_⟩
  · intro v
    exact ⟨_, pop_eq_ok_iff.2 ⟨some, .memory n, found, contents_put_same m _ v, rfl⟩⟩
  · rw [← address, toNat_sub_le_iff, toNat_sub_one some]
    omega

end Machine

open Machine in
/-- What the guards of the stack ensure for any words in its registers.  A push that succeeds adds
one to the count, and the pop after it gives the word back and restores the count, exactly if the
count does not wrap around.  A pop that succeeds reads a word not above the base exactly if the
count is at most the number of words down from the base. -/
theorem stack_guard_holds_without_wrapping {σ : Type} (m : Machine σ) :
    (∀ w pushed, push w m = .ok () pushed →
      (((pushed.register Register.stackCount).toNat =
          (m.register Register.stackCount).toNat + 1 ∧
        ∃ popped, pop pushed = .ok w popped ∧
          popped.register Register.stackCount = m.register Register.stackCount) ↔
        (m.register Register.stackCount).toNat + 1 < UInt64.size)) ∧
      ∀ w popped, pop m = .ok w popped → ∃ n : Fin memorySize,
        m.contents (.memory n) = w ∧
        (∀ v, ∃ after, pop (m.put (.memory n) v) = .ok v after) ∧
        (n.val ≤ (m.register Register.stackBase).toNat ↔
          (m.register Register.stackCount).toNat ≤
            (m.register Register.stackBase).toNat + 1) := by
  refine ⟨?_, fun w popped => word_of_pop⟩
  intro w pushed succeeded
  constructor
  · rintro ⟨-, popped, again, -⟩
    apply Decidable.byContradiction
    intro full
    rw [(pop_of_wrapped_push succeeded full).2] at again
    cases again
  · intro room
    refine ⟨?_, pop_of_push succeeded room⟩
    obtain ⟨-, l, -, rfl⟩ := push_eq_ok_iff.1 succeeded
    rw [register_setRegister_same]
    exact toNat_add_one_iff.2 room

def stackRegisters (base count : Word) : Machine Script :=
  ((Machine.new ⟨[]⟩).setRegister Register.stackBase base).setRegister Register.stackCount count

/-- With base and count at the greatest word, a push succeeds and leaves a stack that is empty.
With a base of 5 and that count, a pop reads the word at address 7. -/
theorem stack_guard_wraps_around :
    (∃ pushed, Machine.push 7 (stackRegisters 18446744073709551615 18446744073709551615) =
        .ok () pushed ∧ pushed.register Register.stackCount = 0 ∧
      Machine.pop pushed = .error .stackUnderflow pushed) ∧
    ∃ popped, Machine.pop ((stackRegisters 5 18446744073709551615).put (.memory 7) 9) =
      .ok 9 popped := by
  constructor
  · have pushed : Machine.push 7 (stackRegisters 18446744073709551615 18446744073709551615) =
        .ok () _ :=
      Machine.push_eq_ok_iff.2 ⟨by decide +kernel, .memory 0, by decide +kernel, rfl⟩
    exact ⟨_, pushed, Machine.pop_of_wrapped_push pushed (by decide +kernel)⟩
  · exact ⟨_, Machine.pop_eq_ok_iff.2
      ⟨by decide +kernel, .memory 7, by decide +kernel, by decide +kernel, rfl⟩⟩

end WordMachine
