import WordMachine.Proofs.Machine.Arithmetic

/-!
# Random words within bounds

A draw between two bounds is a draw below their distance, added to the lower bound.  As the source
stays below what it is asked for, the sum does not wrap around and lies between the bounds, however
large they are.  Two bounds of zero stand for no bounds; any other pair that encloses no word is
refused before anything is drawn.
-/

namespace WordMachine

namespace Word

variable {low high : Word}

theorem toNat_sub_of_lt (range : low < high) : low.toNat + (high - low).toNat = high.toNat := by
  have ordered := UInt64.lt_iff_toNat_lt.1 range
  rw [UInt64.toNat_sub_of_le high low (UInt64.le_of_lt range)]
  omega

theorem toNat_add_of_lt_sub {offset : Word} (range : low < high) (small : offset < high - low) :
    (low + offset).toNat = low.toNat + offset.toNat ∧ low + offset < high := by
  have distance := toNat_sub_of_lt range
  have below := UInt64.lt_iff_toNat_lt.1 small
  have bound := high.toNat_lt
  have sum : (low + offset).toNat = low.toNat + offset.toNat := by
    rw [UInt64.toNat_add]
    exact Nat.mod_eq_of_lt (by omega)
  refine ⟨sum, UInt64.lt_iff_toNat_lt.2 ?_⟩
  omega

end Word

/-- A source that keeps below what it is asked for gives a word below the distance of two bounds. -/
theorem RandomSource.below_sub_lt {σ : Type} [RandomSource σ] [LawfulRandomSource σ]
    {low high : Word} (range : low < high) (source : σ) :
    (below (high - low) source).1 < high - low := by
  refine LawfulRandomSource.below_lt _ source (UInt64.lt_iff_toNat_lt.2 ?_)
  have distance := Word.toNat_sub_of_lt range
  have ordered := UInt64.lt_iff_toNat_lt.1 range
  show 0 < (high - low).toNat
  omega

namespace Machine

variable {σ : Type} [RandomSource σ] {m m' : Machine σ} {i : Instruction} {low high : Word}

/-! ## Draws -/

/-- Draw a word from a lower bound on and below an upper one; any word if both bounds are zero. -/
def drawBetween (low high : Word) : Exec σ Word :=
  if low = 0 ∧ high = 0 then drawWord
  else if high ≤ low then throw .emptyRange
  else do
    let offset ← drawBelow (high - low)
    pure (low + offset)

theorem execute_rdrand_eq (i : Instruction) :
    execute .rdrand i = inspect (σ := σ) (·.sourceValues i) >>= fun bounds =>
      drawBetween bounds.1 bounds.2 >>= store i.a := by
  refine congrArg (bind (inspect (·.sourceValues i))) ?_
  funext ⟨low, high⟩
  unfold drawBetween
  dsimp only
  split
  · rfl
  · split
    · rfl
    · rfl

theorem drawBetween_of_unbounded (unbounded : low = 0 ∧ high = 0) :
    drawBetween low high m = .ok (RandomSource.word m.source).1
      { m with source := (RandomSource.word m.source).2 } := by
  rw [drawBetween, if_pos unbounded]
  rfl

theorem drawBetween_of_empty (empty : high ≤ low) (bounded : ¬ (low = 0 ∧ high = 0)) :
    drawBetween low high m = .error .emptyRange m := by
  rw [drawBetween, if_neg bounded, if_pos empty]
  rfl

theorem drawBetween_of_lt (range : low < high) :
    drawBetween low high m = .ok (low + (RandomSource.below (high - low) m.source).1)
      { m with source := (RandomSource.below (high - low) m.source).2 } := by
  have nonempty : ¬ high ≤ low := UInt64.not_le.2 range
  have bounded : ¬ (low = 0 ∧ high = 0) := by
    rintro ⟨rfl, rfl⟩
    exact nonempty (UInt64.le_refl 0)
  rw [drawBetween, if_neg bounded, if_neg nonempty]
  rfl

theorem drawBetween_eq_error_iff {fault : Fault} :
    drawBetween low high m = .error fault m' ↔
      (high ≤ low ∧ ¬ (low = 0 ∧ high = 0)) ∧ fault = .emptyRange ∧ m' = m := by
  constructor
  · intro refused
    have bounded : ¬ (low = 0 ∧ high = 0) := fun unbounded => by
      rw [drawBetween_of_unbounded unbounded] at refused
      cases refused
    have empty : high ≤ low := UInt64.not_lt.1 fun range => by
      rw [drawBetween_of_lt range] at refused
      cases refused
    rw [drawBetween_of_empty empty bounded] at refused
    cases refused
    exact ⟨⟨empty, bounded⟩, rfl, rfl⟩
  · rintro ⟨⟨empty, bounded⟩, rfl, rfl⟩
    exact drawBetween_of_empty empty bounded

theorem exists_drawBetween (m : Machine σ) (possible : low < high ∨ low = 0 ∧ high = 0) :
    ∃ w source, drawBetween low high m = .ok w { m with source } := by
  rcases possible with range | unbounded
  · exact ⟨_, _, drawBetween_of_lt range⟩
  · exact ⟨_, _, drawBetween_of_unbounded unbounded⟩

/-! ## Instructions -/

section Sources

variable (first : m.value i.b = .ok low) (second : m.value i.c = .ok high)

include first second

theorem execute_rdrand_of_sources :
    execute .rdrand i m = (drawBetween low high >>= store i.a) m := by
  rw [execute_rdrand_eq, inspect_bind_of_ok (sourceValues_eq_ok_iff.2 ⟨first, second⟩)]

theorem execute_emptyRange_iff :
    (∃ fault m', execute .rdrand i m = .error fault m' ∧ fault.category? = some .emptyRange) ↔
      high ≤ low ∧ ¬ (low = 0 ∧ high = 0) := by
  rw [execute_rdrand_of_sources first second]
  constructor
  · rintro ⟨fault, m', failed, category⟩
    rcases Exec.bind_eq_error_iff.1 failed with refused | ⟨w, after, -, refused⟩
    · exact (drawBetween_eq_error_iff.1 refused).1
    · exact absurd category ((ofAccess_of_store refused).category?_ne nofun nofun)
  · intro empty
    have refused : drawBetween low high m = .error .emptyRange m :=
      drawBetween_eq_error_iff.2 ⟨empty, rfl, rfl⟩
    exact ⟨.emptyRange, m, Exec.bind_eq_error_iff.2 (.inl refused), rfl⟩

/-- What a random instruction that succeeds has stored, and where.  The place does not depend on the
draw. -/
theorem execute_rdrand_stored (executed : execute .rdrand i m = .ok () m') :
    ∃ l, m.location? i.a = some l ∧
      (low < high ∧ m'.contents l = low + (RandomSource.below (high - low) m.source).1 ∨
        low = 0 ∧ high = 0) := by
  obtain ⟨low', high', w, source, values, drawn, stored⟩ := execute_rdrand_ok executed
  obtain ⟨first', second'⟩ := sourceValues_eq_ok_iff.1 values
  cases first.symm.trans first'
  cases second.symm.trans second'
  obtain ⟨l, found, rfl⟩ := store_eq_ok_iff.1 stored
  refine ⟨l, found, ?_⟩
  rw [contents_put_same]
  rcases drawn with ⟨least, greatest, -⟩ | ⟨range, offset, drawn, rfl⟩
  · exact .inr ⟨least, greatest⟩
  · rw [drawn]
    exact .inl ⟨UInt64.not_le.1 range, rfl⟩

theorem exists_execute_rdrand_iff :
    (∃ m', execute .rdrand i m = .ok () m') ↔
      (low < high ∨ low = 0 ∧ high = 0) ∧ ∃ l, m.location? i.a = some l := by
  constructor
  · rintro ⟨m', executed⟩
    obtain ⟨l, found, word⟩ := execute_rdrand_stored first second executed
    exact ⟨word.imp_left And.left, l, found⟩
  · rintro ⟨possible, l, found⟩
    obtain ⟨w, source, drawn⟩ := exists_drawBetween m possible
    rw [execute_rdrand_of_sources first second]
    exact ⟨_, Exec.bind_eq_ok_iff.2 ⟨w, _, drawn, store_eq_ok_iff.2 ⟨l, found, rfl⟩⟩⟩

end Sources

end Machine

open Machine in
/-- A random instruction keeps to its bounds, which are read when the pointer and the count of
instructions have moved on.  It reports an empty range exactly if the upper bound is not above the
lower one and not both are zero.  It succeeds if the bounds enclose a word or are both zero, and its
first operand designates a place.  Unless both are zero, that place then holds a word that is at
least the lower bound and below the upper one: the sum of the lower bound and what the source has
given, which does not wrap around. -/
theorem random_word_lies_between_bounds {σ : Type} [RandomSource σ] [LawfulRandomSource σ]
    {m : Machine σ} {i : Instruction} {low high : Word} (running : m.running = true)
    (fetched : m.fetch = .ok (.rdrand, i)) (first : m.advance.value i.b = .ok low)
    (second : m.advance.value i.c = .ok high) :
    ((∃ fault m', step m = .error fault m' ∧ fault.category? = some .emptyRange) ↔
        high ≤ low ∧ ¬ (low = 0 ∧ high = 0)) ∧
      ((∃ m', step m = .ok () m') ↔
        (low < high ∨ low = 0 ∧ high = 0) ∧ ∃ l, m.advance.location? i.a = some l) ∧
      ∀ m', step m = .ok () m' → ¬ (low = 0 ∧ high = 0) →
        ∃ l, m.advance.location? i.a = some l ∧ low ≤ m'.contents l ∧ m'.contents l < high ∧
          (m'.contents l).toNat =
            low.toNat + (RandomSource.below (high - low) m.source).1.toNat := by
  simp only [step_ok_iff_of_fetch running fetched, step_error_iff_of_fetch running fetched]
  refine ⟨?_, exists_execute_rdrand_iff first second, ?_⟩
  · rw [← execute_emptyRange_iff first second]
    constructor
    · rintro ⟨_, m', ⟨cause, failed, rfl⟩, category⟩
      exact ⟨cause, m', failed, category⟩
    · rintro ⟨cause, m', failed, category⟩
      exact ⟨_, m', ⟨cause, failed, rfl⟩, category⟩
  · intro m' executed bounded
    obtain ⟨l, found, ⟨range, word⟩ | unbounded⟩ := execute_rdrand_stored first second executed
    · have small := RandomSource.below_sub_lt range m.source
      obtain ⟨sum, below⟩ := Word.toNat_add_of_lt_sub range small
      have least : low ≤ low + (RandomSource.below (high - low) m.source).1 := by
        rw [UInt64.le_iff_toNat_le, sum]
        exact Nat.le_add_right _ _
      refine ⟨l, found, ?_⟩
      rw [word]
      exact ⟨least, below, sum⟩
    · exact absurd unbounded bounded

/-- Five words below the greatest, of which one is stored through the register that holds 63. -/
theorem random_word_below_greatest :
    let i : Instruction := .ofOperands .rdrand
      [⟨Mode.of .register true, 19⟩, .literal (Word.greatest - 5), .literal Word.greatest]
    let m := oneInstruction i 0
    m.running = true ∧ m.fetch = .ok (.rdrand, i) ∧
      m.advance.value i.b = .ok (Word.greatest - 5) ∧ m.advance.value i.c = .ok Word.greatest ∧
      ∃ m', Machine.step m = .ok () m' ∧ Word.greatest - 5 ≤ m'.memory.get 63 ∧
        m'.memory.get 63 < Word.greatest := by
  intro i m
  have fetched : m.fetch = .ok (.rdrand, i) := by decide +kernel
  have first : m.advance.value i.b = .ok (Word.greatest - 5) := by decide +kernel
  have second : m.advance.value i.c = .ok Word.greatest := by decide +kernel
  have place : m.advance.location? i.a = some (.memory 63) := by decide +kernel
  obtain ⟨-, succeeds, range⟩ := random_word_lies_between_bounds (m := m) rfl fetched first second
  obtain ⟨m', stepped⟩ := succeeds.2 ⟨.inl (by decide), _, place⟩
  obtain ⟨l, found, least, below, -⟩ := range m' stepped (by decide)
  cases place.symm.trans found
  exact ⟨rfl, fetched, first, second, m', stepped, least, below⟩

end WordMachine
