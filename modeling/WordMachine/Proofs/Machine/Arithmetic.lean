import Mathlib.Algebra.Group.Nat.Defs
import Mathlib.Algebra.Ring.Int.Defs
import WordMachine.Proofs.Machine.Effects
import WordMachine.Proofs.Machine.Partial

/-!
# What data instructions compute

Words are numbers modulo `2 ^ 64`.  Each opcode that computes has a formula in whole numbers, and
the word that its instruction stores stands for the number which the formula gives for the
operands.  The operands are read when the pointer and the count of instructions have moved on.
-/

namespace WordMachine

/-! ## Words as numbers -/

namespace Word

/-- A word stands for a number, of which it keeps the residue modulo `2 ^ 64`. -/
def Represents (w : Word) (n : Int) : Prop :=
  (w.toNat : Int) = n % 2 ^ 64

instance (w : Word) (n : Int) : Decidable (w.Represents n) :=
  inferInstanceAs (Decidable ((w.toNat : Int) = n % 2 ^ 64))

theorem Represents.unique {v w : Word} {n : Int} (first : v.Represents n)
    (second : w.Represents n) : v = w := by
  unfold Represents at first second
  exact UInt64.toNat_inj.1 (by omega)

theorem exists_represents (n : Int) : ∃ w : Word, w.Represents n := by
  refine ⟨.ofNat (n % 2 ^ 64).toNat, ?_⟩
  unfold Represents
  rw [UInt64.toNat_ofNat']
  omega

theorem represents_of_toNat {w : Word} {n : Nat} (h : w.toNat = n % 2 ^ 64) :
    w.Represents n := by
  unfold Represents
  omega

theorem represents_of_toNat_eq {w : Word} {n : Nat} (h : w.toNat = n) : w.Represents n := by
  subst h
  exact represents_of_toNat (Nat.mod_eq_of_lt w.toNat_lt).symm

theorem represents_add (b c : Word) : (b + c).Represents (b.toNat + c.toNat) :=
  represents_of_toNat (UInt64.toNat_add b c)

theorem represents_sub (b c : Word) : (b - c).Represents (b.toNat - c.toNat) := by
  have bound := c.toNat_lt
  unfold Represents
  rw [UInt64.toNat_sub]
  omega

theorem represents_mul (b c : Word) : (b * c).Represents (b.toNat * c.toNat) :=
  represents_of_toNat (UInt64.toNat_mul b c)

theorem represents_div (b c : Word) : (b / c).Represents (b.toNat / c.toNat) :=
  represents_of_toNat_eq (UInt64.toNat_div b c)

theorem represents_mod (b c : Word) : (b % c).Represents (b.toNat % c.toNat) :=
  represents_of_toNat_eq (UInt64.toNat_mod b c)

theorem represents_not (a : Word) : (~~~a).Represents (2 ^ 64 - 1 - a.toNat) := by
  have bound := a.toNat_lt
  unfold Represents
  rw [UInt64.toNat_not, UInt64.size]
  omega

theorem represents_shiftLeft (b c : Word) :
    (shiftLeft b c).Represents (b.toNat * 2 ^ c.toNat) := by
  suffices residue : (shiftLeft b c).toNat = b.toNat * 2 ^ c.toNat % 2 ^ 64 by
    simpa using represents_of_toNat residue
  unfold shiftLeft
  split
  · rename_i small
    have small : c.toNat < 64 := UInt64.lt_iff_toNat_lt.1 small
    rw [UInt64.toNat_shiftLeft, Nat.mod_eq_of_lt small, Nat.shiftLeft_eq]
  · rename_i large
    have large : 64 ≤ c.toNat :=
      Nat.le_of_not_lt fun small => large (UInt64.lt_iff_toNat_lt.2 small)
    -- All bits have left the word, as the product is a multiple of what it wraps at.
    have multiple : 2 ^ 64 ∣ b.toNat * 2 ^ c.toNat :=
      Nat.dvd_mul_left_of_dvd (Nat.pow_dvd_pow 2 large) _
    rw [Nat.mod_eq_zero_of_dvd multiple]
    rfl

theorem represents_shiftRight (b c : Word) :
    (shiftRight b c).Represents (b.toNat / 2 ^ c.toNat) := by
  suffices quotient : (shiftRight b c).toNat = b.toNat / 2 ^ c.toNat by
    simpa using represents_of_toNat_eq quotient
  unfold shiftRight
  split
  · rename_i small
    have small : c.toNat < 64 := UInt64.lt_iff_toNat_lt.1 small
    rw [UInt64.toNat_shiftRight, Nat.mod_eq_of_lt small, Nat.shiftRight_eq_div_pow]
  · rename_i large
    have large : 64 ≤ c.toNat :=
      Nat.le_of_not_lt fun small => large (UInt64.lt_iff_toNat_lt.2 small)
    have bound : b.toNat < 2 ^ c.toNat :=
      Nat.lt_of_lt_of_le b.toNat_lt (Nat.pow_le_pow_right (by decide) large)
    rw [Nat.div_eq_of_lt bound]
    rfl

theorem represents_order (b c : Word) :
    (order b c).Represents
      (if c.toNat < b.toNat then -1 else if c.toNat = b.toNat then 0 else 1) := by
  unfold order
  simp only [UInt64.lt_iff_toNat_lt]
  split
  · decide
  · rename_i below
    split
    · rename_i above
      rw [if_neg (Nat.ne_of_gt above)]
      decide
    · rename_i above
      rw [if_pos (Nat.le_antisymm (Nat.le_of_not_lt above) (Nat.le_of_not_lt below))]
      decide

end Word

/-! ## Formulas -/

/-- What an opcode computes, as a number, and from which of its operands. -/
inductive Formula where
  /-- From both sources. -/
  | sources (f : Nat → Nat → Int)
  /-- From both sources, of which the second is not zero. -/
  | division (f : Nat → Nat → Int)
  | source (f : Nat → Int)
  /-- From what the destination holds before. -/
  | destination (f : Nat → Int)

def Opcode.formula? : Opcode → Option Formula
  | add => some (.sources fun b c => b + c)
  | sub => some (.sources fun b c => b - c)
  | mul => some (.sources fun b c => b * c)
  | div => some (.division fun b c => b / c)
  | mod => some (.division fun b c => b % c)
  | shl => some (.sources fun b c => b * 2 ^ c)
  | shr => some (.sources fun b c => b / 2 ^ c)
  | cmp => some (.sources fun b c => if c < b then -1 else if c = b then 0 else 1)
  | inc => some (.destination fun a => a + 1)
  | dec => some (.destination fun a => a - 1)
  | not => some (.destination fun a => 2 ^ 64 - 1 - a)
  | mov => some (.source fun b => b)
  | nop | halt | push | pop | call | ret | jmp | jeq | jne | jnz | rdrand => none

theorem Opcode.cases_of_stores {op : Opcode} (stores : op.stores = true) :
    op = .pop ∨ op = .rdrand ∨ op.formula?.isSome = true := by
  revert stores
  cases op <;> decide

namespace Machine

variable {σ : Type} {m m' : Machine σ} {i : Instruction} {op : Opcode}

/-- The number that a formula gives for the operands of an instruction. -/
inductive Yields (m : Machine σ) (i : Instruction) : Formula → Int → Prop
  | sources {f : Nat → Nat → Int} {b c : Word} (first : m.value i.b = .ok b)
      (second : m.value i.c = .ok c) : Yields m i (.sources f) (f b.toNat c.toNat)
  | division {f : Nat → Nat → Int} {b c : Word} (first : m.value i.b = .ok b)
      (second : m.value i.c = .ok c) (divisor : c ≠ 0) :
      Yields m i (.division f) (f b.toNat c.toNat)
  | source {f : Nat → Int} {b : Word} (value : m.value i.b = .ok b) :
      Yields m i (.source f) (f b.toNat)
  | destination {f : Nat → Int} {a : Word} (value : m.value i.a = .ok a) :
      Yields m i (.destination f) (f a.toNat)

/-- The result of a formula has been stored where the first operand designates. -/
def Computed (m : Machine σ) (i : Instruction) (formula : Formula) (m' : Machine σ) : Prop :=
  ∃ n w l, Yields m i formula n ∧ w.Represents n ∧ m.location? i.a = some l ∧ m' = m.put l w

theorem inspect_store_eq_ok_iff {α : Type} (read : Machine σ → Except Fault α) (f : α → Word)
    (g : α → Int) {formula : Formula}
    (reads : ∀ n, Yields m i formula n ↔ ∃ v, read m = .ok v ∧ n = g v)
    (agrees : ∀ v, (f v).Represents (g v)) :
    (inspect read >>= fun v => store i.a (f v)) m = .ok () m' ↔ Computed m i formula m' := by
  rw [inspect_bind_eq_ok_iff]
  constructor
  · rintro ⟨v, value, stored⟩
    obtain ⟨l, found, rfl⟩ := store_eq_ok_iff.1 stored
    exact ⟨g v, f v, l, (reads _).2 ⟨v, value, rfl⟩, agrees v, found, rfl⟩
  · rintro ⟨n, w, l, yields, represents, found, rfl⟩
    obtain ⟨v, value, rfl⟩ := (reads n).1 yields
    rw [represents.unique (agrees v)]
    exact ⟨v, value, store_eq_ok_iff.2 ⟨l, found, rfl⟩⟩

theorem binary_eq_ok_iff {f : Word → Word → Word} {g : Nat → Nat → Int}
    (agrees : ∀ b c, (f b c).Represents (g b.toNat c.toNat)) :
    binary i f m = .ok () m' ↔ Computed m i (.sources g) m' := by
  refine inspect_store_eq_ok_iff (·.sourceValues i) (fun v => f v.1 v.2)
    (fun v => g v.1.toNat v.2.toNat) ?_ fun v => agrees v.1 v.2
  intro n
  constructor
  · intro yields
    cases yields with
    | sources first second => exact ⟨_, sourceValues_eq_ok_iff.2 ⟨first, second⟩, rfl⟩
  · rintro ⟨⟨b, c⟩, values, rfl⟩
    obtain ⟨first, second⟩ := sourceValues_eq_ok_iff.1 values
    exact .sources first second

theorem unary_eq_ok_iff {f : Word → Word} {g : Nat → Int}
    (agrees : ∀ a, (f a).Represents (g a.toNat)) :
    unary i f m = .ok () m' ↔ Computed m i (.destination g) m' := by
  refine inspect_store_eq_ok_iff (·.value i.a) f (fun a => g a.toNat) ?_ agrees
  intro n
  constructor
  · intro yields
    cases yields with
    | destination value => exact ⟨_, value, rfl⟩
  · rintro ⟨a, value, rfl⟩
    exact .destination value

/-! ## Faults of reading and storing -/

/-- A fault of reading or storing an operand, which is about its address or about what it is. -/
def OfAccess (fault : Fault) : Prop :=
  fault.category? = some .badAddress ∨ fault.category? = some .literalDestination ∨
    fault.category? = none

theorem ofAccess_of_readWord {address : Word} {fault : Fault}
    (failed : m.readWord address = .error fault) : OfAccess fault := by
  unfold readWord at failed
  split at failed
  · cases failed
  · cases failed
    exact .inl rfl

theorem ofAccess_of_value {x : Operand} {fault : Fault} (failed : m.value x = .error fault) :
    OfAccess fault := by
  unfold value at failed
  split at failed
  · rename_i refused
    cases failed
    unfold direct at refused
    split at refused
    · cases refused
    · exact ofAccess_of_readWord refused
    · split at refused
      · cases refused
      · cases refused
        exact .inr (.inr rfl)
    · cases refused
      exact .inr (.inr rfl)
  · split at failed
    · exact ofAccess_of_readWord failed
    · cases failed

theorem ofAccess_of_sourceValues {fault : Fault} (failed : m.sourceValues i = .error fault) :
    OfAccess fault := by
  unfold sourceValues at failed
  split at failed
  · rename_i refused
    cases failed
    -- The fault also says which source it is about, and that does not change its category.
    have access := ofAccess_of_value refused
    exact access
  · split at failed
    · rename_i refused
      cases failed
      have access := ofAccess_of_value refused
      exact access
    · cases failed

theorem ofAccess_of_writeWord {address w : Word} {fault : Fault}
    (failed : writeWord address w m = .error fault m') : OfAccess fault := by
  unfold writeWord at failed
  split at failed
  · cases failed
  · cases failed
    exact .inl rfl

theorem ofAccess_of_store {x : Operand} {w : Word} {fault : Fault}
    (failed : store x w m = .error fault m') : OfAccess fault := by
  unfold store at failed
  split at failed
  · split at failed
    · exact ofAccess_of_writeWord failed
    · cases failed
      exact .inr (.inl rfl)
  · split at failed
    · exact ofAccess_of_writeWord failed
    · cases failed
      exact .inl rfl
  · split at failed
    · split at failed
      · exact ofAccess_of_writeWord failed
      · cases failed
    · cases failed
      exact .inr (.inr rfl)
  · cases failed
    exact .inr (.inr rfl)

theorem OfAccess.category?_ne {fault : Fault} {category : Fault.Category} (access : OfAccess fault)
    (address : category ≠ .badAddress) (literal : category ≠ .literalDestination) :
    fault.category? ≠ some category := by
  rcases access with same | same | same <;> rw [same]
  · simpa using address.symm
  · simpa using literal.symm
  · exact nofun

/-! ## Divisions -/

theorem dividing_by_zero_iff {k : Word → Word → Exec σ Unit}
    (access : ∀ b c fault m', k b c m = .error fault m' → OfAccess fault) :
    (∃ fault m', dividing i k m = .error fault m' ∧ fault.category? = some .divisionByZero) ↔
      (∃ b, m.value i.b = .ok b) ∧ m.value i.c = .ok 0 := by
  unfold dividing
  constructor
  · rintro ⟨fault, m', failed, division⟩
    rcases inspect_bind_eq_error_iff.1 failed with ⟨refused, -⟩ | ⟨⟨b, c⟩, values, rest⟩
    · exact absurd division ((ofAccess_of_sourceValues refused).category?_ne nofun nofun)
    · split at rest
      · rename_i zero
        obtain ⟨first, second⟩ := sourceValues_eq_ok_iff.1 values
        exact ⟨⟨b, first⟩, zero ▸ second⟩
      · exact absurd division ((access b c fault m' rest).category?_ne nofun nofun)
  · rintro ⟨⟨b, first⟩, second⟩
    refine ⟨.divisionByZero, m, inspect_bind_eq_error_iff.2 (.inr ⟨(b, 0), ?_, rfl⟩), rfl⟩
    exact sourceValues_eq_ok_iff.2 ⟨first, second⟩

variable [RandomSource σ]

theorem execute_mod_eq_ok_iff :
    execute .mod i m = .ok () m' ↔ Computed m i (.division fun b c => b % c) m' := by
  rw [execute_mod_eq, dividing_eq_ok_iff]
  constructor
  · rintro ⟨b, c, first, second, divisor, stored⟩
    obtain ⟨l, found, rfl⟩ := store_eq_ok_iff.1 stored
    exact ⟨_, b % c, l, .division first second divisor, Word.represents_mod b c, found, rfl⟩
  · rintro ⟨n, w, l, yields, represents, found, rfl⟩
    cases yields with
    | @division f b c first second divisor =>
        rw [represents.unique (Word.represents_mod b c)]
        exact ⟨b, c, first, second, divisor, store_eq_ok_iff.2 ⟨l, found, rfl⟩⟩

theorem execute_mov_eq_ok_iff :
    execute .mov i m = .ok () m' ↔ Computed m i (.source fun b => b) m' := by
  refine inspect_store_eq_ok_iff (·.value i.b) id (fun b => b.toNat) ?_
    fun b => Word.represents_of_toNat_eq rfl
  intro n
  constructor
  · intro yields
    cases yields with
    | source value => exact ⟨_, value, rfl⟩
  · rintro ⟨b, value, rfl⟩
    exact .source value

/-! ## Instructions -/

/-- Beside a division, which also keeps the remainder, an instruction with a formula computes it. -/
theorem execute_eq_ok_iff_computed {formula : Formula} (rule : op.formula? = some formula)
    (other : op ≠ .div) : execute op i m = .ok () m' ↔ Computed m i formula m' := by
  cases op with
  | add => cases rule; exact binary_eq_ok_iff Word.represents_add
  | sub => cases rule; exact binary_eq_ok_iff Word.represents_sub
  | mul => cases rule; exact binary_eq_ok_iff Word.represents_mul
  | shl => cases rule; exact binary_eq_ok_iff Word.represents_shiftLeft
  | shr => cases rule; exact binary_eq_ok_iff Word.represents_shiftRight
  | cmp => cases rule; exact binary_eq_ok_iff Word.represents_order
  | inc => cases rule; exact unary_eq_ok_iff fun a => Word.represents_add a 1
  | dec => cases rule; exact unary_eq_ok_iff fun a => Word.represents_sub a 1
  | not => cases rule; exact unary_eq_ok_iff Word.represents_not
  | mod => cases rule; exact execute_mod_eq_ok_iff
  | mov => cases rule; exact execute_mov_eq_ok_iff
  | div => exact absurd rfl other
  | nop | halt | push | pop | call | ret | jmp | jeq | jne | jnz | rdrand => cases rule

theorem exists_execute_iff {formula : Formula} (rule : op.formula? = some formula) :
    (∃ m', execute op i m = .ok () m') ↔
      (∃ n, Yields m i formula n) ∧ ∃ l, m.location? i.a = some l := by
  by_cases division : op = .div
  · subst division
    cases rule
    simp only [execute_div_eq_ok_iff]
    constructor
    · rintro ⟨_, b, c, l, first, second, divisor, found, -⟩
      exact ⟨⟨_, .division first second divisor⟩, l, found⟩
    · rintro ⟨⟨n, yields⟩, l, found⟩
      cases yields with
      | @division f b c first second divisor =>
          exact ⟨_, b, c, l, first, second, divisor, found, rfl⟩
  · simp only [execute_eq_ok_iff_computed rule division]
    constructor
    · rintro ⟨_, n, w, l, yields, -, found, -⟩
      exact ⟨⟨n, yields⟩, l, found⟩
    · rintro ⟨⟨n, yields⟩, l, found⟩
      obtain ⟨w, represents⟩ := Word.exists_represents n
      exact ⟨_, n, w, l, yields, represents, found, rfl⟩

/-- The destination receives the number of the formula, unless it is where the remainder goes, which
comes last. -/
theorem represents_of_execute {formula : Formula} (rule : op.formula? = some formula)
    (executed : execute op i m = .ok () m') :
    ∃ n l, Yields m i formula n ∧ m.location? i.a = some l ∧
      (¬ (op = .div ∧ l = .register Register.remainder) → (m'.contents l).Represents n) := by
  by_cases division : op = .div
  · subst division
    cases rule
    obtain ⟨b, c, l, first, second, divisor, found, rfl⟩ := execute_div_eq_ok_iff.1 executed
    refine ⟨_, l, .division first second divisor, found, ?_⟩
    intro apart
    have other : Location.register Register.remainder ≠ l := fun same => apart ⟨rfl, same.symm⟩
    rw [← put_register, contents_put_of_ne _ _ other, contents_put_same]
    exact Word.represents_div b c
  · obtain ⟨n, w, l, yields, represents, found, rfl⟩ :=
      (execute_eq_ok_iff_computed rule division).1 executed
    refine ⟨n, l, yields, found, ?_⟩
    rw [contents_put_same]
    exact fun _ => represents

theorem remainder_of_execute {n : Int} (yields : Yields m i (.division fun b c => b / c) n)
    (executed : execute .div i m = .ok () m') :
    ∃ b c, m.value i.b = .ok b ∧ m.value i.c = .ok c ∧
      (b.toNat : Int) = n * c.toNat + (m'.register Register.remainder).toNat ∧
      (m'.register Register.remainder).toNat < c.toNat := by
  cases yields with
  | @division f b c first second divisor =>
      obtain ⟨b', c', l, first', second', -, -, rfl⟩ := execute_div_eq_ok_iff.1 executed
      cases first.symm.trans first'
      cases second.symm.trans second'
      have positive : 0 < c.toNat :=
        Nat.pos_of_ne_zero fun zero => divisor (UInt64.toNat_inj.1 zero)
      refine ⟨b, c, first, second, ?_, ?_⟩
      · rw [register_setRegister_same, UInt64.toNat_mod]
        dsimp only
        exact_mod_cast (Nat.div_add_mod' b.toNat c.toNat).symm
      · rw [register_setRegister_same, UInt64.toNat_mod]
        exact Nat.mod_lt _ positive

theorem execute_division_by_zero_iff (division : op = .div ∨ op = .mod) :
    (∃ fault m', execute op i m = .error fault m' ∧
        fault.category? = some .divisionByZero) ↔
      (∃ b, m.value i.b = .ok b) ∧ m.value i.c = .ok 0 := by
  rcases division with rfl | rfl
  · rw [execute_div_eq]
    refine dividing_by_zero_iff fun b c fault m' failed => ?_
    rcases Exec.bind_eq_error_iff.1 failed with refused | ⟨_, _, _, refused⟩
    · exact ofAccess_of_store refused
    · cases refused
  · rw [execute_mod_eq]
    exact dividing_by_zero_iff fun b c fault m' => ofAccess_of_store

end Machine

open Machine in
/-- A data instruction computes its formula.  It succeeds if the formula gives a number for its
operands and there is a place for the result, which then holds that number modulo `2 ^ 64`.  A
division also leaves the remainder, and if that is where the quotient should go, only the remainder.
Division by zero is reported exactly if both sources can be read and the second is zero. -/
theorem data_instruction_computes_formula {σ : Type} [RandomSource σ] {m : Machine σ} {op : Opcode}
    {i : Instruction} {formula : Formula} (running : m.running = true)
    (fetched : m.fetch = .ok (op, i)) (rule : op.formula? = some formula) :
    ((∃ m', step m = .ok () m') ↔
        (∃ n, Yields m.advance i formula n) ∧ ∃ l, m.advance.location? i.a = some l) ∧
      (∀ m', step m = .ok () m' → ∃ n l, Yields m.advance i formula n ∧
        m.advance.location? i.a = some l ∧
        (¬ (op = .div ∧ l = .register Register.remainder) → (m'.contents l).Represents n) ∧
        (op = .div → ∃ b c, m.advance.value i.b = .ok b ∧ m.advance.value i.c = .ok c ∧
          (b.toNat : Int) = n * c.toNat + (m'.register Register.remainder).toNat ∧
          (m'.register Register.remainder).toNat < c.toNat)) ∧
      (op = .div ∨ op = .mod →
        ((∃ fault m', step m = .error fault m' ∧ fault.category? = some .divisionByZero) ↔
          (∃ b, m.advance.value i.b = .ok b) ∧ m.advance.value i.c = .ok 0)) := by
  simp only [step_ok_iff_of_fetch running fetched, step_error_iff_of_fetch running fetched]
  refine ⟨exists_execute_iff rule, ?_, ?_⟩
  · intro m' executed
    obtain ⟨n, l, yields, found, represents⟩ := represents_of_execute rule executed
    refine ⟨n, l, yields, found, represents, ?_⟩
    rintro rfl
    cases rule
    exact remainder_of_execute yields executed
  · intro division
    rw [← execute_division_by_zero_iff division]
    constructor
    · rintro ⟨_, m', ⟨cause, failed, rfl⟩, category⟩
      exact ⟨cause, m', failed, category⟩
    · rintro ⟨cause, m', failed, category⟩
      exact ⟨_, m', ⟨cause, failed, rfl⟩, category⟩

theorem division_into_remainder_loses_quotient :
    let i : Instruction := .ofOperands .div [⟨Mode.of .register false, 20⟩, .literal 17, .literal 5]
    let m := oneInstruction i 0
    m.running = true ∧ m.fetch = .ok (.div, i) ∧
      Opcode.div.formula? = some (.division fun b c => b / c) ∧
      ∃ m', Machine.step m = .ok () m' ∧ m'.register Register.remainder = 2 := by
  intro i m
  have fetched : m.fetch = .ok (.div, i) := by decide +kernel
  obtain ⟨succeeds, results, -⟩ := data_instruction_computes_formula (m := m) rfl fetched rfl
  have first : m.advance.value i.b = .ok 17 := by decide +kernel
  have second : m.advance.value i.c = .ok 5 := by decide +kernel
  obtain ⟨m', stepped⟩ := succeeds.2
    ⟨⟨_, .division first second (by decide)⟩, .register Register.remainder, by decide +kernel⟩
  obtain ⟨n, l, yields, -, -, division⟩ := results m' stepped
  obtain ⟨b, c, first', second', whole, small⟩ := division rfl
  cases first.symm.trans first'
  cases second.symm.trans second'
  refine ⟨rfl, fetched, rfl, m', stepped, UInt64.toNat_inj.1 ?_⟩
  simp only [UInt64.reduceToNat] at whole small ⊢
  omega

end WordMachine
