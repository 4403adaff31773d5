import Mathlib.Logic.ExistsUnique
import WordMachine.Proofs.Machine.Location

/-!
# Reading and storing through one operand

Reading and storing find their way to a location each for itself.  They agree on it: an operand that
can be read and is not a literal standing for itself can be stored in, what is stored there is read
again, and storing what has been read changes nothing.  The one exception is an indirect operand
that goes through a cell holding the address of that cell.  Storing there overwrites the pointer.
-/

namespace WordMachine

/-- A literal that stands for itself, which is no place for a word. -/
def Operand.PlainLiteral (x : Operand) : Prop :=
  x.mode.kind? = some .literal ∧ x.mode.isIndirect = false

namespace Machine

variable {σ : Type} {m m' : Machine σ} {x : Operand}

theorem location_eq_of_put (m : Machine σ) {l k : Location}
    (same : ∀ w, m.put l w = m.put k w) : l = k := by
  apply Decidable.byContradiction
  intro other
  -- A word that the place does not hold yet shows where it has been put.
  have word : (m.put l (m.contents l + 1)).contents l = m.contents l + 1 := contents_put_same ..
  rw [same, contents_put_of_ne m _ (Ne.symm other)] at word
  simp at word

/-! ## Where reading and storing go -/

theorem location?_of_plainLiteral (plain : x.PlainLiteral) : m.location? x = none := by
  simp [location?, plain.1, plain.2]

theorem readWord_of_outside {address : Word} (outside : Location.ofAddress? address = none) :
    m.readWord address = .error (.badRead address) := by
  unfold Location.ofAddress? at outside
  unfold readWord
  split at outside
  · cases outside
  · rename_i beyond
    rw [dif_neg beyond]

theorem value_eq_ok_iff (place : ¬ x.PlainLiteral) {w : Word} :
    m.value x = .ok w ↔ ∃ l, m.location? x = some l ∧ m.contents l = w := by
  unfold value direct location?
  cases kind : x.mode.kind? with
  | none => simp
  | some kind' =>
      cases kind' with
      | literal =>
          cases indirect : x.mode.isIndirect with
          | true => simpa using readWord_eq_ok_iff
          | false => exact absurd ⟨kind, indirect⟩ place
      | memory =>
          cases found : Location.ofAddress? x.value with
          | none => simp [readWord_of_outside found]
          | some l =>
              simp only [readWord_eq_ok_iff.2 ⟨l, found, rfl⟩, Option.bind_some]
              cases x.mode.isIndirect with
              | true => exact readWord_eq_ok_iff
              | false => simp
      | register =>
          cases Register.ofWord? x.value with
          | none => simp
          | some r =>
              cases x.mode.isIndirect with
              | true => simpa using readWord_eq_ok_iff
              | false => simp [contents]

theorem exists_store_iff (v : Word) :
    (∃ m', store x v m = .ok () m') ↔ (∃ w, m.value x = .ok w) ∧ ¬ x.PlainLiteral := by
  simp only [store_eq_ok_iff]
  constructor
  · rintro ⟨_, l, found, -⟩
    have place : ¬ x.PlainLiteral := by
      intro plain
      rw [location?_of_plainLiteral plain] at found
      cases found
    exact ⟨⟨_, (value_eq_ok_iff place).2 ⟨l, found, rfl⟩⟩, place⟩
  · rintro ⟨⟨w, value⟩, place⟩
    obtain ⟨l, found, -⟩ := (value_eq_ok_iff place).1 value
    exact ⟨_, l, found, rfl⟩

/-! ## Reading what has been stored -/

/-- An indirect memory operand through a cell that holds the address of that cell. -/
structure SelfPointing (m : Machine σ) (x : Operand) : Prop where
  kind : x.mode.kind? = some .memory
  indirect : x.mode.isIndirect = true
  own : m.readWord x.value = .ok x.value

/-- Storing does not move the location that an operand designates, unless it overwrites the pointer
to it. -/
theorem location?_put {l : Location} (found : m.location? x = some l)
    (other : ¬ m.SelfPointing x) (v : Word) : (m.put l v).location? x = some l := by
  unfold location? at found ⊢
  cases kind : x.mode.kind? with
  | none => simp [kind] at found
  | some kind' =>
      simp only [kind] at found
      cases kind' with
      | literal => exact found
      | memory =>
          obtain ⟨cell, at_cell, found⟩ := Option.bind_eq_some_iff.1 found
          simp only [at_cell, Option.bind_some]
          cases indirect : x.mode.isIndirect with
          | false => simpa [indirect] using found
          | true =>
              simp only [indirect, if_true] at found ⊢
              -- The pointer is overwritten only if it is what it points to.
              have apart : l ≠ cell := by
                rintro rfl
                have own := Location.ofAddress?_inj found at_cell
                exact other ⟨kind, indirect, readWord_eq_ok_iff.2 ⟨l, at_cell, own⟩⟩
              rw [contents_put_of_ne m v apart]
              exact found
      | register =>
          obtain ⟨r, named, found⟩ := Option.bind_eq_some_iff.1 found
          simp only [named, Option.bind_some]
          cases indirect : x.mode.isIndirect with
          | false => simpa [indirect] using found
          | true =>
              simp only [indirect, if_true] at found ⊢
              -- What is stored in goes to memory, so the register with the address stays.
              obtain ⟨n, rfl, -⟩ := Location.ofAddress?_eq_some_iff.1 found
              exact found

theorem value_of_store {v : Word} (stored : store x v m = .ok () m')
    (other : ¬ m.SelfPointing x) : m'.value x = .ok v := by
  have place := ((exists_store_iff v).1 ⟨m', stored⟩).2
  obtain ⟨l, found, rfl⟩ := store_eq_ok_iff.1 stored
  exact (value_eq_ok_iff place).2 ⟨l, location?_put found other v, contents_put_same m l v⟩

theorem SelfPointing.exists_cell (own : m.SelfPointing x) :
    ∃ cell, Location.ofAddress? x.value = some cell ∧ m.location? x = some cell := by
  obtain ⟨cell, at_cell, address⟩ := readWord_eq_ok_iff.1 own.own
  exact ⟨cell, at_cell, by simp [location?, own.kind, own.indirect, at_cell, address]⟩

theorem SelfPointing.value_of_store (own : m.SelfPointing x) {v : Word}
    (stored : store x v m = .ok () m') : m'.value x = m'.readWord v := by
  obtain ⟨l, found, rfl⟩ := store_eq_ok_iff.1 stored
  obtain ⟨cell, at_cell, designated⟩ := own.exists_cell
  cases found.symm.trans designated
  have pointer : (m.put l v).readWord x.value = .ok v :=
    readWord_eq_ok_iff.2 ⟨l, at_cell, contents_put_same m l v⟩
  simp [value, direct, own.kind, own.indirect, pointer]

theorem SelfPointing.loses_word (own : m.SelfPointing x) :
    ∃ v m', store x v m = .ok () m' ∧ m'.value x ≠ .ok v := by
  obtain ⟨cell, -, found⟩ := own.exists_cell
  have stored : store x Word.greatest m = .ok () (m.put cell Word.greatest) :=
    store_eq_ok_iff.2 ⟨cell, found, rfl⟩
  have outside : Location.ofAddress? Word.greatest = none := by decide
  refine ⟨Word.greatest, _, stored, ?_⟩
  rw [own.value_of_store stored, readWord_of_outside outside]
  exact nofun

end Machine

open Machine in
/-- Reading and storing through an operand obey the laws of a store.  A store succeeds where a read
does, unless the operand is a plain literal.  It writes one location, which is the one that is read,
and nothing else; to store what has been read changes nothing.  After a store the operand reads as
the word stored, except through a cell that holds its own address: there the word stored is the
address to read from. -/
theorem operand_obeys_store_laws {σ : Type} (m : Machine σ) (x : Operand) :
    (∀ v, (∃ m', store x v m = .ok () m') ↔ (∃ w, m.value x = .ok w) ∧ ¬ x.PlainLiteral) ∧
      (∀ v m', store x v m = .ok () m' →
        ∃! l, (∀ w, store x w m = .ok () (m.put l w)) ∧ m.value x = .ok (m.contents l) ∧
          m'.contents l = v ∧ (∀ k, k ≠ l → m'.contents k = m.contents k) ∧
          m'.running = m.running ∧ m'.source = m.source) ∧
      (∀ w, m.value x = .ok w → ¬ x.PlainLiteral → store x w m = .ok () m) ∧
      (∀ v m', store x v m = .ok () m' →
        (¬ m.SelfPointing x → m'.value x = .ok v) ∧
          (m.SelfPointing x → m'.value x = m'.readWord v)) ∧
      ((∀ v m', store x v m = .ok () m' → m'.value x = .ok v) ↔ ¬ m.SelfPointing x) := by
  refine ⟨exists_store_iff, ?_, ?_, ?_, ?_⟩
  · intro v m' stored
    have place := ((exists_store_iff v).1 ⟨m', stored⟩).2
    obtain ⟨l, found, rfl⟩ := store_eq_ok_iff.1 stored
    have writes (w : Word) : store x w m = .ok () (m.put l w) := store_eq_ok_iff.2 ⟨l, found, rfl⟩
    refine ⟨l, ⟨writes, (value_eq_ok_iff place).2 ⟨l, found, rfl⟩, contents_put_same m l v,
      fun k other => contents_put_of_ne m v other.symm, running_put m l v, source_put m l v⟩, ?_⟩
    rintro k ⟨also, -⟩
    refine location_eq_of_put m fun w => ?_
    exact (EStateM.Result.ok.inj ((also w).symm.trans (writes w))).2
  · intro w value place
    obtain ⟨l, found, rfl⟩ := (value_eq_ok_iff place).1 value
    exact store_eq_ok_iff.2 ⟨l, found, (put_contents m l).symm⟩
  · exact fun v m' stored => ⟨value_of_store stored, fun own => own.value_of_store stored⟩
  · constructor
    · intro always own
      obtain ⟨v, m', stored, lost⟩ := own.loses_word
      exact lost (always v m' stored)
    · exact fun other v m' stored => value_of_store stored other

/-- Through a cell that holds its own address 9, a store of 3 leaves a pointer to the cell 3, and
what that holds is read. -/
theorem store_overwrites_own_pointer :
    let m := ((Machine.new (⟨[]⟩ : Script)).put (.memory 9) 9).put (.memory 3) 8
    let x : Operand := ⟨Mode.of .memory true, 9⟩
    m.SelfPointing x ∧ ∃ m', Machine.store x 3 m = .ok () m' ∧ m'.value x = .ok 8 := by
  intro m x
  have own : m.SelfPointing x := by
    refine ⟨Mode.kind?_of _ _, Mode.isIndirect_of _ _, ?_⟩
    exact Machine.readWord_eq_ok_iff.2 ⟨.memory 9, by decide, by decide +kernel⟩
  have stored : Machine.store x 3 m = .ok () (m.put (.memory 9) 3) :=
    Machine.store_eq_ok_iff.2 ⟨.memory 9, by decide +kernel, rfl⟩
  have pointed : (m.put (.memory 9) 3).readWord 3 = .ok 8 :=
    Machine.readWord_eq_ok_iff.2 ⟨.memory 3, by decide, by decide +kernel⟩
  obtain ⟨-, -, -, reads, -⟩ := operand_obeys_store_laws m x
  exact ⟨own, _, stored, ((reads 3 _ stored).2 own).trans pointed⟩

end WordMachine
