import WordMachine.Machine.Basic
import WordMachine.Proofs.Codec

/-!
# Copying words into memory

Loading finds out whether the words fit into memory without wrapping around.  Words that fit are
copied to their range, the machine continues at its start, and all else stays.  Words that do not
fit, and bytes that do not make up words, change nothing.
-/

namespace WordMachine

namespace Machine

variable {σ : Type}

/-- The test that loading makes is exact, also for addresses beyond the end of memory. -/
theorem no_room_iff (address : Word) (n : Nat) :
    memoryEnd < address ∨ (memoryEnd - address).toNat < n ↔ memorySize < address.toNat + n := by
  have size : memoryEnd.toNat = memorySize := rfl
  rw [UInt64.lt_iff_toNat_lt, size]
  by_cases beyond : memorySize < address.toNat
  · simp only [beyond, true_or, true_iff]
    omega
  · have inside : address ≤ memoryEnd := by
      rw [UInt64.le_iff_toNat_le, size]
      omega
    rw [UInt64.toNat_sub_of_le _ _ inside, size]
    omega

theorem getElem?_overwrite (memory : Vector Word memorySize) (address : Nat) (words : List Word)
    {n : Nat} (bound : n < memorySize) :
    (overwrite memory address words.toArray)[n]? =
      if address ≤ n ∧ n - address < words.length then words[n - address]? else memory[n]? := by
  rw [Vector.getElem?_eq_getElem bound, overwrite, Vector.getElem_ofFn]
  by_cases inside : address ≤ n ∧ n - address < words.length
  · rw [dif_pos (by simpa using inside), if_pos inside, List.getElem?_eq_getElem inside.2]
    rfl
  · rw [dif_neg (by simpa using inside), if_neg inside, Vector.getElem?_eq_getElem bound]
    rfl

/-- What loading does to a machine: some words stand in memory from an address on, the machine
continues there, and all else is as before. -/
structure Loaded (address : Nat) (words : List Word) (before after : Machine σ) : Prop where
  inside : ∀ n, n < words.length → after.memory[address + n]? = words[n]?
  outside : ∀ n, n < address ∨ address + words.length ≤ n → after.memory[n]? = before.memory[n]?
  pointer : (after.register Register.instructionPointer).toNat = address
  registers : ∀ r, r ≠ Register.instructionPointer → after.register r = before.register r
  running : after.running = before.running
  source : after.source = before.source

section Load

variable {m : Machine σ} {address : Word} {words : List Word}

theorem load_of_fits (m : Machine σ) (fits : address.toNat + words.length ≤ memorySize) :
    load address words m =
      .ok () ({ m with memory := overwrite m.memory address.toNat words.toArray }.setRegister
        Register.instructionPointer address) := by
  have room := (no_room_iff address words.length).not.2 (by omega)
  rw [load, if_neg room]

theorem load_of_overflow (m : Machine σ) (overflow : memorySize < address.toNat + words.length) :
    load address words m = .error (.outOfRange words.length address) m := by
  rw [load, if_pos ((no_room_iff address words.length).2 overflow)]

theorem loaded_of_load {m' : Machine σ} (h : load address words m = .ok () m') :
    address.toNat + words.length ≤ memorySize ∧ Loaded address.toNat words m m' := by
  by_cases fits : address.toNat + words.length ≤ memorySize
  · rw [load_of_fits m fits] at h
    cases h
    refine ⟨fits, ?_, ?_, ?_, ?_, rfl, rfl⟩
    · intro n small
      rw [memory_setRegister, getElem?_overwrite _ _ _ (by omega), if_pos (by omega),
        Nat.add_sub_cancel_left]
    · intro n away
      rw [memory_setRegister]
      by_cases bound : n < memorySize
      · rw [getElem?_overwrite _ _ _ bound, if_neg (by omega)]
      · have beyond : memorySize ≤ n := Nat.le_of_not_lt bound
        rw [Vector.getElem?_eq_none beyond, Vector.getElem?_eq_none beyond]
    · rw [register_setRegister_same]
    · intro r other
      rw [register_setRegister_of_ne _ address other.symm, register, register]
  · rw [load_of_overflow m (by omega)] at h
    cases h

end Load

/-- An attempt to load succeeds under a condition, then has an effect, and otherwise changes
nothing. -/
structure LoadsWhole (before : Machine σ) (fits : Prop) (effect : Machine σ → Prop)
    (result : EStateM.Result LoadFault (Machine σ) Unit) : Prop where
  succeeds : (∃ after, result = .ok () after) ↔ fits
  effective : ∀ after, result = .ok () after → effect after
  atomic : ∀ fault after, result = .error fault after → after = before

theorem load_loadsWhole (m : Machine σ) (address : Word) (words : List Word) :
    LoadsWhole m (address.toNat + words.length ≤ memorySize) (Loaded address.toNat words m)
      (load address words m) := by
  refine ⟨⟨?_, ?_⟩, fun after h => (loaded_of_load h).2, ?_⟩
  · rintro ⟨after, h⟩
    exact (loaded_of_load h).1
  · intro fits
    exact ⟨_, load_of_fits m fits⟩
  · intro fault after h
    by_cases fits : address.toNat + words.length ≤ memorySize
    · rw [load_of_fits m fits] at h
      cases h
    · rw [load_of_overflow m (by omega)] at h
      cases h
      rfl

theorem loadImage_loadsWhole (m : Machine σ) (bytes : Bytes) :
    LoadsWhole m (bytes.length % 8 = 0 ∧ bytes.length ≤ 8 * memorySize)
      (fun after => ∃ words, deserialize? bytes = some words ∧ Loaded 0 words m after)
      (loadImage bytes m) := by
  unfold loadImage
  cases read : deserialize? bytes with
  | none =>
      have ragged := deserialize?_eq_none_iff.1 read
      refine ⟨?_, ?_, ?_⟩
      · simp [ragged]
      · simp
      · intro fault after h
        cases h
        rfl
  | some words =>
      have length : bytes.length = 8 * words.length := by
        rw [← deserialize?_eq_some_iff.1 read, length_serialize]
      have whole := load_loadsWhole m 0 words
      refine ⟨whole.succeeds.trans ?_, ?_, whole.atomic⟩
      · rw [UInt64.toNat_zero]
        omega
      · intro after h
        exact ⟨words, rfl, whole.effective after h⟩

end Machine

/-- Words and bytes are read back as they were written, and bytes that do not fill words are
refused.  An image is loaded at address zero if its bytes fill words that memory has room for, words
are loaded wherever memory has room for them, and what is not loaded whole changes nothing. -/
theorem images_load_whole_or_not_at_all {σ : Type} (m : Machine σ) :
    (∀ words, deserialize? (serialize words) = some words) ∧
      (∀ bytes, if bytes.length % 8 = 0 then (deserialize? bytes).map serialize = some bytes
        else deserialize? bytes = none) ∧
      (∀ bytes, m.LoadsWhole (bytes.length % 8 = 0 ∧ bytes.length ≤ 8 * memorySize)
        (fun after => ∃ words, deserialize? bytes = some words ∧ m.Loaded 0 words after)
        (Machine.loadImage bytes m)) ∧
      ∀ address words, m.LoadsWhole (address.toNat + words.length ≤ memorySize)
        (m.Loaded address.toNat words) (Machine.load address words m) := by
  refine ⟨deserialize?_serialize, ?_, m.loadImage_loadsWhole, m.load_loadsWhole⟩
  intro bytes
  split
  · rename_i whole
    cases read : deserialize? bytes with
    | none => exact absurd whole (deserialize?_eq_none_iff.1 read)
    | some words => exact congrArg some (deserialize?_eq_some_iff.1 read)
  · rename_i ragged
    exact deserialize?_eq_none_iff.2 ragged

end WordMachine
