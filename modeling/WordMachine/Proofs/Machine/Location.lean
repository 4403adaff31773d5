import WordMachine.Machine.Step

/-!
# Locations

A machine keeps words in registers and in memory.  An operand designates at most one such location,
and what succeeds in storing a word changes one location and nothing else.
-/

namespace WordMachine

theorem Exec.bind_eq_ok_iff {σ α β : Type} {x : Exec σ α} {f : α → Exec σ β} {m m' : Machine σ}
    {b : β} : (x >>= f) m = .ok b m' ↔ ∃ a after, x m = .ok a after ∧ f a after = .ok b m' := by
  show EStateM.bind x f m = .ok b m' ↔ _
  unfold EStateM.bind
  cases x m with
  | ok a after =>
      constructor
      · exact fun rest => ⟨a, after, rfl, rest⟩
      · rintro ⟨_, _, same, rest⟩
        cases same
        exact rest
  | error fault after => simp

theorem Exec.bind_eq_error_iff {σ α β : Type} {x : Exec σ α} {f : α → Exec σ β} {m m' : Machine σ}
    {fault : Fault} : (x >>= f) m = .error fault m' ↔
      x m = .error fault m' ∨ ∃ a after, x m = .ok a after ∧ f a after = .error fault m' := by
  show EStateM.bind x f m = .error fault m' ↔ _
  unfold EStateM.bind
  cases x m with
  | ok a after =>
      constructor
      · exact fun rest => .inr ⟨a, after, rfl, rest⟩
      · rintro (failed | ⟨_, _, same, rest⟩)
        · cases failed
        · cases same
          exact rest
  | error fault after => simp

namespace Machine

variable {σ α : Type} {m m' : Machine σ}

theorem inspect_bind_eq_ok_iff {β : Type} {f : Machine σ → Except Fault α} {k : α → Exec σ β}
    {b : β} : (inspect f >>= k) m = .ok b m' ↔ ∃ a, f m = .ok a ∧ k a m = .ok b m' := by
  rw [Exec.bind_eq_ok_iff]
  unfold inspect
  cases f m with
  | error fault => simp
  | ok x =>
      constructor
      · rintro ⟨a, _, same, rest⟩
        cases same
        exact ⟨x, rfl, rest⟩
      · rintro ⟨a, same, rest⟩
        cases same
        exact ⟨x, m, rfl, rest⟩

theorem inspect_bind_of_ok {β : Type} {f : Machine σ → Except Fault α} {k : α → Exec σ β} {a : α}
    (read : f m = .ok a) : (inspect f >>= k) m = k a m := by
  show EStateM.bind (inspect f) k m = k a m
  rw [EStateM.bind, inspect_ok read]

theorem inspect_bind_eq_error_iff {β : Type} {f : Machine σ → Except Fault α} {k : α → Exec σ β}
    {fault : Fault} : (inspect f >>= k) m = .error fault m' ↔
      f m = .error fault ∧ m' = m ∨ ∃ a, f m = .ok a ∧ k a m = .error fault m' := by
  rw [Exec.bind_eq_error_iff]
  unfold inspect
  cases f m with
  | error found => simp [eq_comm]
  | ok x =>
      constructor
      · rintro (failed | ⟨a, _, same, rest⟩)
        · cases failed
        · cases same
          exact .inr ⟨x, rfl, rest⟩
      · rintro (⟨failed, -⟩ | ⟨a, same, rest⟩)
        · cases failed
        · cases same
          exact .inr ⟨x, m, rfl, rest⟩

/-! ## Locations and their contents -/

/-- A place that holds a word. -/
inductive Location where
  | register (r : Register)
  | memory (n : Fin memorySize)
  deriving DecidableEq, Repr

namespace Location

def ofAddress? (address : Word) : Option Location :=
  if h : address.toNat < memorySize then some (.memory ⟨address.toNat, h⟩) else none

theorem ofAddress?_eq_some_iff {address : Word} {l : Location} :
    ofAddress? address = some l ↔ ∃ n, l = .memory n ∧ address.toNat = n.val := by
  unfold ofAddress?
  split
  · rename_i bound
    rw [Option.some.injEq]
    constructor
    · rintro rfl
      exact ⟨_, rfl, rfl⟩
    · rintro ⟨n, rfl, same⟩
      rw [memory.injEq]
      exact Fin.ext same
  · rename_i outside
    simp only [reduceCtorEq, false_iff, not_exists, not_and]
    intro n _ same
    exact outside (same ▸ n.isLt)

theorem ofAddress?_ne_register {address : Word} {r : Register} :
    ofAddress? address ≠ some (.register r) := by
  intro found
  obtain ⟨n, other, -⟩ := ofAddress?_eq_some_iff.1 found
  cases other

theorem ofAddress?_inj {a b : Word} {l : Location} (first : ofAddress? a = some l)
    (second : ofAddress? b = some l) : a = b := by
  obtain ⟨n, rfl, at_a⟩ := ofAddress?_eq_some_iff.1 first
  obtain ⟨k, same, at_b⟩ := ofAddress?_eq_some_iff.1 second
  cases same
  exact UInt64.toNat_inj.1 (at_a.trans at_b.symm)

end Location

def contents (m : Machine σ) : Location → Word
  | .register r => m.register r
  | .memory n => m.memory.get n

def put (m : Machine σ) (l : Location) (w : Word) : Machine σ :=
  match l with
  | .register r => m.setRegister r w
  | .memory n => { m with memory := m.memory.set n.val w n.isLt }

@[simp] theorem put_register (m : Machine σ) (r : Register) (w : Word) :
    m.put (.register r) w = m.setRegister r w := rfl

@[simp] theorem contents_put_same (m : Machine σ) (l : Location) (w : Word) :
    (m.put l w).contents l = w := by
  cases l with
  | register r => exact register_setRegister_same m r w
  | memory n => exact Vector.getElem_set_self _

theorem contents_put_of_ne (m : Machine σ) {l k : Location} (w : Word) (h : l ≠ k) :
    (m.put l w).contents k = m.contents k := by
  cases l with
  | register r =>
      cases k with
      | register s => exact register_setRegister_of_ne m w fun same => h (congrArg _ same)
      | memory n => rfl
  | memory n =>
      cases k with
      | register s => rfl
      | memory j =>
          exact Vector.getElem_set_ne n.isLt j.isLt fun same => h (congrArg _ (Fin.ext same))

@[simp] theorem put_contents (m : Machine σ) (l : Location) : m.put l (m.contents l) = m := by
  cases l with
  | register r => simp [setRegister, contents, register]
  | memory n => simp [put, contents, Vector.get]

@[simp] theorem running_put (m : Machine σ) (l : Location) (w : Word) :
    (m.put l w).running = m.running := by
  cases l <;> rfl

@[simp] theorem source_put (m : Machine σ) (l : Location) (w : Word) :
    (m.put l w).source = m.source := by
  cases l <;> rfl

/-! ## Frames -/

/-- Outside some locations two machines have the same contents. -/
def Frame (ls : List Location) (m m' : Machine σ) : Prop :=
  ∀ l, l ∉ ls → m'.contents l = m.contents l

namespace Frame

theorem refl (m : Machine σ) : Frame [] m m :=
  fun _ _ => rfl

theorem put (m : Machine σ) (l : Location) (w : Word) : Frame [l] m (m.put l w) :=
  fun _ outside => contents_put_of_ne m w fun same => outside (List.mem_singleton.2 same.symm)

theorem trans {ls ks : List Location} {m'' : Machine σ} (first : Frame ls m m')
    (second : Frame ks m' m'') : Frame (ls ++ ks) m m'' := by
  intro l outside
  rw [List.mem_append, not_or] at outside
  rw [second l outside.2, first l outside.1]

theorem mono {ls ks : List Location} (h : Frame ls m m') (subset : ls ⊆ ks) : Frame ks m m' :=
  fun l outside => h l fun inside => outside (subset inside)

end Frame

/-! ## Reading, writing and storing -/

theorem readWord_eq_ok_iff {address w : Word} :
    m.readWord address = .ok w ↔
      ∃ l, Location.ofAddress? address = some l ∧ m.contents l = w := by
  unfold readWord Location.ofAddress?
  split
  · rw [Except.ok.injEq]
    simp only [Option.some.injEq, exists_eq_left']
    rfl
  · simp

theorem writeWord_eq_ok_iff {address w : Word} :
    writeWord address w m = .ok () m' ↔
      ∃ l, Location.ofAddress? address = some l ∧ m' = m.put l w := by
  unfold writeWord Location.ofAddress?
  split
  · simp [put, eq_comm]
  · simp

/-- The location that an operand designates.  A direct literal designates none. -/
def location? (m : Machine σ) (x : Operand) : Option Location :=
  match x.mode.kind? with
  | some .literal => if x.mode.isIndirect then Location.ofAddress? x.value else none
  | some .memory =>
      (Location.ofAddress? x.value).bind fun l =>
        if x.mode.isIndirect then Location.ofAddress? (m.contents l) else some l
  | some .register =>
      (Register.ofWord? x.value).bind fun r =>
        if x.mode.isIndirect then Location.ofAddress? (m.register r) else some (.register r)
  | none => none

/-- A store succeeds where the operand designates a location, and changes that one. -/
theorem store_eq_ok_iff {x : Operand} {w : Word} :
    store x w m = .ok () m' ↔ ∃ l, m.location? x = some l ∧ m' = m.put l w := by
  unfold store location?
  cases x.mode.kind? with
  | none => simp
  | some kind =>
      cases kind with
      | literal =>
          cases x.mode.isIndirect with
          | true => simpa using writeWord_eq_ok_iff
          | false => simp
      | memory =>
          dsimp only
          by_cases bound : x.value.toNat < memorySize
          · rw [dif_pos bound, Location.ofAddress?, dif_pos bound, Option.bind_some,
              writeWord_eq_ok_iff]
            cases x.mode.isIndirect with
            | true => rfl
            | false => simp [Location.ofAddress?, bound]
          · simp [Location.ofAddress?, bound]
      | register =>
          cases Register.ofWord? x.value with
          | none => simp
          | some r =>
              cases x.mode.isIndirect with
              | true => simpa using writeWord_eq_ok_iff
              | false => simp [eq_comm]

/-! ## The stack -/

theorem toNat_add_one_iff {w : Word} :
    (w + 1).toNat = w.toNat + 1 ↔ w.toNat + 1 < UInt64.size := by
  have bound := w.toNat_lt
  rw [UInt64.toNat_add]
  simp only [UInt64.size, UInt64.toNat_one]
  omega

theorem toNat_add_one {w : Word} (small : w.toNat < memorySize) : (w + 1).toNat = w.toNat + 1 := by
  simp only [memorySize] at small
  rw [toNat_add_one_iff, UInt64.size]
  omega

theorem push_eq_ok_iff {w : Word} :
    push w m = .ok () m' ↔ ¬ m.register Register.stackBase < m.register Register.stackCount ∧
      ∃ l, Location.ofAddress?
          (m.register Register.stackBase - m.register Register.stackCount) = some l ∧
        m' = (m.put l w).setRegister Register.stackCount
          (m.register Register.stackCount + 1) := by
  unfold push
  dsimp only
  split
  · rename_i full
    simp [full]
  · rename_i room
    simp only [room, not_false_eq_true, true_and]
    cases written :
      writeWord (m.register Register.stackBase - m.register Register.stackCount) w m with
    | ok _ after =>
        obtain ⟨l, found, rfl⟩ := writeWord_eq_ok_iff.1 written
        simp [found, eq_comm]
    | error fault after =>
        simp only [reduceCtorEq, false_iff, not_exists, not_and]
        intro l found
        rw [writeWord_eq_ok_iff.2 ⟨l, found, rfl⟩] at written
        cases written

theorem pop_eq_ok_iff {w : Word} :
    pop m = .ok w m' ↔ m.register Register.stackCount ≠ 0 ∧
      ∃ l, Location.ofAddress?
          (m.register Register.stackBase - (m.register Register.stackCount - 1)) = some l ∧
        m.contents l = w ∧
        m' = m.setRegister Register.stackCount (m.register Register.stackCount - 1) := by
  unfold pop
  dsimp only
  split
  · rename_i none
    simp [none]
  · rename_i some
    cases read : m.readWord
        (m.register Register.stackBase - (m.register Register.stackCount - 1)) with
    | ok word =>
        obtain ⟨l, found, rfl⟩ := readWord_eq_ok_iff.1 read
        simp [some, found, eq_comm]
    | error fault =>
        simp only [reduceCtorEq, false_iff, not_and, not_exists]
        intro _ l found _
        rw [readWord_eq_ok_iff.2 ⟨l, found, rfl⟩] at read
        cases read

end Machine

end WordMachine
