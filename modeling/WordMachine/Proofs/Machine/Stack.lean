import WordMachine.Proofs.Machine.Location

/-!
# The stack as a list

The stack grows down from its base, so that in the order of addresses its words are a list with the
top first.  Pushing and popping are the operations of a list that is full when it reaches down to
address zero.
-/

namespace WordMachine

/-! ## Operations on a bounded list -/

inductive StackOperation where
  | push (w : Word)
  | pop
  deriving DecidableEq, Repr

abbrev StackAnswer := Except Fault (Option Word)

namespace StackOperation

/-- An operation on a list that holds a number of words at most, top first. -/
def onList (capacity : Nat) : StackOperation → List Word → StackAnswer × List Word
  | .push w, words =>
      if words.length = capacity then (.error .stackOverflow, words) else (.ok none, w :: words)
  | .pop, [] => (.error .stackUnderflow, [])
  | .pop, w :: words => (.ok (some w), words)

def onMachine {σ : Type} (op : StackOperation) (m : Machine σ) : StackAnswer × Machine σ :=
  match op with
  | .push w =>
      match Machine.push w m with
      | .ok () after => (.ok none, after)
      | .error fault after => (.error fault, after)
  | .pop =>
      match Machine.pop m with
      | .ok w after => (.ok (some w), after)
      | .error fault after => (.error fault, after)

/-- Operations one after another, whether they fail or not: all answers, and the state they
leave. -/
def performAll {S : Type} (perform : StackOperation → S → StackAnswer × S) :
    List StackOperation → S → List StackAnswer × S
  | [], s => ([], s)
  | op :: rest, s =>
      let (answer, s) := perform op s
      let (answers, s) := performAll perform rest s
      (answer :: answers, s)

end StackOperation

/-! ## Words before a place in a list -/

/-- Of the words before a place in a list, a number of the last ones. -/
def lastWords (words : List Word) (place count : Nat) : List Word :=
  (words.drop (place - count)).take count

section LastWords

variable {words : List Word} {place count : Nat}

theorem length_lastWords (inside : place ≤ words.length) (enough : count ≤ place) :
    (lastWords words place count).length = count := by
  rw [lastWords, List.length_take, List.length_drop]
  omega

theorem lastWords_succ (inside : place ≤ words.length) (more : count < place) :
    lastWords words place (count + 1) =
      words[place - (count + 1)] :: lastWords words place count := by
  have next : place - (count + 1) + 1 = place - count := by omega
  rw [lastWords, List.drop_eq_getElem_cons (by omega), next, List.take_succ_cons, lastWords]

theorem lastWords_set (inside : place ≤ words.length) (more : count < place) (w : Word) :
    lastWords (words.set (place - (count + 1)) w) place (count + 1) =
      w :: lastWords words place count := by
  have length : (words.set (place - (count + 1)) w).length = words.length := List.length_set
  rw [lastWords_succ (by omega) more, List.getElem_set_self, lastWords, lastWords,
    List.drop_set_of_lt (by omega)]

end LastWords

open StackOperation (performAll onMachine onList)

namespace Machine

variable {σ : Type} {m m' : Machine σ}

/-! ## The stack of a machine -/

/-- The base of the stack is an address, and its words lie between address zero and the base. -/
structure StackFits (m : Machine σ) : Prop where
  base : (m.register Register.stackBase).toNat < memorySize
  count : (m.register Register.stackCount).toNat ≤ (m.register Register.stackBase).toNat + 1

def stackCapacity (m : Machine σ) : Nat :=
  (m.register Register.stackBase).toNat + 1

def stack (m : Machine σ) : List Word :=
  lastWords m.memory.toList m.stackCapacity (m.register Register.stackCount).toNat

/-- Two machines that differ at most in the count of the stack and the words up to its base. -/
structure SameBesideStack (m m' : Machine σ) : Prop where
  registers : ∀ r, r ≠ Register.stackCount → m'.register r = m.register r
  memory : ∀ n : Fin memorySize, (m.register Register.stackBase).toNat < n.val →
    m'.contents (.memory n) = m.contents (.memory n)
  running : m'.running = m.running
  source : m'.source = m.source

namespace SameBesideStack

theorem refl (m : Machine σ) : SameBesideStack m m :=
  ⟨fun _ _ => rfl, fun _ _ => rfl, rfl, rfl⟩

theorem base (h : SameBesideStack m m') :
    m'.register Register.stackBase = m.register Register.stackBase :=
  h.registers Register.stackBase (by decide)

theorem trans {m'' : Machine σ} (first : SameBesideStack m m') (second : SameBesideStack m' m'') :
    SameBesideStack m m'' where
  registers r other := (second.registers r other).trans (first.registers r other)
  memory n above := (second.memory n (first.base ▸ above)).trans (first.memory n above)
  running := second.running.trans first.running
  source := second.source.trans first.source

theorem capacity (h : SameBesideStack m m') : m'.stackCapacity = m.stackCapacity := by
  rw [stackCapacity, h.base, stackCapacity]

theorem setCount (m : Machine σ) (w : Word) :
    SameBesideStack m (m.setRegister Register.stackCount w) :=
  ⟨fun _ other => register_setRegister_of_ne m w other.symm, fun _ _ => rfl, rfl, rfl⟩

theorem put (m : Machine σ) {n : Fin memorySize}
    (below : n.val ≤ (m.register Register.stackBase).toNat) (w : Word) :
    SameBesideStack m (m.put (.memory n) w) where
  registers _ _ := rfl
  memory k above := by
    refine contents_put_of_ne m w fun same => ?_
    cases same
    omega
  running := rfl
  source := rfl

end SameBesideStack

namespace StackFits

theorem capacity_le (fits : m.StackFits) : m.stackCapacity ≤ m.memory.toList.length := by
  rw [Vector.length_toList]
  exact fits.base

theorem length_stack (fits : m.StackFits) :
    m.stack.length = (m.register Register.stackCount).toNat :=
  length_lastWords fits.capacity_le fits.count

theorem of_same (fits : m.StackFits) (same : SameBesideStack m m')
    (count : (m'.register Register.stackCount).toNat ≤ m.stackCapacity) : m'.StackFits := by
  constructor
  · rw [same.base]
    exact fits.base
  · rw [same.base]
    exact count

/-! ### Pushing -/

theorem push_of_full (fits : m.StackFits) (full : m.stack.length = m.stackCapacity) (w : Word) :
    push w m = .error .stackOverflow m := by
  rw [fits.length_stack, stackCapacity] at full
  have above : m.register Register.stackBase < m.register Register.stackCount := by
    rw [UInt64.lt_iff_toNat_lt]
    omega
  simp only [push, above, if_true]

theorem push_of_room (fits : m.StackFits) (room : m.stack.length ≠ m.stackCapacity) (w : Word) :
    ∃ after, push w m = .ok () after ∧ after.stack = w :: m.stack ∧ after.StackFits ∧
      SameBesideStack m after := by
  have base := fits.base
  have count := fits.count
  rw [fits.length_stack, stackCapacity] at room
  have below : m.register Register.stackCount ≤ m.register Register.stackBase := by
    rw [UInt64.le_iff_toNat_le]
    omega
  -- Neither the address nor the new count wraps around.
  have address := UInt64.toNat_sub_of_le _ _ below
  have next : (m.register Register.stackCount + 1).toNat =
      (m.register Register.stackCount).toNat + 1 :=
    toNat_add_one (by omega)
  have bound : (m.register Register.stackBase - m.register Register.stackCount).toNat <
      memorySize := by
    omega
  have pushed : SameBesideStack m
      ((m.put (.memory ⟨_, bound⟩) w).setRegister Register.stackCount
        (m.register Register.stackCount + 1)) :=
    (SameBesideStack.put m (by simp only; omega) w).trans (.setCount _ _)
  refine ⟨_, push_eq_ok_iff.2 ⟨UInt64.not_lt.2 below, _, dif_pos bound, rfl⟩, ?_, ?_, pushed⟩
  · have place : (m.register Register.stackBase - m.register Register.stackCount).toNat =
        m.stackCapacity - ((m.register Register.stackCount).toNat + 1) := by
      rw [stackCapacity]
      omega
    rw [stack, pushed.capacity, register_setRegister_same, next, memory_setRegister, put,
      Vector.toList_set]
    dsimp only
    rw [place, lastWords_set fits.capacity_le (by rw [stackCapacity]; omega), stack]
  · refine fits.of_same pushed ?_
    rw [register_setRegister_same, next, stackCapacity]
    omega

/-! ### Popping -/

theorem pop_of_nil (fits : m.StackFits) (empty : m.stack = []) :
    pop m = .error .stackUnderflow m := by
  have none : m.register Register.stackCount = 0 := by
    rw [← UInt64.toNat_inj, ← fits.length_stack, empty]
    rfl
  simp only [pop, none, if_true]

theorem pop_of_cons (fits : m.StackFits) {w : Word} {rest : List Word} (top : m.stack = w :: rest) :
    ∃ after, pop m = .ok w after ∧ after.stack = rest ∧ after.StackFits ∧
      SameBesideStack m after := by
  have base := fits.base
  have count := fits.count
  have length := fits.length_stack
  rw [top, List.length_cons] at length
  have some : m.register Register.stackCount ≠ 0 := by
    intro none
    rw [none] at length
    cases length
  have less : (m.register Register.stackCount - 1).toNat = rest.length := by
    rw [UInt64.toNat_sub_of_le _ _ (by rw [UInt64.le_iff_toNat_le, ← length]; simp), ← length]
    rfl
  have address : (m.register Register.stackBase - (m.register Register.stackCount - 1)).toNat =
      m.stackCapacity - (rest.length + 1) := by
    rw [UInt64.toNat_sub_of_le _ _ (by rw [UInt64.le_iff_toNat_le]; omega), less, stackCapacity]
    omega
  have bound : (m.register Register.stackBase - (m.register Register.stackCount - 1)).toNat <
      memorySize := by
    rw [address, stackCapacity]
    omega
  rw [stack, ← length, lastWords_succ fits.capacity_le (by rw [stackCapacity]; omega),
    List.cons.injEq] at top
  have popped := SameBesideStack.setCount m (m.register Register.stackCount - 1)
  refine ⟨_, pop_eq_ok_iff.2 ⟨some, _, dif_pos bound, ?_, rfl⟩, ?_, ?_, popped⟩
  · rw [← top.1, Vector.getElem_toList]
    simp only [address]
    rfl
  · rw [stack, popped.capacity, register_setRegister_same, less, memory_setRegister, top.2]
  · refine fits.of_same popped ?_
    rw [register_setRegister_same, less, stackCapacity]
    omega

/-! ### Sequences of operations -/

/-- One operation answers as the list does, and leaves a stack that is the list it leaves.  If it
fails it changes nothing. -/
theorem refines_list (fits : m.StackFits) (op : StackOperation) :
    ∃ answer after, op.onMachine m = (answer, after) ∧
      op.onList m.stackCapacity m.stack = (answer, after.stack) ∧ after.StackFits ∧
      SameBesideStack m after ∧ ∀ fault, answer = .error fault → after = m := by
  cases op with
  | push w =>
      by_cases full : m.stack.length = m.stackCapacity
      · refine ⟨.error .stackOverflow, m, ?_, if_pos full, fits, .refl m, fun _ _ => rfl⟩
        rw [onMachine, fits.push_of_full full]
      · obtain ⟨after, pushed, words, still, same⟩ := fits.push_of_room full w
        refine ⟨.ok none, after, ?_, ?_, still, same, fun _ failed => nomatch failed⟩
        · rw [onMachine, pushed]
        · rw [onList, if_neg full, words]
  | pop =>
      cases top : m.stack with
      | nil =>
          refine ⟨.error .stackUnderflow, m, ?_, ?_, fits, .refl m, fun _ _ => rfl⟩
          · rw [onMachine, fits.pop_of_nil top]
          · rw [top, onList]
      | cons w rest =>
          obtain ⟨after, popped, words, still, same⟩ := fits.pop_of_cons top
          refine ⟨.ok (some w), after, ?_, ?_, still, same, fun _ failed => nomatch failed⟩
          · rw [onMachine, popped]
          · rw [onList, words]

theorem refines_list_all (fits : m.StackFits) (ops : List StackOperation) :
    ∃ answers last, performAll onMachine ops m = (answers, last) ∧
      performAll (onList m.stackCapacity) ops m.stack = (answers, last.stack) ∧
      last.StackFits ∧ SameBesideStack m last := by
  induction ops generalizing m with
  | nil => exact ⟨[], m, rfl, rfl, fits, .refl m⟩
  | cons op rest ih =>
      obtain ⟨answer, after, performed, listed, still, same, -⟩ := fits.refines_list op
      obtain ⟨answers, last, went_on, listed_on, fits_last, same_last⟩ := ih still
      rw [same.capacity] at listed_on
      refine ⟨answer :: answers, last, ?_, ?_, fits_last, same.trans same_last⟩
      · simp only [performAll, performed, went_on]
      · simp only [performAll, listed, listed_on]

end StackFits

end Machine

/-- The stack of a machine is a bounded list.  Pushes and pops in any order give the answers that a
list with room down to address zero gives, a failed one changes nothing, and only the count and the
words up to the base ever change. -/
theorem stack_refines_bounded_list {σ : Type} {m : Machine σ} (fits : m.StackFits)
    (ops : List StackOperation) :
    ∃ answers last, performAll onMachine ops m = (answers, last) ∧
      performAll (onList m.stackCapacity) ops m.stack = (answers, last.stack) ∧
      last.StackFits ∧ Machine.SameBesideStack m last ∧
      ∀ op fault after, onMachine op last = (.error fault, after) → after = last := by
  obtain ⟨answers, last, performed, listed, fits_last, same⟩ := fits.refines_list_all ops
  refine ⟨answers, last, performed, listed, fits_last, same, ?_⟩
  intro op fault after failed
  obtain ⟨answer, left, one, -, -, -, unchanged⟩ := fits_last.refines_list op
  rw [one, Prod.mk.injEq] at failed
  exact failed.2 ▸ unchanged fault failed.1

theorem two_words_fill_stack :
    let m := (Machine.new (⟨[]⟩ : Script)).setRegister Register.stackBase 1
    m.StackFits ∧
      (performAll onMachine [.push 5, .push 6, .push 7, .pop, .pop, .pop] m).1 =
        [.ok none, .ok none, .error .stackOverflow, .ok (some 6), .ok (some 5),
          .error .stackUnderflow] := by
  have fits : ((Machine.new (⟨[]⟩ : Script)).setRegister Register.stackBase 1).StackFits :=
    ⟨by decide, by decide⟩
  refine ⟨fits, ?_⟩
  obtain ⟨answers, last, performed, listed, -⟩ :=
    stack_refines_bounded_list fits [.push 5, .push 6, .push 7, .pop, .pop, .pop]
  rw [performed]
  exact (congrArg Prod.fst listed).symm

end WordMachine
