import Mathlib.Logic.Relation
import WordMachine.Proofs.Assembly.Encoding
import WordMachine.Proofs.Machine.Footprint

/-!
# Calls and returns

A call saves the address behind it in the word below the top of the stack.  As long as the stack
does not get shorter than the call has made it, and no result goes to that word or to the registers
of the stack, the word stays, whatever is executed.  A return that finds the stack as the call has
left it therefore goes back behind the call.
-/

namespace WordMachine

namespace Machine

variable {σ : Type} [RandomSource σ]

/-- A step of what was called when the machine was `start`.  The stack stays longer than it was, and
no result goes to the stack's registers or to the word that holds the return address. -/
structure StepOfCall (start m m' : Machine σ) : Prop where
  stepped : step m = .ok () m'
  longer : (start.register Register.stackCount).toNat < (m'.register Register.stackCount).toNat
  apart : ∀ op i l, m.running = true → m.fetch = .ok (op, i) →
    m.advance.destination? op i = some l →
      l ≠ .register Register.stackCount ∧ l ≠ .register Register.stackBase ∧
        start.nextOnStack? ≠ some l

/-- A machine that can still return to where `start` calls from: the stack has its base, it is
longer than it was, and the word that was next on it holds the address behind the call. -/
structure Returnable (start : Machine σ) (home : Location) (m : Machine σ) : Prop where
  base : m.register Register.stackBase = start.register Register.stackBase
  longer : (start.register Register.stackCount).toNat < (m.register Register.stackCount).toNat
  saved : m.contents home = start.register Register.instructionPointer + 4

variable {start m m' : Machine σ} {home : Location}

namespace Returnable

theorem of_call {i : Instruction} (running : start.running = true)
    (fetched : start.fetch = .ok (.call, i)) (called : step start = .ok () m)
    (base : (start.register Register.stackBase).toNat < memorySize) :
    ∃ home, start.nextOnStack? = some home ∧ Returnable start home m := by
  obtain ⟨target, after, -, pushed, rfl⟩ :=
    execute_call_ok (execute_of_step running fetched called)
  obtain ⟨room, home, found, rfl⟩ := push_eq_ok_iff.1 pushed
  have found : start.nextOnStack? = some home := start.nextOnStack?_advance ▸ found
  obtain ⟨n, rfl, -⟩ := Location.ofAddress?_eq_some_iff.1 found
  rw [start.register_advance (by decide) (by decide),
    start.register_advance (by decide) (by decide), UInt64.not_lt, UInt64.le_iff_toNat_le] at room
  refine ⟨.memory n, found, ?_, ?_, ?_⟩
  · rw [register_setRegister_of_ne _ _ (by decide), register_setRegister_of_ne _ _ (by decide)]
    exact start.register_advance (by decide) (by decide)
  · rw [register_setRegister_of_ne _ _ (by decide), register_setRegister_same,
      start.register_advance (by decide) (by decide),
      toNat_add_one (Nat.lt_of_le_of_lt room base)]
    exact Nat.lt_succ_self _
  · rw [← instructionPointer_advance]
    exact contents_put_same start.advance (.memory n) _

/-- What is called leaves the return address where it is. -/
theorem step (returnable : Returnable start home m) (found : start.nextOnStack? = some home)
    (stepped : StepOfCall start m m') : Returnable start home m' := by
  rcases step_eq_ok_iff.1 stepped.stepped with ⟨-, rfl⟩ | ⟨running, op, i, fetched, -⟩
  · exact returnable
  · have apart (l : Location) := stepped.apart op i l running fetched
    obtain ⟨n, rfl, -⟩ := Location.ofAddress?_eq_some_iff.1 found
    refine ⟨?_, stepped.longer, ?_⟩
    · rw [← returnable.base]
      refine register_of_step running fetched stepped.stepped ?_ (by decide)
      exact fun stored => (apart _ stored).2.1 rfl
    · rw [← returnable.saved]
      refine contents_memory_of_step running fetched stepped.stepped ?_ ?_
      · exact fun stored => (apart _ stored).2.2 found
      · -- A push reaches the return address only where the stack is as long as before the call.
        intro pushed
        have address := Location.ofAddress?_inj pushed found
        rw [returnable.base, UInt64.sub_right_inj] at address
        have longer := returnable.longer
        rw [address] at longer
        exact Nat.lt_irrefl _ longer

theorem run (returnable : Returnable start home m) (found : start.nextOnStack? = some home)
    (body : Relation.ReflTransGen (StepOfCall start) m m') : Returnable start home m' := by
  induction body with
  | refl => exact returnable
  | tail _ stepped ih => exact ih.step found stepped

theorem ret {j : Instruction} (returnable : Returnable start home m)
    (found : start.nextOnStack? = some home) (running : m.running = true)
    (fetched : m.fetch = .ok (.ret, j))
    (count : m.register Register.stackCount = start.register Register.stackCount + 1) :
    ∃ final, Machine.step m = .ok () final ∧
      final.register Register.instructionPointer = start.register Register.instructionPointer + 4 ∧
      final.register Register.stackCount = start.register Register.stackCount := by
  have count_advance : m.advance.register Register.stackCount =
      start.register Register.stackCount + 1 := by
    rw [m.register_advance (by decide) (by decide), count]
  have base_advance : m.advance.register Register.stackBase =
      start.register Register.stackBase := by
    rw [m.register_advance (by decide) (by decide), returnable.base]
  have saved : m.advance.contents home = start.register Register.instructionPointer + 4 := by
    obtain ⟨n, rfl, -⟩ := Location.ofAddress?_eq_some_iff.1 found
    exact returnable.saved
  have some_words : start.register Register.stackCount + 1 ≠ 0 := by
    intro none
    have longer := returnable.longer
    rw [count, none] at longer
    exact Nat.not_lt_zero _ longer
  have popped : pop m.advance = .ok (start.register Register.instructionPointer + 4)
      (m.advance.setRegister Register.stackCount (start.register Register.stackCount)) := by
    rw [pop_eq_ok_iff, count_advance, base_advance, UInt64.add_sub_cancel]
    exact ⟨some_words, home, found, saved, rfl⟩
  have executed : execute .ret j m.advance = .ok ()
      ((m.advance.setRegister Register.stackCount (start.register Register.stackCount)).setRegister
        Register.instructionPointer (start.register Register.instructionPointer + 4)) :=
    Exec.bind_eq_ok_iff.2 ⟨_, _, popped, rfl⟩
  refine ⟨_, step_eq_ok_iff.2 (.inr ⟨running, _, _, fetched, executed⟩),
    register_setRegister_same .., ?_⟩
  rw [register_setRegister_of_ne _ _ (by decide), register_setRegister_same]

end Returnable

end Machine

/-- Calls nest.  Whatever runs after a call, as long as it succeeds, keeps the stack longer than it
was before the call and leaves the stack's registers and the saved address alone: a return with the
stack as the call has left it goes back behind the call, and the stack is as it was before. -/
theorem return_follows_call {σ : Type} [RandomSource σ] {start first last : Machine σ}
    {i j : Instruction} (running : start.running = true)
    (call : start.fetch = .ok (.call, i))
    (base : (start.register Register.stackBase).toNat < memorySize)
    (called : Machine.step start = .ok () first)
    (body : Relation.ReflTransGen (Machine.StepOfCall start) first last)
    (still : last.running = true) (ret : last.fetch = .ok (.ret, j))
    (count : last.register Register.stackCount = start.register Register.stackCount + 1) :
    ∃ final, Machine.step last = .ok () final ∧
      final.register Register.instructionPointer = start.register Register.instructionPointer + 4 ∧
      final.register Register.stackCount = start.register Register.stackCount := by
  obtain ⟨home, found, returnable⟩ := Machine.Returnable.of_call running call called base
  exact (returnable.run found body).ret found still ret count

/-! ## A call within a call -/

/-- A machine about to call what pushes a word, calls a return and pops the word again. -/
def nestedCalls : Machine Script :=
  let code : List (Word × Instruction) :=
    [(0, .ofOperands .call [.literal 8]), (8, .ofOperands .push [.literal 7]),
      (12, .ofOperands .call [.literal 24]), (16, .ofOperands .pop [⟨Mode.of .register false, 0⟩]),
      (20, .ofOperands .ret []), (24, .ofOperands .ret [])]
  let image := code.foldl (fun image (address, i) => (image.put? address i.encode).getD image)
    Image.zero
  Machine.setRegister { Machine.new ⟨[]⟩ with memory := image.words, running := true }
    Register.stackBase 63

def nestedCallsAt : Nat → Machine Script
  | 0 => nestedCalls
  | n + 1 => Machine.left (Machine.step (nestedCallsAt n))

theorem nestedCallsAt_body :
    Relation.ReflTransGen (Machine.StepOfCall nestedCalls) (nestedCallsAt 1) (nestedCallsAt 5) := by
  have checked : ∀ n : Fin 4, Machine.fault? (Machine.step (nestedCallsAt (n + 1))) = none ∧
      (nestedCalls.register Register.stackCount).toNat <
        ((nestedCallsAt (n + 2)).register Register.stackCount).toNat ∧
      ∀ fetched ∈ (nestedCallsAt (n + 1)).fetch.toOption,
        ∀ l ∈ (nestedCallsAt (n + 1)).advance.destination? fetched.1 fetched.2,
          l ≠ .register Register.stackCount ∧ l ≠ .register Register.stackBase ∧
            nestedCalls.nextOnStack? ≠ some l := by
    decide +kernel
  have step (n : Fin 4) :
      Machine.StepOfCall nestedCalls (nestedCallsAt (n + 1)) (nestedCallsAt (n + 2)) := by
    obtain ⟨succeeds, longer, apart⟩ := checked n
    refine ⟨Machine.eq_ok_of_fault? succeeds, longer, ?_⟩
    intro op i l _ fetched
    exact apart (op, i) (by rw [fetched]; rfl) l
  exact .head (step 0) (.head (step 1) (.head (step 2) (.head (step 3) .refl)))

theorem nested_call_returns :
    nestedCalls.running = true ∧
      nestedCalls.fetch = .ok (.call, .ofOperands .call [.literal 8]) ∧
      (nestedCalls.register Register.stackBase).toNat < memorySize ∧
      Machine.step nestedCalls = .ok () (nestedCallsAt 1) ∧
      Relation.ReflTransGen (Machine.StepOfCall nestedCalls) (nestedCallsAt 1) (nestedCallsAt 5) ∧
      (nestedCallsAt 5).running = true ∧
      (nestedCallsAt 5).fetch = .ok (.ret, .ofOperands .ret []) ∧
      (nestedCallsAt 5).register Register.stackCount =
        nestedCalls.register Register.stackCount + 1 ∧
      ∃ final, Machine.step (nestedCallsAt 5) = .ok () final ∧
        final.register Register.instructionPointer =
          nestedCalls.register Register.instructionPointer + 4 ∧
        final.register Register.stackCount = nestedCalls.register Register.stackCount := by
  have running : nestedCalls.running = true := rfl
  have call : nestedCalls.fetch = .ok (.call, .ofOperands .call [.literal 8]) := by decide +kernel
  have base : (nestedCalls.register Register.stackBase).toNat < memorySize := by decide +kernel
  have called : Machine.step nestedCalls = .ok () (nestedCallsAt 1) :=
    Machine.eq_ok_of_fault? (by decide +kernel)
  have still : (nestedCallsAt 5).running = true := by decide +kernel
  have ret : (nestedCallsAt 5).fetch = .ok (.ret, .ofOperands .ret []) := by decide +kernel
  have count : (nestedCallsAt 5).register Register.stackCount =
      nestedCalls.register Register.stackCount + 1 := by
    decide +kernel
  exact ⟨running, call, base, called, nestedCallsAt_body, still, ret, count,
    return_follows_call running call base called nestedCallsAt_body still ret count⟩

end WordMachine
