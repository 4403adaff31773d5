import WordMachine.Machine.Run
import WordMachine.Proofs.Machine.Fetch

/-!
# The machine made of partial operations

Some operations are defined only for some arguments: a cell is looked up below the size of memory,
a register and a handler below their number, nothing is divided by zero, and no draw is below zero.
Here the machine is put together once more from such operations, without a branch for a register or
a mode that does not exist, and with faults that all have a category.
-/

namespace WordMachine

/-! ## Categories of faults -/

inductive Fault.Category where
  | badAddress
  | illegalInstruction
  | literalDestination
  | divisionByZero
  | stackOverflow
  | stackUnderflow
  | emptyRange
  deriving DecidableEq, Repr

/-- The category of a fault; none for what only an invalid instruction gives rise to. -/
def Fault.category? : Fault → Option Fault.Category
  | .badRead _ | .badWrite _ => some .badAddress
  | .literalDestination => some .literalDestination
  | .divisionByZero => some .divisionByZero
  | .stackOverflow => some .stackOverflow
  | .stackUnderflow => some .stackUnderflow
  | .emptyRange => some .emptyRange
  | .noRegister _ | .noKind _ => none
  | .source _ fault => fault.category?

def StepFault.category? : StepFault → Option Fault.Category
  | .fetch _ => some .badAddress
  | .illegal .. => some .illegalInstruction
  | .execution _ _ fault => fault.category?

abbrev KnownFault := { fault : Fault // fault.category?.isSome }

abbrev KnownStepFault := { fault : StepFault // fault.category?.isSome }

/-- How an operation ends early: with a fault, or where it is not defined. -/
inductive Break (ε : Type) where
  | fault (fault : ε)
  | undefined

abbrev Partial (σ α : Type) := EStateM (Break KnownFault) (Machine σ) α

namespace Partial

variable {σ α β : Type}

/-! ## Operations that are defined only in part -/

def fail (fault : Fault) (known : fault.category?.isSome) : Partial σ α :=
  throw (.fault ⟨fault, known⟩)

def cell (n : Nat) : Partial σ Word := fun m =>
  match m.memory[n]? with
  | some w => .ok w m
  | none => .error .undefined m

def setCell (n : Nat) (w : Word) : Partial σ Unit := fun m =>
  if h : n < memorySize then .ok () { m with memory := m.memory.set n w h }
  else .error .undefined m

def register (n : Nat) : Partial σ Word := fun m =>
  match m.registers[n]? with
  | some w => .ok w m
  | none => .error .undefined m

def setRegister (n : Nat) (w : Word) : Partial σ Unit := fun m =>
  if h : n < registerCount then .ok () { m with registers := m.registers.set n w h }
  else .error .undefined m

def quotient (b c : Word) : Partial σ Word :=
  if c = 0 then throw .undefined else pure (b / c)

def remainder (b c : Word) : Partial σ Word :=
  if c = 0 then throw .undefined else pure (b % c)

def drawWord [RandomSource σ] : Partial σ Word := fun m =>
  match RandomSource.word m.source with
  | (w, source) => .ok w { m with source }

def drawBelow [RandomSource σ] (n : Word) : Partial σ Word := fun m =>
  if n = 0 then .error .undefined m
  else
    match RandomSource.below n m.source with
    | (w, source) => .ok w { m with source }

/-! ## Operands and the stack -/

def read (address : Word) : Partial σ Word :=
  if address.toNat < memorySize then cell address.toNat else fail (.badRead address) rfl

def write (address w : Word) : Partial σ Unit :=
  if address.toNat < memorySize then setCell address.toNat w else fail (.badWrite address) rfl

def direct (x : Operand) : Partial σ Word :=
  match x.mode.kind? with
  | some .literal => pure x.value
  | some .memory => read x.value
  | some .register => register x.value.toNat
  | none => throw .undefined

def value (x : Operand) : Partial σ Word := do
  let w ← direct x
  if x.mode.isIndirect then read w else pure w

def store (x : Operand) (w : Word) : Partial σ Unit :=
  match x.mode.kind? with
  | some .literal => if x.mode.isIndirect then write x.value w else fail .literalDestination rfl
  | some .memory =>
      if x.value.toNat < memorySize then
        if x.mode.isIndirect then do write (← cell x.value.toNat) w else setCell x.value.toNat w
      else fail (.badWrite x.value) rfl
  | some .register =>
      if x.mode.isIndirect then do write (← register x.value.toNat) w
      else setRegister x.value.toNat w
  | none => throw .undefined

def push (w : Word) : Partial σ Unit := do
  let count ← register Register.stackCount.val
  let base ← register Register.stackBase.val
  if base < count then fail .stackOverflow rfl
  else
    write (base - count) w
    setRegister Register.stackCount.val (count + 1)

def pop : Partial σ Word := do
  let count ← register Register.stackCount.val
  let base ← register Register.stackBase.val
  if count = 0 then fail .stackUnderflow rfl
  else
    let w ← read (base - (count - 1))
    setRegister Register.stackCount.val (count - 1)
    pure w

/-- The value of operand number `slot`, which is a source. -/
def sourceValue (slot : Nat) (x : Operand) : Partial σ Word := fun m =>
  match value x m with
  | .error (.fault fault) m => .error (.fault ⟨.source slot fault.val, fault.property⟩) m
  | result => result

def sourceValues (i : Instruction) : Partial σ (Word × Word) := do
  let b ← sourceValue 1 i.b
  let c ← sourceValue 2 i.c
  pure (b, c)

/-! ## Handlers and steps -/

def jump (address : Word) : Partial σ Unit :=
  setRegister Register.instructionPointer.val address

def binary (f : Word → Word → Word) (i : Instruction) : Partial σ Unit := do
  let (b, c) ← sourceValues i
  store i.a (f b c)

def unary (f : Word → Word) (i : Instruction) : Partial σ Unit := do
  let a ← value i.a
  store i.a (f a)

def branch (i : Instruction) (condition : Bool) : Partial σ Unit :=
  if condition then do jump (← value i.a) else pure ()

def divide (i : Instruction) : Partial σ Unit := do
  let (b, c) ← sourceValues i
  if c = 0 then fail .divisionByZero rfl
  else
    store i.a (← quotient b c)
    setRegister Register.remainder.val (← remainder b c)

def modulo (i : Instruction) : Partial σ Unit := do
  let (b, c) ← sourceValues i
  if c = 0 then fail .divisionByZero rfl else store i.a (← remainder b c)

def call (i : Instruction) : Partial σ Unit := do
  let target ← value i.a
  push (← register Register.instructionPointer.val)
  jump target

def random [RandomSource σ] (i : Instruction) : Partial σ Unit := do
  let (low, high) ← sourceValues i
  if low = 0 ∧ high = 0 then store i.a (← drawWord)
  else if high ≤ low then fail .emptyRange rfl
  else store i.a (low + (← drawBelow (high - low)))

def handlers [RandomSource σ] : List (Instruction → Partial σ Unit) :=
  [fun _ => pure (),
    fun _ => modify fun m => { m with running := false },
    fun i => do push (← value i.a),
    fun i => do store i.a (← pop),
    binary (· + ·),
    binary (· - ·),
    binary (· * ·),
    divide,
    binary Word.shiftLeft,
    binary Word.shiftRight,
    modulo,
    unary (· + 1),
    unary (· - 1),
    unary (~~~ ·),
    binary Word.order,
    fun i => do store i.a (← value i.b),
    call,
    fun _ => do jump (← pop),
    fun i => branch i true,
    fun i => do
      let (b, c) ← sourceValues i
      branch i (b = c),
    fun i => do
      let (b, c) ← sourceValues i
      branch i (b ≠ c),
    fun i => do
      let b ← value i.b
      branch i (b ≠ 0),
    random]

def block (n : Nat) : Partial σ Block := do
  let control ← cell n
  let a ← cell (n + 1)
  let b ← cell (n + 2)
  let c ← cell (n + 3)
  pure ⟨control, a, b, c⟩

def located (address : Word) (op : Opcode) :
    EStateM.Result (Break KnownFault) (Machine σ) Unit →
      EStateM.Result (Break KnownStepFault) (Machine σ) Unit
  | .ok () m => .ok () m
  | .error (.fault fault) m =>
      .error (.fault ⟨.execution address op fault.val, fault.property⟩) m
  | .error .undefined m => .error .undefined m

/-- One step.  The handler is looked up by the number in the instruction, valid or not. -/
def step [RandomSource σ] : EStateM (Break KnownStepFault) (Machine σ) Unit := fun m =>
  let address := m.register Register.instructionPointer
  if m.running then
    if address.toNat ≤ memorySize - 4 then
      match block address.toNat m with
      | .error _ m => .error .undefined m
      | .ok words m =>
          let i := Instruction.decode words
          match i.validate with
          | .error defect => .error (.fault ⟨.illegal address defect, rfl⟩) m
          | .ok op =>
              match handlers[i.opcode.toNat]? with
              | none => .error .undefined m
              | some handler => located address op (handler i m.advance)
    else .error (.fault ⟨.fetch address, rfl⟩) m
  else .ok () m

end Partial

end WordMachine
