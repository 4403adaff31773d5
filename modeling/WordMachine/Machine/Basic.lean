import WordMachine.Instruction
import WordMachine.Random

/-!
# The machine

Why the machine cannot go on, from the access of an operand up to a whole run; the state of the
machine, and the access to registers, memory words, operands and the stack.  An operation that
changes the machine gives its state also when it faults.
-/

namespace WordMachine

/-! ## Faults -/

/-- A fault of an operation. -/
inductive Fault where
  | badRead (address : Word)
  | badWrite (address : Word)
  | literalDestination
  | divisionByZero
  | stackOverflow
  | stackUnderflow
  | emptyRange
  | noRegister (number : Word)
  | noKind (mode : Mode)
  -- A fault that is met at a source operand.
  | source (slot : Nat) (fault : Fault)
  deriving DecidableEq, Repr

def Fault.message : Fault → String
  | .badRead address => s!"address out of range: read at {address}"
  | .badWrite address => s!"address out of range: write at {address}"
  | .literalDestination => "cannot store to a literal"
  | .divisionByZero => "division by zero"
  | .stackOverflow => "stack overflow"
  | .stackUnderflow => "stack underflow"
  | .emptyRange => "empty random range"
  | .noRegister number => s!"invalid register {number}"
  | .noKind mode => "invalid addressing mode " ++ mode.description
  | .source slot fault => s!"operand {slot}: " ++ fault.message

inductive StepFault where
  | fetch (address : Word)
  | illegal (address : Word) (defect : Instruction.Defect)
  | execution (address : Word) (op : Opcode) (fault : Fault)
  deriving DecidableEq, Repr

def StepFault.message : StepFault → String
  | .fetch address => s!"fetch at {address}: address out of range"
  | .illegal address defect => s!"illegal instruction at {address}: " ++ defect.message
  | .execution address op fault =>
      s!"execution failed at {address} (" ++ op.mnemonic ++ "): " ++ fault.message

inductive RunFault where
  | step (fault : StepFault)
  | stepLimit
  deriving DecidableEq, Repr

def RunFault.message : RunFault → String
  | .step fault => fault.message
  | .stepLimit => "step limit reached"

inductive LoadFault where
  | ragged (size : Nat)
  | outOfRange (count : Nat) (address : Word)
  deriving DecidableEq, Repr

def LoadFault.message : LoadFault → String
  | .ragged size => s!"image length {size} is not a multiple of 8"
  | .outOfRange count address => s!"address out of range: {count} words at {address}"

/-! ## State -/

structure Machine (σ : Type) where
  registers : Vector Word registerCount
  memory : Vector Word memorySize
  running : Bool
  source : σ

/-- An operation on the machine that can fault. -/
abbrev Exec (σ α : Type) := EStateM Fault (Machine σ) α

namespace Machine

variable {σ α : Type}

/-- Where the stack begins unless a program moves it: the last word of memory. -/
def initialStackBase : Word := 65535

def new (source : σ) : Machine σ where
  registers := (Vector.replicate registerCount 0).set 19 initialStackBase
  memory := Vector.replicate memorySize 0
  running := false
  source

def reset (m : Machine σ) : Machine σ :=
  new m.source

def register (m : Machine σ) (r : Register) : Word :=
  m.registers[r]

def setRegister (m : Machine σ) (r : Register) (w : Word) : Machine σ :=
  { m with registers := m.registers.set r.val w r.isLt }

@[simp] theorem register_setRegister_same (m : Machine σ) (r : Register) (w : Word) :
    (m.setRegister r w).register r = w := by
  simp [register, setRegister]

theorem register_setRegister_of_ne (m : Machine σ) {r s : Register} (w : Word) (h : r ≠ s) :
    (m.setRegister r w).register s = m.register s := by
  have : r.val ≠ s.val := fun e => h (Fin.ext e)
  simp [register, setRegister, this]

@[simp] theorem memory_setRegister (m : Machine σ) (r : Register) (w : Word) :
    (m.setRegister r w).memory = m.memory := rfl

/-! ## Loading -/

def overwrite (memory : Vector Word memorySize) (address : Nat) (words : Array Word) :
    Vector Word memorySize :=
  Vector.ofFn fun i : Fin memorySize =>
    if h : address ≤ i.val ∧ i.val - address < words.size then words[i.val - address]
    else memory[i]

def memoryEnd : Word := 65536

def load (address : Word) (words : List Word) : EStateM LoadFault (Machine σ) Unit := fun m =>
  -- Beyond the end of memory the difference would wrap around.
  if memoryEnd < address ∨ (memoryEnd - address).toNat < words.length then
    .error (.outOfRange words.length address) m
  else
    let loaded := { m with memory := overwrite m.memory address.toNat words.toArray }
    .ok () (loaded.setRegister Register.instructionPointer address)

def loadImage (bytes : Bytes) : EStateM LoadFault (Machine σ) Unit := fun m =>
  match deserialize? bytes with
  | some words => load 0 words m
  | none => .error (.ragged bytes.length) m

/-! ## Memory and operands -/

def inspect (f : Machine σ → Except Fault α) : Exec σ α := fun m =>
  match f m with
  | .ok x => .ok x m
  | .error fault => .error fault m

def readWord (m : Machine σ) (address : Word) : Except Fault Word :=
  if h : address.toNat < memorySize then .ok m.memory[address.toNat] else .error (.badRead address)

def writeWord (address w : Word) : Exec σ Unit := fun m =>
  if h : address.toNat < memorySize then
    .ok () { m with memory := m.memory.set address.toNat w h }
  else .error (.badWrite address) m

def direct (m : Machine σ) (x : Operand) : Except Fault Word :=
  match x.mode.kind? with
  | some .literal => .ok x.value
  | some .memory => m.readWord x.value
  | some .register =>
      match Register.ofWord? x.value with
      | some r => .ok (m.register r)
      | none => .error (.noRegister x.value)
  | none => .error (.noKind x.mode)

def value (m : Machine σ) (x : Operand) : Except Fault Word :=
  match m.direct x with
  | .error fault => .error fault
  | .ok w => if x.mode.isIndirect then m.readWord w else .ok w

/-- Store a word where an operand stands for.  An indirect operand gives the address, a direct one
is itself the place, which a literal is not. -/
def store (x : Operand) (w : Word) : Exec σ Unit := fun m =>
  match x.mode.kind? with
  | some .literal =>
      if x.mode.isIndirect then writeWord x.value w m else .error .literalDestination m
  | some .memory =>
      if h : x.value.toNat < memorySize then
        writeWord (if x.mode.isIndirect then m.memory[x.value.toNat] else x.value) w m
      else .error (.badWrite x.value) m
  | some .register =>
      match Register.ofWord? x.value with
      | some r =>
          if x.mode.isIndirect then writeWord (m.register r) w m else .ok () (m.setRegister r w)
      | none => .error (.noRegister x.value) m
  | none => .error (.noKind x.mode) m

@[simp] theorem inspect_ok {f : Machine σ → Except Fault α} {m : Machine σ} {x : α}
    (h : f m = .ok x) : inspect f m = .ok x m := by
  simp [inspect, h]

/-! ## The stack -/

/-- Put a word on the stack.  The stack is full when its next word would lie below address zero. -/
def push (w : Word) : Exec σ Unit := fun m =>
  let count := m.register Register.stackCount
  let base := m.register Register.stackBase
  if base < count then .error .stackOverflow m
  else
    match writeWord (base - count) w m with
    | .error fault m => .error fault m
    | .ok () m => .ok () (m.setRegister Register.stackCount (count + 1))

def pop : Exec σ Word := fun m =>
  let count := m.register Register.stackCount
  let base := m.register Register.stackBase
  if count = 0 then .error .stackUnderflow m
  else
    match m.readWord (base - (count - 1)) with
    | .error fault => .error fault m
    | .ok w => .ok w (m.setRegister Register.stackCount (count - 1))

end Machine

end WordMachine
