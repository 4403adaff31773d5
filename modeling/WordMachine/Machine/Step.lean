import WordMachine.Machine.Basic

/-!
# Steps

One step fetches the block at the instruction pointer, checks it, moves the pointer and the count
on, and executes the instruction.
-/

namespace WordMachine

namespace Machine

variable {σ : Type}

/-- The block at an address, unless it runs over the end of memory. -/
def block? (m : Machine σ) (address : Word) : Option Block :=
  if h : address.toNat + 4 ≤ memorySize then
    some
      ⟨m.memory[address.toNat], m.memory[address.toNat + 1], m.memory[address.toNat + 2],
        m.memory[address.toNat + 3]⟩
  else none

def fetch (m : Machine σ) : Except StepFault (Opcode × Instruction) :=
  let address := m.register Register.instructionPointer
  match m.block? address with
  | none => .error (.fetch address)
  | some block =>
      match (Instruction.decode block).validate with
      | .error defect => .error (.illegal address defect)
      | .ok op => .ok (op, .decode block)

/-- Move the instruction pointer to the next block and count the instruction. -/
def advance (m : Machine σ) : Machine σ :=
  (m.setRegister .instructionPointer (m.register .instructionPointer + 4)).setRegister
    .instructionCount (m.register .instructionCount + 1)

def sourceValues (m : Machine σ) (i : Instruction) : Except Fault (Word × Word) :=
  match m.value i.b with
  | .error fault => .error (.source 1 fault)
  | .ok b =>
      match m.value i.c with
      | .error fault => .error (.source 2 fault)
      | .ok c => .ok (b, c)

def jump (address : Word) : Exec σ Unit := fun m =>
  .ok () (m.setRegister Register.instructionPointer address)

def drawWord [RandomSource σ] : Exec σ Word := fun m =>
  match RandomSource.word m.source with
  | (w, source) => .ok w { m with source }

def drawBelow [RandomSource σ] (n : Word) : Exec σ Word := fun m =>
  match RandomSource.below n m.source with
  | (w, source) => .ok w { m with source }

def binary (i : Instruction) (f : Word → Word → Word) : Exec σ Unit := do
  let (b, c) ← inspect (·.sourceValues i)
  store i.a (f b c)

def unary (i : Instruction) (f : Word → Word) : Exec σ Unit := do
  let a ← inspect (·.value i.a)
  store i.a (f a)

/-- Jump to the first operand if a condition holds; otherwise the operand is not read. -/
def branch (i : Instruction) (condition : Bool) : Exec σ Unit :=
  if condition then do
    let target ← inspect (·.value i.a)
    jump target
  else pure ()

def execute [RandomSource σ] (op : Opcode) (i : Instruction) : Exec σ Unit :=
  match op with
  | .nop => pure ()
  | .halt => modify fun m => { m with running := false }
  | .push => do
      let a ← inspect (·.value i.a)
      push a
  | .pop => do
      -- The word has left the stack even if it cannot be stored.
      let w ← pop
      store i.a w
  | .add => binary i fun b c => b + c
  | .sub => binary i fun b c => b - c
  | .mul => binary i fun b c => b * c
  | .div => do
      let (b, c) ← inspect (·.sourceValues i)
      if c = 0 then throw .divisionByZero
      store i.a (b / c)
      -- The remainder comes last, and replaces a quotient that has been stored in its register.
      modify (·.setRegister Register.remainder (b % c))
  | .shl => binary i Word.shiftLeft
  | .shr => binary i Word.shiftRight
  | .mod => do
      let (b, c) ← inspect (·.sourceValues i)
      if c = 0 then throw .divisionByZero
      store i.a (b % c)
  | .inc => unary i fun a => a + 1
  | .dec => unary i fun a => a - 1
  | .not => unary i fun a => ~~~a
  | .cmp => binary i Word.order
  | .mov => do
      let b ← inspect (·.value i.b)
      store i.a b
  | .call => do
      let target ← inspect (·.value i.a)
      let back := (← get).register Register.instructionPointer
      push back
      jump target
  | .ret => do
      let back ← pop
      jump back
  | .jmp => branch i true
  | .jeq => do
      let (b, c) ← inspect (·.sourceValues i)
      branch i (b = c)
  | .jne => do
      let (b, c) ← inspect (·.sourceValues i)
      branch i (b ≠ c)
  | .jnz => do
      let b ← inspect (·.value i.b)
      branch i (b ≠ 0)
  | .rdrand => do
      let (low, high) ← inspect (·.sourceValues i)
      if low = 0 ∧ high = 0 then
        let w ← drawWord
        store i.a w
      else if high ≤ low then throw .emptyRange
      else
        let w ← drawBelow (high - low)
        store i.a (low + w)

/-- One step of a running machine; a stopped one stays as it is. -/
def step [RandomSource σ] : EStateM StepFault (Machine σ) Unit := fun m =>
  if m.running then
    match m.fetch with
    | .error fault => .error fault m
    | .ok (op, i) =>
        let address := m.register Register.instructionPointer
        match execute op i m.advance with
        | .ok () m => .ok () m
        | .error fault m => .error (.execution address op fault) m
  else .ok () m

end Machine

end WordMachine
