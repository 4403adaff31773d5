import WordMachine.Word

/-!
# Registers and operands

There are sixteen general registers and five with a role of their own.

An operand is a word together with a mode, which says what the word stands for: the value itself, a
memory address or a register number.  An indirect operand goes one memory access further.
-/

namespace WordMachine

/-! ## Registers -/

abbrev registerCount : Nat := 21

abbrev Register := Fin registerCount

namespace Register

abbrev instructionPointer : Register := 16

abbrev instructionCount : Register := 17

abbrev stackCount : Register := 18

/-- The address of the oldest word on the stack, which grows down from there. -/
abbrev stackBase : Register := 19

abbrev remainder : Register := 20

def names : List String :=
  ["r0", "r1", "r2", "r3", "r4", "r5", "r6", "r7",
    "r8", "r9", "r10", "r11", "r12", "r13", "r14", "r15",
    "rIP", "rIC", "rSP", "rSBP", "rRMD"]

def name (r : Register) : String :=
  names.get r

def all : List Register :=
  List.finRange registerCount

/-- The register of a name; upper and lower case differ. -/
def ofName? (name : Bytes) : Option Register :=
  all.find? fun r => Bytes.ofString r.name == name

theorem ofName?_name (r : Register) : ofName? (Bytes.ofString r.name) = some r := by
  revert r
  decide

def ofWord? (w : Word) : Option Register :=
  if h : w.toNat < registerCount then some ⟨w.toNat, h⟩ else none

theorem ofWord?_eq_some_iff {w : Word} {r : Register} : ofWord? w = some r ↔ w.toNat = r.val := by
  unfold ofWord?
  split
  · rw [Option.some.injEq, Fin.ext_iff]
  · constructor
    · simp
    · intro h
      have := r.isLt
      omega

end Register

/-! ## Operands -/

/-- The mode byte of an operand.  Every byte can occur in memory; few are valid. -/
structure Mode where
  bits : UInt8
  deriving DecidableEq, Repr

namespace Mode

inductive Kind where
  | literal
  | memory
  | register
  deriving DecidableEq, Repr

def Kind.bit : Kind → UInt8
  | .literal => 2
  | .memory => 4
  | .register => 8

def none : Mode := ⟨0⟩

def of (kind : Kind) (indirect : Bool) : Mode :=
  ⟨if indirect then kind.bit ||| 1 else kind.bit⟩

def isIndirect (mode : Mode) : Bool :=
  mode.bits &&& 1 != 0

def kindBits (mode : Mode) : UInt8 :=
  mode.bits &&& 0xfe

/-- The kind of a mode, unless the byte sets no or several kind bits or an undefined one. -/
def kind? (mode : Mode) : Option Kind :=
  if mode.kindBits = 2 then some .literal
  else if mode.kindBits = 4 then some .memory
  else if mode.kindBits = 8 then some .register
  else Option.none

@[simp] theorem kind?_of (kind : Kind) (indirect : Bool) :
    (of kind indirect).kind? = some kind := by
  cases kind <;> cases indirect <;> rfl

@[simp] theorem isIndirect_of (kind : Kind) (indirect : Bool) :
    (of kind indirect).isIndirect = indirect := by
  cases kind <;> cases indirect <;> rfl

/-- The names of the bits that are set, undefined ones together in hexadecimal. -/
def description (mode : Mode) : String :=
  if mode.bits = 0 then "none"
  else
    let named := [(1, "indirect"), (2, "literal"), (4, "memory"), (8, "register")]
    let known := (named.filter fun (bit, _) => mode.bits &&& bit != 0).map (·.2)
    let rest := mode.bits &&& 0xf0
    "|".intercalate (if rest = 0 then known else known ++ ["0x" ++ Numeral.hex 2 rest.toNat])

end Mode

structure Operand where
  mode : Mode
  value : Word
  deriving DecidableEq, Repr

namespace Operand

def empty : Operand := ⟨Mode.none, 0⟩

def literal (w : Word) : Operand :=
  ⟨Mode.of .literal false, w⟩

end Operand

end WordMachine
