import WordMachine.Word

/-!
# Opcodes

The operations of the machine, their numbers, their mnemonics and how many operands each takes.
-/

namespace WordMachine

inductive Opcode where
  | nop
  | halt
  | push
  | pop
  | add
  | sub
  | mul
  | div
  | shl
  | shr
  | mod
  | inc
  | dec
  | not
  | cmp
  | mov
  | call
  | ret
  | jmp
  | jeq
  | jne
  | jnz
  | rdrand
  deriving DecidableEq, Repr

namespace Opcode

def all : List Opcode :=
  [nop, halt, push, pop, add, sub, mul, div, shl, shr, mod, inc, dec, not, cmp, mov, call, ret,
    jmp, jeq, jne, jnz, rdrand]

def code : Opcode → UInt8
  | nop => 0
  | halt => 1
  | push => 2
  | pop => 3
  | add => 4
  | sub => 5
  | mul => 6
  | div => 7
  | shl => 8
  | shr => 9
  | mod => 10
  | inc => 11
  | dec => 12
  | not => 13
  | cmp => 14
  | mov => 15
  | call => 16
  | ret => 17
  | jmp => 18
  | jeq => 19
  | jne => 20
  | jnz => 21
  | rdrand => 22

def mnemonic : Opcode → String
  | nop => "nop"
  | halt => "halt"
  | push => "push"
  | pop => "pop"
  | add => "add"
  | sub => "sub"
  | mul => "mul"
  | div => "div"
  | shl => "shl"
  | shr => "shr"
  | mod => "mod"
  | inc => "inc"
  | dec => "dec"
  | not => "not"
  | cmp => "cmp"
  | mov => "mov"
  | call => "call"
  | ret => "ret"
  | jmp => "jmp"
  | jeq => "jeq"
  | jne => "jne"
  | jnz => "jnz"
  | rdrand => "rdrand"

def arity : Opcode → Nat
  | nop | halt | ret => 0
  | push | pop | inc | dec | not | call | jmp => 1
  | mov | jnz => 2
  | add | sub | mul | div | shl | shr | mod | cmp | jeq | jne | rdrand => 3

/-- Whether the first operand is the address of an instruction. -/
def isJump : Opcode → Bool
  | call | jmp | jeq | jne | jnz => true
  | _ => false

def ofCode? (n : UInt8) : Option Opcode :=
  all[n.toNat]?

@[simp] theorem ofCode?_code (op : Opcode) : ofCode? op.code = some op := by
  cases op <;> rfl

theorem code_eq_of_ofCode? {n : UInt8} {op : Opcode} (h : ofCode? n = some op) : op.code = n := by
  have codes : forall i : Fin all.length, (all.get i).code.toNat = i.val := by decide
  obtain ⟨bound, rfl⟩ := List.getElem?_eq_some_iff.1 h
  exact UInt8.toNat_inj.1 (codes ⟨n.toNat, bound⟩)

def ofMnemonic? (name : Bytes) : Option Opcode :=
  all.find? fun op => Bytes.ofString op.mnemonic == name

@[simp] theorem ofMnemonic?_mnemonic (op : Opcode) :
    ofMnemonic? (Bytes.ofString op.mnemonic) = some op := by
  cases op <;> decide

/-- The text for an opcode number, also for one that no opcode has. -/
def nameOfCode (n : UInt8) : String :=
  match ofCode? n with
  | some op => op.mnemonic
  | none => s!"op({n})"

end Opcode

end WordMachine
