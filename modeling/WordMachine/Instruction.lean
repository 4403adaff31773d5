import WordMachine.Opcode
import WordMachine.Operand

/-!
# Instructions

Every block of four words reads as an instruction and is written back unchanged; whether the
instruction means something is a check of its own.  The control word holds, from the top, 24
reserved bits, the opcode, the flags and the modes of the three operands.
-/

namespace WordMachine

/-- The fields of an instruction as they stand in memory. -/
structure Instruction where
  opcode : UInt8
  flags : UInt8
  reserved : UInt32
  a : Operand
  b : Operand
  c : Operand
  deriving DecidableEq, Repr

namespace Instruction

def operands (i : Instruction) : List Operand :=
  [i.a, i.b, i.c]

/-- The control word; only the low 24 reserved bits have a place in it. -/
def control (i : Instruction) : Word :=
  i.reserved.toUInt64 <<< 40 ||| i.opcode.toUInt64 <<< 32 ||| i.flags.toUInt64 <<< 24 |||
    i.a.mode.bits.toUInt64 <<< 16 ||| i.b.mode.bits.toUInt64 <<< 8 ||| i.c.mode.bits.toUInt64

def encode (i : Instruction) : Block :=
  ⟨i.control, i.a.value, i.b.value, i.c.value⟩

def decode (block : Block) : Instruction where
  opcode := (block.control >>> 32).toUInt8
  flags := (block.control >>> 24).toUInt8
  reserved := (block.control >>> 40).toUInt32
  a := ⟨⟨(block.control >>> 16).toUInt8⟩, block.a⟩
  b := ⟨⟨(block.control >>> 8).toUInt8⟩, block.b⟩
  c := ⟨⟨block.control.toUInt8⟩, block.c⟩

inductive Defect where
  | opcode (code : UInt8)
  | reserved (op : Opcode) (bits : UInt32)
  | flags (op : Opcode) (bits : UInt8)
  | unused (op : Opcode) (slot : Nat)
  | mode (op : Opcode) (mode : Mode) (slot : Nat)
  | register (op : Opcode) (number : Word) (slot : Nat)
  deriving DecidableEq, Repr

namespace Defect

def message : Defect → String
  | .opcode code => s!"invalid opcode {code}"
  | .reserved op bits =>
      op.mnemonic ++ ": reserved control bits set (0x" ++ Numeral.hex 1 bits.toNat ++ ")"
  | .flags op bits => op.mnemonic ++ ": unsupported flags 0x" ++ Numeral.hex 2 bits.toNat
  | .unused op slot => op.mnemonic ++ s!": unused operand {slot} is not empty"
  | .mode op m slot =>
      op.mnemonic ++ ": invalid addressing mode " ++ m.description ++ s!" for operand {slot}"
  | .register op number slot =>
      op.mnemonic ++ s!": invalid register {number} for operand {slot}"

end Defect

/-- Check operand number `slot`: beyond the arity it is empty, below it has a kind, and a register
operand names a register. -/
def checkOperand (op : Opcode) (slot : Nat) (x : Operand) : Except Defect Unit :=
  if op.arity ≤ slot then
    if x = .empty then .ok () else .error (.unused op slot)
  else
    match x.mode.kind? with
    | none => .error (.mode op x.mode slot)
    | some .register =>
        if x.value.toNat < registerCount then .ok () else .error (.register op x.value slot)
    | some _ => .ok ()

def validate (i : Instruction) : Except Defect Opcode :=
  match Opcode.ofCode? i.opcode with
  | none => .error (.opcode i.opcode)
  | some op => do
      if i.reserved ≠ 0 then throw (.reserved op i.reserved)
      if i.flags ≠ 0 then throw (.flags op i.flags)
      checkOperand op 0 i.a
      checkOperand op 1 i.b
      checkOperand op 2 i.c
      return op

end Instruction

end WordMachine
