import WordMachine.Instruction
import WordMachine.Source.Line
import Std.Data.TreeMap

/-!
# Encoding of statements

The operands of a statement are resolved against the addresses of labels, and the statement becomes
a block.
-/

namespace WordMachine

abbrev Labels := Std.TreeMap Bytes Word

namespace Token

def word (t : Token) : Except SourceError Word :=
  match Numeral.decimal? t.text with
  | some n => if n < UInt64.size then .ok (.ofNat n) else .error ⟨t.position, .wordOverflow t.raw⟩
  | none => .error ⟨t.position, .wordOverflow t.raw⟩

/-- What the token of an operand stands for: a number for the memory at that address, and a label
for its address as a literal. -/
def target (labels : Labels) (t : Token) : Except SourceError (Mode.Kind × Word) :=
  match t.kind with
  | .register =>
      match Register.ofName? t.text with
      | some r => .ok (.register, .ofNat r)
      | none => .error ⟨t.position, .unknownRegister t.raw⟩
  | .literal =>
      match t.word with
      | .ok w => .ok (.literal, w)
      | .error e => .error e
  | .number =>
      match t.word with
      | .ok w => .ok (.memory, w)
      | .error e => .error e
  | .labelRef =>
      match labels[t.text]? with
      | some address => .ok (.literal, address)
      | none => .error ⟨t.position, .undefinedLabel t.text⟩
  | kind => .error ⟨t.position, .notAnOperand kind t.raw⟩

end Token

def WrittenOperand.resolve (labels : Labels) (x : WrittenOperand) : Except SourceError Operand :=
  match x.token.target labels with
  | .ok (kind, w) => .ok ⟨Mode.of kind x.indirect, w⟩
  | .error e => .error e

namespace Statement

/-- The instruction of a statement: its mnemonic is known, its operands are as many as the opcode
takes, and each of them resolves. -/
def instruction (labels : Labels) (s : Statement) : Except SourceError Instruction :=
  match Opcode.ofMnemonic? s.mnemonic with
  | none => .error ⟨s.position, .unknownMnemonic s.mnemonic⟩
  | some op =>
      if s.operands.length ≠ op.arity then
        .error ⟨s.position, .operandCount op.mnemonic op.arity s.operands.length⟩
      else
        match s.operands.mapM (·.resolve labels) with
        | .error e => .error e
        | .ok operands =>
            .ok
              { opcode := op.code
                flags := 0
                reserved := 0
                a := operands[0]?.getD .empty
                b := operands[1]?.getD .empty
                c := operands[2]?.getD .empty }

def encode (labels : Labels) (s : Statement) : Except SourceError Block :=
  (s.instruction labels).map Instruction.encode

end Statement

end WordMachine
