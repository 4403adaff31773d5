import WordMachine.Instruction
import Std.Data.TreeMap
import Std.Data.TreeSet

/-!
# Listings

A listing is source text for the valid instructions of a list of words.  A block that holds no valid
instruction is listed as a comment.  Plain literal targets of jumps that lie on a listed instruction
are named by labels, one kind of name for subroutines and one for all others.

A sweep reads words four at a time from address zero on.  Blocks of zeros are unused memory and are
left out, and so are words at the end that do not fill a block.
-/

namespace WordMachine

/-! ## Sweep -/

/-- A block that is not all zero, and its address. -/
structure SweptBlock where
  address : Word
  block : Block
  deriving DecidableEq, Repr

namespace SweptBlock

def instruction (b : SweptBlock) : Instruction :=
  .decode b.block

def validate (b : SweptBlock) : Except Instruction.Defect Opcode :=
  b.instruction.validate

end SweptBlock

def sweepFrom (done : List SweptBlock) : Word → List Word → List SweptBlock
  | address, control :: a :: b :: c :: rest =>
      let block : Block := ⟨control, a, b, c⟩
      sweepFrom (if block = .zero then done else ⟨address, block⟩ :: done) (address + 4) rest
  | _, _ => done.reverse

def sweep (words : List Word) : List SweptBlock :=
  sweepFrom [] 0 words

/-! ## Lines -/

/-- An operand as it is written in source text; without a kind it cannot be read back. -/
def Operand.render (x : Operand) : String :=
  let direct :=
    match x.mode.kind? with
    | some .register => ((Register.ofWord? x.value).map Register.name).getD ""
    | some .literal => s!"#{x.value}"
    | some .memory => s!"{x.value}"
    | none => s!"?{x.value}"
  if x.mode.isIndirect then "[" ++ direct ++ "]" else direct

namespace Listing

inductive Role where
  | branch
  | subroutine
  deriving DecidableEq, Repr

abbrev Targets := Std.TreeMap Word Role

def Role.labelAt (address : Word) : Role → String
  | .branch => "loc_" ++ Numeral.upperHex 4 address.toNat
  | .subroutine => "sub_" ++ Numeral.upperHex 4 address.toNat

def plainTarget? (op : Opcode) (i : Instruction) : Option Word :=
  if op.isJump ∧ i.a.mode = Mode.of .literal false then some i.a.value else none

def validAddresses (blocks : List SweptBlock) : Std.TreeSet Word :=
  .ofList ((blocks.filter (·.validate.isOk)).map (·.address))

/-- Note the target of a block if it lies on a valid instruction.  A call makes it a subroutine for
good. -/
def addTarget (valid : Std.TreeSet Word) (targets : Targets) (b : SweptBlock) : Targets :=
  match b.validate with
  | .error _ => targets
  | .ok op =>
      match plainTarget? op b.instruction with
      | none => targets
      | some address =>
          if address ∈ valid then
            if op = .call then targets.insert address .subroutine
            else targets.insertIfNew address .branch
          else targets

def targetsOf (blocks : List SweptBlock) : Targets :=
  blocks.foldl (addTarget (validAddresses blocks)) ∅

inductive Entry where
  | remark (address : Word) (defect : Instruction.Defect) (block : Block)
  | base (address : Word)
  | label (name : String)
  | instruction (op : Opcode) (operands : List String)
  deriving DecidableEq, Repr

namespace Entry

/-- The text of a line, with its end. -/
def render : Entry → String
  | remark address defect block =>
      s!"; {address}: " ++ defect.message ++ ": " ++
        " ".intercalate (block.words.map fun w => Numeral.hex 16 w.toNat) ++ "\n"
  | base address => s!".base {address}\n"
  | label name => name ++ ":\n"
  | instruction op [] => "    " ++ op.mnemonic ++ "\n"
  | instruction op operands =>
      "    " ++ Numeral.padRight 8 op.mnemonic ++ " " ++ " ".intercalate operands ++ "\n"

end Entry

def operandTexts (targets : Targets) (op : Opcode) (i : Instruction) : List String :=
  let texts := (i.operands.take op.arity).map Operand.render
  match (plainTarget? op i).bind fun address => targets[address]?.map (Role.labelAt address) with
  | some name => (":" ++ name) :: texts.drop 1
  | none => texts

/-- The lines for the instruction of a block: a base if the block does not follow the one before, a
label if it has one, and the instruction. -/
def instructionEntries (targets : Targets) (cursor : Word) (b : SweptBlock) (op : Opcode) :
    List Entry :=
  (if b.address = cursor then [] else [.base b.address]) ++
    (match targets[b.address]? with
      | some role => [.label (role.labelAt b.address)]
      | none => []) ++
    [.instruction op (operandTexts targets op b.instruction)]

def entriesFrom (targets : Targets) (done : List Entry) : Word → List SweptBlock → List Entry
  | _, [] => done.reverse
  | cursor, b :: rest =>
      match b.validate with
      | .error defect =>
          entriesFrom targets (.remark b.address defect b.block :: done) cursor rest
      | .ok op =>
          entriesFrom targets ((instructionEntries targets cursor b op).reverse ++ done)
            (b.address + 4) rest

theorem entriesFrom_append (targets : Targets) (done more : List Entry) (cursor : Word)
    (blocks : List SweptBlock) :
    entriesFrom targets (done ++ more) cursor blocks =
      more.reverse ++ entriesFrom targets done cursor blocks := by
  induction blocks generalizing done cursor with
  | nil => simp [entriesFrom]
  | cons b rest ih =>
      unfold entriesFrom
      split
      · rw [← List.cons_append, ih]
      · rw [← List.append_assoc, ih]

def entries (words : List Word) : List Entry :=
  let blocks := sweep words
  entriesFrom (targetsOf blocks) [] 0 blocks

def textLines (words : List Word) : List String :=
  (entries words).map Entry.render

def ofWords (words : List Word) : String :=
  String.join (textLines words)

inductive Failure where
  | tooLarge (size : Nat)
  | ragged (size : Nat)
  deriving DecidableEq, Repr

def Failure.message : Failure → String
  | .tooLarge size => s!"image is {size} bytes, larger than {memorySize * 8}"
  | .ragged size => s!"image length {size} is not a multiple of 8"

def ofBytes (bytes : Bytes) : Except Failure String :=
  if memorySize * 8 < bytes.length then .error (.tooLarge bytes.length)
  else
    match deserialize? bytes with
    | some words => .ok (ofWords words)
    | none => .error (.ragged bytes.length)

end Listing

end WordMachine
