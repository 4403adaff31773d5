import WordMachine.Listing
import Mathlib.Data.List.Basic

/-!
# The lines of a listing

A listing has the lines of its blocks one after another.  The lines of a block depend on those
before it only by the address that these lead up to, which decides whether the block needs a base.
-/

namespace WordMachine.Listing

/-! ## Addresses -/

/-- The address after a line that is met with an address: a base sets it, and an instruction moves
it on by one block. -/
def Entry.addressAfter (address : Word) : Entry → Word
  | .base next => next
  | .instruction .. => address + 4
  | .remark .. | .label _ => address

/-- The address that lines lead up to from an address. -/
def addressBehind (start : Word) (lines : List Entry) : Word :=
  lines.foldl Entry.addressAfter start

theorem addressBehind_append (start : Word) (lines more : List Entry) :
    addressBehind start (lines ++ more) = addressBehind (addressBehind start lines) more :=
  List.foldl_append

/-! ## Blocks one after another -/

section Blocks

variable {targets : Targets} {b : SweptBlock} {op : Opcode}

theorem entriesFrom_cons_error {defect : Instruction.Defect} (invalid : b.validate = .error defect)
    (cursor : Word) (rest : List SweptBlock) :
    entriesFrom targets [] cursor (b :: rest) =
      .remark b.address defect b.block :: entriesFrom targets [] cursor rest := by
  rw [entriesFrom, invalid]
  exact entriesFrom_append targets [] [.remark b.address defect b.block] cursor rest

theorem entriesFrom_cons_ok (valid : b.validate = .ok op) (cursor : Word)
    (rest : List SweptBlock) :
    entriesFrom targets [] cursor (b :: rest) =
      instructionEntries targets cursor b op ++ entriesFrom targets [] (b.address + 4) rest := by
  have split := entriesFrom_append targets [] (instructionEntries targets cursor b op).reverse
    (b.address + 4) rest
  rw [List.nil_append, List.reverse_reverse] at split
  rw [entriesFrom, valid]
  dsimp only
  rw [List.append_nil, split]

def baseEntries (cursor : Word) (b : SweptBlock) : List Entry :=
  if b.address = cursor then [] else [.base b.address]

theorem addressBehind_baseEntries (cursor : Word) (b : SweptBlock) :
    addressBehind cursor (baseEntries cursor b) = b.address := by
  unfold baseEntries
  split
  · rename_i here
    exact here.symm
  · rfl

theorem instructionEntries_of_label {role : Role} (named : targets[b.address]? = some role)
    (cursor : Word) :
    instructionEntries targets cursor b op =
      baseEntries cursor b ++ [.label (role.labelAt b.address),
        .instruction op (operandTexts targets op b.instruction)] := by
  rw [instructionEntries, named, List.append_assoc]
  rfl

theorem instructionEntries_of_none (unnamed : targets[b.address]? = none) (cursor : Word) :
    instructionEntries targets cursor b op =
      baseEntries cursor b ++ [.instruction op (operandTexts targets op b.instruction)] := by
  rw [instructionEntries, unnamed, List.append_nil]
  rfl

theorem addressBehind_instructionEntries (targets : Targets) (cursor : Word) (b : SweptBlock)
    (op : Opcode) :
    addressBehind cursor (instructionEntries targets cursor b op) = b.address + 4 := by
  cases named : targets[b.address]? with
  | none =>
      rw [instructionEntries_of_none named, addressBehind_append, addressBehind_baseEntries]
      rfl
  | some role =>
      rw [instructionEntries_of_label named, addressBehind_append, addressBehind_baseEntries]
      rfl

theorem entriesFrom_append_blocks (targets : Targets) (cursor : Word)
    (before after : List SweptBlock) :
    entriesFrom targets [] cursor (before ++ after) =
      entriesFrom targets [] cursor before ++
        entriesFrom targets [] (addressBehind cursor (entriesFrom targets [] cursor before))
          after := by
  induction before generalizing cursor with
  | nil => rfl
  | cons b before ih =>
      rw [List.cons_append]
      cases checked : b.validate with
      | error defect =>
          rw [entriesFrom_cons_error checked, entriesFrom_cons_error checked, ih]
          rfl
      | ok op =>
          rw [entriesFrom_cons_ok checked, entriesFrom_cons_ok checked, ih, addressBehind_append,
            addressBehind_instructionEntries, List.append_assoc]

theorem exists_around {blocks : List SweptBlock} (member : b ∈ blocks) (valid : b.validate = .ok op)
    (cursor : Word) :
    ∃ before after, entriesFrom targets [] cursor blocks =
      before ++ instructionEntries targets (addressBehind cursor before) b op ++ after := by
  rcases List.append_of_mem member with ⟨earlier, later, rfl⟩
  refine ⟨entriesFrom targets [] cursor earlier, entriesFrom targets [] (b.address + 4) later, ?_⟩
  rw [entriesFrom_append_blocks, entriesFrom_cons_ok valid, List.append_assoc]

/-- The label of a block stands directly before its instruction, at the address of the block. -/
theorem exists_label_line {blocks : List SweptBlock} {role : Role} (member : b ∈ blocks)
    (valid : b.validate = .ok op) (named : targets[b.address]? = some role) (cursor : Word) :
    ∃ before after, entriesFrom targets [] cursor blocks =
        before ++ .label (role.labelAt b.address) ::
          .instruction op (operandTexts targets op b.instruction) :: after ∧
      addressBehind cursor before = b.address := by
  rcases exists_around member valid cursor with ⟨before, after, around⟩
  refine ⟨before ++ baseEntries (addressBehind cursor before) b, after, ?_, ?_⟩
  · rw [around, instructionEntries_of_label named]
    simp
  · rw [addressBehind_append, addressBehind_baseEntries]

theorem label_not_mem_baseEntries (cursor : Word) (b : SweptBlock) (name : String) :
    .label name ∉ baseEntries cursor b := by
  unfold baseEntries
  split <;> simp

/-- A label and what follows it: the name is that of a block, whose instruction comes next. -/
inductive LabelOf (targets : Targets) (b : SweptBlock) : String → List Entry → Prop
  | intro {op : Opcode} {role : Role} (valid : b.validate = .ok op)
      (named : targets[b.address]? = some role) (rest : List Entry) :
      LabelOf targets b (role.labelAt b.address)
        (.instruction op (operandTexts targets op b.instruction) :: rest)

theorem labelOf_of_instructionEntries (valid : b.validate = .ok op) {cursor : Word} {name : String}
    {before own : List Entry}
    (split : instructionEntries targets cursor b op = before ++ .label name :: own)
    (rest : List Entry) :
    LabelOf targets b name (own ++ rest) ∧ addressBehind cursor before = b.address := by
  have no_label := label_not_mem_baseEntries cursor b name
  cases named : targets[b.address]? with
  | none =>
      have member : .label name ∈ instructionEntries targets cursor b op := by
        rw [split]
        exact List.mem_append_right before List.mem_cons_self
      rw [instructionEntries_of_none named] at member
      simp [no_label] at member
  | some role =>
      rw [instructionEntries_of_label named,
        List.append_cons_inj_of_notMem no_label (by simp)] at split
      obtain ⟨rfl, same, rfl⟩ := split
      cases same
      exact ⟨.intro valid named rest, addressBehind_baseEntries cursor b⟩

theorem exists_labelOf {cursor : Word} {blocks : List SweptBlock} {name : String}
    {before after : List Entry}
    (split : entriesFrom targets [] cursor blocks = before ++ .label name :: after) :
    ∃ b ∈ blocks, LabelOf targets b name after ∧ addressBehind cursor before = b.address := by
  induction blocks generalizing cursor before with
  | nil => simp [entriesFrom] at split
  | cons b blocks ih =>
      suffices found : LabelOf targets b name after ∧ addressBehind cursor before = b.address ∨
          ∃ x ∈ blocks, LabelOf targets x name after ∧ addressBehind cursor before = x.address by
        simpa using found
      cases checked : b.validate with
      | error defect =>
          rw [entriesFrom_cons_error checked] at split
          cases before with
          | nil => cases split
          | cons e before =>
              rw [List.cons_append, List.cons.injEq] at split
              obtain ⟨rfl, later⟩ := split
              have found := ih later
              exact .inr found
      | ok op =>
          rw [entriesFrom_cons_ok checked, List.append_eq_append_iff] at split
          rcases split with ⟨between, rfl, later⟩ | ⟨own, lines, here⟩
          · rw [addressBehind_append, addressBehind_instructionEntries]
            exact .inr (ih later)
          · cases own with
            | nil =>
                rw [List.append_nil] at lines
                rw [List.nil_append, ← List.nil_append (Entry.label name :: after)] at here
                rw [← lines, addressBehind_instructionEntries]
                exact .inr (ih here.symm)
            | cons e own =>
                obtain ⟨rfl, rfl⟩ := List.cons.inj here
                exact .inl (labelOf_of_instructionEntries checked lines _)

theorem instruction_mem {blocks : List SweptBlock} (member : b ∈ blocks)
    (valid : b.validate = .ok op) (cursor : Word) :
    .instruction op (operandTexts targets op b.instruction) ∈
      entriesFrom targets [] cursor blocks := by
  rcases exists_around member valid cursor with ⟨before, after, around⟩
  rw [around, instructionEntries]
  simp

end Blocks

/-! ## The block of a line -/

/-- A line is one of those that a block can give rise to. -/
inductive Entry.OfBlock (targets : Targets) (b : SweptBlock) : Entry → Prop
  | remark {defect : Instruction.Defect} (invalid : b.validate = .error defect) :
      OfBlock targets b (.remark b.address defect b.block)
  | base {op : Opcode} (valid : b.validate = .ok op) : OfBlock targets b (.base b.address)
  | label {op : Opcode} {role : Role} (valid : b.validate = .ok op)
      (named : targets[b.address]? = some role) :
      OfBlock targets b (.label (role.labelAt b.address))
  | instruction {op : Opcode} (valid : b.validate = .ok op) :
      OfBlock targets b (.instruction op (operandTexts targets op b.instruction))

theorem ofBlock_of_mem_instructionEntries {targets : Targets} {cursor : Word} {b : SweptBlock}
    {op : Opcode} (valid : b.validate = .ok op) {e : Entry}
    (member : e ∈ instructionEntries targets cursor b op) : e.OfBlock targets b := by
  have base (h : e ∈ baseEntries cursor b) : e.OfBlock targets b := by
    unfold baseEntries at h
    split at h
    · cases h
    · rw [List.mem_singleton.1 h]
      exact .base valid
  cases named : targets[b.address]? with
  | none =>
      rw [instructionEntries_of_none named, List.mem_append, List.mem_singleton] at member
      rcases member with first | rfl
      · exact base first
      · exact .instruction valid
  | some role =>
      rw [instructionEntries_of_label named, List.mem_append] at member
      simp only [List.mem_cons, List.not_mem_nil, or_false] at member
      rcases member with first | rfl | rfl
      · exact base first
      · exact .label valid named
      · exact .instruction valid

theorem exists_ofBlock {targets : Targets} {cursor : Word} {blocks : List SweptBlock} {e : Entry}
    (member : e ∈ entriesFrom targets [] cursor blocks) : ∃ b ∈ blocks, e.OfBlock targets b := by
  induction blocks generalizing cursor with
  | nil => cases member
  | cons b rest ih =>
      cases checked : b.validate with
      | error defect =>
          rw [entriesFrom_cons_error checked] at member
          rcases List.mem_cons.1 member with rfl | later
          · exact ⟨b, List.mem_cons_self, .remark checked⟩
          · rcases ih later with ⟨x, among, own⟩
            exact ⟨x, List.mem_cons_of_mem b among, own⟩
      | ok op =>
          rw [entriesFrom_cons_ok checked] at member
          rcases List.mem_append.1 member with first | later
          · exact ⟨b, List.mem_cons_self, ofBlock_of_mem_instructionEntries checked first⟩
          · rcases ih later with ⟨x, among, own⟩
            exact ⟨x, List.mem_cons_of_mem b among, own⟩

end WordMachine.Listing
