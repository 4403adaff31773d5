import WordMachine.Proofs.Listing.Reading
import WordMachine.Proofs.Listing.Sweep
import WordMachine.Proofs.Listing.Targets

/-!
# Labels of listings

Labels are collected from all jumps of a listing first, and then written where they are defined and
where they are referred to.  In the text of the listing the two sides fit together: every reference
has one definition, directly before the instruction that it leads to, and every definition has a
reference.  What a line of text refers to and what it defines is read off its tokens.
-/

namespace WordMachine.Listing

/-! ## Tokens of a line -/

/-- A line of text has a token of a kind with a text. -/
def HasToken (kind : Token.Kind) (text : Bytes) (line : String) : Prop :=
  ∃ t ∈ tokenize (Bytes.ofString line), t.kind = kind ∧ t.text = text

instance (kind : Token.Kind) (text : Bytes) (line : String) : Decidable (HasToken kind text line) :=
  inferInstanceAs (Decidable (∃ t ∈ tokenize (Bytes.ofString line), t.kind = kind ∧ t.text = text))

theorem hasToken_iff {kind : Token.Kind} {text : Bytes} {line : String} {xs : List Lexeme}
    (row : IsRow (Bytes.ofString line) xs) (inside : kind ≠ .newline) :
    HasToken kind text line ↔ ∃ x ∈ xs, x.kind = kind ∧ x.kind.textOf x.raw = text := by
  have bare : HasToken kind text line ↔
      ∃ t ∈ (tokenize (Bytes.ofString line)).map Token.bare, t.kind = kind ∧ t.text = text := by
    simp [HasToken, Token.bare]
  rw [bare, row.map_bare_tokenize]
  simp [Lexeme.bare, Lexeme.newline, inside.symm]

/-! ## References -/

theorem mem_lexemes_iff {x : Spelling} {y : Lexeme} (reference : y.kind = .labelRef) :
    y ∈ x.lexemes ↔ y = x.atom.lexeme := by
  have opens : y ≠ ⟨.bracketOpen, [Ascii.bracketOpen]⟩ :=
    ne_of_apply_ne Lexeme.kind (by simp [reference])
  have closes : y ≠ ⟨.bracketClose, [Ascii.bracketClose]⟩ :=
    ne_of_apply_ne Lexeme.kind (by simp [reference])
  unfold Spelling.lexemes
  split <;> simp [opens, closes]

theorem mem_operandLexemes_iff {gap : Nat} {xs : List Spelling} {y : Lexeme}
    (reference : y.kind = .labelRef) :
    y ∈ operandLexemes gap xs ↔ ∃ x ∈ xs, y = x.atom.lexeme := by
  have no_blanks (n : Nat) : y ≠ .blanks n :=
    ne_of_apply_ne Lexeme.kind (by simp [reference, Lexeme.blanks])
  induction xs generalizing gap with
  | nil => simp [operandLexemes]
  | cons x xs ih => simp [operandLexemes, no_blanks, mem_lexemes_iff reference, ih]

theorem mem_instructionLexemes_iff {op : Opcode} {xs : List Spelling} {y : Lexeme}
    (reference : y.kind = .labelRef) :
    y ∈ instructionLexemes op xs ↔ ∃ x ∈ xs, y = x.atom.lexeme := by
  have no_blanks : y ≠ .blanks 4 :=
    ne_of_apply_ne Lexeme.kind (by simp [reference, Lexeme.blanks])
  have no_mnemonic : y ≠ ⟨.identifier, Bytes.ofString op.mnemonic⟩ :=
    ne_of_apply_ne Lexeme.kind (by simp [reference])
  simp [instructionLexemes, no_blanks, no_mnemonic, mem_operandLexemes_iff reference]

section References

variable {targets : Targets} {op : Opcode} {i : Instruction}

theorem target_of_mem_spellings {x : Spelling} {address : Word} {role : Role}
    (member : x ∈ spellings targets op i) (reference : x.atom = .reference address role) :
    plainTarget? op i = some address ∧ targets[address]? = some role := by
  have not_own : x ∉ (i.operands.take op.arity).map Spelling.ofOperand := by
    intro own
    rcases List.mem_map.1 own with ⟨operand, -, rfl⟩
    exact Spelling.ofOperand_ne_reference operand address role reference
  unfold spellings at member
  dsimp only at member
  cases plain : plainTarget? op i with
  | none =>
      rw [plain] at member
      exact absurd member not_own
  | some target =>
      rw [plain, Option.bind_some] at member
      cases named : targets[target]? with
      | none =>
          rw [named] at member
          exact absurd member not_own
      | some known =>
          rw [named, Option.map_some] at member
          rcases List.mem_cons.1 member with rfl | other
          · cases reference
            exact ⟨rfl, named⟩
          · exact absurd (List.mem_of_mem_drop other) not_own

/-- The references on the line of a valid instruction: there is one if the instruction jumps to an
address with a label. -/
theorem hasReference_iff (valid : i.Valid op) {text : Bytes} :
    HasToken .labelRef text (Entry.instruction op (operandTexts targets op i)).render ↔
      ∃ address role, plainTarget? op i = some address ∧ targets[address]? = some role ∧
        text = Bytes.ofString (role.labelAt address) := by
  rw [operandTexts_eq targets valid, hasToken_iff (isRow_instruction op _) (by decide)]
  constructor
  · intro found
    rcases found with ⟨y, member, reference, rfl⟩
    rcases (mem_instructionLexemes_iff reference).1 member with ⟨x, spelled, rfl⟩
    cases written : x.atom with
    | reference address role =>
        rcases target_of_mem_spellings spelled written with ⟨plain, named⟩
        exact ⟨address, role, plain, named, Atom.text_bare_reference address role⟩
    | register | literal | memory =>
        rw [written] at reference
        cases reference
  · intro jumps
    rcases jumps with ⟨address, role, plain, named, rfl⟩
    have spelled : ⟨false, .reference address role⟩ ∈ spellings targets op i := by
      rw [spellings, plain, Option.bind_some, named]
      exact List.mem_cons_self
    refine ⟨(Atom.reference address role).lexeme, ?_, rfl, Atom.text_bare_reference address role⟩
    exact (mem_instructionLexemes_iff rfl).2 ⟨_, spelled, rfl⟩

end References

/-! ## Definitions -/

section Definitions

variable {targets : Targets} {blocks : List SweptBlock}

theorem exists_of_label_mem {cursor : Word} {name : String}
    (member : .label name ∈ entriesFrom targets [] cursor blocks) :
    ∃ b ∈ blocks, ∃ op role, b.validate = .ok op ∧ targets[b.address]? = some role ∧
      name = role.labelAt b.address := by
  rcases exists_ofBlock member with ⟨b, among, own⟩
  cases own with
  | label valid named => exact ⟨b, among, _, _, valid, named, rfl⟩

theorem count_label_instructionEntries (targets : Targets) (cursor : Word) (b : SweptBlock)
    (op : Opcode) (name : String) :
    (instructionEntries targets cursor b op).count (.label name) ≤ 1 := by
  have base := List.count_eq_zero_of_not_mem (label_not_mem_baseEntries cursor b name)
  cases named : targets[b.address]? with
  | none =>
      rw [instructionEntries_of_none named, List.count_append, base]
      simp
  | some role =>
      rw [instructionEntries_of_label named, List.count_append, base, List.count_cons]
      split <;> simp

/-- No two definitions share a name, where no two blocks share an address. -/
theorem count_label_le_one (apart : blocks.Pairwise (·.address ≠ ·.address)) (cursor : Word)
    (name : String) : (entriesFrom targets [] cursor blocks).count (.label name) ≤ 1 := by
  induction blocks generalizing cursor with
  | nil => simp [entriesFrom]
  | cons b rest ih =>
      rcases List.pairwise_cons.1 apart with ⟨first, later⟩
      cases checked : b.validate with
      | error defect =>
          rw [entriesFrom_cons_error checked, List.count_cons_of_ne (by simp)]
          exact ih later cursor
      | ok op =>
          rw [entriesFrom_cons_ok checked, List.count_append]
          have own := count_label_instructionEntries targets cursor b op name
          have others := ih later (b.address + 4)
          by_cases here : Entry.label name ∈ instructionEntries targets cursor b op
          · -- The name tells the address of the block, which no later block has.
            have absent : Entry.label name ∉ entriesFrom targets [] (b.address + 4) rest := by
              intro again
              rcases exists_of_label_mem again with ⟨x, among, _, role, -, -, named⟩
              cases ofBlock_of_mem_instructionEntries checked here with
              | label _ _ => exact first x among (Role.labelAt_injective named)
            rw [List.count_eq_zero_of_not_mem absent]
            exact own
          · rw [List.count_eq_zero_of_not_mem here]
            omega

/-- Where a label is defined tells what it is named for: a subroutine if some call has it as its
target, and a branch if none has. -/
theorem stem_iff_of_targetsOf {address : Word} {role : Role}
    (named : (targetsOf blocks)[address]? = some role) :
    ((∃ digits, role.labelAt address = "sub_" ++ digits) ↔
        ∃ b ∈ blocks, b.JumpsTo .call address) ∧
      ((∃ digits, role.labelAt address = "loc_" ++ digits) ↔
        ¬ ∃ b ∈ blocks, b.JumpsTo .call address) := by
  have called := targetsOf_subroutine_iff named
  have subroutine := role.labelAt_eq_stem_append_iff address .subroutine
  have branch := role.labelAt_eq_stem_append_iff address .branch
  constructor
  · exact subroutine.trans called
  · rw [← called]
    refine branch.trans ?_
    cases role <;> simp

end Definitions

/-! ## Lines of text -/

section Lines

variable {targets : Targets} {b : SweptBlock} {e : Entry} {text : Bytes}

theorem hasToken_label_iff (address : Word) (role : Role) :
    HasToken .label text (Entry.label (role.labelAt address)).render ↔
      text = Bytes.ofString (role.labelAt address) := by
  rw [hasToken_iff (isRow_label address role) (by decide)]
  simp [Token.Kind.textOf, eq_comm]

theorem Entry.OfBlock.instruction_of_reference (own : e.OfBlock targets b)
    (reference : HasToken .labelRef text e.render) :
    ∃ op, b.validate = .ok op ∧ e = .instruction op (operandTexts targets op b.instruction) := by
  cases own with
  | @remark defect invalid =>
      rcases isRow_remark b.address defect b.block with ⟨raw, row⟩
      simp [hasToken_iff row] at reference
  | base valid =>
      simp [hasToken_iff (isRow_base b.address), operandLexemes, Lexeme.blanks, Spelling.lexemes,
        Atom.lexeme, Atom.kind] at reference
  | @label op role valid named =>
      simp [hasToken_iff (isRow_label b.address role)] at reference
  | instruction valid => exact ⟨_, valid, rfl⟩

theorem Entry.OfBlock.hasDefinition_iff (own : e.OfBlock targets b) :
    HasToken .label text e.render ↔ ∃ name, e = .label name ∧ text = Bytes.ofString name := by
  cases own with
  | @remark defect invalid =>
      rcases isRow_remark b.address defect b.block with ⟨raw, row⟩
      simp [hasToken_iff row]
  | base valid =>
      simp [hasToken_iff (isRow_base b.address), operandLexemes, Lexeme.blanks, Spelling.lexemes,
        Atom.lexeme, Atom.kind]
  | @label op role valid named => simp [hasToken_label_iff]
  | @instruction op valid =>
      have row := isRow_instruction op (spellings targets op b.instruction)
      rw [← operandTexts_eq targets (Instruction.validate_eq_ok_iff.1 valid)] at row
      rw [hasToken_iff row (by decide)]
      constructor
      · intro found
        rcases found with ⟨x, member, label, -⟩
        exact absurd label (kind_of_mem_instructionLexemes member).2
      · intro labelled
        rcases labelled with ⟨name, other, -⟩
        cases other

end Lines

/-! ## References and definitions -/

def instructionText (words : List Word) (op : Opcode) (b : SweptBlock) : String :=
  (Entry.instruction op (operandTexts (targetsOf (sweep words)) op b.instruction)).render

/-- A line of the text defines a name, the next one is the instruction of a block, and the lines
before lead up to the address of the block. -/
structure DefinedAt (words : List Word) (k : Nat) (name : String) (op : Opcode) (b : SweptBlock) :
    Prop where
  line : (textLines words)[k]? = some (name ++ ":\n")
  defines : HasToken .label (Bytes.ofString name) (name ++ ":\n")
  next_line : (textLines words)[k + 1]? = some (instructionText words op b)
  address : addressBehind 0 ((entries words).take k) = b.address

section Listed

variable {words : List Word}

theorem exists_ofBlock_of_line {k : Nat} {line : String}
    (at_k : (textLines words)[k]? = some line) :
    ∃ e b, (entries words)[k]? = some e ∧ e.render = line ∧ b ∈ sweep words ∧
      e.OfBlock (targetsOf (sweep words)) b := by
  rw [textLines, List.getElem?_map, Option.map_eq_some_iff] at at_k
  rcases at_k with ⟨e, at_k, rendered⟩
  rcases exists_ofBlock (List.mem_of_getElem? at_k) with ⟨b, among, own⟩
  exact ⟨e, b, at_k, rendered, among, own⟩

theorem LabelOf.definedAt {b : SweptBlock} {name : String} {before after : List Entry}
    (own : LabelOf (targetsOf (sweep words)) b name after)
    (split : entries words = before ++ .label name :: after)
    (here : addressBehind 0 before = b.address) :
    ∃ op role, b.validate = .ok op ∧ (targetsOf (sweep words))[b.address]? = some role ∧
      name = role.labelAt b.address ∧ DefinedAt words before.length name op b := by
  cases own with
  | @intro op role valid named rest =>
      refine ⟨op, role, valid, named, rfl, ?_, (hasToken_label_iff b.address role).2 rfl, ?_, ?_⟩
      · simp [textLines, split, Entry.render]
      · simp [textLines, split, instructionText]
      · rwa [split, List.take_left]

theorem exists_definedAt {b : SweptBlock} {op : Opcode} {role : Role} (among : b ∈ sweep words)
    (valid : b.validate = .ok op) (named : (targetsOf (sweep words))[b.address]? = some role) :
    ∃ k, DefinedAt words k (role.labelAt b.address) op b := by
  rcases exists_label_line among valid named 0 with ⟨before, after, split, here⟩
  rcases (LabelOf.intro valid named after).definedAt split here with ⟨op', -, valid', -, -, defined⟩
  cases valid.symm.trans valid'
  exact ⟨before.length, defined⟩

theorem definedAt_of_line {k : Nat} {line : String} {text : Bytes}
    (at_k : (textLines words)[k]? = some line) (defines : HasToken .label text line) :
    ∃ target ∈ sweep words, ∃ op role, target.validate = .ok op ∧
      (targetsOf (sweep words))[target.address]? = some role ∧
      text = Bytes.ofString (role.labelAt target.address) ∧
      DefinedAt words k (role.labelAt target.address) op target := by
  rcases exists_ofBlock_of_line at_k with ⟨e, _, entry, rfl, -, own⟩
  rcases own.hasDefinition_iff.1 defines with ⟨name, rfl, rfl⟩
  rcases List.getElem?_eq_some_iff.1 entry with ⟨bound, same⟩
  have split : entries words =
      (entries words).take k ++ .label name :: (entries words).drop (k + 1) := by
    rw [← same, List.getElem_cons_drop, List.take_append_drop]
  rcases exists_labelOf split with ⟨target, aimed, label, here⟩
  rcases label.definedAt split here with ⟨op, role, valid, named, rfl, defined⟩
  rw [List.length_take_of_le (Nat.le_of_lt bound)] at defined
  exact ⟨target, aimed, op, role, valid, named, rfl, defined⟩

theorem hasReference_of_jumpsTo {source : SweptBlock} {op : Opcode} {address : Word} {role : Role}
    (jumps : source.JumpsTo op address)
    (named : (targetsOf (sweep words))[address]? = some role) :
    HasToken .labelRef (Bytes.ofString (role.labelAt address))
      (instructionText words op source) := by
  have valid := Instruction.validate_eq_ok_iff.1 jumps.valid
  have plain := ((jumpsTo_iff jumps.valid).1 jumps).2
  exact (hasReference_iff valid).2 ⟨address, role, plain, named, rfl⟩

theorem instructionText_mem {b : SweptBlock} {op : Opcode} (among : b ∈ sweep words)
    (valid : b.validate = .ok op) : instructionText words op b ∈ textLines words :=
  List.mem_map_of_mem (instruction_mem among valid 0)

theorem exists_definition {line : String} {text : Bytes} (listed : line ∈ textLines words)
    (reference : HasToken .labelRef text line) :
    ∃ source ∈ sweep words, ∃ target ∈ sweep words, ∃ op op' name k,
      line = instructionText words op source ∧ source.JumpsTo op target.address ∧
      target.validate = .ok op' ∧ text = Bytes.ofString name ∧
      DefinedAt words k name op' target := by
  rcases List.getElem?_of_mem listed with ⟨n, at_n⟩
  rcases exists_ofBlock_of_line at_n with ⟨e, source, -, rfl, among, own⟩
  rcases own.instruction_of_reference reference with ⟨op, valid, rfl⟩
  rcases (hasReference_iff (Instruction.validate_eq_ok_iff.1 valid)).1 reference with
    ⟨address, role, plain, named, rfl⟩
  rcases targetsOf_valid named with ⟨target, aimed, op', checked, rfl⟩
  rcases exists_definedAt aimed checked named with ⟨k, defined⟩
  exact ⟨source, among, target, aimed, op, op', _, k, rfl, (jumpsTo_iff valid).2 ⟨rfl, plain⟩,
    checked, rfl, defined⟩

theorem countP_definitions_eq_one (addressable : words.length ≤ UInt64.size) {line : String}
    {text : Bytes} (listed : line ∈ textLines words) (defines : HasToken .label text line) :
    (textLines words).countP (HasToken .label text ·) = 1 := by
  have apart : (sweep words).Pairwise (·.address ≠ ·.address) := by
    apply (sweep_ascending addressable).imp
    intro a b lower same
    rw [same] at lower
    omega
  rcases List.getElem?_of_mem listed with ⟨n, at_n⟩
  rcases exists_ofBlock_of_line at_n with ⟨e, _, entry, rfl, -, own⟩
  rcases own.hasDefinition_iff.1 defines with ⟨name, rfl, rfl⟩
  -- The lines with this definition are those of the entries with this name.
  have lines : (textLines words).countP (HasToken .label (Bytes.ofString name) ·) =
      (entries words).count (.label name) := by
    rw [textLines, List.countP_map, List.count]
    apply List.countP_congr
    intro e member
    rcases exists_ofBlock member with ⟨b, -, own⟩
    simp only [Function.comp_apply, decide_eq_true_eq, beq_iff_eq, own.hasDefinition_iff]
    constructor
    · intro labelled
      rcases labelled with ⟨other, rfl, same⟩
      rw [Bytes.ofString_injective same]
    · intro same
      exact ⟨name, same, rfl⟩
  have once : (entries words).count (.label name) ≤ 1 := count_label_le_one apart 0 name
  have defined := List.count_pos_iff.2 (List.mem_of_getElem? entry)
  omega

end Listed

/-- The labels of a listing are consistent, in its text.  A reference stands on the line of a valid
jump, and its definition stands on the line directly before the valid instruction at the address
that the jump has as its literal; every jump to a valid instruction has such a reference.  A line
that defines a label stands directly before an instruction and is referred to, and the name begins
with `sub_` if some call has the address of the instruction as a plain literal target, and with
`loc_` if none has.  Where every word has an address of its own, one line defines a name. -/
theorem listing_labels_are_consistent (words : List Word) :
    (∀ line ∈ textLines words, ∀ text, HasToken .labelRef text line →
      ∃ source ∈ sweep words, ∃ target ∈ sweep words, ∃ op op' name k,
        line = instructionText words op source ∧ source.JumpsTo op target.address ∧
        target.validate = .ok op' ∧ text = Bytes.ofString name ∧
        DefinedAt words k name op' target) ∧
    (∀ source ∈ sweep words, ∀ target ∈ sweep words, ∀ op op',
      source.JumpsTo op target.address → target.validate = .ok op' →
        instructionText words op source ∈ textLines words ∧
          ∃ name k, HasToken .labelRef (Bytes.ofString name) (instructionText words op source) ∧
            DefinedAt words k name op' target) ∧
    (∀ k line text, (textLines words)[k]? = some line → HasToken .label text line →
      ∃ target ∈ sweep words, ∃ op name, target.validate = .ok op ∧
        text = Bytes.ofString name ∧ DefinedAt words k name op target ∧
        (∃ other ∈ textLines words, HasToken .labelRef text other) ∧
        ((∃ digits, name = "sub_" ++ digits) ↔
          ∃ b ∈ sweep words, b.JumpsTo .call target.address) ∧
        ((∃ digits, name = "loc_" ++ digits) ↔
          ¬ ∃ b ∈ sweep words, b.JumpsTo .call target.address)) ∧
    (words.length ≤ UInt64.size → ∀ line ∈ textLines words, ∀ text, HasToken .label text line →
      (textLines words).countP (HasToken .label text ·) = 1) := by
  refine ⟨?_, ?_, ?_, ?_⟩
  · intro line listed text reference
    exact exists_definition listed reference
  · intro source among target aimed op op' jumps valid
    rcases exists_role_of_jumpsTo among jumps aimed valid with ⟨role, named⟩
    rcases exists_definedAt aimed valid named with ⟨k, defined⟩
    exact ⟨instructionText_mem among jumps.valid, _, k, hasReference_of_jumpsTo jumps named,
      defined⟩
  · intro k line text at_k defines
    rcases definedAt_of_line at_k defines with
      ⟨target, aimed, op, role, valid, named, rfl, defined⟩
    rcases targetsOf_jump named with ⟨source, jumping, op', jumps⟩
    exact ⟨target, aimed, op, _, valid, rfl, defined,
      ⟨_, instructionText_mem jumping jumps.valid, hasReference_of_jumpsTo jumps named⟩,
      stem_iff_of_targetsOf named⟩
  · intro addressable line listed text defines
    exact countP_definitions_eq_one addressable listed defines

/-- A jump and a call to the same instruction, which jumps back to the first one. -/
def sharedTargetWords : List Word :=
  [0x1200020000, 8, 0, 0, 0x1000020000, 8, 0, 0, 0x1200020000, 0, 0, 0]

theorem shared_target_defined_once :
    sharedTargetWords.length ≤ UInt64.size ∧
      "sub_0008:\n" ∈ textLines sharedTargetWords ∧
      (textLines sharedTargetWords).countP (HasToken .label (Bytes.ofString "sub_0008") ·) = 1 ∧
      "loc_0000:\n" ∈ textLines sharedTargetWords ∧
      (textLines sharedTargetWords).countP (HasToken .label (Bytes.ofString "loc_0000") ·) = 1 := by
  have addressable : sharedTargetWords.length ≤ UInt64.size := by decide
  have subroutine : "sub_0008:\n" ∈ textLines sharedTargetWords := by decide
  have branch : "loc_0000:\n" ∈ textLines sharedTargetWords := by decide
  have once := (listing_labels_are_consistent sharedTargetWords).2.2.2 addressable
  exact ⟨addressable, subroutine, once _ subroutine _ (by decide +kernel), branch,
    once _ branch _ (by decide +kernel)⟩

end WordMachine.Listing
