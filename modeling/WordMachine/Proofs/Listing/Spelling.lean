import WordMachine.Listing
import WordMachine.Proofs.Assembly.Cursor
import WordMachine.Proofs.Assembly.Encoding
import WordMachine.Proofs.Source.Writing
import WordMachine.Proofs.Text.Numeral

/-!
# How a listing spells operands

Every operand of a listing is a register, a literal, an address or a reference to a label, in
brackets or not.  Each spelling is a single token, and it stands for the operand it spells wherever
the labels of the listing are bound to their addresses.
-/

namespace WordMachine.Listing

/-! ## Names of labels -/

namespace Role

def stem : Role → String
  | .branch => "loc_"
  | .subroutine => "sub_"

theorem labelAt_eq (address : Word) (role : Role) :
    role.labelAt address = role.stem ++ Numeral.upperHex 4 address.toNat := by
  cases role <;> rfl

theorem all_isWord_labelAt (address : Word) (role : Role) :
    ∀ b ∈ Bytes.ofString (role.labelAt address), Ascii.isWord b := by
  have stems : (Bytes.ofString role.stem).all Ascii.isWord = true := by
    cases role <;> decide
  intro b member
  rw [labelAt_eq, Bytes.ofString_append, List.mem_append] at member
  rcases member with stem | number
  · exact List.all_eq_true.1 stems b stem
  · exact Numeral.all_isWord_upperHex 4 address.toNat b number

theorem ofString_labelAt_ne_nil (address : Word) (role : Role) :
    Bytes.ofString (role.labelAt address) ≠ [] := by
  rw [labelAt_eq, Bytes.ofString_append]
  apply List.append_ne_nil_of_left_ne_nil
  cases role <;> decide

theorem eq_of_stem_append {role role' : Role} {text text' : String}
    (h : role.stem ++ text = role'.stem ++ text') : role = role' := by
  have starts : role.stem.toList = role'.stem.toList := by
    have first := congrArg (·.toList.take 4) h
    have length (x : Role) : x.stem.toList.length = 4 := by cases x <;> rfl
    simpa [List.take_append, length] using first
  revert starts
  cases role <;> cases role' <;> decide

theorem labelAt_eq_stem_append_iff (address : Word) (role role' : Role) :
    (∃ digits, role.labelAt address = role'.stem ++ digits) ↔ role = role' := by
  constructor
  · intro named
    rcases named with ⟨digits, named⟩
    rw [labelAt_eq] at named
    exact eq_of_stem_append named
  · intro same
    subst same
    exact ⟨_, labelAt_eq address role⟩

theorem labelAt_injective {address other : Word} {role role' : Role}
    (h : role.labelAt address = role'.labelAt other) : address = other := by
  rw [labelAt_eq, labelAt_eq] at h
  have stems := eq_of_stem_append h
  subst stems
  rw [String.append_right_inj] at h
  exact UInt64.toNat_inj.1 (Numeral.upperHex_injective h)

end Role

/-- What an operand is written with, apart from brackets. -/
inductive Atom where
  | register (r : Register)
  | literal (w : Word)
  | memory (w : Word)
  | reference (address : Word) (role : Role)
  deriving DecidableEq, Repr

namespace Atom

def kind : Atom → Token.Kind
  | register _ => .register
  | literal _ => .literal
  | memory _ => .number
  | reference .. => .labelRef

def text : Atom → String
  | register r => r.name
  | literal w => s!"#{w}"
  | memory w => s!"{w}"
  | reference address role => ":" ++ role.labelAt address

def lexeme (x : Atom) : Lexeme :=
  ⟨x.kind, Bytes.ofString x.text⟩

theorem ofString_text_literal (w : Word) :
    Bytes.ofString (text (.literal w)) = Ascii.hash :: Bytes.ofString (toString w.toNat) := by
  have : text (.literal w) = "#" ++ toString w.toNat := by
    simp [text, toString]
  rw [this, Bytes.ofString_append]
  rfl

theorem text_memory (w : Word) : text (.memory w) = toString w.toNat := by
  simp [text, toString]

theorem ofString_text_reference (address : Word) (role : Role) :
    Bytes.ofString (text (.reference address role)) =
      Ascii.colon :: Bytes.ofString (role.labelAt address) := by
  rw [text, Bytes.ofString_append]
  rfl

theorem name_facts (r : Register) :
    LexicalRule.isRegisterWord (Bytes.ofString r.name) = true ∧
      (Bytes.ofString r.name).all Ascii.isWord = true ∧
      (Bytes.ofString r.name).head? = some 0x72 := by
  revert r
  decide

/-- An atom is one lexeme of its kind, unless it runs on. -/
theorem lexemeAt_lexeme (x : Atom) {rest : Bytes} (stops : Stops isWordOrColon rest) :
    lexemeAt (x.lexeme.raw ++ rest) = (x.lexeme.kind, x.lexeme.raw.length) := by
  cases x with
  | register r =>
      obtain ⟨known, word, head⟩ := name_facts r
      obtain ⟨tail, name⟩ := List.head?_eq_some_iff.1 head
      show lexemeAt (Bytes.ofString r.name ++ rest) = (.register, (Bytes.ofString r.name).length)
      rw [name] at known word ⊢
      rw [lexemeAt_word (List.all_eq_true.1 word) (by decide) stops, if_pos known]
  | literal w =>
      rw [lexeme, ofString_text_literal]
      exact lexemeAt_literal (Numeral.all_isDigit_toString _) (Numeral.ofString_toString_ne_nil _)
        stops.isDigit
  | memory w =>
      rw [lexeme, text_memory]
      exact lexemeAt_number (Numeral.all_isDigit_toString _) (Numeral.ofString_toString_ne_nil _)
        stops
  | reference address role =>
      rw [lexeme, ofString_text_reference]
      exact lexemeAt_labelRef (role.all_isWord_labelAt address)
        (role.ofString_labelAt_ne_nil address) stops.isWord

theorem exists_head (x : Atom) :
    ∃ b tail, x.lexeme.raw = b :: tail ∧ Ascii.isBlank b = false := by
  cases x with
  | register r =>
      obtain ⟨tail, name⟩ := List.head?_eq_some_iff.1 (name_facts r).2.2
      exact ⟨_, tail, name, by decide⟩
  | literal w => exact ⟨_, _, ofString_text_literal w, by decide⟩
  | memory w =>
      obtain ⟨b, tail, digits⟩ :=
        List.exists_cons_of_ne_nil (Numeral.ofString_toString_ne_nil w.toNat)
      have digit : Ascii.isDigit b :=
        Numeral.all_isDigit_toString w.toNat b (digits ▸ List.mem_cons_self)
      refine ⟨b, tail, by rw [lexeme, text_memory, digits], ?_⟩
      have differs {c : UInt8} := ne_of_isWord (c := c) (isWord_of_isDigit digit)
      simp [Ascii.isBlank, differs (c := Ascii.space) rfl, differs (c := Ascii.tab) rfl]
  | reference address role => exact ⟨_, _, ofString_text_reference address role, by decide⟩

def meaning : Atom → Mode.Kind × Word
  | register r => (.register, .ofNat r)
  | literal w => (.literal, w)
  | memory w => (.memory, w)
  | reference address _ => (.literal, address)

theorem text_bare_literal (w : Word) :
    (lexeme (.literal w)).bare.text = Bytes.ofString (toString w.toNat) := by
  show (Bytes.ofString (text (.literal w))).drop 1 = _
  rw [ofString_text_literal]
  rfl

theorem text_bare_memory (w : Word) :
    (lexeme (.memory w)).bare.text = Bytes.ofString (toString w.toNat) := by
  show Bytes.ofString (text (.memory w)) = _
  rw [text_memory]

theorem text_bare_reference (address : Word) (role : Role) :
    (lexeme (.reference address role)).bare.text = Bytes.ofString (role.labelAt address) := by
  show (Bytes.ofString (text (.reference address role))).drop 1 = _
  rw [ofString_text_reference]
  rfl

theorem target_lexeme {labels : Labels} (x : Atom)
    (bound : ∀ address role, x = .reference address role →
      labels[Bytes.ofString (role.labelAt address)]? = some address) :
    x.lexeme.bare.target labels = .ok x.meaning := by
  cases x with
  | register r => exact Token.target_of_register rfl (Register.ofName?_name r)
  | literal w =>
      apply Token.target_of_literal rfl
      rw [Token.word_eq_ok_iff, text_bare_literal, Numeral.decimal?_toString]
  | memory w =>
      apply Token.target_of_number rfl
      rw [Token.word_eq_ok_iff, text_bare_memory, Numeral.decimal?_toString]
  | reference address role =>
      rw [Token.target_labelRef_iff rfl, text_bare_reference]
      exact ⟨rfl, bound address role rfl⟩

end Atom

/-- An atom, in brackets or not. -/
structure Spelling where
  indirect : Bool
  atom : Atom
  deriving DecidableEq, Repr

namespace Spelling

def text (x : Spelling) : String :=
  if x.indirect then "[" ++ x.atom.text ++ "]" else x.atom.text

def lexemes (x : Spelling) : List Lexeme :=
  if x.indirect then
    [⟨.bracketOpen, [Ascii.bracketOpen]⟩, x.atom.lexeme, ⟨.bracketClose, [Ascii.bracketClose]⟩]
  else [x.atom.lexeme]

def written (x : Spelling) : WrittenOperand :=
  ⟨x.indirect, x.atom.lexeme.bare⟩

theorem text_lexemes (x : Spelling) : Lexeme.text x.lexemes = Bytes.ofString x.text := by
  obtain ⟨indirect, atom⟩ := x
  cases indirect with
  | false => simp [lexemes, text, Atom.lexeme]
  | true =>
      simp only [lexemes, text, Atom.lexeme, if_true, Lexeme.text_cons, Lexeme.text_nil,
        Bytes.ofString_append, List.append_nil, List.append_assoc]
      rfl

theorem exists_head (x : Spelling) :
    ∃ b tail, Lexeme.text x.lexemes = b :: tail ∧ Ascii.isBlank b = false := by
  obtain ⟨indirect, atom⟩ := x
  cases indirect with
  | false => simpa [lexemes] using atom.exists_head
  | true => exact ⟨Ascii.bracketOpen, _, rfl, by decide⟩

theorem found_lexemes (x : Spelling) {rest : Bytes} (stops : Stops isWordOrColon rest) :
    Lexeme.Found rest x.lexemes := by
  obtain ⟨indirect, atom⟩ := x
  have nonempty : atom.lexeme.raw ≠ [] := by
    obtain ⟨b, tail, raw, -⟩ := atom.exists_head
    simp [raw]
  cases indirect with
  | false => exact ⟨nonempty, atom.lexemeAt_lexeme stops, trivial⟩
  | true =>
      have closes : Stops isWordOrColon (Ascii.bracketClose :: rest) := rfl
      exact ⟨by simp, lexemeAt_bracketOpen _, nonempty, atom.lexemeAt_lexeme closes, by simp,
        lexemeAt_bracketClose _, trivial⟩

theorem kind_of_mem_lexemes {x : Spelling} {y : Lexeme} (h : y ∈ x.lexemes) :
    y.kind ∈ [.register, .literal, .number, .labelRef, .bracketOpen, .bracketClose] := by
  have atoms : ∀ atom : Atom, atom.lexeme.kind ∈
      [.register, .literal, .number, .labelRef, .bracketOpen, .bracketClose] := by
    intro atom
    cases atom <;> simp [Atom.lexeme, Atom.kind]
  unfold lexemes at h
  split at h
  · simp only [List.mem_cons, List.not_mem_nil, or_false] at h
    rcases h with rfl | rfl | rfl
    · decide
    · exact atoms x.atom
    · decide
  · rw [List.mem_singleton.1 h]
    exact atoms x.atom

theorem read_lexemes (x : Spelling) (after : List Token) :
    WrittenOperand.read (x.lexemes.map Lexeme.bare ++ after) =
      (WrittenOperand.read after).map (x.written :: ·) := by
  obtain ⟨indirect, atom⟩ := x
  have kind : atom.lexeme.bare.kind = atom.kind := rfl
  have close : atom.lexeme.bare.kind ≠ .bracketClose := by
    rw [kind]
    cases atom <;> simp [Atom.kind]
  have opens : atom.lexeme.bare.kind ≠ .bracketOpen := by
    rw [kind]
    cases atom <;> simp [Atom.kind]
  cases indirect with
  | false => exact WrittenOperand.read_direct after close opens
  | true => exact WrittenOperand.read_indirect after rfl close opens rfl

/-- The spelling of an operand by its mode and value. -/
def ofOperand (x : Operand) : Spelling where
  indirect := x.mode.isIndirect
  atom :=
    match x.mode.kind?, Register.ofWord? x.value with
    | some .register, some r => .register r
    | some .literal, _ => .literal x.value
    | _, _ => .memory x.value

theorem render_eq_text {x : Operand} (h : x.WellFormed) : x.render = (ofOperand x).text := by
  unfold Operand.WellFormed at h
  rw [Operand.render, text, ofOperand]
  cases kind : x.mode.kind? with
  | none => simp [kind] at h
  | some known =>
      cases known with
      | literal => rfl
      | memory => rfl
      | register =>
          simp only [kind] at h
          simp [Register.ofWord?, h, Atom.text]

theorem resolve_written {labels : Labels} (x : Spelling)
    (bound : ∀ address role, x.atom = .reference address role →
      labels[Bytes.ofString (role.labelAt address)]? = some address) :
    x.written.resolve labels = .ok ⟨Mode.of x.atom.meaning.1 x.indirect, x.atom.meaning.2⟩ :=
  WrittenOperand.resolve_eq_ok_iff.2 ⟨_, _, x.atom.target_lexeme bound, rfl⟩

theorem meaning_ofOperand {x : Operand} (h : x.WellFormed) {kind : Mode.Kind}
    (known : x.mode.kind? = some kind) : (ofOperand x).atom.meaning = (kind, x.value) := by
  unfold Operand.WellFormed at h
  cases kind with
  | literal => simp [ofOperand, known, Atom.meaning]
  | memory => simp [ofOperand, known, Atom.meaning]
  | register =>
      simp only [known] at h
      simp [ofOperand, known, Register.ofWord?, h, Atom.meaning]

theorem ofOperand_ne_reference (x : Operand) (address : Word) (role : Role) :
    (ofOperand x).atom ≠ .reference address role := by
  unfold ofOperand
  dsimp only
  split <;> simp

theorem resolve_ofOperand {x : Operand} (h : x.WellFormed) (labels : Labels) :
    (ofOperand x).written.resolve labels = .ok x := by
  cases known : x.mode.kind? with
  | none => simp [Operand.WellFormed, known] at h
  | some kind =>
      rw [resolve_written _ fun address role same =>
        absurd same (ofOperand_ne_reference x address role), meaning_ofOperand h known]
      exact congrArg Except.ok (congrArg (Operand.mk · x.value) (Mode.eq_of_of_kind? known).symm)

end Spelling

/-! ## Operands of an instruction -/

/-- The spellings of the operands of an instruction; the target of a jump is a reference where it
has a label. -/
def spellings (targets : Targets) (op : Opcode) (i : Instruction) : List Spelling :=
  let own := (i.operands.take op.arity).map Spelling.ofOperand
  match (plainTarget? op i).bind fun address => targets[address]?.map (Atom.reference address) with
  | some atom => ⟨false, atom⟩ :: own.drop 1
  | none => own

def statementOf (targets : Targets) (op : Opcode) (i : Instruction) : Statement where
  mnemonic := Bytes.ofString op.mnemonic
  operands := (spellings targets op i).map Spelling.written
  position := .none

section Valid

variable {op : Opcode} {i : Instruction}

theorem wellFormed_of_mem_take (valid : i.Valid op) {x : Operand}
    (member : x ∈ i.operands.take op.arity) : x.WellFormed := by
  obtain ⟨slot, bound, rfl⟩ := List.getElem_of_mem member
  rw [List.length_take] at bound
  have at_slot : i.operands[slot]? = some (i.operands.take op.arity)[slot] := by
    rw [List.getElem_take, List.getElem?_eq_getElem]
  have formed := valid.operands slot _ at_slot
  rwa [if_neg (by omega)] at formed

theorem operandTexts_eq (targets : Targets) (valid : i.Valid op) :
    operandTexts targets op i = (spellings targets op i).map Spelling.text := by
  have own : (i.operands.take op.arity).map Operand.render =
      ((i.operands.take op.arity).map Spelling.ofOperand).map Spelling.text := by
    rw [List.map_map]
    apply List.map_congr_left
    intro x member
    exact Spelling.render_eq_text (wellFormed_of_mem_take valid member)
  rw [operandTexts, spellings]
  cases plainTarget? op i with
  | none => exact own
  | some address =>
      simp only [Option.bind_some]
      cases targets[address]? with
      | none => exact own
      | some role =>
          simp only [Option.map_some, own, List.map_cons, List.map_drop]
          rfl

theorem operands_of_plainTarget? {address : Word} (h : plainTarget? op i = some address) :
    ∃ rest, i.operands.take op.arity = ⟨Mode.of .literal false, address⟩ :: rest := by
  unfold plainTarget? at h
  split at h
  · rename_i jump
    cases h
    have some_operand : 0 < op.arity := by
      revert jump
      cases op <;> simp [Opcode.isJump, Opcode.arity]
    obtain ⟨n, arity⟩ := Nat.exists_eq_succ_of_ne_zero (Nat.ne_of_gt some_operand)
    rw [arity, Instruction.operands, List.take_succ_cons, ← jump.2]
    exact ⟨_, rfl⟩
  · cases h

/-- The statement for a valid instruction encodes it, if the labels are bound to their addresses. -/
theorem instruction_statementOf {targets : Targets} {labels : Labels} (valid : i.Valid op)
    (bound : ∀ (address : Word) (role : Role), targets[address]? = some role →
      labels[Bytes.ofString (role.labelAt address)]? = some address) :
    (statementOf targets op i).instruction labels = .ok i := by
  have own : List.Forall₂ (fun x y => x.resolve labels = .ok y)
      (((i.operands.take op.arity).map Spelling.ofOperand).map Spelling.written)
      (i.operands.take op.arity) := by
    rw [List.map_map, List.forall₂_map_left_iff]
    apply List.forall₂_same.2
    intro x member
    exact Spelling.resolve_ofOperand (wellFormed_of_mem_take valid member) labels
  have resolved : List.Forall₂ (fun x y => x.resolve labels = .ok y)
      (statementOf targets op i).operands (i.operands.take op.arity) := by
    unfold statementOf spellings
    dsimp only
    cases target : plainTarget? op i with
    | none => exact own
    | some address =>
        simp only [Option.bind_some]
        cases labelled : targets[address]? with
        | none => exact own
        | some role =>
            obtain ⟨rest, split⟩ := operands_of_plainTarget? target
            rw [split] at own ⊢
            obtain ⟨-, others⟩ := List.forall₂_cons.1 own
            refine .cons (Spelling.resolve_written ⟨false, .reference address role⟩ ?_) others
            rintro _ _ ⟨⟩
            exact bound address role labelled
  have few : op.arity ≤ i.operands.length := op.arity_le_three
  refine Statement.instruction_eq_ok_iff.2 ⟨op, _, Opcode.ofMnemonic?_mnemonic op, ?_, resolved,
    valid.eq_ofOperands⟩
  rw [resolved.length_eq, List.length_take, Nat.min_eq_left few]

end Valid

end WordMachine.Listing
