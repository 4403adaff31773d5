import WordMachine.Proofs.Listing.Entries
import WordMachine.Proofs.Listing.Spelling

/-!
# The text of a listing

Every entry of a listing is one line of text, which ends with its only line feed.  The lines that
begin with a semicolon are the remarks.
-/

namespace WordMachine.Listing

/-! ## Text without line feeds -/

/-- A text without line feeds, which stands within one line. -/
def Feedless (s : String) : Prop :=
  ∀ b ∈ Bytes.ofString s, b ≠ Ascii.lineFeed

instance (s : String) : Decidable (Feedless s) :=
  decidable_of_iff ((Bytes.ofString s).all (· != Ascii.lineFeed) = true) (by simp [Feedless])

namespace Feedless

@[simp] theorem append_iff {s t : String} : Feedless (s ++ t) ↔ Feedless s ∧ Feedless t := by
  unfold Feedless
  rw [Bytes.ofString_append]
  exact List.forall_mem_append

theorem intercalate {sep : String} {texts : List String} (between : Feedless sep)
    (each : ∀ s ∈ texts, Feedless s) : Feedless (sep.intercalate texts) := by
  induction texts with
  | nil =>
      rw [String.intercalate_nil]
      decide
  | cons s texts ih =>
      have first := each s List.mem_cons_self
      have others := ih fun t member => each t (List.mem_cons_of_mem s member)
      by_cases last : texts = []
      · subst last
        rwa [String.intercalate_singleton]
      · rw [String.intercalate_cons_of_ne_nil last, append_iff, append_iff]
        exact ⟨⟨first, between⟩, others⟩

theorem of_isWord {s : String} (h : ∀ b ∈ Bytes.ofString s, Ascii.isWord b) : Feedless s :=
  fun b member => ne_of_isWord (h b member) (by decide)

@[simp] theorem hex (width n : Nat) : Feedless (Numeral.hex width n) :=
  of_isWord (Numeral.all_isWord_hex width n)

theorem toString_nat (n : Nat) : Feedless (toString n) :=
  of_isWord fun b member => isWord_of_isDigit (Numeral.all_isDigit_toString n b member)

@[simp] theorem repr_nat (n : Nat) : Feedless n.repr := toString_nat n

@[simp] theorem toString_byte (n : UInt8) : Feedless (toString n) := toString_nat n.toNat

@[simp] theorem toString_word (w : Word) : Feedless (toString w) := toString_nat w.toNat

@[simp] theorem mnemonic (op : Opcode) : Feedless op.mnemonic := by
  cases op <;> decide

@[simp] theorem mode_description (mode : Mode) : Feedless mode.description := by
  have names : ∀ named ∈
      ([(1, "indirect"), (2, "literal"), (4, "memory"), (8, "register")] :
        List (UInt8 × String)), Feedless named.2 := by decide
  have known (set : UInt8 × String → Bool) :
      ∀ s ∈ (([(1, "indirect"), (2, "literal"), (4, "memory"), (8, "register")] :
        List (UInt8 × String)).filter set).map (·.2), Feedless s := by
    intro s member
    obtain ⟨named, among, rfl⟩ := List.mem_map.1 member
    exact names named (List.mem_of_mem_filter among)
  unfold Mode.description
  split
  · decide
  · apply intercalate (by decide)
    split
    · exact known _
    · intro s member
      rcases List.mem_append.1 member with named | rest
      · exact known _ s named
      · rw [List.mem_singleton.1 rest, append_iff]
        exact ⟨by decide, hex 2 _⟩

theorem defect_message (defect : Instruction.Defect) : Feedless defect.message := by
  unfold Instruction.Defect.message
  split <;> simp <;> decide

@[simp] theorem register_name (r : Register) : Feedless r.name := by
  revert r
  decide

theorem render (x : Operand) : Feedless x.render := by
  have bracketed {s : String} (h : Feedless s) :
      Feedless (if x.mode.isIndirect then "[" ++ s ++ "]" else s) := by
    split
    · rw [append_iff, append_iff]
      exact ⟨⟨by decide, h⟩, by decide⟩
    · exact h
  unfold Operand.render
  apply bracketed
  cases x.mode.kind? with
  | none =>
      dsimp only
      rw [append_iff]
      exact ⟨by decide, toString_word x.value⟩
  | some kind =>
      cases kind with
      | register =>
          dsimp only
          cases Register.ofWord? x.value with
          | none => decide
          | some r => exact register_name r
      | literal =>
          dsimp only
          rw [append_iff]
          exact ⟨by decide, toString_word x.value⟩
      | memory => exact toString_word x.value

theorem padRight (width : Nat) {s : String} (h : Feedless s) :
    Feedless (Numeral.padRight width s) := by
  intro b member
  rw [Numeral.ofString_padRight, List.mem_append] at member
  cases member with
  | inl inside => exact h b inside
  | inr blank =>
      rw [List.eq_of_mem_replicate blank]
      decide

theorem labelAt (address : Word) (role : Role) : Feedless (role.labelAt address) :=
  of_isWord (role.all_isWord_labelAt address)

theorem operandTexts (targets : Targets) (op : Opcode) (i : Instruction) :
    ∀ s ∈ operandTexts targets op i, Feedless s := by
  have own : ∀ s ∈ (i.operands.take op.arity).map Operand.render, Feedless s := by
    intro s member
    rcases List.mem_map.1 member with ⟨x, -, rfl⟩
    exact render x
  unfold Listing.operandTexts
  cases target : (plainTarget? op i).bind fun address =>
      targets[address]?.map (Role.labelAt address) with
  | none => exact own
  | some name =>
      rcases Option.bind_eq_some_iff.1 target with ⟨address, -, named⟩
      rcases Option.map_eq_some_iff.1 named with ⟨role, -, rfl⟩
      intro s member
      rcases List.mem_cons.1 member with rfl | other
      · rw [append_iff]
        exact ⟨by decide, labelAt address role⟩
      · exact own s (List.mem_of_mem_drop other)

theorem not_mem_toList {s : String} (h : Feedless s) : '\n' ∉ s.toList := by
  intro member
  apply h Ascii.lineFeed _ rfl
  rw [Bytes.ofString_eq_flatMap]
  exact List.mem_flatMap.2 ⟨'\n', member, by decide⟩

end Feedless

/-! ## Entries -/

theorem exists_remark_body (address : Word) (defect : Instruction.Defect) (block : Block) :
    ∃ body, (Entry.remark address defect block).render = ";" ++ body ++ "\n" ∧ Feedless body := by
  have words : Feedless (" ".intercalate (block.words.map fun w => Numeral.hex 16 w.toNat)) := by
    apply Feedless.intercalate (by decide)
    intro s member
    rcases List.mem_map.1 member with ⟨w, -, rfl⟩
    exact Feedless.hex 16 w.toNat
  refine ⟨" " ++ toString address ++ ": " ++ defect.message ++ ": " ++
    " ".intercalate (block.words.map fun w => Numeral.hex 16 w.toNat), ?_, ?_⟩
  · simp only [Entry.render, String.append_assoc]
    rfl
  · simp only [Feedless.append_iff, Feedless.toString_word, Feedless.defect_message, words]
    decide

theorem exists_instruction_body (op : Opcode) {operands : List String}
    (texts : ∀ s ∈ operands, Feedless s) :
    ∃ body, (Entry.instruction op operands).render = " " ++ body ++ "\n" ∧ Feedless body := by
  cases operands with
  | nil =>
      refine ⟨"   " ++ op.mnemonic, ?_, ?_⟩
      · simp only [Entry.render, ← String.append_assoc]
        rfl
      · rw [Feedless.append_iff]
        exact ⟨by decide, Feedless.mnemonic op⟩
  | cons first others =>
      have joined : Feedless (" ".intercalate (first :: others)) :=
        Feedless.intercalate (by decide) texts
      refine ⟨"   " ++ Numeral.padRight 8 op.mnemonic ++ " " ++ " ".intercalate (first :: others),
        ?_, ?_⟩
      · simp only [Entry.render, ← String.append_assoc]
        rfl
      · simp only [Feedless.append_iff]
        exact ⟨⟨⟨by decide, Feedless.padRight 8 (Feedless.mnemonic op)⟩, by decide⟩, joined⟩

namespace Entry

/-- An entry for a block without a valid instruction. -/
def isRemark : Entry → Bool
  | .remark .. => true
  | .base _ | .label _ | .instruction .. => false

def line (e : Entry) : List Char :=
  e.render.toList.dropLast

/-- The text of an entry is one line, and it begins with a semicolon if and only if the entry is a
remark. -/
structure OnLine (e : Entry) : Prop where
  ends : e.render.toList = e.line ++ ['\n']
  feedless : '\n' ∉ e.line
  comment : e.line.head? = some ';' ↔ e.isRemark

theorem onLine_of_render {e : Entry} {body : String} (text : e.render = body ++ "\n")
    (feedless : Feedless body) (comment : body.toList.head? = some ';' ↔ e.isRemark) :
    e.OnLine := by
  have chars : e.render.toList = body.toList ++ ['\n'] := by
    rw [text, String.toList_append]
    rfl
  have own : e.line = body.toList := by
    rw [line, chars, List.dropLast_concat]
  constructor
  · rw [chars, own]
  · rw [own]
    exact feedless.not_mem_toList
  · rwa [own]

end Entry

theorem Entry.OfBlock.onLine {targets : Targets} {b : SweptBlock} {e : Entry}
    (own : e.OfBlock targets b) : e.OnLine := by
  cases own with
  | @remark defect invalid =>
      rcases exists_remark_body b.address defect b.block with ⟨body, text, feedless⟩
      apply onLine_of_render text
      · rw [Feedless.append_iff]
        exact ⟨by decide, feedless⟩
      · simp [isRemark]
  | base valid =>
      have text : (Entry.base b.address).render = ".base " ++ toString b.address ++ "\n" := rfl
      apply onLine_of_render text
      · rw [Feedless.append_iff]
        exact ⟨by decide, Feedless.toString_word b.address⟩
      · simp [isRemark]
  | @label op role valid named =>
      have text : (Entry.label (role.labelAt b.address)).render =
          role.labelAt b.address ++ ":" ++ "\n" := by
        rw [String.append_assoc]
        rfl
      apply onLine_of_render text
      · rw [Feedless.append_iff]
        exact ⟨Feedless.labelAt b.address role, by decide⟩
      · cases role <;> simp [Role.labelAt, isRemark]
  | @instruction op valid =>
      rcases exists_instruction_body op (Feedless.operandTexts targets op b.instruction) with
        ⟨body, text, feedless⟩
      apply onLine_of_render text
      · rw [Feedless.append_iff]
        exact ⟨by decide, feedless⟩
      · simp [isRemark]

end WordMachine.Listing
