import WordMachine.Proofs.Assembly.Restyling
import WordMachine.Proofs.Listing.Reading

/-!
# Encoding and validation

Assembly and validation describe the instructions of the machine independently of each other, and
they agree: the blocks that statements encode to are those that hold a valid instruction.  Each of
them is written in source text by its mnemonic and its operands, as a listing writes them.
-/

namespace WordMachine

namespace Listing

/-! ## The line of an instruction -/

/-- The line that a listing writes for an instruction where no label names its target. -/
def instructionLine (op : Opcode) (i : Instruction) : String :=
  (Entry.instruction op ((i.operands.take op.arity).map Operand.render)).render

theorem operandTexts_unlabelled (op : Opcode) (i : Instruction) :
    operandTexts ∅ op i = (i.operands.take op.arity).map Operand.render := by
  unfold operandTexts
  cases plainTarget? op i with
  | none => rfl
  | some address => simp

theorem exists_feedless_line (op : Opcode) (i : Instruction) :
    ∃ body, instructionLine op i = body ++ "\n" ∧ Feedless body := by
  have texts := Feedless.operandTexts ∅ op i
  rw [operandTexts_unlabelled] at texts
  obtain ⟨body, text, feedless⟩ := exists_instruction_body op texts
  refine ⟨" " ++ body, text, ?_⟩
  rw [Feedless.append_iff]
  exact ⟨by decide, feedless⟩

theorem writes_instructionLine (d : Dialect) {op : Opcode} {i : Instruction} (valid : i.Valid op) :
    Writes d (Bytes.ofString (instructionLine op i)) [.instruction (statementOf ∅ op i)] := by
  rw [instructionLine, ← operandTexts_unlabelled, operandTexts_eq ∅ valid]
  exact writes_instruction d op (spellings ∅ op i)

theorem encode_statementOf_unlabelled {op : Opcode} {block : Block} (labels : Labels)
    (valid : (Instruction.decode block).Valid op) :
    (statementOf ∅ op (Instruction.decode block)).encode labels = .ok block := by
  have resolved : (statementOf ∅ op (Instruction.decode block)).instruction labels =
      .ok (Instruction.decode block) := by
    apply instruction_statementOf valid
    intro address role named
    rw [Std.TreeMap.getElem?_emptyc] at named
    cases named
  rw [Statement.encode, resolved]
  exact congrArg Except.ok (Instruction.encode_decode block)

end Listing

/-- A text is one line of source, and it reads as a statement. -/
structure Statement.WrittenAs (d : Dialect) (text : Bytes) (s : Statement) : Prop where
  one_line : Ascii.lineFeed ∉ text.dropLast
  read : Line.parse d (tokenize text) = .ok [.instruction s]

namespace Listing

/-- The line of a valid instruction is read as a statement that encodes its block, whatever labels
there are. -/
theorem exists_statement_of_valid (d : Dialect) {block : Block} {op : Opcode}
    (valid : (Instruction.decode block).Valid op) :
    ∃ s, Statement.WrittenAs d
        (Bytes.ofString (instructionLine op (Instruction.decode block))) s ∧
      ∀ labels, s.encode labels = .ok block := by
  have writes := writes_instructionLine d valid
  rcases writes.parse_tokenize with ⟨placed, read, bare⟩
  -- The lines that are read differ from the one that is written only in their places.
  rcases List.map_eq_singleton_iff.1 bare with ⟨line, rfl, same⟩
  cases line with
  | label name position => cases same
  | specifier name args position => cases same
  | instruction s =>
      have styled : Restyling.bare.statement s = statementOf ∅ op (Instruction.decode block) :=
        Line.instruction.inj same
      refine ⟨s, ⟨?_, read⟩, ?_⟩
      · rcases exists_feedless_line op (Instruction.decode block) with ⟨body, text, feedless⟩
        have bytes : Bytes.ofString (body ++ "\n") = Bytes.ofString body ++ [Ascii.lineFeed] :=
          Bytes.ofString_append body "\n"
        rw [text, bytes, List.dropLast_concat]
        exact fun feed => feedless _ feed rfl
      · intro labels
        have agrees := (Restyling.bare.alike_statement labels s).encode
        rw [styled, encode_statementOf_unlabelled labels valid] at agrees
        rcases agrees.exists_ok_first Results.Tolerance.exact_movedBy rfl with ⟨found, encoded, rfl⟩
        exact encoded

end Listing

theorem Statement.validate_of_encode {labels : Labels} {s : Statement} {block : Block}
    (h : s.encode labels = .ok block) :
    ∃ op, (Instruction.decode block).validate = .ok op ∧
      Opcode.ofMnemonic? s.mnemonic = some op := by
  rcases encode_eq_ok_iff.1 h with ⟨i, made, rfl⟩
  rcases instruction_valid made with ⟨op, known, valid⟩
  refine ⟨op, ?_, known⟩
  rw [Instruction.decode_encode_of_reserved valid.reserved]
  exact Instruction.validate_eq_ok_iff.2 valid

/-- The blocks that statements encode to are those with a valid instruction.  The line that a
listing writes for such an instruction encodes it, and no statement at all, whatever its mnemonic,
operands and labels, encodes to a block that validation refuses. -/
theorem encodings_are_the_valid_blocks (d : Dialect) (block : Block) :
    ((∃ op, (Instruction.decode block).validate = .ok op) ↔
        ∃ text s labels, Statement.WrittenAs d text s ∧ s.encode labels = .ok block) ∧
      (∀ op, (Instruction.decode block).validate = .ok op →
        ∃ s, Statement.WrittenAs d
            (Bytes.ofString (Listing.instructionLine op (Instruction.decode block))) s ∧
          ∀ labels, s.encode labels = .ok block) ∧
      ∀ labels (s : Statement), s.encode labels = .ok block →
        ∃ op, (Instruction.decode block).validate = .ok op ∧
          Opcode.ofMnemonic? s.mnemonic = some op := by
  have rendered (op : Opcode) (checked : (Instruction.decode block).validate = .ok op) :=
    Listing.exists_statement_of_valid d (Instruction.validate_eq_ok_iff.1 checked)
  refine ⟨⟨?_, ?_⟩, rendered, fun labels s => Statement.validate_of_encode⟩
  · rintro ⟨op, checked⟩
    rcases rendered op checked with ⟨s, written, encoded⟩
    exact ⟨_, s, ∅, written, encoded ∅⟩
  · rintro ⟨text, s, labels, -, encoded⟩
    rcases Statement.validate_of_encode encoded with ⟨op, checked, -⟩
    exact ⟨op, checked⟩

end WordMachine
