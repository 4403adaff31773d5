import WordMachine.Proofs.Listing.Lines

/-!
# How a listing reads

Each entry of a listing is a row of lexemes, and writes its own lines: a remark none, a base, a
label and an instruction one each.  The whole listing therefore reads as the lines of its blocks, in
every dialect.
-/

namespace WordMachine.Listing

open Results

/-! ## Remarks -/

theorem isRow_remark (address : Word) (defect : Instruction.Defect) (block : Block) :
    ∃ raw, IsRow (Bytes.ofString (Entry.remark address defect block).render) [⟨.comment, raw⟩] := by
  obtain ⟨body, text, feedless⟩ := exists_remark_body address defect block
  refine ⟨Ascii.semicolon :: Bytes.ofString body, ?_, ?_, by simp⟩
  · rw [text, Bytes.ofString_append, Bytes.ofString_append, Lexeme.text_cons, Lexeme.text_nil,
      List.append_nil]
    rfl
  · intro rest
    exact ⟨by simp, lexemeAt_comment feedless, trivial⟩

theorem writes_remark (d : Dialect) (address : Word) (defect : Instruction.Defect) (block : Block) :
    Writes d (Bytes.ofString (Entry.remark address defect block).render) [] := by
  obtain ⟨raw, row⟩ := isRow_remark address defect block
  exact .row row rfl

/-! ## Operands -/

/-- The lexemes of operands, the first of them after a gap of some blanks. -/
def operandLexemes (gap : Nat) : List Spelling → List Lexeme
  | [] => []
  | x :: xs => .blanks gap :: (x.lexemes ++ operandLexemes 1 xs)

theorem text_operandLexemes (gap : Nat) (x : Spelling) (xs : List Spelling) :
    Lexeme.text (operandLexemes gap (x :: xs)) =
      List.replicate gap Ascii.space ++
        Bytes.ofString (" ".intercalate ((x :: xs).map Spelling.text)) := by
  rw [operandLexemes, Lexeme.text_cons, Lexeme.text_append, Spelling.text_lexemes]
  -- The gap before the first operand is gone, and the others are single blanks.
  congr 1
  induction xs generalizing x with
  | nil => simp [operandLexemes]
  | cons y ys ih =>
      rw [operandLexemes, Lexeme.text_cons, Lexeme.text_append, Spelling.text_lexemes, ih y]
      simp only [List.map_cons, String.intercalate_cons_cons, Bytes.ofString_append,
        List.append_assoc]
      rfl

theorem stops_operandLexemes {rest : Bytes} (stops : Stops isWordOrColon rest) {gap : Nat}
    (pos : 0 < gap) (xs : List Spelling) :
    Stops isWordOrColon (Lexeme.text (operandLexemes gap xs) ++ rest) := by
  obtain ⟨gap, rfl⟩ := Nat.exists_eq_succ_of_ne_zero (Nat.ne_of_gt pos)
  cases xs with
  | nil => exact stops
  | cons x xs => rfl

theorem found_operandLexemes {rest : Bytes} (stops : Stops isWordOrColon rest) {gap : Nat}
    (pos : 0 < gap) (xs : List Spelling) : Lexeme.Found rest (operandLexemes gap xs) := by
  induction xs generalizing gap with
  | nil => trivial
  | cons x xs ih =>
      apply Lexeme.Found.blanks pos
      · obtain ⟨b, tail, text, no_blank⟩ := x.exists_head
        rw [Lexeme.text_append, text]
        exact no_blank
      · exact (x.found_lexemes (stops_operandLexemes stops Nat.one_pos xs)).append (ih Nat.one_pos)

/-- The tokens of operands, without blanks. -/
def operandTokens (xs : List Spelling) : List Token :=
  xs.flatMap fun x => x.lexemes.map Lexeme.bare

theorem filter_operandLexemes (gap : Nat) (xs : List Spelling) :
    ((operandLexemes gap xs).map Lexeme.bare).filter (!·.isLayout) = operandTokens xs := by
  induction xs generalizing gap with
  | nil => rfl
  | cons x xs ih =>
      have kept : (x.lexemes.map Lexeme.bare).filter (!·.isLayout) = x.lexemes.map Lexeme.bare := by
        rw [List.filter_eq_self]
        intro t member
        obtain ⟨y, among, rfl⟩ := List.mem_map.1 member
        have kind := Spelling.kind_of_mem_lexemes among
        simp only [Token.isLayout, Lexeme.bare]
        revert kind
        cases y.kind <;> simp
      rw [operandLexemes, List.map_cons,
        List.filter_cons_of_neg (by simp [Lexeme.bare, Lexeme.blanks, Token.isLayout]),
        List.map_append, List.filter_append, kept, ih 1]
      rfl

theorem kind_of_mem_operandLexemes {gap : Nat} {xs : List Spelling} {y : Lexeme}
    (h : y ∈ operandLexemes gap xs) : y.kind ≠ .newline ∧ y.kind ≠ .unknown ∧ y.kind ≠ .label := by
  induction xs generalizing gap with
  | nil => cases h
  | cons x xs ih =>
      rcases List.mem_cons.1 h with rfl | later
      · simp [Lexeme.blanks]
      · rcases List.mem_append.1 later with spelled | others
        · have kind := Spelling.kind_of_mem_lexemes spelled
          revert kind
          cases y.kind <;> simp
        · exact ih others

theorem read_operandTokens (xs : List Spelling) :
    WrittenOperand.read (operandTokens xs) = .ok (xs.map Spelling.written) := by
  induction xs with
  | nil => rfl
  | cons x xs ih =>
      rw [operandTokens, List.flatMap_cons, Spelling.read_lexemes, ← operandTokens, ih]
      rfl

theorem known_operandTokens (xs : List Spelling) : ∀ t ∈ operandTokens xs, t.kind ≠ .unknown := by
  intro t member
  rw [← filter_operandLexemes 1 xs] at member
  obtain ⟨y, among, rfl⟩ := List.mem_map.1 (List.mem_of_mem_filter member)
  exact (kind_of_mem_operandLexemes among).2.1

/-! ## Bases, labels and instructions -/

def baseLine (address : Word) : Line :=
  .specifier baseName (operandTokens [⟨false, .memory address⟩]) .none

theorem isRow_base (address : Word) :
    IsRow (Bytes.ofString (Entry.base address).render)
      (⟨.specifier, Ascii.dot :: baseName⟩ :: operandLexemes 1 [⟨false, .memory address⟩]) where
  text_eq := by
    rw [Lexeme.text_cons, text_operandLexemes]
    simp only [Entry.render, Bytes.ofString_append, List.map_cons, List.map_nil,
      String.intercalate_singleton, List.append_assoc]
    rfl
  found rest := by
    have feed : Stops isWordOrColon (Ascii.lineFeed :: rest) := rfl
    have after := stops_operandLexemes feed Nat.one_pos [⟨false, .memory address⟩]
    have word : baseName.all Ascii.isWord = true := by decide
    exact ⟨by simp, lexemeAt_specifier (List.all_eq_true.1 word) (by decide) after.isWord,
      found_operandLexemes feed Nat.one_pos _⟩
  inside := by
    intro x member
    rcases List.mem_cons.1 member with rfl | operand
    · simp
    · exact (kind_of_mem_operandLexemes operand).1

theorem writes_base (d : Dialect) (address : Word) :
    Writes d (Bytes.ofString (Entry.base address).render) [baseLine address] := by
  apply Writes.row (isRow_base address)
  rw [List.map_cons, List.filter_cons_of_pos (by decide), filter_operandLexemes,
    Line.readRow_of_known d]
  · rfl
  · intro t member
    rcases List.mem_cons.1 member with rfl | operand
    · decide
    · exact known_operandTokens _ t operand

theorem isRow_label (address : Word) (role : Role) :
    IsRow (Bytes.ofString (Entry.label (role.labelAt address)).render)
      [⟨.label, Bytes.ofString (role.labelAt address) ++ [Ascii.colon]⟩] where
  text_eq := by
    simp only [Entry.render, Bytes.ofString_append, Lexeme.text_cons, Lexeme.text_nil,
      List.append_assoc]
    rfl
  found rest := ⟨by simp, lexemeAt_label _ (role.all_isWord_labelAt address)
    (role.ofString_labelAt_ne_nil address), trivial⟩
  inside := by simp

theorem writes_label (d : Dialect) (address : Word) (role : Role) :
    Writes d (Bytes.ofString (Entry.label (role.labelAt address)).render)
      [.label (Bytes.ofString (role.labelAt address)) .none] := by
  apply Writes.row (isRow_label address role)
  have name : (Bytes.ofString (role.labelAt address) ++ [Ascii.colon]).dropLast =
      Bytes.ofString (role.labelAt address) := List.dropLast_concat
  show Except.ok [Line.label (List.dropLast _) .none] = _
  rw [name]

theorem lexemeAt_mnemonic (op : Opcode) {rest : Bytes} (stops : Stops isWordOrColon rest) :
    lexemeAt (Bytes.ofString op.mnemonic ++ rest) =
      (.identifier, (Bytes.ofString op.mnemonic).length) := by
  have word : (Bytes.ofString op.mnemonic).all Ascii.isWord = true := by
    cases op <;> decide
  have no_register : LexicalRule.isRegisterWord (Bytes.ofString op.mnemonic) = false := by
    cases op <;> decide
  obtain ⟨b, tail, spelled, no_digit⟩ :
      ∃ b tail, Bytes.ofString op.mnemonic = b :: tail ∧ Ascii.isDigit b = false := by
    cases op <;> exact ⟨_, _, rfl, by decide⟩
  rw [spelled] at word no_register ⊢
  rw [lexemeAt_word (List.all_eq_true.1 word) no_digit stops, if_neg (by simp [no_register])]

def instructionLexemes (op : Opcode) (xs : List Spelling) : List Lexeme :=
  .blanks 4 :: ⟨.identifier, Bytes.ofString op.mnemonic⟩ ::
    operandLexemes (8 - op.mnemonic.length + 1) xs

theorem kind_of_mem_instructionLexemes {op : Opcode} {xs : List Spelling} {y : Lexeme}
    (h : y ∈ instructionLexemes op xs) : y.kind ≠ .newline ∧ y.kind ≠ .label := by
  rcases List.mem_cons.1 h with rfl | word
  · decide
  · rcases List.mem_cons.1 word with rfl | operand
    · simp
    · exact ⟨(kind_of_mem_operandLexemes operand).1, (kind_of_mem_operandLexemes operand).2.2⟩

theorem isRow_instruction (op : Opcode) (xs : List Spelling) :
    IsRow (Bytes.ofString (Entry.instruction op (xs.map Spelling.text)).render)
      (instructionLexemes op xs) where
  text_eq := by
    rw [instructionLexemes, Lexeme.text_cons, Lexeme.text_cons]
    cases xs with
    | nil =>
        simp only [List.map_nil, Entry.render, Bytes.ofString_append, operandLexemes,
          Lexeme.text_nil, List.append_nil]
        rfl
    | cons x xs =>
        rw [text_operandLexemes, List.replicate_succ', List.map_cons]
        simp only [Entry.render, Bytes.ofString_append, Numeral.ofString_padRight,
          List.append_assoc]
        rfl
  found rest := by
    have feed : Stops isWordOrColon (Ascii.lineFeed :: rest) := rfl
    have after := stops_operandLexemes feed (Nat.succ_pos (8 - op.mnemonic.length)) xs
    have nonempty : Bytes.ofString op.mnemonic ≠ [] := by
      cases op <;> decide
    have identifier := lexemeAt_mnemonic op after
    apply Lexeme.Found.blanks (by decide)
    · cases op <;> rfl
    · exact ⟨nonempty, identifier, found_operandLexemes feed (Nat.succ_pos _) xs⟩
  inside _ member := (kind_of_mem_instructionLexemes member).1

theorem writes_instruction (d : Dialect) (op : Opcode) (xs : List Spelling) :
    Writes d (Bytes.ofString (Entry.instruction op (xs.map Spelling.text)).render)
      [.instruction ⟨Bytes.ofString op.mnemonic, xs.map Spelling.written, .none⟩] := by
  have lower : Lowercase.bytes (Bytes.ofString op.mnemonic) = Bytes.ofString op.mnemonic := by
    cases op <;> decide
  apply Writes.row (isRow_instruction op xs)
  rw [instructionLexemes, List.map_cons, List.map_cons, List.filter_cons_of_neg (by decide),
    List.filter_cons_of_pos rfl, filter_operandLexemes, Line.readRow_of_known d]
  · rw [Line.readFrom.eq_def]
    simp [Lexeme.bare, Token.Kind.textOf, read_operandTokens, lower]
  · intro t member
    rcases List.mem_cons.1 member with rfl | operand
    · simp [Lexeme.bare]
    · exact known_operandTokens xs t operand

/-! ## Whole listings -/

/-- The lines of a block with a valid instruction, met with a cursor. -/
def blockLines (targets : Targets) (cursor : Word) (b : SweptBlock) (op : Opcode) : List Line :=
  (if b.address = cursor then [] else [baseLine b.address]) ++
    (match targets[b.address]? with
      | some role => [.label (Bytes.ofString (role.labelAt b.address)) .none]
      | none => []) ++
    [.instruction (statementOf targets op b.instruction)]

def linesFrom (targets : Targets) : Word → List SweptBlock → List Line
  | _, [] => []
  | cursor, b :: rest =>
      match b.validate with
      | .error _ => linesFrom targets cursor rest
      | .ok op => blockLines targets cursor b op ++ linesFrom targets (b.address + 4) rest

def entryBytes (entries : List Entry) : Bytes :=
  entries.flatMap fun e => Bytes.ofString e.render

theorem entryBytes_singleton (e : Entry) : entryBytes [e] = Bytes.ofString e.render :=
  List.append_nil _

theorem entryBytes_append (before after : List Entry) :
    entryBytes (before ++ after) = entryBytes before ++ entryBytes after :=
  List.flatMap_append

theorem ofString_join (texts : List String) :
    Bytes.ofString (String.join texts) = texts.flatMap Bytes.ofString := by
  induction texts with
  | nil => rfl
  | cons s texts ih => rw [String.join_cons, Bytes.ofString_append, ih, List.flatMap_cons]

theorem ofString_ofWords (words : List Word) :
    Bytes.ofString (ofWords words) = entryBytes (entries words) := by
  rw [ofWords, textLines, ofString_join, List.flatMap_map]
  rfl

theorem writes_instructionEntries (d : Dialect) (targets : Targets) (cursor : Word)
    {b : SweptBlock} {op : Opcode} (valid : b.validate = .ok op) :
    Writes d (entryBytes (instructionEntries targets cursor b op))
      (blockLines targets cursor b op) := by
  have base : Writes d (entryBytes (if b.address = cursor then [] else [.base b.address]))
      (if b.address = cursor then [] else [baseLine b.address]) := by
    split
    · exact .nil d
    · rw [entryBytes_singleton]
      exact writes_base d b.address
  have label : Writes d
      (entryBytes (match targets[b.address]? with
        | some role => [.label (role.labelAt b.address)]
        | none => []))
      (match targets[b.address]? with
        | some role => [.label (Bytes.ofString (role.labelAt b.address)) .none]
        | none => []) := by
    cases targets[b.address]? with
    | none => exact .nil d
    | some role =>
        dsimp only
        rw [entryBytes_singleton]
        exact writes_label d b.address role
  have instruction : Writes d
      (entryBytes [.instruction op (operandTexts targets op b.instruction)])
      [.instruction (statementOf targets op b.instruction)] := by
    rw [operandTexts_eq targets (Instruction.validate_eq_ok_iff.1 valid), entryBytes_singleton]
    exact writes_instruction d op (spellings targets op b.instruction)
  rw [instructionEntries, entryBytes_append, entryBytes_append]
  exact (base.append label).append instruction

theorem writes_entriesFrom (d : Dialect) (targets : Targets) (cursor : Word)
    (blocks : List SweptBlock) :
    Writes d (entryBytes (entriesFrom targets [] cursor blocks))
      (linesFrom targets cursor blocks) := by
  induction blocks generalizing cursor with
  | nil => exact .nil d
  | cons b rest ih =>
      rw [linesFrom]
      cases checked : b.validate with
      | error defect =>
          rw [entriesFrom_cons_error checked, ← List.singleton_append, entryBytes_append,
            entryBytes_singleton]
          exact (writes_remark d b.address defect b.block).append (ih cursor)
      | ok op =>
          rw [entriesFrom_cons_ok checked, entryBytes_append]
          exact (writes_instructionEntries d targets cursor checked).append (ih (b.address + 4))

/-- A listing reads as the lines of its blocks. -/
theorem writes_ofWords (d : Dialect) (words : List Word) :
    Writes d (Bytes.ofString (ofWords words))
      (linesFrom (targetsOf (sweep words)) 0 (sweep words)) := by
  rw [ofString_ofWords]
  exact writes_entriesFrom d _ 0 (sweep words)

end WordMachine.Listing
