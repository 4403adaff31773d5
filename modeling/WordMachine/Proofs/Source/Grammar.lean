import WordMachine.Proofs.Source.Writing

/-!
# The grammar of lines

Which rows of tokens are lines, said apart from how they are read, and which lines a row spells.  A
row is read if and only if it has the form of the grammar, and as the lines it spells.  From these
the row can be written out again, but for the case of the mnemonic.
-/

namespace WordMachine

open Results

def tokenRows (tokens : List Token) : List (List Token) :=
  (tokens.splitOnP (·.kind == .newline)).map (·.filter (!·.isLayout))

def Token.IsBracket (t : Token) : Prop :=
  t.kind = .bracketOpen ∨ t.kind = .bracketClose

/-- An operand is spelled by one token that is no bracket, or by such a token in brackets. -/
inductive WrittenOperand.Spells : List Token → WrittenOperand → Prop where
  | direct {t : Token} : ¬ t.IsBracket → Spells [t] ⟨false, t⟩
  | indirect {first t last : Token} : first.kind = .bracketOpen → ¬ t.IsBracket →
      last.kind = .bracketClose → Spells [first, t, last] ⟨true, t⟩

namespace Line

/-- The lines that a row of tokens spells: one for each of its labels, and one for the specifier or
the instruction that follows them. -/
inductive Spells : List Token → List Line → Prop where
  | nothing : Spells [] []
  | label {t : Token} {row : List Token} {lines : List Line} : t.kind = .label →
      Spells row lines → Spells (t :: row) (.label t.text t.position :: lines)
  | specifier {t : Token} {args : List Token} : t.kind = .specifier →
      Spells (t :: args) [.specifier t.text args t.position]
  | instruction {t : Token} {pieces : List (List Token)} {operands : List WrittenOperand} :
      t.kind = .identifier → List.Forall₂ WrittenOperand.Spells pieces operands →
      Spells (t :: pieces.flatten) [.instruction ⟨Lowercase.bytes t.text, operands, t.position⟩]

/-- What may follow the labels of a row: nothing, a specifier and any tokens, or a mnemonic and
operands. -/
inductive Body : List Token → Prop where
  | nothing : Body []
  | specifier {t : Token} {args : List Token} : t.kind = .specifier → Body (t :: args)
  | instruction {t : Token} {pieces : List (List Token)} : t.kind = .identifier →
      (∀ piece ∈ pieces, ∃ operand, WrittenOperand.Spells piece operand) →
      Body (t :: pieces.flatten)

/-- Unless a dialect lets labels stand before something else, a row that begins with a label is this
label alone. -/
def LabelAlone (d : Dialect) (row : List Token) : Prop :=
  d.inlineLabels = false → ∀ t rest, row = t :: rest → t.kind = .label → rest = []

/-- A row of tokens that a dialect allows.  The empty row is one. -/
structure Formed (d : Dialect) (row : List Token) : Prop where
  known : ∀ t ∈ row, t.kind ≠ .unknown
  form : ∃ labels body, row = labels ++ body ∧ (∀ t ∈ labels, t.kind = .label) ∧ Body body
  alone : LabelAlone d row

end Line

/-! ## Writing lines out -/

/-- The kind of a token and what it says, without the case of an identifier and the text of a
bracket. -/
def Token.said (t : Token) : Token.Kind × Bytes :=
  match t.kind with
  | .bracketOpen | .bracketClose => (t.kind, [])
  | .identifier => (t.kind, Lowercase.bytes t.text)
  | _ => (t.kind, t.text)

def WrittenOperand.said (w : WrittenOperand) : List (Token.Kind × Bytes) :=
  if w.indirect then [(.bracketOpen, []), w.token.said, (.bracketClose, [])] else [w.token.said]

def Line.said : Line → List (Token.Kind × Bytes)
  | .label name _ => [(.label, name)]
  | .specifier name args _ => (.specifier, name) :: args.map Token.said
  | .instruction s => (.identifier, s.mnemonic) :: s.operands.flatMap WrittenOperand.said

/-! ## Rows -/

theorem exists_forall₂_iff {α β : Type} {r : α → β → Prop} {xs : List α} :
    (∃ ys, List.Forall₂ r xs ys) ↔ ∀ x ∈ xs, ∃ y, r x y := by
  induction xs with
  | nil => exact ⟨fun _ => List.forall_mem_nil _, fun _ => ⟨[], .nil⟩⟩
  | cons x xs ih =>
      rw [List.forall_mem_cons, ← ih]
      constructor
      · rintro ⟨ys, related⟩
        obtain ⟨y, rest, first, others, -⟩ := List.forall₂_cons_left_iff.1 related
        exact ⟨⟨y, first⟩, ⟨rest, others⟩⟩
      · rintro ⟨⟨y, first⟩, ⟨rest, others⟩⟩
        exact ⟨y :: rest, .cons first others⟩

/-- Leaving out elements commutes with splitting where none of the separators is left out. -/
theorem splitOnP_filter {α : Type} {p keep : α → Bool} (xs : List α)
    (kept : ∀ x, p x = true → keep x = true) :
    (xs.filter keep).splitOnP p = (xs.splitOnP p).map (·.filter keep) := by
  induction xs with
  | nil => rfl
  | cons x xs ih =>
      rw [List.splitOnP_cons_eq_if_modifyHead]
      by_cases ends : p x = true
      · rw [List.filter_cons_of_pos (kept x ends), List.splitOnP_cons_eq_if_modifyHead, if_pos ends,
          if_pos ends, ih]
        rfl
      · obtain ⟨row, rows, split⟩ := List.exists_cons_of_ne_nil (List.splitOnP_ne_nil p xs)
        rw [split, List.map_cons] at ih
        rw [if_neg ends, split, List.modifyHead_cons, List.map_cons]
        by_cases among : keep x = true
        · rw [List.filter_cons_of_pos among, List.filter_cons_of_pos among,
            List.splitOnP_cons_eq_if_modifyHead, if_neg ends, ih, List.modifyHead_cons]
        · rw [List.filter_cons_of_neg among, List.filter_cons_of_neg among, ih]

theorem rows_eq_tokenRows (tokens : List Token) : Line.rows tokens = tokenRows tokens := by
  apply splitOnP_filter
  intro t newline
  rw [beq_iff_eq] at newline
  simp [Token.isLayout, newline]

/-! ## Operands -/

namespace WrittenOperand

theorem spells_of_readFrom {done operands : List WrittenOperand} {row : List Token}
    (h : readFrom done row = .ok operands) :
    ∃ pieces more, row = pieces.flatten ∧ operands = done.reverse ++ more ∧
      List.Forall₂ Spells pieces more := by
  fun_induction readFrom done row with
  | case1 done => exact ⟨[], [], rfl, by simpa using (Except.ok.inj h).symm, .nil⟩
  | case2 | case3 | case4 | case5 | case6 | case8 => cases h
  | case7 done t close opens inner plain nested last rest closes ih =>
      obtain ⟨pieces, more, rfl, rfl, spells⟩ := ih h
      have operand : Spells [t, inner, last] ⟨true, inner⟩ :=
        .indirect opens (fun bracket => bracket.elim nested plain) closes
      exact ⟨_ :: pieces, ⟨true, inner⟩ :: more, rfl, by simp, .cons operand spells⟩
  | case9 done t rest close opens ih =>
      obtain ⟨pieces, more, rfl, rfl, spells⟩ := ih h
      have operand : Spells [t] ⟨false, t⟩ := .direct fun bracket => bracket.elim opens close
      exact ⟨_ :: pieces, ⟨false, t⟩ :: more, rfl, by simp, .cons operand spells⟩

theorem read_of_spells {pieces : List (List Token)} {operands : List WrittenOperand}
    (h : List.Forall₂ Spells pieces operands) : read pieces.flatten = .ok operands := by
  induction h with
  | nil => rfl
  | cons first rest ih =>
      rw [List.flatten_cons]
      cases first with
      | direct plain =>
          rw [List.singleton_append, read_direct _ (mt .inr plain) (mt .inl plain), ih]
          rfl
      | indirect opens plain closes =>
          rw [List.cons_append, List.cons_append, List.singleton_append,
            read_indirect _ opens (mt .inr plain) (mt .inl plain) closes, ih]
          rfl

theorem said_of_spells {pieces : List (List Token)} {operands : List WrittenOperand}
    (h : List.Forall₂ Spells pieces operands) :
    operands.flatMap said = pieces.flatten.map Token.said := by
  induction h with
  | nil => rfl
  | cons first rest ih =>
      rw [List.flatMap_cons, List.flatten_cons, List.map_append, ih]
      cases first with
      | direct plain => rfl
      | indirect opens plain closes => simp [said, Token.said, opens, closes]

theorem spells_of_read {row : List Token} {operands : List WrittenOperand}
    (h : read row = .ok operands) :
    ∃ pieces, row = pieces.flatten ∧ List.Forall₂ Spells pieces operands := by
  obtain ⟨pieces, more, whole, same, spells⟩ := spells_of_readFrom h
  rw [List.reverse_nil, List.nil_append] at same
  subst same
  exact ⟨pieces, whole, spells⟩

end WrittenOperand

/-! ## Lines -/

namespace Line

variable {d : Dialect} {row : List Token} {lines : List Line}

theorem readFrom_label {t : Token} (label : t.kind = .label)
    (allowed : d.inlineLabels = true ∨ row = []) :
    readFrom d [] (t :: row) = (readFrom d [] row).map (.label t.text t.position :: ·) := by
  cases row with
  | nil =>
      simp only [readFrom, label, if_true]
      rfl
  | cons next rest =>
      have inline : d.inlineLabels = true := allowed.resolve_right (List.cons_ne_nil _ _)
      have more := readFrom_append d [] [.label t.text t.position] (next :: rest)
      rw [readFrom.eq_def]
      simp only [label, inline, if_true]
      exact more

theorem readFrom_cons_cases {t : Token} (h : readFrom d [] (t :: row) = .ok lines) :
    (t.kind = .label ∧ (d.inlineLabels = true ∨ row = []) ∧
        ∃ others, readFrom d [] row = .ok others ∧ lines = .label t.text t.position :: others) ∨
      (t.kind = .specifier ∧ lines = [.specifier t.text row t.position]) ∨
      (t.kind = .identifier ∧ ∃ operands, WrittenOperand.read row = .ok operands ∧
        lines = [.instruction ⟨Lowercase.bytes t.text, operands, t.position⟩]) := by
  by_cases label : t.kind = .label
  · have allowed : d.inlineLabels = true ∨ row = [] := by
      cases row with
      | nil => exact .inr rfl
      | cons next rest =>
          rw [readFrom.eq_def] at h
          by_contra refused
          simp_all
    rw [readFrom_label label allowed] at h
    obtain ⟨others, read, rfl⟩ := map_eq_ok_iff.1 h
    exact .inl ⟨label, allowed, others, read, rfl⟩
  · rw [readFrom.eq_def] at h
    dsimp only at h
    rw [if_neg label] at h
    split at h
    · rename_i specifier
      exact .inr (.inl ⟨specifier, (Except.ok.inj h).symm⟩)
    · split at h
      · rename_i identifier
        split at h
        · cases h
        · rename_i operands read
          exact .inr (.inr ⟨identifier, operands, read, (Except.ok.inj h).symm⟩)
      · cases h

theorem labelAlone_nil : LabelAlone d [] :=
  fun _ _ _ same => nomatch same

theorem labelAlone_of_not_label {t : Token} (other : t.kind ≠ .label) :
    LabelAlone d (t :: row) := by
  intro _ u rest same label
  cases same
  exact absurd label other

theorem labelAlone_label_iff {t : Token} (label : t.kind = .label) :
    LabelAlone d (t :: row) ↔ d.inlineLabels = true ∨ row = [] := by
  constructor
  · intro alone
    by_cases inline : d.inlineLabels = true
    · exact .inl inline
    · exact .inr (alone (Bool.eq_false_iff.2 inline) t row rfl label)
  · rintro (inline | rfl) refused u rest same -
    · rw [inline] at refused
      cases refused
    · cases same
      rfl

theorem spells_of_readFrom (h : readFrom d [] row = .ok lines) :
    Spells row lines ∧ LabelAlone d row := by
  induction row generalizing lines with
  | nil =>
      cases h
      exact ⟨.nothing, labelAlone_nil⟩
  | cons t row ih =>
      rcases readFrom_cons_cases h with
        ⟨label, allowed, others, read, rfl⟩ | ⟨specifier, rfl⟩ | ⟨identifier, operands, read, rfl⟩
      · exact ⟨.label label (ih read).1, (labelAlone_label_iff label).2 allowed⟩
      · exact ⟨.specifier specifier, labelAlone_of_not_label (by simp [specifier])⟩
      · obtain ⟨pieces, rfl, spells⟩ := WrittenOperand.spells_of_read read
        exact ⟨.instruction identifier spells, labelAlone_of_not_label (by simp [identifier])⟩

theorem readFrom_of_spells (h : Spells row lines) (alone : LabelAlone d row) :
    readFrom d [] row = .ok lines := by
  induction h with
  | nothing => rfl
  | @label t row lines label rest ih =>
      have allowed := (labelAlone_label_iff label).1 alone
      have later : LabelAlone d row := by
        rcases allowed with inline | rfl
        · intro refused
          rw [inline] at refused
          cases refused
        · exact labelAlone_nil
      rw [readFrom_label label allowed, ih later]
      rfl
  | specifier specifier => simp [readFrom, specifier]
  | instruction identifier spells =>
      simp [readFrom, identifier, WrittenOperand.read_of_spells spells]

theorem said_of_spells (h : Spells row lines) : lines.flatMap said = row.map Token.said := by
  induction h with
  | nothing => rfl
  | label label rest ih =>
      rw [List.flatMap_cons, List.map_cons, ih]
      simp [said, Token.said, label]
  | specifier specifier => simp [said, Token.said, specifier]
  | instruction identifier spells =>
      simp [said, Token.said, identifier, WrittenOperand.said_of_spells spells]

theorem said_of_forall₂ {rows : List (List Token)} {parts : List (List Line)}
    (h : List.Forall₂ Spells rows parts) :
    parts.flatten.flatMap said = rows.flatten.map Token.said := by
  induction h with
  | nil => rfl
  | cons first rest ih =>
      rw [List.flatten_cons, List.flatten_cons, List.flatMap_append, List.map_append,
        said_of_spells first, ih]

/-! ## The form of a row -/

theorem form_of_spells (h : Spells row lines) :
    ∃ labels body, row = labels ++ body ∧ (∀ t ∈ labels, t.kind = .label) ∧ Body body := by
  induction h with
  | nothing => exact ⟨[], [], rfl, List.forall_mem_nil _, .nothing⟩
  | @label t row lines label rest ih =>
      obtain ⟨labels, body, rfl, all, tail⟩ := ih
      exact ⟨t :: labels, body, rfl, List.forall_mem_cons.2 ⟨label, all⟩, tail⟩
  | specifier specifier => exact ⟨[], _, rfl, List.forall_mem_nil _, .specifier specifier⟩
  | instruction identifier spells =>
      have operands := exists_forall₂_iff.1 ⟨_, spells⟩
      exact ⟨[], _, rfl, List.forall_mem_nil _, .instruction identifier operands⟩

theorem exists_spells {labels body : List Token} (all : ∀ t ∈ labels, t.kind = .label)
    (h : Body body) : ∃ lines, Spells (labels ++ body) lines := by
  induction labels with
  | nil =>
      cases h with
      | nothing => exact ⟨_, .nothing⟩
      | specifier specifier => exact ⟨_, .specifier specifier⟩
      | instruction identifier operands =>
          obtain ⟨operands, spells⟩ := exists_forall₂_iff.2 operands
          exact ⟨_, .instruction identifier spells⟩
  | cons t labels ih =>
      obtain ⟨lines, spells⟩ := ih fun u member => all u (.tail _ member)
      exact ⟨_, .label (all t List.mem_cons_self) spells⟩

theorem readRow_eq_ok_iff : readRow d row = .ok lines ↔ Formed d row ∧ Spells row lines := by
  constructor
  · intro h
    have known : ∀ t ∈ row, t.kind ≠ .unknown := by
      rw [readRow] at h
      split at h
      · cases h
      · rename_i none
        simpa using none
    rw [readRow_of_known d known] at h
    obtain ⟨spells, alone⟩ := spells_of_readFrom h
    exact ⟨⟨known, form_of_spells spells, alone⟩, spells⟩
  · rintro ⟨formed, spells⟩
    rw [readRow_of_known d formed.known]
    exact readFrom_of_spells spells formed.alone

theorem exists_readRow (h : Formed d row) : ∃ lines, readRow d row = .ok lines := by
  obtain ⟨labels, body, rfl, all, body⟩ := h.form
  obtain ⟨lines, spells⟩ := exists_spells all body
  exact ⟨lines, readRow_eq_ok_iff.2 ⟨h, spells⟩⟩

end Line

theorem Line.parse_eq_ok_iff {d : Dialect} {tokens : List Token} {lines : List Line} :
    parse d tokens = .ok lines ↔
      ∃ parts, List.Forall₂ (fun row part => readRow d row = .ok part) (tokenRows tokens) parts ∧
        parts.flatten = lines := by
  rw [parse, rows_eq_tokenRows, map_eq_ok_iff]
  simp only [mapM_eq_ok_iff]

theorem Line.parse_eq_ok_iff_spells {d : Dialect} {tokens : List Token} {lines : List Line} :
    parse d tokens = .ok lines ↔
      (∀ row ∈ tokenRows tokens, Formed d row) ∧
        ∃ parts, List.Forall₂ Spells (tokenRows tokens) parts ∧ parts.flatten = lines := by
  simp only [parse_eq_ok_iff, readRow_eq_ok_iff, List.forall₂_and_left, and_assoc, exists_and_left]

/-- Tokens are read if and only if each of their rows has the form of the grammar, and as the lines
that the rows spell, in order.  Written out again, these lines say what the rows do. -/
theorem parse_iff_rows_formed (d : Dialect) (tokens : List Token) :
    ((∃ lines, Line.parse d tokens = .ok lines) ↔
        ∀ row ∈ tokenRows tokens, Line.Formed d row) ∧
      ∀ lines,
        (Line.parse d tokens = .ok lines ↔
          (∀ row ∈ tokenRows tokens, Line.Formed d row) ∧
            ∃ parts, List.Forall₂ Line.Spells (tokenRows tokens) parts ∧ parts.flatten = lines) ∧
        (Line.parse d tokens = .ok lines →
          lines.flatMap Line.said = (tokenRows tokens).flatten.map Token.said) := by
  refine ⟨⟨?_, ?_⟩, fun lines => ⟨Line.parse_eq_ok_iff_spells, ?_⟩⟩
  · rintro ⟨lines, read⟩
    exact (Line.parse_eq_ok_iff_spells.1 read).1
  · intro formed
    have each : ∀ row ∈ tokenRows tokens, ∃ part, Line.readRow d row = .ok part :=
      fun row member => Line.exists_readRow (formed row member)
    obtain ⟨parts, read⟩ := exists_forall₂_iff.2 each
    exact ⟨parts.flatten, Line.parse_eq_ok_iff.2 ⟨parts, read, rfl⟩⟩
  · intro read
    obtain ⟨-, parts, spells, rfl⟩ := Line.parse_eq_ok_iff_spells.1 read
    exact Line.said_of_forall₂ spells

end WordMachine
