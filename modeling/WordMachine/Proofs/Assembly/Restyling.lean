import WordMachine.Proofs.Assembly.Comparison

/-!
# Assembly of restyled lines

Restyled lines have the labels and the image of the lines themselves, or fail like them.  So two
source texts whose rows of tokens a restyling makes equal are assembled alike.
-/

namespace WordMachine.Restyling

open Results

variable (r : Restyling)

/-! ## Statements -/

theorem word_agrees (t : Token) : r.Agrees id t.word (r.token t).word := by
  rw [Token.word, Token.word, text_token]
  cases Numeral.decimal? t.text with
  | none => exact .refused t rfl
  | some n =>
      dsimp only
      split
      · exact .ok rfl
      · exact .refused t rfl

theorem target_agrees (labels : Labels) (t : Token) :
    r.Agrees id (t.target labels) ((r.token t).target labels) := by
  have word := r.word_agrees t
  rw [Token.target, Token.target, kind_token, text_token]
  cases t.kind with
  | register =>
      dsimp only
      cases Register.ofName? t.text with
      | none => exact .refused t rfl
      | some register => exact .ok rfl
  | labelRef =>
      dsimp only
      cases labels[t.text]? with
      | none => exact .refused t rfl
      | some address => exact .ok rfl
  | literal | number =>
      dsimp only
      generalize t.word = x, (r.token t).word = y at word ⊢
      cases word with
      | ok same =>
          subst same
          exact .ok rfl
      | error alike => exact .error alike
      | excused allowed => exact allowed.elim
  | _ => exact .refused t rfl

theorem alike_statement (labels : Labels) (s : Statement) :
    s.Alike r.position labels labels (r.statement s) where
  mnemonic := rfl
  position := rfl
  operands := by
    refine forall₂_map_self ?_ s.operands
    intro x
    exact WrittenOperand.resolve_compares rfl (r.target_agrees labels x.token)

/-! ## Cursors -/

theorem baseValue_agrees (d : Dialect) (args : List Token) (position : Position) :
    r.Agrees id (baseValue d args position)
      (baseValue d (args.map r.token) (r.position position)) := by
  match args with
  | [] => exact .error_at position rfl
  | [arg] =>
      have word := r.word_agrees arg
      simp only [baseValue, List.map_cons, List.map_nil, kind_token]
      split
      · generalize arg.word = x, (r.token arg).word = y at word ⊢
        cases word with
        | error alike => exact .error alike
        | excused allowed => exact allowed.elim
        | ok same =>
            subst same
            dsimp only [id]
            split
            · exact .refused arg rfl
            · exact .ok rfl
      · exact .error_at position rfl
  | _ :: _ :: _ => exact .error_at position rfl

theorem cursorAfter_agrees (d : Dialect) (cursor : Word) (line : Line) :
    r.Agrees id (line.cursorAfter d cursor) ((r.line line).cursorAfter d cursor) := by
  cases line with
  | label name position => exact .ok rfl
  | specifier name args position =>
      simp only [Restyling.line, Line.cursorAfter]
      split
      · exact r.baseValue_agrees d args position
      · exact .ok rfl
  | instruction s => exact .ok rfl

/-! ## Passes -/

theorem enter_agrees (d : Dialect) (labels : Labels) (cursor : Word) (line : Line) :
    r.Agrees id (labels.enter d ⟨cursor, line⟩) (labels.enter d ⟨cursor, r.line line⟩) := by
  cases line with
  | label name position =>
      simp only [Labels.enter, Restyling.line]
      split
      · split
        · exact .ok rfl
        · exact .error_at position rfl
      · exact .ok rfl
  | specifier name args position => exact .ok rfl
  | instruction s => exact .ok rfl

theorem emit_agrees (labels : Labels) (image : Image) (cursor : Word) (line : Line) :
    r.Agrees id (Placed.emit labels image ⟨cursor, line⟩)
      (Placed.emit labels image ⟨cursor, r.line line⟩) := by
  cases line with
  | label name position => exact .ok rfl
  | specifier name args position => exact .ok rfl
  | instruction s => exact (r.alike_statement labels s).emit image cursor

theorem labels_agree (d : Dialect) (lines : List Line) :
    r.Agrees id (Labels.ofLines d lines) (Labels.ofLines d (lines.map r.line)) := by
  apply Labels.ofLines_compares rfl
  refine forall₂_map_self ?_ lines
  intro line
  exact .of_eq (fun cursor labels => r.enter_agrees d labels cursor line)
    fun cursor => r.cursorAfter_agrees d cursor line

theorem image_agrees (d : Dialect) (labels : Labels) (lines : List Line) :
    r.Agrees id (Image.ofLines d labels lines) (Image.ofLines d labels (lines.map r.line)) := by
  apply Image.ofLines_compares
  refine forall₂_map_self ?_ lines
  intro line
  exact .of_eq (fun cursor image => r.emit_agrees labels image cursor line)
    fun cursor => r.cursorAfter_agrees d cursor line

/-! ## Texts that a restyling makes equal -/

section Alike

variable {r} {α β : Type} {f : α → β} {x y : Except SourceError α} {z : Except SourceError β}

/-- Of two results that agree with one restyled result, both succeed or none does. -/
theorem Agrees.ok_of_ok (first : r.Agrees f x z) (second : r.Agrees f y z) {a : α}
    (made : x = .ok a) : ∃ b, y = .ok b ∧ f b = f a := by
  rcases first.exists_ok made with ⟨_, restyled, rfl⟩
  exact second.exists_ok_first Tolerance.exact_movedBy restyled

theorem Agrees.error_of_error (first : r.Agrees f x z) (second : r.Agrees f y z) {e : SourceError}
    (failed : x = .error e) :
    ∃ other, y = .error other ∧ other.category = e.category ∧
      r.position other.position = r.position e.position := by
  rcases first.exists_error Tolerance.exact_movedBy failed with ⟨_, restyled, place, category⟩
  subst restyled
  cases second with
  | error alike =>
      exact ⟨_, rfl, alike.2.symm.trans category, alike.1.symm.trans place⟩
  | excused allowed => exact allowed.elim

end Alike

/-- Two outcomes of assembly are the same image, or errors of one stage and one category at places
that the restyling does not tell apart. -/
structure SameOutcome (x y : Except AssemblyError Image) : Prop where
  image : ∀ image, x = .ok image ↔ y = .ok image
  failure : ∀ e, x = .error e → ∃ other, y = .error other ∧ other.stage = e.stage ∧
    other.error.category = e.error.category ∧
    r.position other.error.position = r.position e.error.position

section Sources

variable {r} {source other : Bytes}
  (rows : (Line.rows (tokenize source)).map (List.map r.token) =
    (Line.rows (tokenize other)).map (List.map r.token))

include rows

theorem parse_of_rows (d : Dialect) :
    r.Agrees (List.map r.line) (Line.parse d (tokenize other))
      (Line.parse d ((tokenize source).map r.token)) := by
  have agrees := r.parse_agrees d (tokenize other)
  rw [Line.parse, Line.parse, rows_map, ← rows, ← rows_map] at agrees
  exact agrees

theorem assemble_ok_of_rows {d : Dialect} {image : Image} (made : assemble d source = .ok image) :
    assemble d other = .ok image := by
  rcases assemble_eq_ok_iff.1 made with ⟨lines, labels, parsed, bound, emitted⟩
  rcases (r.parse_agrees d _).ok_of_ok (parse_of_rows rows d) parsed with ⟨others, read, same⟩
  have labelled := r.labels_agree d others
  have placed := r.image_agrees d labels others
  rw [same] at labelled placed
  rcases (r.labels_agree d lines).ok_of_ok labelled bound with ⟨_, bound_others, rfl⟩
  rcases (r.image_agrees d _ lines).ok_of_ok placed emitted with ⟨_, emitted_others, rfl⟩
  exact assemble_eq_ok_iff.2 ⟨others, _, read, bound_others, emitted_others⟩

theorem assemble_error_of_rows {d : Dialect} {e : AssemblyError}
    (failed : assemble d source = .error e) :
    ∃ found, assemble d other = .error found ∧ found.stage = e.stage ∧
      found.error.category = e.error.category ∧
      r.position found.error.position = r.position e.error.position := by
  have parses := r.parse_agrees d (tokenize source)
  have reads := parse_of_rows rows d
  rcases assemble_eq_error_iff.1 failed with
    ⟨stage, refused⟩ | ⟨stage, lines, parsed, refused⟩ |
    ⟨stage, lines, labels, parsed, bound, refused⟩
  · rcases parses.error_of_error reads refused with ⟨found, read, alike⟩
    exact ⟨⟨e.stage, found⟩, assemble_eq_error_iff.2 (.inl ⟨stage, read⟩), rfl, alike⟩
  · rcases parses.ok_of_ok reads parsed with ⟨others, read, same⟩
    have labelled := r.labels_agree d others
    rw [same] at labelled
    rcases (r.labels_agree d lines).error_of_error labelled refused with ⟨found, unbound, alike⟩
    exact ⟨⟨e.stage, found⟩,
      assemble_eq_error_iff.2 (.inr (.inl ⟨stage, others, read, unbound⟩)), rfl, alike⟩
  · rcases parses.ok_of_ok reads parsed with ⟨others, read, same⟩
    have labelled := r.labels_agree d others
    have placed := r.image_agrees d labels others
    rw [same] at labelled placed
    rcases (r.labels_agree d lines).ok_of_ok labelled bound with ⟨_, bound_others, rfl⟩
    rcases (r.image_agrees d _ lines).error_of_error placed refused with ⟨found, unplaced, alike⟩
    exact ⟨⟨e.stage, found⟩,
      assemble_eq_error_iff.2 (.inr (.inr ⟨stage, others, _, read, bound_others, unplaced⟩)), rfl,
      alike⟩

/-- Source texts whose rows are restyled alike are assembled alike. -/
theorem assemble_of_rows (d : Dialect) : r.SameOutcome (assemble d source) (assemble d other) where
  image _ := ⟨assemble_ok_of_rows rows, assemble_ok_of_rows rows.symm⟩
  failure _ := assemble_error_of_rows rows

end Sources

end WordMachine.Restyling
