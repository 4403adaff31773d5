import WordMachine.Proofs.Assembly.Restyling
import WordMachine.Proofs.Source.Refusal
import WordMachine.Proofs.Source.Shapes
import WordMachine.Proofs.Source.Writing

/-!
# Normal layout

A source text in normal layout has no comments, one space between the tokens of a line, and one line
feed for each line end.  Every lexeme but an unknown one is recognised by its shape alone, so it is
found again in its new place, and the text is assembled as before.
-/

namespace WordMachine

/-- The tokens of a source text that are neither blanks nor comments, as they are spelled: with one
space between those of a row, and one line feed between rows. -/
def normalLayout (source : Bytes) : Bytes :=
  [Ascii.lineFeed].intercalate ((tokenRows (tokenize source)).map fun row =>
    [Ascii.space].intercalate (row.map Token.raw))

/-! ## Tokens that can be moved -/

/-- A token that is found by its shape and says what its lexeme says. -/
structure Token.Movable (t : Token) : Prop where
  shape : t.kind.Shape t.raw
  visible : t.isLayout = false
  bare : t.lexeme.bare = t.bare

namespace Token.Movable

variable {t : Token} {rest : Bytes}

theorem no_blanks (h : t.Movable) : t.kind ≠ .whitespace := by
  intro blanks
  have visible := h.visible
  rw [Token.isLayout, blanks] at visible
  cases visible

theorem no_comment (h : t.Movable) : t.kind ≠ .comment := by
  intro comment
  have visible := h.visible
  rw [Token.isLayout, comment] at visible
  cases visible

theorem lexemeAt (h : t.Movable) (stops : Stops isWordOrColon rest) :
    lexemeAt (t.raw ++ rest) = (t.kind, t.raw.length) :=
  h.shape.lexemeAt_append h.no_blanks h.no_comment stops

theorem stops_isBlank (h : t.Movable) : Stops Ascii.isBlank (t.raw ++ rest) :=
  h.shape.stops_isBlank h.no_blanks

end Token.Movable

theorem Lexeme.bare_of_mem_tokens {place : Place} {xs : List Lexeme} {t : Token}
    (member : t ∈ tokens place xs) : t.lexeme ∈ xs ∧ t.lexeme.bare = t.bare := by
  rcases mem_of_mem_tokens member with ⟨among, text⟩
  exact ⟨among, by rw [Token.bare, text]; rfl⟩

theorem movable_of_mem_tokenRows {source : Bytes} {row : List Token} {t : Token}
    (known : ∀ t ∈ tokenize source, t.kind ≠ .unknown) (member : row ∈ tokenRows (tokenize source))
    (inside : t ∈ row) : t.Movable := by
  have among := mem_of_mem_tokenRows member inside
  have recognised := known t among
  rcases List.mem_map.1 member with ⟨whole, -, rfl⟩
  have visible := (List.mem_filter.1 inside).2
  rw [Bool.not_eq_true'] at visible
  rcases Token.shape_of_mem_tokenize among recognised with ⟨shape, text⟩
  exact ⟨shape, visible, by rw [Token.bare, text]; rfl⟩

/-! ## One row -/

theorem exists_intercalate_cons (separator first : Bytes) (others : List Bytes) :
    ∃ tail, separator.intercalate (first :: others) = first ++ tail := by
  cases others with
  | nil => exact ⟨[], by rw [List.intercalate_singleton, List.append_nil]⟩
  | cons second others =>
      exact ⟨separator ++ separator.intercalate (second :: others),
        by rw [List.intercalate_cons_cons, List.append_assoc]⟩

/-- The lexemes of a row in normal layout are found before anything that ends a word. -/
theorem exists_found_row {row : List Token} (movable : ∀ t ∈ row, t.Movable) :
    ∃ xs, Lexeme.text xs = [Ascii.space].intercalate (row.map Token.raw) ∧
      (∀ rest, Stops isWordOrColon rest → Lexeme.Found rest xs) ∧
      (xs.map Lexeme.bare).filter (!·.isLayout) = row.map Token.bare := by
  induction row with
  | nil => exact ⟨[], rfl, fun _ _ => trivial, rfl⟩
  | cons t row ih =>
      have first := movable t List.mem_cons_self
      have kept (more : List Token) : (t.lexeme.bare :: more).filter (!·.isLayout) =
          t.bare :: more.filter (!·.isLayout) := by
        have visible : t.bare.isLayout = false := first.visible
        rw [first.bare, List.filter_cons_of_pos (by rw [visible]; rfl)]
      rcases ih fun u member => movable u (.tail t member) with ⟨xs, text, found, bare⟩
      cases row with
      | nil =>
          refine ⟨[t.lexeme], by simp [Token.lexeme], ?_, ?_⟩
          · intro rest stops
            exact ⟨first.shape.ne_nil, first.lexemeAt stops, trivial⟩
          · exact kept []
      | cons u row =>
          refine ⟨t.lexeme :: .blanks 1 :: xs, ?_, ?_, ?_⟩
          · rw [Lexeme.text_cons, Lexeme.text_cons, text, List.map_cons, List.map_cons,
              List.map_cons, List.intercalate_cons_cons, List.append_assoc]
            rfl
          · intro rest stops
            -- The next token begins with no blank, and a blank ends the word before it.
            have blank : Stops Ascii.isBlank (Lexeme.text xs ++ rest) := by
              rcases exists_intercalate_cons [Ascii.space] u.raw (row.map Token.raw) with
                ⟨tail, joined⟩
              rw [text, List.map_cons, joined, List.append_assoc]
              exact (movable u (.tail t List.mem_cons_self)).stops_isBlank
            exact ⟨first.shape.ne_nil, first.lexemeAt rfl,
              .blanks Nat.one_pos blank (found rest stops)⟩
          · rw [List.map_cons, List.map_cons, kept, List.filter_cons_of_neg (by decide), bare]
            rfl

/-! ## All rows -/

/-- The lexemes of rows in normal layout say what the rows say, with line ends between them. -/
theorem exists_found_rows {rows : List (List Token)}
    (movable : ∀ row ∈ rows, ∀ t ∈ row, t.Movable) :
    ∃ xs, Lexeme.text xs = [Ascii.lineFeed].intercalate (rows.map fun row =>
        [Ascii.space].intercalate (row.map Token.raw)) ∧
      Lexeme.Found [] xs ∧
      (xs.map Lexeme.bare).filter (!·.isLayout) =
        [Lexeme.newline.bare].intercalate (rows.map (List.map Token.bare)) := by
  induction rows with
  | nil => exact ⟨[], rfl, trivial, rfl⟩
  | cons row rows ih =>
      rcases ih fun other member => movable other (.tail row member) with ⟨ys, text, found, bare⟩
      rcases exists_found_row (movable row List.mem_cons_self) with
        ⟨xs, text_row, found_row, bare_row⟩
      cases rows with
      | nil =>
          refine ⟨xs, ?_, found_row [] trivial, ?_⟩
          · rw [text_row, List.map_singleton, List.intercalate_singleton]
          · rw [bare_row, List.map_singleton, List.intercalate_singleton]
      | cons other rows =>
          have feed : Lexeme.Found [] (.newline :: ys) :=
            ⟨List.cons_ne_nil _ _, lexemeAt_newline _, found⟩
          have before : Lexeme.Found (Lexeme.text (.newline :: ys) ++ []) xs := found_row _ rfl
          refine ⟨xs ++ .newline :: ys, ?_, before.append feed, ?_⟩
          · rw [Lexeme.text_append, Lexeme.text_cons, text, text_row, List.map_cons, List.map_cons,
              List.map_cons, List.intercalate_cons_cons, List.append_assoc]
            rfl
          · rw [List.map_append, List.filter_append, bare_row, List.map_cons,
              List.filter_cons_of_pos (by decide), bare, List.map_cons, List.map_cons,
              List.map_cons, List.intercalate_cons_cons, List.append_assoc]
            rfl

theorem map_eq_intercalate_splitOnP {α β : Type} {p : α → Bool} {f : α → β} {c : β} {xs : List α}
    (separators : ∀ x ∈ xs, p x = true → f x = c) :
    xs.map f = [c].intercalate ((xs.splitOnP p).map (List.map f)) := by
  induction xs with
  | nil => rfl
  | cons x xs ih =>
      have others := ih fun y member => separators y (.tail x member)
      rcases List.exists_cons_of_ne_nil (List.splitOnP_ne_nil p xs) with ⟨row, rows, split⟩
      rw [List.splitOnP_cons_eq_if_modifyHead, List.map_cons, others, split]
      by_cases ends : p x = true
      · rw [if_pos ends, separators x List.mem_cons_self ends]
        rfl
      · rw [if_neg ends, List.modifyHead_cons]
        exact List.intercalate_cons_cons_left.symm

theorem map_bare_tokenize (source : Bytes) :
    ((tokenize source).filter (!·.isLayout)).map Token.bare =
      [Lexeme.newline.bare].intercalate
        ((tokenRows (tokenize source)).map (List.map Token.bare)) := by
  rw [← rows_eq_tokenRows]
  apply map_eq_intercalate_splitOnP
  intro t member newline
  rw [beq_iff_eq] at newline
  rcases Lexeme.exists_found source with ⟨xs, rfl, found⟩
  rw [tokenize_of_found found] at member
  rw [← (Lexeme.bare_of_mem_tokens (List.mem_of_mem_filter member)).2]
  simp only [Lexeme.bare, Token.lexeme, newline]
  rfl

theorem map_bare_normalLayout {source : Bytes}
    (known : ∀ t ∈ tokenize source, t.kind ≠ .unknown) :
    ((tokenize (normalLayout source)).filter (!·.isLayout)).map Token.bare =
      ((tokenize source).filter (!·.isLayout)).map Token.bare := by
  rcases exists_found_rows fun row member t => movable_of_mem_tokenRows known member with
    ⟨xs, text, found, bare⟩
  rw [map_bare_tokenize source, ← bare, ← Lexeme.map_bare_tokens .start, ← tokenize_of_found found,
    text, List.filter_map]
  rfl

/-- Normal layout preserves the program: the tokens other than blanks and comments have the same
kinds and texts in the same order, and the text is assembled to the same image, or refused by the
same stage for an error of the same category. -/
theorem normal_layout_preserves_program (source : Bytes)
    (known : ∀ t ∈ tokenize source, t.kind ≠ .unknown) :
    ((tokenize (normalLayout source)).filter (!·.isLayout)).map (fun t => (t.kind, t.text)) =
      ((tokenize source).filter (!·.isLayout)).map (fun t => (t.kind, t.text)) ∧
    ∀ d,
      (∀ image, assemble d source = .ok image ↔ assemble d (normalLayout source) = .ok image) ∧
      ∀ e, assemble d source = .error e →
        ∃ other, assemble d (normalLayout source) = .error other ∧ other.stage = e.stage ∧
          other.error.category = e.error.category := by
  have bare := map_bare_normalLayout known
  constructor
  · have said := congrArg (List.map fun t => (t.kind, t.text)) bare
    rw [List.map_map, List.map_map] at said
    exact said
  · intro d
    have rows : (Line.rows (tokenize source)).map (List.map Restyling.bare.token) =
        (Line.rows (tokenize (normalLayout source))).map (List.map Restyling.bare.token) := by
      rw [← Restyling.rows_map, ← Restyling.rows_map, Line.rows, Line.rows, List.filter_map,
        List.filter_map]
      exact congrArg _ bare.symm
    have outcome := Restyling.assemble_of_rows rows d
    refine ⟨outcome.image, ?_⟩
    intro e failed
    rcases outcome.failure e failed with ⟨other, refused, stage, category, -⟩
    exact ⟨other, refused, stage, category⟩

/-- A label, comments, both line ends, brackets and a number right before a register. -/
def crowdedSource : Bytes := Bytes.ofString "top:inc[r1];up\r\n\r\n\tmov 12r0 ; copy\njmp :top"

theorem crowded_source_laid_out :
    (∀ t ∈ tokenize crowdedSource, t.kind ≠ .unknown) ∧
      normalLayout crowdedSource = Bytes.ofString "top: inc [ r1 ]\n\nmov 12 r0\njmp :top" ∧
      ∃ image, assemble .standard crowdedSource = .ok image ∧
        assemble .standard (normalLayout crowdedSource) = .ok image := by
  have known : ∀ t ∈ tokenize crowdedSource, t.kind ≠ .unknown := by decide +kernel
  have made : (assemble .standard crowdedSource).isOk = true := by decide +kernel
  rcases Results.isOk_iff.1 made with ⟨image, assembled⟩
  have same := ((normal_layout_preserves_program crowdedSource known).2 .standard).1 image
  exact ⟨known, by decide +kernel, image, assembled, same.1 assembled⟩

end WordMachine
