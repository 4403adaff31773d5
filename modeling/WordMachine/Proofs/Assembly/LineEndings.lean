import WordMachine.Proofs.Assembly.Restyling
import WordMachine.Proofs.Source.LineLocality

/-!
# Line endings

A source text without carriage returns may be given one before each of its line feeds.  A comment
takes the carriage return of its line with it, and elsewhere it is a part of the line end; in either
case all other tokens are the same, in the same lines and columns, and the text is assembled as
before.
-/

namespace WordMachine

/-- A text with a carriage return before each line feed. -/
def withCarriageReturns (source : Bytes) : Bytes :=
  source.flatMap fun b =>
    if b = Ascii.lineFeed then [Ascii.carriageReturn, Ascii.lineFeed] else [b]

theorem withCarriageReturns_of_feedless {line : Bytes} (feedless : Ascii.lineFeed ∉ line) :
    withCarriageReturns line = line := by
  induction line with
  | nil => rfl
  | cons b line ih =>
      rw [List.mem_cons, not_or] at feedless
      have rest := ih feedless.2
      unfold withCarriageReturns at rest ⊢
      rw [List.flatMap_cons, if_neg (Ne.symm feedless.1), rest, List.singleton_append]

theorem withCarriageReturns_line {line : Bytes} (feedless : Ascii.lineFeed ∉ line) (rest : Bytes) :
    withCarriageReturns (line ++ Ascii.lineFeed :: rest) =
      line ++ [Ascii.carriageReturn, Ascii.lineFeed] ++ withCarriageReturns rest := by
  have first := withCarriageReturns_of_feedless feedless
  unfold withCarriageReturns at first ⊢
  rw [List.flatMap_append, first, List.flatMap_cons, if_pos rfl, List.append_assoc]

/-- What holds of a text without line feeds, and of a line before a text of which it holds, holds of
every text. -/
theorem lines_induction {motive : Bytes → Prop}
    (last : ∀ line, Ascii.lineFeed ∉ line → motive line)
    (line : ∀ line rest, Ascii.lineFeed ∉ line → motive rest →
      motive (line ++ Ascii.lineFeed :: rest))
    (source : Bytes) : motive source := by
  have behind : ∀ begun, Ascii.lineFeed ∉ begun → motive (begun ++ source) := by
    induction source with
    | nil =>
        intro begun feedless
        rw [List.append_nil]
        exact last begun feedless
    | cons b source ih =>
        intro begun feedless
        by_cases feed : b = Ascii.lineFeed
        · subst feed
          exact line begun source feedless (ih [] List.not_mem_nil)
        · have longer : Ascii.lineFeed ∉ begun ++ [b] := by
            rw [List.mem_append, List.mem_singleton, not_or]
            exact ⟨feedless, Ne.symm feed⟩
          have rest := ih (begun ++ [b]) longer
          rw [List.append_assoc, List.singleton_append] at rest
          exact rest
  exact behind [] List.not_mem_nil

/-! ## Positions -/

namespace Place

theorem position_after {p q : Place} (same : p.position = q.position) (b : UInt8) :
    (p.after b).position = (q.after b).position := by
  unfold position at same ⊢
  unfold Place.after
  rw [Position.mk.injEq] at same
  split
  · simp only [Position.mk.injEq, and_true]
    omega
  · simp only [Position.mk.injEq]
    omega

theorem position_advance {p q : Place} (same : p.position = q.position) (s : Bytes) :
    (p.advance s).position = (q.advance s).position := by
  induction s generalizing p q with
  | nil => exact same
  | cons b s ih => exact ih (position_after same b)

theorem position_advance_carriage {p q : Place} (same : p.position = q.position) (line : Bytes) :
    (p.advance (line ++ [Ascii.lineFeed])).position =
      (q.advance (line ++ [Ascii.carriageReturn, Ascii.lineFeed])).position := by
  have here := position_advance same line
  rw [advance_append, advance_append]
  generalize p.advance line = before, q.advance line = after at here
  unfold position at here ⊢
  rw [Position.mk.injEq] at here ⊢
  exact ⟨congrArg (· + 1) here.1, rfl⟩

end Place

def Restyling.unspelled : Restyling where
  token t := ⟨t.kind, t.text, [], 0, 0, t.position⟩
  position p := p
  kind_token _ := rfl
  text_token _ := rfl
  position_token _ := rfl

theorem Lexeme.map_unspelled_tokens {p q : Place} (same : p.position = q.position)
    (xs : List Lexeme) :
    (tokens p xs).map Restyling.unspelled.token = (tokens q xs).map Restyling.unspelled.token := by
  induction xs generalizing p q with
  | nil => rfl
  | cons x xs ih =>
      have first : Restyling.unspelled.token (x.token p) =
          Restyling.unspelled.token (x.token q) := by
        simp only [Restyling.unspelled, Lexeme.token, same]
      rw [tokens, tokens, List.map_cons, List.map_cons, first,
        ih (Place.position_advance same x.raw)]

/-! ## One line -/

theorem lexemeAt_append_carriage {b : UInt8} {line : Bytes}
    (plain : Ascii.carriageReturn ∉ b :: line) (semicolon : b ≠ Ascii.semicolon) (rest : Bytes) :
    lexemeAt (b :: line ++ Ascii.carriageReturn :: Ascii.lineFeed :: rest) =
      lexemeAt (b :: line) := by
  have last : (b :: line).getLast? ≠ some Ascii.carriageReturn :=
    fun carriage => plain (List.mem_of_getLast? carriage)
  apply lexemeAt_append_lineEnd (List.cons_ne_nil b line) last (.carriage rest)
  rw [LexicalRule.commentLength_of_ne semicolon]
  exact LexicalRule.commentLength_of_ne semicolon

namespace Lexeme

theorem Found.comment_of_semicolon {x : Lexeme} {xs : List Lexeme} (found : Found [] (x :: xs))
    (feedless : Ascii.lineFeed ∉ text (x :: xs)) {raw : Bytes}
    (semicolon : x.raw = Ascii.semicolon :: raw) : x.kind = .comment ∧ xs = [] := by
  rcases found with ⟨-, first, others⟩
  rw [text_cons, semicolon, List.cons_append] at feedless
  rw [semicolon, List.append_nil, List.cons_append,
    lexemeAt_of_first? (LexicalRule.first?_semicolon _), Prod.mk.injEq, List.length_cons] at first
  have inside : ∀ b ∈ raw ++ text xs, (b != Ascii.lineFeed) = true := by
    intro b member
    rw [bne_iff_ne]
    intro feed
    subst feed
    exact feedless (.tail _ member)
  have length : LexicalRule.runLength (· != Ascii.lineFeed) (raw ++ text xs) =
      (raw ++ text xs).length := by
    rw [LexicalRule.runLength, List.takeWhile_eq_self_iff.2 inside]
  have none_left := others.length_le
  rw [length, List.length_append] at first
  exact ⟨first.1.symm, List.length_eq_zero_iff.1 (by omega)⟩

/-- The lexemes of a line, and the lexemes of the line with a carriage return and a line feed behind
it, of which the last is the line end. -/
structure Closes (xs ys : List Lexeme) (ending : Lexeme) : Prop where
  found : ∀ rest, Found rest (ys ++ [ending])
  newline : ending.kind = .newline
  bytes : text ys ++ ending.raw = text xs ++ [Ascii.carriageReturn, Ascii.lineFeed]
  kept : ∀ place, (tokens place ys).filter (!·.isLayout) = (tokens place xs).filter (!·.isLayout)

theorem Closes.nil : Closes [] [] ⟨.newline, [Ascii.carriageReturn, Ascii.lineFeed]⟩ where
  found rest := ⟨List.cons_ne_nil _ _, lexemeAt_carriage rest, trivial⟩
  newline := rfl
  bytes := rfl
  kept _ := rfl

/-- A comment takes the carriage return with it. -/
theorem Closes.comment {x : Lexeme} {raw : Bytes} (semicolon : x.raw = Ascii.semicolon :: raw)
    (kind : x.kind = .comment) (feedless : Ascii.lineFeed ∉ x.raw) :
    Closes [x] [⟨.comment, Ascii.semicolon :: (raw ++ [Ascii.carriageReturn])⟩] Lexeme.newline := by
  have body : ∀ c ∈ raw ++ [Ascii.carriageReturn], c ≠ Ascii.lineFeed := by
    intro c member feed
    subst feed
    rw [List.mem_append, List.mem_singleton] at member
    rw [semicolon] at feedless
    cases member with
    | inl inside => exact feedless (.tail _ inside)
    | inr same => cases same
  constructor
  · intro rest
    have feed : Found rest [Lexeme.newline] :=
      ⟨List.cons_ne_nil _ _, lexemeAt_newline rest, trivial⟩
    exact ⟨List.cons_ne_nil _ _, lexemeAt_comment body, feed⟩
  · rfl
  · simp [Lexeme.newline, semicolon]
  · intro place
    simp [tokens, Token.isLayout, Lexeme.token, kind]

theorem Closes.cons {x ending : Lexeme} {xs ys : List Lexeme} (h : Closes xs ys ending)
    (found : Found [] (x :: xs)) (plain : Ascii.carriageReturn ∉ text (x :: xs)) {b : UInt8}
    {raw : Bytes} (bytes : x.raw = b :: raw) (semicolon : b ≠ Ascii.semicolon) :
    Closes (x :: xs) (x :: ys) ending := by
  rcases found with ⟨nonempty, first, -⟩
  have whole : text (x :: ys) ++ ending.raw =
      text (x :: xs) ++ [Ascii.carriageReturn, Ascii.lineFeed] := by
    rw [text_cons, List.append_assoc, h.bytes, text_cons, List.append_assoc]
  constructor
  · intro rest
    refine ⟨nonempty, ?_, h.found rest⟩
    have behind : x.raw ++ (text (ys ++ [ending]) ++ rest) =
        b :: (raw ++ text xs) ++ Ascii.carriageReturn :: Ascii.lineFeed :: rest := calc
      _ = text (x :: ys) ++ ending.raw ++ rest := by simp
      _ = _ := by rw [whole, text_cons, bytes]; simp
    rw [text_cons, bytes, List.cons_append] at plain
    rw [List.append_nil, bytes, List.cons_append, ← bytes] at first
    show lexemeAt (x.raw ++ (text (ys ++ [ending]) ++ rest)) = _
    rw [behind, lexemeAt_append_carriage plain semicolon, first]
  · exact h.newline
  · exact whole
  · intro place
    rw [tokens, tokens, List.filter_cons, List.filter_cons, h.kept]

/-- The carriage return behind a line belongs to the comment that the line ends in, and else to the
line end. -/
theorem Found.exists_closes {xs : List Lexeme} (found : Found [] xs)
    (feedless : Ascii.lineFeed ∉ text xs) (plain : Ascii.carriageReturn ∉ text xs) :
    ∃ ys ending, Closes xs ys ending := by
  induction xs with
  | nil => exact ⟨[], _, .nil⟩
  | cons x xs ih =>
      rcases List.exists_cons_of_ne_nil found.1 with ⟨b, raw, bytes⟩
      by_cases semicolon : b = Ascii.semicolon
      · subst semicolon
        rcases found.comment_of_semicolon feedless bytes with ⟨kind, rfl⟩
        rw [text_cons, text_nil, List.append_nil] at feedless
        exact ⟨_, _, .comment bytes kind feedless⟩
      · have others := found.2.2
        have whole := plain
        rw [text_cons, List.mem_append, not_or] at feedless plain
        rcases ih others feedless.2 plain.2 with ⟨ys, ending, closes⟩
        exact ⟨x :: ys, ending, closes.cons found whole bytes semicolon⟩

end Lexeme

/-! ## All lines -/

theorem Line.rows_congr {tokens others : List Token}
    (same : tokens.filter (!·.isLayout) = others.filter (!·.isLayout)) :
    rows tokens = rows others := by
  rw [rows, rows, same]

/-- A text without carriage returns has lexemes, and so has the text with one before each line feed,
such that both have the same rows, up to spelling and offsets. -/
theorem exists_found_withCarriageReturns (source : Bytes) (plain : Ascii.carriageReturn ∉ source) :
    ∃ xs ys, Lexeme.text xs = source ∧ Lexeme.Found [] xs ∧
      Lexeme.text ys = withCarriageReturns source ∧ Lexeme.Found [] ys ∧
      ∀ p q : Place, p.position = q.position →
        (Line.rows (Lexeme.tokens p xs)).map (List.map Restyling.unspelled.token) =
          (Line.rows (Lexeme.tokens q ys)).map (List.map Restyling.unspelled.token) := by
  have alike {xs : List Lexeme} {p q : Place} (same : p.position = q.position) :
      (Line.rows (Lexeme.tokens p xs)).map (List.map Restyling.unspelled.token) =
        (Line.rows (Lexeme.tokens q xs)).map (List.map Restyling.unspelled.token) := by
    rw [← Restyling.rows_map, ← Restyling.rows_map, Lexeme.map_unspelled_tokens same]
  induction source using lines_induction with
  | last line feedless =>
      rcases Lexeme.exists_found line with ⟨xs, text, found⟩
      refine ⟨xs, xs, text, found, ?_, found, fun p q => alike⟩
      rw [withCarriageReturns_of_feedless feedless, text]
  | line line rest feedless ih =>
      rw [List.mem_append, List.mem_cons, not_or, not_or] at plain
      rcases ih plain.2.2 with ⟨xs, ys, text, found, text_with, found_with, rows⟩
      rcases Lexeme.exists_found line with ⟨zs, rfl, found_line⟩
      rcases found_line.exists_closes feedless plain.1 with ⟨ws, ending, closes⟩
      have last : (Lexeme.text zs).getLast? ≠ some Ascii.carriageReturn :=
        fun carriage => plain.1 (List.mem_of_getLast? carriage)
      refine ⟨zs ++ .newline :: xs, ws ++ [ending] ++ ys, ?_, found_line.append_feed last found, ?_,
        (closes.found _).append found_with, ?_⟩
      · rw [Lexeme.text_append, Lexeme.text_cons, text]
        rfl
      · rw [Lexeme.text_append, Lexeme.text_append, Lexeme.text_cons, Lexeme.text_nil,
          List.append_nil, closes.bytes, text_with, withCarriageReturns_line feedless]
      · intro p q same
        have further := rows _ _ (Place.position_advance_carriage same (Lexeme.text zs))
        rw [← closes.bytes, Place.advance_append, Place.advance_append] at further
        rw [List.append_assoc, List.singleton_append, Lexeme.tokens_append, Lexeme.tokens_append,
          Lexeme.tokens, Lexeme.tokens, Line.rows_append_feed _ _ rfl,
          Line.rows_append_feed _ _ closes.newline, List.map_append, List.map_append,
          Line.rows_congr (closes.kept q), alike same]
        exact congrArg _ further

/-- Line endings do not matter: a text without carriage returns, and the text with one before each
line feed, are assembled to the same image, or refused by the same stage for an error of the same
category at the same position. -/
theorem line_endings_do_not_matter (d : Dialect) (source : Bytes)
    (plain : Ascii.carriageReturn ∉ source) :
    (∀ image, assemble d source = .ok image ↔
      assemble d (withCarriageReturns source) = .ok image) ∧
    ∀ e, assemble d source = .error e →
      ∃ other, assemble d (withCarriageReturns source) = .error other ∧ other.stage = e.stage ∧
        other.error.category = e.error.category ∧ other.error.position = e.error.position := by
  rcases exists_found_withCarriageReturns source plain with
    ⟨xs, ys, rfl, found, text_with, found_with, rows⟩
  have same := rows .start .start rfl
  rw [← tokenize_of_found found, ← tokenize_of_found found_with, text_with] at same
  have outcome := Restyling.assemble_of_rows same d
  exact ⟨outcome.image, outcome.failure⟩

def undefinedSource : Bytes := Bytes.ofString "inc r0 ; up\n\tjmp :up\n"

theorem undefined_label_keeps_position :
    Ascii.carriageReturn ∉ undefinedSource ∧
      ∃ e, assemble .standard undefinedSource = .error e ∧
        ∃ other, assemble .standard (withCarriageReturns undefinedSource) = .error other ∧
          other.stage = .code ∧ other.error.category = .undefinedLabel ∧
          other.error.position = ⟨2, 6⟩ := by
  have plain : Ascii.carriageReturn ∉ undefinedSource := by decide
  have failed : assemble .standard undefinedSource =
      .error ⟨.code, ⟨2, 6⟩, .undefinedLabel (Bytes.ofString "up")⟩ := by
    decide +kernel
  exact ⟨plain, _, failed, (line_endings_do_not_matter .standard undefinedSource plain).2 _ failed⟩

end WordMachine
