import WordMachine.Proofs.Source.Restyling
import WordMachine.Proofs.Source.Scanning

/-!
# Texts that write lines

A text writes lines if it is made of lexemes that are found whatever follows them, and if reading
their tokens puts the lines before those that follow.  Such texts can be joined, and a text that
writes lines is read as these lines.  Lines are compared bare, without where they come from.
-/

namespace WordMachine

open Results

/-- What a token says, without its spelling and its place. -/
def Token.bare (t : Token) : Token :=
  ⟨t.kind, t.text, [], 0, 0, .none⟩

def Restyling.bare : Restyling where
  token := Token.bare
  position := fun _ => .none
  kind_token _ := rfl
  text_token _ := rfl
  position_token _ := rfl

namespace Lexeme

def bare (x : Lexeme) : Token :=
  ⟨x.kind, x.kind.textOf x.raw, [], 0, 0, .none⟩

theorem map_bare_tokens (place : Place) (xs : List Lexeme) :
    (tokens place xs).map Token.bare = xs.map bare := by
  induction xs generalizing place with
  | nil => rfl
  | cons x xs ih =>
      rw [tokens, List.map_cons, List.map_cons, ih]
      rfl

def newline : Lexeme := ⟨.newline, [Ascii.lineFeed]⟩

def blanks (n : Nat) : Lexeme := ⟨.whitespace, List.replicate n Ascii.space⟩

theorem Found.blanks {rest : Bytes} {xs : List Lexeme} {n : Nat} (pos : 0 < n)
    (stops : Stops Ascii.isBlank (text xs ++ rest)) (found : Found rest xs) :
    Found rest (.blanks n :: xs) := by
  have nonempty : List.replicate n Ascii.space ≠ [] := by
    rw [Ne, List.replicate_eq_nil_iff]
    omega
  refine ⟨nonempty, lexemeAt_blanks ?_ nonempty stops, found⟩
  intro b member
  rw [List.eq_of_mem_replicate member]
  decide

end Lexeme

namespace WrittenOperand

theorem read_direct {t : Token} (rest : List Token) (close : t.kind ≠ .bracketClose)
    (opens : t.kind ≠ .bracketOpen) : read (t :: rest) = (read rest).map (⟨false, t⟩ :: ·) := by
  rw [read, readFrom.eq_def]
  simp only [close, opens, if_false]
  exact readFrom_append [] [⟨false, t⟩] rest

theorem read_indirect {first inner last : Token} (rest : List Token)
    (opens : first.kind = .bracketOpen) (close : inner.kind ≠ .bracketClose)
    (nested : inner.kind ≠ .bracketOpen) (closes : last.kind = .bracketClose) :
    read (first :: inner :: last :: rest) = (read rest).map (⟨true, inner⟩ :: ·) := by
  rw [read, readFrom.eq_def]
  simp only [opens, close, nested, closes, reduceCtorEq, if_true, if_false]
  exact readFrom_append [] [⟨true, inner⟩] rest

end WrittenOperand

namespace Line

theorem readRow_of_known (d : Dialect) {row : List Token} (h : ∀ t ∈ row, t.kind ≠ .unknown) :
    readRow d row = readFrom d [] row := by
  have none_unknown : row.find? (·.kind == .unknown) = none := by simpa using h
  rw [readRow, none_unknown]

theorem rows_row {row : List Token} {feed : Token} (after : List Token)
    (inside : ∀ t ∈ row, t.kind ≠ .newline) (feeds : feed.kind = .newline) :
    rows (row ++ feed :: after) = row.filter (!·.isLayout) :: rows after := by
  have kept : (feed :: after).filter (!·.isLayout) = feed :: after.filter (!·.isLayout) :=
    List.filter_cons_of_pos (by simp [Token.isLayout, feeds])
  rw [rows, rows, List.filter_append, kept]
  apply List.splitOnP_append_cons_of_forall_mem
  · intro t member
    simpa using inside t (List.mem_of_mem_filter member)
  · simp [feeds]

/-- A row is read on its own, and before what follows. -/
theorem parse_row (d : Dialect) {row : List Token} {feed : Token} (after : List Token)
    {lines : List Line} (inside : ∀ t ∈ row, t.kind ≠ .newline) (feeds : feed.kind = .newline)
    (read : readRow d (row.filter (!·.isLayout)) = .ok lines) :
    parse d (row ++ feed :: after) = (parse d after).map (lines ++ ·) := by
  rw [parse, parse, rows_row after inside feeds, List.mapM_cons, read, bind_ok]
  cases (rows after).mapM (readRow d) with
  | error e => rfl
  | ok groups => rfl

end Line

/-- A text is one row: these lexemes, found whatever follows the row, and a line feed. -/
structure IsRow (text : Bytes) (xs : List Lexeme) : Prop where
  text_eq : text = Lexeme.text xs ++ [Ascii.lineFeed]
  found : ∀ rest, Lexeme.Found (Ascii.lineFeed :: rest) xs
  inside : ∀ x ∈ xs, x.kind ≠ .newline

namespace IsRow

variable {text : Bytes} {xs : List Lexeme} (h : IsRow text xs)

include h

theorem found_all (rest : Bytes) : Lexeme.Found rest (xs ++ [.newline]) := by
  have feed : Lexeme.Found rest [.newline] :=
    ⟨by simp [Lexeme.newline], lexemeAt_newline rest, trivial⟩
  exact Lexeme.Found.append (h.found rest) feed

theorem text_all : Lexeme.text (xs ++ [.newline]) = text := by
  rw [h.text_eq, Lexeme.text_append]
  rfl

theorem map_bare_tokenize :
    (tokenize text).map Token.bare = (xs ++ [Lexeme.newline]).map Lexeme.bare := by
  rw [← h.text_all, tokenize_of_found (h.found_all [])]
  exact Lexeme.map_bare_tokens .start _

end IsRow

/-- A text is made of lexemes that are found whatever follows them, and these are read as some
lines, whatever follows them. -/
def Writes (d : Dialect) (text : Bytes) (lines : List Line) : Prop :=
  ∃ xs : List Lexeme, Lexeme.text xs = text ∧ (∀ rest, Lexeme.Found rest xs) ∧
    ∀ after, Line.parse d (xs.map Lexeme.bare ++ after) = (Line.parse d after).map (lines ++ ·)

namespace Writes

variable {d : Dialect}

theorem nil (d : Dialect) : Writes d [] [] := by
  refine ⟨[], rfl, fun _ => trivial, ?_⟩
  intro after
  cases read : Line.parse d after with
  | error e => simp [read, Except.map]
  | ok lines => simp [read, Except.map]

theorem append {text more : Bytes} {lines others : List Line} (first : Writes d text lines)
    (second : Writes d more others) : Writes d (text ++ more) (lines ++ others) := by
  obtain ⟨xs, rfl, found, read⟩ := first
  obtain ⟨ys, rfl, found_more, read_more⟩ := second
  refine ⟨xs ++ ys, Lexeme.text_append xs ys, fun rest => (found _).append (found_more rest), ?_⟩
  intro after
  rw [List.map_append, List.append_assoc, read, read_more]
  cases Line.parse d after with
  | error e => rfl
  | ok lines => simp [Except.map]

theorem row {text : Bytes} {xs : List Lexeme} {lines : List Line} (h : IsRow text xs)
    (read : Line.readRow d ((xs.map Lexeme.bare).filter (!·.isLayout)) = .ok lines) :
    Writes d text lines := by
  refine ⟨xs ++ [.newline], h.text_all, h.found_all, ?_⟩
  intro after
  rw [List.map_append, List.map_singleton, List.append_assoc, List.singleton_append]
  apply Line.parse_row d after _ rfl read
  intro t member
  obtain ⟨x, among, rfl⟩ := List.mem_map.1 member
  exact h.inside x among

theorem parse_tokenize {text : Bytes} {lines : List Line} (h : Writes d text lines) :
    ∃ placed, Line.parse d (tokenize text) = .ok placed ∧
      placed.map Restyling.bare.line = lines := by
  obtain ⟨xs, rfl, found, read⟩ := h
  have agree := Restyling.bare.parse_agrees d (tokenize (Lexeme.text xs))
  have bare_tokens : (tokenize (Lexeme.text xs)).map Restyling.bare.token = xs.map Lexeme.bare := by
    rw [tokenize_of_found (found [])]
    exact Lexeme.map_bare_tokens .start xs
  have whole : Line.parse d (xs.map Lexeme.bare) = .ok lines := by
    have nothing_after := read []
    rw [List.append_nil] at nothing_after
    rw [nothing_after]
    simp [Line.parse, Line.rows, Line.readRow, Line.readFrom, Except.map]
  -- The bare tokens are read as the lines, so the tokens are read as lines that look alike.
  rw [bare_tokens] at agree
  exact agree.exists_ok_first Results.Tolerance.exact_movedBy whole

end Writes

end WordMachine
