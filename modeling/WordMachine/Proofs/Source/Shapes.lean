import WordMachine.Proofs.Source.Scanning

/-!
# What lexemes look like

Each kind of lexeme that a rule makes has a shape of its own, whatever stands around it.  A lexeme
that is neither blanks nor a comment is recognised by its shape alone: it is found again wherever
something follows that can neither be a part of its word nor make a label of it.
-/

namespace WordMachine

/-- The texts of the lexemes of a kind.  Input that no rule matches has no shape. -/
inductive Token.Kind.Shape : Token.Kind → Bytes → Prop
  | feed : Shape .newline [Ascii.lineFeed]
  | carriage : Shape .newline [Ascii.carriageReturn, Ascii.lineFeed]
  | blanks {run : Bytes} (all : ∀ b ∈ run, Ascii.isBlank b) (nonempty : run ≠ []) :
      Shape .whitespace run
  | comment {body : Bytes} (all : ∀ b ∈ body, b ≠ Ascii.lineFeed) :
      Shape .comment (Ascii.semicolon :: body)
  | label {word : Bytes} (all : ∀ b ∈ word, Ascii.isWord b) (nonempty : word ≠ []) :
      Shape .label (word ++ [Ascii.colon])
  | labelRef {word : Bytes} (all : ∀ b ∈ word, Ascii.isWord b) (nonempty : word ≠ []) :
      Shape .labelRef (Ascii.colon :: word)
  | specifier {word : Bytes} (all : ∀ b ∈ word, Ascii.isWord b) (nonempty : word ≠ []) :
      Shape .specifier (Ascii.dot :: word)
  | literal {digits : Bytes} (all : ∀ b ∈ digits, Ascii.isDigit b) (nonempty : digits ≠ []) :
      Shape .literal (Ascii.hash :: digits)
  | number {digits : Bytes} (all : ∀ b ∈ digits, Ascii.isDigit b) (nonempty : digits ≠ []) :
      Shape .number digits
  | register {word : Bytes} (all : ∀ b ∈ word, Ascii.isWord b)
      (known : LexicalRule.isRegisterWord word = true) : Shape .register word
  | identifier {b : UInt8} {word : Bytes} (all : ∀ x ∈ b :: word, Ascii.isWord x)
      (no_digit : Ascii.isDigit b = false)
      (unknown : LexicalRule.isRegisterWord (b :: word) = false) : Shape .identifier (b :: word)
  | bracketOpen : Shape .bracketOpen [Ascii.bracketOpen]
  | bracketClose : Shape .bracketClose [Ascii.bracketClose]

/-! ## The shape of a match -/

namespace LexicalRule

open Token.Kind

variable {s : Bytes} {n : Nat}

theorem firstOf_cons_cases {rule : LexicalRule} {rules : List LexicalRule} {kind : Token.Kind}
    (h : firstOf (rule :: rules) s = some (kind, n)) :
    rule.kind = kind ∧ rule.matchLength s = n ∧ 0 < n ∨
      rule.matchLength s = 0 ∧ firstOf rules s = some (kind, n) := by
  by_cases zero : rule.matchLength s = 0
  · rw [firstOf_cons_of_zero zero] at h
    exact .inr ⟨zero, h⟩
  · rw [firstOf_cons_of_pos rfl (Nat.pos_of_ne_zero zero)] at h
    cases h
    exact .inl ⟨rfl, rfl, Nat.pos_of_ne_zero zero⟩

theorem take_runLength (p : UInt8 → Bool) (s : Bytes) : s.take (runLength p s) = s.takeWhile p :=
  (List.prefix_iff_eq_take.1 (List.takeWhile_prefix p)).symm

theorem all_takeWhile {p : UInt8 → Bool} : ∀ b ∈ s.takeWhile p, p b :=
  fun _ => List.mem_takeWhile_imp

theorem takeWhile_ne_nil {p : UInt8 → Bool} (pos : 0 < runLength p s) : s.takeWhile p ≠ [] :=
  List.length_pos_iff.1 pos

theorem newline_shape (h : newlineLength s = n) (pos : 0 < n) : Shape .newline (s.take n) := by
  subst h
  unfold newlineLength at pos ⊢
  split at pos
  · exact .feed
  · exact .carriage
  · cases pos

theorem comment_shape (h : commentLength s = n) (pos : 0 < n) : Shape .comment (s.take n) := by
  subst h
  unfold commentLength at pos ⊢
  split at pos
  · rename_i rest
    rw [List.take_succ_cons, take_runLength]
    refine .comment ?_
    intro b member
    exact bne_iff_ne.1 (all_takeWhile (p := (· != Ascii.lineFeed)) b member)
  · cases pos

theorem label_shape (h : labelLength s = n) (pos : 0 < n) : Shape .label (s.take n) := by
  subst h
  unfold labelLength at pos ⊢
  dsimp only at pos ⊢
  split at pos
  · rename_i found
    rw [if_pos found, List.take_add_one, found.2, take_runLength]
    exact .label all_takeWhile (takeWhile_ne_nil found.1)
  · cases pos

theorem take_sigilLength {sigil : UInt8} {p : UInt8 → Bool} (h : sigilLength sigil p s = n)
    (pos : 0 < n) : ∃ rest, s.take n = sigil :: rest.takeWhile p ∧ 0 < runLength p rest := by
  subst h
  cases s with
  | nil => cases pos
  | cons b rest =>
      rw [sigilLength] at pos ⊢
      by_cases found : b = sigil ∧ 0 < runLength p rest
      · refine ⟨rest, ?_, found.2⟩
        rw [if_pos found, List.take_succ_cons, take_runLength, found.1]
      · rw [if_neg found] at pos
        cases pos

theorem register_shape (h : registerLength s = n) (pos : 0 < n) : Shape .register (s.take n) := by
  subst h
  unfold registerLength at pos ⊢
  dsimp only at pos ⊢
  split at pos
  · rename_i known
    have word : s.take (s.takeWhile Ascii.isWord).length = s.takeWhile Ascii.isWord :=
      take_runLength Ascii.isWord s
    rw [if_pos known, word]
    exact .register all_takeWhile known
  · cases pos

/-- A word at which neither a number nor a register is found. -/
theorem identifier_shape (h : runLength Ascii.isWord s = n) (pos : 0 < n)
    (no_number : runLength Ascii.isDigit s = 0) (no_register : registerLength s = 0) :
    Shape .identifier (s.take n) := by
  subst h
  have all : ∀ b ∈ s.takeWhile Ascii.isWord, Ascii.isWord b := all_takeWhile
  have unknown : isRegisterWord (s.takeWhile Ascii.isWord) = false := by
    by_contra known
    rw [Bool.not_eq_false] at known
    simp only [registerLength, known, if_true] at no_register
    exact Nat.ne_of_gt pos no_register
  rw [take_runLength]
  cases s with
  | nil => cases pos
  | cons b rest =>
      have word : Ascii.isWord b = true := by
        by_contra other
        rw [Bool.not_eq_true] at other
        rw [runLength_of_not other] at pos
        cases pos
      have no_digit : Ascii.isDigit b = false := by
        by_contra digit
        rw [Bool.not_eq_false] at digit
        rw [runLength, List.takeWhile_cons_of_pos digit] at no_number
        cases no_number
      rw [List.takeWhile_cons_of_pos word] at all unknown ⊢
      exact .identifier all no_digit unknown

theorem take_byteLength {b : UInt8} (h : byteLength b s = n) (pos : 0 < n) : s.take n = [b] := by
  subst h
  cases s with
  | nil => cases pos
  | cons c rest =>
      rw [byteLength] at pos ⊢
      by_cases same : c = b
      · rw [if_pos same, same]
        rfl
      · rw [if_neg same] at pos
        cases pos

theorem shape_of_first? {kind : Token.Kind} (h : first? s = some (kind, n)) :
    kind.Shape (s.take n) := by
  unfold first? LexicalRule.all at h
  rcases firstOf_cons_cases h with ⟨rfl, length, pos⟩ | ⟨-, h⟩
  · exact newline_shape length pos
  rcases firstOf_cons_cases h with ⟨rfl, length, pos⟩ | ⟨-, h⟩
  · subst length
    dsimp only at pos ⊢
    rw [take_runLength]
    exact .blanks all_takeWhile (takeWhile_ne_nil pos)
  rcases firstOf_cons_cases h with ⟨rfl, length, pos⟩ | ⟨-, h⟩
  · exact comment_shape length pos
  rcases firstOf_cons_cases h with ⟨rfl, length, pos⟩ | ⟨-, h⟩
  · exact label_shape length pos
  rcases firstOf_cons_cases h with ⟨rfl, length, pos⟩ | ⟨-, h⟩
  · rcases take_sigilLength length pos with ⟨rest, found, some⟩
    rw [found]
    exact .labelRef all_takeWhile (takeWhile_ne_nil some)
  rcases firstOf_cons_cases h with ⟨rfl, length, pos⟩ | ⟨-, h⟩
  · rcases take_sigilLength length pos with ⟨rest, found, some⟩
    rw [found]
    exact .specifier all_takeWhile (takeWhile_ne_nil some)
  rcases firstOf_cons_cases h with ⟨rfl, length, pos⟩ | ⟨-, h⟩
  · rcases take_sigilLength length pos with ⟨rest, found, some⟩
    rw [found]
    exact .literal all_takeWhile (takeWhile_ne_nil some)
  rcases firstOf_cons_cases h with ⟨rfl, length, pos⟩ | ⟨no_number, h⟩
  · subst length
    dsimp only at pos ⊢
    rw [take_runLength]
    exact .number all_takeWhile (takeWhile_ne_nil pos)
  rcases firstOf_cons_cases h with ⟨rfl, length, pos⟩ | ⟨no_register, h⟩
  · exact register_shape length pos
  rcases firstOf_cons_cases h with ⟨rfl, length, pos⟩ | ⟨-, h⟩
  · exact identifier_shape length pos no_number no_register
  rcases firstOf_cons_cases h with ⟨rfl, length, pos⟩ | ⟨-, h⟩
  · rw [take_byteLength length pos]
    exact .bracketOpen
  rcases firstOf_cons_cases h with ⟨rfl, length, pos⟩ | ⟨-, h⟩
  · rw [take_byteLength length pos]
    exact .bracketClose
  cases h

end LexicalRule

namespace Lexeme

theorem Found.shape {rest : Bytes} {xs : List Lexeme} (found : Found rest xs) {x : Lexeme}
    (member : x ∈ xs) (known : x.kind ≠ .unknown) : x.kind.Shape x.raw := by
  induction xs with
  | nil => cases member
  | cons y ys ih =>
      rcases found with ⟨-, first, others⟩
      cases member with
      | head =>
          have shape := LexicalRule.shape_of_first? (first?_of_lexemeAt first known)
          rw [List.take_left] at shape
          exact shape
      | tail _ later => exact ih others later

theorem mem_of_mem_tokens {place : Place} {xs : List Lexeme} {t : Token}
    (member : t ∈ tokens place xs) : t.lexeme ∈ xs ∧ t.text = t.kind.textOf t.raw := by
  induction xs generalizing place with
  | nil => cases member
  | cons x xs ih =>
      rw [tokens, List.mem_cons] at member
      cases member with
      | inl first =>
          subst first
          exact ⟨List.mem_cons_self, rfl⟩
      | inr later =>
          rcases ih later with ⟨among, text⟩
          exact ⟨.tail _ among, text⟩

end Lexeme

theorem Token.shape_of_mem_tokenize {source : Bytes} {t : Token} (member : t ∈ tokenize source)
    (known : t.kind ≠ .unknown) : t.kind.Shape t.raw ∧ t.text = t.kind.textOf t.raw := by
  rcases Lexeme.exists_found source with ⟨xs, rfl, found⟩
  rw [tokenize_of_found found] at member
  rcases Lexeme.mem_of_mem_tokens member with ⟨among, text⟩
  exact ⟨found.shape among known, text⟩

/-! ## Lexemes in another place -/

namespace Token.Kind.Shape

variable {kind : Token.Kind} {raw rest : Bytes}

theorem ne_nil (h : kind.Shape raw) : raw ≠ [] := by
  cases h with
  | blanks all nonempty => exact nonempty
  | number all nonempty => exact nonempty
  | label all nonempty => exact List.append_ne_nil_of_right_ne_nil _ (List.cons_ne_nil _ _)
  | register all known =>
      intro empty
      rw [empty] at known
      cases known
  | _ => exact List.cons_ne_nil _ _

theorem exists_cons_of_isRegisterWord {word : Bytes}
    (known : LexicalRule.isRegisterWord word = true) :
    ∃ b tail, word = b :: tail ∧ Ascii.isDigit b = false := by
  cases word with
  | nil => cases known
  | cons b tail =>
      rw [LexicalRule.isRegisterWord, Bool.and_eq_true, beq_iff_eq] at known
      refine ⟨b, tail, rfl, ?_⟩
      rw [known.1]
      rfl

/-- A lexeme that is neither blanks nor a comment is found again, wherever what follows neither goes
on with a word nor makes a label of it. -/
theorem lexemeAt_append (h : kind.Shape raw) (no_blanks : kind ≠ .whitespace)
    (no_comment : kind ≠ .comment) (stops : Stops isWordOrColon rest) :
    lexemeAt (raw ++ rest) = (kind, raw.length) := by
  cases h with
  | feed => exact lexemeAt_newline rest
  | carriage => exact lexemeAt_carriage rest
  | blanks all nonempty => exact absurd rfl no_blanks
  | comment all => exact absurd rfl no_comment
  | label all nonempty => exact lexemeAt_label rest all nonempty
  | labelRef all nonempty => exact lexemeAt_labelRef all nonempty stops.isWord
  | specifier all nonempty => exact lexemeAt_specifier all nonempty stops.isWord
  | literal all nonempty => exact lexemeAt_literal all nonempty stops.isDigit
  | number all nonempty => exact lexemeAt_number all nonempty stops
  | register all known =>
      rcases exists_cons_of_isRegisterWord known with ⟨b, tail, rfl, no_digit⟩
      rw [lexemeAt_word all no_digit stops, if_pos known]
  | identifier all no_digit unknown =>
      rw [lexemeAt_word all no_digit stops, if_neg (by simp [unknown])]
  | bracketOpen => exact lexemeAt_bracketOpen rest
  | bracketClose => exact lexemeAt_bracketClose rest

theorem stops_isBlank (h : kind.Shape raw) (no_blanks : kind ≠ .whitespace) :
    Stops Ascii.isBlank (raw ++ rest) := by
  have of_word {b : UInt8} (word : Ascii.isWord b = true) : Ascii.isBlank b = false := by
    have differs : ∀ c, Ascii.isWord c = false → b ≠ c := fun c => ne_of_isWord word
    simp [Ascii.isBlank, differs Ascii.space rfl, differs Ascii.tab rfl]
  have of_words {word tail : Bytes} (all : ∀ b ∈ word, Ascii.isWord b) (nonempty : word ≠ []) :
      Stops Ascii.isBlank (word ++ tail) := by
    cases word with
    | nil => exact absurd rfl nonempty
    | cons b word => exact of_word (all b List.mem_cons_self)
  have shape := h
  cases h with
  | blanks all nonempty => exact absurd rfl no_blanks
  | label all nonempty =>
      rw [List.append_assoc]
      exact of_words all nonempty
  | number all nonempty =>
      exact of_words (fun b member => isWord_of_isDigit (all b member)) nonempty
  | register all known => exact of_words all shape.ne_nil
  | identifier all no_digit unknown => exact of_words all (List.cons_ne_nil _ _)
  | _ => rfl

end Token.Kind.Shape

end WordMachine
