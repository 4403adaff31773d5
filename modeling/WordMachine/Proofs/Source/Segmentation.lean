import Mathlib.Data.List.Chain
import WordMachine.Proofs.Source.Pattern
import WordMachine.Proofs.Source.Positions

/-!
# Texts made of lexemes

A text is made of lexemes each of which is what the rules find where it stands: the first match, or,
where no rule matches, all the input up to the next match.
-/

namespace WordMachine

/-! ## The lexeme that a text begins with -/

/-- What the table says of the lexeme that a text begins with: it is the first match, or, where
there is none, it goes on up to the next place with a match. -/
structure Begins (text : Bytes) (kind : Token.Kind) (n : Nat) : Prop where
  matched : kind ≠ .unknown → Pattern.first? text = some (kind, n)
  unmatched : kind = .unknown → ∀ i < n, Pattern.first? (text.drop i) = none
  maximal : kind = .unknown → n = text.length ∨ Pattern.first? (text.drop n) ≠ none

theorem Begins.of_unmatched {text : Bytes} {n : Nat}
    (unmatched : ∀ i < n, Pattern.first? (text.drop i) = none)
    (maximal : n = text.length ∨ Pattern.first? (text.drop n) ≠ none) : Begins text .unknown n :=
  ⟨fun known => absurd rfl known, fun _ => unmatched, fun _ => maximal⟩

theorem kind_ne_unknown_of_first? {text : Bytes} {kind : Token.Kind} {n : Nat}
    (h : Pattern.first? text = some (kind, n)) : kind ≠ .unknown := by
  have known : ∀ row ∈ Pattern.table, row.1 ≠ .unknown := by decide
  obtain ⟨row, member, found⟩ := List.exists_of_findSome?_eq_some h
  obtain ⟨n, -, same⟩ := Option.map_eq_some_iff.1 found
  cases same
  exact known row member

theorem Begins.length_le {text : Bytes} {n m : Nat} (bound : n ≤ text.length)
    (h : Begins text .unknown n) (other : Begins text .unknown m) : n ≤ m := by
  by_contra longer
  have none := h.unmatched rfl m (by omega)
  rcases other.maximal rfl with whole | found
  · omega
  · exact found none

theorem Begins.unique {text : Bytes} {kind other : Token.Kind} {n m : Nat}
    (h : Begins text kind n) (pos : 0 < n) (bound : n ≤ text.length)
    (h' : Begins text other m) (pos' : 0 < m) (bound' : m ≤ text.length) :
    (kind, n) = (other, m) := by
  by_cases unknown : kind = .unknown
  · have none : Pattern.first? text = none := h.unmatched unknown 0 pos
    have same : other = .unknown := by
      by_contra known
      rw [h'.matched known] at none
      cases none
    subst unknown same
    rw [Nat.le_antisymm (h.length_le bound h') (h'.length_le bound' h)]
  · have found := h.matched unknown
    have known : other ≠ .unknown := by
      intro same
      have none : Pattern.first? text = none := h'.unmatched same 0 pos'
      rw [found] at none
      cases none
    exact Option.some.inj (found.symm.trans (h'.matched known))

theorem unmatchedLength_le (text : Bytes) : unmatchedLength text ≤ text.length := by
  induction text with
  | nil => exact Nat.le_refl 0
  | cons b text ih =>
      unfold unmatchedLength
      split
      · exact Nat.zero_le _
      · exact Nat.succ_le_succ ih

theorem begins_unmatchedLength (text : Bytes) : Begins text .unknown (unmatchedLength text) := by
  induction text with
  | nil => exact .of_unmatched (fun i below => absurd below (Nat.not_lt_zero i)) (.inl rfl)
  | cons b text ih =>
      have first := Pattern.first?_eq_first? (b :: text)
      cases found : LexicalRule.first? (b :: text) with
      | some lexeme =>
          rw [unmatchedLength_of_match found]
          refine .of_unmatched (fun i below => absurd below (Nat.not_lt_zero i)) (.inr ?_)
          rw [List.drop_zero, ← first, found]
          exact Option.some_ne_none lexeme
      | none =>
          rw [unmatchedLength_cons_of_none found]
          apply Begins.of_unmatched
          · intro i below
            cases i with
            | zero => rw [List.drop_zero, ← first, found]
            | succ i => exact ih.unmatched rfl i (by omega)
          · rcases ih.maximal rfl with whole | next
            · exact .inl (by rw [whole, List.length_cons])
            · exact .inr next

/-- The lexeme that the rules find at the start of a text is the one the table speaks of. -/
theorem begins_lexemeAt {text : Bytes} (nonempty : text ≠ []) :
    0 < (lexemeAt text).2 ∧ (lexemeAt text).2 ≤ text.length ∧
      Begins text (lexemeAt text).1 (lexemeAt text).2 := by
  rw [lexemeAt, Pattern.first?_eq_first?]
  cases found : Pattern.first? text with
  | some lexeme =>
      have known := kind_ne_unknown_of_first? found
      obtain ⟨pos, bound⟩ := Pattern.first?_bounds found
      exact ⟨pos, bound, fun _ => found, fun unknown => absurd unknown known,
        fun unknown => absurd unknown known⟩
  | none =>
      have begins := begins_unmatchedLength text
      have pos : unmatchedLength text ≠ 0 := by
        intro zero
        rw [zero] at begins
        rcases begins.maximal rfl with whole | next
        · exact nonempty (List.length_eq_zero_iff.1 whole.symm)
        · exact next found
      exact ⟨Nat.pos_of_ne_zero pos, unmatchedLength_le text, begins⟩

theorem lexemeAt_of_begins {text : Bytes} {kind : Token.Kind} {n : Nat} (pos : 0 < n)
    (bound : n ≤ text.length) (h : Begins text kind n) : lexemeAt text = (kind, n) := by
  have nonempty : text ≠ [] := by
    rintro rfl
    exact absurd (Nat.lt_of_lt_of_le pos bound) (Nat.not_lt_zero 0)
  obtain ⟨pos', bound', found⟩ := begins_lexemeAt nonempty
  exact found.unique pos' bound' h pos bound

/-! ## Cutting a text into lexemes -/

/-- A piece of source text and the kind of token that it makes. -/
structure Lexeme where
  kind : Token.Kind
  raw : Bytes
  deriving DecidableEq, Repr

def Token.lexeme (t : Token) : Lexeme := ⟨t.kind, t.raw⟩

namespace Lexeme

def text (xs : List Lexeme) : Bytes :=
  xs.flatMap raw

@[simp] theorem text_nil : text [] = [] := rfl

@[simp] theorem text_cons (x : Lexeme) (xs : List Lexeme) : text (x :: xs) = x.raw ++ text xs := rfl

@[simp] theorem text_append (xs ys : List Lexeme) : text (xs ++ ys) = text xs ++ text ys :=
  List.flatMap_append

def token (place : Place) (x : Lexeme) : Token where
  kind := x.kind
  text := x.kind.textOf x.raw
  raw := x.raw
  start := place.offset
  stop := place.offset + x.raw.length
  position := place.position

def tokens : Place → List Lexeme → List Token
  | _, [] => []
  | place, x :: xs => x.token place :: tokens (place.advance x.raw) xs

theorem map_lexeme_tokens (place : Place) (xs : List Lexeme) :
    (tokens place xs).map Token.lexeme = xs := by
  induction xs generalizing place with
  | nil => rfl
  | cons x xs ih =>
      rw [tokens, List.map_cons, ih]
      rfl

theorem length_tokens (place : Place) (xs : List Lexeme) :
    (tokens place xs).length = xs.length := by
  rw [← List.length_map Token.lexeme, map_lexeme_tokens]

/-- Each lexeme is the one that the rules find where it stands, when `rest` follows the last. -/
def Found (rest : Bytes) : List Lexeme → Prop
  | [] => True
  | x :: xs =>
      x.raw ≠ [] ∧ lexemeAt (x.raw ++ (text xs ++ rest)) = (x.kind, x.raw.length) ∧ Found rest xs

theorem Found.append {rest : Bytes} {xs ys : List Lexeme} (before : Found (text ys ++ rest) xs)
    (after : Found rest ys) : Found rest (xs ++ ys) := by
  induction xs with
  | nil => exact after
  | cons x xs ih =>
      obtain ⟨nonempty, first, others⟩ := before
      refine ⟨nonempty, ?_, ih others⟩
      show lexemeAt (x.raw ++ (text (xs ++ ys) ++ rest)) = (x.kind, x.raw.length)
      rw [text_append, List.append_assoc]
      exact first

theorem Found.length_le {rest : Bytes} {xs : List Lexeme} (h : Found rest xs) :
    xs.length ≤ (text xs).length := by
  induction xs with
  | nil => exact Nat.le_refl 0
  | cons x xs ih =>
      have pos : 0 < x.raw.length := List.length_pos_iff.2 h.1
      have others := ih h.2.2
      rw [List.length_cons, text_cons, List.length_append]
      omega

theorem exists_found (source : Bytes) : ∃ xs, text xs = source ∧ Found [] xs := by
  by_cases empty : source = []
  · exact ⟨[], empty.symm, trivial⟩
  · obtain ⟨pos, bound, -⟩ := begins_lexemeAt empty
    have shorter : (source.drop (lexemeAt source).2).length < source.length := by
      rw [List.length_drop]
      omega
    obtain ⟨xs, rest, found⟩ := exists_found (source.drop (lexemeAt source).2)
    have length : (source.take (lexemeAt source).2).length = (lexemeAt source).2 :=
      List.length_take_of_le bound
    refine ⟨⟨(lexemeAt source).1, source.take (lexemeAt source).2⟩ :: xs, ?_, ?_, ?_, found⟩
    · rw [text_cons, rest, List.take_append_drop]
    · exact List.ne_nil_of_length_pos (Nat.lt_of_lt_of_eq pos length.symm)
    · rw [rest, List.append_nil, List.take_append_drop, length]
termination_by source.length

theorem Found.begins {rest : Bytes} {x : Lexeme} {xs : List Lexeme} (h : Found rest (x :: xs)) :
    Begins (x.raw ++ (text xs ++ rest)) x.kind x.raw.length := by
  obtain ⟨nonempty, first, -⟩ := h
  have some_left : x.raw ++ (text xs ++ rest) ≠ [] := by simp [nonempty]
  have begins := (begins_lexemeAt some_left).2.2
  rw [first] at begins
  exact begins

/-- Input that no rule matches is one lexeme up to the next match. -/
theorem Found.unknown_alone {rest : Bytes} {xs : List Lexeme} (h : Found rest xs) :
    xs.IsChain fun x y => x.kind = .unknown → y.kind ≠ .unknown := by
  induction xs with
  | nil => exact .nil
  | cons x xs ih =>
      cases xs with
      | nil => exact .singleton x
      | cons y ys =>
          refine .cons_cons ?_ (ih h.2.2)
          intro first second
          have none := h.2.2.begins.unmatched second 0 (List.length_pos_iff.2 h.2.2.1)
          rcases h.begins.maximal first with whole | next
          · have nonempty : 0 < y.raw.length := List.length_pos_iff.2 h.2.2.1
            simp only [text_cons, List.length_append] at whole
            omega
          · rw [List.drop_left, text_cons, List.append_assoc] at next
            exact next none

theorem Found.byte_of_unknown {rest : Bytes} {xs : List Lexeme} (h : Found rest xs) {x : Lexeme}
    (member : x ∈ xs) (unknown : x.kind = .unknown) {b : UInt8} (inside : b ∈ x.raw) :
    ∃ after, Pattern.first? (b :: after) = none := by
  induction xs with
  | nil => cases member
  | cons y ys ih =>
      rcases List.mem_cons.1 member with rfl | later
      · obtain ⟨k, bound, rfl⟩ := List.mem_iff_getElem.1 inside
        have none := h.begins.unmatched unknown k bound
        rw [List.drop_append_of_le_length (Nat.le_of_lt bound), List.drop_eq_getElem_cons bound,
          List.cons_append] at none
        exact ⟨_, none⟩
      · exact ih h.2.2 later

end Lexeme

theorem byte_of_unmatched {b : UInt8} {text : Bytes} (h : Pattern.first? (b :: text) = none) :
    b ∉ [Ascii.lineFeed, Ascii.space, Ascii.tab, Ascii.semicolon, Ascii.bracketOpen,
      Ascii.bracketClose] ∧ Ascii.isWord b = false := by
  constructor
  · intro member
    rw [← Pattern.first?_eq_first?] at h
    simp only [List.mem_cons, List.not_mem_nil, or_false] at member
    rcases member with rfl | rfl | rfl | rfl | rfl | rfl <;> cases h
  · have identifier : (Pattern.run Ascii.isWord).match? (b :: text) = none := by
      have row : (.identifier, .run Ascii.isWord) ∈ Pattern.table := by simp [Pattern.table]
      exact Option.map_eq_none_iff.1 (List.findSome?_eq_none_iff.1 h _ row)
    have length : LexicalRule.runLength Ascii.isWord (b :: text) = 0 := by
      rw [← Pattern.matchLength_run, Pattern.matchLength, identifier, Option.getD_none]
    by_contra word
    rw [Bool.not_eq_false] at word
    rw [LexicalRule.runLength, List.takeWhile_cons_of_pos word] at length
    cases length

end WordMachine
