import WordMachine.Source.Scanner
import Mathlib.Data.List.TakeWhile

/-!
# Which lexeme a text begins with

At each place of a text the first rule that matches decides; where none does, the lexeme is the
longest run of places at which none does.  For each kind of lexeme that a program is written with,
this module has the texts that begin with one: what the lexeme looks like, and what must not follow
it.
-/

namespace WordMachine

/-- How many places from the start on no rule matches. -/
def unmatchedLength : Bytes → Nat
  | [] => 0
  | b :: s =>
      match LexicalRule.first? (b :: s) with
      | some _ => 0
      | none => unmatchedLength s + 1

theorem unmatchedLength_cons_of_none {b : UInt8} {s : Bytes}
    (none : LexicalRule.first? (b :: s) = none) :
    unmatchedLength (b :: s) = unmatchedLength s + 1 := by
  rw [unmatchedLength, none]

theorem unmatchedLength_of_match {s : Bytes} {lexeme : Token.Kind × Nat}
    (found : LexicalRule.first? s = some lexeme) : unmatchedLength s = 0 := by
  cases s with
  | nil => rfl
  | cons b s => rw [unmatchedLength, found]

/-- The kind and length of the lexeme that a non-empty text begins with. -/
def lexemeAt (s : Bytes) : Token.Kind × Nat :=
  (LexicalRule.first? s).getD (.unknown, unmatchedLength s)

namespace LexicalRule

theorem firstOf_cons_of_zero {rule : LexicalRule} {rules : List LexicalRule} {s : Bytes}
    (h : rule.matchLength s = 0) : firstOf (rule :: rules) s = firstOf rules s := by
  rw [firstOf, h]

theorem firstOf_cons_of_pos {rule : LexicalRule} {rules : List LexicalRule} {s : Bytes} {n : Nat}
    (h : rule.matchLength s = n) (pos : 0 < n) :
    firstOf (rule :: rules) s = some (rule.kind, n) := by
  subst h
  rw [firstOf]
  split
  · omega
  · rename_i eq
    rw [eq]

/-! ## Where a rule does not match -/

theorem newlineLength_of_ne {b : UInt8} {s : Bytes} (feed : b ≠ Ascii.lineFeed)
    (carriage : b ≠ Ascii.carriageReturn) : newlineLength (b :: s) = 0 := by
  unfold newlineLength
  split <;> simp_all

theorem runLength_of_not {p : UInt8 → Bool} {b : UInt8} {s : Bytes} (h : p b = false) :
    runLength p (b :: s) = 0 := by
  simp [runLength, h]

theorem commentLength_of_ne {b : UInt8} {s : Bytes} (h : b ≠ Ascii.semicolon) :
    commentLength (b :: s) = 0 := by
  unfold commentLength
  split <;> simp_all

theorem sigilLength_of_ne {sigil b : UInt8} {p : UInt8 → Bool} {s : Bytes} (h : b ≠ sigil) :
    sigilLength sigil p (b :: s) = 0 := by
  simp [sigilLength, h]

end LexicalRule

/-! ## Runs of bytes of a class -/

/-- A text does not begin with a byte of a class. -/
def Stops (p : UInt8 → Bool) : Bytes → Prop
  | [] => True
  | b :: _ => p b = false

theorem takeWhile_append_of_stops {p : UInt8 → Bool} {run rest : Bytes} (all : ∀ b ∈ run, p b)
    (stops : Stops p rest) : (run ++ rest).takeWhile p = run := by
  rw [List.takeWhile_append_of_pos all]
  cases rest with
  | nil => simp
  | cons b rest =>
      have outside : p b = false := stops
      simp [outside]

theorem runLength_append_of_stops {p : UInt8 → Bool} {run rest : Bytes} (all : ∀ b ∈ run, p b)
    (stops : Stops p rest) : LexicalRule.runLength p (run ++ rest) = run.length := by
  rw [LexicalRule.runLength, takeWhile_append_of_stops all stops]

def isWordOrColon (b : UInt8) : Bool :=
  Ascii.isWord b || b == Ascii.colon

theorem isWord_of_isDigit {b : UInt8} (h : Ascii.isDigit b) : Ascii.isWord b := by
  simp [Ascii.isWord, h]

theorem Stops.mono {p q : UInt8 → Bool} {rest : Bytes} (imp : ∀ b, p b → q b) (h : Stops q rest) :
    Stops p rest := by
  cases rest with
  | nil => trivial
  | cons b rest =>
      have outside : q b = false := h
      exact Bool.eq_false_iff.2 fun inside => by simp [imp b inside] at outside

theorem Stops.isWord {rest : Bytes} (h : Stops isWordOrColon rest) : Stops Ascii.isWord rest :=
  h.mono fun b word => by simp [isWordOrColon, word]

theorem Stops.isDigit {rest : Bytes} (h : Stops isWordOrColon rest) : Stops Ascii.isDigit rest :=
  h.isWord.mono fun _ => isWord_of_isDigit

theorem ne_of_isWord {b c : UInt8} (word : Ascii.isWord b = true) (other : Ascii.isWord c = false) :
    b ≠ c := by
  rintro rfl
  rw [word] at other
  cases other

theorem labelLength_of_stops {word rest : Bytes} (all : ∀ b ∈ word, Ascii.isWord b)
    (stops : Stops isWordOrColon rest) : LexicalRule.labelLength (word ++ rest) = 0 := by
  rw [LexicalRule.labelLength, runLength_append_of_stops all stops.isWord]
  have no_colon : (word ++ rest)[word.length]? ≠ some Ascii.colon := by
    rw [List.getElem?_append_right (Nat.le_refl _), Nat.sub_self]
    cases rest with
    | nil => simp
    | cons b rest =>
        have outside : isWordOrColon b = false := stops
        simp only [isWordOrColon, Bool.or_eq_false_iff, beq_eq_false_iff_ne] at outside
        simpa using outside.2
  simp [no_colon]

/-! ## Lexemes by kind -/

theorem lexemeAt_of_first? {s : Bytes} {kind : Token.Kind} {n : Nat}
    (h : LexicalRule.first? s = some (kind, n)) : lexemeAt s = (kind, n) := by
  rw [lexemeAt, h]
  rfl

section Kinds

open LexicalRule

theorem lexemeAt_newline (rest : Bytes) : lexemeAt (Ascii.lineFeed :: rest) = (.newline, 1) :=
  lexemeAt_of_first? (firstOf_cons_of_pos rfl (by decide))

theorem lexemeAt_carriage (rest : Bytes) :
    lexemeAt (Ascii.carriageReturn :: Ascii.lineFeed :: rest) = (.newline, 2) :=
  lexemeAt_of_first? (firstOf_cons_of_pos rfl (by decide))

theorem lexemeAt_blanks {run rest : Bytes} (all : ∀ b ∈ run, Ascii.isBlank b) (nonempty : run ≠ [])
    (stops : Stops Ascii.isBlank rest) :
    lexemeAt (run ++ rest) = (.whitespace, run.length) := by
  apply lexemeAt_of_first?
  obtain ⟨b, run, rfl⟩ := List.exists_cons_of_ne_nil nonempty
  have blank : Ascii.isBlank b = true := all b List.mem_cons_self
  have feed : b ≠ Ascii.lineFeed := by rintro rfl; cases blank
  have carriage : b ≠ Ascii.carriageReturn := by rintro rfl; cases blank
  rw [first?, LexicalRule.all, firstOf_cons_of_zero (newlineLength_of_ne feed carriage)]
  exact firstOf_cons_of_pos (runLength_append_of_stops all stops) (by simp)

theorem lexemeAt_comment {body rest : Bytes} (all : ∀ b ∈ body, b ≠ Ascii.lineFeed) :
    lexemeAt (Ascii.semicolon :: body ++ Ascii.lineFeed :: rest) =
      (.comment, (Ascii.semicolon :: body).length) := by
  apply lexemeAt_of_first?
  have run : runLength (· != Ascii.lineFeed) (body ++ Ascii.lineFeed :: rest) = body.length := by
    apply runLength_append_of_stops
    · intro b member
      simpa using all b member
    · rfl
  rw [first?, LexicalRule.all, firstOf_cons_of_zero rfl, firstOf_cons_of_zero rfl]
  apply firstOf_cons_of_pos
  · rw [List.cons_append, List.length_cons, ← run]
    rfl
  · simp

theorem sigilLength_append {sigil : UInt8} {p : UInt8 → Bool} {run rest : Bytes}
    (all : ∀ b ∈ run, p b) (nonempty : run ≠ []) (stops : Stops p rest) :
    sigilLength sigil p (sigil :: run ++ rest) = (sigil :: run).length := by
  have pos : 0 < run.length := List.length_pos_iff.2 nonempty
  rw [List.cons_append, sigilLength, runLength_append_of_stops all stops, if_pos ⟨rfl, pos⟩,
    List.length_cons]

theorem lexemeAt_labelRef {word rest : Bytes} (all : ∀ b ∈ word, Ascii.isWord b)
    (nonempty : word ≠ []) (stops : Stops Ascii.isWord rest) :
    lexemeAt (Ascii.colon :: word ++ rest) = (.labelRef, (Ascii.colon :: word).length) := by
  apply lexemeAt_of_first?
  rw [first?, LexicalRule.all, firstOf_cons_of_zero rfl, firstOf_cons_of_zero rfl,
    firstOf_cons_of_zero rfl, firstOf_cons_of_zero rfl]
  exact firstOf_cons_of_pos (sigilLength_append all nonempty stops) (by simp)

theorem lexemeAt_specifier {word rest : Bytes} (all : ∀ b ∈ word, Ascii.isWord b)
    (nonempty : word ≠ []) (stops : Stops Ascii.isWord rest) :
    lexemeAt (Ascii.dot :: word ++ rest) = (.specifier, (Ascii.dot :: word).length) := by
  apply lexemeAt_of_first?
  rw [first?, LexicalRule.all, firstOf_cons_of_zero rfl, firstOf_cons_of_zero rfl,
    firstOf_cons_of_zero rfl, firstOf_cons_of_zero rfl, firstOf_cons_of_zero rfl]
  exact firstOf_cons_of_pos (sigilLength_append all nonempty stops) (by simp)

theorem lexemeAt_literal {digits rest : Bytes} (all : ∀ b ∈ digits, Ascii.isDigit b)
    (nonempty : digits ≠ []) (stops : Stops Ascii.isDigit rest) :
    lexemeAt (Ascii.hash :: digits ++ rest) = (.literal, (Ascii.hash :: digits).length) := by
  apply lexemeAt_of_first?
  rw [first?, LexicalRule.all, firstOf_cons_of_zero rfl, firstOf_cons_of_zero rfl,
    firstOf_cons_of_zero rfl, firstOf_cons_of_zero rfl, firstOf_cons_of_zero rfl,
    firstOf_cons_of_zero rfl]
  exact firstOf_cons_of_pos (sigilLength_append all nonempty stops) (by simp)

theorem lexemeAt_bracketOpen (rest : Bytes) :
    lexemeAt (Ascii.bracketOpen :: rest) = (.bracketOpen, 1) :=
  rfl

theorem lexemeAt_bracketClose (rest : Bytes) :
    lexemeAt (Ascii.bracketClose :: rest) = (.bracketClose, 1) :=
  rfl

/-- At a byte of a word, the first rule that can match is that of labels. -/
theorem first?_of_isWord {b : UInt8} (s : Bytes) (word : Ascii.isWord b = true) :
    first? (b :: s) = firstOf (LexicalRule.all.drop 3) (b :: s) := by
  have differs : ∀ c, Ascii.isWord c = false → b ≠ c := fun c => ne_of_isWord word
  have blank : Ascii.isBlank b = false := by
    simp [Ascii.isBlank, differs Ascii.space rfl, differs Ascii.tab rfl]
  rw [first?, LexicalRule.all,
    firstOf_cons_of_zero (newlineLength_of_ne (differs _ rfl) (differs _ rfl)),
    firstOf_cons_of_zero (runLength_of_not blank),
    firstOf_cons_of_zero (commentLength_of_ne (differs _ rfl))]
  rfl

theorem first?_of_word {word rest : Bytes} (all : ∀ b ∈ word, Ascii.isWord b)
    (nonempty : word ≠ []) (stops : Stops isWordOrColon rest) :
    first? (word ++ rest) = firstOf (LexicalRule.all.drop 7) (word ++ rest) := by
  have no_label := labelLength_of_stops all stops
  obtain ⟨b, word, rfl⟩ := List.exists_cons_of_ne_nil nonempty
  have head : Ascii.isWord b = true := all b List.mem_cons_self
  have differs : ∀ c, Ascii.isWord c = false → b ≠ c := fun c => ne_of_isWord head
  rw [List.cons_append, first?_of_isWord (word ++ rest) head]
  simp only [LexicalRule.all, List.drop_succ_cons, List.drop_zero]
  -- The three rules after that of labels want a sigil, which is no byte of a word.
  rw [firstOf_cons_of_zero no_label, firstOf_cons_of_zero (sigilLength_of_ne (differs _ rfl)),
    firstOf_cons_of_zero (sigilLength_of_ne (differs _ rfl)),
    firstOf_cons_of_zero (sigilLength_of_ne (differs _ rfl))]

theorem lexemeAt_label {word : Bytes} (rest : Bytes) (all : ∀ b ∈ word, Ascii.isWord b)
    (nonempty : word ≠ []) :
    lexemeAt (word ++ [Ascii.colon] ++ rest) = (.label, (word ++ [Ascii.colon]).length) := by
  have stops : Stops Ascii.isWord (Ascii.colon :: rest) := rfl
  have matched : labelLength (word ++ Ascii.colon :: rest) = word.length + 1 := by
    rw [labelLength, runLength_append_of_stops all stops]
    exact if_pos ⟨List.length_pos_iff.2 nonempty, by simp⟩
  apply lexemeAt_of_first?
  rw [List.append_assoc, List.singleton_append, List.length_append, List.length_singleton]
  obtain ⟨b, word, rfl⟩ := List.exists_cons_of_ne_nil nonempty
  rw [List.cons_append, first?_of_isWord _ (all b List.mem_cons_self)]
  exact firstOf_cons_of_pos matched (Nat.succ_pos _)

theorem lexemeAt_number {digits rest : Bytes} (all : ∀ b ∈ digits, Ascii.isDigit b)
    (nonempty : digits ≠ []) (stops : Stops isWordOrColon rest) :
    lexemeAt (digits ++ rest) = (.number, digits.length) := by
  have words : ∀ b ∈ digits, Ascii.isWord b := fun b member => isWord_of_isDigit (all b member)
  apply lexemeAt_of_first?
  rw [first?_of_word words nonempty stops]
  exact firstOf_cons_of_pos (runLength_append_of_stops all stops.isDigit)
    (List.length_pos_iff.2 nonempty)

/-- A word that does not begin with a digit is a register or an identifier. -/
theorem lexemeAt_word {b : UInt8} {word rest : Bytes} (all : ∀ x ∈ b :: word, Ascii.isWord x)
    (no_digit : Ascii.isDigit b = false) (stops : Stops isWordOrColon rest) :
    lexemeAt (b :: word ++ rest) =
      (if isRegisterWord (b :: word) then .register else .identifier, (b :: word).length) := by
  apply lexemeAt_of_first?
  rw [first?_of_word all (List.cons_ne_nil b word) stops]
  simp only [LexicalRule.all, List.drop_succ_cons, List.drop_zero]
  rw [List.cons_append, firstOf_cons_of_zero (runLength_of_not no_digit), ← List.cons_append]
  have whole := takeWhile_append_of_stops all stops.isWord
  by_cases known : isRegisterWord (b :: word) = true
  · rw [if_pos known]
    apply firstOf_cons_of_pos
    · simp only [registerLength, whole, known, if_true]
    · simp
  · have no_register : registerLength (b :: word ++ rest) = 0 := by
      simp only [registerLength, whole, known, if_false, Bool.false_eq_true]
    rw [if_neg known, firstOf_cons_of_zero no_register]
    exact firstOf_cons_of_pos (runLength_append_of_stops all stops.isWord) (by simp)

end Kinds

end WordMachine
