import WordMachine.Proofs.Source.Lexeme

/-!
# Lexical rules as patterns

The lexical rules, written as patterns.  A pattern can match in several ways, which are tried in
order: an alternative before the next, and a longer run before a shorter one.  The first way is the
match.  Each rule finds the length of that match without trying the others.
-/

namespace WordMachine

inductive Pattern where
  | empty
  | byte (p : UInt8 → Bool)
  /-- Any number of bytes of a class, rather more than fewer. -/
  | many (p : UInt8 → Bool)
  | either (x y : Pattern)
  | seq (x y : Pattern)
  /-- A place where a word begins or ends. -/
  | boundary

namespace Pattern

open LexicalRule

def isWordAt (text : Bytes) (i : Nat) : Bool :=
  text[i]?.any Ascii.isWord

/-- Where a match that begins at a place can end, in the order in which the ways are tried. -/
def ends (text : Bytes) : Pattern → Nat → List Nat
  | empty, i => [i]
  | byte p, i => if text[i]?.any p then [i + 1] else []
  | many p, i => (List.range (runLength p (text.drop i) + 1)).reverse.map (i + ·)
  | either x y, i => ends text x i ++ ends text y i
  | seq x y, i => (ends text x i).flatMap (ends text y)
  | boundary, i => if (decide (0 < i) && isWordAt text (i - 1)) != isWordAt text i then [i] else []

/-- The length of the match at the start of a text. -/
def match? (x : Pattern) (text : Bytes) : Option Nat :=
  (ends text x 0).head?

def matchLength (x : Pattern) (text : Bytes) : Nat :=
  (x.match? text).getD 0

/-! ## The table -/

def one (b : UInt8) : Pattern :=
  byte (· == b)

def run (p : UInt8 → Bool) : Pattern :=
  seq (byte p) (many p)

/-- One byte of each of some classes in turn. -/
def row (classes : List (UInt8 → Bool)) : Pattern :=
  classes.foldr (fun p x => seq (byte p) x) empty

/-- The first of some patterns that lets the rest match. -/
def firstOf (xs : List Pattern) : Pattern :=
  xs.foldr either (byte fun _ => false)

/-- What stands after the `r` in the name of a register. -/
def registerTails : List (List (UInt8 → Bool)) :=
  [[(· == 0x31), fun b => 0x30 ≤ b && b ≤ 0x35],
    [Ascii.isDigit],
    [(· == 0x49), (· == 0x50)],
    [(· == 0x49), (· == 0x43)],
    [(· == 0x53), (· == 0x50)],
    [(· == 0x53), (· == 0x42), (· == 0x50)],
    [(· == 0x52), (· == 0x4d), (· == 0x44)]]

def table : List (Token.Kind × Pattern) :=
  [(.newline, seq (either (one Ascii.carriageReturn) empty) (one Ascii.lineFeed)),
    (.whitespace, run Ascii.isBlank),
    (.comment, seq (one Ascii.semicolon) (many (· != Ascii.lineFeed))),
    (.label, seq (run Ascii.isWord) (one Ascii.colon)),
    (.labelRef, seq (one Ascii.colon) (run Ascii.isWord)),
    (.specifier, seq (one Ascii.dot) (run Ascii.isWord)),
    (.literal, seq (one Ascii.hash) (run Ascii.isDigit)),
    (.number, run Ascii.isDigit),
    (.register, seq (one 0x72) (seq (firstOf (registerTails.map row)) boundary)),
    (.identifier, run Ascii.isWord),
    (.bracketOpen, one Ascii.bracketOpen),
    (.bracketClose, one Ascii.bracketClose)]

def first? (text : Bytes) : Option (Token.Kind × Nat) :=
  table.findSome? fun row => (row.2.match? text).map (row.1, ·)

/-! ## Bounds of matches -/

/-- Whether each match has at least one byte, as far as the parts of a pattern tell. -/
def consumes : Pattern → Bool
  | empty | many _ | boundary => false
  | byte _ => true
  | either x y => consumes x && consumes y
  | seq x y => consumes x || consumes y

theorem mem_ends_byte {text : Bytes} {p : UInt8 → Bool} {i j : Nat}
    (h : j ∈ ends text (byte p) i) : j = i + 1 ∧ i < text.length := by
  rw [ends] at h
  split at h
  · rename_i holds
    have inside : i < text.length := by
      by_contra outside
      rw [List.getElem?_eq_none (by omega)] at holds
      cases holds
    exact ⟨List.mem_singleton.1 h, inside⟩
  · cases h

theorem mem_ends_many {text : Bytes} {p : UInt8 → Bool} {i j : Nat}
    (h : j ∈ ends text (many p) i) : ∃ n ≤ text.length - i, j = i + n := by
  rw [ends, List.mem_map] at h
  obtain ⟨n, below, rfl⟩ := h
  have bound : runLength p (text.drop i) ≤ (text.drop i).length :=
    (List.takeWhile_prefix p).length_le
  rw [List.length_drop] at bound
  rw [List.mem_reverse, List.mem_range] at below
  exact ⟨n, by omega, rfl⟩

theorem eq_of_mem_ends_boundary {text : Bytes} {i j : Nat} (h : j ∈ ends text boundary i) :
    j = i := by
  rw [ends] at h
  split at h
  · exact List.mem_singleton.1 h
  · cases h

theorem le_of_mem_ends {text : Bytes} {x : Pattern} {i j : Nat} (h : j ∈ ends text x i) :
    i ≤ j := by
  induction x generalizing i j with
  | empty => exact Nat.le_of_eq (List.mem_singleton.1 h).symm
  | byte p =>
      have next := mem_ends_byte h
      omega
  | many p =>
      obtain ⟨n, -, rfl⟩ := mem_ends_many h
      omega
  | either x y left right =>
      rcases List.mem_append.1 h with h | h
      · exact left h
      · exact right h
  | seq x y left right =>
      obtain ⟨k, first, second⟩ := List.mem_flatMap.1 h
      exact Nat.le_trans (left first) (right second)
  | boundary => exact Nat.le_of_eq (eq_of_mem_ends_boundary h).symm

theorem lt_of_mem_ends {text : Bytes} {x : Pattern} {i j : Nat} (consuming : x.consumes = true)
    (h : j ∈ ends text x i) : i < j := by
  induction x generalizing i j with
  | empty | many | boundary => cases consuming
  | byte p =>
      have next := mem_ends_byte h
      omega
  | either x y left right =>
      rw [consumes, Bool.and_eq_true] at consuming
      rcases List.mem_append.1 h with h | h
      · exact left consuming.1 h
      · exact right consuming.2 h
  | seq x y left right =>
      rw [consumes, Bool.or_eq_true] at consuming
      obtain ⟨k, first, second⟩ := List.mem_flatMap.1 h
      rcases consuming with consuming | consuming
      · exact Nat.lt_of_lt_of_le (left consuming first) (le_of_mem_ends second)
      · exact Nat.lt_of_le_of_lt (le_of_mem_ends first) (right consuming second)

theorem le_length_of_mem_ends {text : Bytes} {x : Pattern} {i j : Nat} (inside : i ≤ text.length)
    (h : j ∈ ends text x i) : j ≤ text.length := by
  induction x generalizing i j with
  | empty => exact List.mem_singleton.1 h ▸ inside
  | byte p =>
      have next := mem_ends_byte h
      omega
  | many p =>
      obtain ⟨n, bound, rfl⟩ := mem_ends_many h
      omega
  | either x y left right =>
      rcases List.mem_append.1 h with h | h
      · exact left inside h
      · exact right inside h
  | seq x y left right =>
      obtain ⟨k, first, second⟩ := List.mem_flatMap.1 h
      exact right (left inside first) second
  | boundary => exact eq_of_mem_ends_boundary h ▸ inside

theorem mem_ends_of_match? {x : Pattern} {text : Bytes} {n : Nat} (h : x.match? text = some n) :
    n ∈ ends text x 0 :=
  List.mem_of_mem_head? h

theorem first?_bounds {text : Bytes} {kind : Token.Kind} {n : Nat}
    (h : first? text = some (kind, n)) : 0 < n ∧ n ≤ text.length := by
  have consuming : ∀ row ∈ table, row.2.consumes = true := by decide
  obtain ⟨row, member, found⟩ := List.exists_of_findSome?_eq_some h
  obtain ⟨n, matched, same⟩ := Option.map_eq_some_iff.1 found
  cases same
  have ending := mem_ends_of_match? matched
  exact ⟨lt_of_mem_ends (consuming row member) ending,
    le_length_of_mem_ends (Nat.zero_le _) ending⟩

/-! ## Matches of simple patterns -/

theorem ends_run (text : Bytes) (p : UInt8 → Bool) (i : Nat) :
    ends text (run p) i =
      (List.range (runLength p (text.drop i))).reverse.map (i + 1 + ·) := by
  rw [run, ends, ends]
  by_cases inside : i < text.length
  · have cons : text.drop i = text[i] :: text.drop (i + 1) := List.drop_eq_getElem_cons inside
    by_cases holds : p text[i] = true
    · have longer : runLength p (text.drop i) = runLength p (text.drop (i + 1)) + 1 := by
        rw [cons, runLength, List.takeWhile_cons_of_pos holds]
        rfl
      simp [longer, inside, holds, ends]
    · have none : runLength p (text.drop i) = 0 := by
        rw [cons, runLength, List.takeWhile_cons_of_neg holds]
        rfl
      simp [none, inside, holds]
  · rw [List.getElem?_eq_none (by omega), List.drop_eq_nil_of_le (by omega)]
    rfl

theorem head?_reverse_range (n : Nat) (f : Nat → Nat) :
    ((List.range n).reverse.map f).head? = if n = 0 then none else some (f (n - 1)) := by
  cases n with
  | zero => rfl
  | succ n => simp [List.range_succ]

theorem matchLength_run (p : UInt8 → Bool) : (run p).matchLength = runLength p := by
  funext text
  rw [matchLength, match?, ends_run, List.drop_zero, head?_reverse_range]
  split
  · rename_i none
    rw [none]
    rfl
  · simp only [Option.getD_some]
    omega

theorem ends_one (text : Bytes) (b : UInt8) (i : Nat) :
    ends text (one b) i = if text[i]? = some b then [i + 1] else [] := by
  rw [one, ends]
  cases text[i]? with
  | none => rfl
  | some x => simp

theorem matchLength_one (b : UInt8) : (one b).matchLength = byteLength b := by
  funext text
  rw [matchLength, match?, ends_one]
  cases text with
  | nil => rfl
  | cons x rest =>
      by_cases same : x = b
      · simp [byteLength, same]
      · simp [byteLength, same]

theorem ends_one_seq (x : Pattern) (b c : UInt8) (rest : Bytes) :
    ends (c :: rest) (seq (one b) x) 0 = if c = b then ends (c :: rest) x 1 else [] := by
  rw [ends, ends_one]
  by_cases same : c = b
  · simp [same]
  · simp [same]

theorem matchLength_newline :
    (seq (either (one Ascii.carriageReturn) empty) (one Ascii.lineFeed)).matchLength =
      newlineLength := by
  funext text
  match text with
  | [] => rfl
  | b :: rest =>
      by_cases feed : b = Ascii.lineFeed
      · subst feed
        rfl
      · by_cases carriage : b = Ascii.carriageReturn
        · subst carriage
          match rest with
          | [] => rfl
          | c :: rest =>
              by_cases next : c = Ascii.lineFeed
              · subst next
                rfl
              · have unmatched : newlineLength (Ascii.carriageReturn :: c :: rest) = 0 := by
                  unfold newlineLength
                  split <;> simp_all
                rw [unmatched]
                simp [matchLength, match?, ends, ends_one, feed, next]
        · rw [newlineLength_of_ne feed carriage]
          simp [matchLength, match?, ends, ends_one, feed, carriage]

theorem matchLength_comment :
    (seq (one Ascii.semicolon) (many (· != Ascii.lineFeed))).matchLength = commentLength := by
  funext text
  cases text with
  | nil => rfl
  | cons b rest =>
      rw [matchLength, match?, ends_one_seq]
      by_cases same : b = Ascii.semicolon
      · subst same
        rw [if_pos rfl, ends, head?_reverse_range, if_neg (Nat.succ_ne_zero _)]
        exact Nat.add_comm 1 _
      · rw [if_neg same, commentLength_of_ne same]
        rfl

theorem matchLength_sigil (sigil : UInt8) (p : UInt8 → Bool) :
    (seq (one sigil) (run p)).matchLength = sigilLength sigil p := by
  funext text
  cases text with
  | nil => rfl
  | cons b rest =>
      rw [matchLength, match?, ends_one_seq]
      by_cases same : b = sigil
      · rw [if_pos same, ends_run, head?_reverse_range, List.drop_succ_cons, List.drop_zero,
          sigilLength]
        split
        · rename_i none
          simp [none]
        · rename_i some
          rw [if_pos ⟨same, Nat.pos_of_ne_zero some⟩, Option.getD_some]
          omega
      · rw [if_neg same, sigilLength_of_ne same]
        rfl

theorem any_of_lt_runLength {p : UInt8 → Bool} {text : Bytes} {k : Nat}
    (h : k < runLength p text) : ∃ b, text[k]? = some b ∧ p b = true := by
  have inside : k < (text.takeWhile p).length := h
  have bound : k < text.length :=
    Nat.lt_of_lt_of_le inside (List.takeWhile_prefix p).length_le
  have same : (text.takeWhile p)[k] = text[k] := (List.takeWhile_prefix p).getElem inside
  refine ⟨text[k], List.getElem?_eq_getElem bound, ?_⟩
  rw [← same]
  exact List.mem_takeWhile_imp (List.getElem_mem inside)

theorem matchLength_label :
    (seq (run Ascii.isWord) (one Ascii.colon)).matchLength = labelLength := by
  funext text
  rw [matchLength, match?, ends, ends_run, List.drop_zero, labelLength, List.head?_flatMap]
  cases length : runLength Ascii.isWord text with
  | zero => rfl
  | succ n =>
      -- A shorter run is followed by another byte of the word, which is no colon.
      have shorter : ((List.range n).reverse.map (0 + 1 + ·)).findSome?
          (fun k => (ends text (one Ascii.colon) k).head?) = none := by
        rw [List.findSome?_eq_none_iff]
        intro k member
        obtain ⟨j, below, rfl⟩ := List.mem_map.1 member
        rw [List.mem_reverse, List.mem_range] at below
        obtain ⟨b, found, word⟩ :=
          any_of_lt_runLength (show 0 + 1 + j < runLength Ascii.isWord text by omega)
        have other : b ≠ Ascii.colon := by
          rintro rfl
          cases word
        simp [ends_one, found, other]
      rw [List.range_succ, List.reverse_append, List.reverse_singleton, List.singleton_append,
        List.map_cons, List.findSome?_cons, shorter, ends_one, show 0 + 1 + n = n + 1 by omega]
      by_cases colon : text[n + 1]? = some Ascii.colon
      · simp [colon]
      · simp [colon]

/-! ## Registers -/

/-- Whether a text begins with one byte of each of some classes in turn. -/
def fits : List (UInt8 → Bool) → Bytes → Bool
  | [], _ => true
  | _ :: _, [] => false
  | p :: classes, b :: text => p b && fits classes text

/-- Whether a word is one byte of each of some classes in turn. -/
def spells (word : Bytes) (classes : List (UInt8 → Bool)) : Bool :=
  fits classes word && word.length == classes.length

theorem ends_row (text : Bytes) (classes : List (UInt8 → Bool)) (i : Nat) :
    ends text (row classes) i =
      if fits classes (text.drop i) then [i + classes.length] else [] := by
  induction classes generalizing i with
  | nil => rfl
  | cons p classes ih =>
      rw [show row (p :: classes) = seq (byte p) (row classes) from rfl, ends, ends]
      by_cases inside : i < text.length
      · have cons : text.drop i = text[i] :: text.drop (i + 1) := List.drop_eq_getElem_cons inside
        rw [cons, List.getElem?_eq_getElem inside]
        by_cases holds : p text[i] = true
        · rw [if_pos (by simpa using holds), List.flatMap_singleton, ih, fits, holds, Bool.true_and,
            List.length_cons, show i + 1 + classes.length = i + (classes.length + 1) by omega]
        · rw [if_neg (by simpa using holds), fits]
          simp [holds]
      · rw [List.getElem?_eq_none (by omega), List.drop_eq_nil_of_le (by omega)]
        rfl

theorem ends_firstOf (text : Bytes) (xs : List Pattern) (i : Nat) :
    ends text (firstOf xs) i = xs.flatMap fun x => ends text x i := by
  induction xs with
  | nil => simp [firstOf, ends]
  | cons x xs ih =>
      rw [show firstOf (x :: xs) = either x (firstOf xs) from rfl, ends, ih, List.flatMap_cons]

section Words

variable {classes : List (UInt8 → Bool)} (words : ∀ p ∈ classes, ∀ b, p b → Ascii.isWord b)

include words

/-- Classes of bytes of words that a text begins with make up its first word exactly if no other
byte of a word follows. -/
theorem fits_and_stops_iff {text : Bytes} :
    fits classes text = true ∧ isWordAt text classes.length = false ↔
      spells (text.takeWhile Ascii.isWord) classes = true := by
  induction classes generalizing text with
  | nil =>
      cases text with
      | nil => simp [fits, spells, isWordAt]
      | cons b text => cases h : Ascii.isWord b <;> simp [fits, spells, isWordAt, h]
  | cons p classes ih =>
      cases text with
      | nil => simp [fits, spells]
      | cons b text =>
          have rest := @ih (fun q member => words q (.tail _ member)) text
          by_cases holds : p b = true
          · have word := words p List.mem_cons_self b holds
            simpa [fits, spells, isWordAt, holds, word] using rest
          · cases h : Ascii.isWord b <;> simp [fits, spells, h, holds]

theorem isWordAt_of_fits {c : UInt8} {text : Bytes} (word : Ascii.isWord c = true)
    (h : fits classes text = true) : isWordAt (c :: text) classes.length = true := by
  induction classes generalizing c text with
  | nil => simpa [isWordAt] using word
  | cons p classes ih =>
      cases text with
      | nil => cases h
      | cons b text =>
          rw [fits, Bool.and_eq_true] at h
          have next := words p List.mem_cons_self b h.1
          exact ih (fun q member => words q (.tail _ member)) next h.2

theorem head?_row_boundary {c : UInt8} (text : Bytes) (word : Ascii.isWord c = true) :
    ((ends (c :: text) (row classes) 1).flatMap (ends (c :: text) boundary)).head? =
      if spells (text.takeWhile Ascii.isWord) classes then
        some ((text.takeWhile Ascii.isWord).length + 1)
      else none := by
  have whole : _ ↔ spells (text.takeWhile Ascii.isWord) classes = true := fits_and_stops_iff words
  rw [ends_row, List.drop_succ_cons, List.drop_zero]
  by_cases begins : fits classes text = true
  · have before := isWordAt_of_fits words word begins
    have place : isWordAt (c :: text) (1 + classes.length) = isWordAt text classes.length := by
      rw [Nat.add_comm]
      rfl
    rw [if_pos begins, List.flatMap_singleton, ends, Nat.add_sub_cancel_left, before, place]
    cases after : isWordAt text classes.length with
    | false =>
        have exact := whole.1 ⟨begins, after⟩
        have length : (text.takeWhile Ascii.isWord).length = classes.length := by
          rw [spells, Bool.and_eq_true, beq_iff_eq] at exact
          exact exact.2
        rw [if_pos exact, length, Nat.add_comm]
        simp
    | true =>
        have longer : ¬ spells (text.takeWhile Ascii.isWord) classes = true := fun exact => by
          rw [(whole.2 exact).2] at after
          cases after
        rw [if_neg longer]
        simp
  · have other : ¬ spells (text.takeWhile Ascii.isWord) classes = true :=
      fun exact => begins (whole.2 exact).1
    rw [if_neg begins, if_neg other]
    rfl

end Words

/-- The first of some words of given classes that ends where the word does. -/
theorem head?_firstOf_boundary {tails : List (List (UInt8 → Bool))}
    (words : ∀ classes ∈ tails, ∀ p ∈ classes, ∀ b, p b → Ascii.isWord b) {c : UInt8} {text : Bytes}
    (word : Ascii.isWord c = true) :
    (ends (c :: text) (seq (firstOf (tails.map row)) boundary) 1).head? =
      if tails.any (spells (text.takeWhile Ascii.isWord)) then
        some ((text.takeWhile Ascii.isWord).length + 1)
      else none := by
  rw [ends, ends_firstOf, List.flatMap_map, List.flatMap_assoc]
  induction tails with
  | nil => rfl
  | cons classes tails ih =>
      have first := head?_row_boundary (words classes List.mem_cons_self) text word
      rw [List.flatMap_cons, List.head?_append, first,
        ih fun others member => words others (.tail _ member), List.any_cons]
      cases spells (text.takeWhile Ascii.isWord) classes with
      | true => rfl
      | false => rfl

theorem isWord_of_mem_registerTails :
    ∀ classes ∈ registerTails, ∀ p ∈ classes, ∀ b, p b → Ascii.isWord b := by
  have digit : ∀ b : UInt8, 0x30 ≤ b → b ≤ 0x35 → Ascii.isWord b = true := by
    intro b low high
    have below : b ≤ 0x39 := UInt8.le_trans high (by decide)
    exact isWord_of_isDigit (by simp [Ascii.isDigit, low, below])
  simp only [registerTails, List.forall_mem_cons, List.not_mem_nil, beq_iff_eq, forall_eq,
    Bool.and_eq_true, decide_eq_true_eq]
  refine ⟨⟨rfl, fun b h => digit b h.1 h.2, ?_⟩, ⟨fun b => isWord_of_isDigit, ?_⟩, ⟨rfl, rfl, ?_⟩,
    ⟨rfl, rfl, ?_⟩, ⟨rfl, rfl, ?_⟩, ⟨rfl, rfl, rfl, ?_⟩, ⟨rfl, rfl, rfl, ?_⟩, ?_⟩
  all_goals simp

theorem isRegisterTail_eq (w : Bytes) : isRegisterTail w = registerTails.any (spells w) := by
  match w with
  | [] => rfl
  | [a] => simp [registerTails, spells, fits, isRegisterTail]
  | [a, b] =>
      rw [isRegisterTail, Bool.eq_iff_iff]
      simp [registerTails, spells, fits, and_assoc, and_or_left, or_assoc]
  | [a, b, c] =>
      rw [isRegisterTail, Bool.eq_iff_iff]
      simp [registerTails, spells, fits, and_assoc]
  | a :: b :: c :: d :: w => simp [registerTails, spells, fits, isRegisterTail]

theorem matchLength_register :
    (seq (one 0x72) (seq (firstOf (registerTails.map row)) boundary)).matchLength =
      registerLength := by
  funext text
  cases text with
  | nil => rfl
  | cons c rest =>
      rw [matchLength, match?, ends_one_seq, registerLength]
      by_cases same : c = 0x72
      · subst same
        have first : Ascii.isWord 0x72 = true := rfl
        rw [if_pos rfl, head?_firstOf_boundary isWord_of_mem_registerTails first,
          List.takeWhile_cons_of_pos first, isRegisterWord, isRegisterTail_eq]
        split <;> simp_all
      · rw [if_neg same, List.takeWhile_cons]
        cases Ascii.isWord c with
        | true => simp [isRegisterWord, same]
        | false => rfl

theorem all_eq_table : LexicalRule.all = table.map fun row => ⟨row.1, row.2.matchLength⟩ := by
  simp only [table, List.map, matchLength_newline, matchLength_run, matchLength_comment,
    matchLength_label, matchLength_sigil, matchLength_register, matchLength_one]
  rfl

theorem firstOf_map_eq {rows : List (Token.Kind × Pattern)} (text : Bytes)
    (consuming : ∀ row ∈ rows, row.2.consumes = true) :
    LexicalRule.firstOf (rows.map fun row => ⟨row.1, row.2.matchLength⟩) text =
      rows.findSome? fun row => (row.2.match? text).map (row.1, ·) := by
  induction rows with
  | nil => rfl
  | cons row rows ih =>
      have others := ih fun other member => consuming other (.tail _ member)
      rw [List.map_cons, List.findSome?_cons]
      cases matched : row.2.match? text with
      | none =>
          have length : row.2.matchLength text = 0 := by rw [matchLength, matched, Option.getD_none]
          rw [firstOf_cons_of_zero length, others, Option.map_none]
      | some n =>
          have length : row.2.matchLength text = n := by rw [matchLength, matched, Option.getD_some]
          have pos : 0 < n :=
            lt_of_mem_ends (consuming row List.mem_cons_self) (mem_ends_of_match? matched)
          rw [firstOf_cons_of_pos length pos, Option.map_some]

/-- The rules decide as the table does. -/
theorem first?_eq_first? (text : Bytes) : LexicalRule.first? text = first? text := by
  rw [LexicalRule.first?, all_eq_table]
  exact firstOf_map_eq text (by decide)

end Pattern

end WordMachine
