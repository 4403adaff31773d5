import Mathlib.Data.List.TakeDrop
import WordMachine.Proofs.Source.Segmentation

/-!
# Scanning

A scanner owes tokens: those of the text before it, after one that it may hold back.  A request
gives the first of them and leaves the others, so that the tokens of a source text are those of the
lexemes it is made of.
-/

namespace WordMachine

/-! ## Characters that no rule matches -/

namespace Utf8

theorem high_of_mem_tail {c : Char} {b : UInt8} (h : b ∈ (String.utf8EncodeChar c).tail) :
    0x80 ≤ b := by
  have high (n : Nat) : (0x80 : UInt8) ≤ UInt8.ofNat (n % 64 + 128) := by
    rw [UInt8.le_iff_toNat_le, UInt8.toNat_ofNat_of_lt' (by simp only [UInt8.size]; omega)]
    exact Nat.le_add_left 128 (n % 64)
  unfold String.utf8EncodeChar at h
  dsimp only at h
  split at h
  · cases h
  · split at h
    · rw [List.tail_cons, List.mem_singleton] at h
      rw [h]
      exact high _
    · split at h
      all_goals
        simp only [List.tail_cons, List.mem_cons, List.not_mem_nil, or_false] at h
        rcases h with rfl | rfl | rfl <;> exact high _

theorem take_of_first? {bytes : Bytes} {c : Char} (h : first? bytes = some c) :
    bytes.take c.utf8Size = String.utf8EncodeChar c := by
  have decoded := congrArg (·.data.toList) (ByteArray.eq_of_utf8DecodeChar?_eq_some h)
  simp only [ByteArray.toList_data_append, List.data_toByteArray] at decoded
  have four : bytes.take c.utf8Size = (bytes.take 4).take c.utf8Size := by
    rw [List.take_take, Nat.min_eq_left c.utf8Size_le_four]
  rw [four, decoded, ← String.length_utf8EncodeChar, List.take_left]

theorem high_of_mem_take_firstSize {b x : UInt8} {rest : Bytes}
    (h : x ∈ rest.take (firstSize (b :: rest) - 1)) : 0x80 ≤ x := by
  unfold firstSize at h
  cases decoded : first? (b :: rest) with
  | none => simp [decoded] at h
  | some c =>
      have bytes := take_of_first? decoded
      rcases Nat.exists_eq_succ_of_ne_zero (Nat.ne_of_gt c.utf8Size_pos) with ⟨n, size⟩
      simp only [decoded, size, Nat.succ_sub_one] at h
      rw [size, List.take_succ_cons] at bytes
      apply high_of_mem_tail (c := c)
      rw [← bytes]
      exact h

end Utf8

theorem Ascii.class_of_high {b : UInt8} (high : 0x80 ≤ b) :
    isWord b = false ∧ isDigit b = false ∧ isBlank b = false := by
  have every : ∀ n : Fin 256, 0x80 ≤ UInt8.ofFin n → isWord (UInt8.ofFin n) = false ∧
      isDigit (UInt8.ofFin n) = false ∧ isBlank (UInt8.ofFin n) = false := by
    decide +kernel
  exact every b.toFin high

theorem LexicalRule.first?_of_high {b : UInt8} (high : 0x80 ≤ b) (s : Bytes) :
    first? (b :: s) = none := by
  have differs {c : UInt8} (low : c < 0x80) : b ≠ c := by
    intro same
    exact absurd (same ▸ high) (UInt8.not_le.2 low)
  rcases Ascii.class_of_high high with ⟨word, digit, blank⟩
  have newline : newlineLength (b :: s) = 0 :=
    newlineLength_of_ne (differs (by decide)) (differs (by decide))
  have comment : commentLength (b :: s) = 0 := commentLength_of_ne (differs (by decide))
  have sigil {c : UInt8} (p : UInt8 → Bool) (low : c < 0x80) : sigilLength c p (b :: s) = 0 :=
    sigilLength_of_ne (differs low)
  have no_word : runLength Ascii.isWord (b :: s) = 0 := runLength_of_not word
  have label : labelLength (b :: s) = 0 := by simp [labelLength, no_word]
  have register : registerLength (b :: s) = 0 := by simp [registerLength, word, isRegisterWord]
  have bracket {c : UInt8} (low : c < 0x80) : byteLength c (b :: s) = 0 := by
    simp [byteLength, differs low]
  simp only [first?, all, firstOf, newline, runLength_of_not blank, comment, label,
    sigil (c := Ascii.colon) _ (by decide), sigil (c := Ascii.dot) _ (by decide),
    sigil (c := Ascii.hash) _ (by decide), runLength_of_not digit, register, no_word,
    bracket (c := Ascii.bracketOpen) (by decide), bracket (c := Ascii.bracketClose) (by decide)]

/-! ## Seeking -/

theorem first?_of_lexemeAt {text : Bytes} {kind : Token.Kind} {n : Nat}
    (h : lexemeAt text = (kind, n)) (known : kind ≠ .unknown) :
    LexicalRule.first? text = some (kind, n) := by
  unfold lexemeAt at h
  cases found : LexicalRule.first? text with
  | none =>
      rw [found] at h
      exact absurd (congrArg Prod.fst h).symm known
  | some lexeme =>
      rw [found] at h
      exact congrArg some h

theorem unmatchedLength_of_lexemeAt {text : Bytes} {n : Nat} (h : lexemeAt text = (.unknown, n)) :
    unmatchedLength text = n := by
  unfold lexemeAt at h
  cases found : LexicalRule.first? text with
  | none =>
      rw [found] at h
      exact congrArg Prod.snd h
  | some lexeme =>
      rw [found] at h
      rw [Pattern.first?_eq_first?] at found
      exact absurd (congrArg Prod.fst h) (kind_ne_unknown_of_first? found)

namespace Scanner

/-- Passing over whole characters reaches the same match as passing over single bytes. -/
theorem seekFrom_eq {passed skip : Nat} {text : Bytes} (high : ∀ b ∈ text.take skip, 0x80 ≤ b) :
    seekFrom passed skip text =
      (passed + unmatchedLength text, LexicalRule.first? (text.drop (unmatchedLength text))) := by
  fun_induction seekFrom passed skip text with
  | case1 passed skip => rfl
  | case2 passed skip b rest ih =>
      -- No rule matches inside a character, so nothing is missed by not trying there.
      rw [List.take_succ_cons] at high
      have none := LexicalRule.first?_of_high (high b List.mem_cons_self) rest
      rw [ih fun x member => high x (.tail b member), unmatchedLength_cons_of_none none,
        List.drop_succ_cons, Nat.add_right_comm, Nat.add_assoc]
  | case3 passed b rest found matched =>
      rw [unmatchedLength_of_match matched, List.drop_zero, matched, Nat.add_zero]
  | case4 passed b rest none ih =>
      rw [ih fun x => Utf8.high_of_mem_take_firstSize, unmatchedLength_cons_of_none none,
        List.drop_succ_cons, Nat.add_right_comm, Nat.add_assoc]

theorem seek_of_match {text : Bytes} {lexeme : Token.Kind × Nat}
    (h : LexicalRule.first? text = some lexeme) : seek text = (0, some lexeme) := by
  cases text with
  | nil => cases h
  | cons b text => rw [seek, seekFrom, h]

theorem seek_of_unknown {text : Bytes} {n : Nat} (h : lexemeAt text = (.unknown, n)) :
    seek text = (n, LexicalRule.first? (text.drop n)) := by
  rw [seek, seekFrom_eq (by simp), unmatchedLength_of_lexemeAt h, Nat.zero_add]

/-! ## One token -/

theorem token_eq {s : Scanner} {before raw after : Bytes}
    (whole : s.source = before ++ (raw ++ after)) (within : s.lines.Within s.source before.length)
    (kind : Token.Kind) :
    s.token kind before.length (before.length + raw.length) =
      (Lexeme.token (Place.start.advance before) ⟨kind, raw⟩,
        { s with lines := .ofBytes before }) := by
  have bytes : (s.source.drop before.length).take (before.length + raw.length - before.length) =
      raw := by
    rw [whole, List.drop_left, Nat.add_sub_cancel_left, List.take_left]
  have offset := (Place.ends_advance_start before).offset
  rw [token, bytes, within.upTo whole, LineCount.position_ofBytes, Lexeme.token, offset]
  rfl

/-- A scanner that has made the tokens of `done` and has `rest` before it. -/
def between (done rest : Bytes) (lines : LineCount) (held : Option Token) : Scanner :=
  ⟨done ++ rest, done.length, done.length, held, lines⟩

section Next

variable {done passed raw rest : Bytes} {kind : Token.Kind} {lines : LineCount}

theorem next_at_end : (between done [] lines none).next = (none, between done [] lines none) := by
  have sought : seek ((done ++ []).drop done.length) = (0, none) := by
    rw [List.drop_left]
    rfl
  have all : ¬ done.length < (done ++ []).length := by simp
  simp only [next, between, sought, Nat.add_zero]
  rw [if_neg all]

theorem next_of_match (within : lines.Within (done ++ (raw ++ rest)) done.length)
    (found : LexicalRule.first? (raw ++ rest) = some (kind, raw.length)) :
    (between done (raw ++ rest) lines none).next =
      (some (Lexeme.token (Place.start.advance done) ⟨kind, raw⟩),
        between (done ++ raw) rest (.ofBytes done) none) := by
  have sought : seek ((done ++ (raw ++ rest)).drop done.length) = (0, some (kind, raw.length)) := by
    rw [List.drop_left]
    exact seek_of_match found
  have token := token_eq (s := between done (raw ++ rest) lines none) rfl within kind
  simp only [between] at token
  simp only [next, between, sought, Nat.add_zero, Nat.lt_irrefl, if_false, token,
    List.length_append, List.append_assoc]

theorem next_of_last (within : lines.Within (done ++ raw) done.length) (nonempty : raw ≠ [])
    (unmatched : lexemeAt raw = (.unknown, raw.length)) :
    (between done raw lines none).next =
      (some (Lexeme.token (Place.start.advance done) ⟨.unknown, raw⟩),
        between (done ++ raw) [] (.ofBytes done) none) := by
  have sought : seek ((done ++ raw).drop done.length) = (raw.length, none) := by
    rw [List.drop_left, seek_of_unknown unmatched, List.drop_length]
    rfl
  have some_left : done.length < done.length + raw.length := by
    have := List.length_pos_iff.2 nonempty
    omega
  have whole : done ++ raw = done ++ (raw ++ []) := by rw [List.append_nil]
  have token := token_eq (s := ⟨done ++ raw, done.length + raw.length, done.length, none, lines⟩)
    whole within .unknown
  simp only [next, between, sought, List.length_append, List.append_nil]
  rw [if_pos some_left]
  simp only [token, List.length_append]

/-- The token behind input that no rule matches is made with it and held back. -/
theorem next_of_unknown (within : lines.Within (done ++ (passed ++ (raw ++ rest))) done.length)
    (nonempty : passed ≠ [])
    (unmatched : lexemeAt (passed ++ (raw ++ rest)) = (.unknown, passed.length))
    (found : LexicalRule.first? (raw ++ rest) = some (kind, raw.length)) :
    (between done (passed ++ (raw ++ rest)) lines none).next =
      (some (Lexeme.token (Place.start.advance done) ⟨.unknown, passed⟩),
        between (done ++ passed ++ raw) rest (.ofBytes (done ++ passed))
          (some (Lexeme.token (Place.start.advance (done ++ passed)) ⟨kind, raw⟩))) := by
  have sought : seek ((done ++ (passed ++ (raw ++ rest))).drop done.length) =
      (passed.length, some (kind, raw.length)) := by
    rw [List.drop_left, seek_of_unknown unmatched, List.drop_left, found]
  have some_passed : done.length < done.length + passed.length := by
    have := List.length_pos_iff.2 nonempty
    omega
  have first := token_eq (s := between done (passed ++ (raw ++ rest)) lines none) rfl within
    .unknown
  -- When the second token is made, lines are counted up to the start of the first one.
  have whole : done ++ (passed ++ (raw ++ rest)) = done ++ passed ++ (raw ++ rest) :=
    (List.append_assoc done passed (raw ++ rest)).symm
  have counted : (LineCount.ofBytes done).Within (done ++ (passed ++ (raw ++ rest)))
      (done ++ passed).length := by
    rw [whole]
    exact LineCount.within_behind done passed (raw ++ rest)
  have second := token_eq (s := between done (passed ++ (raw ++ rest)) (.ofBytes done) none) whole
    counted kind
  simp only [between, List.length_append, Nat.add_assoc] at first second
  simp only [next, between, sought]
  rw [if_pos some_passed]
  simp only [first, second, List.append_assoc, List.length_append, Nat.add_assoc]

end Next

/-! ## The tokens still to come -/

/-- A scanner has some tokens to give: those of the text before it, after one that is held. -/
inductive Owes : Scanner → List Token → Prop where
  | free {done : Bytes} {lines : LineCount} {xs : List Lexeme}
      (within : lines.Within (done ++ Lexeme.text xs) done.length) (found : Lexeme.Found [] xs) :
      Owes (between done (Lexeme.text xs) lines none)
        (Lexeme.tokens (Place.start.advance done) xs)
  | holding {done : Bytes} {lines : LineCount} {xs : List Lexeme} (t : Token)
      (within : lines.Within (done ++ Lexeme.text xs) done.length) (found : Lexeme.Found [] xs) :
      Owes (between done (Lexeme.text xs) lines (some t))
        (t :: Lexeme.tokens (Place.start.advance done) xs)

theorem owes_of_found {xs : List Lexeme} (found : Lexeme.Found [] xs) :
    (ofSource (Lexeme.text xs)).Owes (Lexeme.tokens .start xs) := by
  have within : LineCount.start.Within ([] ++ Lexeme.text xs) 0 := ⟨0, Nat.le_refl 0, rfl⟩
  exact .free within found

theorem owes_behind (done raw : Bytes) {xs : List Lexeme} (found : Lexeme.Found [] xs) :
    (between (done ++ raw) (Lexeme.text xs) (.ofBytes done) none).Owes
      (Lexeme.tokens ((Place.start.advance done).advance raw) xs) := by
  rw [← Place.advance_append]
  exact .free (LineCount.within_behind done raw _) found

theorem owes_held (done : Bytes) (x : Lexeme) {xs : List Lexeme} (found : Lexeme.Found [] xs) :
    (between (done ++ x.raw) (Lexeme.text xs) (.ofBytes done)
      (some (x.token (Place.start.advance done)))).Owes
        (Lexeme.tokens (Place.start.advance done) (x :: xs)) := by
  rw [Lexeme.tokens, ← Place.advance_append]
  exact .holding _ (LineCount.within_behind done x.raw _) found

namespace Owes

/-- Input that no rule matches comes with the token behind it, if there is one. -/
theorem next_of_unknown_lexeme {done : Bytes} {lines : LineCount} {x : Lexeme} {xs : List Lexeme}
    (within : lines.Within (done ++ Lexeme.text (x :: xs)) done.length)
    (found : Lexeme.Found [] (x :: xs)) (unknown : x.kind = .unknown) :
    let s := between done (Lexeme.text (x :: xs)) lines none
    s.next.1 = some (x.token (Place.start.advance done)) ∧
      s.next.2.Owes (Lexeme.tokens ((Place.start.advance done).advance x.raw) xs) := by
  have alone := found.unknown_alone
  rcases found with ⟨nonempty, first, behind⟩
  rcases x with ⟨kind, raw⟩
  cases unknown
  cases xs with
  | nil =>
      have unmatched : lexemeAt raw = (.unknown, raw.length) := by
        simpa using first
      rw [Lexeme.text_cons, Lexeme.text_nil, List.append_nil] at within ⊢
      dsimp only
      rw [next_of_last within nonempty unmatched]
      exact ⟨rfl, owes_behind done raw behind⟩
  | cons y ys =>
      rcases behind with ⟨-, second, behind⟩
      have known : y.kind ≠ .unknown := (List.isChain_cons_cons.1 alone).1 rfl
      rw [List.append_nil] at first second
      rw [Lexeme.text_cons, Lexeme.text_cons] at within ⊢
      dsimp only
      rw [next_of_unknown within nonempty first (first?_of_lexemeAt second known)]
      refine ⟨rfl, ?_⟩
      rw [← Place.advance_append]
      exact owes_held (done ++ raw) y behind

variable {s : Scanner} {ts : List Token}

theorem next (h : s.Owes ts) : s.next.1 = ts.head? ∧ s.next.2.Owes ts.tail := by
  cases h with
  | holding t within found => exact ⟨rfl, .free within found⟩
  | @free done lines xs within found =>
      cases xs with
      | nil =>
          rw [Lexeme.text_nil, next_at_end]
          exact ⟨rfl, .free within found⟩
      | cons x xs =>
          -- Only input that no rule matches makes the scanner look further than one lexeme.
          by_cases unknown : x.kind = .unknown
          · exact next_of_unknown_lexeme within found unknown
          · rcases found with ⟨-, first, behind⟩
            rw [List.append_nil] at first
            rw [Lexeme.text_cons] at within ⊢
            rw [next_of_match within (first?_of_lexemeAt first unknown)]
            exact ⟨rfl, owes_behind done x.raw behind⟩

theorem takeFrom (h : s.Owes ts) (done : List Token) (n : Nat) :
    (takeFrom done n s).1 = done.reverse ++ ts.take n ∧ (takeFrom done n s).2.Owes (ts.drop n) := by
  induction n generalizing s ts done with
  | zero => exact ⟨(List.append_nil _).symm, h⟩
  | succ n ih =>
      rcases h.next with ⟨given, left⟩
      rcases asked : s.next with ⟨answer, after⟩
      rw [asked] at given left
      rw [Scanner.takeFrom, asked]
      cases ts with
      | nil =>
          cases given
          exact ⟨(List.append_nil _).symm, left⟩
      | cons t ts =>
          cases given
          rcases ih left (t :: done) with ⟨tokens, rest⟩
          rw [List.reverse_cons, List.append_assoc] at tokens
          exact ⟨tokens, rest⟩

theorem take (h : s.Owes ts) (n : Nat) : (s.take n).1 = ts.take n ∧ (s.take n).2.Owes (ts.drop n) :=
  h.takeFrom [] n

theorem next_eq_none_iff (h : s.Owes ts) : s.next.1 = none ↔ ts = [] := by
  rw [h.next.1, List.head?_eq_none_iff]

end Owes

end Scanner

/-! ## The tokens of a text -/

theorem tokenize_of_found {xs : List Lexeme} (found : Lexeme.Found [] xs) :
    tokenize (Lexeme.text xs) = Lexeme.tokens .start xs := by
  rw [tokenize, ((Scanner.owes_of_found found).take _).1]
  apply List.take_of_length_le
  rw [Lexeme.length_tokens]
  exact found.length_le

theorem Scanner.owes_ofSource (source : Bytes) : (ofSource source).Owes (tokenize source) := by
  rcases Lexeme.exists_found source with ⟨xs, rfl, found⟩
  rw [tokenize_of_found found]
  exact owes_of_found found

end WordMachine
