import WordMachine.Proofs.Source.Writing

/-!
# Lines stand on their own

No rule looks beyond a line end, so a text is cut line by line: what stands before a line end has
the tokens it has alone, and what stands after has the tokens it has alone, further down.  Lines are
then read part by part as well.  A carriage return belongs to the line feed behind it, so what
stands before a line feed may not end in one.
-/

namespace WordMachine

open Results

/-! ## Rules at a line end -/

/-- A text that is over, or that begins with a line end. -/
inductive LineEnd : Bytes → Prop
  | nothing : LineEnd []
  | feed (rest : Bytes) : LineEnd (Ascii.lineFeed :: rest)
  | carriage (rest : Bytes) : LineEnd (Ascii.carriageReturn :: Ascii.lineFeed :: rest)

theorem LineEnd.stops {p : UInt8 → Bool} {rest : Bytes} (h : LineEnd rest)
    (feed : p Ascii.lineFeed = false) (carriage : p Ascii.carriageReturn = false) :
    Stops p rest := by
  cases h with
  | nothing => trivial
  | feed rest => exact feed
  | carriage rest => exact carriage

theorem takeWhile_append_stops {p : UInt8 → Bool} (line : Bytes) {rest : Bytes}
    (stops : Stops p rest) : (line ++ rest).takeWhile p = line.takeWhile p := by
  induction line with
  | nil => exact takeWhile_append_of_stops (List.forall_mem_nil _) stops
  | cons b line ih => rw [List.cons_append, List.takeWhile_cons, List.takeWhile_cons, ih]

namespace LexicalRule

variable {line rest : Bytes}

theorem runLength_append_stops {p : UInt8 → Bool} (line : Bytes) (stops : Stops p rest) :
    runLength p (line ++ rest) = runLength p line := by
  rw [runLength, runLength, takeWhile_append_stops line stops]

theorem newlineLength_append (nonempty : line ≠ [])
    (last : line.getLast? ≠ some Ascii.carriageReturn) (rest : Bytes) :
    newlineLength (line ++ rest) = newlineLength line := by
  cases line with
  | nil => exact absurd rfl nonempty
  | cons b line =>
      by_cases feed : b = Ascii.lineFeed
      · subst feed
        rfl
      · by_cases carriage : b = Ascii.carriageReturn
        · subst carriage
          cases line with
          | nil => exact absurd rfl last
          | cons c line =>
              by_cases next : c = Ascii.lineFeed
              · subst next
                rfl
              · have unmatched (s : Bytes) :
                    newlineLength (Ascii.carriageReturn :: c :: s) = 0 := by
                  unfold newlineLength
                  split <;> simp_all
                rw [unmatched line]
                exact unmatched (line ++ rest)
        · rw [newlineLength_of_ne feed carriage]
          exact newlineLength_of_ne feed carriage

theorem commentLength_append (nonempty : line ≠ []) (stops : Stops (· != Ascii.lineFeed) rest) :
    commentLength (line ++ rest) = commentLength line := by
  cases line with
  | nil => exact absurd rfl nonempty
  | cons b line =>
      by_cases semicolon : b = Ascii.semicolon
      · subst semicolon
        exact congrArg (· + 1) (runLength_append_stops line stops)
      · rw [commentLength_of_ne semicolon]
        exact commentLength_of_ne semicolon

theorem labelLength_append (text : Bytes) (stops : Stops isWordOrColon rest) :
    labelLength (text ++ rest) = labelLength text := by
  have length := runLength_append_stops text stops.isWord
  have inside : runLength Ascii.isWord text ≤ text.length :=
    (List.takeWhile_prefix Ascii.isWord).length_le
  have colon : (text ++ rest)[runLength Ascii.isWord text]? = some Ascii.colon ↔
      text[runLength Ascii.isWord text]? = some Ascii.colon := by
    by_cases whole : runLength Ascii.isWord text = text.length
    · -- The word reaches up to what follows, which begins with no colon.
      rw [whole, List.getElem?_append_right (Nat.le_refl _), Nat.sub_self,
        List.getElem?_eq_none (Nat.le_refl text.length)]
      cases rest with
      | nil => rfl
      | cons b rest =>
          have outside : isWordOrColon b = false := stops
          have differs : b ≠ Ascii.colon := by
            intro same
            rw [same] at outside
            cases outside
          simp [differs]
    · rw [List.getElem?_append_left (by omega)]
  simp only [labelLength, length, colon]

theorem sigilLength_append_stops {p : UInt8 → Bool} (sigil : UInt8) (nonempty : line ≠ [])
    (stops : Stops p rest) : sigilLength sigil p (line ++ rest) = sigilLength sigil p line := by
  cases line with
  | nil => exact absurd rfl nonempty
  | cons b line =>
      rw [List.cons_append, sigilLength, sigilLength, runLength_append_stops line stops]

theorem registerLength_append (line : Bytes) (stops : Stops Ascii.isWord rest) :
    registerLength (line ++ rest) = registerLength line := by
  rw [registerLength, registerLength, takeWhile_append_stops line stops]

theorem byteLength_append (b : UInt8) (nonempty : line ≠ []) (rest : Bytes) :
    byteLength b (line ++ rest) = byteLength b line := by
  cases line with
  | nil => exact absurd rfl nonempty
  | cons c line => rfl

theorem firstOf_congr {rules : List LexicalRule} {s t : Bytes}
    (same : ∀ rule ∈ rules, rule.matchLength s = rule.matchLength t) :
    firstOf rules s = firstOf rules t := by
  induction rules with
  | nil => rfl
  | cons rule rules ih =>
      rw [firstOf, firstOf, same rule List.mem_cons_self,
        ih fun other member => same other (.tail rule member)]

/-- The first match before a line end is the match in the line alone, provided that a comment, which
takes a carriage return with it, is the same. -/
theorem first?_append_lineEnd (nonempty : line ≠ [])
    (last : line.getLast? ≠ some Ascii.carriageReturn) (ending : LineEnd rest)
    (comment : commentLength (line ++ rest) = commentLength line) :
    first? (line ++ rest) = first? line := by
  have word : Stops Ascii.isWord rest := ending.stops rfl rfl
  have digit : Stops Ascii.isDigit rest := ending.stops rfl rfl
  apply firstOf_congr
  simp only [all, List.forall_mem_cons]
  exact ⟨newlineLength_append nonempty last rest,
    runLength_append_stops line (ending.stops rfl rfl), comment,
    labelLength_append line (ending.stops rfl rfl), sigilLength_append_stops _ nonempty word,
    sigilLength_append_stops _ nonempty word, sigilLength_append_stops _ nonempty digit,
    runLength_append_stops line digit, registerLength_append line word,
    runLength_append_stops line word, byteLength_append _ nonempty rest,
    byteLength_append _ nonempty rest, List.forall_mem_nil _⟩

theorem first?_semicolon (s : Bytes) :
    first? (Ascii.semicolon :: s) = some (.comment, runLength (· != Ascii.lineFeed) s + 1) := by
  rw [first?, all, firstOf_cons_of_zero rfl, firstOf_cons_of_zero rfl]
  exact firstOf_cons_of_pos rfl (Nat.succ_pos _)

end LexicalRule

/-! ## Lexemes at a line end -/

theorem getLast?_of_append (before : Bytes) {s : Bytes} {b : UInt8}
    (h : (before ++ s).getLast? ≠ some b) : s.getLast? ≠ some b := by
  intro last
  rw [List.getLast?_append, last] at h
  exact h rfl

theorem unmatchedLength_lineEnd {rest : Bytes} (ending : LineEnd rest) :
    unmatchedLength rest = 0 := by
  cases ending with
  | nothing => rfl
  | feed rest =>
      exact unmatchedLength_of_match (first?_of_lexemeAt (lexemeAt_newline rest) (by decide))
  | carriage rest =>
      exact unmatchedLength_of_match (first?_of_lexemeAt (lexemeAt_carriage rest) (by decide))

theorem unmatchedLength_append_lineEnd {line rest : Bytes}
    (last : line.getLast? ≠ some Ascii.carriageReturn) (ending : LineEnd rest) :
    unmatchedLength (line ++ rest) = unmatchedLength line := by
  induction line with
  | nil => exact unmatchedLength_lineEnd ending
  | cons b line ih =>
      by_cases semicolon : b = Ascii.semicolon
      · subst semicolon
        rw [List.cons_append, unmatchedLength_of_match (LexicalRule.first?_semicolon _),
          unmatchedLength_of_match (LexicalRule.first?_semicolon _)]
      · have same : LexicalRule.first? (b :: line ++ rest) = LexicalRule.first? (b :: line) := by
          apply LexicalRule.first?_append_lineEnd (List.cons_ne_nil b line) last ending
          rw [LexicalRule.commentLength_of_ne semicolon]
          exact LexicalRule.commentLength_of_ne semicolon
        rw [List.cons_append] at same ⊢
        cases found : LexicalRule.first? (b :: line) with
        | some lexeme =>
            rw [unmatchedLength_of_match (same.trans found), unmatchedLength_of_match found]
        | none =>
            rw [unmatchedLength_cons_of_none (same.trans found), unmatchedLength_cons_of_none found,
              ih (getLast?_of_append [b] last)]

theorem lexemeAt_append_lineEnd {line rest : Bytes} (nonempty : line ≠ [])
    (last : line.getLast? ≠ some Ascii.carriageReturn) (ending : LineEnd rest)
    (comment : LexicalRule.commentLength (line ++ rest) = LexicalRule.commentLength line) :
    lexemeAt (line ++ rest) = lexemeAt line := by
  rw [lexemeAt, lexemeAt, LexicalRule.first?_append_lineEnd nonempty last ending comment,
    unmatchedLength_append_lineEnd last ending]

namespace Lexeme

/-- The lexemes of a text are found as well before a line feed. -/
theorem Found.before_feed {xs : List Lexeme} (found : Found [] xs)
    (last : (text xs).getLast? ≠ some Ascii.carriageReturn) (rest : Bytes) :
    Found (Ascii.lineFeed :: rest) xs := by
  induction xs with
  | nil => trivial
  | cons x xs ih =>
      rcases found with ⟨nonempty, first, others⟩
      have some_left : x.raw ++ text xs ≠ [] := by simp [nonempty]
      have comment := LexicalRule.commentLength_append some_left
        (show Stops (· != Ascii.lineFeed) (Ascii.lineFeed :: rest) from rfl)
      refine ⟨nonempty, ?_, ih others (getLast?_of_append x.raw last)⟩
      rw [← List.append_assoc, lexemeAt_append_lineEnd some_left last (.feed rest) comment]
      rw [List.append_nil] at first
      exact first

theorem Found.append_feed {xs ys : List Lexeme} (before : Found [] xs)
    (last : (text xs).getLast? ≠ some Ascii.carriageReturn) (after : Found [] ys) :
    Found [] (xs ++ newline :: ys) := by
  have feed : Found [] (newline :: ys) := ⟨List.cons_ne_nil _ _, lexemeAt_newline _, after⟩
  apply Found.append _ feed
  rw [List.append_nil]
  exact before.before_feed last (text ys)

theorem tokens_append (place : Place) (xs ys : List Lexeme) :
    tokens place (xs ++ ys) = tokens place xs ++ tokens (place.advance (text xs)) ys := by
  induction xs generalizing place with
  | nil => rfl
  | cons x xs ih =>
      rw [List.cons_append, tokens, tokens, ih, text_cons, Place.advance_append, List.cons_append]

end Lexeme

/-! ## Further down in a text -/

/-- The place that is some bytes and lines further down. -/
def Place.shift (bytes lines : Nat) (p : Place) : Place :=
  ⟨p.offset + bytes, p.line + lines, p.column⟩

theorem Place.after_shift (bytes lines : Nat) (p : Place) (b : UInt8) :
    (p.shift bytes lines).after b = (p.after b).shift bytes lines := by
  unfold Place.after Place.shift
  split
  · simp only [Place.mk.injEq, and_true]
    omega
  · simp only [Place.mk.injEq, and_true]
    omega

theorem Place.advance_shift (bytes lines : Nat) (p : Place) (s : Bytes) :
    (p.shift bytes lines).advance s = (p.advance s).shift bytes lines := by
  induction s generalizing p with
  | nil => rfl
  | cons b s ih =>
      calc
        _ = ((p.shift bytes lines).after b).advance s := rfl
        _ = ((p.after b).advance s).shift bytes lines := by rw [after_shift, ih]

theorem Place.advance_feed (s : Bytes) :
    (start.advance s).advance [Ascii.lineFeed] =
      start.shift (s.length + 1) (s.count Ascii.lineFeed + 1) := by
  have ends := ends_advance_start s
  have offset := ends.offset
  have line := ends.line
  show (start.advance s).after Ascii.lineFeed = _
  simp only [Place.after, if_true, Place.shift, start, Place.mk.injEq, and_true] at offset line ⊢
  omega

/-- The restyling that puts tokens some bytes and lines further down. -/
def Restyling.shift (bytes lines : Nat) : Restyling where
  token t :=
    { t with
      start := t.start + bytes
      stop := t.stop + bytes
      position := ⟨t.position.line + lines, t.position.column⟩ }
  position p := ⟨p.line + lines, p.column⟩
  kind_token _ := rfl
  text_token _ := rfl
  position_token _ := rfl

theorem Lexeme.tokens_shift (bytes lines : Nat) (place : Place) (xs : List Lexeme) :
    tokens (place.shift bytes lines) xs =
      (tokens place xs).map (Restyling.shift bytes lines).token := by
  induction xs generalizing place with
  | nil => rfl
  | cons x xs ih =>
      have first : x.token (place.shift bytes lines) =
          (Restyling.shift bytes lines).token (x.token place) := by
        simp only [Lexeme.token, Restyling.shift, Place.shift, Place.position, Token.mk.injEq,
          Position.mk.injEq, true_and, and_true]
        omega
      rw [tokens, tokens, List.map_cons, first, Place.advance_shift, ih]

theorem tokenize_append_feed {before : Bytes} (after : Bytes)
    (last : before.getLast? ≠ some Ascii.carriageReturn) :
    tokenize (before ++ Ascii.lineFeed :: after) =
      tokenize before ++ Lexeme.newline.token (Place.start.advance before) ::
        (tokenize after).map
          (Restyling.shift (before.length + 1) (before.count Ascii.lineFeed + 1)).token := by
  rcases Lexeme.exists_found before with ⟨xs, rfl, found⟩
  rcases Lexeme.exists_found after with ⟨ys, rfl, found_after⟩
  have whole := tokenize_of_found (found.append_feed last found_after)
  have place := Place.advance_feed (Lexeme.text xs)
  rw [Lexeme.text_append, Lexeme.tokens_append, Lexeme.tokens] at whole
  rw [tokenize_of_found found, tokenize_of_found found_after, ← Lexeme.tokens_shift, ← place]
  exact whole

/-! ## Reading part by part -/

namespace Line

theorem rows_append_feed {feed : Token} (before after : List Token) (feeds : feed.kind = .newline) :
    rows (before ++ feed :: after) = rows before ++ rows after := by
  have kept : (feed :: after).filter (!·.isLayout) = feed :: after.filter (!·.isLayout) :=
    List.filter_cons_of_pos (by simp [Token.isLayout, feeds])
  rw [rows, List.filter_append, kept]
  exact List.splitOnP_append_cons _ _ (by simp [feeds])

theorem parse_append_feed (d : Dialect) {feed : Token} (before after : List Token)
    (feeds : feed.kind = .newline) :
    parse d (before ++ feed :: after) =
      parse d before >>= fun lines => (parse d after).map (lines ++ ·) := by
  rw [parse, parse, parse, rows_append_feed before after feeds, List.mapM_append]
  cases (rows before).mapM (readRow d) with
  | error e => rfl
  | ok parts =>
      cases (rows after).mapM (readRow d) with
      | error e => rfl
      | ok others => exact congrArg Except.ok List.flatten_append

end Line

/-- Lexing is line-local.  A text that does not end in a carriage return, a line feed and another
text have the tokens of the first, the token of the line feed, and the tokens of the second further
down.  So their lines are those of the first and then those of the second further down, an error of
the first is the error of the whole, and an error of the second alone is one further down. -/
theorem lexing_is_line_local (before after : Bytes)
    (last : before.getLast? ≠ some Ascii.carriageReturn) :
    let down := Restyling.shift (before.length + 1) (before.count Ascii.lineFeed + 1)
    let whole := tokenize (before ++ Ascii.lineFeed :: after)
    whole = tokenize before ++ Lexeme.newline.token (Place.start.advance before) ::
      (tokenize after).map down.token ∧
    ∀ d,
      (∀ lines others, Line.parse d (tokenize before) = .ok lines →
        Line.parse d (tokenize after) = .ok others →
        Line.parse d whole = .ok (lines ++ others.map down.line)) ∧
      (∀ e, Line.parse d (tokenize before) = .error e → Line.parse d whole = .error e) ∧
      ∀ lines e, Line.parse d (tokenize before) = .ok lines →
        Line.parse d (tokenize after) = .error e →
        ∃ cause, Line.parse d whole = .error ⟨down.position e.position, cause⟩ ∧
          cause.category = e.category := by
  intro down whole
  have tokens : whole = _ := tokenize_append_feed after last
  refine ⟨tokens, ?_⟩
  intro d
  have agrees := down.parse_agrees d (tokenize after)
  rw [tokens, Line.parse_append_feed d _ _ rfl]
  refine ⟨?_, ?_, ?_⟩
  · intro lines others first second
    rcases agrees.exists_ok second with ⟨_, moved, rfl⟩
    rw [first, bind_ok, moved]
    rfl
  · intro e failed
    rw [failed, bind_error]
  · intro lines e first failed
    rcases agrees.exists_error Tolerance.exact_movedBy failed with ⟨moved, refused, place, same⟩
    refine ⟨moved.cause, ?_, same⟩
    rw [first, bind_ok, refused, ← place]
    rfl

def commentedLine : Bytes := Bytes.ofString "loop: inc r1 ; up"

def closedLine : Bytes := Bytes.ofString "jmp :loop\r\n"

/-- A mnemonic and the first byte of a character of three. -/
def truncatedLine : Bytes := Bytes.ofString "nop" ++ [0xe4]

theorem comment_and_truncated_character_end_with_line :
    commentedLine.getLast? ≠ some Ascii.carriageReturn ∧
      (∃ lines others, Line.parse .standard (tokenize commentedLine) = .ok lines ∧
        Line.parse .standard (tokenize closedLine) = .ok others ∧
        Line.parse .standard (tokenize (commentedLine ++ Ascii.lineFeed :: closedLine)) =
          .ok (lines ++ others.map (Restyling.shift 18 1).line)) ∧
      truncatedLine.getLast? ≠ some Ascii.carriageReturn ∧
      ∃ e, Line.parse .standard (tokenize truncatedLine) = .error e ∧
        Line.parse .standard (tokenize (truncatedLine ++ Ascii.lineFeed :: closedLine)) =
          .error e := by
  have last : commentedLine.getLast? ≠ some Ascii.carriageReturn := by decide
  have cut : truncatedLine.getLast? ≠ some Ascii.carriageReturn := by decide
  have first : (Line.parse .standard (tokenize commentedLine)).isOk = true := by decide +kernel
  have second : (Line.parse .standard (tokenize closedLine)).isOk = true := by decide +kernel
  have third : (Line.parse .standard (tokenize truncatedLine)).isOk = false := by decide +kernel
  refine ⟨last, ?_, cut, ?_⟩
  · rcases isOk_iff.1 first with ⟨lines, read⟩
    rcases isOk_iff.1 second with ⟨others, read_others⟩
    have both := ((lexing_is_line_local commentedLine closedLine last).2 .standard).1
    exact ⟨lines, others, read, read_others, both lines others read read_others⟩
  · cases failed : Line.parse .standard (tokenize truncatedLine) with
    | ok lines =>
        rw [failed] at third
        cases third
    | error e =>
        exact ⟨e, rfl,
          ((lexing_is_line_local truncatedLine closedLine cut).2 .standard).2.1 e failed⟩

end WordMachine
