import WordMachine.Proofs.Source.Scanning

/-!
# The tokens of a source text

The rules determine how a source text is cut: its tokens follow each other without gaps, a token
that a rule makes is the match of the first rule at its start, and one that no rule makes goes on up
to the next place where a rule matches.  A scanner that is asked again and again gives this one list
of tokens and then ends.
-/

namespace WordMachine

/-! ## Segmentations -/

/-- What the rules decide about a token, and where it stands. -/
def Token.span (t : Token) : Token.Kind × Bytes × Int × Int :=
  (t.kind, t.raw, t.start, t.stop)

/-- The spans of tokens follow each other from one offset to another. -/
def Contiguous : Int → Int → List Token → Prop
  | i, j, [] => i = j
  | i, j, t :: ts => t.start = i ∧ Contiguous t.stop j ts

/-- A token is cut from a source text as the rules say. -/
structure Token.CutFrom (source : Bytes) (t : Token) : Prop where
  nonempty : t.start < t.stop
  raw_eq : t.raw = (source.drop t.start.toNat).take (t.stop - t.start).toNat
  begins : Begins (source.drop t.start.toNat) t.kind t.raw.length

/-- Tokens that cover a source text and are all cut from it as the rules say. -/
structure Segmentation (source : Bytes) (ts : List Token) : Prop where
  contiguous : Contiguous 0 source.length ts
  cut : ∀ t ∈ ts, t.CutFrom source

theorem Contiguous.le {source : Bytes} {i j : Int} {ts : List Token} (h : Contiguous i j ts)
    (cut : ∀ t ∈ ts, t.CutFrom source) : i ≤ j := by
  induction ts generalizing i with
  | nil => exact Int.le_of_eq h
  | cons t ts ih =>
      have rest := ih h.2 fun u member => cut u (.tail _ member)
      have first := (cut t List.mem_cons_self).nonempty
      have start := h.1
      omega

namespace Token.CutFrom

variable {source : Bytes} {t : Token} (h : t.CutFrom source) {i k : Nat} (start : t.start = i)
  (stop : t.stop = k)

include h start stop

theorem raw_append : t.raw ++ source.drop k = source.drop i := by
  have nonempty := h.nonempty
  have after : source.drop k = (source.drop i).drop (k - i) := by
    rw [List.drop_drop, show i + (k - i) = k by omega]
  rw [h.raw_eq, start, stop, after, Int.toNat_natCast, show (k - i : Int).toNat = k - i by omega,
    List.take_append_drop]

theorem length_raw (bound : k ≤ source.length) : t.raw.length = k - i := by
  rw [h.raw_eq, start, stop, List.length_take, Int.toNat_natCast, List.length_drop]
  omega

theorem lexemeAt_eq (bound : k ≤ source.length) :
    lexemeAt (source.drop i) = (t.kind, t.raw.length) := by
  have nonempty := h.nonempty
  have length := h.length_raw start stop bound
  have begins := h.begins
  rw [start] at begins
  apply lexemeAt_of_begins (by omega) _ begins
  rw [length, List.length_drop]
  omega

end Token.CutFrom

theorem Contiguous.found {source : Bytes} {ts : List Token} {i : Nat}
    (h : Contiguous i source.length ts) (cut : ∀ t ∈ ts, t.CutFrom source) (place : Place)
    (offset : place.offset = i) :
    Lexeme.text (ts.map Token.lexeme) = source.drop i ∧ Lexeme.Found [] (ts.map Token.lexeme) ∧
      (Lexeme.tokens place (ts.map Token.lexeme)).map Token.span = ts.map Token.span := by
  induction ts generalizing i place with
  | nil =>
      have whole : i = source.length := Int.ofNat_inj.1 h
      refine ⟨?_, trivial, rfl⟩
      rw [whole, List.drop_length]
      rfl
  | cons t ts ih =>
      obtain ⟨start, rest⟩ := h
      have first := cut t List.mem_cons_self
      have others : ∀ u ∈ ts, u.CutFrom source := fun u member => cut u (.tail _ member)
      have nonempty := first.nonempty
      have bound := rest.le others
      obtain ⟨k, stop⟩ := Int.eq_ofNat_of_zero_le (show 0 ≤ t.stop by omega)
      have inside : k ≤ source.length := by omega
      have length := first.length_raw start stop inside
      have next : (place.advance t.raw).offset = k := by
        rw [Place.offset_advance, offset, length]
        omega
      rw [stop] at rest
      obtain ⟨text, found, spans⟩ := ih rest others (place.advance t.raw) next
      have whole : t.raw ++ Lexeme.text (ts.map Token.lexeme) = source.drop i := by
        rw [text, first.raw_append start stop]
      have span : Token.span (t.lexeme.token place) = t.span := by
        show (t.kind, t.raw, (place.offset : Int), (place.offset + t.raw.length : Int)) =
          (t.kind, t.raw, t.start, t.stop)
        rw [offset, start, stop, length, show (i + (k - i : Nat) : Int) = k by omega]
      refine ⟨whole, ⟨List.ne_nil_of_length_pos (show 0 < t.raw.length by omega), ?_, found⟩, ?_⟩
      · show lexemeAt (t.raw ++ (Lexeme.text (ts.map Token.lexeme) ++ [])) = _
        rw [List.append_nil, whole]
        exact first.lexemeAt_eq start stop inside
      · rw [List.map_cons, Lexeme.tokens, List.map_cons, List.map_cons, span]
        exact congrArg (t.span :: ·) spans

theorem Lexeme.Found.segmentation {before source : Bytes} {xs : List Lexeme} (found : Found [] xs)
    (whole : before ++ text xs = source) (place : Place) (offset : place.offset = before.length) :
    Contiguous before.length source.length (tokens place xs) ∧
      ∀ t ∈ tokens place xs, t.CutFrom source := by
  induction xs generalizing before place with
  | nil =>
      rw [text_nil, List.append_nil] at whole
      subst whole
      exact ⟨rfl, fun t member => nomatch member⟩
  | cons x xs ih =>
      have pos : 0 < x.raw.length := List.length_pos_iff.2 found.1
      have begins := found.begins
      rw [text_cons, ← List.append_assoc] at whole
      have next : (place.advance x.raw).offset = (before ++ x.raw).length := by
        rw [Place.offset_advance, offset, List.length_append]
      obtain ⟨contiguous, cut⟩ := ih found.2.2 whole (place.advance x.raw) next
      have first : source.drop before.length = x.raw ++ (text xs ++ []) := by
        rw [← whole, List.append_assoc, List.drop_left, List.append_nil]
      have start : (x.token place).start = before.length := congrArg Nat.cast offset
      have stop : (x.token place).stop = (before ++ x.raw).length := by
        show (place.offset + x.raw.length : Int) = _
        rw [offset, List.length_append, Int.natCast_add]
      refine ⟨⟨start, ?_⟩, List.forall_mem_cons.2 ⟨⟨?_, ?_, ?_⟩, cut⟩⟩
      · rw [stop]
        exact contiguous
      · rw [start, stop, List.length_append]
        omega
      · have width : ((before ++ x.raw).length - before.length : Int).toNat = x.raw.length := by
          rw [List.length_append]
          omega
        rw [start, stop, width, Int.toNat_natCast, first, List.take_left]
        rfl
      · rw [start, Int.toNat_natCast, first]
        exact begins

namespace Scanner

/-- Asked again and again, a scanner gives some tokens and then ends. -/
inductive Yields : Scanner → List Token → Prop where
  | done {s after : Scanner} (last : s.next = (none, after)) : Yields s []
  | next {s after : Scanner} {t : Token} {ts : List Token} (first : s.next = (some t, after))
      (rest : Yields after ts) : Yields s (t :: ts)

theorem Owes.yields {s : Scanner} {ts : List Token} (h : s.Owes ts) : s.Yields ts := by
  induction ts generalizing s with
  | nil => exact .done (Prod.ext h.next.1 rfl)
  | cons t ts ih => exact .next (Prod.ext h.next.1 rfl) (ih h.next.2)

end Scanner

/-- A scanner that is asked for one token after another cuts each source text in the one way that
the rules allow, and then ends.  Input that no rule matches is kept together and has none of the
bytes that make a rule match. -/
theorem tokenize_unique_segmentation (source : Bytes) :
    (Scanner.ofSource source).Yields (tokenize source) ∧
      Segmentation source (tokenize source) ∧
      (tokenize source).flatMap Token.raw = source ∧
      (∀ ts, Segmentation source ts → ts.map Token.span = (tokenize source).map Token.span) ∧
      ((tokenize source).IsChain fun t u => t.kind = .unknown → u.kind ≠ .unknown) ∧
      ∀ t ∈ tokenize source, t.kind = .unknown → ∀ b ∈ t.raw,
        b ∉ [Ascii.lineFeed, Ascii.space, Ascii.tab, Ascii.semicolon, Ascii.bracketOpen,
          Ascii.bracketClose] ∧ Ascii.isWord b = false := by
  obtain ⟨xs, rfl, found⟩ := Lexeme.exists_found source
  have lexemes := Lexeme.map_lexeme_tokens .start xs
  have raws : (Lexeme.tokens .start xs).flatMap Token.raw = Lexeme.text xs := calc
    _ = Lexeme.text ((Lexeme.tokens .start xs).map Token.lexeme) := (List.flatMap_map _ _ _).symm
    _ = Lexeme.text xs := by rw [lexemes]
  rw [tokenize_of_found found]
  refine ⟨(Scanner.owes_of_found found).yields, ?_, raws, ?_, ?_, ?_⟩
  · obtain ⟨contiguous, cut⟩ := found.segmentation (List.nil_append _) .start rfl
    exact ⟨contiguous, cut⟩
  · intro ts h
    obtain ⟨text, other, spans⟩ := h.contiguous.found (i := 0) h.cut .start rfl
    rw [← tokenize_of_found found, ← spans, ← tokenize_of_found other, text, List.drop_zero]
  · have alone := found.unknown_alone
    rw [← lexemes, List.isChain_map] at alone
    exact alone
  · intro t member unknown b inside
    have lexeme : t.lexeme ∈ xs := lexemes ▸ List.mem_map_of_mem member
    obtain ⟨after, none⟩ := found.byte_of_unknown lexeme unknown inside
    exact byte_of_unmatched none

end WordMachine
