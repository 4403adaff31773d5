import WordMachine.Proofs.Source.Scanning

/-!
# Pulling tokens

A scanner gives the tokens of its text in order, each of them once, however they are asked for: one
at a time, or in ranges that are left early.  A token that is held back is given by the request that
follows, and after the last token nothing comes any more.
-/

namespace WordMachine

namespace Scanner

/-! ## Any pattern of requests -/

/-- What is asked of a scanner: one token, or a range that is left at its `n`-th token. -/
inductive Request where
  | next
  | range (n : Nat)

/-- How many tokens a request takes where there are enough. -/
def Request.count : Request → Nat
  | .next => 1
  | .range n => n

def Request.total : List Request → Nat
  | [] => 0
  | r :: rs => r.count + total rs

def serve (s : Scanner) : Request → List Token × Scanner
  | .next => (s.next.1.toList, s.next.2)
  | .range n => s.take n

def serveAll (s : Scanner) : List Request → List (List Token) × Scanner
  | [] => ([], s)
  | r :: rs => ((s.serve r).1 :: ((s.serve r).2.serveAll rs).1, ((s.serve r).2.serveAll rs).2)

theorem Owes.serve {s : Scanner} {ts : List Token} (h : s.Owes ts) (r : Request) :
    (s.serve r).1 = ts.take r.count ∧ (s.serve r).2.Owes (ts.drop r.count) := by
  cases r with
  | range n => exact h.take n
  | next =>
      rcases h.next with ⟨given, left⟩
      rw [← List.drop_one] at left
      refine ⟨?_, left⟩
      rw [Scanner.serve, given]
      cases ts <;> rfl

/-- Whatever is asked, the tokens come in order, each of them once. -/
theorem Owes.serveAll {s : Scanner} {ts : List Token} (h : s.Owes ts) (requests : List Request) :
    (s.serveAll requests).1.flatten = ts.take (Request.total requests) ∧
      (s.serveAll requests).2.Owes (ts.drop (Request.total requests)) := by
  induction requests generalizing s ts with
  | nil => exact ⟨rfl, h⟩
  | cons r rs ih =>
      rcases h.serve r with ⟨given, left⟩
      rcases ih left with ⟨others, rest⟩
      rw [List.drop_drop] at rest
      rw [Scanner.serveAll, List.flatten_cons, Request.total, given, others, ← List.take_add]
      exact ⟨rfl, rest⟩

end Scanner

/-! ## Where tokens stand -/

theorem Lexeme.exists_of_mem_tokens {before : Bytes} {xs : List Lexeme} {t : Token}
    (h : t ∈ tokens (Place.start.advance before) xs) :
    ∃ (x : Lexeme) (read rest : Bytes),
      before ++ text xs = read ++ rest ∧ t = x.token (Place.start.advance read) := by
  induction xs generalizing before with
  | nil => cases h
  | cons x xs ih =>
      rw [tokens, List.mem_cons] at h
      cases h with
      | inl first => exact ⟨x, before, text (x :: xs), rfl, first⟩
      | inr later =>
          rw [← Place.advance_append] at later
          rcases ih later with ⟨y, read, rest, whole, token⟩
          rw [List.append_assoc] at whole
          exact ⟨y, read, rest, whole, token⟩

/-- The line of a token is one more than the line feeds before it, and its column counts from the
last of them. -/
theorem position_of_mem_tokenize {source : Bytes} {t : Token} (h : t ∈ tokenize source) :
    ∃ n k : Nat, t.start = n ∧ LineBegins (source.take n) k ∧
      t.position.line = 1 + (source.take n).count Ascii.lineFeed ∧
      t.position.column = n - k + 1 := by
  rcases Lexeme.exists_found source with ⟨xs, rfl, found⟩
  rw [tokenize_of_found found] at h
  have member : t ∈ Lexeme.tokens (Place.start.advance []) xs := h
  rcases Lexeme.exists_of_mem_tokens member with ⟨x, read, rest, whole, rfl⟩
  rw [List.nil_append] at whole
  rcases Place.ends_advance_start read with ⟨offset, line, k, begins, column⟩
  have before : (Lexeme.text xs).take read.length = read := by rw [whole, List.take_left]
  refine ⟨read.length, k, congrArg Nat.cast offset, ?_, ?_, ?_⟩
  · rw [before]
    exact begins
  · rw [before]
    exact congrArg Nat.cast line
  · show ((Place.start.advance read).column : Int) = read.length - k + 1
    omega

/-- A scanner gives the tokens of its text in order, each of them once, whatever pattern of single
requests and interrupted ranges they are asked for in.  It ends when all have been given and not
before, and stays at its end.  Each token has the line and the column of its start. -/
theorem requests_give_tokens_in_order (source : Bytes) :
    (∀ requests given after, (Scanner.ofSource source).serveAll requests = (given, after) →
      given.flatten = (tokenize source).take (Scanner.Request.total requests) ∧
      (after.next.1 = none ↔ given.flatten = tokenize source) ∧
      (after.next.1 = none → ∀ more, (after.next.2.serveAll more).1.flatten = [] ∧
        (after.next.2.serveAll more).2.next.1 = none)) ∧
    ∀ t ∈ tokenize source, ∃ n k : Nat, t.start = n ∧ LineBegins (source.take n) k ∧
      t.position.line = 1 + (source.take n).count Ascii.lineFeed ∧
      t.position.column = n - k + 1 := by
  refine ⟨?_, fun t => position_of_mem_tokenize⟩
  intro requests given after served
  have run := (Scanner.owes_ofSource source).serveAll requests
  rw [served] at run
  rcases run with ⟨tokens, left⟩
  have ended : after.next.1 = none ↔
      (tokenize source).length ≤ Scanner.Request.total requests := by
    rw [left.next_eq_none_iff, List.drop_eq_nil_iff]
  refine ⟨tokens, ?_, ?_⟩
  · rw [ended, tokens, List.take_eq_self_iff]
  · intro none more
    have nothing := left.next.2
    rw [left.next_eq_none_iff.1 none] at nothing
    rcases nothing.serveAll more with ⟨no_token, still⟩
    rw [List.tail_nil, List.take_nil] at no_token
    rw [List.tail_nil, List.drop_nil] at still
    exact ⟨no_token, still.next_eq_none_iff.2 rfl⟩

end WordMachine
