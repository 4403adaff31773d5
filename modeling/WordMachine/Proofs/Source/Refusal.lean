import WordMachine.Proofs.Source.Grammar

/-!
# Where source text is refused

An error of reading stands at a token of the first row that is not a line.  Lines that have been
read keep the positions of the tokens they come from, so that a later error in them stands at a
token too.
-/

namespace WordMachine

open Results

/-! ## Positions of tokens -/

theorem Place.line_le_advance (p : Place) (s : Bytes) : p.line ≤ (p.advance s).line := by
  induction s generalizing p with
  | nil => exact Nat.le_refl _
  | cons b s ih =>
      have first : p.line ≤ (p.after b).line := by
        unfold after
        split
        · exact Nat.le_succ _
        · exact Nat.le_refl _
      exact Nat.le_trans first (ih (p.after b))

theorem Lexeme.line_of_mem_tokens {place : Place} {xs : List Lexeme} {t : Token}
    (h : t ∈ tokens place xs) : (place.line : Int) ≤ t.position.line := by
  induction xs generalizing place with
  | nil => cases h
  | cons x xs ih =>
      rcases List.mem_cons.1 h with rfl | later
      · exact Int.le_refl _
      · have next := ih later
        have before := place.line_le_advance x.raw
        omega

theorem line_of_mem_tokenize {source : Bytes} {t : Token} (h : t ∈ tokenize source) :
    1 ≤ t.position.line := by
  obtain ⟨xs, rfl, found⟩ := Lexeme.exists_found source
  rw [tokenize_of_found found] at h
  exact Lexeme.line_of_mem_tokens h

/-! ## Rows -/

theorem mem_of_mem_splitOnP {α : Type} {p : α → Bool} {xs row : List α} {x : α}
    (member : row ∈ xs.splitOnP p) (inside : x ∈ row) : x ∈ xs := by
  induction xs generalizing row with
  | nil =>
      rw [List.splitOnP_nil, List.mem_singleton] at member
      subst member
      cases inside
  | cons y ys ih =>
      rw [List.splitOnP_cons_eq_if_modifyHead] at member
      split at member
      · rcases List.mem_cons.1 member with rfl | later
        · cases inside
        · exact .tail _ (ih later inside)
      · obtain ⟨first, rest, split⟩ := List.exists_cons_of_ne_nil (List.splitOnP_ne_nil p ys)
        rw [split, List.modifyHead_cons] at member
        rw [split] at ih
        rcases List.mem_cons.1 member with rfl | later
        · rcases List.mem_cons.1 inside with rfl | within
          · exact List.mem_cons_self
          · exact .tail _ (ih List.mem_cons_self within)
        · exact .tail _ (ih (.tail _ later) inside)

theorem mem_of_mem_tokenRows {tokens row : List Token} {t : Token} (member : row ∈ tokenRows tokens)
    (inside : t ∈ row) : t ∈ tokens := by
  obtain ⟨whole, piece, rfl⟩ := List.mem_map.1 member
  exact mem_of_mem_splitOnP piece (List.mem_filter.1 inside).1

/-! ## Errors of reading -/

/-- An error that refuses the form of some tokens, at one of them. -/
structure SourceError.Malforms (e : SourceError) (tokens : List Token) : Prop where
  malformed : e.category = .malformed
  located : ∃ t ∈ tokens, e.position = t.position

theorem SourceError.Malforms.mono {e : SourceError} {row tokens : List Token} (h : e.Malforms row)
    (subset : row ⊆ tokens) : e.Malforms tokens := by
  obtain ⟨t, member, same⟩ := h.located
  exact ⟨h.malformed, t, subset member, same⟩

theorem WrittenOperand.malforms_of_readFrom {done : List WrittenOperand} {row : List Token}
    {e : SourceError} (h : readFrom done row = .error e) : e.Malforms row := by
  fun_induction readFrom done row with
  | case1 => cases h
  | case2 | case3 =>
      cases h
      exact ⟨rfl, _, List.mem_cons_self, rfl⟩
  | case4 | case5 | case6 | case8 =>
      cases h
      exact ⟨rfl, _, .tail _ List.mem_cons_self, rfl⟩
  | case7 done t close opens inner plain nested last rest closes ih =>
      exact (ih h).mono fun u member => .tail _ (.tail _ (.tail _ member))
  | case9 done t rest close opens ih => exact (ih h).mono fun u member => .tail _ member

theorem Line.malforms_of_readFrom {d : Dialect} {done : List Line} {row : List Token}
    {e : SourceError} (h : readFrom d done row = .error e) : e.Malforms row := by
  fun_induction readFrom d done row with
  | case1 | case2 | case5 | case7 => cases h
  | case3 done t label next rest inline ih => exact (ih h).mono fun u member => .tail _ member
  | case4 =>
      cases h
      exact ⟨rfl, _, .tail _ List.mem_cons_self, rfl⟩
  | case6 done t rest label specifier identifier refused read =>
      cases h
      exact (WrittenOperand.malforms_of_readFrom read).mono fun u member => .tail _ member
  | case8 =>
      cases h
      exact ⟨rfl, _, List.mem_cons_self, rfl⟩

namespace Line

variable {d : Dialect} {tokens row : List Token} {e : SourceError}

theorem malforms_of_readRow (h : readRow d row = .error e) : e.Malforms row := by
  unfold readRow at h
  split at h
  · rename_i t unknown
    cases h
    exact ⟨rfl, t, List.mem_of_find?_eq_some unknown, rfl⟩
  · exact malforms_of_readFrom h

theorem not_formed_of_readRow (h : readRow d row = .error e) : ¬ Formed d row := by
  intro formed
  obtain ⟨lines, read⟩ := exists_readRow formed
  rw [h] at read
  cases read

/-- Tokens are refused at the first row that does not have the form of the grammar. -/
theorem first_row_of_parse_error (h : parse d tokens = .error e) :
    ∃ before row after, tokenRows tokens = before ++ row :: after ∧
      (∀ other ∈ before, Formed d other) ∧ ¬ Formed d row ∧ e.Malforms row := by
  rw [parse, rows_eq_tokenRows, map_eq_error_iff] at h
  obtain ⟨before, row, after, split, read, refused⟩ := exists_of_mapM_eq_error h
  refine ⟨before, row, after, split, ?_, not_formed_of_readRow refused, malforms_of_readRow refused⟩
  intro other member
  obtain ⟨lines, accepted⟩ := read other member
  exact (readRow_eq_ok_iff.1 accepted).1

/-! ## Positions in lines -/

def positions : Line → List Position
  | .label _ position => [position]
  | .specifier _ args position => position :: args.map Token.position
  | .instruction s => s.position :: s.operands.map (·.token.position)

end Line

theorem WrittenOperand.token_mem_of_spells {pieces : List (List Token)}
    {operands : List WrittenOperand} (h : List.Forall₂ Spells pieces operands) {x : WrittenOperand}
    (member : x ∈ operands) : x.token ∈ pieces.flatten := by
  obtain ⟨piece, among, spells⟩ := exists_mem_of_forall₂ h member
  refine List.mem_flatten.2 ⟨piece, among, ?_⟩
  cases spells with
  | direct plain => exact List.mem_cons_self
  | indirect opens plain closes => exact .tail _ List.mem_cons_self

namespace Line

variable {d : Dialect} {tokens row : List Token} {lines : List Line} {line : Line}

theorem positions_of_spells (h : Spells row lines) (member : line ∈ lines) :
    line.positions ⊆ row.map Token.position := by
  induction h with
  | nothing => cases member
  | @label t row lines label rest ih =>
      rcases List.mem_cons.1 member with rfl | later
      · exact List.cons_subset.2 ⟨List.mem_cons_self, List.nil_subset _⟩
      · exact fun position inside => .tail _ (ih later inside)
  | specifier specifier =>
      rw [List.mem_singleton] at member
      subst member
      exact List.Subset.refl _
  | @instruction t pieces operands identifier spells =>
      rw [List.mem_singleton] at member
      subst member
      refine List.cons_subset.2 ⟨List.mem_cons_self, ?_⟩
      intro position inside
      obtain ⟨x, among, rfl⟩ := List.mem_map.1 inside
      exact .tail _ (List.mem_map_of_mem (WrittenOperand.token_mem_of_spells spells among))

theorem positions_of_parse (h : parse d tokens = .ok lines) (member : line ∈ lines) :
    line.positions ⊆ tokens.map Token.position := by
  obtain ⟨-, parts, spells, rfl⟩ := parse_eq_ok_iff_spells.1 h
  obtain ⟨part, among, inside⟩ := List.mem_flatten.1 member
  obtain ⟨row, of_tokens, spelled⟩ := exists_mem_of_forall₂ spells among
  intro position found
  obtain ⟨t, within, rfl⟩ := List.mem_map.1 (positions_of_spells spelled inside found)
  exact List.mem_map_of_mem (mem_of_mem_tokenRows of_tokens within)

end Line

end WordMachine
