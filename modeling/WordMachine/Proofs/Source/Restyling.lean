import WordMachine.Source.Line
import WordMachine.Proofs.Results

/-!
# Restylings

A restyling changes how tokens are spelled and where they stand, and keeps what they say.  Reading
lines commutes with it: a restyled token list has the restyled lines, and where the one is refused
the other is too, for the same kind of reason and at the restyled position.
-/

namespace WordMachine

open Results

namespace Results

/-- Errors of one category stand for each other, the second at the place that the first has moved
to. -/
def Tolerance.movedBy (f : Position → Position) : Tolerance SourceError where
  alike e other := other.position = f e.position ∧ other.category = e.category
  excused _ := False

variable {f : Position → Position}

theorem Tolerance.exact_movedBy : (movedBy f).Exact :=
  fun _ => id

theorem Compares.error_at {α β : Type} {r : α → β → Prop} (position : Position)
    {cause other : SourceError.Cause} (same : other.category = cause.category) :
    Compares (.movedBy f) r (.error ⟨position, cause⟩) (.error ⟨f position, other⟩) :=
  .error ⟨rfl, same⟩

end Results

structure Restyling where
  token : Token → Token
  position : Position → Position
  kind_token : ∀ t, (token t).kind = t.kind
  text_token : ∀ t, (token t).text = t.text
  position_token : ∀ t, (token t).position = position t.position

namespace Restyling

attribute [simp] kind_token text_token position_token

variable (r : Restyling)

def operand (x : WrittenOperand) : WrittenOperand :=
  ⟨x.indirect, r.token x.token⟩

def statement (s : Statement) : Statement :=
  ⟨s.mnemonic, s.operands.map r.operand, r.position s.position⟩

def line : Line → Line
  | .label name position => .label name (r.position position)
  | .specifier name args position => .specifier name (args.map r.token) (r.position position)
  | .instruction s => .instruction (r.statement s)

/-- A result and the result for what is restyled: both succeed, or both fail alike. -/
abbrev Agrees {α β : Type} (f : α → β) : Except SourceError α → Except SourceError β → Prop :=
  Compares (.movedBy r.position) fun a b => f a = b

theorem Agrees.refused {r : Restyling} {α β : Type} {f : α → β} (t : Token)
    {cause restyled : SourceError.Cause} (same : restyled.category = cause.category) :
    r.Agrees f (.error ⟨t.position, cause⟩) (.error ⟨(r.token t).position, restyled⟩) :=
  .error ⟨r.position_token t, same⟩

/-! ## Reading lines -/

theorem readOperandsFrom_agrees (done : List WrittenOperand) (tokens : List Token) :
    r.Agrees (List.map r.operand) (WrittenOperand.readFrom done tokens)
      (WrittenOperand.readFrom (done.map r.operand) (tokens.map r.token)) := by
  fun_induction WrittenOperand.readFrom done tokens <;>
    (conv_rhs => rw [WrittenOperand.readFrom.eq_def]) <;>
    simp only [List.map_cons, List.map_nil, kind_token, *, reduceCtorEq, if_true, if_false]
  case case1 done => exact .ok List.map_reverse
  case case2 done t rest close => exact .refused t rfl
  case case3 done t close opens => exact .refused t rfl
  case case4 done t close opens inner rest empty => exact .refused inner rfl
  case case5 done t close opens inner rest empty nested => exact .refused inner rfl
  case case6 done t close opens inner empty nested => exact .refused inner rfl
  case case7 done t close opens inner empty nested last rest closed ih => exact ih
  case case8 done t close opens inner empty nested last rest unclosed => exact .refused inner rfl
  case case9 done t rest close opens ih => exact ih

theorem readOperands_agrees (tokens : List Token) :
    r.Agrees (List.map r.operand) (WrittenOperand.read tokens)
      (WrittenOperand.read (tokens.map r.token)) :=
  r.readOperandsFrom_agrees [] tokens

theorem readLinesFrom_agrees (d : Dialect) (done : List Line) (row : List Token) :
    r.Agrees (List.map r.line) (Line.readFrom d done row)
      (Line.readFrom d (done.map r.line) (row.map r.token)) := by
  -- Every test that reading makes is on the kind of a token, which both sides share.
  fun_induction Line.readFrom d done row <;> (conv_rhs => rw [Line.readFrom.eq_def]) <;>
    simp only [List.map_cons, List.map_nil, kind_token, text_token, *, reduceCtorEq,
      Bool.false_eq_true, if_true, if_false]
  case case1 done => exact .ok List.map_reverse
  case case2 done t label => exact .ok (by simp [line])
  case case3 done t label next rest inline ih =>
      rw [position_token]
      exact ih
  case case4 done t label next rest alone => exact .refused next rfl
  case case5 done t rest label specifier => exact .ok (by simp [line])
  case case6 done t rest label specifier identifier e refused =>
      have agree := r.readOperands_agrees rest
      rw [refused] at agree
      generalize WrittenOperand.read (rest.map r.token) = restyled at agree ⊢
      cases agree with
      | error alike => exact .error alike
      | excused allowed => exact allowed.elim
  case case7 done t rest label specifier identifier operands read =>
      have agree := r.readOperands_agrees rest
      rw [read] at agree
      generalize WrittenOperand.read (rest.map r.token) = restyled at agree ⊢
      cases agree with
      | ok related => exact .ok (by simp [line, statement, ← related])
  case case8 done t rest label specifier identifier => exact .refused t rfl

theorem readRow_agrees (d : Dialect) (row : List Token) :
    r.Agrees (List.map r.line) (Line.readRow d row) (Line.readRow d (row.map r.token)) := by
  have kinds : (fun t : Token => t.kind == .unknown) ∘ r.token = fun t => t.kind == .unknown := by
    funext t
    simp
  rw [Line.readRow, Line.readRow, List.find?_map, kinds]
  cases row.find? fun t => t.kind == .unknown with
  | none => exact r.readLinesFrom_agrees d [] row
  | some t => exact .refused t rfl

theorem rows_map (tokens : List Token) :
    Line.rows (tokens.map r.token) = (Line.rows tokens).map (List.map r.token) := by
  have layout : (fun t : Token => !t.isLayout) ∘ r.token = fun t => !t.isLayout := by
    funext t
    simp [Token.isLayout]
  rw [Line.rows, Line.rows, List.filter_map, layout]
  induction tokens.filter fun t => !t.isLayout with
  | nil => rfl
  | cons t rest ih =>
      rw [List.map_cons, List.splitOnP_cons_eq_if_modifyHead, List.splitOnP_cons_eq_if_modifyHead,
        kind_token, ih]
      split
      · rfl
      · cases List.splitOnP _ rest with
        | nil => rfl
        | cons row rows => rfl

theorem parse_agrees (d : Dialect) (tokens : List Token) :
    r.Agrees (List.map r.line) (Line.parse d tokens) (Line.parse d (tokens.map r.token)) := by
  rw [Line.parse, Line.parse, rows_map]
  apply (Compares.mapM_map (r.readRow_agrees d) (Line.rows tokens)).map
  intro lines _ same
  rw [← same]
  exact List.map_flatten

end Restyling

end WordMachine
