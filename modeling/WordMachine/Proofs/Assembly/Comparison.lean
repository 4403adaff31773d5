import WordMachine.Proofs.Source.Restyling
import WordMachine.Proofs.Assembly.Passes

/-!
# Passes side by side

Two lists of lines that are alike line by line are walked alike.  Lines may differ in their
positions, in the names that they use or in the dialect that they are read in: it is enough that the
two passes do alike with each of them.
-/

namespace WordMachine

open Results

/-! ## Statements -/

section Statements

variable {f : Position → Position} {labels other : Labels}

theorem WrittenOperand.resolve_eq_map (labels : Labels) (x : WrittenOperand) :
    x.resolve labels =
      (x.token.target labels).map fun found => ⟨Mode.of found.1 x.indirect, found.2⟩ := by
  unfold resolve
  cases x.token.target labels <;> rfl

theorem WrittenOperand.resolve_compares {x y : WrittenOperand} (brackets : y.indirect = x.indirect)
    (target : Compares (.movedBy f) Eq (x.token.target labels) (y.token.target other)) :
    Compares (.movedBy f) Eq (x.resolve labels) (y.resolve other) := by
  rw [resolve_eq_map, resolve_eq_map, brackets]
  exact target.map fun _ _ same => by rw [same]

/-- Statements of one mnemonic, at a place and the place it has moved to, whose operands resolve
alike. -/
structure Statement.Alike (f : Position → Position) (labels other : Labels) (s u : Statement) :
    Prop where
  mnemonic : u.mnemonic = s.mnemonic
  position : u.position = f s.position
  operands : List.Forall₂
    (fun x y => Compares (.movedBy f) Eq (x.resolve labels) (y.resolve other))
    s.operands u.operands

namespace Statement.Alike

variable {s u : Statement} (h : s.Alike f labels other u)

include h

theorem instruction :
    Compares (.movedBy f) Eq (s.instruction labels) (u.instruction other) := by
  have operands := Compares.mapM h.operands
  rw [List.forall₂_eq_eq_eq] at operands
  rw [Statement.instruction, Statement.instruction, h.mnemonic, h.position,
    ← h.operands.length_eq]
  cases Opcode.ofMnemonic? s.mnemonic with
  | none => exact .error_at s.position rfl
  | some op =>
      dsimp only
      split
      · exact .error_at s.position rfl
      · generalize s.operands.mapM (·.resolve labels) = found,
          u.operands.mapM (·.resolve other) = found' at operands ⊢
        cases operands with
        | ok same =>
            subst same
            exact .ok rfl
        | error alike => exact .error alike
        | excused allowed => exact allowed.elim

theorem encode : Compares (.movedBy f) Eq (s.encode labels) (u.encode other) :=
  h.instruction.map fun _ _ same => congrArg Instruction.encode same

theorem emit (image : Image) (cursor : Word) :
    Compares (.movedBy f) Eq (Placed.emit labels image ⟨cursor, .instruction s⟩)
      (Placed.emit other image ⟨cursor, .instruction u⟩) := by
  have encoded := h.encode
  simp only [Placed.emit, Placed.placement?, h.position]
  generalize s.encode labels = found, u.encode other = found' at encoded ⊢
  cases encoded with
  | error alike => exact .error alike
  | excused allowed => exact allowed.elim
  | ok same =>
      subst same
      by_cases fits : Image.Fits cursor
      · simp only [fits, dite_true]
        exact .ok rfl
      · simp only [fits, dite_false]
        exact .error_at s.position rfl

end Statement.Alike

end Statements

/-! ## Passes -/

section Passes

variable {β γ : Type} {t : Tolerance SourceError} {r : β → γ → Prop} {d other : Dialect}
  {act : β → Placed → Except SourceError β} {act' : γ → Placed → Except SourceError γ}

/-- Two passes under way at the same cursor, with related results so far. -/
def Pass.Alike (r : β → γ → Prop) (s : Pass β) (u : Pass γ) : Prop :=
  s.cursor = u.cursor ∧ r s.made u.made

/-- Two passes do alike with these lines, whatever cursor they meet them with. -/
structure Pass.Meet (t : Tolerance SourceError) (r : β → γ → Prop) (d other : Dialect)
    (act : β → Placed → Except SourceError β) (act' : γ → Placed → Except SourceError γ)
    (line line' : Line) : Prop where
  acts : ∀ cursor made made', r made made' →
    Compares t r (act made ⟨cursor, line⟩) (act' made' ⟨cursor, line'⟩)
  moves : ∀ cursor, Compares t Eq (line.cursorAfter d cursor) (line'.cursorAfter other cursor)

theorem Pass.Meet.of_eq {act' : β → Placed → Except SourceError β} {line line' : Line}
    (acts : ∀ cursor made,
      Compares t Eq (act made ⟨cursor, line⟩) (act' made ⟨cursor, line'⟩))
    (moves : ∀ cursor,
      Compares t Eq (line.cursorAfter d cursor) (line'.cursorAfter other cursor)) :
    Pass.Meet t Eq d other act act' line line' where
  acts := by
    intro cursor made _ same
    subst same
    exact acts cursor made
  moves := moves

theorem Pass.Meet.step {line line' : Line} (h : Pass.Meet t r d other act act' line line')
    {s : Pass β} {u : Pass γ} (start : s.Alike r u) :
    Compares t (Pass.Alike r) (Pass.step d act s line) (Pass.step other act' u line') := by
  rcases start with ⟨cursors, related⟩
  unfold Pass.step
  rw [← cursors]
  apply (h.acts s.cursor s.made u.made related).bind
  intro made made' after
  apply (h.moves s.cursor).bind
  intro cursor _ same
  exact .ok ⟨same, after⟩

theorem Pass.run_compares {lines lines' : List Line}
    (each : List.Forall₂ (Pass.Meet t r d other act act') lines lines') {s : Pass β} {u : Pass γ}
    (start : s.Alike r u) :
    Compares t (Pass.Alike r) (run d act s lines) (run other act' u lines') :=
  .foldlM (each.imp fun _ _ meet _ _ => meet.step) start

theorem Labels.ofLines_compares {r : Labels → Labels → Prop} (empty : r ∅ ∅)
    {lines lines' : List Line}
    (each : List.Forall₂ (Pass.Meet t r d other (enter d) (enter other)) lines lines') :
    Compares t r (ofLines d lines) (ofLines other lines') := by
  rw [ofLines_eq_labelPass, ofLines_eq_labelPass]
  exact (Pass.run_compares each ⟨rfl, empty⟩).map fun _ _ alike => alike.2

theorem Image.ofLines_compares {labels renamed : Labels} {lines lines' : List Line}
    (each : List.Forall₂ (Pass.Meet t Eq d other (Placed.emit labels) (Placed.emit renamed))
      lines lines') :
    Compares t Eq (ofLines d labels lines) (ofLines other renamed lines') := by
  rw [ofLines_eq_imagePass, ofLines_eq_imagePass]
  exact (Pass.run_compares each ⟨rfl, rfl⟩).map fun _ _ alike => alike.2

end Passes

end WordMachine
