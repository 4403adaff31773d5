import WordMachine.Proofs.Assembly.Comparison
import Mathlib.Logic.Function.Basic

/-!
# Renaming labels

Which names labels have does not matter.  Where different names stay different, both passes walk
over renamed lines as over the lines themselves: the same addresses are bound, to the new names, the
same image is made, and a line is refused only if it was refused before, for a reason of the same
category and at the same place.
-/

namespace WordMachine

open Results

/-! ## Renamed lines -/

section Definitions

variable (f : Bytes → Bytes)

def Token.rename (t : Token) : Token :=
  if t.kind = .labelRef then { t with text := f t.text } else t

def WrittenOperand.rename (x : WrittenOperand) : WrittenOperand :=
  ⟨x.indirect, x.token.rename f⟩

def Statement.rename (s : Statement) : Statement :=
  ⟨s.mnemonic, s.operands.map (WrittenOperand.rename f), s.position⟩

/-- A line with other names for the labels that it defines or refers to. -/
def Line.rename : Line → Line
  | .label name position => .label (f name) position
  | .specifier name args position => .specifier name args position
  | .instruction s => .instruction (s.rename f)

end Definitions

/-- The same addresses under other names: what was bound to a name is bound to its new name, and
nothing else is bound. -/
structure Labels.RenamedBy (f : Bytes → Bytes) (labels renamed : Labels) : Prop where
  bound : ∀ name, renamed[f name]? = labels[name]?
  only : ∀ key, key ∈ renamed → ∃ name, f name = key

namespace Labels.RenamedBy

variable {f : Bytes → Bytes} {labels renamed : Labels}

theorem empty (f : Bytes → Bytes) : Labels.RenamedBy f ∅ ∅ where
  bound _ := rfl
  only _ member := absurd member Std.TreeMap.not_mem_emptyc

theorem insert (injective : Function.Injective f) (h : labels.RenamedBy f renamed) (name : Bytes)
    (address : Word) :
    Labels.RenamedBy f (labels.insert name address) (renamed.insert (f name) address) := by
  constructor
  · intro other
    rw [Std.TreeMap.getElem?_insert, Std.TreeMap.getElem?_insert]
    simp only [Std.compare_eq_iff_eq, injective.eq_iff, h.bound other]
  · intro key member
    rw [Std.TreeMap.mem_insert, Std.compare_eq_iff_eq] at member
    rcases member with same | earlier
    · exact ⟨name, same⟩
    · exact h.only key earlier

end Labels.RenamedBy

/-! ## Statements -/

theorem Results.Tolerance.alike_self (e : SourceError) : (movedBy id).alike e e :=
  ⟨rfl, rfl⟩

section Statements

variable {f : Bytes → Bytes} {labels renamed : Labels} (tables : labels.RenamedBy f renamed)

include tables

theorem Token.target_rename (t : Token) :
    Compares (.movedBy id) Eq (t.target labels) ((t.rename f).target renamed) := by
  by_cases reference : t.kind = .labelRef
  · rw [rename, if_pos reference]
    simp only [target, reference, tables.bound]
    cases labels[t.text]? with
    | none => exact .error_at t.position rfl
    | some address => exact .ok rfl
  · have unchanged : t.target renamed = t.target labels := by
      unfold target
      cases kind : t.kind with
      | labelRef => exact absurd kind reference
      | _ => rfl
    rw [rename, if_neg reference, unchanged]
    exact .refl Tolerance.alike_self _

theorem Statement.alike_rename (s : Statement) : s.Alike id labels renamed (s.rename f) where
  mnemonic := rfl
  position := rfl
  operands := by
    refine forall₂_map_self ?_ s.operands
    intro x
    exact WrittenOperand.resolve_compares rfl (x.token.target_rename tables)

theorem Placed.emit_rename (image : Image) (cursor : Word) (line : Line) :
    Compares (.movedBy id) Eq (Placed.emit labels image ⟨cursor, line⟩)
      (Placed.emit renamed image ⟨cursor, line.rename f⟩) := by
  cases line with
  | label name position => exact .ok rfl
  | specifier name args position => exact .ok rfl
  | instruction s => exact (s.alike_rename tables).emit image cursor

end Statements

/-! ## Passes -/

theorem Labels.enter_rename {f : Bytes → Bytes} (injective : Function.Injective f) (d : Dialect)
    {labels renamed : Labels} (tables : labels.RenamedBy f renamed) (cursor : Word) (line : Line) :
    Compares (.movedBy id) (Labels.RenamedBy f) (labels.enter d ⟨cursor, line⟩)
      (renamed.enter d ⟨cursor, line.rename f⟩) := by
  cases line with
  | label name position =>
      simp only [Labels.enter, Line.rename, tables.bound]
      cases labels[name]? with
      | none => exact .ok (tables.insert injective name cursor)
      | some address =>
          dsimp only
          split
          · exact .ok (tables.insert injective name cursor)
          · exact .error_at position rfl
  | specifier name args position => exact .ok tables
  | instruction s => exact .ok tables

theorem Line.cursorAfter_rename (f : Bytes → Bytes) (d : Dialect) (cursor : Word) (line : Line) :
    Compares (.movedBy id) Eq (line.cursorAfter d cursor)
      ((line.rename f).cursorAfter d cursor) := by
  cases line <;> exact .refl Tolerance.alike_self _

/-- The names of labels do not matter.  Under an injective renaming, the label table of renamed
lines is that of the lines with its names changed, or both label passes fail alike; and with tables
so related, the image of the renamed lines is that of the lines, or both image passes fail alike. -/
theorem label_names_do_not_matter (d : Dialect) {f : Bytes → Bytes}
    (injective : Function.Injective f) (lines : List Line) :
    Compares (.movedBy id) (Labels.RenamedBy f) (Labels.ofLines d lines)
        (Labels.ofLines d (lines.map (Line.rename f))) ∧
      ∀ labels renamed : Labels, labels.RenamedBy f renamed →
        Compares (.movedBy id) Eq (Image.ofLines d labels lines)
          (Image.ofLines d renamed (lines.map (Line.rename f))) := by
  constructor
  · apply Labels.ofLines_compares (.empty f)
    refine forall₂_map_self ?_ lines
    intro line
    refine ⟨?_, fun cursor => line.cursorAfter_rename f d cursor⟩
    intro cursor labels renamed tables
    exact Labels.enter_rename injective d tables cursor line
  · intro labels renamed tables
    apply Image.ofLines_compares
    refine forall₂_map_self ?_ lines
    intro line
    exact .of_eq (fun cursor image => Placed.emit_rename tables image cursor line)
      fun cursor => line.cursorAfter_rename f d cursor

def exchangeNames (name : Bytes) : Bytes :=
  if name = Bytes.ofString "a" then Bytes.ofString "b"
  else if name = Bytes.ofString "b" then Bytes.ofString "a"
  else name

theorem exchangeNames_injective : Function.Injective exchangeNames := by
  apply Function.Involutive.injective
  intro name
  unfold exchangeNames
  split
  · rename_i first
    exact first.symm
  · split
    · rename_i second
      exact second.symm
    · rfl

/-- A jump forward to one label, and an operand in brackets that refers to another, which is defined
twice. -/
def crossingLines : List Line :=
  [.label (Bytes.ofString "a") .none,
    .instruction
      ⟨Bytes.ofString "jmp", [⟨false, ⟨.labelRef, Bytes.ofString "b", [], 0, 0, .none⟩⟩], .none⟩,
    .label (Bytes.ofString "a") .none,
    .instruction
      ⟨Bytes.ofString "push", [⟨true, ⟨.labelRef, Bytes.ofString "a", [], 0, 0, .none⟩⟩], .none⟩,
    .label (Bytes.ofString "b") .none]

theorem exchanged_names_assemble_alike :
    Function.Injective exchangeNames ∧
      ∃ labels renamed image, Labels.ofLines .standard crossingLines = .ok labels ∧
        Labels.ofLines .standard (crossingLines.map (Line.rename exchangeNames)) = .ok renamed ∧
        labels.RenamedBy exchangeNames renamed ∧
        Image.ofLines .standard labels crossingLines = .ok image ∧
        Image.ofLines .standard renamed (crossingLines.map (Line.rename exchangeNames)) =
          .ok image := by
  have accepted : (Labels.ofLines .standard crossingLines >>= fun labels =>
      Image.ofLines .standard labels crossingLines).isOk = true := by decide
  rcases isOk_iff.1 accepted with ⟨image, made⟩
  rcases bind_eq_ok_iff.1 made with ⟨labels, bound, emitted⟩
  rcases label_names_do_not_matter .standard exchangeNames_injective crossingLines with
    ⟨tables, images⟩
  rcases tables.exists_ok bound with ⟨renamed, bound', related⟩
  rcases (images labels renamed related).exists_ok emitted with ⟨_, emitted', rfl⟩
  exact ⟨exchangeNames_injective, labels, renamed, image, bound, bound', related, emitted,
    emitted'⟩

end WordMachine
