import WordMachine.Assembly.Layout
import WordMachine.Proofs.Results

/-!
# Passes over lines

The label pass and the image pass each walk over the lines with a cursor of their own.  A pass here
is such a walk, line by line; the label table and the image of a layout are what the two walks make.
Whatever a pass makes, its cursor depends on the lines alone.
-/

namespace WordMachine

open Results

/-- A pass under way: its cursor, and what it has made so far. -/
structure Pass (β : Type) where
  cursor : Word
  made : β

namespace Pass

variable {β : Type} {d : Dialect} {act : β → Placed → Except SourceError β}

/-- A pass meets a line: it acts on the line at its cursor, and then moves the cursor. -/
def step (d : Dialect) (act : β → Placed → Except SourceError β) (s : Pass β) (line : Line) :
    Except SourceError (Pass β) := do
  let made ← act s.made ⟨s.cursor, line⟩
  let cursor ← line.cursorAfter d s.cursor
  return ⟨cursor, made⟩

def run (d : Dialect) (act : β → Placed → Except SourceError β) (s : Pass β) (lines : List Line) :
    Except SourceError (Pass β) :=
  lines.foldlM (step d act) s

theorem run_cons (s : Pass β) (line : Line) (rest : List Line) :
    run d act s (line :: rest) = step d act s line >>= fun t => run d act t rest := by
  simp [run]

theorem run_append (s : Pass β) (before after : List Line) :
    run d act s (before ++ after) = run d act s before >>= fun t => run d act t after := by
  simp [run, List.foldlM_append]

theorem step_eq_ok_iff {s t : Pass β} {line : Line} :
    step d act s line = .ok t ↔
      act s.made ⟨s.cursor, line⟩ = .ok t.made ∧ line.cursorAfter d s.cursor = .ok t.cursor := by
  unfold step
  rw [bind_eq_ok_iff]
  constructor
  · rintro ⟨made, acted, rest⟩
    obtain ⟨cursor, moved, result⟩ := bind_eq_ok_iff.1 rest
    cases result
    exact ⟨acted, moved⟩
  · rintro ⟨acted, moved⟩
    exact ⟨t.made, acted, bind_eq_ok_iff.2 ⟨t.cursor, moved, rfl⟩⟩

theorem run_append_eq_ok_iff {s u : Pass β} {before after : List Line} :
    run d act s (before ++ after) = .ok u ↔
      ∃ t, run d act s before = .ok t ∧ run d act t after = .ok u := by
  rw [run_append, bind_eq_ok_iff]

theorem run_cons_eq_ok_iff {s u : Pass β} {line : Line} {rest : List Line} :
    run d act s (line :: rest) = .ok u ↔
      ∃ t, step d act s line = .ok t ∧ run d act t rest = .ok u := by
  rw [run_cons, bind_eq_ok_iff]

theorem run_singleton (s : Pass β) (line : Line) : run d act s [line] = step d act s line := by
  rw [run_cons]
  cases step d act s line <;> rfl

theorem step_of_run {s t : Pass β} {lines : List Line} {k : Nat} {line : Line}
    (h : run d act s lines = .ok t) (at_k : lines[k]? = some line) :
    ∃ u v, run d act s (lines.take k) = .ok u ∧ step d act u line = .ok v ∧
      run d act v (lines.drop (k + 1)) = .ok t := by
  obtain ⟨bound, rfl⟩ := List.getElem?_eq_some_iff.1 at_k
  rw [← List.take_append_drop k lines, run_append_eq_ok_iff] at h
  obtain ⟨u, before, rest⟩ := h
  rw [List.drop_eq_getElem_cons bound, run_cons_eq_ok_iff] at rest
  obtain ⟨v, met, after⟩ := rest
  exact ⟨u, v, before, met, after⟩

theorem step_eq_error_iff {s : Pass β} {line : Line} {e : SourceError} :
    step d act s line = .error e ↔ act s.made ⟨s.cursor, line⟩ = .error e ∨
      (∃ made, act s.made ⟨s.cursor, line⟩ = .ok made) ∧
        line.cursorAfter d s.cursor = .error e := by
  unfold step
  rw [bind_eq_error_iff]
  cases act s.made ⟨s.cursor, line⟩ with
  | error found => simp
  | ok made =>
      cases line.cursorAfter d s.cursor with
      | error found => simp
      | ok cursor => simp [pure, Except.pure]

/-- A pass that fails has got through the lines before the one that it fails at. -/
theorem exists_of_run_eq_error {s : Pass β} {lines : List Line} {e : SourceError}
    (h : run d act s lines = .error e) :
    ∃ k line t, lines[k]? = some line ∧ run d act s (lines.take k) = .ok t ∧
      step d act t line = .error e := by
  induction lines generalizing s with
  | nil => cases h
  | cons line rest ih =>
      rw [run_cons, bind_eq_error_iff] at h
      rcases h with first | ⟨u, met, later⟩
      · exact ⟨0, line, s, rfl, rfl, first⟩
      · obtain ⟨k, other, t, at_k, reached, failed⟩ := ih later
        refine ⟨k + 1, other, t, at_k, ?_, failed⟩
        rw [List.take_succ_cons, run_cons_eq_ok_iff]
        exact ⟨u, met, reached⟩

theorem cursor_of_run {s t : Pass β} {lines : List Line} (h : run d act s lines = .ok t) :
    lines.foldlM (fun cursor line => line.cursorAfter d cursor) s.cursor = .ok t.cursor := by
  induction lines generalizing s with
  | nil =>
      cases h
      rfl
  | cons line rest ih =>
      obtain ⟨u, met, went_on⟩ := run_cons_eq_ok_iff.1 h
      rw [List.foldlM_cons, (step_eq_ok_iff.1 met).2]
      exact ih went_on

end Pass

namespace Layout

theorem placeFrom_nil_cons_ok {d : Dialect} {cursor next : Word} {line : Line} {rest : List Line}
    (h : line.cursorAfter d cursor = .ok next) :
    placeFrom d [] cursor (line :: rest) =
      ⟨⟨cursor, line⟩ :: (placeFrom d [] next rest).placed,
        (placeFrom d [] next rest).failure⟩ := by
  rw [placeFrom, h]
  exact placeFrom_append d [] [⟨cursor, line⟩] next rest

theorem placeFrom_nil_cons_error {d : Dialect} {cursor : Word} {line : Line} {rest : List Line}
    {e : SourceError} (h : line.cursorAfter d cursor = .error e) :
    placeFrom d [] cursor (line :: rest) = ⟨[], some e⟩ := by
  rw [placeFrom, h]
  rfl

/-- Acting on the lines of a layout is a pass over the lines, provided that the act accepts the line
that has no place. -/
theorem guard_foldlM_eq_run {β : Type} {d : Dialect} {act : β → Placed → Except SourceError β}
    (accepts : ∀ made cursor line e, line.cursorAfter d cursor = .error e →
      ∃ next, act made ⟨cursor, line⟩ = .ok next)
    (made : β) (cursor : Word) (lines : List Line) :
    (placeFrom d [] cursor lines).guard ((placeFrom d [] cursor lines).placed.foldlM act made) =
      (Pass.run d act ⟨cursor, made⟩ lines).map Pass.made := by
  induction lines generalizing cursor made with
  | nil => rfl
  | cons line rest ih =>
      cases moved : line.cursorAfter d cursor with
      | error e =>
          -- A pass acts on the line before it finds that the line has no place.
          obtain ⟨next, acted⟩ := accepts made cursor line e moved
          rw [placeFrom_nil_cons_error moved, Pass.run_cons, Pass.step, acted, moved]
          rfl
      | ok next =>
          rw [placeFrom_nil_cons_ok moved, Pass.run_cons, Pass.step, moved]
          dsimp only
          rw [List.foldlM_cons]
          cases acted : act made ⟨cursor, line⟩ with
          | error e => rfl
          | ok result => exact ih result next

end Layout

theorem Labels.enter_of_cursorAfter_error {d : Dialect} (labels : Labels) (cursor : Word)
    (line : Line) (e : SourceError) (h : line.cursorAfter d cursor = .error e) :
    ∃ next, labels.enter d ⟨cursor, line⟩ = .ok next := by
  cases line with
  | label name position => cases h
  | specifier name args position => exact ⟨labels, rfl⟩
  | instruction s => cases h

theorem Placed.emit_of_cursorAfter_error {d : Dialect} (labels : Labels) (image : Image)
    (cursor : Word) (line : Line) (e : SourceError) (h : line.cursorAfter d cursor = .error e) :
    ∃ next, Placed.emit labels image ⟨cursor, line⟩ = .ok next := by
  cases line with
  | label name position => cases h
  | specifier name args position => exact ⟨image, rfl⟩
  | instruction s => cases h

def labelPass (d : Dialect) (lines : List Line) : Except SourceError (Pass Labels) :=
  Pass.run d (Labels.enter d) ⟨0, ∅⟩ lines

def imagePass (d : Dialect) (labels : Labels) (lines : List Line) :
    Except SourceError (Pass Image) :=
  Pass.run d (Placed.emit labels) ⟨0, .zero⟩ lines

theorem Labels.ofLines_eq_labelPass (d : Dialect) (lines : List Line) :
    Labels.ofLines d lines = (labelPass d lines).map Pass.made :=
  Layout.guard_foldlM_eq_run Labels.enter_of_cursorAfter_error ∅ 0 lines

theorem Image.ofLines_eq_imagePass (d : Dialect) (labels : Labels) (lines : List Line) :
    Image.ofLines d labels lines = (imagePass d labels lines).map Pass.made :=
  Layout.guard_foldlM_eq_run (Placed.emit_of_cursorAfter_error labels) .zero 0 lines

/-- A source text is assembled if its lines are read and both passes get through them. -/
theorem assemble_eq_ok_iff {d : Dialect} {source : Bytes} {image : Image} :
    assemble d source = .ok image ↔
      ∃ lines labels, Line.parse d (tokenize source) = .ok lines ∧
        Labels.ofLines d lines = .ok labels ∧ Image.ofLines d labels lines = .ok image := by
  rw [assemble, AssemblyReport.ofSource]
  cases Line.parse d (tokenize source) with
  | error e => simp
  | ok lines =>
      dsimp only
      rw [AssemblyReport.ofLines]
      cases bound : Labels.ofLines d lines with
      | error e => simp [bound]
      | ok labels =>
          dsimp only [AssemblyReport.ofLabels]
          cases emitted : Image.ofLines d labels lines with
          | error e => simp [bound, emitted]
          | ok made => simp [bound, emitted]

theorem assemble_eq_error_iff {d : Dialect} {source : Bytes} {e : AssemblyError} :
    assemble d source = .error e ↔
      e.stage = .parsing ∧ Line.parse d (tokenize source) = .error e.error ∨
      e.stage = .labels ∧ (∃ lines, Line.parse d (tokenize source) = .ok lines ∧
        Labels.ofLines d lines = .error e.error) ∨
      e.stage = .code ∧ ∃ lines labels, Line.parse d (tokenize source) = .ok lines ∧
        Labels.ofLines d lines = .ok labels ∧ Image.ofLines d labels lines = .error e.error := by
  obtain ⟨stage, error⟩ := e
  rw [assemble, AssemblyReport.ofSource]
  cases Line.parse d (tokenize source) with
  | error found => simp [eq_comm]
  | ok lines =>
      dsimp only
      rw [AssemblyReport.ofLines]
      cases bound : Labels.ofLines d lines with
      | error found => simp [bound, eq_comm]
      | ok labels =>
          dsimp only [AssemblyReport.ofLabels]
          cases emitted : Image.ofLines d labels lines with
          | error found => simp [bound, emitted, eq_comm]
          | ok made => simp [bound, emitted]

/-- The report of a source text that is assembled keeps the lines and labels that the image is made
from. -/
theorem AssemblyReport.of_assemble {d : Dialect} {source : Bytes} {image : Image}
    (assembled : assemble d source = .ok image) :
    Line.parse d (tokenize source) = .ok (ofSource d source).lines ∧
      Labels.ofLines d (ofSource d source).lines = .ok (ofSource d source).labels ∧
      Image.ofLines d (ofSource d source).labels (ofSource d source).lines = .ok image := by
  obtain ⟨lines, labels, parsed, bound, emitted⟩ := assemble_eq_ok_iff.1 assembled
  have report : (ofSource d source).lines = lines ∧ (ofSource d source).labels = labels := by
    simp only [ofSource, parsed, ofLines, bound, ofLabels, and_self]
  rw [report.1, report.2]
  exact ⟨parsed, bound, emitted⟩

end WordMachine
