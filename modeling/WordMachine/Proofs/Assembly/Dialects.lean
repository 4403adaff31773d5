import WordMachine.Proofs.Assembly.Comparison

/-!
# Stricter dialects

A dialect is consulted where a label is followed by something, where a label is defined again and
where a base is not aligned.  At each of these places a stricter dialect goes on like a looser one,
or refuses the text as malformed; so it does as a whole.
-/

namespace WordMachine

open Results

namespace Dialect

/-- One dialect is below another that allows whatever it allows. -/
instance : LE Dialect where
  le d looser :=
    (d.inlineLabels = true → looser.inlineLabels = true) ∧
      (d.redefinition = true → looser.redefinition = true) ∧
      (looser.alignedBase = true → d.alignedBase = true)

instance (d looser : Dialect) : Decidable (d ≤ looser) :=
  inferInstanceAs (Decidable (_ ∧ _))

end Dialect

/-- A stricter rule may refuse, as malformed, what a looser one goes on with. -/
def Results.Tolerance.stricter : Tolerance SourceError where
  alike := Eq
  excused e := e.category = .malformed

/-- What a stricter rule makes of a result: the same, or it refuses the text as malformed. -/
abbrev Tightens {α : Type} : Except SourceError α → Except SourceError α → Prop :=
  Compares .stricter Eq

theorem Tightens.same {α : Type} (x : Except SourceError α) : Tightens x x :=
  .refl (fun _ => rfl) x

variable {d looser : Dialect}

/-! ## Lines -/

theorem Line.readFrom_tightens (h : d ≤ looser) (done : List Line) (row : List Token) :
    Tightens (readFrom d done row) (readFrom looser done row) := by
  induction row generalizing done with
  | nil => exact .same _
  | cons t rest ih =>
      by_cases label : t.kind = .label
      · cases rest with
        | nil =>
            rw [readFrom, readFrom]
            exact .same _
        | cons next rest =>
            rw [readFrom, if_pos label]
            by_cases inline : d.inlineLabels = true
            · rw [readFrom, if_pos label]
              simp only [inline, h.1 inline, if_true]
              exact ih _
            · simp only [inline]
              exact .excused rfl _
      · rw [readFrom.eq_def d, readFrom.eq_def looser]
        simp only [label, if_false]
        exact .same _

theorem Line.parse_tightens (h : d ≤ looser) (tokens : List Token) :
    Tightens (parse d tokens) (parse looser tokens) := by
  have rows (row : List Token) : Tightens (readRow d row) (readRow looser row) := by
    rw [readRow, readRow]
    cases row.find? (·.kind == .unknown) with
    | some t => exact .same _
    | none => exact readFrom_tightens h [] row
  have parts := Compares.mapM (List.forall₂_same.2 fun row (_ : row ∈ Line.rows tokens) => rows row)
  rw [List.forall₂_eq_eq_eq] at parts
  exact parts.map fun _ _ same => congrArg List.flatten same

/-! ## Passes -/

theorem baseValue_tightens (h : d ≤ looser) (args : List Token) (position : Position) :
    Tightens (baseValue d args position) (baseValue looser args position) := by
  unfold baseValue
  split
  · split
    · split
      · exact .same _
      · rename_i address _
        by_cases strict : d.alignedBase = true ∧ address.toNat % blockSize ≠ 0
        · rw [if_pos strict]
          exact .excused rfl _
        · have loose : ¬ (looser.alignedBase = true ∧ address.toNat % blockSize ≠ 0) :=
            fun refuses => strict ⟨h.2.2 refuses.1, refuses.2⟩
          rw [if_neg strict, if_neg loose]
          exact .same _
    · exact .same _
  · exact .same _

theorem Line.cursorAfter_tightens (h : d ≤ looser) (cursor : Word) (line : Line) :
    Tightens (line.cursorAfter d cursor) (line.cursorAfter looser cursor) := by
  cases line with
  | label name position => exact .same _
  | specifier name args position =>
      simp only [cursorAfter]
      split
      · exact baseValue_tightens h args position
      · exact .same _
  | instruction s => exact .same _

theorem Labels.enter_tightens (h : d ≤ looser) (labels : Labels) (p : Placed) :
    Tightens (labels.enter d p) (labels.enter looser p) := by
  unfold enter
  split
  · split
    · by_cases allowed : d.redefinition = true
      · rw [if_pos allowed, if_pos (h.2.1 allowed)]
        exact .same _
      · rw [if_neg allowed]
        exact .excused rfl _
    · exact .same _
  · exact .same _

theorem Labels.ofLines_tightens (h : d ≤ looser) (lines : List Line) :
    Tightens (ofLines d lines) (ofLines looser lines) := by
  apply ofLines_compares rfl
  apply List.forall₂_same.2
  intro line _
  exact .of_eq (fun cursor labels => labels.enter_tightens h ⟨cursor, line⟩)
    fun cursor => line.cursorAfter_tightens h cursor

theorem Image.ofLines_tightens (h : d ≤ looser) (labels : Labels) (lines : List Line) :
    Tightens (ofLines d labels lines) (ofLines looser labels lines) := by
  apply ofLines_compares
  apply List.forall₂_same.2
  intro line _
  exact .of_eq (fun _ _ => Tightens.same _) fun cursor => line.cursorAfter_tightens h cursor

/-! ## All stages -/

def stages (d : Dialect) (source : Bytes) : Except SourceError (List Line × Labels × Image) := do
  let lines ← Line.parse d (tokenize source)
  let labels ← Labels.ofLines d lines
  let image ← Image.ofLines d labels lines
  return (lines, labels, image)

theorem stages_tightens (h : d ≤ looser) (source : Bytes) :
    Tightens (stages d source) (stages looser source) := by
  apply (Line.parse_tightens h _).bind
  intro lines _ same
  subst same
  apply (Labels.ofLines_tightens h lines).bind
  intro labels _ same
  subst same
  apply (Image.ofLines_tightens h labels lines).bind
  intro image _ same
  subst same
  exact .ok rfl

/-- A source text is assembled, and these are its lines, its labels and its image. -/
structure AssemblesTo (d : Dialect) (source : Bytes) (lines : List Line) (labels : Labels)
    (image : Image) : Prop where
  outcome : assemble d source = .ok image
  lines_eq : (AssemblyReport.ofSource d source).lines = lines
  labels_eq : (AssemblyReport.ofSource d source).labels = labels

theorem stages_eq_ok_iff {source : Bytes} {lines : List Line} {labels : Labels} {image : Image} :
    stages d source = .ok (lines, labels, image) ↔ AssemblesTo d source lines labels image := by
  constructor
  · intro made
    obtain ⟨_, parsed, rest⟩ := bind_eq_ok_iff.1 made
    obtain ⟨_, bound, rest⟩ := bind_eq_ok_iff.1 rest
    obtain ⟨_, emitted, result⟩ := bind_eq_ok_iff.1 rest
    cases result
    have assembled := assemble_eq_ok_iff.2 ⟨lines, labels, parsed, bound, emitted⟩
    obtain ⟨again, bound_again, -⟩ := AssemblyReport.of_assemble assembled
    rw [parsed, Except.ok.injEq] at again
    rw [← again, bound, Except.ok.injEq] at bound_again
    exact ⟨assembled, again.symm, bound_again.symm⟩
  · rintro ⟨assembled, rfl, rfl⟩
    obtain ⟨parsed, bound, emitted⟩ := AssemblyReport.of_assemble assembled
    rw [stages, parsed, bind_ok, bound, bind_ok, emitted]
    rfl

theorem stages_of_assemble_error {source : Bytes} {e : AssemblyError}
    (failed : assemble d source = .error e) : stages d source = .error e.error := by
  rw [stages]
  rcases assemble_eq_error_iff.1 failed with
    ⟨-, refused⟩ | ⟨-, lines, parsed, refused⟩ | ⟨-, lines, labels, parsed, bound, refused⟩
  · rw [refused, bind_error]
  · rw [parsed, bind_ok, refused, bind_error]
  · rw [parsed, bind_ok, bound, bind_ok, refused, bind_error]

/-- A stricter dialect only rejects.  What it accepts, a looser one accepts with the same lines,
labels and image, and what it rejects although a looser one accepts it, it rejects as malformed.  So
what the strict dialect accepts is the same in the standard one. -/
theorem stricter_dialect_only_rejects {d looser : Dialect} (h : d ≤ looser) (source : Bytes) :
    (∀ lines labels image, AssemblesTo d source lines labels image →
      AssemblesTo looser source lines labels image) ∧
      (∀ image e, assemble looser source = .ok image → assemble d source = .error e →
        e.error.category = .malformed) ∧
      ∀ lines labels image, AssemblesTo .strict source lines labels image →
        AssemblesTo .standard source lines labels image := by
  have accepts {d looser : Dialect} (h : d ≤ looser) (lines : List Line) (labels : Labels)
      (image : Image) (accepted : AssemblesTo d source lines labels image) :
      AssemblesTo looser source lines labels image := by
    rcases (stages_tightens h source).exists_ok (stages_eq_ok_iff.2 accepted) with ⟨_, made, rfl⟩
    exact stages_eq_ok_iff.1 made
  refine ⟨accepts h, ?_, accepts (by decide)⟩
  intro image e accepted failed
  exact (stages_tightens h source).excused_of_error (stages_of_assemble_error failed)
    (stages_eq_ok_iff.2 ⟨accepted, rfl, rfl⟩)

/-- A label that is defined twice, which only a loose dialect allows. -/
def redefiningSource : Bytes := Bytes.ofString "a:\na: jmp :a\n"

def plainSource : Bytes := Bytes.ofString ".base 4\na:\njmp :a\n"

theorem strict_rejects_redefinition :
    Dialect.strict ≤ .standard ∧
      (∃ image e, assemble .standard redefiningSource = .ok image ∧
        assemble .strict redefiningSource = .error e ∧ e.error.category = .malformed) ∧
      ∃ lines labels image, AssemblesTo .strict plainSource lines labels image ∧
        AssemblesTo .standard plainSource lines labels image := by
  have looser : Dialect.strict ≤ .standard := by decide
  have loose : (assemble .standard redefiningSource).isOk = true := by decide +kernel
  have strict : (assemble .strict redefiningSource).isOk = false := by decide +kernel
  have plain : (assemble .strict plainSource).isOk = true := by decide +kernel
  refine ⟨looser, ?_, ?_⟩
  · obtain ⟨image, accepted⟩ := isOk_iff.1 loose
    cases failed : assemble .strict redefiningSource with
    | ok made =>
        rw [isOk_iff.2 ⟨made, failed⟩] at strict
        cases strict
    | error e =>
        exact ⟨image, e, accepted, rfl,
          (stricter_dialect_only_rejects looser redefiningSource).2.1 image e accepted failed⟩
  · obtain ⟨image, accepted⟩ := isOk_iff.1 plain
    have made : AssemblesTo .strict plainSource _ _ image := ⟨accepted, rfl, rfl⟩
    exact ⟨_, _, image, made,
      (stricter_dialect_only_rejects looser plainSource).1 _ _ image made⟩

end WordMachine
