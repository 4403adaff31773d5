import WordMachine.Assembly.Encoding
import WordMachine.Log
import WordMachine.Source.Scanner

/-!
# Layout

The cursor is the address of the next instruction.  It starts at zero, an instruction moves it on by
four words, and the specifier `base` sets it.  A layout gives each line the cursor it is met with;
from it come the label table and the image.

A source text is assembled in three stages, each of which needs the one before: its lines are read,
its labels are bound, and its instructions are put into an image.  A report keeps what each stage
has made, also when a later one fails.
-/

namespace WordMachine

def baseName : Bytes := [0x62, 0x61, 0x73, 0x65]

/-- The address that a base specifier sets. -/
def baseValue (d : Dialect) (args : List Token) (position : Position) :
    Except SourceError Word :=
  match args with
  | [arg] =>
      if arg.kind = .number then
        match arg.word with
        | .error e => .error e
        | .ok address =>
            if d.alignedBase ∧ address.toNat % blockSize ≠ 0 then
              .error ⟨arg.position, .unalignedBase address⟩
            else .ok address
      else .error ⟨position, .baseArgument⟩
  | _ => .error ⟨position, .baseArgument⟩

def Line.cursorAfter (d : Dialect) (cursor : Word) : Line → Except SourceError Word
  | .label .. => .ok cursor
  | .specifier name args position =>
      if name = baseName then baseValue d args position else .ok cursor
  | .instruction _ => .ok (cursor + 4)

structure Placed where
  cursor : Word
  line : Line
  deriving DecidableEq, Repr

/-- The lines that have a place, and the error of the line after them, if there is one. -/
structure Layout where
  placed : List Placed
  failure : Option SourceError
  deriving DecidableEq, Repr

namespace Layout

def placeFrom (d : Dialect) (done : List Placed) : Word → List Line → Layout
  | _, [] => ⟨done.reverse, none⟩
  | cursor, line :: rest =>
      match line.cursorAfter d cursor with
      | .ok next => placeFrom d (⟨cursor, line⟩ :: done) next rest
      | .error e => ⟨done.reverse, some e⟩

theorem placeFrom_append (d : Dialect) (done more : List Placed) (cursor : Word)
    (lines : List Line) :
    placeFrom d (done ++ more) cursor lines =
      ⟨more.reverse ++ (placeFrom d done cursor lines).placed,
        (placeFrom d done cursor lines).failure⟩ := by
  induction lines generalizing done cursor with
  | nil => simp [placeFrom]
  | cons line rest ih =>
      unfold placeFrom
      split
      · rw [← List.cons_append, ih]
      · simp

def ofLines (d : Dialect) (lines : List Line) : Layout :=
  placeFrom d [] 0 lines

/-- A result that holds only if every line has a place. -/
def guard {α : Type} (layout : Layout) (result : Except SourceError α) : Except SourceError α :=
  match result, layout.failure with
  | .ok _, some e => .error e
  | _, _ => result

end Layout

namespace Labels

/-- Enter a line: a label is bound to its cursor, which a dialect may allow only once. -/
def enter (d : Dialect) (labels : Labels) (p : Placed) : Except SourceError Labels :=
  match p.line with
  | .label name position =>
      match labels[name]? with
      | some address =>
          if d.redefinition then .ok (labels.insert name p.cursor)
          else .error ⟨position, .duplicateLabel name address⟩
      | none => .ok (labels.insert name p.cursor)
  | _ => .ok labels

def ofLines (d : Dialect) (lines : List Line) : Except SourceError Labels :=
  let layout := Layout.ofLines d lines
  layout.guard (layout.placed.foldlM (enter d) ∅)

end Labels

namespace Placed

def placement? (labels : Labels) (p : Placed) :
    Except SourceError (Option Image.Placement) :=
  match p.line with
  | .instruction s =>
      match s.encode labels with
      | .error e => .error e
      | .ok block =>
          if h : Image.Fits p.cursor then .ok (some ⟨p.cursor, block, h⟩)
          else .error ⟨s.position, .imageOverflow p.cursor⟩
  | _ => .ok none

def emit (labels : Labels) (image : Image) (p : Placed) : Except SourceError Image :=
  match p.placement? labels with
  | .error e => .error e
  | .ok none => .ok image
  | .ok (some placement) => .ok (image.place placement)

end Placed

def Image.ofLines (d : Dialect) (labels : Labels) (lines : List Line) :
    Except SourceError Image :=
  let layout := Layout.ofLines d lines
  layout.guard (layout.placed.foldlM (Placed.emit labels) .zero)

namespace Layout

def nameText (name : Bytes) : String :=
  name.toString?.getD (Quoted.bytes name)

def specifierNotices (p : Placed) : List Notice :=
  match p.line with
  | .specifier name _ position =>
      if name = baseName then []
      else [.detail .directives 1
        ("line " ++ position.description ++ ": ignoring specifier ." ++ nameText name)]
  | _ => []

def labelNotices (labels : Labels) (p : Placed) : List Notice :=
  match p.line with
  | .label name position =>
      let bound := Notice.detail .assembly 2 ("label " ++ nameText name ++ s!" = {p.cursor}")
      match labels[name]? with
      | some address =>
          [.warning .assembly ("line " ++ position.description ++ ": label " ++ Quoted.bytes name ++
            s!" redefined (was {address}, now {p.cursor})"), bound]
      | none => [bound]
  | _ => specifierNotices p

def labelNoticesFrom (d : Dialect) (done : List Notice) (labels : Labels) :
    List Placed → List Notice
  | [] => done.reverse
  | p :: rest =>
      match labels.enter d p with
      | .error _ => done.reverse
      | .ok next => labelNoticesFrom d ((labelNotices labels p).reverse ++ done) next rest

def labelPass (d : Dialect) (layout : Layout) : List Notice :=
  labelNoticesFrom d [] ∅ layout.placed

/-- The notices of the image pass, up to the first line that puts no block although it should. -/
def imagePass (labels : Labels) (layout : Layout) : List Notice :=
  (layout.placed.takeWhile fun p => (p.placement? labels).isOk).flatMap specifierNotices

end Layout

/-! ## Assembly -/

inductive AssemblyError.Stage where
  | parsing
  | labels
  | code
  deriving DecidableEq, Repr

def AssemblyError.Stage.description : AssemblyError.Stage → String
  | .parsing => "parsing"
  | .labels => "resolving labels"
  | .code => "generating code"

/-- An error in source text and the stage that found it. -/
structure AssemblyError where
  stage : AssemblyError.Stage
  error : SourceError
  deriving DecidableEq, Repr

def AssemblyError.message (e : AssemblyError) : String :=
  e.stage.description ++ ": " ++ e.error.message

structure AssemblyReport where
  lines : List Line
  labels : Labels
  outcome : Except AssemblyError Image
  notices : List Notice

namespace AssemblyReport

def ofLabels (d : Dialect) (lines : List Line) (labels : Labels) (notices : List Notice) :
    AssemblyReport :=
  { lines
    labels
    outcome :=
      match Image.ofLines d labels lines with
      | .ok image => .ok image
      | .error e => .error ⟨.code, e⟩
    notices :=
      notices ++ .detail .assembly 1 s!"resolved {labels.size} labels" ::
        (Layout.ofLines d lines).imagePass labels }

def ofLines (d : Dialect) (lines : List Line) : AssemblyReport :=
  let notices :=
    .detail .assembly 1 s!"parsed {lines.length} lines" :: (Layout.ofLines d lines).labelPass d
  match Labels.ofLines d lines with
  | .error e => ⟨lines, ∅, .error ⟨.labels, e⟩, notices⟩
  | .ok labels => ofLabels d lines labels notices

def ofSource (d : Dialect) (source : Bytes) : AssemblyReport :=
  match Line.parse d (tokenize source) with
  | .error e => ⟨[], ∅, .error ⟨.parsing, e⟩, []⟩
  | .ok lines => ofLines d lines

end AssemblyReport

def assemble (d : Dialect) (source : Bytes) : Except AssemblyError Image :=
  (AssemblyReport.ofSource d source).outcome

end WordMachine
