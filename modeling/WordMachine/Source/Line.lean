import WordMachine.Source.Error
import WordMachine.Text.Lowercase

/-!
# Lines

A line of source text is a row of tokens without blanks and comments.  It reads as labels, followed
by a specifier with its arguments or by an instruction with its operands, each of which is one token
that may stand in brackets.  The dialect says what a source text may do beyond the strict form.
-/

namespace WordMachine

/-- Whether something else may follow a label on its line, whether a label may be defined again, and
whether a base has to be a multiple of the instruction size. -/
structure Dialect where
  inlineLabels : Bool
  redefinition : Bool
  alignedBase : Bool
  deriving DecidableEq, Repr

namespace Dialect

def standard : Dialect := ⟨true, true, false⟩

def strict : Dialect := ⟨false, false, true⟩

end Dialect

/-- One operand as it is written: a token, in brackets or not. -/
structure WrittenOperand where
  indirect : Bool
  token : Token
  deriving DecidableEq, Repr

/-- An instruction as it is written, with its mnemonic in lower case. -/
structure Statement where
  mnemonic : Bytes
  operands : List WrittenOperand
  position : Position
  deriving DecidableEq, Repr

inductive Line where
  | label (name : Bytes) (position : Position)
  | specifier (name : Bytes) (args : List Token) (position : Position)
  | instruction (statement : Statement)
  deriving DecidableEq, Repr

namespace WrittenOperand

def readFrom (done : List WrittenOperand) : List Token → Except SourceError (List WrittenOperand)
  | [] => .ok done.reverse
  | t :: rest =>
      if t.kind = .bracketClose then .error ⟨t.position, .unexpectedClose⟩
      else if t.kind = .bracketOpen then
        match rest with
        | [] => .error ⟨t.position, .unterminatedOpen⟩
        | inner :: rest =>
            if inner.kind = .bracketClose then .error ⟨inner.position, .emptyBrackets⟩
            else if inner.kind = .bracketOpen then .error ⟨inner.position, .nestedOpen⟩
            else
              match rest with
              | [] => .error ⟨inner.position, .missingClose inner.raw⟩
              | close :: rest =>
                  if close.kind = .bracketClose then readFrom (⟨true, inner⟩ :: done) rest
                  else .error ⟨inner.position, .missingClose inner.raw⟩
      else readFrom (⟨false, t⟩ :: done) rest

theorem readFrom_append (done more : List WrittenOperand) (tokens : List Token) :
    readFrom (done ++ more) tokens = (readFrom done tokens).map (more.reverse ++ ·) := by
  fun_induction readFrom done tokens <;> rw [readFrom.eq_def] <;> simp_all [Except.map]

def read (tokens : List Token) : Except SourceError (List WrittenOperand) :=
  readFrom [] tokens

end WrittenOperand

namespace Line

/-- Read a row of tokens none of which is unknown; `done` holds the labels so far, last first. -/
def readFrom (d : Dialect) (done : List Line) : List Token → Except SourceError (List Line)
  | [] => .ok done.reverse
  | t :: rest =>
      if t.kind = .label then
        match rest with
        | [] => .ok (.label t.text t.position :: done).reverse
        | next :: _ =>
            if d.inlineLabels then readFrom d (.label t.text t.position :: done) rest
            else .error ⟨next.position, .labelNotAlone t.text⟩
      else if t.kind = .specifier then .ok (.specifier t.text rest t.position :: done).reverse
      else if t.kind = .identifier then
        match WrittenOperand.read rest with
        | .error e => .error e
        | .ok operands =>
            .ok (.instruction ⟨Lowercase.bytes t.text, operands, t.position⟩ :: done).reverse
      else .error ⟨t.position, .unexpectedStart t.kind t.raw⟩

theorem readFrom_append (d : Dialect) (done more : List Line) (row : List Token) :
    readFrom d (done ++ more) row = (readFrom d done row).map (more.reverse ++ ·) := by
  fun_induction readFrom d done row <;> rw [readFrom.eq_def] <;> simp_all [Except.map]

/-- The lines that one row of tokens gives rise to.  Unknown input is refused before all else. -/
def readRow (d : Dialect) (row : List Token) : Except SourceError (List Line) :=
  match row.find? (·.kind == .unknown) with
  | some t => .error ⟨t.position, .unrecognised t.raw t.start t.stop⟩
  | none => readFrom d [] row

/-- The rows of a token list: what stands between line ends, without blanks and comments. -/
def rows (tokens : List Token) : List (List Token) :=
  (tokens.filter (!·.isLayout)).splitOnP (·.kind == .newline)

def parse (d : Dialect) (tokens : List Token) : Except SourceError (List Line) :=
  ((rows tokens).mapM (readRow d)).map List.flatten

end Line

end WordMachine
