import WordMachine.Text.Quoted

/-!
# Tokens

A token is a piece of source text with its kind and place.  Its text is what the token says: the
sigil of a label, reference, specifier or literal is left out, and a line end says nothing.
-/

namespace WordMachine

/-- A place in source text; lines and columns count from one, columns in bytes. -/
structure Position where
  line : Int
  column : Int
  deriving DecidableEq, Repr

namespace Position

def none : Position := ⟨0, 0⟩

def description (p : Position) : String :=
  s!"{p.line}:{p.column}"

end Position

inductive Token.Kind where
  | newline
  | whitespace
  | comment
  | label
  | labelRef
  | specifier
  | literal
  | bracketOpen
  | bracketClose
  | number
  | register
  | identifier
  | unknown
  /-- A kind that source text never gives rise to, by number. -/
  | other (code : Int)
  deriving DecidableEq, Repr

namespace Token.Kind

def name : Token.Kind → String
  | newline => "newline"
  | whitespace => "whitespace"
  | comment => "comment"
  | label => "label"
  | labelRef => "label_ref"
  | specifier => "specifier"
  | literal => "literal"
  | bracketOpen => "bracket_open"
  | bracketClose => "bracket_close"
  | number => "number"
  | register => "register"
  | identifier => "identifier"
  | unknown => "unknown"
  | other code => s!"TokenKind({code})"

def numbered : List Token.Kind :=
  [newline, whitespace, comment, label, labelRef, specifier, literal, bracketOpen, bracketClose,
    number, register, identifier, unknown]

def ofCode (code : Int) : Token.Kind :=
  if code < 0 then other code else numbered[code.toNat]?.getD (other code)

/-- What a token of this kind says, given the bytes it stands for. -/
def textOf : Token.Kind → Bytes → Bytes
  | newline, _ => []
  | label, raw => raw.dropLast
  | labelRef, raw | specifier, raw | literal, raw => raw.drop 1
  | _, raw => raw

end Token.Kind

structure Token where
  kind : Token.Kind
  text : Bytes
  raw : Bytes
  start : Int
  stop : Int
  position : Position
  deriving DecidableEq, Repr

namespace Token

def description (t : Token) : String :=
  t.kind.name ++ "(" ++ Quoted.bytes t.raw ++ ")@" ++ t.position.description

def isLayout (t : Token) : Bool :=
  t.kind == .whitespace || t.kind == .comment

end Token

end WordMachine
