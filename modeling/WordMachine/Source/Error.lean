import WordMachine.Source.Token
import WordMachine.Word

/-!
# Errors in source text

An error has a place and a cause.  The cause determines its category and its wording.
-/

namespace WordMachine

inductive SourceError.Category where
  | malformed
  | unknownMnemonic
  | operandCount
  | invalidOperand
  | undefinedLabel
  | imageOverflow
  deriving DecidableEq, Repr

inductive SourceError.Cause where
  | unrecognised (raw : Bytes) (start stop : Int)
  | labelNotAlone (name : Bytes)
  | unexpectedStart (kind : Token.Kind) (raw : Bytes)
  | unexpectedClose
  | unterminatedOpen
  | emptyBrackets
  | nestedOpen
  | missingClose (raw : Bytes)
  | duplicateLabel (name : Bytes) (address : Word)
  | baseArgument
  | unalignedBase (address : Word)
  | unknownMnemonic (name : Bytes)
  | operandCount (mnemonic : String) (expected actual : Nat)
  | unknownRegister (raw : Bytes)
  | wordOverflow (raw : Bytes)
  | notAnOperand (kind : Token.Kind) (raw : Bytes)
  | undefinedLabel (name : Bytes)
  | imageOverflow (address : Word)
  deriving DecidableEq, Repr

structure SourceError where
  position : Position
  cause : SourceError.Cause
  deriving DecidableEq, Repr

namespace SourceError

def Category.description : Category → String
  | .malformed => "syntax error"
  | .unknownMnemonic => "unknown mnemonic"
  | .operandCount => "operand count mismatch"
  | .invalidOperand => "invalid operand"
  | .undefinedLabel => "undefined label"
  | .imageOverflow => "image overflow"

def Cause.category : Cause → Category
  | .unrecognised .. | .labelNotAlone _ | .unexpectedStart .. | .unexpectedClose
  | .unterminatedOpen | .emptyBrackets | .nestedOpen | .missingClose _ | .duplicateLabel ..
  | .baseArgument | .unalignedBase _ => .malformed
  | .unknownMnemonic _ => .unknownMnemonic
  | .operandCount .. => .operandCount
  | .unknownRegister _ | .wordOverflow _ | .notAnOperand .. => .invalidOperand
  | .undefinedLabel _ => .undefinedLabel
  | .imageOverflow _ => .imageOverflow

def Cause.description : Cause → String
  | .unrecognised raw start stop =>
      "unrecognised input " ++ Quoted.bytes raw ++ s!" at bytes {start}-{stop}"
  | .labelNotAlone name => "label " ++ Quoted.bytes name ++ " must be alone on its line"
  | .unexpectedStart kind raw =>
      "unexpected " ++ kind.name ++ " " ++ Quoted.bytes raw ++ " at start of line"
  | .unexpectedClose => "unexpected ']'"
  | .unterminatedOpen => "unterminated '['"
  | .emptyBrackets => "empty brackets"
  | .nestedOpen => "nested '['"
  | .missingClose raw => "expected ']' after " ++ Quoted.bytes raw
  | .duplicateLabel name address =>
      "label " ++ Quoted.bytes name ++ s!" already defined at address {address}"
  | .baseArgument => ".base requires a single address argument"
  | .unalignedBase address => s!".base {address} is not a multiple of {blockSize}"
  | .unknownMnemonic name => Quoted.bytes name
  | .operandCount mnemonic expected actual =>
      mnemonic ++ s!" takes {expected} operand(s), got {actual}"
  | .unknownRegister raw => "unknown register " ++ Quoted.bytes raw
  | .wordOverflow raw => "value " ++ Quoted.bytes raw ++ " does not fit in a word"
  | .notAnOperand kind raw =>
      kind.name ++ " " ++ Quoted.bytes raw ++ " cannot be used as an operand"
  | .undefinedLabel name => Quoted.bytes name
  | .imageOverflow address => s!"instruction at {address} does not fit in {memorySize} words"

def category (e : SourceError) : Category :=
  e.cause.category

/-- The full text of an error; the place is left out where there is none. -/
def message (e : SourceError) : String :=
  let text := e.category.description ++ ": " ++ e.cause.description
  if 0 < e.position.line then "line " ++ e.position.description ++ ": " ++ text else text

end SourceError

end WordMachine
