import WordMachine.Log
import WordMachine.Text.Quoted
import WordMachine.Word

/-!
# Flag values

How the text of a flag's value is read: as a switch, as a word, as a number with a sign, or as one
of the settings of the log.  A word may announce its base, `0x` for sixteen, `0b` for two, `0o` or a
leading zero for eight, and may have single underscores between its digits and after the
announcement.
-/

namespace WordMachine.FlagValue

inductive Reader where
  | switch
  | word
  | number
  deriving DecidableEq, Repr

inductive Failure where
  | malformed (reader : Reader) (value : String)
  | outOfRange (reader : Reader) (value : String)
  | unparsed
  | excessive
  | severity (rank : Int)
  | filterSyntax
  | locationSyntax
  | negativeLine
  deriving DecidableEq, Repr

def Reader.name : Reader → String
  | .switch => "ParseBool"
  | .word => "ParseUint"
  | .number => "Atoi"

def Failure.message : Failure → String
  | .malformed reader value =>
      "strconv." ++ reader.name ++ ": parsing " ++ Quoted.text value ++ ": invalid syntax"
  | .outOfRange reader value =>
      "strconv." ++ reader.name ++ ": parsing " ++ Quoted.text value ++ ": value out of range"
  | .unparsed => "parse error"
  | .excessive => "value out of range"
  | .severity rank => s!"Severity {rank} out of range (min 0, max 3)."
  | .filterSyntax => "syntax error: expect comma-separated list of filename=N"
  | .locationSyntax => "syntax error: expect file.go:234"
  | .negativeLine => "negative value for line"

def switch (value : String) : Except Failure Bool :=
  if value ∈ ["1", "t", "T", "TRUE", "true", "True"] then .ok true
  else if value ∈ ["0", "f", "F", "FALSE", "false", "False"] then .ok false
  else .error (.malformed .switch value)

def digit? (c : Char) : Option Nat :=
  if c.isDigit then some (c.toNat - '0'.toNat)
  else if c.isLower then some (c.toNat - 'a'.toNat + 10)
  else if c.isUpper then some (c.toNat - 'A'.toNat + 10)
  else none

/-- Read digits in a base from a number on, left to right, so that the first digit that is none or
that makes the number too large decides; `none` is a malformed number and `some none` one that is
too large. -/
def digits (base : Nat) (underscores : Bool) : Nat → List Char → Option (Option Nat)
  | n, [] => some (some n)
  | n, c :: rest =>
      if underscores ∧ c = '_' then digits base underscores n rest
      else
        match digit? c with
        | none => none
        | some d =>
            if base ≤ d then none
            else if UInt64.size ≤ n * base + d then some none
            else digits base underscores (n * base + d) rest

/-- Whether each underscore stands after a digit and before one; `digitBefore` says whether a digit
stands before the text. -/
def separated (digitBefore : Bool) : List Char → Bool
  | [] => digitBefore
  | c :: rest => if c = '_' then digitBefore && separated false rest else separated true rest

/-- The base that a number announces, and its digits if an announcement was taken off them. -/
def announcement : List Char → Option (Nat × List Char)
  | '0' :: mark :: c :: rest =>
      if mark = 'x' ∨ mark = 'X' then some (16, c :: rest)
      else if mark = 'b' ∨ mark = 'B' then some (2, c :: rest)
      else if mark = 'o' ∨ mark = 'O' then some (8, c :: rest)
      else none
  | _ => none

def plainBase : List Char → Nat
  | '0' :: _ => 8
  | _ => 10

def word (value : String) : Except Failure Word :=
  let text := value.toList
  let (base, body, marked) :=
    match announcement text with
    | some (base, body) => (base, body, true)
    | none => (plainBase text, text, false)
  if text = [] then .error (.malformed .word value)
  else
    match digits base true 0 body with
    | none => .error (.malformed .word value)
    | some none => .error (.outOfRange .word value)
    | some (some n) =>
        if '_' ∈ text ∧ separated marked body = false then .error (.malformed .word value)
        else .ok (.ofNat n)

def signed : List Char → Bool × List Char
  | '-' :: rest => (true, rest)
  | '+' :: rest => (false, rest)
  | text => (false, text)

def bounded? (negative : Bool) (n : Nat) : Option Int :=
  if negative then if n ≤ 0x8000000000000000 then some (-n) else none
  else if n < 0x8000000000000000 then some n else none

def number (value : String) : Except Failure Int :=
  let (negative, body) := signed value.toList
  if body = [] then .error (.malformed .number value)
  else
    match digits 10 false 0 body with
    | none => .error (.malformed .number value)
    | some none => .error (.outOfRange .number value)
    | some (some n) =>
        match bounded? negative n with
        | some v => .ok v
        | none => .error (.outOfRange .number value)

/-- The low 32 bits of a number, as a number with a sign. -/
def low32 (n : Int) : Int :=
  Int.bmod n 0x100000000

def level (value : String) : Except Failure Int :=
  (number value).map low32

def logSwitch (value : String) : Except Failure Bool :=
  (switch value).mapError fun _ => .unparsed

def logNumber (value : String) : Except Failure Int :=
  let (negative, body) := signed value.toList
  match word (String.ofList body) with
  | .error (.outOfRange ..) => .error .excessive
  | .error _ => .error .unparsed
  | .ok w =>
      match bounded? negative w.toNat with
      | some v => .ok v
      | none => .error .excessive

/-- Upper case, as far as the names of severities go; a dotless i has the capital of an i. -/
def capital (c : Char) : Char :=
  if c = Char.ofNat 0x131 then 'I' else c.toUpper

/-- Read a severity by its name in any case or by its rank, of which the low 8 bits count. -/
def severity (value : String) : Except Failure LogSeverity :=
  match LogSeverity.all.find? (·.name == value.map capital) with
  | some s => .ok s
  | none =>
      match number value with
      | .error why => .error why
      | .ok rank =>
          match LogSeverity.all.find? fun s => (s.rank : Int) == Int.bmod rank 0x100 with
          | some s => .ok s
          | none => .error (.severity rank)

/-- Read one filter, a pattern and its level, which can be lower than any detail's. -/
def filter (text : String) : Except Failure LogFilter :=
  match text.splitOn "=" with
  | [pattern, level] =>
      if pattern = "" ∨ level = "" then .error .filterSyntax
      else
        match number level with
        | .error _ => .error .filterSyntax
        | .ok n => .ok ⟨pattern, low32 n⟩
  | _ => .error .filterSyntax

def filters (value : String) : Except Failure (List LogFilter) :=
  ((value.splitOn ",").filter (· != "")).mapM filter

def location (text : String) : Except Failure Unit :=
  match text.splitOn ":" with
  | [file, line] =>
      if file.contains '.' then
        match number line with
        | .error _ => .error .locationSyntax
        | .ok n => if n < 0 then .error .negativeLine else .ok ()
      else .error .locationSyntax
  | _ => .error .locationSyntax

def locations (value : String) : Except Failure Unit :=
  (((value.splitOn ",").filter (· != "")).mapM location).map fun _ => ()

end WordMachine.FlagValue
