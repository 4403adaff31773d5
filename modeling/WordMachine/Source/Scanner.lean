import WordMachine.Source.Token

/-!
# Scanner

The rules that cut source text into lexemes, and the scanner that gives the tokens of a source text
on request.  At each place the first rule of the list that matches decides.  Input that no rule
matches is passed over character by character until a rule matches; the token of that match is then
known too and is held back for the next request.  Lines are counted up to the token made last.
-/

namespace WordMachine

/-! ## Rules -/

/-- A rule gives, for the text at a place, how many bytes it matches there; zero if none. -/
structure LexicalRule where
  kind : Token.Kind
  matchLength : Bytes → Nat

namespace LexicalRule

def runLength (p : UInt8 → Bool) (s : Bytes) : Nat :=
  (s.takeWhile p).length

def sigilLength (sigil : UInt8) (p : UInt8 → Bool) : Bytes → Nat
  | [] => 0
  | b :: s => if b = sigil ∧ 0 < runLength p s then runLength p s + 1 else 0

def newlineLength : Bytes → Nat
  | Ascii.lineFeed :: _ => 1
  | Ascii.carriageReturn :: Ascii.lineFeed :: _ => 2
  | _ => 0

def commentLength : Bytes → Nat
  | Ascii.semicolon :: s => runLength (· != Ascii.lineFeed) s + 1
  | _ => 0

def labelLength (s : Bytes) : Nat :=
  let n := runLength Ascii.isWord s
  if 0 < n ∧ s[n]? = some Ascii.colon then n + 1 else 0

/-- Whether bytes are a number below 16 without leading zeros, or one of `IP`, `IC`, `SP`, `SBP`,
`RMD`. -/
def isRegisterTail : Bytes → Bool
  | [d] => Ascii.isDigit d
  | [x, y] =>
      x == 0x31 && 0x30 ≤ y && y ≤ 0x35 || x == 0x49 && (y == 0x50 || y == 0x43) ||
        x == 0x53 && y == 0x50
  | [x, y, z] => x == 0x53 && y == 0x42 && z == 0x50 || x == 0x52 && y == 0x4d && z == 0x44
  | _ => false

def isRegisterWord : Bytes → Bool
  | [] => false
  | b :: tail => b == 0x72 && isRegisterTail tail

def registerLength (s : Bytes) : Nat :=
  let word := s.takeWhile Ascii.isWord
  if isRegisterWord word then word.length else 0

def byteLength (b : UInt8) : Bytes → Nat
  | [] => 0
  | x :: _ => if x = b then 1 else 0

def all : List LexicalRule :=
  [⟨.newline, newlineLength⟩,
    ⟨.whitespace, runLength Ascii.isBlank⟩,
    ⟨.comment, commentLength⟩,
    ⟨.label, labelLength⟩,
    ⟨.labelRef, sigilLength Ascii.colon Ascii.isWord⟩,
    ⟨.specifier, sigilLength Ascii.dot Ascii.isWord⟩,
    ⟨.literal, sigilLength Ascii.hash Ascii.isDigit⟩,
    ⟨.number, runLength Ascii.isDigit⟩,
    ⟨.register, registerLength⟩,
    ⟨.identifier, runLength Ascii.isWord⟩,
    ⟨.bracketOpen, byteLength Ascii.bracketOpen⟩,
    ⟨.bracketClose, byteLength Ascii.bracketClose⟩]

def firstOf : List LexicalRule → Bytes → Option (Token.Kind × Nat)
  | [], _ => none
  | rule :: rules, s =>
      match rule.matchLength s with
      | 0 => firstOf rules s
      | n + 1 => some (rule.kind, n + 1)

def first? (s : Bytes) : Option (Token.Kind × Nat) :=
  firstOf all s

end LexicalRule

/-! ## Tokens on request -/

/-- The line that the `counted` bytes read so far end in, and the offset where it begins. -/
structure LineCount where
  line : Nat
  lineStart : Nat
  counted : Nat
  deriving DecidableEq, Repr

namespace LineCount

def start : LineCount := ⟨1, 0, 0⟩

def next (c : LineCount) (b : UInt8) : LineCount :=
  if b = Ascii.lineFeed then ⟨c.line + 1, c.counted + 1, c.counted + 1⟩
  else ⟨c.line, c.lineStart, c.counted + 1⟩

/-- Count on up to an offset; a count that is there already stays. -/
def upTo (c : LineCount) (source : Bytes) (offset : Nat) : LineCount :=
  ((source.drop c.counted).take (offset - c.counted)).foldl next c

def position (c : LineCount) (offset : Nat) : Position :=
  ⟨c.line, offset - c.lineStart + 1⟩

end LineCount

/-- The next match is looked for at `scanned`; the token made last ends at `made`, and `held` is one
that has been made and not been given. -/
structure Scanner where
  source : Bytes
  scanned : Nat
  made : Nat
  held : Option Token
  lines : LineCount
  deriving DecidableEq, Repr

namespace Scanner

def ofSource (source : Bytes) : Scanner := ⟨source, 0, 0, none, .start⟩

/-- Pass over `skip` bytes and then over characters at which no rule matches; `passed` bytes have
been passed before.  The result is how many bytes are passed, and the match behind them. -/
def seekFrom (passed : Nat) : Nat → Bytes → Nat × Option (Token.Kind × Nat)
  | _, [] => (passed, none)
  | skip + 1, _ :: rest => seekFrom (passed + 1) skip rest
  | 0, b :: rest =>
      match LexicalRule.first? (b :: rest) with
      | some found => (passed, some found)
      | none => seekFrom (passed + 1) (Utf8.firstSize (b :: rest) - 1) rest

def seek (text : Bytes) : Nat × Option (Token.Kind × Nat) :=
  seekFrom 0 0 text

def token (s : Scanner) (kind : Token.Kind) (start stop : Nat) : Token × Scanner :=
  let raw := (s.source.drop start).take (stop - start)
  let lines := s.lines.upTo s.source start
  ({ kind
     text := kind.textOf raw
     raw
     start
     stop
     position := lines.position start },
    { s with lines })

def next (s : Scanner) : Option Token × Scanner :=
  match s.held with
  | some t => (some t, { s with held := none })
  | none =>
      let (passed, found) := seek (s.source.drop s.scanned)
      let start := s.scanned + passed
      match found with
      | some (kind, length) =>
          let stop := start + length
          -- Unmatched input before the match is a token of its own, which comes first.
          if s.made < start then
            let (unknown, s) := s.token .unknown s.made start
            let (t, s) := s.token kind start stop
            (some unknown, { s with scanned := stop, made := stop, held := some t })
          else
            let (t, s) := s.token kind start stop
            (some t, { s with scanned := stop, made := stop })
      | none =>
          let s := { s with scanned := start }
          if s.made < s.source.length then
            let (t, s) := s.token .unknown s.made s.source.length
            (some t, { s with made := s.source.length })
          else (none, s)

def takeFrom (done : List Token) : Nat → Scanner → List Token × Scanner
  | 0, s => (done.reverse, s)
  | n + 1, s =>
      match s.next with
      | (none, s) => (done.reverse, s)
      | (some t, s) => takeFrom (t :: done) n s

/-- The tokens of a range that is left at its `n`-th token, or at the end, and the scanner after
it. -/
def take (n : Nat) (s : Scanner) : List Token × Scanner :=
  takeFrom [] n s

end Scanner

/-- The tokens of a source text.  Each has at least one byte, so there are no more of them than
bytes. -/
def tokenize (source : Bytes) : List Token :=
  ((Scanner.ofSource source).take source.length).1

end WordMachine
