/-!
# Byte strings

Source text, names taken from it, and file contents are lists of bytes.  They need not be valid
UTF-8; offsets and columns count bytes.  This module has the bytes that mean something in source
text, the reading of characters from a byte string that may hold invalid sequences, and numerals.
-/

namespace WordMachine

abbrev Bytes := List UInt8

namespace Bytes

def ofString (s : String) : Bytes :=
  s.toByteArray.data.toList

def toString? (bytes : Bytes) : Option String :=
  String.fromUTF8? ⟨bytes.toArray⟩

@[simp] theorem ofString_append (s t : String) :
    ofString (s ++ t) = ofString s ++ ofString t := by
  simp [ofString, String.toByteArray_append]

end Bytes

/-! ## ASCII -/

namespace Ascii

@[match_pattern] abbrev lineFeed : UInt8 := 0x0a
@[match_pattern] abbrev carriageReturn : UInt8 := 0x0d
@[match_pattern] abbrev space : UInt8 := 0x20
@[match_pattern] abbrev tab : UInt8 := 0x09
@[match_pattern] abbrev hash : UInt8 := 0x23
@[match_pattern] abbrev dot : UInt8 := 0x2e
@[match_pattern] abbrev colon : UInt8 := 0x3a
@[match_pattern] abbrev semicolon : UInt8 := 0x3b
@[match_pattern] abbrev bracketOpen : UInt8 := 0x5b
@[match_pattern] abbrev bracketClose : UInt8 := 0x5d

def isDigit (b : UInt8) : Bool :=
  0x30 ≤ b && b ≤ 0x39

def isUpper (b : UInt8) : Bool :=
  0x41 ≤ b && b ≤ 0x5a

def isLower (b : UInt8) : Bool :=
  0x61 ≤ b && b ≤ 0x7a

/-- A byte of a word: a letter, a digit or the underscore. -/
def isWord (b : UInt8) : Bool :=
  isDigit b || isUpper b || isLower b || b == 0x5f

def isBlank (b : UInt8) : Bool :=
  b == space || b == tab

def digitValue (b : UInt8) : Nat :=
  b.toNat - 0x30

def lower (b : UInt8) : UInt8 :=
  if isUpper b then b + 0x20 else b

end Ascii

/-! ## Characters -/

namespace Utf8

/-- The character a byte string begins with.  Overlong forms, surrogates, values above U+10FFFF and
sequences that are cut short are none. -/
def first? (bytes : Bytes) : Option Char :=
  ByteArray.utf8DecodeChar? ⟨(bytes.take 4).toArray⟩ 0

/-- The number of bytes of the character that a text begins with; one where it begins with none. -/
def firstSize (bytes : Bytes) : Nat :=
  match first? bytes with
  | some c => c.utf8Size
  | none => 1

/-- One piece of a byte string: a character, or a byte that belongs to none. -/
inductive Piece where
  | char (c : Char)
  | stray (b : UInt8)
  deriving DecidableEq, Repr

def piecesFrom (done : List Piece) : Nat → Bytes → List Piece
  | _, [] => done.reverse
  -- A byte of the character that has been read.
  | skip + 1, _ :: rest => piecesFrom done skip rest
  | 0, b :: rest =>
      match first? (b :: rest) with
      | some c => piecesFrom (.char c :: done) (c.utf8Size - 1) rest
      | none => piecesFrom (.stray b :: done) 0 rest

def pieces (bytes : Bytes) : List Piece :=
  piecesFrom [] 0 bytes

end Utf8

/-! ## Numerals -/

namespace Numeral

def padLeft (fill : Char) (width : Nat) (s : String) : String :=
  "".pushn fill (width - s.length) ++ s

def padRight (width : Nat) (s : String) : String :=
  s.pushn ' ' (width - s.length)

/-- Lower-case hexadecimal with at least `width` digits. -/
def hex (width n : Nat) : String :=
  padLeft '0' width (String.ofList (Nat.toDigits 16 n))

def upperHex (width n : Nat) : String :=
  padLeft '0' width (String.ofList ((Nat.toDigits 16 n).map Char.toUpper))

/-- The number a string of decimal digits denotes; any other byte counts by its distance from `0`.
-/
def ofDigits (digits : Bytes) : Nat :=
  digits.foldl (fun n b => 10 * n + Ascii.digitValue b) 0

/-- Read a non-empty string of decimal digits, leading zeros allowed. -/
def decimal? (bytes : Bytes) : Option Nat :=
  if bytes ≠ [] ∧ bytes.all Ascii.isDigit then some (ofDigits bytes) else none

end Numeral

end WordMachine
