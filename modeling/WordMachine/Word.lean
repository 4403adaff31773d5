import WordMachine.Text.Bytes

/-!
# Words and images

The machine computes with 64-bit words.  An image is the contents of the whole memory; it is written
as the little-endian bytes of its words, and instructions are put into it block by block.
-/

namespace WordMachine

abbrev Word := UInt64

abbrev memorySize : Nat := 65536

abbrev blockSize : Nat := 4

namespace Word

def greatest : Word := 0xffffffffffffffff

/-- Multiply by `2 ^ n` modulo `2 ^ 64`, for every `n`. -/
def shiftLeft (w n : Word) : Word :=
  if n < 64 then w <<< n else 0

def shiftRight (w n : Word) : Word :=
  if n < 64 then w >>> n else 0

/-- Minus one, zero or one, as the second word is below, equal to or above the first. -/
def order (b c : Word) : Word :=
  if c < b then greatest else if b < c then 1 else 0

def toBytes (w : Word) : Bytes :=
  [w.toUInt8, (w >>> 8).toUInt8, (w >>> 16).toUInt8, (w >>> 24).toUInt8,
    (w >>> 32).toUInt8, (w >>> 40).toUInt8, (w >>> 48).toUInt8, (w >>> 56).toUInt8]

@[simp] theorem length_toBytes (w : Word) : w.toBytes.length = 8 := rfl

def ofBytes (b0 b1 b2 b3 b4 b5 b6 b7 : UInt8) : Word :=
  b0.toUInt64 ||| b1.toUInt64 <<< 8 ||| b2.toUInt64 <<< 16 ||| b3.toUInt64 <<< 24 |||
    b4.toUInt64 <<< 32 ||| b5.toUInt64 <<< 40 ||| b6.toUInt64 <<< 48 ||| b7.toUInt64 <<< 56

end Word

def serialize (words : List Word) : Bytes :=
  words.flatMap Word.toBytes

/-- Read eight bytes at a time; `done` holds the words so far, last first.  Bytes that do not fill
a word are dropped. -/
def deserializeFrom (done : List Word) : Bytes → List Word
  | b0 :: b1 :: b2 :: b3 :: b4 :: b5 :: b6 :: b7 :: rest =>
      deserializeFrom (Word.ofBytes b0 b1 b2 b3 b4 b5 b6 b7 :: done) rest
  | _ => done.reverse

theorem length_serialize (words : List Word) : (serialize words).length = 8 * words.length := by
  induction words with
  | nil => rfl
  | cons w rest ih =>
      simp only [serialize, List.flatMap_cons, List.length_append, List.length_cons] at ih ⊢
      rw [ih, Word.length_toBytes]
      omega

def deserialize? (bytes : Bytes) : Option (List Word) :=
  if bytes.length % 8 = 0 then some (deserializeFrom [] bytes) else none

/-- Four words: a control word and the words of three operands. -/
structure Block where
  control : Word
  a : Word
  b : Word
  c : Word
  deriving DecidableEq, Repr

namespace Block

def zero : Block := ⟨0, 0, 0, 0⟩

def words (block : Block) : List Word :=
  [block.control, block.a, block.b, block.c]

end Block

/-! ## Images -/

structure Image where
  words : Vector Word memorySize
  deriving DecidableEq

namespace Image

def zero : Image := ⟨Vector.replicate memorySize 0⟩

def word (image : Image) (address : Word) : Word :=
  image.words[address.toNat]?.getD 0

/-- Whether a block at an address lies within an image. -/
def Fits (address : Word) : Prop :=
  address.toNat + blockSize ≤ memorySize

instance (address : Word) : Decidable (Fits address) :=
  inferInstanceAs (Decidable (_ ≤ _))

/-- A block and an address where it fits. -/
structure Placement where
  address : Word
  block : Block
  fits : Fits address
  deriving DecidableEq

def place (image : Image) (p : Placement) : Image :=
  have fits : p.address.toNat + 4 ≤ memorySize := p.fits
  ⟨image.words
    |>.set p.address.toNat p.block.control (by omega)
    |>.set (p.address.toNat + 1) p.block.a (by omega)
    |>.set (p.address.toNat + 2) p.block.b (by omega)
    |>.set (p.address.toNat + 3) p.block.c (by omega)⟩

def put? (image : Image) (address : Word) (block : Block) : Option Image :=
  if h : Fits address then some (image.place ⟨address, block, h⟩) else none

def bytes (image : Image) : Bytes :=
  serialize image.words.toList

end Image

end WordMachine
