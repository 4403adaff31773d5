import WordMachine.Word

/-!
# Random sources

A random source is a state from which words are drawn, either any word or a word below a bound.
-/

namespace WordMachine

class RandomSource (σ : Type) where
  word : σ → Word × σ
  below : Word → σ → Word × σ

/-- A source whose bounded draws stay below the bound. -/
class LawfulRandomSource (σ : Type) [RandomSource σ] : Prop where
  below_lt : forall (n : Word) (s : σ), 0 < n → (RandomSource.below n s).1 < n

/-- A source that gives listed words in turn, and the greatest word for ever after. -/
structure Script where
  words : List Word
  deriving DecidableEq, Repr

namespace Script

def draw : Script → Word × Script
  | ⟨[]⟩ => (Word.greatest, ⟨[]⟩)
  | ⟨w :: rest⟩ => (w, ⟨rest⟩)

def product (x n : Word) : Nat × Nat :=
  (x.toNat * n.toNat / UInt64.size, x.toNat * n.toNat % UInt64.size)

/-- Scale draws to a bound by the upper word of their product with it.  A draw whose lower word is
below `2 ^ 64` modulo the bound is dropped, which makes all results equally frequent; the greatest
word never is. -/
def scaled (n : Word) : List Word → Word × Script
  | [] => (.ofNat (product Word.greatest n).1, ⟨[]⟩)
  | w :: rest =>
      if (product w n).2 < UInt64.size % n.toNat then scaled n rest
      else (.ofNat (product w n).1, ⟨rest⟩)

def drawBelow (n : Word) (s : Script) : Word × Script :=
  if n &&& (n - 1) = 0 then
    let (w, s) := s.draw
    (w &&& (n - 1), s)
  else scaled n s.words

theorem upper_lt {x n : Word} (h : 0 < n) : UInt64.ofNat (product x n).1 < n := by
  have positive : 0 < n.toNat := h
  have bound : (product x n).1 < n.toNat := by
    rw [product, Nat.div_lt_iff_lt_mul (by decide), Nat.mul_comm]
    exact Nat.mul_lt_mul_of_pos_left x.toNat_lt positive
  rw [UInt64.lt_iff_toNat_lt, UInt64.toNat_ofNat_of_lt' (Nat.lt_trans bound n.toNat_lt)]
  exact bound

theorem scaled_lt {n : Word} (h : 0 < n) (words : List Word) : (scaled n words).1 < n := by
  induction words with
  | nil => exact upper_lt h
  | cons w rest ih =>
      unfold scaled
      split
      · exact ih
      · exact upper_lt h

theorem drawBelow_lt {n : Word} (h : 0 < n) (s : Script) : (s.drawBelow n).1 < n := by
  unfold drawBelow
  split
  · have positive : 0 < n.toNat := h
    have masked : (s.draw.1 &&& (n - 1)).toNat ≤ (n - 1).toNat := by
      rw [UInt64.toNat_and]
      exact Nat.and_le_right
    have less : (n - 1).toNat = n.toNat - 1 := UInt64.toNat_sub_of_le n 1 positive
    rw [UInt64.lt_iff_toNat_lt]
    exact Nat.lt_of_le_of_lt masked (by omega)
  · exact scaled_lt h s.words

end Script

instance : RandomSource Script where
  word := Script.draw
  below := Script.drawBelow

instance : LawfulRandomSource Script where
  below_lt _ s h := Script.drawBelow_lt h s

instance : RandomSource StdGen where
  word g :=
    let (n, g) := randNat g 0 (UInt64.size - 1)
    (.ofNat n, g)
  below bound g :=
    let (n, g) := randNat g 0 (bound.toNat - 1)
    (.ofNat n, g)

end WordMachine
