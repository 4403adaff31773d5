import WordMachine.Word
import Mathlib.Data.List.Basic

/-!
# Placing blocks

Placing a block changes the four words from its address on and no other.  An image is determined by
its words, and as well by its blocks at the multiples of four.
-/

namespace WordMachine.Image

/-- The word at an address given by a natural number; zero beyond the image. -/
def wordAt (image : Image) (n : Nat) : Word :=
  image.words[n]?.getD 0

theorem word_eq_wordAt (image : Image) (a : Word) : image.word a = image.wordAt a.toNat := rfl

theorem ext_wordAt {x y : Image} (h : ∀ n, n < memorySize → x.wordAt n = y.wordAt n) : x = y := by
  obtain ⟨xs⟩ := x
  obtain ⟨ys⟩ := y
  congr 1
  apply Vector.ext
  intro n bound
  have same := h n bound
  unfold wordAt at same
  rw [Vector.getElem?_eq_getElem bound, Vector.getElem?_eq_getElem bound] at same
  exact same

@[simp] theorem wordAt_zero (n : Nat) : zero.wordAt n = 0 := by
  unfold wordAt zero
  rw [Vector.getElem?_replicate]
  split <;> rfl

/-! ## One placement -/

theorem wordAt_place (image : Image) (p : Placement) (n : Nat) :
    (image.place p).wordAt n =
      if n = p.address.toNat then p.block.control
      else if n = p.address.toNat + 1 then p.block.a
      else if n = p.address.toNat + 2 then p.block.b
      else if n = p.address.toNat + 3 then p.block.c
      else image.wordAt n := by
  unfold wordAt place
  simp only [Vector.getElem?_set]
  by_cases first : n = p.address.toNat
  · simp [first]
  · by_cases second : n = p.address.toNat + 1
    · simp [second]
    · by_cases third : n = p.address.toNat + 2
      · simp [third]
      · by_cases fourth : n = p.address.toNat + 3
        · simp [fourth]
        · simp [first, second, third, fourth, eq_comm]

theorem wordAt_place_inside (image : Image) (p : Placement) {n : Nat}
    (lower : p.address.toNat ≤ n) (upper : n < p.address.toNat + 4) :
    p.block.words[n - p.address.toNat]? = some ((image.place p).wordAt n) := by
  obtain ⟨k, rfl⟩ := Nat.exists_eq_add_of_le lower
  have bound : k < 4 := by omega
  rw [wordAt_place, Nat.add_sub_cancel_left]
  match k, bound with
  | 0, _ => simp [Block.words]
  | 1, _ => simp [Block.words]
  | 2, _ => simp [Block.words]
  | 3, _ => simp [Block.words]

theorem wordAt_place_outside (image : Image) (p : Placement) {n : Nat}
    (outside : ¬ (p.address.toNat ≤ n ∧ n < p.address.toNat + 4)) :
    (image.place p).wordAt n = image.wordAt n := by
  rw [wordAt_place, if_neg (by omega), if_neg (by omega), if_neg (by omega), if_neg (by omega)]

/-! ## Aligned blocks -/

def block (image : Image) (k : Nat) : Block :=
  ⟨image.wordAt (4 * k), image.wordAt (4 * k + 1), image.wordAt (4 * k + 2),
    image.wordAt (4 * k + 3)⟩

@[simp] theorem block_zero (k : Nat) : zero.block k = .zero := by
  simp [block, Block.zero]

theorem block_of_le (image : Image) {k : Nat} (beyond : memorySize ≤ 4 * k) :
    image.block k = .zero := by
  have zero (i : Nat) : image.wordAt (4 * k + i) = 0 := by
    rw [wordAt, Vector.getElem?_eq_none (by omega)]
    rfl
  have first := zero 0
  rw [Nat.add_zero] at first
  rw [block, first, zero 1, zero 2, zero 3, Block.zero]

theorem ext_block {x y : Image} (h : ∀ k, 4 * k < memorySize → x.block k = y.block k) : x = y := by
  apply ext_wordAt
  intro n bound
  have same := h (n / 4) (by omega)
  simp only [block, Block.mk.injEq] at same
  obtain ⟨first, second, third, fourth⟩ := same
  have remainder : n = 4 * (n / 4) ∨ n = 4 * (n / 4) + 1 ∨ n = 4 * (n / 4) + 2 ∨
      n = 4 * (n / 4) + 3 := by
    omega
  rcases remainder with slot | slot | slot | slot <;> rw [slot] <;> assumption

/-- A block placed at a multiple of four replaces one block and keeps the others. -/
theorem block_place (image : Image) (p : Placement) {m : Nat} (aligned : p.address.toNat = 4 * m)
    (k : Nat) : (image.place p).block k = if k = m then p.block else image.block k := by
  by_cases same : k = m
  · subst same
    simp [block, wordAt_place, aligned]
  · have kept : ∀ i, i < 4 → (image.place p).wordAt (4 * k + i) = image.wordAt (4 * k + i) := by
      intro i bound
      apply wordAt_place_outside
      omega
    rw [if_neg same, block, block, kept 1 (by decide), kept 2 (by decide), kept 3 (by decide)]
    rw [show 4 * k = 4 * k + 0 from rfl, kept 0 (by decide)]

end WordMachine.Image
