import WordMachine.Proofs.Listing.Sweep
import WordMachine.Proofs.Validity

/-!
# Rebuilding words from a sweep

A sweep keeps all there is in the full blocks of a list of words.  Its entries stand for the blocks
that are not all zero, one for each and in their order, and every entry is encoded as the block it
was read from, valid or not.  Written into zeros, the entries give the words back up to the last
full block.
-/

namespace WordMachine

/-! ## Full blocks -/

theorem exists_blockAt? {words : List Word} {k : Nat} (full : 4 * k + 4 ≤ words.length) :
    ∃ block, blockAt? words k = some block := by
  have at_offset (i : Nat) (h : i < 4) : ∃ w, words[4 * k + i]? = some w :=
    ⟨_, List.getElem?_eq_getElem (by omega)⟩
  rcases at_offset 0 (by omega) with ⟨control, first⟩
  rcases at_offset 1 (by omega) with ⟨a, second⟩
  rcases at_offset 2 (by omega) with ⟨b, third⟩
  rcases at_offset 3 (by omega) with ⟨c, fourth⟩
  exact ⟨⟨control, a, b, c⟩, blockAt?_eq_some_iff.2 ⟨first, second, third, fourth⟩⟩

theorem take_blockAt? {words : List Word} {k : Nat} {block : Block}
    (found : blockAt? words k = some block) :
    words.take (4 * (k + 1)) = words.take (4 * k) ++ block.words := by
  rcases blockAt?_eq_some_iff.1 found with ⟨first, second, third, fourth⟩
  rw [show 4 * (k + 1) = 4 * k + 1 + 1 + 1 + 1 by omega]
  simp only [List.take_add_one, first, second, third, fourth, Option.toList_some,
    List.append_assoc]
  rfl

/-! ## Entries -/

namespace SweptBlock

/-- An entry of a sweep is the one for block number `k` of some words. -/
structure Records (words : List Word) (k : Nat) (x : SweptBlock) : Prop where
  address : x.address = .ofNat (4 * k)
  block : blockAt? words k = some x.block
  encode : x.instruction.encode = x.block
  valid : ∀ op, x.validate = .ok op ↔ (Instruction.decode x.block).Valid op

theorem records_of_sweptAt? {words : List Word} {k : Nat} {x : SweptBlock}
    (found : sweptAt? 0 words k = some x) : x.Records words k := by
  rcases sweptAt?_eq_some_iff.1 found with ⟨block, -, address⟩
  constructor
  · rw [address, UInt64.zero_add]
  · exact block
  · exact Instruction.encode_decode x.block
  · intro op
    exact Instruction.validate_eq_ok_iff

/-- Write the instruction of an entry into words, at its address. -/
def writeInto (words : List Word) (x : SweptBlock) : List Word :=
  words.take x.address.toNat ++ x.instruction.encode.words ++ words.drop (x.address.toNat + 4)

end SweptBlock

/-- As many zeros as a number says, with entries written into them one after another. -/
def rebuilt (n : Nat) (entries : List SweptBlock) : List Word :=
  entries.foldl SweptBlock.writeInto (List.replicate n 0)

theorem forall₂_filter_filterMap {α β : Type} {f : α → Option β} {r : α → β → Prop}
    (each : ∀ a b, f a = some b → r a b) (xs : List α) :
    List.Forall₂ r (xs.filter fun a => (f a).isSome) (xs.filterMap f) := by
  induction xs with
  | nil => exact .nil
  | cons a xs ih =>
      cases found : f a with
      | none => simpa [found] using ih
      | some b => simpa [found] using ⟨each a b found, ih⟩

/-! ## Writing back -/

section Rebuild

variable {words : List Word} {m : Nat}

theorem writeInto_sweptAt? {k : Nat} (within : k < m) (full : 4 * m ≤ words.length)
    (addressable : words.length ≤ UInt64.size) :
    (sweptAt? 0 words k).toList.foldl SweptBlock.writeInto
        (words.take (4 * k) ++ List.replicate (4 * (m - k)) 0) =
      words.take (4 * (k + 1)) ++ List.replicate (4 * (m - (k + 1))) 0 := by
  have inside : 4 * k + 4 ≤ words.length := by
    omega
  rcases exists_blockAt? inside with ⟨block, found⟩
  have before : (words.take (4 * k)).length = 4 * k := by
    rw [List.length_take]
    omega
  have zeros : List.replicate (4 * (m - k)) (0 : Word) =
      Block.zero.words ++ List.replicate (4 * (m - (k + 1))) 0 := by
    rw [show 4 * (m - k) = 4 + 4 * (m - (k + 1)) by omega, List.replicate_add]
    rfl
  rw [take_blockAt? found, List.append_assoc, zeros]
  by_cases zero : block = .zero
  · have nothing : sweptAt? 0 words k = none := by
      rw [sweptAt?, found, Option.bind_some, if_pos zero]
    rw [nothing, zero]
    rfl
  · have swept : sweptAt? 0 words k = some ⟨.ofNat (4 * k), block⟩ :=
      sweptAt?_eq_some_iff.2 ⟨found, zero, (UInt64.zero_add _).symm⟩
    have address : (UInt64.ofNat (4 * k)).toNat = 4 * k :=
      UInt64.toNat_ofNat_of_lt' (by omega)
    rw [swept, Option.toList_some, List.foldl_cons, List.foldl_nil, SweptBlock.writeInto, address,
      SweptBlock.instruction, Instruction.encode_decode, List.take_left' before,
      ← List.drop_drop, List.drop_left' before, List.append_assoc]
    rfl

/-- The loop over the block numbers: after `k` of them, the first `k` blocks stand and all behind
them is zero. -/
theorem rebuilt_blocks {k : Nat} (within : k ≤ m) (full : 4 * m ≤ words.length)
    (addressable : words.length ≤ UInt64.size) :
    rebuilt (4 * m) ((List.range k).filterMap (sweptAt? 0 words)) =
      words.take (4 * k) ++ List.replicate (4 * (m - k)) 0 := by
  induction k with
  | zero => rfl
  | succ k ih =>
      have last : [k].filterMap (sweptAt? 0 words) = (sweptAt? 0 words k).toList := by
        cases found : sweptAt? 0 words k <;> simp [found]
      rw [← writeInto_sweptAt? within full addressable, ← ih (by omega), List.range_succ,
        List.filterMap_append, last]
      exact List.foldl_append

end Rebuild

/-- A sweep is exact and loses nothing.  Its entries record the full blocks that are not all zero,
one for each and in their order.  Where the addresses of all words are words themselves, the
addresses of the entries ascend, and the entries written into zeros give the words back up to the
last full block. -/
theorem sweep_is_exact_and_lossless (words : List Word) :
    (∃ numbers : List Nat, numbers.Pairwise (· < ·) ∧
      (∀ k, k ∈ numbers ↔ ∃ block, blockAt? words k = some block ∧ block ≠ .zero) ∧
      List.Forall₂ (fun k x => x.Records words k) numbers (sweep words)) ∧
    (words.length ≤ UInt64.size →
      (sweep words).Pairwise (·.address < ·.address) ∧
        rebuilt (4 * (words.length / 4)) (sweep words) = words.take (4 * (words.length / 4))) := by
  constructor
  · refine ⟨(List.range (words.length / 4)).filter fun k => (sweptAt? 0 words k).isSome, ?_, ?_, ?_⟩
    · exact List.Pairwise.filter _ List.pairwise_lt_range
    · intro k
      rw [List.mem_filter, List.mem_range, Option.isSome_iff_exists]
      simp only [sweptAt?_eq_some_iff]
      constructor
      · rintro ⟨-, x, found, nonzero, -⟩
        exact ⟨x.block, found, nonzero⟩
      · rintro ⟨block, found, nonzero⟩
        have bound := blockAt?_bound found
        exact ⟨by omega, ⟨0 + .ofNat (4 * k), block⟩, found, nonzero, rfl⟩
    · rw [sweep_eq_filterMap (Nat.le_refl _)]
      exact forall₂_filter_filterMap (fun k x => SweptBlock.records_of_sweptAt?) _
  · intro addressable
    constructor
    · exact (sweep_ascending addressable).imp UInt64.lt_iff_toNat_lt.2
    · rw [sweep_eq_filterMap (Nat.le_refl _), rebuilt_blocks (Nat.le_refl _) (by omega) addressable,
        Nat.sub_self]
      exact List.append_nil _

/-- An unused block, a block without an opcode, and a word that fills no block. -/
def sparseWords : List Word := [0, 0, 0, 0, 0xff00000000, 1, 2, 3, 9]

theorem sparse_words_rebuilt :
    sparseWords.length ≤ UInt64.size ∧
      (sweep sparseWords).Pairwise (·.address < ·.address) ∧
      rebuilt 8 (sweep sparseWords) = [0, 0, 0, 0, 0xff00000000, 1, 2, 3] := by
  have addressable : sparseWords.length ≤ UInt64.size := by decide
  exact ⟨addressable, (sweep_is_exact_and_lossless sparseWords).2 addressable⟩

end WordMachine
