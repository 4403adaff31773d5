import WordMachine.Listing
import Mathlib.Data.List.Basic

/-!
# What a sweep finds

A sweep finds exactly the full blocks of a list of words that are not all zero, each at its address,
in ascending order.
-/

namespace WordMachine

/-- Block number `k` of a list of words, if the words fill it. -/
def blockAt? (words : List Word) (k : Nat) : Option Block := do
  let control ← words[4 * k]?
  let a ← words[4 * k + 1]?
  let b ← words[4 * k + 2]?
  let c ← words[4 * k + 3]?
  return ⟨control, a, b, c⟩

theorem blockAt?_eq_some_iff {words : List Word} {k : Nat} {block : Block} :
    blockAt? words k = some block ↔
      words[4 * k]? = some block.control ∧ words[4 * k + 1]? = some block.a ∧
        words[4 * k + 2]? = some block.b ∧ words[4 * k + 3]? = some block.c := by
  obtain ⟨control, a, b, c⟩ := block
  simp [blockAt?, Option.bind_eq_some_iff]

theorem blockAt?_bound {words : List Word} {k : Nat} {block : Block}
    (h : blockAt? words k = some block) : 4 * k + 4 ≤ words.length := by
  have last := (blockAt?_eq_some_iff.1 h).2.2.2
  have bound := (List.getElem?_eq_some_iff.1 last).1
  omega

theorem length_lt_of_short {words : List Word}
    (short : ∀ control a b c rest, words = control :: a :: b :: c :: rest → False) :
    words.length < 4 := by
  rcases words with _ | ⟨control, _ | ⟨a, _ | ⟨b, _ | ⟨c, rest⟩⟩⟩⟩
  · simp
  · simp
  · simp
  · simp
  · exact (short control a b c rest rfl).elim

/-- What a sweep that starts at an address finds as block number `k`: nothing where the words do not
fill the block, or where it is all zero. -/
def sweptAt? (start : Word) (words : List Word) (k : Nat) : Option SweptBlock :=
  (blockAt? words k).bind fun block =>
    if block = .zero then none else some ⟨start + .ofNat (4 * k), block⟩

theorem sweptAt?_eq_some_iff {start : Word} {words : List Word} {k : Nat} {x : SweptBlock} :
    sweptAt? start words k = some x ↔
      blockAt? words k = some x.block ∧ x.block ≠ .zero ∧ x.address = start + .ofNat (4 * k) := by
  obtain ⟨address, found⟩ := x
  unfold sweptAt?
  cases blockAt? words k with
  | none => simp
  | some block =>
      rw [Option.bind_some, Option.some.injEq]
      by_cases zero : block = .zero
      · rw [if_pos zero]
        simp only [reduceCtorEq, false_iff]
        intro h
        exact h.2.1 (h.1.symm.trans zero)
      · rw [if_neg zero, Option.some.injEq, SweptBlock.mk.injEq]
        constructor
        · rintro ⟨rfl, rfl⟩
          exact ⟨rfl, zero, rfl⟩
        · rintro ⟨rfl, -, rfl⟩
          exact ⟨rfl, rfl⟩

theorem sweptAt?_of_length_lt {words : List Word} {k : Nat} (beyond : words.length < 4 * k + 4)
    (start : Word) : sweptAt? start words k = none := by
  cases found : sweptAt? start words k with
  | none => rfl
  | some x =>
      have bound := blockAt?_bound (sweptAt?_eq_some_iff.1 found).1
      omega

theorem sweptAt?_succ (start control a b c : Word) (rest : List Word) (k : Nat) :
    sweptAt? start (control :: a :: b :: c :: rest) (k + 1) = sweptAt? (start + 4) rest k := by
  have address : start + .ofNat (4 * (k + 1)) = start + 4 + .ofNat (4 * k) := by
    rw [show 4 * (k + 1) = 4 + 4 * k by omega, UInt64.ofNat_add, ← UInt64.add_assoc]
    rfl
  rw [sweptAt?, address]
  rfl

theorem sweepFrom_eq_filterMap (done : List SweptBlock) (start : Word) (words : List Word) :
    ∀ n, words.length / 4 ≤ n → sweepFrom done start words =
      done.reverse ++ (List.range n).filterMap (sweptAt? start words) := by
  fun_induction sweepFrom done start words with
  | case1 done start control a b c rest block ih =>
      intro n enough
      simp only [List.length_cons] at enough
      cases n with
      | zero => omega
      | succ n =>
          have first : sweptAt? start (control :: a :: b :: c :: rest) 0 =
              if block = .zero then none else some ⟨start, block⟩ := by
            have here : start + UInt64.ofNat (4 * 0) = start := UInt64.add_zero start
            rw [sweptAt?, here]
            rfl
          rw [ih n (by omega), List.range_succ_eq_map, List.filterMap_cons, first,
            List.filterMap_map]
          simp only [Function.comp_def, sweptAt?_succ]
          split <;> simp
  | case2 words done start short =>
      intro n _
      have few := length_lt_of_short short
      have nothing : (List.range n).filterMap (sweptAt? start words) = [] := by
        rw [List.filterMap_eq_nil_iff]
        intro k _
        exact sweptAt?_of_length_lt (by omega) start
      rw [nothing, List.append_nil]

/-- A sweep finds the blocks of a list one after another, as many as the words fill. -/
theorem sweep_eq_filterMap {words : List Word} {n : Nat} (enough : words.length / 4 ≤ n) :
    sweep words = (List.range n).filterMap (sweptAt? 0 words) :=
  sweepFrom_eq_filterMap [] 0 words n enough

theorem mem_sweep {words : List Word} {x : SweptBlock} :
    x ∈ sweep words ↔
      ∃ k, blockAt? words k = some x.block ∧ x.address = .ofNat (4 * k) ∧ x.block ≠ .zero := by
  rw [sweep_eq_filterMap (Nat.le_refl _), List.mem_filterMap]
  simp only [sweptAt?_eq_some_iff, UInt64.zero_add, List.mem_range]
  constructor
  · rintro ⟨k, -, found, nonzero, at_address⟩
    exact ⟨k, found, at_address, nonzero⟩
  · rintro ⟨k, found, at_address, nonzero⟩
    have bound := blockAt?_bound found
    exact ⟨k, by omega, found, nonzero, at_address⟩

theorem sweep_ascending {words : List Word} (bound : words.length ≤ UInt64.size) :
    (sweep words).Pairwise (·.address.toNat < ·.address.toNat) := by
  rw [sweep_eq_filterMap (Nat.le_refl _), List.pairwise_filterMap]
  apply List.Pairwise.imp _ List.pairwise_lt_range
  intro i j before x first y second
  rcases sweptAt?_eq_some_iff.1 first with ⟨found, -, at_first⟩
  rcases sweptAt?_eq_some_iff.1 second with ⟨found', -, at_second⟩
  have inside := blockAt?_bound found
  have inside' := blockAt?_bound found'
  rw [at_first, at_second, UInt64.zero_add, UInt64.zero_add,
    UInt64.toNat_ofNat_of_lt' (by omega), UInt64.toNat_ofNat_of_lt' (by omega)]
  omega

end WordMachine
