import WordMachine.Proofs.Assembly.Cursor
import WordMachine.Proofs.Image
import Mathlib.Data.List.Induction

/-!
# The last writer wins

The image of a list of lines, word by word: each word is that of the last instruction whose block
covers its address.  Blocks may overlap in any way, since a base can lie anywhere.  An image comes
about exactly if every base gives an address, every instruction has a block and every block fits.
-/

namespace WordMachine

open Results

/-- Line number `k` is an instruction, and the lines before it lead up to the address `c`. -/
def PlacedAt (d : Dialect) (lines : List Line) (k : Nat) (statement : Statement) (c : Nat) : Prop :=
  lines[k]? = some (.instruction statement) ∧ address? d (lines.take k) = some c

/-- Line number `k` is an instruction with the address `a` among its four. -/
def Covers (d : Dialect) (lines : List Line) (k a : Nat) : Prop :=
  ∃ statement c, PlacedAt d lines k statement c ∧ c ≤ a ∧ a < c + 4

section Placing

variable {d : Dialect} {lines : List Line} {line : Line} {k c a : Nat} {statement : Statement}

theorem PlacedAt.lt_length (h : PlacedAt d lines k statement c) : k < lines.length :=
  (List.getElem?_eq_some_iff.1 h.1).1

theorem placedAt_append_iff (more : List Line) (h : k < lines.length) :
    PlacedAt d (lines ++ more) k statement c ↔ PlacedAt d lines k statement c := by
  unfold PlacedAt
  rw [List.getElem?_append_left h, List.take_append_of_le_length (by omega)]

theorem placedAt_length_iff :
    PlacedAt d (lines ++ [line]) lines.length statement c ↔
      line = .instruction statement ∧ address? d lines = some c := by
  unfold PlacedAt
  rw [List.getElem?_concat_length, List.take_left, Option.some.injEq]

theorem Covers.lt_length (h : Covers d lines k a) : k < lines.length := by
  obtain ⟨_, _, placed, _⟩ := h
  exact placed.lt_length

theorem covers_append_iff (more : List Line) (h : k < lines.length) :
    Covers d (lines ++ more) k a ↔ Covers d lines k a := by
  unfold Covers
  simp only [placedAt_append_iff more h]

theorem covers_length (address : address? d lines = some c) (lower : c ≤ a) (upper : a < c + 4) :
    Covers d (lines ++ [.instruction statement]) lines.length a :=
  ⟨statement, c, placedAt_length_iff.2 ⟨rfl, address⟩, lower, upper⟩

end Placing

/-! ## Words of the image -/

section Words

variable {d : Dialect} {labels : Labels} {s t : Pass Image} {line : Line} {lines : List Line}

/-- A step writes the word at an address, or leaves it and is no instruction that covers it. -/
theorem imageStep_wordAt (h : Pass.step d (Placed.emit labels) s line = .ok t) (a : Nat) :
    (∃ statement block, line = .instruction statement ∧ statement.encode labels = .ok block ∧
      s.cursor.toNat ≤ a ∧ a < s.cursor.toNat + 4 ∧
      block.words[a - s.cursor.toNat]? = some (t.made.wordAt a)) ∨
    ((∀ statement, line = .instruction statement →
      ¬ (s.cursor.toNat ≤ a ∧ a < s.cursor.toNat + 4)) ∧ t.made.wordAt a = s.made.wordAt a) := by
  cases imageStep_cases h with
  | pass passive =>
      refine .inr ⟨?_, rfl⟩
      rintro statement rfl
      cases passive
  | base address => exact .inr ⟨by simp, rfl⟩
  | put fits encoded =>
      rename_i statement block
      by_cases inside : s.cursor.toNat ≤ a ∧ a < s.cursor.toNat + 4
      · have written := Image.wordAt_place_inside s.made ⟨s.cursor, block, fits⟩ inside.1 inside.2
        exact .inl ⟨statement, block, rfl, encoded, inside.1, inside.2, written⟩
      · have kept := Image.wordAt_place_outside s.made ⟨s.cursor, block, fits⟩ inside
        exact .inr ⟨fun _ _ => inside, kept⟩

theorem wordAt_imagePass_of_last (h : imagePass d labels lines = .ok s) {a k c : Nat}
    {statement : Statement} (placed : PlacedAt d lines k statement c) (lower : c ≤ a)
    (upper : a < c + 4) (last : ∀ j, k < j → ¬ Covers d lines j a) :
    ∃ block, statement.encode labels = .ok block ∧
      block.words[a - c]? = some (s.made.wordAt a) := by
  induction lines using List.reverseRecOn generalizing s with
  | nil => exact absurd placed.lt_length (Nat.not_lt_zero k)
  | append_singleton lines line ih =>
      obtain ⟨t, before, final⟩ := Pass.run_append_eq_ok_iff.1 h
      rw [Pass.run_singleton] at final
      have address := imagePass_address before
      have bound := placed.lt_length
      rw [List.length_append, List.length_singleton] at bound
      rcases Nat.lt_or_eq_of_le (Nat.le_of_lt_succ bound) with earlier | rfl
      · -- The last line comes later, so it does not cover the address.
        rw [placedAt_append_iff _ earlier] at placed
        have not_last : ¬ Covers d (lines ++ [line]) lines.length a := last _ earlier
        have kept : s.made.wordAt a = t.made.wordAt a := by
          rcases imageStep_wordAt final a with ⟨_, _, rfl, _, low, high, _⟩ | ⟨_, kept⟩
          · exact absurd (covers_length address low high) not_last
          · exact kept
        rw [kept]
        apply ih before placed
        intro j later covers
        exact last j later ((covers_append_iff _ covers.lt_length).2 covers)
      · obtain ⟨rfl, same⟩ := placedAt_length_iff.1 placed
        rw [address, Option.some.injEq] at same
        subst same
        rcases imageStep_wordAt final a with ⟨_, block, same, encoded, _, _, written⟩ | ⟨outside, _⟩
        · cases same
          exact ⟨block, encoded, written⟩
        · exact absurd ⟨lower, upper⟩ (outside statement rfl)

theorem wordAt_imagePass_of_uncovered (h : imagePass d labels lines = .ok s) {a : Nat}
    (uncovered : ∀ k, ¬ Covers d lines k a) : s.made.wordAt a = 0 := by
  induction lines using List.reverseRecOn generalizing s with
  | nil =>
      cases h
      exact Image.wordAt_zero a
  | append_singleton lines line ih =>
      obtain ⟨t, before, final⟩ := Pass.run_append_eq_ok_iff.1 h
      rw [Pass.run_singleton] at final
      have earlier : ∀ k, ¬ Covers d lines k a := by
        intro k covers
        exact uncovered k ((covers_append_iff _ covers.lt_length).2 covers)
      rcases imageStep_wordAt final a with ⟨_, _, rfl, _, low, high, _⟩ | ⟨_, kept⟩
      · exact absurd (covers_length (imagePass_address before) low high) (uncovered lines.length)
      · rw [kept, ih before earlier]

end Words

/-! ## When an image comes about -/

section Success

variable {d : Dialect} {labels : Labels} {lines : List Line}

theorem imageStep_succeeds {s : Pass Image} {line : Line}
    (base : ∀ args position, line = .specifier baseName args position →
      (baseAddress? d args).isSome)
    (block : ∀ statement, line = .instruction statement →
      ∃ block, statement.encode labels = .ok block)
    (fits : ∀ statement, line = .instruction statement → s.cursor.toNat + 4 ≤ memorySize) :
    ∃ t, Pass.step d (Placed.emit labels) s line = .ok t := by
  cases line with
  | label name position => exact ⟨s, imageStep_of_isPassive rfl⟩
  | specifier name args position =>
      by_cases named : name = baseName
      · subst named
        obtain ⟨n, address⟩ := Option.isSome_iff_exists.1 (base args position rfl)
        obtain ⟨-, -, -, -, bound, -⟩ := baseAddress?_eq_some_iff.1 address
        refine ⟨⟨.ofNat n, s.made⟩, imageStep_base_eq_ok_iff.2 ⟨?_, rfl⟩⟩
        rw [address, UInt64.toNat_ofNat_of_lt' bound]
      · exact ⟨s, imageStep_of_isPassive (by simpa [Line.isPassive] using named)⟩
  | instruction statement =>
      obtain ⟨b, encoded⟩ := block statement rfl
      exact ⟨_, imageStep_instruction_eq_ok_iff.2 ⟨b, fits statement rfl, encoded, rfl⟩⟩

theorem imageRun_succeeds {s : Pass Image}
    (bases : ∀ args position, .specifier baseName args position ∈ lines →
      (baseAddress? d args).isSome)
    (blocks : ∀ statement, .instruction statement ∈ lines →
      ∃ block, statement.encode labels = .ok block)
    (fits : ∀ k statement c, lines[k]? = some (.instruction statement) →
      addressFrom d s.cursor.toNat (lines.take k) = some c → c + 4 ≤ memorySize) :
    ∃ t, Pass.run d (Placed.emit labels) s lines = .ok t := by
  induction lines generalizing s with
  | nil => exact ⟨s, rfl⟩
  | cons line rest ih =>
      obtain ⟨u, met⟩ : ∃ u, Pass.step d (Placed.emit labels) s line = .ok u := by
        apply imageStep_succeeds
        · rintro args position rfl
          exact bases args position List.mem_cons_self
        · rintro statement rfl
          exact blocks statement List.mem_cons_self
        · rintro statement rfl
          exact fits 0 statement _ rfl rfl
      have later : ∀ k statement c, rest[k]? = some (.instruction statement) →
          addressFrom d u.cursor.toNat (rest.take k) = some c → c + 4 ≤ memorySize := by
        intro k statement c at_k address
        apply fits (k + 1) statement c at_k
        rw [List.take_succ_cons, addressFrom, List.foldlM_cons, imageStep_address met]
        exact address
      obtain ⟨t, went_on⟩ := ih (fun args position member => bases args position (.tail _ member))
        (fun statement member => blocks statement (.tail _ member)) later
      exact ⟨t, Pass.run_cons_eq_ok_iff.2 ⟨u, met, went_on⟩⟩

theorem imagePass_succeeds_iff :
    (∃ s, imagePass d labels lines = .ok s) ↔
      (∀ args position, .specifier baseName args position ∈ lines →
        (baseAddress? d args).isSome) ∧
      (∀ statement, .instruction statement ∈ lines →
        ∃ block, statement.encode labels = .ok block) ∧
      (∀ k statement c, PlacedAt d lines k statement c → c + 4 ≤ memorySize) := by
  constructor
  · rintro ⟨s, run⟩
    refine ⟨?_, ?_, ?_⟩
    · intro args position member
      exact Pass.baseAddress?_of_run run member
    · intro statement member
      obtain ⟨k, at_k⟩ := List.getElem?_of_mem member
      obtain ⟨u, v, -, met, -⟩ := Pass.step_of_run run at_k
      obtain ⟨block, -, encoded, -⟩ := imageStep_instruction_eq_ok_iff.1 met
      exact ⟨block, encoded⟩
    · rintro k statement c ⟨at_k, address⟩
      obtain ⟨u, v, before, met, -⟩ := Pass.step_of_run run at_k
      obtain ⟨-, fits, -, -⟩ := imageStep_instruction_eq_ok_iff.1 met
      rw [imagePass_address before, Option.some.injEq] at address
      exact address ▸ fits
  · rintro ⟨bases, blocks, fits⟩
    exact imageRun_succeeds bases blocks fun k statement c at_k address =>
      fits k statement c ⟨at_k, address⟩

theorem imageRun_filter (s : Pass Image) :
    Pass.run d (Placed.emit labels) s (lines.filter (!·.isPassive)) =
      Pass.run d (Placed.emit labels) s lines := by
  induction lines generalizing s with
  | nil => rfl
  | cons line rest ih =>
      cases passive : line.isPassive with
      | true =>
          rw [List.filter_cons_of_neg (by simp [passive]), ih, Pass.run_cons,
            imageStep_of_isPassive passive]
          rfl
      | false =>
          rw [List.filter_cons_of_pos (by simp [passive]), Pass.run_cons, Pass.run_cons]
          congr 1
          funext t
          exact ih t

end Success

/-- An image comes about exactly if every base gives an address, every instruction has a block and
every block fits.  Each of its words is then that of the last instruction covering the address, or
zero, and lines that are neither bases nor instructions do not matter. -/
theorem Image.ofLines_last_writer_wins (d : Dialect) (labels : Labels) (lines : List Line) :
    ((∃ image, Image.ofLines d labels lines = .ok image) ↔
      (∀ args position, .specifier baseName args position ∈ lines →
        (baseAddress? d args).isSome) ∧
      (∀ statement, .instruction statement ∈ lines →
        ∃ block, statement.encode labels = .ok block) ∧
      (∀ k statement c, PlacedAt d lines k statement c → c + 4 ≤ memorySize)) ∧
    (∀ image, Image.ofLines d labels lines = .ok image →
      image.words.toList.length = memorySize ∧
      ∀ a : Word,
        (∀ k statement c, PlacedAt d lines k statement c → c ≤ a.toNat → a.toNat < c + 4 →
          (∀ j, k < j → ¬ Covers d lines j a.toNat) →
          ∃ block, statement.encode labels = .ok block ∧
            block.words[a.toNat - c]? = some (image.word a)) ∧
        ((∀ k, ¬ Covers d lines k a.toNat) → image.word a = 0)) ∧
    Image.ofLines d labels (lines.filter (!·.isPassive)) = Image.ofLines d labels lines := by
  simp only [Image.ofLines_eq_imagePass, map_eq_ok_iff]
  refine ⟨?_, ?_, ?_⟩
  · rw [← imagePass_succeeds_iff]
    exact ⟨fun ⟨_, s, run, _⟩ => ⟨s, run⟩, fun ⟨s, run⟩ => ⟨s.made, s, run, rfl⟩⟩
  · rintro _ ⟨s, run, rfl⟩
    refine ⟨Vector.length_toList, ?_⟩
    intro a
    rw [Image.word_eq_wordAt]
    refine ⟨?_, ?_⟩
    · intro k statement c placed lower upper last
      exact wordAt_imagePass_of_last run placed lower upper last
    · intro uncovered
      exact wordAt_imagePass_of_uncovered run uncovered
  · unfold imagePass
    rw [imageRun_filter]

end WordMachine
