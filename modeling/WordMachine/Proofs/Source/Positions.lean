import WordMachine.Source.Scanner

/-!
# Positions

The line of a place is one more than the line feeds before it, and its column counts from the last
of them.  Counting lines on from an offset that has been reached already gives the same position.
-/

namespace WordMachine

/-! ## Where a line begins -/

/-- The line that some bytes end in begins at an offset: after the last line feed, or at zero if
there is none. -/
structure LineBegins (before : Bytes) (k : Nat) : Prop where
  inside : k ≤ before.length
  after_feed : k = 0 ∨ before[k - 1]? = some Ascii.lineFeed
  no_feed : Ascii.lineFeed ∉ before.drop k

namespace LineBegins

variable {before : Bytes} {k : Nat}

theorem nil : LineBegins [] 0 :=
  ⟨Nat.le_refl 0, .inl rfl, List.not_mem_nil⟩

theorem feed (before : Bytes) : LineBegins (before ++ [Ascii.lineFeed]) (before.length + 1) := by
  constructor
  · simp
  · right
    simp
  · rw [List.drop_eq_nil_of_le (by simp)]
    exact List.not_mem_nil

theorem other {b : UInt8} (h : LineBegins before k) (no_feed : b ≠ Ascii.lineFeed) :
    LineBegins (before ++ [b]) k := by
  have inside := h.inside
  constructor
  · rw [List.length_append]
    omega
  · cases h.after_feed with
    | inl start => exact .inl start
    | inr fed =>
        right
        have bound := (List.getElem?_eq_some_iff.1 fed).1
        rw [List.getElem?_append_left bound, fed]
  · rw [List.drop_append_of_le_length inside, List.mem_append, List.mem_singleton]
    intro fed
    cases fed with
    | inl earlier => exact h.no_feed earlier
    | inr last => exact no_feed last.symm

end LineBegins

/-! ## Places -/

/-- A place in a source text, as its offset and its position. -/
structure Place where
  offset : Nat
  line : Nat
  column : Nat
  deriving DecidableEq, Repr

namespace Place

def start : Place := ⟨0, 1, 1⟩

def after (p : Place) (b : UInt8) : Place :=
  if b = Ascii.lineFeed then ⟨p.offset + 1, p.line + 1, 1⟩
  else ⟨p.offset + 1, p.line, p.column + 1⟩

def advance (p : Place) (bytes : Bytes) : Place :=
  bytes.foldl after p

theorem advance_append (p : Place) (s t : Bytes) :
    p.advance (s ++ t) = (p.advance s).advance t :=
  List.foldl_append

theorem offset_advance (p : Place) (s : Bytes) : (p.advance s).offset = p.offset + s.length := by
  induction s generalizing p with
  | nil => rfl
  | cons b s ih =>
      have step : (p.after b).offset = p.offset + 1 := by
        unfold after
        split <;> rfl
      rw [show p.advance (b :: s) = (p.after b).advance s from rfl, ih, step, List.length_cons]
      omega

def position (p : Place) : Position :=
  ⟨p.line, p.column⟩

structure Ends (p : Place) (before : Bytes) : Prop where
  offset : p.offset = before.length
  line : p.line = 1 + before.count Ascii.lineFeed
  column : ∃ k, LineBegins before k ∧ k + p.column = before.length + 1

theorem ends_start : start.Ends [] :=
  ⟨rfl, rfl, 0, .nil, rfl⟩

theorem Ends.after {p : Place} {before : Bytes} (h : p.Ends before) (b : UInt8) :
    (p.after b).Ends (before ++ [b]) := by
  have offset := h.offset
  have line := h.line
  unfold Place.after
  by_cases fed : b = Ascii.lineFeed
  · rw [if_pos fed, fed]
    constructor
    · simp [offset]
    · rw [List.count_append, List.count_singleton_self, line, Nat.add_assoc]
    · exact ⟨before.length + 1, .feed before, by simp⟩
  · rw [if_neg fed]
    constructor
    · simp [offset]
    · simp [line, fed]
    · rcases h.column with ⟨k, begins, column⟩
      refine ⟨k, begins.other fed, ?_⟩
      rw [List.length_append, List.length_singleton, ← column, Nat.add_assoc]

theorem Ends.advance {p : Place} {before : Bytes} (h : p.Ends before) (s : Bytes) :
    (p.advance s).Ends (before ++ s) := by
  induction s generalizing p before with
  | nil =>
      rw [List.append_nil]
      exact h
  | cons b s ih =>
      have rest := ih (h.after b)
      rw [List.append_assoc, List.singleton_append] at rest
      exact rest

theorem ends_advance_start (s : Bytes) : (start.advance s).Ends s :=
  ends_start.advance s

end Place

/-! ## Counting lines -/

namespace LineCount

def ofBytes (bytes : Bytes) : LineCount :=
  bytes.foldl next start

/-- A count and a place after the same bytes. -/
structure Reaches (c : LineCount) (p : Place) : Prop where
  counted : c.counted = p.offset
  line : c.line = p.line
  column : c.lineStart + p.column = p.offset + 1

theorem Reaches.next {c : LineCount} {p : Place} (h : c.Reaches p) (b : UInt8) :
    (c.next b).Reaches (p.after b) := by
  have counted := h.counted
  have line := h.line
  have column := h.column
  unfold LineCount.next Place.after
  by_cases fed : b = Ascii.lineFeed
  · rw [if_pos fed, if_pos fed]
    constructor <;> dsimp only <;> omega
  · rw [if_neg fed, if_neg fed]
    constructor <;> dsimp only <;> omega

theorem Reaches.foldl {c : LineCount} {p : Place} (h : c.Reaches p) (s : Bytes) :
    (s.foldl LineCount.next c).Reaches (p.advance s) := by
  induction s generalizing c p with
  | nil => exact h
  | cons b s ih => exact ih (h.next b)

theorem ofBytes_reaches (bytes : Bytes) : (ofBytes bytes).Reaches (Place.start.advance bytes) :=
  Reaches.foldl ⟨rfl, rfl, rfl⟩ bytes

theorem counted_ofBytes (bytes : Bytes) : (ofBytes bytes).counted = bytes.length := by
  rw [(ofBytes_reaches bytes).counted, (Place.ends_advance_start bytes).offset]

/-- A count that has gone through the first bytes of a text, not beyond an offset. -/
def Within (c : LineCount) (source : Bytes) (offset : Nat) : Prop :=
  ∃ n, n ≤ offset ∧ c = ofBytes (source.take n)

theorem within_behind (done raw rest : Bytes) :
    (ofBytes done).Within (done ++ raw ++ rest) (done ++ raw).length :=
  ⟨done.length, by simp, by rw [List.append_assoc, List.take_left]⟩

/-- Counting on from an offset that has been reached counts every byte once. -/
theorem Within.upTo {c : LineCount} {source before after : Bytes} (whole : source = before ++ after)
    (h : c.Within source before.length) : c.upTo source before.length = ofBytes before := by
  rcases h with ⟨n, reached, rfl⟩
  have counted : (ofBytes (source.take n)).counted = n := by
    rw [counted_ofBytes, List.length_take, whole, List.length_append]
    omega
  have bytes : source.take n ++ (source.drop n).take (before.length - n) = before := by
    rw [← List.take_add, Nat.add_sub_cancel' reached, whole, List.take_left]
  rw [LineCount.upTo, counted]
  calc
    _ = ofBytes (source.take n ++ (source.drop n).take (before.length - n)) :=
        List.foldl_append.symm
    _ = ofBytes before := by rw [bytes]

theorem position_ofBytes (bytes : Bytes) :
    (ofBytes bytes).position bytes.length = (Place.start.advance bytes).position := by
  have reaches := ofBytes_reaches bytes
  have line := reaches.line
  have column := reaches.column
  have offset := (Place.ends_advance_start bytes).offset
  unfold LineCount.position Place.position
  rw [Position.mk.injEq]
  omega

end LineCount

end WordMachine
