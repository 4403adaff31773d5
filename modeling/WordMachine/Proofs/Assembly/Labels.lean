import WordMachine.Proofs.Assembly.Cursor
import WordMachine.Proofs.Image
import WordMachine.Proofs.Assembly.Encoding
import Mathlib.Data.List.Induction

/-!
# Labels and the addresses they name

The label pass binds a name to its cursor at the last line that defines it.  Where the image pass
gets through the same lines, its cursor there is the same, so that a reference to the name is
encoded as the address at which the instruction behind the label is placed.
-/

namespace WordMachine

open Results

/-- Line number `k` is the last one that defines a name. -/
def LastLabel (lines : List Line) (k : Nat) (name : Bytes) : Prop :=
  (∃ position, lines[k]? = some (.label name position)) ∧
    ∀ j position, k < j → lines[j]? ≠ some (.label name position)

section LabelPass

variable {d : Dialect} {s t : Pass Labels} {line : Line} {lines : List Line} {name : Bytes}

theorem labelStep_label {position : Position}
    (h : Pass.step d (Labels.enter d) s (.label name position) = .ok t) :
    t = ⟨s.cursor, s.made.insert name s.cursor⟩ := by
  obtain ⟨entered, moved⟩ := Pass.step_eq_ok_iff.1 h
  obtain ⟨cursor, made⟩ := t
  rw [Pass.mk.injEq]
  refine ⟨(Except.ok.inj moved).symm, ?_⟩
  simp only [Labels.enter] at entered
  split at entered
  · split at entered
    · exact (Except.ok.inj entered).symm
    · cases entered
  · exact (Except.ok.inj entered).symm

theorem labelStep_other (h : Pass.step d (Labels.enter d) s line = .ok t)
    (other : ∀ name position, line ≠ .label name position) : t.made = s.made := by
  obtain ⟨entered, -⟩ := Pass.step_eq_ok_iff.1 h
  cases line with
  | label name position => exact absurd rfl (other name position)
  | specifier name args position => exact (Except.ok.inj entered).symm
  | instruction statement => exact (Except.ok.inj entered).symm

theorem labelStep_getElem? (h : Pass.step d (Labels.enter d) s line = .ok t) (name : Bytes) :
    ((∃ position, line = .label name position) ∧ t.made[name]? = some s.cursor) ∨
    ((∀ position, line ≠ .label name position) ∧ t.made[name]? = s.made[name]?) := by
  cases line with
  | label defined position =>
      rw [labelStep_label h, Std.TreeMap.getElem?_insert]
      by_cases same : defined = name
      · subst same
        exact .inl ⟨⟨position, rfl⟩, by simp⟩
      · exact .inr ⟨by simp [same], by simp [same]⟩
  | specifier _ _ _ => exact .inr ⟨by simp, by rw [labelStep_other h (by simp)]⟩
  | instruction _ => exact .inr ⟨by simp, by rw [labelStep_other h (by simp)]⟩

theorem LastLabel.lt_length {k : Nat} (h : LastLabel lines k name) : k < lines.length := by
  obtain ⟨⟨position, at_k⟩, -⟩ := h
  exact (List.getElem?_eq_some_iff.1 at_k).1

theorem lastLabel_append_label {k : Nat} {position : Position} :
    LastLabel (lines ++ [.label name position]) k name ↔ k = lines.length := by
  constructor
  · intro h
    have bound := h.lt_length
    rw [List.length_append, List.length_singleton] at bound
    rcases Nat.lt_or_eq_of_le (Nat.le_of_lt_succ bound) with earlier | same
    · exact absurd List.getElem?_concat_length (h.2 lines.length position earlier)
    · exact same
  · rintro rfl
    refine ⟨⟨position, List.getElem?_concat_length⟩, ?_⟩
    intro j _ later
    rw [List.getElem?_eq_none (by rw [List.length_append, List.length_singleton]; omega)]
    simp

theorem lastLabel_append_other {k : Nat} (other : ∀ position, line ≠ .label name position) :
    LastLabel (lines ++ [line]) k name ↔ LastLabel lines k name := by
  have same : ∀ (j : Nat) (position : Position),
      (lines ++ [line])[j]? = some (.label name position) ↔
        lines[j]? = some (.label name position) := by
    intro j position
    rcases Nat.lt_trichotomy j lines.length with inside | rfl | beyond
    · rw [List.getElem?_append_left inside]
    · rw [List.getElem?_concat_length, List.getElem?_eq_none (Nat.le_refl _)]
      simp [other position]
    · rw [List.getElem?_eq_none (by rw [List.length_append, List.length_singleton]; omega),
        List.getElem?_eq_none (Nat.le_of_lt beyond)]
  simp only [LastLabel, same, ne_eq]

/-- The label pass binds a name to its cursor at the last line that defines it. -/
theorem labelPass_getElem?_iff (h : labelPass d lines = .ok s) (name : Bytes) (address : Word) :
    s.made[name]? = some address ↔
      ∃ k u, LastLabel lines k name ∧ labelPass d (lines.take k) = .ok u ∧ u.cursor = address := by
  induction lines using List.reverseRecOn generalizing s with
  | nil =>
      cases h
      simp [LastLabel]
  | append_singleton lines line ih =>
      obtain ⟨t, before, final⟩ := Pass.run_append_eq_ok_iff.1 h
      rw [Pass.run_singleton] at final
      rcases labelStep_getElem? final name with ⟨⟨position, rfl⟩, bound⟩ | ⟨other, kept⟩
      · simp only [lastLabel_append_label, bound, Option.some.injEq]
        constructor
        · intro same
          exact ⟨lines.length, t, rfl, by rw [List.take_left]; exact before, same⟩
        · rintro ⟨_, u, rfl, reached, rfl⟩
          rw [List.take_left] at reached
          exact congrArg Pass.cursor (Except.ok.inj (before.symm.trans reached))
      · simp only [kept, ih before, lastLabel_append_other other]
        constructor
        · rintro ⟨k, u, last, reached, same⟩
          rw [← List.take_append_of_le_length (Nat.le_of_lt last.lt_length)] at reached
          exact ⟨k, u, last, reached, same⟩
        · rintro ⟨k, u, last, reached, same⟩
          rw [List.take_append_of_le_length (Nat.le_of_lt last.lt_length)] at reached
          exact ⟨k, u, last, reached, same⟩

end LabelPass

/-! ## Both passes -/

theorem Statement.operands_of_references {labels : Labels} {s : Statement} {i : Instruction}
    (h : s.instruction labels = .ok i) {slot : Nat} {x : WrittenOperand}
    (at_slot : s.operands[slot]? = some x) (reference : x.token.kind = .labelRef) :
    ∃ address, labels[x.token.text]? = some address ∧
      i.operands[slot]? = some ⟨Mode.of .literal x.indirect, address⟩ := by
  obtain ⟨op, operands, -, count, resolved, rfl⟩ := instruction_eq_ok_iff.1 h
  obtain ⟨bound, rfl⟩ := List.getElem?_eq_some_iff.1 at_slot
  have inside : slot < operands.length := resolved.length_eq ▸ bound
  obtain ⟨kind, address, target, same⟩ :=
    WrittenOperand.resolve_eq_ok_iff.1 (resolved.get bound inside)
  obtain ⟨rfl, known⟩ := (Token.target_labelRef_iff reference).1 target
  have few := op.arity_le_three
  refine ⟨address, known, ?_⟩
  rw [Instruction.operands_ofOperands op operands (by omega), List.getElem?_eq_getElem inside]
  exact congrArg some same

section BothPasses

variable {d : Dialect} {labels : Labels} {lines : List Line}

/-- The two passes have one cursor at every line, and it does not wrap around. -/
theorem passes_agree_at {s : Pass Labels} {t : Pass Image} (bound : labelPass d lines = .ok s)
    (emitted : imagePass d labels lines = .ok t) (k : Nat) :
    ∃ u v, labelPass d (lines.take k) = .ok u ∧ imagePass d labels (lines.take k) = .ok v ∧
      u.cursor = v.cursor ∧ address? d (lines.take k) = some v.cursor.toNat := by
  rw [← List.take_append_drop k lines] at bound emitted
  obtain ⟨u, labelled, -⟩ := Pass.run_append_eq_ok_iff.1 bound
  obtain ⟨v, placed, -⟩ := Pass.run_append_eq_ok_iff.1 emitted
  have first := Pass.cursor_of_run labelled
  have second := Pass.cursor_of_run placed
  dsimp only at first second
  exact ⟨u, v, labelled, placed, Except.ok.inj (first.symm.trans second), imagePass_address placed⟩

theorem imageRun_of_isPassive {s : Pass Image} {between : List Line}
    (passive : ∀ line ∈ between, line.isPassive) :
    Pass.run d (Placed.emit labels) s between = .ok s := by
  induction between with
  | nil => rfl
  | cons line rest ih =>
      rw [Pass.run_cons, imageStep_of_isPassive (passive line List.mem_cons_self)]
      exact ih fun other member => passive other (.tail _ member)

/-- The image pass reaches an instruction with the cursor that it has at an earlier line, if no line
from there on sets the cursor or is an instruction. -/
theorem imagePass_take_of_isPassive {k m : Nat} (later : k ≤ m)
    (passive : ∀ j line, k ≤ j → j < m → lines[j]? = some line → line.isPassive) :
    imagePass d labels (lines.take m) = imagePass d labels (lines.take k) := by
  have split : lines.take m = lines.take k ++ (lines.drop k).take (m - k) := by
    rw [← List.take_add, Nat.add_sub_cancel' later]
  have between : ∀ line ∈ (lines.drop k).take (m - k), line.isPassive := by
    intro line member
    obtain ⟨i, at_i⟩ := List.getElem?_of_mem member
    rw [List.getElem?_take] at at_i
    split at at_i
    · rw [List.getElem?_drop] at at_i
      exact passive (k + i) line (by omega) (by omega) at_i
    · cases at_i
  rw [split, imagePass, Pass.run_append, imagePass]
  cases Pass.run d (Placed.emit labels) ⟨0, .zero⟩ (lines.take k) with
  | error e => rfl
  | ok s => exact imageRun_of_isPassive between

variable {s : Pass Labels} {t : Pass Image}

theorem labels_eq_cursor_of_imagePass (bound : labelPass d lines = .ok s)
    (emitted : imagePass d s.made lines = .ok t) (name : Bytes) (address : Word) :
    s.made[name]? = some address ↔
      ∃ k v, LastLabel lines k name ∧ imagePass d s.made (lines.take k) = .ok v ∧
        v.cursor = address := by
  rw [labelPass_getElem?_iff bound]
  constructor
  · rintro ⟨k, u, last, reached, rfl⟩
    obtain ⟨u', v, same, at_v, cursors, -⟩ := passes_agree_at bound emitted k
    rw [reached] at same
    cases same
    exact ⟨k, v, last, at_v, cursors.symm⟩
  · rintro ⟨k, v, last, reached, rfl⟩
    obtain ⟨u, v', at_u, same, cursors, -⟩ := passes_agree_at bound emitted k
    rw [reached] at same
    cases same
    exact ⟨k, u, last, at_u, cursors⟩

theorem imagePass_instruction (emitted : imagePass d labels lines = .ok t) {m : Nat}
    {statement : Statement} (at_m : lines[m]? = some (.instruction statement)) :
    ∃ u block, ∃ fits : Image.Fits u.cursor, imagePass d labels (lines.take m) = .ok u ∧
      statement.encode labels = .ok block ∧
      imagePass d labels (lines.take (m + 1)) =
        .ok ⟨u.cursor + 4, u.made.place ⟨u.cursor, block, fits⟩⟩ := by
  obtain ⟨u, v, reached, met, -⟩ := Pass.step_of_run emitted at_m
  obtain ⟨block, fits, encoded, rfl⟩ := imageStep_instruction_eq_ok_iff.1 met
  refine ⟨u, block, fits, reached, encoded, ?_⟩
  rw [List.take_add_one, at_m]
  exact Pass.run_append_eq_ok_iff.2 ⟨u, reached, (Pass.run_singleton u _).trans met⟩

theorem LastLabel.isPassive {name : Bytes} {k : Nat} {line : Line} (last : LastLabel lines k name)
    (at_k : lines[k]? = some line) : line.isPassive := by
  obtain ⟨⟨position, label⟩, -⟩ := last
  rw [label] at at_k
  cases at_k
  rfl

end BothPasses

/-- If both passes get through lines, then every label is bound to the cursor of the image pass at
its last definition, the words of the instruction that follows this definition stand there, every
reference is encoded as that address, and the cursor never wraps around. -/
theorem labels_agree_with_image_pass {d : Dialect} {lines : List Line} {labels : Labels}
    {image : Image} (bound : Labels.ofLines d lines = .ok labels)
    (emitted : Image.ofLines d labels lines = .ok image) :
    (∀ name address, labels[name]? = some address ↔
      ∃ k s, LastLabel lines k name ∧ imagePass d labels (lines.take k) = .ok s ∧
        s.cursor = address) ∧
    (∀ name k m statement, LastLabel lines k name → k < m →
      (∀ j line, k < j → j < m → lines[j]? = some line → line.isPassive) →
      lines[m]? = some (.instruction statement) →
      ∃ address block before after, ∃ fits : Image.Fits address,
        labels[name]? = some address ∧ statement.encode labels = .ok block ∧
        imagePass d labels (lines.take m) = .ok ⟨address, before⟩ ∧
        imagePass d labels (lines.take (m + 1)) = .ok ⟨address + 4, after⟩ ∧
        after = before.place ⟨address, block, fits⟩ ∧
        ∀ n, n < 4 → block.words[n]? = some (after.wordAt (address.toNat + n))) ∧
    (∀ statement, .instruction statement ∈ lines →
      ∃ i, statement.instruction labels = .ok i ∧ statement.encode labels = .ok i.encode ∧
        ∀ (slot : Nat) x, statement.operands[slot]? = some x → x.token.kind = .labelRef →
          ∃ address, labels[x.token.text]? = some address ∧
            i.operands[slot]? = some ⟨Mode.of .literal x.indirect, address⟩) ∧
    (∀ k, ∃ s t, labelPass d (lines.take k) = .ok s ∧ imagePass d labels (lines.take k) = .ok t ∧
      s.cursor = t.cursor ∧ address? d (lines.take k) = some t.cursor.toNat) := by
  rw [Labels.ofLines_eq_labelPass, map_eq_ok_iff] at bound
  rw [Image.ofLines_eq_imagePass, map_eq_ok_iff] at emitted
  obtain ⟨s, labelled, rfl⟩ := bound
  obtain ⟨t, placed, rfl⟩ := emitted
  have named := labels_eq_cursor_of_imagePass labelled placed
  refine ⟨named, ?_, ?_, passes_agree_at labelled placed⟩
  · intro name k m statement last later passive at_m
    obtain ⟨u, block, fits, reached, encoded, after⟩ := imagePass_instruction placed at_m
    have from_label : imagePass d s.made (lines.take k) = .ok u := by
      rw [← imagePass_take_of_isPassive (Nat.le_of_lt later), reached]
      intro j line from_k before at_j
      rcases Nat.lt_or_eq_of_le from_k with past | rfl
      · exact passive j line past before at_j
      · exact last.isPassive at_j
    refine ⟨u.cursor, block, u.made, _, fits, (named _ _).2 ⟨k, u, last, from_label, rfl⟩, encoded,
      reached, after, rfl, ?_⟩
    intro n bound
    have word := u.made.wordAt_place_inside ⟨u.cursor, block, fits⟩
      (Nat.le_add_right u.cursor.toNat n) (by dsimp only; omega)
    rwa [Nat.add_sub_cancel_left] at word
  · intro statement member
    obtain ⟨m, at_m⟩ := List.getElem?_of_mem member
    obtain ⟨u, block, -, -, encoded, -⟩ := imagePass_instruction placed at_m
    obtain ⟨i, made, rfl⟩ := Statement.encode_eq_ok_iff.1 encoded
    exact ⟨i, made, encoded, fun slot x => Statement.operands_of_references made⟩

/-- A jump forward to a label, which an unknown specifier separates from its instruction. -/
def forwardLines : List Line :=
  [.instruction
      ⟨Bytes.ofString "jmp", [⟨false, ⟨.labelRef, Bytes.ofString "end", [], 0, 0, .none⟩⟩], .none⟩,
    .label (Bytes.ofString "end") .none,
    .specifier (Bytes.ofString "note") [] .none,
    .instruction ⟨Bytes.ofString "halt", [], .none⟩]

theorem forward_reference_agrees :
    ∃ labels image, Labels.ofLines .strict forwardLines = .ok labels ∧
      Image.ofLines .strict labels forwardLines = .ok image ∧
      labels[Bytes.ofString "end"]? = some 4 ∧
      ∃ after, imagePass .strict labels (forwardLines.take 4) = .ok ⟨8, after⟩ ∧
        after.wordAt 4 = 0x100000000 ∧
        after.wordAt 5 = 0 ∧ after.wordAt 6 = 0 ∧ after.wordAt 7 = 0 := by
  have accepted : (Labels.ofLines .strict forwardLines >>= fun labels =>
      Image.ofLines .strict labels forwardLines).isOk = true := by decide
  have bound_to : ((Labels.ofLines .strict forwardLines).map (·[Bytes.ofString "end"]?)).toOption =
      some (some 4) := by decide
  obtain ⟨image, made⟩ := isOk_iff.1 accepted
  obtain ⟨labels, bound, emitted⟩ := bind_eq_ok_iff.1 made
  rw [bound] at bound_to
  have last : LastLabel forwardLines 1 (Bytes.ofString "end") := by
    refine ⟨⟨_, rfl⟩, ?_⟩
    intro j position later
    match j, later with
    | 2, _ => simp [forwardLines]
    | 3, _ => simp [forwardLines]
    | j + 4, _ => simp [forwardLines]
  have passive : ∀ j line, 1 < j → j < 3 → forwardLines[j]? = some line → line.isPassive := by
    intro j line after before at_j
    obtain rfl : j = 2 := by omega
    cases at_j
    decide
  obtain ⟨address, block, before, after, fits, named, encoded, -, placed, -, words⟩ :=
    (labels_agree_with_image_pass bound emitted).2.1 _ 1 3 _ last (by decide) passive rfl
  obtain rfl : address = 4 := Option.some.inj (named.symm.trans (Option.some.inj bound_to))
  cases encoded
  exact ⟨labels, image, bound, emitted, named, after, placed,
    (Option.some.inj (words 0 (by decide))).symm, (Option.some.inj (words 1 (by decide))).symm,
    (Option.some.inj (words 2 (by decide))).symm, (Option.some.inj (words 3 (by decide))).symm⟩

end WordMachine
