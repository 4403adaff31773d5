import WordMachine.Proofs.Assembly.Passes

/-!
# Cursors without bound

The cursor of a pass is a word and wraps around.  Here it is followed as a natural number.  The two
agree along every image pass, because an instruction is accepted only where its block fits.
-/

namespace WordMachine

open Results

/-- The address that the arguments of a base specifier give: a single decimal number that fits in a
word, and is a multiple of four where the dialect wants that. -/
def baseAddress? (d : Dialect) : List Token → Option Nat
  | [arg] =>
      if arg.kind = .number then
        (Numeral.decimal? arg.text).filter fun n =>
          n < UInt64.size && (!d.alignedBase || n % blockSize == 0)
      else none
  | _ => none

theorem baseAddress?_eq_some_iff {d : Dialect} {args : List Token} {n : Nat} :
    baseAddress? d args = some n ↔
      ∃ arg, args = [arg] ∧ arg.kind = .number ∧ Numeral.decimal? arg.text = some n ∧
        n < UInt64.size ∧ (d.alignedBase = true → n % blockSize = 0) := by
  unfold baseAddress?
  match args with
  | [] => simp
  | [arg] =>
      by_cases number : arg.kind = .number
      · cases d.alignedBase <;> simp [number, Option.filter_eq_some_iff]
      · simp [number]
  | _ :: _ :: _ => simp

theorem Token.word_eq_ok_iff {t : Token} {w : Word} :
    t.word = .ok w ↔ Numeral.decimal? t.text = some w.toNat := by
  unfold word
  cases read : Numeral.decimal? t.text with
  | none => simp
  | some n =>
      dsimp only
      by_cases bound : n < UInt64.size
      · rw [if_pos bound, Except.ok.injEq, Option.some.injEq, ← UInt64.toNat_inj,
          UInt64.toNat_ofNat_of_lt' bound]
      · have := w.toNat_lt
        rw [if_neg bound, Option.some.injEq]
        simp only [UInt64.size] at bound
        constructor
        · simp
        · intro same
          omega

theorem baseValue_eq_ok_iff {d : Dialect} {args : List Token} (position : Position) {w : Word} :
    baseValue d args position = .ok w ↔ baseAddress? d args = some w.toNat := by
  have bound : w.toNat < UInt64.size := w.toNat_lt
  rw [baseAddress?_eq_some_iff]
  match args with
  | [] => simp [baseValue]
  | [arg] =>
      by_cases number : arg.kind = .number
      · simp only [baseValue, number, if_true, List.cons.injEq, and_true, exists_eq_left',
          ← Token.word_eq_ok_iff, bound, true_and]
        cases arg.word with
        | error e => simp
        | ok address =>
            dsimp only
            split
            · rename_i refused
              simp only [reduceCtorEq, Except.ok.injEq, false_iff, not_and]
              rintro rfl multiple
              exact refused.2 (multiple refused.1)
            · rename_i accepted
              simp only [Except.ok.injEq, iff_self_and]
              rintro rfl
              simpa using accepted
      · simp [baseValue, number]
  | _ :: _ :: _ => simp [baseValue]

theorem Pass.baseAddress?_of_run {β : Type} {d : Dialect} {act : β → Placed → Except SourceError β}
    {s t : Pass β} {lines : List Line} (h : run d act s lines = .ok t) {args : List Token}
    {position : Position} (member : .specifier baseName args position ∈ lines) :
    (baseAddress? d args).isSome := by
  obtain ⟨k, at_k⟩ := List.getElem?_of_mem member
  obtain ⟨u, v, -, met, -⟩ := step_of_run h at_k
  obtain ⟨-, moved⟩ := step_eq_ok_iff.1 met
  rw [Line.cursorAfter, if_pos rfl, baseValue_eq_ok_iff] at moved
  rw [moved]
  rfl

namespace Line

/-- The address after a line in unbounded arithmetic; none after a base that gives no address. -/
def addressAfter (d : Dialect) (address : Nat) : Line → Option Nat
  | .label .. => some address
  | .specifier name args _ => if name = baseName then baseAddress? d args else some address
  | .instruction _ => some (address + 4)

/-- Whether a line neither sets the cursor nor is an instruction. -/
def isPassive : Line → Bool
  | .label .. => true
  | .specifier name _ _ => name != baseName
  | .instruction _ => false

theorem addressAfter_of_isPassive (d : Dialect) (address : Nat) {line : Line}
    (h : line.isPassive) : line.addressAfter d address = some address := by
  cases line with
  | label name position => rfl
  | specifier name args position =>
      have other : name ≠ baseName := by simpa [isPassive] using h
      rw [addressAfter, if_neg other]
  | instruction statement => cases h

end Line

/-- The address that lines lead up to from an address. -/
def addressFrom (d : Dialect) (address : Nat) (lines : List Line) : Option Nat :=
  lines.foldlM (Line.addressAfter d) address

def address? (d : Dialect) (lines : List Line) : Option Nat :=
  addressFrom d 0 lines

/-! ## Steps of the image pass -/

section ImageSteps

variable {d : Dialect} {labels : Labels} {s t : Pass Image}

theorem imageStep_of_isPassive {line : Line} (h : line.isPassive) :
    Pass.step d (Placed.emit labels) s line = .ok s := by
  cases line with
  | label name position => rfl
  | specifier name args position =>
      have other : name ≠ baseName := by simpa [Line.isPassive] using h
      rw [Pass.step_eq_ok_iff]
      exact ⟨rfl, if_neg other⟩
  | instruction statement => cases h

theorem imageStep_base_eq_ok_iff {args : List Token} {position : Position} :
    Pass.step d (Placed.emit labels) s (.specifier baseName args position) = .ok t ↔
      baseAddress? d args = some t.cursor.toNat ∧ t.made = s.made := by
  rw [Pass.step_eq_ok_iff, ← baseValue_eq_ok_iff position]
  constructor
  · rintro ⟨acted, moved⟩
    exact ⟨moved, (Except.ok.inj acted).symm⟩
  · rintro ⟨moved, made⟩
    exact ⟨congrArg _ made.symm, moved⟩

theorem imageStep_instruction_eq_ok_iff {statement : Statement} :
    Pass.step d (Placed.emit labels) s (.instruction statement) = .ok t ↔
      ∃ block, ∃ fits : Image.Fits s.cursor, statement.encode labels = .ok block ∧
        t = ⟨s.cursor + 4, s.made.place ⟨s.cursor, block, fits⟩⟩ := by
  rw [Pass.step_eq_ok_iff]
  simp only [Placed.emit, Placed.placement?, Line.cursorAfter, Except.ok.injEq]
  cases encoded : statement.encode labels with
  | error e => simp
  | ok block =>
      by_cases fits : Image.Fits s.cursor
      · simp only [fits, dite_true]
        constructor
        · rintro ⟨acted, moved⟩
          obtain ⟨cursor, made⟩ := t
          refine ⟨block, trivial, rfl, ?_⟩
          rw [Pass.mk.injEq]
          exact ⟨moved.symm, (Except.ok.inj acted).symm⟩
        · rintro ⟨_, _, same, rfl⟩
          cases same
          exact ⟨rfl, rfl⟩
      · simp [fits]

/-- What the image pass does with a line that it accepts. -/
inductive ImageStep (d : Dialect) (labels : Labels) (s : Pass Image) : Line → Pass Image → Prop
  | pass {line : Line} (passive : line.isPassive) : ImageStep d labels s line s
  | base {args : List Token} {position : Position} {cursor : Word}
      (address : baseAddress? d args = some cursor.toNat) :
      ImageStep d labels s (.specifier baseName args position) ⟨cursor, s.made⟩
  | put {statement : Statement} {block : Block} (fits : Image.Fits s.cursor)
      (encoded : statement.encode labels = .ok block) :
      ImageStep d labels s (.instruction statement)
        ⟨s.cursor + 4, s.made.place ⟨s.cursor, block, fits⟩⟩

theorem imageStep_cases {line : Line} (h : Pass.step d (Placed.emit labels) s line = .ok t) :
    ImageStep d labels s line t := by
  have passed (passive : line.isPassive) : ImageStep d labels s line t := by
    rw [imageStep_of_isPassive passive] at h
    cases h
    exact .pass passive
  cases line with
  | label name position => exact passed rfl
  | specifier name args position =>
      by_cases base : name = baseName
      · subst base
        obtain ⟨cursor, made⟩ := t
        obtain ⟨address, rfl⟩ := imageStep_base_eq_ok_iff.1 h
        exact .base address
      · exact passed (by simpa [Line.isPassive] using base)
  | instruction statement =>
      obtain ⟨block, fits, encoded, rfl⟩ := imageStep_instruction_eq_ok_iff.1 h
      exact .put fits encoded

/-- The cursor of the image pass does not wrap around. -/
theorem imageStep_address {line : Line} (h : Pass.step d (Placed.emit labels) s line = .ok t) :
    line.addressAfter d s.cursor.toNat = some t.cursor.toNat := by
  cases imageStep_cases h with
  | pass passive => exact Line.addressAfter_of_isPassive d _ passive
  | base address => rwa [Line.addressAfter, if_pos rfl]
  | put fits encoded =>
      have bound : s.cursor.toNat + 4 ≤ 65536 := fits
      have sum : (s.cursor + 4).toNat = s.cursor.toNat + 4 := by
        rw [UInt64.toNat_add]
        exact Nat.mod_eq_of_lt (by simp only [UInt64.reduceToNat]; omega)
      rw [Line.addressAfter, sum]

theorem imageRun_address {lines : List Line}
    (h : Pass.run d (Placed.emit labels) s lines = .ok t) :
    addressFrom d s.cursor.toNat lines = some t.cursor.toNat := by
  induction lines generalizing s with
  | nil =>
      cases h
      rfl
  | cons line rest ih =>
      obtain ⟨u, met, went_on⟩ := Pass.run_cons_eq_ok_iff.1 h
      rw [addressFrom, List.foldlM_cons, imageStep_address met]
      exact ih went_on

end ImageSteps

theorem imagePass_address {d : Dialect} {labels : Labels} {lines : List Line} {s : Pass Image}
    (h : imagePass d labels lines = .ok s) : address? d lines = some s.cursor.toNat :=
  imageRun_address h

end WordMachine
