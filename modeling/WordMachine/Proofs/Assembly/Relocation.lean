import WordMachine.Proofs.Assembly.Labels
import WordMachine.Proofs.Image

/-!
# Relocation

Lines without a base are placed one block behind the other from address zero on.  With a base before
them, both passes walk over them as before, with cursors that are further on by the address of the
base: every label is bound that much further on, and the image holds the same words further on,
except that the value of each operand that refers to a label has grown like the label.
-/

namespace WordMachine

open Results

/-! ## Statements and their references -/

def Line.statement? : Line → Option Statement
  | .instruction statement => some statement
  | _ => none

def Line.statements (lines : List Line) : List Statement :=
  lines.filterMap Line.statement?

theorem Line.statements_append (lines more : List Line) :
    statements (lines ++ more) = statements lines ++ statements more :=
  List.filterMap_append

theorem Line.statements_of_isPassive {line : Line} (passive : line.isPassive) :
    statements [line] = [] := by
  cases line with
  | instruction statement => cases passive
  | _ => rfl

def WrittenOperand.isReference (x : WrittenOperand) : Bool :=
  x.token.kind == .labelRef

/-- Whether a word of the block of a statement is the value of an operand that refers to a label. -/
def Statement.isReferenceWord (s : Statement) : Nat → Bool
  | 0 => false
  | slot + 1 => s.operands[slot]?.any WrittenOperand.isReference

/-- Whether a word of the blocks of some statements, one behind the other, is the value of an
operand that refers to a label. -/
def isReferenceWord (statements : List Statement) (j : Nat) : Bool :=
  statements[j / 4]?.any fun s => s.isReferenceWord (j % 4)

theorem isReferenceWord_append {done : List Statement} {j : Nat} (more : List Statement)
    (inside : j < 4 * done.length) :
    isReferenceWord (done ++ more) j = isReferenceWord done j := by
  rw [isReferenceWord, isReferenceWord, List.getElem?_append_left (by omega)]

theorem isReferenceWord_last (done : List Statement) (s : Statement) {i : Nat} (inside : i < 4) :
    isReferenceWord (done ++ [s]) (4 * done.length + i) = s.isReferenceWord i := by
  have block : (4 * done.length + i) / 4 = done.length := by omega
  have word : (4 * done.length + i) % 4 = i := by omega
  rw [isReferenceWord, block, word, List.getElem?_concat_length]
  rfl

/-! ## Cursors -/

/-- No line sets the cursor. -/
def Baseless (lines : List Line) : Prop :=
  ∀ args position, .specifier baseName args position ∉ lines

theorem Baseless.of_append {lines more : List Line} (h : Baseless (lines ++ more)) :
    Baseless lines :=
  fun args position member => h args position (List.mem_append_left more member)

theorem Baseless.cases {lines : List Line} {line : Line} (h : Baseless lines)
    (member : line ∈ lines) : line.isPassive ∨ ∃ statement, line = .instruction statement := by
  cases line with
  | label name position => exact .inl rfl
  | specifier name args position =>
      left
      rw [Line.isPassive, bne_iff_ne]
      intro base
      subst base
      exact h args position member
  | instruction statement => exact .inr ⟨statement, rfl⟩

theorem Line.cursorAfter_of_isPassive (d : Dialect) (cursor : Word) {line : Line}
    (passive : line.isPassive) : line.cursorAfter d cursor = .ok cursor := by
  cases line with
  | label name position => rfl
  | specifier name args position =>
      rw [isPassive, bne_iff_ne] at passive
      rw [cursorAfter, if_neg passive]
  | instruction statement => cases passive

/-- Without a base the cursor moves on by four words for each instruction. -/
theorem Pass.cursor_of_baseless {β : Type} {d : Dialect} {act : β → Placed → Except SourceError β}
    {s t : Pass β} {lines : List Line} (baseless : Baseless lines)
    (small : s.cursor.toNat + 4 * (Line.statements lines).length < UInt64.size)
    (walked : run d act s lines = .ok t) :
    t.cursor.toNat = s.cursor.toNat + 4 * (Line.statements lines).length := by
  induction lines using List.reverseRecOn generalizing t with
  | nil =>
      cases walked
      rfl
  | append_singleton lines line ih =>
      rcases run_append_eq_ok_iff.1 walked with ⟨u, before, final⟩
      rw [run_singleton, step_eq_ok_iff] at final
      rw [Line.statements_append, List.length_append] at small ⊢
      have reached := ih baseless.of_append (by omega) before
      rcases baseless.cases (List.mem_append_right lines List.mem_cons_self) with
        passive | ⟨statement, rfl⟩
      · rw [Line.cursorAfter_of_isPassive d _ passive, Except.ok.injEq] at final
        rw [Line.statements_of_isPassive passive, ← final.2]
        exact reached
      · have one : (Line.statements [.instruction statement]).length = 1 := rfl
        rw [one] at small ⊢
        rw [← Except.ok.inj final.2, UInt64.toNat_add, reached]
        exact Nat.mod_eq_of_lt small

theorem Pass.cursors_of_baseless {β γ : Type} {d : Dialect} {lines : List Line} {start : Word}
    {k : Nat} {act : β → Placed → Except SourceError β} {act' : γ → Placed → Except SourceError γ}
    {made : β} {made' : γ} {s : Pass β} {t : Pass γ} (baseless : Baseless lines)
    (origin : start.toNat = k) (small : k + 4 * (Line.statements lines).length < UInt64.size)
    (first : run d act ⟨0, made⟩ lines = .ok s) (second : run d act' ⟨start, made'⟩ lines = .ok t) :
    s.cursor.toNat = 4 * (Line.statements lines).length ∧
      t.cursor.toNat = k + 4 * (Line.statements lines).length := by
  subst origin
  have zero : (0 : Word).toNat = 0 := rfl
  have cursor := cursor_of_baseless baseless (by simp only [zero]; omega) first
  have further := cursor_of_baseless baseless small second
  simp only [zero, Nat.zero_add] at cursor
  exact ⟨cursor, further⟩

/-! ## Labels -/

/-- Every address of a label table is further on in another. -/
def Labels.MovedBy (k : Nat) (labels moved : Labels) : Prop :=
  ∀ name : Bytes, moved[name]?.map UInt64.toNat =
    labels[name]?.map fun address : Word => address.toNat + k

namespace Labels.MovedBy

variable {k : Nat} {labels moved : Labels}

theorem insert {address further : Word} (h : labels.MovedBy k moved)
    (same : further.toNat = address.toNat + k) (name : Bytes) :
    Labels.MovedBy k (labels.insert name address) (moved.insert name further) := by
  intro other
  rw [Std.TreeMap.getElem?_insert, Std.TreeMap.getElem?_insert]
  split
  · exact congrArg some same
  · exact h other

theorem isSome (h : labels.MovedBy k moved) (name : Bytes) :
    moved[name]?.isSome = labels[name]?.isSome := by
  have same := congrArg Option.isSome (h name)
  rw [Option.isSome_map, Option.isSome_map] at same
  exact same

end Labels.MovedBy

theorem Labels.enter_label_eq_ok_iff {d : Dialect} {labels next : Labels} {cursor : Word}
    {name : Bytes} {position : Position} :
    labels.enter d ⟨cursor, .label name position⟩ = .ok next ↔
      (labels[name]?.isSome = true → d.redefinition = true) ∧ next = labels.insert name cursor := by
  simp only [Labels.enter]
  cases labels[name]? with
  | none =>
      rw [Except.ok.injEq]
      exact ⟨fun same => ⟨by simp, same.symm⟩, fun both => both.2.symm⟩
  | some address =>
      cases d.redefinition with
      | true =>
          simp only [if_true, Except.ok.injEq]
          exact ⟨fun same => ⟨by simp, same.symm⟩, fun both => both.2.symm⟩
      | false => simp

section LabelPass

variable {d : Dialect} {k : Nat} {lines : List Line}

theorem labelStep_movedBy {s t u : Pass Labels} {line : Line}
    (kind : line.isPassive ∨ ∃ statement, line = .instruction statement)
    (cursors : t.cursor.toNat = s.cursor.toNat + k) (tables : s.made.MovedBy k t.made)
    (met : Pass.step d (Labels.enter d) s line = .ok u) :
    ∃ v, Pass.step d (Labels.enter d) t line = .ok v ∧ u.made.MovedBy k v.made := by
  cases line with
  | label name position =>
      rw [labelStep_label met]
      rcases Labels.enter_label_eq_ok_iff.1 (Pass.step_eq_ok_iff.1 met).1 with ⟨free, -⟩
      rw [← tables.isSome name] at free
      refine ⟨⟨t.cursor, t.made.insert name t.cursor⟩, ?_, tables.insert cursors name⟩
      exact Pass.step_eq_ok_iff.2 ⟨Labels.enter_label_eq_ok_iff.2 ⟨free, rfl⟩, rfl⟩
  | specifier name args position =>
      rcases kind with passive | ⟨statement, other⟩
      · rw [labelStep_other met (by simp)]
        exact ⟨t, Pass.step_eq_ok_iff.2 ⟨rfl, Line.cursorAfter_of_isPassive d _ passive⟩, tables⟩
      · cases other
  | instruction statement =>
      rw [labelStep_other met (by simp)]
      exact ⟨⟨t.cursor + 4, t.made⟩, rfl, tables⟩

/-- The label pass over lines without a base, further on: it binds the same labels, further on. -/
theorem labelRun_movedBy {start : Word} (baseless : Baseless lines) (origin : start.toNat = k)
    (small : k + 4 * (Line.statements lines).length < UInt64.size) {s : Pass Labels}
    (walked : labelPass d lines = .ok s) :
    ∃ t, Pass.run d (Labels.enter d) ⟨start, ∅⟩ lines = .ok t ∧ s.made.MovedBy k t.made := by
  induction lines using List.reverseRecOn generalizing s with
  | nil =>
      cases walked
      exact ⟨_, rfl, fun _ => rfl⟩
  | append_singleton lines line ih =>
      rcases Pass.run_append_eq_ok_iff.1 walked with ⟨u, before, met⟩
      rw [Line.statements_append, List.length_append] at small
      rcases ih baseless.of_append (by omega) before with ⟨v, before_moved, tables⟩
      rcases Pass.cursors_of_baseless baseless.of_append origin (by omega) before before_moved with
        ⟨cursor, further⟩
      rw [Pass.run_singleton] at met
      have kind := baseless.cases (List.mem_append_right lines List.mem_cons_self)
      rcases labelStep_movedBy kind (by omega) tables met with ⟨t, met_moved, tables_after⟩
      refine ⟨t, Pass.run_append_eq_ok_iff.2 ⟨v, before_moved, ?_⟩, tables_after⟩
      rw [Pass.run_singleton, met_moved]

end LabelPass

/-! ## Operands and blocks -/

/-- An operand of the same mode whose value has grown. -/
structure Operand.GrownBy (k : Nat) (x y : Operand) : Prop where
  mode : y.mode = x.mode
  value : y.value.toNat = x.value.toNat + k

section Statements

variable {k : Nat} {labels moved : Labels}

theorem Token.target_of_not_labelRef {t : Token} (other : t.kind ≠ .labelRef) :
    t.target labels = t.target moved := by
  unfold target
  cases kind : t.kind with
  | labelRef => exact absurd kind other
  | _ => rfl

theorem WrittenOperand.resolve_movedBy (tables : labels.MovedBy k moved) {x : WrittenOperand}
    {y : Operand} (resolved : x.resolve labels = .ok y) :
    ∃ z, x.resolve moved = .ok z ∧ y.GrownBy (if x.isReference then k else 0) z := by
  rcases resolve_eq_ok_iff.1 resolved with ⟨kind, w, target, rfl⟩
  by_cases reference : x.token.kind = .labelRef
  · rcases (Token.target_labelRef_iff reference).1 target with ⟨rfl, known⟩
    have further := tables x.token.text
    rw [known] at further
    rcases Option.map_eq_some_iff.1 further with ⟨address, bound, sum⟩
    have resolved : x.token.target moved = .ok (.literal, address) :=
      (Token.target_labelRef_iff reference).2 ⟨rfl, bound⟩
    refine ⟨⟨Mode.of .literal x.indirect, address⟩, ?_, rfl, ?_⟩
    · exact resolve_eq_ok_iff.2 ⟨.literal, address, resolved, rfl⟩
    · rw [if_pos (by simp [isReference, reference])]
      exact sum
  · rw [Token.target_of_not_labelRef reference] at target
    refine ⟨⟨Mode.of kind x.indirect, w⟩, ?_, rfl, ?_⟩
    · exact resolve_eq_ok_iff.2 ⟨kind, w, target, rfl⟩
    · rw [if_neg (by simp [isReference, reference]), Nat.add_zero]

theorem WrittenOperand.resolved_movedBy (tables : labels.MovedBy k moved)
    {xs : List WrittenOperand} {ys : List Operand}
    (resolved : List.Forall₂ (fun x y => x.resolve labels = .ok y) xs ys) :
    ∃ zs, List.Forall₂ (fun x z => x.resolve moved = .ok z) xs zs ∧
      ∀ slot : Nat, (ys[slot]?.getD .empty).GrownBy
        (if xs[slot]?.any isReference then k else 0) (zs[slot]?.getD .empty) := by
  induction resolved with
  | nil => exact ⟨[], .nil, fun _ => ⟨rfl, rfl⟩⟩
  | cons first _ ih =>
      rcases resolve_movedBy tables first with ⟨z, resolves, grown⟩
      rcases ih with ⟨zs, others, grown_others⟩
      refine ⟨z :: zs, .cons resolves others, ?_⟩
      intro slot
      cases slot with
      | zero => exact grown
      | succ slot => exact grown_others slot

/-- The block of a statement: the values of its references grow, and nothing else changes. -/
theorem Statement.encode_movedBy (tables : labels.MovedBy k moved) {s : Statement} {block : Block}
    (encoded : s.encode labels = .ok block) :
    ∃ other, s.encode moved = .ok other ∧ ∀ (i : Nat) w, block.words[i]? = some w →
      ∃ v, other.words[i]? = some v ∧
        v.toNat = w.toNat + if s.isReferenceWord i then k else 0 := by
  rcases encode_eq_ok_iff.1 encoded with ⟨_, made, rfl⟩
  rcases instruction_eq_ok_iff.1 made with ⟨op, ys, known, count, resolved, rfl⟩
  rcases WrittenOperand.resolved_movedBy tables resolved with ⟨zs, resolves, grown⟩
  have made_moved : s.instruction moved = .ok (.ofOperands op zs) :=
    instruction_eq_ok_iff.2 ⟨op, zs, known, count, resolves, rfl⟩
  have control : (Instruction.ofOperands op zs).control =
      (Instruction.ofOperands op ys).control := by
    simp only [Instruction.control, Instruction.ofOperands, (grown 0).mode, (grown 1).mode,
      (grown 2).mode]
  refine ⟨_, encode_eq_ok_iff.2 ⟨_, made_moved, rfl⟩, ?_⟩
  intro i w at_i
  have bound : i < 4 := (List.getElem?_eq_some_iff.1 at_i).1
  have slot : i = 0 ∨ i = 1 ∨ i = 2 ∨ i = 3 := by omega
  rcases slot with rfl | rfl | rfl | rfl
  · cases at_i
    exact ⟨_, rfl, congrArg UInt64.toNat control⟩
  · cases at_i
    exact ⟨_, rfl, (grown 0).value⟩
  · cases at_i
    exact ⟨_, rfl, (grown 1).value⟩
  · cases at_i
    exact ⟨_, rfl, (grown 2).value⟩

end Statements

/-! ## Images -/

/-- The words of the blocks of some statements, one behind the other from zero on in one image, are
further on in another, where the values of references have grown and all other words are zero. -/
structure Image.MovedBy (k : Nat) (done : List Statement) (image moved : Image) : Prop where
  inside : ∀ j, j < 4 * done.length →
    (moved.wordAt (k + j)).toNat =
      (image.wordAt j).toNat + if isReferenceWord done j then k else 0
  outside : ∀ a, a < k ∨ k + 4 * done.length ≤ a → moved.wordAt a = 0

theorem Image.MovedBy.place {k : Nat} {done : List Statement} {image moved : Image}
    (h : Image.MovedBy k done image moved) {p q : Image.Placement} {s : Statement}
    (address : p.address.toNat = 4 * done.length)
    (further : q.address.toNat = k + 4 * done.length)
    (words : ∀ (i : Nat) w, p.block.words[i]? = some w →
      ∃ v, q.block.words[i]? = some v ∧
        v.toNat = w.toNat + if s.isReferenceWord i then k else 0) :
    Image.MovedBy k (done ++ [s]) (image.place p) (moved.place q) := by
  have count : (done ++ [s]).length = done.length + 1 := List.length_append
  constructor
  · intro j bound
    by_cases earlier : j < 4 * done.length
    · rw [isReferenceWord_append [s] earlier, Image.wordAt_place_outside image p (by omega),
        Image.wordAt_place_outside moved q (by omega)]
      exact h.inside j earlier
    · -- The word belongs to the block that is put now.
      rcases Nat.exists_eq_add_of_le (Nat.le_of_not_lt earlier) with ⟨i, rfl⟩
      have within : i < 4 := by omega
      have first := Image.wordAt_place_inside image p (n := 4 * done.length + i) (by omega)
        (by omega)
      have second := Image.wordAt_place_inside moved q (n := k + (4 * done.length + i)) (by omega)
        (by omega)
      have offset : k + (4 * done.length + i) - q.address.toNat = i := by omega
      rw [address, Nat.add_sub_cancel_left] at first
      rw [offset] at second
      rcases words i _ first with ⟨v, at_i, grown⟩
      rw [second, Option.some.injEq] at at_i
      rw [isReferenceWord_last done s within, at_i, grown]
  · intro a outside
    rw [Image.wordAt_place_outside moved q (by omega)]
    exact h.outside a (by omega)

section ImagePass

variable {d : Dialect} {k : Nat} {labels moved : Labels} {lines : List Line}

theorem imageRun_movedBy {start : Word} (baseless : Baseless lines) (origin : start.toNat = k)
    (room : k + 4 * (Line.statements lines).length ≤ memorySize) (tables : labels.MovedBy k moved)
    {s : Pass Image} (walked : imagePass d labels lines = .ok s) :
    ∃ t, Pass.run d (Placed.emit moved) ⟨start, .zero⟩ lines = .ok t ∧
      Image.MovedBy k (Line.statements lines) s.made t.made := by
  induction lines using List.reverseRecOn generalizing s with
  | nil =>
      cases walked
      refine ⟨_, rfl, ?_, ?_⟩
      · intro j bound
        cases bound
      · intro a _
        exact Image.wordAt_zero a
  | append_singleton lines line ih =>
      rcases Pass.run_append_eq_ok_iff.1 walked with ⟨u, before, met⟩
      rw [Pass.run_singleton] at met
      rw [Line.statements_append] at room ⊢
      rw [List.length_append] at room
      rcases ih baseless.of_append (by omega) before with ⟨v, before_moved, images⟩
      have small : k + 4 * (Line.statements lines).length < UInt64.size := by
        simp only [memorySize, UInt64.size] at room ⊢
        omega
      rcases Pass.cursors_of_baseless baseless.of_append origin small before before_moved with
        ⟨cursor, further⟩
      rcases baseless.cases (List.mem_append_right lines List.mem_cons_self) with
        passive | ⟨statement, rfl⟩
      · rw [imageStep_of_isPassive passive] at met
        cases met
        refine ⟨v, Pass.run_append_eq_ok_iff.2 ⟨v, before_moved, ?_⟩, ?_⟩
        · rw [Pass.run_singleton, imageStep_of_isPassive passive]
        · rw [Line.statements_of_isPassive passive, List.append_nil]
          exact images
      · rcases imageStep_instruction_eq_ok_iff.1 met with ⟨block, fits, encoded, rfl⟩
        rcases Statement.encode_movedBy tables encoded with ⟨other, encoded_moved, words⟩
        have one : (Line.statements [.instruction statement]).length = 1 := rfl
        have fits_moved : Image.Fits v.cursor := by
          simp only [Image.Fits, further, blockSize]
          omega
        refine ⟨⟨v.cursor + 4, v.made.place ⟨v.cursor, other, fits_moved⟩⟩,
          Pass.run_append_eq_ok_iff.2 ⟨v, before_moved, ?_⟩, ?_⟩
        · rw [Pass.run_singleton]
          exact imageStep_instruction_eq_ok_iff.2 ⟨other, fits_moved, encoded_moved, rfl⟩
        · show Image.MovedBy k (Line.statements lines ++ [statement])
            (u.made.place ⟨u.cursor, block, fits⟩) (v.made.place ⟨v.cursor, other, fits_moved⟩)
          exact images.place cursor further words

end ImagePass

/-! ## A leading base -/

theorem Pass.run_base {β : Type} {d : Dialect} {act : β → Placed → Except SourceError β}
    {args : List Token} {address : Word} (known : baseAddress? d args = some address.toNat)
    {made : β} {cursor : Word} {position : Position} (lines : List Line)
    (passes : act made ⟨cursor, .specifier baseName args position⟩ = .ok made) :
    run d act ⟨cursor, made⟩ (.specifier baseName args position :: lines) =
      run d act ⟨address, made⟩ lines := by
  have moved : (Line.specifier baseName args position).cursorAfter d cursor = .ok address := by
    rw [Line.cursorAfter, if_pos rfl, baseValue_eq_ok_iff, known]
  have met : step d act ⟨cursor, made⟩ (.specifier baseName args position) =
      .ok ⟨address, made⟩ :=
    step_eq_ok_iff.2 ⟨passes, moved⟩
  rw [run_cons, met, bind_ok]

/-- Code is relocatable by a leading base.  If both passes accept lines without a base, and there is
room for their blocks from an address on, then they accept the lines behind a base of this address:
every label is bound that much further on, each word is found that much further on, where it has
grown by the address exactly if it is the value of an operand that refers to a label, and all other
words are zero. -/
theorem code_is_relocatable {d : Dialect} {lines : List Line} {labels : Labels} {image : Image}
    {k : Nat} (arg : Token) (position : Position) (baseless : Baseless lines)
    (bound : Labels.ofLines d lines = .ok labels)
    (emitted : Image.ofLines d labels lines = .ok image)
    (number : arg.kind = .number) (value : Numeral.decimal? arg.text = some k)
    (room : k + 4 * (Line.statements lines).length ≤ memorySize)
    (aligned : d.alignedBase = true → k % 4 = 0) :
    let further := Line.specifier baseName [arg] position :: lines
    ∃ moved image', Labels.ofLines d further = .ok moved ∧
      Image.ofLines d moved further = .ok image' ∧
      (∀ name : Bytes, moved[name]?.map UInt64.toNat =
        labels[name]?.map fun address : Word => address.toNat + k) ∧
      (∀ j, j < 4 * (Line.statements lines).length →
        (image'.wordAt (k + j)).toNat =
          (image.wordAt j).toNat + if isReferenceWord (Line.statements lines) j then k else 0) ∧
      ∀ a, a < k ∨ k + 4 * (Line.statements lines).length ≤ a → image'.wordAt a = 0 := by
  intro further
  have small : k + 4 * (Line.statements lines).length < UInt64.size := by
    simp only [memorySize, UInt64.size] at room ⊢
    omega
  have origin : (UInt64.ofNat k).toNat = k := UInt64.toNat_ofNat_of_lt' (by omega)
  have known : baseAddress? d [arg] = some (UInt64.ofNat k).toNat := by
    rw [origin]
    exact baseAddress?_eq_some_iff.2 ⟨arg, rfl, number, value, by omega, aligned⟩
  rw [Labels.ofLines_eq_labelPass, map_eq_ok_iff] at bound
  rw [Image.ofLines_eq_imagePass, map_eq_ok_iff] at emitted
  rcases bound with ⟨s, labelled, rfl⟩
  rcases emitted with ⟨t, placed, rfl⟩
  rcases labelRun_movedBy baseless origin small labelled with ⟨u, labelled_further, tables⟩
  rcases imageRun_movedBy baseless origin room tables placed with ⟨v, placed_further, images⟩
  refine ⟨u.made, v.made, ?_, ?_, tables, images.inside, images.outside⟩
  · rw [Labels.ofLines_eq_labelPass, labelPass, Pass.run_base known lines rfl, labelled_further]
    rfl
  · rw [Image.ofLines_eq_imagePass, imagePass, Pass.run_base known lines rfl, placed_further]
    rfl

/-- A jump forward to a label that is defined twice, and a literal equal to the address it is bound
to at last. -/
def twiceLabelledLines : List Line :=
  [.instruction
      ⟨Bytes.ofString "jmp", [⟨false, ⟨.labelRef, Bytes.ofString "a", [], 0, 0, .none⟩⟩], .none⟩,
    .label (Bytes.ofString "a") .none,
    .instruction
      ⟨Bytes.ofString "mov", [⟨false, ⟨.register, Bytes.ofString "r0", [], 0, 0, .none⟩⟩,
        ⟨false, ⟨.literal, Bytes.ofString "8", [], 0, 0, .none⟩⟩], .none⟩,
    .label (Bytes.ofString "a") .none,
    .instruction ⟨Bytes.ofString "halt", [], .none⟩]

def hundred : Token := ⟨.number, Bytes.ofString "100", [], 0, 0, .none⟩

theorem twice_labelled_lines_relocated :
    ∃ labels image moved image', Labels.ofLines .standard twiceLabelledLines = .ok labels ∧
      Image.ofLines .standard labels twiceLabelledLines = .ok image ∧
      Labels.ofLines .standard (.specifier baseName [hundred] .none :: twiceLabelledLines) =
        .ok moved ∧
      Image.ofLines .standard moved (.specifier baseName [hundred] .none :: twiceLabelledLines) =
        .ok image' ∧
      (image'.wordAt 101).toNat = (image.wordAt 1).toNat + 100 ∧
      (image'.wordAt 106).toNat = (image.wordAt 6).toNat := by
  have accepted : (Labels.ofLines .standard twiceLabelledLines >>= fun labels =>
      Image.ofLines .standard labels twiceLabelledLines).isOk = true := by decide
  rcases isOk_iff.1 accepted with ⟨image, made⟩
  rcases bind_eq_ok_iff.1 made with ⟨labels, bound, emitted⟩
  have baseless : Baseless twiceLabelledLines := by
    intro args position member
    simp [twiceLabelledLines] at member
  have value : Numeral.decimal? hundred.text = some 100 := by decide
  rcases code_is_relocatable hundred .none baseless bound emitted rfl value (by decide)
      (by decide) with
    ⟨moved, image', bound', emitted', -, inside, -⟩
  exact ⟨labels, image, moved, image', bound, emitted, bound', emitted', inside 1 (by decide),
    inside 6 (by decide)⟩

end WordMachine
