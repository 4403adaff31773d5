import WordMachine.Proofs.Assembly.Labels
import WordMachine.Proofs.Assembly.LastWriter
import WordMachine.Proofs.Source.Refusal

/-!
# How assembly fails

Each stage has errors of its own.  Reading refuses the first row that is not a line, the label pass
refuses labels and bases, and the image pass refuses the first instruction that has no block or no
room.  A base cannot fail in the image pass, since the label pass has met it before.  Every error
stands at a token of the source text.
-/

namespace WordMachine

open Results

/-! ## Instructions that are refused -/

/-- Why a token is not an operand. -/
inductive Token.Refused (labels : Labels) (t : Token) : SourceError.Cause → Prop
  | register (kind : t.kind = .register) (unknown : Register.ofName? t.text = none) :
      Refused labels t (.unknownRegister t.raw)
  | word (kind : t.kind = .literal ∨ t.kind = .number)
      (large : ∀ n, Numeral.decimal? t.text = some n → UInt64.size ≤ n) :
      Refused labels t (.wordOverflow t.raw)
  | label (kind : t.kind = .labelRef) (undefined : labels[t.text]? = none) :
      Refused labels t (.undefinedLabel t.text)
  | kind (other : t.kind ∉ [.register, .literal, .number, .labelRef]) :
      Refused labels t (.notAnOperand t.kind t.raw)

/-- Why an instruction is not put at the address `c`.  The mnemonic is looked at first, then the
number of operands, then each operand in turn, and the room in memory last. -/
inductive Statement.Refused (labels : Labels) (s : Statement) (c : Nat) : SourceError → Prop
  | mnemonic (unknown : Opcode.ofMnemonic? s.mnemonic = none) :
      Refused labels s c ⟨s.position, .unknownMnemonic s.mnemonic⟩
  | count {op : Opcode} (known : Opcode.ofMnemonic? s.mnemonic = some op)
      (differ : s.operands.length ≠ op.arity) :
      Refused labels s c ⟨s.position, .operandCount op.mnemonic op.arity s.operands.length⟩
  | operand {op : Opcode} {before after : List WrittenOperand} {x : WrittenOperand}
      {cause : SourceError.Cause} (known : Opcode.ofMnemonic? s.mnemonic = some op)
      (count : s.operands.length = op.arity) (split : s.operands = before ++ x :: after)
      (accepted : ∀ y ∈ before, ∃ z, y.resolve labels = .ok z)
      (refused : x.token.Refused labels cause) : Refused labels s c ⟨x.token.position, cause⟩
  | room {block : Block} (encoded : s.encode labels = .ok block) (beyond : memorySize < c + 4) :
      Refused labels s c ⟨s.position, .imageOverflow (.ofNat c)⟩

theorem Token.word_eq_error {t : Token} {e : SourceError} (h : t.word = .error e) :
    e = ⟨t.position, .wordOverflow t.raw⟩ ∧
      ∀ n, Numeral.decimal? t.text = some n → UInt64.size ≤ n := by
  unfold word at h
  split at h
  · rename_i n read
    split at h
    · cases h
    · rename_i large
      cases h
      refine ⟨rfl, ?_⟩
      intro k same
      rw [read] at same
      cases same
      exact Nat.le_of_not_lt large
  · rename_i unread
    cases h
    refine ⟨rfl, ?_⟩
    intro k same
    rw [unread] at same
    cases same

section Operands

variable {labels : Labels} {e : SourceError}

theorem Token.refused_of_target {t : Token} (h : t.target labels = .error e) :
    ∃ cause, e = ⟨t.position, cause⟩ ∧ t.Refused labels cause := by
  unfold target at h
  split at h
  · rename_i kind
    split at h
    · cases h
    · rename_i unknown
      cases h
      exact ⟨_, rfl, .register kind unknown⟩
  · rename_i kind
    split at h
    · cases h
    · rename_i failed
      cases h
      obtain ⟨rfl, large⟩ := word_eq_error failed
      exact ⟨_, rfl, .word (.inl kind) large⟩
  · rename_i kind
    split at h
    · cases h
    · rename_i failed
      cases h
      obtain ⟨rfl, large⟩ := word_eq_error failed
      exact ⟨_, rfl, .word (.inr kind) large⟩
  · rename_i kind
    split at h
    · cases h
    · rename_i undefined
      cases h
      exact ⟨_, rfl, .label kind undefined⟩
  · rename_i register literal number reference
    cases h
    refine ⟨_, rfl, .kind ?_⟩
    simpa using ⟨register, literal, number, reference⟩

theorem WrittenOperand.refused_of_resolve {x : WrittenOperand} (h : x.resolve labels = .error e) :
    ∃ cause, e = ⟨x.token.position, cause⟩ ∧ x.token.Refused labels cause := by
  unfold resolve at h
  split at h
  · cases h
  · rename_i failed
    cases h
    exact Token.refused_of_target failed

theorem Statement.refused_of_encode {s : Statement} (c : Nat) (h : s.encode labels = .error e) :
    s.Refused labels c e := by
  rw [encode, map_eq_error_iff, instruction] at h
  split at h
  · rename_i unknown
    cases h
    exact .mnemonic unknown
  · rename_i op known
    split at h
    · rename_i differ
      cases h
      exact .count known differ
    · rename_i count
      split at h
      · rename_i failed
        cases h
        obtain ⟨before, x, after, split, accepted, refused⟩ := exists_of_mapM_eq_error failed
        obtain ⟨cause, rfl, why⟩ := WrittenOperand.refused_of_resolve refused
        exact .operand known (Decidable.not_not.1 count) split accepted why
      · cases h

end Operands

namespace Statement.Refused

variable {labels : Labels} {s : Statement} {c : Nat} {e : SourceError}

theorem position_mem (h : s.Refused labels c e) :
    e.position ∈ (Line.instruction s).positions := by
  cases h with
  | mnemonic | count | room => exact List.mem_cons_self
  | operand known count split accepted refused =>
      refine .tail _ (List.mem_map.2 ⟨_, ?_, rfl⟩)
      rw [split]
      exact List.mem_append_right _ List.mem_cons_self

theorem category_mem (h : s.Refused labels c e) :
    e.category ∈ [SourceError.Category.unknownMnemonic, .operandCount, .invalidOperand,
      .undefinedLabel, .imageOverflow] := by
  cases h with
  | mnemonic | count | room => simp [SourceError.category, SourceError.Cause.category]
  | operand known count split accepted refused =>
      cases refused with
      | register | word | label | kind => simp [SourceError.category, SourceError.Cause.category]

theorem undefined (h : s.Refused labels c e) (category : e.category = .undefinedLabel) :
    ∃ name, e.cause = .undefinedLabel name ∧ labels[name]? = none := by
  cases h with
  | mnemonic | count | room => cases category
  | operand known count split accepted refused =>
      cases refused with
      | register | word | kind => cases category
      | label kind undefined => exact ⟨_, rfl, undefined⟩

end Statement.Refused

/-! ## The label pass -/

section LabelPass

variable {d : Dialect} {s : Pass Labels} {line : Line} {lines : List Line} {e : SourceError}

theorem baseValue_eq_error {args : List Token} {position : Position} (name : Bytes)
    (h : baseValue d args position = .error e) :
    e.category ∈ [SourceError.Category.malformed, .invalidOperand] ∧
      e.position ∈ (Line.specifier name args position).positions := by
  unfold baseValue at h
  split at h
  · rename_i arg
    split at h
    · split at h
      · rename_i failed
        cases h
        obtain ⟨rfl, -⟩ := Token.word_eq_error failed
        exact ⟨.tail _ List.mem_cons_self, .tail _ List.mem_cons_self⟩
      · split at h
        · cases h
          exact ⟨List.mem_cons_self, .tail _ List.mem_cons_self⟩
        · cases h
    · cases h
      exact ⟨List.mem_cons_self, List.mem_cons_self⟩
  · cases h
    exact ⟨List.mem_cons_self, List.mem_cons_self⟩

theorem labelStep_eq_error (h : Pass.step d (Labels.enter d) s line = .error e) :
    e.category ∈ [SourceError.Category.malformed, .invalidOperand] ∧
      e.position ∈ line.positions := by
  rw [Pass.step_eq_error_iff] at h
  cases line with
  | label name position =>
      rcases h with refused | ⟨-, moved⟩
      · simp only [Labels.enter] at refused
        split at refused
        · split at refused
          · cases refused
          · cases refused
            exact ⟨List.mem_cons_self, List.mem_cons_self⟩
        · cases refused
      · cases moved
  | specifier name args position =>
      rcases h with refused | ⟨-, moved⟩
      · cases refused
      · rw [Line.cursorAfter] at moved
        split at moved
        · exact baseValue_eq_error name moved
        · cases moved
  | instruction statement =>
      rcases h with refused | ⟨-, moved⟩
      · cases refused
      · cases moved

theorem Labels.ofLines_eq_error (h : Labels.ofLines d lines = .error e) :
    e.category ∈ [SourceError.Category.malformed, .invalidOperand] ∧
      ∃ line ∈ lines, e.position ∈ line.positions := by
  rw [Labels.ofLines_eq_labelPass, map_eq_error_iff] at h
  obtain ⟨k, line, t, at_k, -, refused⟩ := Pass.exists_of_run_eq_error h
  obtain ⟨category, position⟩ := labelStep_eq_error refused
  exact ⟨category, line, List.mem_of_getElem? at_k, position⟩

theorem label_not_mem_of_labelPass {name : Bytes} (h : labelPass d lines = .ok s)
    (unbound : s.made[name]? = none) (position : Position) : .label name position ∉ lines := by
  induction lines using List.reverseRecOn generalizing s with
  | nil => exact List.not_mem_nil
  | append_singleton lines line ih =>
      obtain ⟨t, before, final⟩ := Pass.run_append_eq_ok_iff.1 h
      rw [Pass.run_singleton] at final
      rcases labelStep_getElem? final name with ⟨-, bound⟩ | ⟨other, kept⟩
      · rw [unbound] at bound
        cases bound
      · rw [kept] at unbound
        rw [List.mem_append, List.mem_singleton, not_or]
        exact ⟨ih before unbound, (other position).symm⟩

end LabelPass

/-! ## The image pass -/

section ImagePass

variable {d : Dialect} {labels : Labels} {s : Pass Image} {line : Line} {lines : List Line}
  {e : SourceError}

theorem imageStep_error_cases (h : Pass.step d (Placed.emit labels) s line = .error e) :
    (∃ statement, line = .instruction statement ∧
      statement.Refused labels s.cursor.toNat e) ∨
    ∃ args position, line = .specifier baseName args position ∧ baseAddress? d args = none := by
  cases line with
  | label name position =>
      rw [imageStep_of_isPassive rfl] at h
      cases h
  | specifier name args position =>
      by_cases named : name = baseName
      · subst named
        refine .inr ⟨args, position, rfl, ?_⟩
        cases address : baseAddress? d args with
        | none => rfl
        | some n =>
            obtain ⟨t, met⟩ : ∃ t, Pass.step d (Placed.emit labels) s
                (.specifier baseName args position) = .ok t := by
              refine imageStep_succeeds ?_ nofun nofun
              rintro _ _ ⟨⟩
              rw [address]
              rfl
            rw [met] at h
            cases h
      · rw [imageStep_of_isPassive (by simpa [Line.isPassive] using named)] at h
        cases h
  | instruction statement =>
      refine .inl ⟨statement, rfl, ?_⟩
      cases encoded : statement.encode labels with
      | error found =>
          rw [Pass.step_eq_error_iff] at h
          simp only [Placed.emit, Placed.placement?, encoded] at h
          rcases h with same | ⟨⟨made, accepted⟩, -⟩
          · cases same
            exact Statement.refused_of_encode _ encoded
          · cases accepted
      | ok block =>
          by_cases fits : Image.Fits s.cursor
          · rw [imageStep_instruction_eq_ok_iff.2 ⟨block, fits, encoded, rfl⟩] at h
            cases h
          · rw [Pass.step_eq_error_iff] at h
            simp only [Placed.emit, Placed.placement?, encoded, fits, dite_false] at h
            rcases h with same | ⟨⟨made, accepted⟩, -⟩
            · cases same
              have beyond : memorySize < s.cursor.toNat + 4 := Nat.lt_of_not_le fits
              simpa using Statement.Refused.room encoded beyond
            · cases accepted

/-- Line number `k` is the first instruction that is refused, at the address `c`.  All earlier ones
have a block and room for it, and no base is without an address. -/
structure FirstRefused (d : Dialect) (labels : Labels) (lines : List Line) (e : SourceError)
    (k : Nat) (statement : Statement) (c : Nat) : Prop where
  placed : PlacedAt d lines k statement c
  refused : statement.Refused labels c e
  earlier : ∀ j other a, j < k → PlacedAt d lines j other a →
    (∃ block, other.encode labels = .ok block) ∧ a + 4 ≤ memorySize
  bases : ∀ args position, .specifier baseName args position ∈ lines →
    (baseAddress? d args).isSome

/-- Where every base has an address, the image pass fails for the first instruction that is
refused. -/
theorem imagePass_first_refused
    (bases : ∀ args position, .specifier baseName args position ∈ lines →
      (baseAddress? d args).isSome)
    (h : imagePass d labels lines = .error e) :
    ∃ k statement c, FirstRefused d labels lines e k statement c := by
  obtain ⟨k, line, t, at_k, reached, failed⟩ := Pass.exists_of_run_eq_error h
  rcases imageStep_error_cases failed with ⟨statement, rfl, refused⟩ | ⟨args, position, rfl, none⟩
  · refine ⟨k, statement, _, ⟨at_k, imagePass_address reached⟩, refused, ?_, bases⟩
    intro j other a earlier placed
    obtain ⟨-, blocks, fits⟩ := imagePass_succeeds_iff.1 ⟨t, reached⟩
    have bound := (List.getElem?_eq_some_iff.1 at_k).1
    have inside : j < (lines.take k).length := by
      rw [List.length_take]
      omega
    rw [← List.take_append_drop k lines, placedAt_append_iff _ inside] at placed
    exact ⟨blocks other (List.mem_of_getElem? placed.1), fits j other a placed⟩
  · have some_address := bases args position (List.mem_of_getElem? at_k)
    rw [none] at some_address
    cases some_address

end ImagePass

/-! ## All stages -/

section Stages

variable {d : Dialect} {source : Bytes} {lines : List Line} {labels : Labels} {e : SourceError}

theorem token_of_position (parsed : Line.parse d (tokenize source) = .ok lines) {line : Line}
    (member : line ∈ lines) {position : Position} (inside : position ∈ line.positions) :
    ∃ t ∈ tokenize source, position = t.position ∧ 1 ≤ t.position.line := by
  obtain ⟨t, of_source, rfl⟩ := List.mem_map.1 (Line.positions_of_parse parsed member inside)
  exact ⟨t, of_source, rfl, line_of_mem_tokenize of_source⟩

theorem Image.ofLines_eq_error (bound : Labels.ofLines d lines = .ok labels)
    (h : Image.ofLines d labels lines = .error e) :
    ∃ k statement c, FirstRefused d labels lines e k statement c := by
  rw [Labels.ofLines_eq_labelPass, map_eq_ok_iff] at bound
  rw [Image.ofLines_eq_imagePass, map_eq_error_iff] at h
  obtain ⟨s, labelled, -⟩ := bound
  exact imagePass_first_refused (fun _ _ => Pass.baseAddress?_of_run labelled) h

theorem label_not_mem_of_ofLines {name : Bytes} (bound : Labels.ofLines d lines = .ok labels)
    (undefined : labels[name]? = none) (position : Position) : .label name position ∉ lines := by
  rw [Labels.ofLines_eq_labelPass, map_eq_ok_iff] at bound
  obtain ⟨s, labelled, rfl⟩ := bound
  exact label_not_mem_of_labelPass labelled undefined position

end Stages

/-- Every failure is classified and located.  It stands at a token of the source text.  Reading
fails as malformed, at the first row that is not a line.  The label pass fails as malformed or for
an invalid operand.  The image pass fails in one of the five other categories, for the first
instruction that is refused and never for a specifier.  A label is reported as undefined only if no
line defines it. -/
theorem assembly_failure_is_located {d : Dialect} {source : Bytes} {e : AssemblyError}
    (failed : assemble d source = .error e) :
    (∃ t ∈ tokenize source, e.error.position = t.position ∧ 1 ≤ t.position.line) ∧
    (e.stage = .parsing → e.error.category = .malformed ∧
      ∃ before row after, tokenRows (tokenize source) = before ++ row :: after ∧
        (∀ other ∈ before, Line.Formed d other) ∧ ¬ Line.Formed d row ∧
        ∃ t ∈ row, e.error.position = t.position) ∧
    (e.stage = .labels → e.error.category ∈ [SourceError.Category.malformed, .invalidOperand]) ∧
    (e.stage = .code →
      e.error.category ∈ [SourceError.Category.unknownMnemonic, .operandCount, .invalidOperand,
        .undefinedLabel, .imageOverflow] ∧
      ∃ lines labels k statement c, Line.parse d (tokenize source) = .ok lines ∧
        Labels.ofLines d lines = .ok labels ∧
        FirstRefused d labels lines e.error k statement c ∧
        e.error.position ∈ (Line.instruction statement).positions) ∧
    (e.error.category = .undefinedLabel → ∃ name lines, e.error.cause = .undefinedLabel name ∧
      Line.parse d (tokenize source) = .ok lines ∧ ∀ position, .label name position ∉ lines) := by
  obtain ⟨stage, error⟩ := e
  rcases assemble_eq_error_iff.1 failed with ⟨rfl, refused⟩ | ⟨rfl, lines, parsed, refused⟩ |
      ⟨rfl, lines, labels, parsed, bound, refused⟩
  · obtain ⟨before, row, after, split, formed, ill_formed, malforms⟩ :=
      Line.first_row_of_parse_error refused
    obtain ⟨t, inside, position⟩ := malforms.located
    have of_source : t ∈ tokenize source := by
      refine mem_of_mem_tokenRows ?_ inside
      rw [split]
      exact List.mem_append_right _ List.mem_cons_self
    refine ⟨⟨t, of_source, position, line_of_mem_tokenize of_source⟩, ?_, nofun, nofun, ?_⟩
    · exact fun _ => ⟨malforms.malformed, before, row, after, split, formed, ill_formed,
        t, inside, position⟩
    · intro category
      rw [malforms.malformed] at category
      cases category
  · obtain ⟨category, line, member, position⟩ := Labels.ofLines_eq_error refused
    refine ⟨token_of_position parsed member position, nofun, fun _ => category, nofun, ?_⟩
    intro undefined
    rw [undefined] at category
    simp at category
  · obtain ⟨k, statement, c, first⟩ := Image.ofLines_eq_error bound refused
    have position := first.refused.position_mem
    have located := token_of_position parsed (List.mem_of_getElem? first.placed.1) position
    refine ⟨located, nofun, nofun, ?_, ?_⟩
    · exact fun _ => ⟨first.refused.category_mem, lines, labels, k, statement, c, parsed, bound,
        first, position⟩
    · intro category
      obtain ⟨name, cause, undefined⟩ := first.refused.undefined category
      exact ⟨name, lines, cause, parsed, label_not_mem_of_ofLines bound undefined⟩

/-- A jump to a label that no line defines, behind a base and an instruction that are in order and
before an instruction that is not. -/
def danglingSource : Bytes := Bytes.ofString "start: .base 8\n  inc r0\n  jmp :nowhere\nfrob\n"

def danglingError : AssemblyError :=
  ⟨.code, ⟨3, 7⟩, .undefinedLabel (Bytes.ofString "nowhere")⟩

theorem dangling_reference_is_located :
    assemble .standard danglingSource = .error danglingError ∧
      (∃ t ∈ tokenize danglingSource, danglingError.error.position = t.position ∧
        1 ≤ t.position.line) ∧
      ∃ lines labels k statement c, FirstRefused .standard labels lines danglingError.error k
        statement c ∧ ∀ position, .label (Bytes.ofString "nowhere") position ∉ lines := by
  have failed : assemble .standard danglingSource = .error danglingError := by decide +kernel
  obtain ⟨located, -, -, code, undefined⟩ := assembly_failure_is_located failed
  obtain ⟨-, lines, labels, k, statement, c, parsed, -, first, -⟩ := code rfl
  obtain ⟨name, others, same, again, absent⟩ := undefined rfl
  cases same
  rw [parsed, Except.ok.injEq] at again
  subst again
  exact ⟨failed, located, lines, labels, k, statement, c, first, absent⟩

end WordMachine
