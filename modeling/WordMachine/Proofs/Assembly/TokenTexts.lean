import WordMachine.Proofs.Assembly.Failures
import WordMachine.Proofs.Source.Shapes
import WordMachine.Proofs.Text.Numeral

/-!
# What the texts of tokens stand for

The rules that cut source text into tokens and the tables that the tokens are looked up in are
written apart.  They agree: a word is a register for the rules exactly if the table has a register
of that name, what the rules take for a number can be read as one, and a name comes without the
sigil that marks it.  So a register in source text is never unknown, and a number is refused only if
it is too large.
-/

namespace WordMachine

/-! ## Names of registers -/

namespace Register

theorem ofName?_eq_some_iff {name : Bytes} {r : Register} :
    ofName? name = some r ↔ Bytes.ofString r.name = name := by
  constructor
  · intro found
    have same := List.find?_some (p := fun r : Register => Bytes.ofString r.name == name) found
    exact beq_iff_eq.1 same
  · rintro rfl
    exact ofName?_name r

theorem ofString_name_of_lt {n : Nat} (general : n < 16) :
    Bytes.ofString (name ⟨n, Nat.lt_trans general (by decide)⟩) =
      0x72 :: Bytes.ofString (toString n) := by
  have names : ∀ k : Fin 16, Bytes.ofString (name ⟨k, Nat.lt_trans k.isLt (by decide)⟩) =
      0x72 :: Bytes.ofString (toString k.val) := by decide +kernel
  exact names ⟨n, general⟩

end Register

namespace LexicalRule

/-- What the rule for registers wants after the `r` completes the name of one. -/
theorem exists_name_of_isRegisterTail {tail : Bytes} (known : isRegisterTail tail = true) :
    ∃ r : Register, Bytes.ofString r.name = 0x72 :: tail := by
  unfold isRegisterTail at known
  split at known
  · rename_i d
    have small := (Numeral.digitValue_of_isDigit known).1
    have numeral := Numeral.ofString_toString_digitValue known
    exact ⟨_, (Register.ofString_name_of_lt (by omega)).trans (congrArg _ numeral)⟩
  · rename_i x y
    simp only [Bool.or_eq_true, Bool.and_eq_true, beq_iff_eq, decide_eq_true_eq, and_assoc] at known
    rcases known with (⟨rfl, low, high⟩ | ⟨rfl, rfl | rfl⟩) | ⟨rfl, rfl⟩
    · -- A one and a digit up to five are the numeral of a general register from ten on.
      have below : y ≤ 0x39 := UInt8.le_trans high (by decide)
      have digit : Ascii.isDigit y = true := by simp [Ascii.isDigit, low, below]
      have small : Ascii.digitValue y ≤ 5 := Nat.sub_le_sub_right high 0x30
      have numeral := Numeral.ofString_toString_append (n := 1) (by decide) digit
      exact ⟨_, (Register.ofString_name_of_lt (by omega)).trans (congrArg _ numeral)⟩
    · exact ⟨16, by decide⟩
    · exact ⟨17, by decide⟩
    · exact ⟨18, by decide⟩
  · simp only [Bool.or_eq_true, Bool.and_eq_true, beq_iff_eq, and_assoc] at known
    rcases known with ⟨rfl, rfl, rfl⟩ | ⟨rfl, rfl, rfl⟩
    · exact ⟨19, by decide⟩
    · exact ⟨20, by decide⟩
  · cases known

/-- The rule for registers and the table of registers know the same words. -/
theorem isRegisterWord_iff {word : Bytes} :
    isRegisterWord word = true ↔ ∃ r, Register.ofName? word = some r := by
  constructor
  · intro known
    cases word with
    | nil => cases known
    | cons b tail =>
        rw [isRegisterWord, Bool.and_eq_true, beq_iff_eq] at known
        rcases known with ⟨rfl, known⟩
        rcases exists_name_of_isRegisterTail known with ⟨r, name⟩
        exact ⟨r, Register.ofName?_eq_some_iff.2 name⟩
  · rintro ⟨r, found⟩
    have names : ∀ r : Register, isRegisterWord (Bytes.ofString r.name) = true := by decide
    rw [← Register.ofName?_eq_some_iff.1 found]
    exact names r

end LexicalRule

/-! ## Texts of lexemes -/

namespace Token.Kind

/-- The bytes that a token of a kind with a text stands for: its text with the sigil of the kind. -/
def withSigil : Token.Kind → Bytes → Bytes
  | label, text => text ++ [Ascii.colon]
  | labelRef, text => Ascii.colon :: text
  | specifier, text => Ascii.dot :: text
  | literal, text => Ascii.hash :: text
  | _, text => text

namespace Shape

variable {kind : Token.Kind} {raw : Bytes}

theorem withSigil_textOf (h : kind.Shape raw) (no_end : kind ≠ .newline) :
    kind.withSigil (kind.textOf raw) = raw := by
  cases h with
  | feed | carriage => exact absurd rfl no_end
  | label all nonempty => simp [withSigil, textOf]
  | _ => rfl

theorem textOf_digits (h : kind.Shape raw) (numeric : kind ∈ [.literal, .number]) :
    kind.textOf raw ≠ [] ∧ ∀ b ∈ kind.textOf raw, Ascii.isDigit b := by
  cases h with
  | literal all nonempty => exact ⟨nonempty, all⟩
  | number all nonempty => exact ⟨nonempty, all⟩
  | _ => simp at numeric

theorem textOf_word (h : kind.Shape raw) (named : kind ∈ [.label, .labelRef, .specifier]) :
    kind.textOf raw ≠ [] ∧ ∀ b ∈ kind.textOf raw, Ascii.isWord b := by
  cases h with
  | label all nonempty =>
      rw [textOf, List.dropLast_concat]
      exact ⟨nonempty, all⟩
  | labelRef all nonempty => exact ⟨nonempty, all⟩
  | specifier all nonempty => exact ⟨nonempty, all⟩
  | _ => simp at named

theorem exists_register (h : Shape .register raw) : ∃ r, Register.ofName? raw = some r := by
  cases h with
  | register all known => exact LexicalRule.isRegisterWord_iff.1 known

theorem no_register (h : Shape .identifier raw) : Register.ofName? raw = none := by
  cases h with
  | identifier all no_digit unknown =>
      rw [Option.eq_none_iff_forall_ne_some]
      intro r found
      rw [LexicalRule.isRegisterWord_iff.2 ⟨r, found⟩] at unknown
      cases unknown

end Shape

end Token.Kind

/-! ## Looking up the tokens of a source text -/

section Lookup

variable {source : Bytes} {t : Token} {labels : Labels} {e : SourceError}

theorem Token.exists_register_of_mem (lexed : t ∈ tokenize source) (kind : t.kind = .register) :
    ∃ r, Register.ofName? t.text = some r := by
  rcases shape_of_mem_tokenize lexed (by simp [kind]) with ⟨shape, text⟩
  rw [kind] at shape text
  rw [text]
  exact shape.exists_register

theorem Token.word_of_denotes {n : Nat} (h : Numeral.Denotes t.text n) :
    ((∃ e, t.word = .error e) ↔ UInt64.size ≤ n) ∧
      (n < UInt64.size → ∃ w, t.word = .ok w ∧ w.toNat = n) := by
  have read := Numeral.decimal?_eq_some_iff.2 h
  have fits (small : n < UInt64.size) : t.word = .ok (.ofNat n) := by
    rw [word_eq_ok_iff, read, UInt64.toNat_ofNat_of_lt' small]
  refine ⟨⟨?_, ?_⟩, fun small => ⟨_, fits small, UInt64.toNat_ofNat_of_lt' small⟩⟩
  · rintro ⟨e, failed⟩
    exact (word_eq_error failed).2 n read
  · intro large
    cases value : t.word with
    | error e => exact ⟨e, rfl⟩
    | ok w =>
        have bound := w.toNat_lt
        rw [word_eq_ok_iff, read, Option.some.injEq] at value
        rw [UInt64.size] at large
        omega

theorem WrittenOperand.register_known {x : WrittenOperand} (lexed : x.token ∈ tokenize source)
    (refused : x.resolve labels = .error e) (raw : Bytes) : e.cause ≠ .unknownRegister raw := by
  obtain ⟨cause, rfl, why⟩ := refused_of_resolve refused
  cases why with
  | register kind unknown =>
      rcases Token.exists_register_of_mem lexed kind with ⟨r, found⟩
      rw [found] at unknown
      cases unknown
  | word | label | kind => exact nofun

end Lookup

namespace Line

variable {d : Dialect} {row tokens : List Token} {lines : List Line} {s : Statement}
  {x : WrittenOperand}

theorem operand_mem_of_spells (h : Spells row lines) (member : .instruction s ∈ lines)
    (inside : x ∈ s.operands) : x.token ∈ row := by
  induction h with
  | nothing => cases member
  | label label rest ih =>
      rcases List.mem_cons.1 member with same | later
      · cases same
      · exact .tail _ (ih later)
  | specifier specifier => cases List.mem_singleton.1 member
  | instruction identifier spells =>
      cases List.mem_singleton.1 member
      exact .tail _ (WrittenOperand.token_mem_of_spells spells inside)

theorem operand_mem_of_parse (h : parse d tokens = .ok lines) (member : .instruction s ∈ lines)
    (inside : x ∈ s.operands) : x.token ∈ tokens := by
  obtain ⟨-, parts, spells, rfl⟩ := parse_eq_ok_iff_spells.1 h
  obtain ⟨part, among, within⟩ := List.mem_flatten.1 member
  obtain ⟨row, of_tokens, spelled⟩ := Results.exists_mem_of_forall₂ spells among
  exact mem_of_mem_tokenRows of_tokens (operand_mem_of_spells spelled within inside)

end Line

/-- The texts of tokens agree with the tables they are looked up in, whatever the source text.  The
text of a register is the name of one and that of an identifier is not.  The text of a literal or a
number is digits, the numeral of a number behind some zeros; its word is that number, and it has
none exactly if the number is `2 ^ 64` or more.  The text of a label, a reference or a specifier is
a word, without the sigil.  An operand made of such a token, and so each operand of an instruction
that is read, is never refused as an unknown register. -/
theorem token_texts_agree_with_tables (source : Bytes) :
    (∀ t ∈ tokenize source,
      (t.kind = .register → ∃ r, Register.ofName? t.text = some r) ∧
      (t.kind = .identifier → Register.ofName? t.text = none) ∧
      (t.kind ∈ [Token.Kind.literal, .number] →
        t.text ≠ [] ∧ (∀ b ∈ t.text, Ascii.isDigit b) ∧ (∃ n, Numeral.Denotes t.text n) ∧
        ∀ n, Numeral.Denotes t.text n →
          ((∃ e, t.word = .error e) ↔ UInt64.size ≤ n) ∧
          (n < UInt64.size → ∃ w, t.word = .ok w ∧ w.toNat = n)) ∧
      (t.kind ∈ [Token.Kind.label, .labelRef, .specifier] →
        t.text ≠ [] ∧ (∀ b ∈ t.text, Ascii.isWord b) ∧ t.raw = t.kind.withSigil t.text) ∧
      ∀ labels indirect e raw,
        WrittenOperand.resolve labels ⟨indirect, t⟩ = .error e → e.cause ≠ .unknownRegister raw) ∧
    ∀ d lines s x labels e raw, Line.parse d (tokenize source) = .ok lines →
      .instruction s ∈ lines → x ∈ s.operands → x.resolve labels = .error e →
      e.cause ≠ .unknownRegister raw := by
  constructor
  · intro t lexed
    refine ⟨Token.exists_register_of_mem lexed, ?_, ?_, ?_, ?_⟩
    · intro kind
      rcases Token.shape_of_mem_tokenize lexed (by simp [kind]) with ⟨shape, text⟩
      rw [kind] at shape text
      rw [text]
      exact shape.no_register
    · intro numeric
      have known : t.kind ≠ .unknown := fun unknown => by simp [unknown] at numeric
      rcases Token.shape_of_mem_tokenize lexed known with ⟨shape, text⟩
      have digits := shape.textOf_digits numeric
      rw [← text] at digits
      exact ⟨digits.1, digits.2, ⟨_, Numeral.denotes_ofDigits digits.2 digits.1⟩,
        fun n => Token.word_of_denotes⟩
    · intro named
      have known : t.kind ≠ .unknown := fun unknown => by simp [unknown] at named
      have no_end : t.kind ≠ .newline := fun newline => by simp [newline] at named
      rcases Token.shape_of_mem_tokenize lexed known with ⟨shape, text⟩
      have word := shape.textOf_word named
      have sigil := shape.withSigil_textOf no_end
      rw [← text] at word sigil
      exact ⟨word.1, word.2, sigil.symm⟩
    · exact fun labels indirect e raw refused => WrittenOperand.register_known lexed refused raw
  · intro d lines s x labels e raw parsed member inside refused
    have lexed := Line.operand_mem_of_parse parsed member inside
    exact WrittenOperand.register_known lexed refused raw

/-- A number of one more than the greatest word, behind two zeros, and a register right after its
digits. -/
theorem digits_before_register_agree :
    let source := Bytes.ofString "inc 0018446744073709551616r15"
    let digits := Bytes.ofString "0018446744073709551616"
    let number : Token := ⟨.number, digits, digits, 4, 26, ⟨1, 5⟩⟩
    let register : Token := ⟨.register, Bytes.ofString "r15", Bytes.ofString "r15", 26, 29, ⟨1, 27⟩⟩
    let s : Statement := ⟨Bytes.ofString "inc", [⟨false, number⟩, ⟨false, register⟩], ⟨1, 1⟩⟩
    number ∈ tokenize source ∧ register ∈ tokenize source ∧
      (∃ e, number.word = .error e) ∧ (∃ r, Register.ofName? register.text = some r) ∧
      Line.parse .standard (tokenize source) = .ok [.instruction s] ∧
      ∃ e, WrittenOperand.resolve ∅ ⟨false, number⟩ = .error e ∧
        ∀ raw, e.cause ≠ .unknownRegister raw := by
  intro source digits number register s
  have first : number ∈ tokenize source := by decide +kernel
  have second : register ∈ tokenize source := by decide +kernel
  have parsed : Line.parse .standard (tokenize source) = .ok [.instruction s] := by decide +kernel
  obtain ⟨texts, operands⟩ := token_texts_agree_with_tables source
  obtain ⟨-, -, numeric, -⟩ := texts number first
  obtain ⟨-, -, -, word⟩ := numeric (by decide)
  have denotes : Numeral.Denotes number.text UInt64.size := ⟨2, by decide +kernel⟩
  have failed := (word _ denotes).1.2 (Nat.le_refl _)
  have known := (texts register second).1 rfl
  have refused : WrittenOperand.resolve ∅ ⟨false, number⟩ =
      .error ⟨⟨1, 5⟩, .wordOverflow digits⟩ := by
    decide +kernel
  refine ⟨first, second, failed, known, parsed, _, refused, ?_⟩
  intro raw
  exact operands .standard _ s _ ∅ _ raw parsed List.mem_cons_self List.mem_cons_self refused

end WordMachine
