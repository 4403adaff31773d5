import WordMachine.Text.Bytes
import Mathlib.Data.List.Basic
import Mathlib.Data.List.Induction

/-!
# Numerals as bytes

Decimal numerals are digits that read back as the number, also behind zeros, and no other text is
read.  Hexadecimal numerals are word bytes that determine the number, whatever width they are filled
up to.
-/

namespace WordMachine

namespace Bytes

theorem ofString_eq_flatMap (s : String) :
    ofString s = s.toList.flatMap String.utf8EncodeChar := by
  unfold ofString
  rw [← String.utf8Encode_toList]
  simp [List.utf8Encode]

theorem utf8EncodeChar_of_ascii {c : Char} (h : c.toNat < 128) :
    String.utf8EncodeChar c = [UInt8.ofNat c.toNat] := by
  have small : c.val ≤ 127 := by
    rw [UInt32.le_iff_toNat_le]
    exact Nat.le_of_lt_succ h
  rw [String.utf8EncodeChar_eq_singleton (Char.utf8Size_eq_one_iff.2 small)]
  rfl

theorem ofString_of_ascii {s : String} (h : ∀ c ∈ s.toList, c.toNat < 128) :
    ofString s = s.toList.map fun c => UInt8.ofNat c.toNat := by
  rw [ofString_eq_flatMap]
  generalize s.toList = cs at h
  induction cs with
  | nil => rfl
  | cons c cs ih =>
      rw [List.flatMap_cons, utf8EncodeChar_of_ascii (h c List.mem_cons_self),
        ih fun other member => h other (.tail _ member)]
      rfl

theorem ofString_injective {s t : String} (h : ofString s = ofString t) : s = t := by
  apply String.toByteArray_inj.1
  apply ByteArray.ext
  exact Array.toList_inj.1 h

end Bytes

namespace Numeral

theorem toList_pushn (s : String) (c : Char) (n : Nat) :
    (s.pushn c n).toList = s.toList ++ List.replicate n c := by
  rw [String.pushn_eq_repeat_push]
  induction n with
  | zero => simp [Nat.repeat]
  | succ n ih => rw [Nat.repeat, String.toList_push, ih, List.replicate_succ', List.append_assoc]

theorem toList_padLeft (fill : Char) (width : Nat) (s : String) :
    (padLeft fill width s).toList = List.replicate (width - s.length) fill ++ s.toList := by
  rw [padLeft, String.toList_append, toList_pushn]
  rfl

theorem toDigits_all (p : Char → Prop) {b : Nat} (base : 1 < b)
    (digit : ∀ d, d < b → p (Nat.digitChar d)) (n : Nat) : ∀ c ∈ Nat.toDigits b n, p c := by
  induction n using Nat.strongRecOn with
  | _ n ih =>
      rw [Nat.toDigits_eq_if base]
      intro c member
      split at member
      · rename_i small
        rw [List.mem_singleton.1 member]
        exact digit n small
      · rename_i large
        rcases List.mem_append.1 member with high | low
        · exact ih (n / b) (Nat.div_lt_self (by omega) base) c high
        · rw [List.mem_singleton.1 low]
          exact digit _ (Nat.mod_lt n (by omega))

/-! ## Decimal numerals -/

theorem ofString_toString (n : Nat) :
    Bytes.ofString (toString n) = (Nat.toDigits 10 n).map fun c => UInt8.ofNat c.toNat := by
  have ascii : ∀ c ∈ Nat.toDigits 10 n, c.toNat < 128 :=
    toDigits_all (·.toNat < 128) (by decide) (by decide) n
  rw [Nat.toString_eq_repr, Bytes.ofString_of_ascii (by rwa [Nat.toList_repr]), Nat.toList_repr]

theorem all_isDigit_toString (n : Nat) : ∀ b ∈ Bytes.ofString (toString n), Ascii.isDigit b := by
  rw [ofString_toString]
  intro b member
  obtain ⟨c, digit, rfl⟩ := List.mem_map.1 member
  exact toDigits_all (fun c => Ascii.isDigit (UInt8.ofNat c.toNat)) (by decide) (by decide) n c
    digit

theorem ofString_toString_ne_nil (n : Nat) : Bytes.ofString (toString n) ≠ [] := by
  rw [ofString_toString]
  simp

theorem ofDigits_toString (n : Nat) : ofDigits (Bytes.ofString (toString n)) = n := by
  have values : ∀ c ∈ Nat.toDigits 10 n,
      Ascii.digitValue (UInt8.ofNat c.toNat) = c.toNat - '0'.toNat :=
    toDigits_all _ (by decide) (by decide) n
  have digits : ∀ (init : Nat), ∀ c ∈ Nat.toDigits 10 n,
      10 * init + Ascii.digitValue (UInt8.ofNat c.toNat) = 10 * init + (c.toNat - '0'.toNat) := by
    intro init c member
    rw [values c member]
  rw [ofString_toString, ofDigits, List.foldl_map, List.foldl_ext _ _ _ digits,
    ← Nat.ofDigitChars_eq_foldl, Nat.ofDigitChars_ten_toDigits]

/-! ## Leading zeros -/

/-- A text is the decimal numeral of a number behind any number of zeros. -/
def Denotes (text : Bytes) (n : Nat) : Prop :=
  ∃ zeros, text = List.replicate zeros 0x30 ++ Bytes.ofString (toString n)

theorem ofDigits_append_singleton (digits : Bytes) (d : UInt8) :
    ofDigits (digits ++ [d]) = 10 * ofDigits digits + Ascii.digitValue d := by
  rw [ofDigits, List.foldl_append]
  rfl

theorem ofDigits_zeros_append (zeros : Nat) (digits : Bytes) :
    ofDigits (List.replicate zeros 0x30 ++ digits) = ofDigits digits := by
  induction zeros with
  | zero => rfl
  | succ zeros ih => exact ih

theorem digitValue_of_isDigit {d : UInt8} (digit : Ascii.isDigit d) :
    Ascii.digitValue d < 10 ∧ 0x30 + Ascii.digitValue d = d.toNat := by
  simp only [Ascii.isDigit, Bool.and_eq_true, decide_eq_true_eq, UInt8.le_iff_toNat_le] at digit
  have lower : 0x30 ≤ d.toNat := digit.1
  have upper : d.toNat ≤ 0x39 := digit.2
  unfold Ascii.digitValue
  omega

theorem ofString_toString_digitValue {d : UInt8} (digit : Ascii.isDigit d) :
    Bytes.ofString (toString (Ascii.digitValue d)) = [d] := by
  obtain ⟨small, whole⟩ := digitValue_of_isDigit digit
  have char : ∀ v, v < 10 → UInt8.ofNat (Nat.digitChar v).toNat = UInt8.ofNat (0x30 + v) := by
    decide
  rw [ofString_toString, Nat.toDigits_of_lt_base small, List.map_singleton, char _ small, whole,
    UInt8.ofNat_toNat]

theorem ofString_toString_append {n : Nat} {d : UInt8} (pos : 0 < n) (digit : Ascii.isDigit d) :
    Bytes.ofString (toString (10 * n + Ascii.digitValue d)) =
      Bytes.ofString (toString n) ++ [d] := by
  rw [← ofString_toString_digitValue digit, ofString_toString, ofString_toString, ofString_toString,
    ← List.map_append, Nat.toDigits_append_toDigits (by decide) pos (digitValue_of_isDigit digit).1]

theorem denotes_ofDigits {digits : Bytes} (all : ∀ b ∈ digits, Ascii.isDigit b)
    (nonempty : digits ≠ []) : Denotes digits (ofDigits digits) := by
  induction digits using List.reverseRecOn with
  | nil => exact absurd rfl nonempty
  | append_singleton digits d ih =>
      have digit := all d (List.mem_append_right _ List.mem_cons_self)
      have before := ih fun b member => all b (List.mem_append_left _ member)
      rw [ofDigits_append_singleton]
      by_cases zero : ofDigits digits = 0
      · -- The digits before the last are zeros, of which the numeral keeps none.
        have zeros : ∃ k, digits = List.replicate k 0x30 := by
          by_cases single : digits = []
          · exact ⟨0, single⟩
          · obtain ⟨k, spelled⟩ := before single
            rw [zero] at spelled
            exact ⟨k + 1, by rw [spelled, List.replicate_succ']; rfl⟩
        obtain ⟨k, rfl⟩ := zeros
        rw [zero, Nat.mul_zero, Nat.zero_add]
        exact ⟨k, by rw [ofString_toString_digitValue digit]⟩
      · have several : digits ≠ [] := by
          rintro rfl
          exact zero rfl
        obtain ⟨k, spelled⟩ := before several
        refine ⟨k, ?_⟩
        rw [ofString_toString_append (Nat.pos_of_ne_zero zero) digit, ← List.append_assoc,
          ← spelled]

theorem Denotes.all_isDigit {text : Bytes} {n : Nat} (h : Denotes text n) :
    ∀ b ∈ text, Ascii.isDigit b := by
  obtain ⟨zeros, rfl⟩ := h
  intro b member
  rcases List.mem_append.1 member with zero | digit
  · rw [List.eq_of_mem_replicate zero]
    rfl
  · exact all_isDigit_toString n b digit

/-- Reading accepts the numerals of numbers behind zeros, and nothing else. -/
theorem decimal?_eq_some_iff {text : Bytes} {n : Nat} :
    decimal? text = some n ↔ Denotes text n := by
  constructor
  · intro read
    unfold decimal? at read
    split at read
    · rename_i digits
      cases read
      exact denotes_ofDigits (List.all_eq_true.1 digits.2) digits.1
    · cases read
  · intro h
    have all := List.all_eq_true.2 h.all_isDigit
    obtain ⟨zeros, rfl⟩ := h
    have nonempty := List.append_ne_nil_of_right_ne_nil (List.replicate zeros 0x30)
      (ofString_toString_ne_nil n)
    rw [decimal?, if_pos ⟨nonempty, all⟩, ofDigits_zeros_append, ofDigits_toString]

theorem decimal?_toString (n : Nat) : decimal? (Bytes.ofString (toString n)) = some n :=
  decimal?_eq_some_iff.2 ⟨0, rfl⟩

/-! ## Hexadecimal numerals -/

def hexDigitValue (c : Char) : Nat :=
  if c.isDigit then c.toNat - 48 else c.toNat - 55

def ofUpperHex (s : String) : Nat :=
  s.toList.foldl (fun n c => 16 * n + hexDigitValue c) 0

theorem toList_upperHex (width n : Nat) :
    (upperHex width n).toList =
      List.replicate (width - (Nat.toDigits 16 n).length) '0' ++
        (Nat.toDigits 16 n).map Char.toUpper := by
  rw [upperHex, toList_padLeft, String.toList_ofList, String.length_ofList, List.length_map]

theorem foldl_hexDigitValue_toDigits (n : Nat) :
    ((Nat.toDigits 16 n).map Char.toUpper).foldl (fun m c => 16 * m + hexDigitValue c) 0 = n := by
  have value : ∀ d, d < 16 → hexDigitValue (Nat.digitChar d).toUpper = d := by decide
  induction n using Nat.strongRecOn with
  | _ n ih =>
      rw [Nat.toDigits_eq_if (by decide)]
      split
      · rename_i small
        simp [value n small]
      · rename_i large
        have low := value (n % 16) (Nat.mod_lt n (by decide))
        rw [List.map_append, List.foldl_append, ih (n / 16) (by omega)]
        simp only [List.map_cons, List.map_nil, List.foldl_cons, List.foldl_nil, low]
        omega

theorem ofUpperHex_upperHex (width n : Nat) : ofUpperHex (upperHex width n) = n := by
  have zeros : ∀ k, (List.replicate k '0').foldl (fun m c => 16 * m + hexDigitValue c) 0 = 0 := by
    intro k
    induction k with
    | zero => rfl
    | succ k ih => rw [List.replicate_succ]; exact ih
  rw [ofUpperHex, toList_upperHex, List.foldl_append, zeros, foldl_hexDigitValue_toDigits]

theorem upperHex_injective {width m n : Nat} (h : upperHex width m = upperHex width n) : m = n := by
  rw [← ofUpperHex_upperHex width m, h, ofUpperHex_upperHex]

theorem all_isWord_padLeft {digits : List Char}
    (h : ∀ c ∈ digits, c.toNat < 128 ∧ Ascii.isWord (UInt8.ofNat c.toNat) = true) (width : Nat) :
    ∀ b ∈ Bytes.ofString (padLeft '0' width (String.ofList digits)), Ascii.isWord b := by
  have chars : ∀ c ∈ (padLeft '0' width (String.ofList digits)).toList,
      c.toNat < 128 ∧ Ascii.isWord (UInt8.ofNat c.toNat) = true := by
    intro c member
    rw [toList_padLeft, String.toList_ofList] at member
    rcases List.mem_append.1 member with filled | digit
    · rw [List.eq_of_mem_replicate filled]
      decide
    · exact h c digit
  rw [Bytes.ofString_of_ascii fun c member => (chars c member).1]
  intro b member
  obtain ⟨c, among, rfl⟩ := List.mem_map.1 member
  exact (chars c among).2

theorem all_isWord_hex (width n : Nat) : ∀ b ∈ Bytes.ofString (hex width n), Ascii.isWord b :=
  all_isWord_padLeft (toDigits_all _ (by decide) (by decide) n) width

theorem all_isWord_upperHex (width n : Nat) :
    ∀ b ∈ Bytes.ofString (upperHex width n), Ascii.isWord b := by
  apply all_isWord_padLeft
  intro c member
  obtain ⟨lower, among, rfl⟩ := List.mem_map.1 member
  exact toDigits_all
    (fun c => c.toUpper.toNat < 128 ∧ Ascii.isWord (UInt8.ofNat c.toUpper.toNat) = true)
    (by decide) (by decide) n lower among

/-! ## Filling up with spaces -/

theorem ofString_padRight (width : Nat) (s : String) :
    Bytes.ofString (padRight width s) =
      Bytes.ofString s ++ List.replicate (width - s.length) Ascii.space := by
  have space : String.utf8EncodeChar ' ' = [Ascii.space] := by decide
  rw [padRight, Bytes.ofString_eq_flatMap, toList_pushn, List.flatMap_append,
    ← Bytes.ofString_eq_flatMap]
  simp [List.flatMap_replicate, space]

end Numeral

end WordMachine
