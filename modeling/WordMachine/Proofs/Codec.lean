import WordMachine.Instruction
import Mathlib.Algebra.Group.Nat.Defs
import Mathlib.Logic.Function.Basic

/-!
# Words as bytes, instructions as blocks

Writing a list of words as bytes and reading it back gives the words, and bytes that fill words come
back from the words they are read as.  Reading a block as an instruction loses nothing, and writing
an instruction loses only the reserved bits that have no place in a control word.
-/

namespace WordMachine

namespace Word

theorem ofBytes_toBytes (w : Word) :
    ofBytes w.toUInt8 (w >>> 8).toUInt8 (w >>> 16).toUInt8 (w >>> 24).toUInt8
      (w >>> 32).toUInt8 (w >>> 40).toUInt8 (w >>> 48).toUInt8 (w >>> 56).toUInt8 = w := by
  apply UInt64.toBitVec_inj.1
  ext i hi
  simp [ofBytes, -UInt64.toUInt64_toUInt8]
  grind

theorem toBytes_ofBytes (b0 b1 b2 b3 b4 b5 b6 b7 : UInt8) :
    (ofBytes b0 b1 b2 b3 b4 b5 b6 b7).toBytes = [b0, b1, b2, b3, b4, b5, b6, b7] := by
  simp only [toBytes, List.cons.injEq, and_true]
  refine ⟨?_, ?_, ?_, ?_, ?_, ?_, ?_, ?_⟩
  all_goals
    apply UInt8.toBitVec_inj.1
    ext k hk
    simp [ofBytes] <;> grind

end Word

theorem deserializeFrom_serialize (done words : List Word) :
    deserializeFrom done (serialize words) = done.reverse ++ words := by
  induction words generalizing done with
  | nil => simp [serialize, deserializeFrom]
  | cons w rest ih =>
      have bytes : serialize (w :: rest) = w.toBytes ++ serialize rest := by
        simp [serialize]
      rw [bytes]
      simp only [Word.toBytes, List.cons_append, List.nil_append, deserializeFrom]
      rw [Word.ofBytes_toBytes, ih]
      simp

theorem deserialize?_serialize (words : List Word) :
    deserialize? (serialize words) = some words := by
  have whole : (serialize words).length % 8 = 0 := by
    rw [length_serialize]
    omega
  rw [deserialize?, if_pos whole, deserializeFrom_serialize]
  simp

theorem length_lt_of_ragged {bytes : Bytes}
    (ragged : ∀ b0 b1 b2 b3 b4 b5 b6 b7 rest,
      bytes = b0 :: b1 :: b2 :: b3 :: b4 :: b5 :: b6 :: b7 :: rest → False) :
    bytes.length < 8 := by
  match bytes with
  | [] | [_] | [_, _] | [_, _, _] | [_, _, _, _] | [_, _, _, _, _] | [_, _, _, _, _, _]
  | [_, _, _, _, _, _, _] => simp
  | b0 :: b1 :: b2 :: b3 :: b4 :: b5 :: b6 :: b7 :: rest =>
      exact (ragged b0 b1 b2 b3 b4 b5 b6 b7 rest rfl).elim

theorem serialize_deserializeFrom (done : List Word) {bytes : Bytes}
    (whole : bytes.length % 8 = 0) :
    serialize (deserializeFrom done bytes) = serialize done.reverse ++ bytes := by
  fun_induction deserializeFrom done bytes with
  | case1 done b0 b1 b2 b3 b4 b5 b6 b7 rest ih =>
      have fewer : rest.length % 8 = 0 := by
        simp only [List.length_cons] at whole
        omega
      rw [ih fewer]
      simp [serialize, Word.toBytes_ofBytes]
  | case2 bytes done ragged =>
      have few := length_lt_of_ragged ragged
      have empty : bytes = [] := List.length_eq_zero_iff.1 (by omega)
      rw [empty, List.append_nil]

theorem deserialize?_eq_some_iff {bytes : Bytes} {words : List Word} :
    deserialize? bytes = some words ↔ serialize words = bytes := by
  constructor
  · intro read
    unfold deserialize? at read
    split at read
    · rename_i whole
      cases read
      exact serialize_deserializeFrom [] whole
    · cases read
  · rintro rfl
    exact deserialize?_serialize words

theorem deserialize?_eq_none_iff {bytes : Bytes} :
    deserialize? bytes = none ↔ bytes.length % 8 ≠ 0 := by
  unfold deserialize?
  split <;> simp [*]

namespace Instruction

theorem control_decode (block : Block) : (decode block).control = block.control := by
  apply UInt64.toBitVec_inj.1
  ext i hi
  simp [control, decode, -UInt64.toUInt64_toUInt8, -UInt64.toUInt64_toUInt32]
  grind

@[simp] theorem encode_decode (block : Block) : (decode block).encode = block := by
  unfold encode
  rw [control_decode]
  rfl

theorem reserved_control (i : Instruction) :
    (i.control >>> 40).toUInt32 = i.reserved &&& 0xffffff := by
  have low : ∀ k : Fin 32, (0xffffff : BitVec 32)[k] = decide (k.val < 24) := by decide
  apply UInt32.toBitVec_inj.1
  ext k hk
  have := low ⟨k, hk⟩
  simp [control]
  grind

theorem bytes_control (i : Instruction) :
    (i.control >>> 32).toUInt8 = i.opcode ∧ (i.control >>> 24).toUInt8 = i.flags ∧
      (i.control >>> 16).toUInt8 = i.a.mode.bits ∧ (i.control >>> 8).toUInt8 = i.b.mode.bits ∧
      i.control.toUInt8 = i.c.mode.bits := by
  refine ⟨?_, ?_, ?_, ?_, ?_⟩
  all_goals
    apply UInt8.toBitVec_inj.1
    ext k hk
    simp [control] <;> grind

/-- Writing keeps the low 24 reserved bits and every other field. -/
theorem decode_encode (i : Instruction) :
    decode i.encode = { i with reserved := i.reserved &&& 0xffffff } := by
  obtain ⟨opcode, flags, a, b, c⟩ := bytes_control i
  simp only [decode, encode, opcode, flags, a, b, c, reserved_control]

theorem decode_encode_of_reserved {i : Instruction} (h : i.reserved = 0) :
    decode i.encode = i := by
  rw [decode_encode, h]
  obtain ⟨opcode, flags, reserved, a, b, c⟩ := i
  subst h
  rfl

/-! ## Reserved bits -/

theorem toNat_reserved_decode_encode (i : Instruction) :
    (decode i.encode).reserved.toNat = i.reserved.toNat % 2 ^ 24 := by
  rw [decode_encode]
  exact Nat.and_two_pow_sub_one_eq_mod i.reserved.toNat 24

theorem toNat_reserved_decode_lt (block : Block) : (decode block).reserved.toNat < 2 ^ 24 := by
  have written := toNat_reserved_decode_encode (decode block)
  rw [encode_decode] at written
  omega

theorem decode_encode_eq_self_iff {i : Instruction} :
    decode i.encode = i ↔ i.reserved.toNat < 2 ^ 24 := by
  constructor
  · intro same
    rw [← same]
    exact toNat_reserved_decode_lt i.encode
  · intro small
    have kept : (decode i.encode).reserved = i.reserved := by
      apply UInt32.toNat_inj.1
      rw [toNat_reserved_decode_encode, Nat.mod_eq_of_lt small]
    rw [decode_encode] at kept ⊢
    exact congrArg (fun bits => { i with reserved := bits }) kept

/-- Blocks and instructions with at most 24 reserved bits determine each other.  Of any other
instruction, writing loses the reserved bits from number 24 on and nothing else. -/
theorem control_word_packing_is_bijective :
    (∀ block, (decode block).encode = block) ∧
      (∀ i : Instruction, decode i.encode = i ↔ i.reserved.toNat < 2 ^ 24) ∧
      Function.Bijective
        (fun i : { i : Instruction // i.reserved.toNat < 2 ^ 24 } => i.val.encode) ∧
      ∀ i : Instruction, decode i.encode = { i with reserved := (decode i.encode).reserved } ∧
        ∀ k, (decode i.encode).reserved.toNat.testBit k =
          (decide (k < 24) && i.reserved.toNat.testBit k) := by
  refine ⟨encode_decode, fun i => decode_encode_eq_self_iff, ⟨?_, ?_⟩, ?_⟩
  · intro i j same
    apply Subtype.ext
    calc
      i.val = decode i.val.encode := (decode_encode_eq_self_iff.2 i.property).symm
      _ = decode j.val.encode := congrArg decode same
      _ = j.val := decode_encode_eq_self_iff.2 j.property
  · intro block
    exact ⟨⟨decode block, toNat_reserved_decode_lt block⟩, encode_decode block⟩
  · intro i
    refine ⟨by rw [decode_encode], ?_⟩
    intro k
    rw [toNat_reserved_decode_encode, Nat.testBit_mod_two_pow]

end Instruction

end WordMachine
