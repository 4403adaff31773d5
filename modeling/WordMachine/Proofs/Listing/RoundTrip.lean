import WordMachine.Proofs.Codec
import WordMachine.Proofs.Listing.Reassembly

/-!
# Aligned programs

Where every base is a multiple of four, instructions only ever replace whole blocks.  Along the
image pass the cursor stays aligned and every block of the image stays valid, so the image survives
being listed and assembled again.
-/

namespace WordMachine

open Results

theorem Listing.isValid_encode {i : Instruction} {op : Opcode} (h : i.Valid op) :
    Listing.isValid i.encode = true := by
  rw [Listing.isValid, Instruction.decode_encode_of_reserved h.reserved]
  exact isOk_iff.2 ⟨op, Instruction.validate_eq_ok_iff.2 h⟩

theorem Listing.isValid_zero : Listing.isValid .zero = true := by
  decide

/-- The cursor is a multiple of four and every block is valid. -/
structure AlignedPass (s : Pass Image) : Prop where
  cursor : s.cursor.toNat % blockSize = 0
  valid : ∀ k, Listing.isValid (s.made.block k) = true

namespace AlignedPass

variable {d : Dialect} {labels : Labels} {s t : Pass Image}

theorem start : AlignedPass ⟨0, .zero⟩ :=
  ⟨rfl, fun k => by rw [Image.block_zero, Listing.isValid_zero]⟩

theorem step (aligned : d.alignedBase = true) {line : Line} (inv : AlignedPass s)
    (met : Pass.step d (Placed.emit labels) s line = .ok t) : AlignedPass t := by
  cases imageStep_cases met with
  | pass passive => exact inv
  | base address =>
      obtain ⟨-, -, -, -, -, multiple⟩ := baseAddress?_eq_some_iff.1 address
      exact ⟨multiple aligned, inv.valid⟩
  | put fits encoded =>
      obtain ⟨i, known, rfl⟩ := Statement.encode_eq_ok_iff.1 encoded
      obtain ⟨op, -, valid⟩ := Statement.instruction_valid known
      obtain ⟨m, at_m⟩ := Nat.dvd_of_mod_eq_zero inv.cursor
      refine ⟨?_, ?_⟩
      · have cursor := inv.cursor
        have four : (4 : Word).toNat = 4 := rfl
        simp only [UInt64.toNat_add, four, blockSize] at cursor ⊢
        omega
      · intro k
        dsimp only
        rw [Image.block_place _ _ at_m]
        split
        · exact Listing.isValid_encode valid
        · exact inv.valid k

theorem run (aligned : d.alignedBase = true) {lines : List Line} (inv : AlignedPass s)
    (ran : Pass.run d (Placed.emit labels) s lines = .ok t) : AlignedPass t := by
  induction lines generalizing s with
  | nil =>
      cases ran
      exact inv
  | cons line rest ih =>
      obtain ⟨u, met, went_on⟩ := Pass.run_cons_eq_ok_iff.1 ran
      exact ih (inv.step aligned met) went_on

end AlignedPass

/-- Every block of an image that an aligned program is assembled to is valid. -/
theorem isValid_of_assemble {d : Dialect} (aligned : d.alignedBase = true) {source : Bytes}
    {image : Image} (assembled : assemble d source = .ok image) (k : Nat) :
    Listing.isValid (image.block k) = true := by
  obtain ⟨lines, labels, -, -, emitted⟩ := assemble_eq_ok_iff.1 assembled
  rw [Image.ofLines_eq_imagePass, map_eq_ok_iff] at emitted
  obtain ⟨t, ran, rfl⟩ := emitted
  exact (AlignedPass.start.run aligned ran).valid k

theorem blockAt?_toList (image : Image) {k : Nat} (bound : 4 * k < memorySize) :
    blockAt? image.words.toList k = some (image.block k) := by
  have offset (i : Nat) (h : i < 4) :
      image.words.toList[4 * k + i]? = some (image.wordAt (4 * k + i)) := by
    have inside : 4 * k + i < memorySize := by
      simp only [memorySize] at bound ⊢
      omega
    rw [Vector.getElem?_toList, Image.wordAt, Vector.getElem?_eq_getElem inside]
    rfl
  exact blockAt?_eq_some_iff.2 ⟨offset 0 (by decide), offset 1 (by decide), offset 2 (by decide),
    offset 3 (by decide)⟩

theorem restored_toList {image : Image} (valid : ∀ k, Listing.isValid (image.block k) = true) :
    Listing.restored image.words.toList = image := by
  apply Image.ext_block
  intro k bound
  rw [Listing.block_restored _ bound, blockAt?_toList image bound]
  simp [Option.filter, valid k]

theorem ofBytes_bytes (image : Image) :
    Listing.ofBytes image.bytes = .ok (Listing.ofWords image.words.toList) := by
  have length : image.bytes.length = 8 * memorySize := by
    rw [Image.bytes, length_serialize, Vector.length_toList]
  rw [Listing.ofBytes, if_neg (by omega), Image.bytes, deserialize?_serialize]

/-- An aligned program round-trips: every block of its image is zero or a valid instruction, and
assembling the listing of the image gives the image back. -/
theorem aligned_program_round_trips {d : Dialect} (aligned : d.alignedBase = true) {source : Bytes}
    {image : Image} (assembled : assemble d source = .ok image) :
    (∀ k, 4 * k < memorySize →
      image.block k = .zero ∨ ∃ op, (Instruction.decode (image.block k)).validate = .ok op) ∧
      ∃ text, Listing.ofBytes image.bytes = .ok text ∧
        assemble .standard (Bytes.ofString text) = .ok image := by
  have valid := isValid_of_assemble aligned assembled
  refine ⟨fun k _ => .inr (isOk_iff.1 (valid k)), _, ofBytes_bytes image, ?_⟩
  rw [assemble_ofWords .standard (Nat.le_of_eq (Vector.length_toList ..)), restored_toList valid]

/-- A program that goes back and overwrites its only instruction. -/
def overwritingSource : Bytes := Bytes.ofString ".base 4\nret\n.base 4\nhalt\n"

theorem overwriting_program_round_trips :
    Dialect.strict.alignedBase = true ∧ ∃ image, assemble .strict overwritingSource = .ok image ∧
      (∀ k, 4 * k < memorySize →
        image.block k = .zero ∨ ∃ op, (Instruction.decode (image.block k)).validate = .ok op) ∧
      ∃ text, Listing.ofBytes image.bytes = .ok text ∧
        assemble .standard (Bytes.ofString text) = .ok image := by
  have accepted : (assemble .strict overwritingSource).isOk = true := by decide
  obtain ⟨image, assembled⟩ := isOk_iff.1 accepted
  exact ⟨rfl, image, assembled, aligned_program_round_trips rfl assembled⟩

end WordMachine
