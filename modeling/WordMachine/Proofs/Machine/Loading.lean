import WordMachine.Proofs.Assembly.LastWriter
import WordMachine.Proofs.Listing.RoundTrip
import WordMachine.Proofs.Machine.Copying
import WordMachine.Proofs.Machine.Fetch

/-!
# Running what has been assembled

The bytes of an image load as the image.  At the address of an instruction that none after it writes
over, the machine fetches that instruction: the opcode of its mnemonic, its operands as they
resolve, and empty slots beyond them.
-/

namespace WordMachine

open Results

namespace Machine

variable {σ : Type} {m : Machine σ} {image : Image}

theorem overwrite_whole (memory : Vector Word memorySize) (image : Image) :
    overwrite memory 0 image.words.toList.toArray = image.words := by
  apply Vector.ext
  intro n bound
  simp [overwrite]

theorem loadImage_bytes (m : Machine σ) (image : Image) :
    loadImage image.bytes m =
      .ok () ({ m with memory := image.words }.setRegister Register.instructionPointer 0) := by
  have fits : (0 : Word).toNat + image.words.toList.length ≤ memorySize := by
    rw [Vector.length_toList]
    exact Nat.le_refl _
  rw [loadImage, Image.bytes, deserialize?_serialize]
  dsimp only
  rw [load_of_fits m fits, UInt64.toNat_zero, overwrite_whole]

theorem getElem?_memory (memory : m.memory = image.words) {n : Nat} (bound : n < memorySize) :
    m.memory[n]? = some (image.wordAt n) := by
  rw [memory, Image.wordAt, Vector.getElem?_eq_getElem bound]
  rfl

theorem block?_of_memory (memory : m.memory = image.words) {address : Word} {block : Block}
    (fits : Image.Fits address)
    (words : ∀ k, k < 4 → block.words[k]? = some (image.wordAt (address.toNat + k))) :
    m.block? address = some block := by
  have bound : address.toNat + 4 ≤ memorySize := fits
  refine block?_eq_some_iff.2 ⟨bound, ?_⟩
  intro k small
  rw [words k small, getElem?_memory memory (by omega)]

end Machine

section Program

variable {σ : Type} {m : Machine σ} {d : Dialect} {lines : List Line} {labels : Labels}
  {image : Image} {k c : Nat} {statement : Statement}

/-- Line number `k` is an instruction at the address `c`, and no later one writes over its words. -/
def Survives (d : Dialect) (lines : List Line) (k : Nat) (statement : Statement) (c : Nat) : Prop :=
  PlacedAt d lines k statement c ∧ ∀ j a, k < j → c ≤ a → a < c + 4 → ¬ Covers d lines j a

theorem Survives.words (h : Survives d lines k statement c)
    (emitted : Image.ofLines d labels lines = .ok image) :
    ∃ i, statement.instruction labels = .ok i ∧ c + 4 ≤ memorySize ∧
      ∀ n, n < 4 → i.encode.words[n]? = some (image.wordAt (c + n)) := by
  obtain ⟨placed, last⟩ := h
  rw [Image.ofLines_eq_imagePass, map_eq_ok_iff] at emitted
  obtain ⟨s, run, rfl⟩ := emitted
  have fits := (imagePass_succeeds_iff.1 ⟨s, run⟩).2.2 k statement c placed
  have word (n : Nat) (small : n < 4) :
      ∃ block, statement.encode labels = .ok block ∧
        block.words[n]? = some (s.made.wordAt (c + n)) := by
    obtain ⟨block, encoded, written⟩ := wordAt_imagePass_of_last run placed
      (Nat.le_add_right c n) (Nat.add_lt_add_left small c)
      fun j later => last j (c + n) later (Nat.le_add_right c n) (Nat.add_lt_add_left small c)
    rw [Nat.add_sub_cancel_left] at written
    exact ⟨block, encoded, written⟩
  obtain ⟨block, encoded, -⟩ := word 0 (by decide)
  obtain ⟨i, made, rfl⟩ := Statement.encode_eq_ok_iff.1 encoded
  refine ⟨i, made, fits, ?_⟩
  intro n small
  obtain ⟨other, same, written⟩ := word n small
  rw [encoded] at same
  cases same
  exact written

/-- A machine whose memory is the image fetches an instruction that survives. -/
theorem Survives.fetch (h : Survives d lines k statement c)
    (emitted : Image.ofLines d labels lines = .ok image) (memory : m.memory = image.words)
    (pointer : (m.register Register.instructionPointer).toNat = c) :
    ∃ op operands, Opcode.ofMnemonic? statement.mnemonic = some op ∧ operands.length = op.arity ∧
      List.Forall₂ (fun x y => x.resolve labels = .ok y) statement.operands operands ∧
      m.fetch = .ok (op, .ofOperands op operands) := by
  obtain ⟨i, made, fits, words⟩ := h.words emitted
  obtain ⟨op, operands, known, count, resolved, rfl⟩ := Statement.instruction_eq_ok_iff.1 made
  have arity : operands.length = op.arity := resolved.length_eq ▸ count
  subst pointer
  have found := Machine.block?_of_memory memory fits words
  have valid : (Instruction.ofOperands op operands).Valid op :=
    Instruction.ofOperands_valid arity fun y member =>
      WrittenOperand.wellFormed_of_resolved resolved member
  refine ⟨op, operands, known, arity, resolved, Machine.fetch_eq_ok_iff.2 ⟨_, found, ?_, valid⟩⟩
  exact (Instruction.decode_encode_of_reserved rfl).symm

theorem Machine.step_ne_illegal_of_valid [RandomSource σ] (memory : m.memory = image.words)
    (valid : ∀ k, Listing.isValid (image.block k) = true)
    (aligned : (m.register Register.instructionPointer).toNat % blockSize = 0) (address : Word)
    (defect : Instruction.Defect) (after : Machine σ) :
    step m ≠ .error (.illegal address defect) after := by
  intro illegal
  obtain ⟨block, found, refused⟩ := validate_of_fetch_illegal (fetch_of_step_illegal illegal)
  obtain ⟨n, at_n⟩ := Nat.dvd_of_mod_eq_zero aligned
  have fits := (block?_eq_some_iff.1 found).1
  have same : m.block? (m.register Register.instructionPointer) = some (image.block n) := by
    apply block?_of_memory memory fits
    intro k small
    rw [at_n]
    match k, small with
    | 0, _ => rfl
    | 1, _ => rfl
    | 2, _ => rfl
    | 3, _ => rfl
  rw [found, Option.some.injEq] at same
  subst same
  obtain ⟨op, accepted⟩ := isOk_iff.1 (valid n)
  rw [refused] at accepted
  cases accepted

end Program

/-- A new machine runs what has been assembled.  At an instruction that none after it writes over, a
step fetches and executes the opcode of its mnemonic with the operands as the labels resolve them,
and with a dialect that aligns bases no multiple of four holds an illegal instruction. -/
theorem assembled_program_is_fetched {σ : Type} [RandomSource σ] {d : Dialect} {source : Bytes}
    {image : Image} (assembled : assemble d source = .ok image) (random : σ) :
    ∃ loaded, Machine.loadImage image.bytes (.new random) = .ok () loaded ∧
      ∀ m : Machine σ, m.memory = loaded.memory → m.running = true →
        (∀ k statement,
          Survives d (AssemblyReport.ofSource d source).lines k statement
            (m.register Register.instructionPointer).toNat →
          ∃ op operands, Opcode.ofMnemonic? statement.mnemonic = some op ∧
            operands.length = op.arity ∧
            List.Forall₂ (fun x y => x.resolve (AssemblyReport.ofSource d source).labels = .ok y)
              statement.operands operands ∧
            m.fetch = .ok (op, .ofOperands op operands) ∧
            Machine.step m = Machine.located (m.register Register.instructionPointer) op
              (Machine.execute op (.ofOperands op operands) m.advance) ∧
            ∀ address defect after, Machine.step m ≠ .error (.illegal address defect) after) ∧
        (d.alignedBase = true → (m.register Register.instructionPointer).toNat % blockSize = 0 →
          ∀ address defect after, Machine.step m ≠ .error (.illegal address defect) after) := by
  obtain ⟨-, -, emitted⟩ := AssemblyReport.of_assemble assembled
  refine ⟨_, Machine.loadImage_bytes (.new random) image, ?_⟩
  intro m memory running
  rw [Machine.memory_setRegister] at memory
  refine ⟨?_, ?_⟩
  · intro k statement survives
    obtain ⟨op, operands, known, arity, resolved, fetched⟩ := survives.fetch emitted memory rfl
    have stepped := Machine.step_of_fetch running fetched
    refine ⟨op, operands, known, arity, resolved, fetched, stepped, ?_⟩
    intro address defect after illegal
    rw [Machine.fetch_of_step_illegal illegal] at fetched
    cases fetched
  · intro aligned multiple
    exact Machine.step_ne_illegal_of_valid memory (isValid_of_assemble aligned assembled) multiple

/-- A program whose jump to itself lies where another instruction was. -/
def jumpOverReturn : Bytes := Bytes.ofString ".base 4\nret\n.base 4\nend:\njmp [:end]\n"

def jumpStatement : Statement where
  mnemonic := Bytes.ofString "jmp"
  operands :=
    [⟨true, ⟨.labelRef, Bytes.ofString "end", Bytes.ofString ":end", 30, 34, ⟨5, 6⟩⟩⟩]
  position := ⟨5, 1⟩

theorem jump_over_return_survives :
    Survives .strict (AssemblyReport.ofSource .strict jumpOverReturn).lines 4 jumpStatement 4 := by
  have length : (AssemblyReport.ofSource .strict jumpOverReturn).lines.length = 5 := by
    decide +kernel
  refine ⟨⟨by decide +kernel, by decide +kernel⟩, ?_⟩
  intro j a later _ _ covers
  have := covers.lt_length
  omega

theorem jump_over_return_is_fetched :
    ∃ image, assemble .strict jumpOverReturn = .ok image ∧
      ∃ loaded, Machine.loadImage image.bytes (.new (⟨[]⟩ : Script)) = .ok () loaded ∧
        ∃ m : Machine Script, m.memory = loaded.memory ∧ m.running = true ∧
          m.register Register.instructionPointer = 4 ∧
          m.fetch = .ok (.jmp, .ofOperands .jmp [⟨Mode.of .literal true, 4⟩]) ∧
          ∀ address defect after, Machine.step m ≠ .error (.illegal address defect) after := by
  have accepted : (assemble .strict jumpOverReturn).isOk = true := by decide +kernel
  obtain ⟨image, assembled⟩ := isOk_iff.1 accepted
  obtain ⟨loaded, load, runs⟩ := assembled_program_is_fetched assembled (⟨[]⟩ : Script)
  obtain ⟨m, memory, running, pointer⟩ : ∃ m : Machine Script, m.memory = loaded.memory ∧
      m.running = true ∧ m.register Register.instructionPointer = 4 :=
    ⟨({ loaded with running := true }).setRegister Register.instructionPointer 4, rfl, rfl,
      Machine.register_setRegister_same ..⟩
  have survives : Survives .strict (AssemblyReport.ofSource .strict jumpOverReturn).lines 4
      jumpStatement (m.register Register.instructionPointer).toNat := by
    rw [pointer]
    exact jump_over_return_survives
  obtain ⟨op, operands, known, -, resolved, fetched, -, legal⟩ :=
    (runs m memory running).1 4 jumpStatement survives
  have mnemonic : Opcode.ofMnemonic? jumpStatement.mnemonic = some .jmp := by decide +kernel
  have target : jumpStatement.operands.mapM
      (·.resolve (AssemblyReport.ofSource .strict jumpOverReturn).labels) =
        .ok [⟨Mode.of .literal true, 4⟩] := by
    decide +kernel
  rw [mnemonic] at known
  rw [← mapM_eq_ok_iff, target] at resolved
  cases known
  cases resolved
  exact ⟨image, assembled, loaded, load, m, memory, running, pointer, fetched, legal⟩

end WordMachine
