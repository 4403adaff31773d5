import WordMachine.Proofs.Assembly.Restyling
import WordMachine.Proofs.Image
import WordMachine.Proofs.Listing.Reading
import WordMachine.Proofs.Listing.Sweep
import WordMachine.Proofs.Listing.Targets

/-!
# Reassembly of listings

A listing is assembled to the words it was made from, with zeros for what holds no valid
instruction.  The lines of one block take either pass to the end of the block, whatever the cursor
before them; a run over all blocks binds every label to its address and puts every block back.
-/

namespace WordMachine

namespace Listing

/-! ## The lines of one block -/

/-- A block that lies within an image, at a multiple of four. -/
structure Aligned (b : SweptBlock) : Prop where
  multiple : b.address.toNat % blockSize = 0
  fits : Image.Fits b.address

section Block

variable {d : Dialect} {targets : Targets} {b : SweptBlock} {op : Opcode}

theorem baseValue_operandTokens {address : Word} (aligned : address.toNat % blockSize = 0) :
    baseValue d (operandTokens [⟨false, .memory address⟩]) .none = .ok address := by
  have read : Numeral.decimal? (Atom.memory address).lexeme.bare.text = some address.toNat := by
    rw [Atom.text_bare_memory, Numeral.decimal?_toString]
  rw [baseValue_eq_ok_iff, baseAddress?_eq_some_iff]
  exact ⟨_, rfl, rfl, read, address.toNat_lt, fun _ => aligned⟩

theorem run_base {β : Type} {act : β → Placed → Except SourceError β}
    (passes : ∀ made cursor address, act made ⟨cursor, baseLine address⟩ = .ok made)
    (aligned : Aligned b) (cursor : Word) (made : β) :
    Pass.run d act ⟨cursor, made⟩ (if b.address = cursor then [] else [baseLine b.address]) =
      .ok ⟨b.address, made⟩ := by
  split
  · rename_i here
    rw [here]
    rfl
  · rw [Pass.run_singleton, Pass.step_eq_ok_iff]
    exact ⟨passes made cursor b.address, baseValue_operandTokens aligned.multiple⟩

def bindBlock (targets : Targets) (labels : Labels) (b : SweptBlock) : Labels :=
  match targets[b.address]? with
  | some role => labels.insert (Bytes.ofString (role.labelAt b.address)) b.address
  | none => labels

theorem labelRun_blockLines {labels : Labels} (aligned : Aligned b)
    (fresh : ∀ role : Role, labels[Bytes.ofString (role.labelAt b.address)]? = none)
    (cursor : Word) :
    Pass.run d (Labels.enter d) ⟨cursor, labels⟩ (blockLines targets cursor b op) =
      .ok ⟨b.address + 4, bindBlock targets labels b⟩ := by
  rw [blockLines, List.append_assoc, Pass.run_append, run_base (fun _ _ _ => rfl) aligned,
    Results.bind_ok, bindBlock]
  cases targets[b.address]? with
  | none => rfl
  | some role =>
      have entered :
          labels.enter d ⟨b.address, .label (Bytes.ofString (role.labelAt b.address)) .none⟩ =
            .ok (labels.insert (Bytes.ofString (role.labelAt b.address)) b.address) := by
        simp only [Labels.enter, fresh role]
      rw [Pass.run_append, Pass.run_singleton, Pass.step, entered]
      rfl

theorem imageRun_blockLines {labels : Labels} (aligned : Aligned b)
    (encoded : (statementOf targets op b.instruction).encode labels = .ok b.block)
    (cursor : Word) (image : Image) :
    Pass.run d (Placed.emit labels) ⟨cursor, image⟩ (blockLines targets cursor b op) =
      .ok ⟨b.address + 4, image.place ⟨b.address, b.block, aligned.fits⟩⟩ := by
  have instruction : Pass.run d (Placed.emit labels) ⟨b.address, image⟩
      [.instruction (statementOf targets op b.instruction)] =
        .ok ⟨b.address + 4, image.place ⟨b.address, b.block, aligned.fits⟩⟩ := by
    rw [Pass.run_singleton, imageStep_instruction_eq_ok_iff]
    exact ⟨b.block, aligned.fits, encoded, rfl⟩
  rw [blockLines, List.append_assoc, Pass.run_append, run_base (fun _ _ _ => rfl) aligned,
    Results.bind_ok]
  cases targets[b.address]? with
  | none => exact instruction
  | some role =>
      rw [Pass.run_append, Pass.run_singleton, imageStep_of_isPassive rfl]
      exact instruction

end Block

/-! ## The lines of all blocks -/

section Blocks

variable {d : Dialect} {targets : Targets}

theorem bindBlock_self {labels : Labels} {b : SweptBlock} {role : Role}
    (h : targets[b.address]? = some role) :
    (bindBlock targets labels b)[Bytes.ofString (role.labelAt b.address)]? = some b.address := by
  simp [bindBlock, h]

theorem bindBlock_other {labels : Labels} {b : SweptBlock} {name : Bytes}
    (h : ∀ role : Role, name ≠ Bytes.ofString (role.labelAt b.address)) :
    (bindBlock targets labels b)[name]? = labels[name]? := by
  unfold bindBlock
  split
  · rename_i role _
    rw [Std.TreeMap.getElem?_insert, if_neg]
    rw [Std.compare_eq_iff_eq]
    exact (h role).symm
  · rfl

theorem labelAt_ne {address other : Word} (h : address ≠ other) (role role' : Role) :
    Bytes.ofString (role.labelAt address) ≠ Bytes.ofString (role'.labelAt other) :=
  fun same => h (Role.labelAt_injective (Bytes.ofString_injective same))

/-- The label pass over a listing gets through and binds every label to its address. -/
theorem labelRun_linesFrom {blocks : List SweptBlock} (aligned : ∀ b ∈ blocks, Aligned b)
    (ascending : blocks.Pairwise (·.address.toNat < ·.address.toNat)) {labels : Labels}
    (fresh : ∀ b ∈ blocks, ∀ role : Role, labels[Bytes.ofString (role.labelAt b.address)]? = none)
    (cursor : Word) :
    ∃ t, Pass.run d (Labels.enter d) ⟨cursor, labels⟩ (linesFrom targets cursor blocks) = .ok t ∧
      (∀ (name : Bytes) (address : Word), labels[name]? = some address →
        t.made[name]? = some address) ∧
      ∀ b ∈ blocks, ∀ (op : Opcode) (role : Role), b.validate = .ok op →
        targets[b.address]? = some role →
        t.made[Bytes.ofString (role.labelAt b.address)]? = some b.address := by
  induction blocks generalizing labels cursor with
  | nil => exact ⟨_, rfl, fun _ _ bound => bound, by simp⟩
  | cons b rest ih =>
      obtain ⟨first, later⟩ := List.pairwise_cons.1 ascending
      have aligned_rest : ∀ x ∈ rest, Aligned x := fun x member => aligned x (.tail b member)
      rw [linesFrom]
      cases checked : b.validate with
      | error defect =>
          obtain ⟨t, ran, kept, bound⟩ := ih aligned_rest later
            (fun x member => fresh x (.tail b member)) cursor
          refine ⟨t, ran, kept, ?_⟩
          intro x member op role valid target
          rcases List.mem_cons.1 member with rfl | among
          · rw [checked] at valid
            cases valid
          · exact bound x among op role valid target
      | ok op =>
          -- Later blocks lie at other addresses, so their names stay free, and no label is defined
          -- twice even where that would be allowed.
          have fresh_b := fresh b List.mem_cons_self
          have fresh_rest : ∀ x ∈ rest, ∀ role : Role,
              (bindBlock targets labels b)[Bytes.ofString (role.labelAt x.address)]? = none := by
            intro x member role
            have apart : x.address ≠ b.address := fun same =>
              Nat.lt_irrefl _ (same ▸ first x member)
            rw [bindBlock_other (labelAt_ne apart role)]
            exact fresh x (.tail b member) role
          obtain ⟨t, ran, kept, bound⟩ := ih aligned_rest later fresh_rest (b.address + 4)
          refine ⟨t, ?_, ?_, ?_⟩
          · dsimp only
            rw [Pass.run_append, labelRun_blockLines (aligned b List.mem_cons_self) fresh_b]
            exact ran
          · intro name address known
            apply kept
            rw [bindBlock_other, known]
            rintro role rfl
            rw [fresh_b role] at known
            cases known
          · intro x member op' role valid target
            rcases List.mem_cons.1 member with rfl | among
            · exact kept _ _ (bindBlock_self target)
            · exact bound x among op' role valid target

/-- The image pass over a listing gets through and puts every valid block at its address. -/
theorem imageRun_linesFrom {labels : Labels}
    (bound : ∀ (address : Word) (role : Role), targets[address]? = some role →
      labels[Bytes.ofString (role.labelAt address)]? = some address)
    {blocks : List SweptBlock} (aligned : ∀ b ∈ blocks, Aligned b)
    (ascending : blocks.Pairwise (·.address.toNat < ·.address.toNat)) (cursor : Word)
    (image : Image) :
    ∃ t, Pass.run d (Placed.emit labels) ⟨cursor, image⟩ (linesFrom targets cursor blocks) = .ok t ∧
      (∀ b ∈ blocks, ∀ (op : Opcode) (k : Nat), b.validate = .ok op → b.address.toNat = 4 * k →
        t.made.block k = b.block) ∧
      ∀ k, (∀ b ∈ blocks, ∀ op, b.validate = .ok op → b.address.toNat ≠ 4 * k) →
        t.made.block k = image.block k := by
  induction blocks generalizing cursor image with
  | nil => exact ⟨_, rfl, by simp, fun _ _ => rfl⟩
  | cons b rest ih =>
      obtain ⟨first, later⟩ := List.pairwise_cons.1 ascending
      have aligned_rest : ∀ x ∈ rest, Aligned x := fun x member => aligned x (.tail b member)
      rw [linesFrom]
      cases checked : b.validate with
      | error defect =>
          obtain ⟨t, ran, put, kept⟩ := ih aligned_rest later cursor image
          refine ⟨t, ran, ?_, ?_⟩
          · intro x member op k valid at_k
            rcases List.mem_cons.1 member with rfl | among
            · rw [checked] at valid
              cases valid
            · exact put x among op k valid at_k
          · exact fun k away => kept k fun x member => away x (.tail b member)
      | ok op =>
          have aligned_b := aligned b List.mem_cons_self
          have encoded : (statementOf targets op b.instruction).encode labels = .ok b.block := by
            rw [Statement.encode, instruction_statementOf (Instruction.validate_eq_ok_iff.1 checked)
              bound]
            exact congrArg Except.ok (Instruction.encode_decode b.block)
          obtain ⟨t, ran, put, kept⟩ := ih aligned_rest later (b.address + 4)
            (image.place ⟨b.address, b.block, aligned_b.fits⟩)
          refine ⟨t, ?_, ?_, ?_⟩
          · dsimp only
            rw [Pass.run_append, imageRun_blockLines aligned_b encoded]
            exact ran
          · intro x member op' k valid at_k
            rcases List.mem_cons.1 member with rfl | among
            · -- No later block lies at this address, so the block stays as it is put.
              rw [kept k, Image.block_place _ _ at_k, if_pos rfl]
              intro y among _ _
              have := first y among
              omega
            · exact put x among op' k valid at_k
          · intro k away
            rw [kept k fun x member => away x (.tail b member)]
            obtain ⟨m, at_m⟩ := Nat.dvd_of_mod_eq_zero aligned_b.multiple
            rw [Image.block_place _ _ at_m, if_neg]
            rintro rfl
            exact away b List.mem_cons_self op checked at_m

end Blocks

/-! ## Whole listings -/

def isValid (block : Block) : Bool :=
  (Instruction.decode block).validate.isOk

/-- The words filled up with zeros, and zeros for every block that is not full or holds no valid
instruction. -/
def restored (words : List Word) : Image where
  words := Vector.ofFn fun a : Fin memorySize =>
    if (blockAt? words (a / 4)).any isValid then words[a.val]?.getD 0 else 0

theorem wordAt_restored (words : List Word) {n : Nat} (bound : n < memorySize) :
    (restored words).wordAt n =
      if (blockAt? words (n / 4)).any isValid then words[n]?.getD 0 else 0 := by
  unfold Image.wordAt restored
  rw [Vector.getElem?_eq_getElem bound, Vector.getElem_ofFn]
  rfl

theorem block_restored (words : List Word) {k : Nat} (bound : 4 * k < memorySize) :
    (restored words).block k = ((blockAt? words k).filter isValid).getD .zero := by
  have offset (i : Nat) (h : i < 4) : (restored words).wordAt (4 * k + i) =
      if (blockAt? words k).any isValid then words[4 * k + i]?.getD 0 else 0 := by
    have inside : 4 * k + i < memorySize := by
      simp only [memorySize] at bound ⊢
      omega
    rw [wordAt_restored words inside, show (4 * k + i) / 4 = k by omega]
  have start := offset 0 (by decide)
  rw [Nat.add_zero] at start
  rw [Image.block, start, offset 1 (by decide), offset 2 (by decide), offset 3 (by decide)]
  cases found : blockAt? words k with
  | none => rfl
  | some block =>
      obtain ⟨h0, h1, h2, h3⟩ := blockAt?_eq_some_iff.1 found
      by_cases valid : isValid block
      · simp [Option.filter, valid, h0, h1, h2, h3]
      · simp [Option.filter, valid, Block.zero]

theorem aligned_of_blockAt? {words : List Word} (h : words.length ≤ memorySize) {b : SweptBlock}
    {k : Nat} (found : blockAt? words k = some b.block) (at_k : b.address = .ofNat (4 * k)) :
    b.address.toNat = 4 * k ∧ Aligned b := by
  have bound := blockAt?_bound found
  simp only [memorySize] at h
  have address : b.address.toNat = 4 * k := by
    rw [at_k]
    exact UInt64.toNat_ofNat_of_lt' (by simp only [UInt64.size]; omega)
  refine ⟨address, ?_, ?_⟩
  · rw [address]
    exact Nat.mul_mod_right 4 k
  · show b.address.toNat + 4 ≤ 65536
    omega

/-- The blocks that a listing puts into an image are those of the words, the invalid ones apart. -/
theorem eq_restored {words : List Word} (h : words.length ≤ memorySize) {image : Image}
    (put : ∀ b ∈ sweep words, ∀ (op : Opcode) (k : Nat), b.validate = .ok op →
      b.address.toNat = 4 * k → image.block k = b.block)
    (kept : ∀ k, (∀ b ∈ sweep words, ∀ op, b.validate = .ok op → b.address.toNat ≠ 4 * k) →
      image.block k = .zero) : image = restored words := by
  apply Image.ext_block
  intro k bound
  rw [block_restored words bound]
  have at_most (b : SweptBlock) (member : b ∈ sweep words) (at_k : b.address.toNat = 4 * k) :
      blockAt? words k = some b.block := by
    obtain ⟨m, found, at_m, -⟩ := mem_sweep.1 member
    have address := (aligned_of_blockAt? h found at_m).1
    rwa [show k = m by omega]
  cases found : blockAt? words k with
  | none =>
      apply kept
      intro b member op valid at_k
      rw [at_most b member at_k] at found
      cases found
  | some block =>
      cases checked : (Instruction.decode block).validate with
      | error defect =>
          have invalid : isValid block = false := by
            rw [isValid, checked]
            rfl
          simp only [Option.filter, invalid]
          apply kept
          intro b member op valid at_k
          have same := at_most b member at_k
          rw [found, Option.some.injEq] at same
          rw [SweptBlock.validate, SweptBlock.instruction, ← same, checked] at valid
          cases valid
      | ok op =>
          have valid : isValid block = true := by
            rw [isValid, checked]
            rfl
          simp only [Option.filter, valid]
          by_cases zero : block = .zero
          · -- A block of zeros is a valid instruction, but it is not listed.
            subst zero
            apply kept
            intro b member _ _ at_k
            obtain ⟨-, -, -, nonzero⟩ := mem_sweep.1 member
            have same := at_most b member at_k
            rw [found, Option.some.injEq] at same
            exact nonzero same.symm
          · have member : ⟨.ofNat (4 * k), block⟩ ∈ sweep words :=
              mem_sweep.2 ⟨k, found, rfl, zero⟩
            exact put _ member op k checked (aligned_of_blockAt? h found rfl).1

theorem passes_restore (d : Dialect) {words : List Word} (h : words.length ≤ memorySize) :
    ∃ labels, Labels.ofLines d (linesFrom (targetsOf (sweep words)) 0 (sweep words)) = .ok labels ∧
      Image.ofLines d labels (linesFrom (targetsOf (sweep words)) 0 (sweep words)) =
        .ok (restored words) := by
  have aligned : ∀ b ∈ sweep words, Aligned b := by
    intro b member
    obtain ⟨k, found, at_k, -⟩ := mem_sweep.1 member
    exact (aligned_of_blockAt? h found at_k).2
  have ascending : (sweep words).Pairwise (·.address.toNat < ·.address.toNat) := by
    apply sweep_ascending
    simp only [memorySize] at h
    simp only [UInt64.size]
    omega
  obtain ⟨s, entered, -, bound⟩ :=
    labelRun_linesFrom aligned ascending (fun _ _ _ => Std.TreeMap.getElem?_emptyc) 0
  have named : ∀ (address : Word) (role : Role), (targetsOf (sweep words))[address]? = some role →
      s.made[Bytes.ofString (role.labelAt address)]? = some address := by
    intro address role target
    obtain ⟨b, member, op, valid, rfl⟩ := targetsOf_valid target
    exact bound b member op role valid target
  obtain ⟨t, emitted, put, kept⟩ := imageRun_linesFrom named aligned ascending 0 .zero
  refine ⟨s.made, ?_, ?_⟩
  · rw [Labels.ofLines_eq_labelPass, labelPass, entered]
    rfl
  · rw [Image.ofLines_eq_imagePass, imagePass, emitted]
    refine congrArg Except.ok (eq_restored h put ?_)
    intro k away
    rw [kept k away, Image.block_zero]

end Listing

theorem assemble_of_writes {d : Dialect} {text : Bytes} {lines : List Line} {labels : Labels}
    {image : Image} (writes : Writes d text lines) (bound : Labels.ofLines d lines = .ok labels)
    (emitted : Image.ofLines d labels lines = .ok image) : assemble d text = .ok image := by
  obtain ⟨placed, read, rfl⟩ := writes.parse_tokenize
  have exactly := Results.Tolerance.exact_movedBy (f := Restyling.bare.position)
  obtain ⟨_, bound_placed, rfl⟩ :=
    (Restyling.bare.labels_agree d placed).exists_ok_first exactly bound
  obtain ⟨_, emitted_placed, rfl⟩ :=
    (Restyling.bare.image_agrees d _ placed).exists_ok_first exactly emitted
  exact assemble_eq_ok_iff.2 ⟨placed, _, read, bound_placed, emitted_placed⟩

theorem assemble_ofWords (d : Dialect) {words : List Word} (h : words.length ≤ memorySize) :
    assemble d (Bytes.ofString (Listing.ofWords words)) = .ok (Listing.restored words) := by
  obtain ⟨labels, bound, emitted⟩ := Listing.passes_restore d h
  exact assemble_of_writes (Listing.writes_ofWords d words) bound emitted

/-- Reassembling a listing restores the words it was made from, in the dialect that accepts the most
and in the one that accepts the least; no valid block is lost, moved or altered. -/
theorem assemble_listing_restores {words : List Word} (h : words.length ≤ memorySize) :
    assemble .standard (Bytes.ofString (Listing.ofWords words)) = .ok (Listing.restored words) ∧
      assemble .strict (Bytes.ofString (Listing.ofWords words)) = .ok (Listing.restored words) ∧
      ∀ k block op, blockAt? words k = some block → (Instruction.decode block).validate = .ok op →
        (Listing.restored words).block k = block := by
  refine ⟨assemble_ofWords .standard h, assemble_ofWords .strict h, ?_⟩
  intro k block op found checked
  have bound := blockAt?_bound found
  have valid : Listing.isValid block = true := Results.isOk_iff.2 ⟨op, checked⟩
  rw [Listing.block_restored words (by omega), found]
  simp [Option.filter, valid]

/-- A jump to itself, a block without an opcode, and a word that fills no block. -/
def mixedWords : List Word := [0x1200020000, 0, 0, 0, 0xff00000000, 1, 2, 3, 9]

theorem assemble_listing_restores_mixed :
    mixedWords.length ≤ memorySize ∧
      assemble .standard (Bytes.ofString (Listing.ofWords mixedWords)) =
        .ok (Listing.restored mixedWords) ∧
      assemble .strict (Bytes.ofString (Listing.ofWords mixedWords)) =
        .ok (Listing.restored mixedWords) ∧
      (Listing.restored mixedWords).block 0 = ⟨0x1200020000, 0, 0, 0⟩ := by
  have bound : mixedWords.length ≤ memorySize := by decide
  obtain ⟨standard, strict, kept⟩ := assemble_listing_restores bound
  exact ⟨bound, standard, strict, kept 0 _ .jmp rfl (by decide)⟩

end WordMachine
