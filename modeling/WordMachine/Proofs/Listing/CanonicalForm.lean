import WordMachine.Proofs.Listing.Lines
import WordMachine.Proofs.Listing.RoundTrip

/-!
# The canonical form of a listing

What a listing says about valid instructions does not depend on the other blocks: they neither label
an address nor move a base.  Assembling a listing therefore loses its comments and nothing else, and
what is listed after that stays as it is.
-/

namespace WordMachine.Listing

/-! ## Comments -/

/-- A text without its comments, the lines that start with a semicolon. -/
def withoutComments (text : String) : String :=
  .ofList (['\n'].intercalate ((text.toList.splitOn '\n').filter (·.head? != some ';')))

theorem intercalate_concat_nil (lines : List (List Char)) :
    ['\n'].intercalate (lines ++ [[]]) = lines.flatMap (· ++ ['\n']) := by
  induction lines with
  | nil => rfl
  | cons line lines ih =>
      rw [List.cons_append, List.intercalate_cons_of_ne_nil (by simp), ih, List.flatMap_cons]

theorem withoutComments_eq {text : String} {lines : List (List Char)}
    (split : text.toList = lines.flatMap (· ++ ['\n'])) (feedless : ∀ line ∈ lines, '\n' ∉ line) :
    (withoutComments text).toList =
      (lines.filter (·.head? != some ';')).flatMap (· ++ ['\n']) := by
  have read : text.toList.splitOn '\n' = lines ++ [[]] := by
    rw [split, ← intercalate_concat_nil]
    apply List.splitOn_intercalate
    · intro line member
      rcases List.mem_append.1 member with own | last
      · exact feedless line own
      · rw [List.mem_singleton.1 last]
        simp
    · simp
  -- The text ends with a line feed, so what follows the last one is kept as an empty line.
  rw [withoutComments, read, String.toList_ofList, List.filter_append,
    List.filter_cons_of_pos (by decide), List.filter_nil, intercalate_concat_nil]

theorem toList_join_render {lines : List Entry} (each : ∀ e ∈ lines, e.OnLine) :
    (String.join (lines.map Entry.render)).toList =
      (lines.map Entry.line).flatMap (· ++ ['\n']) := by
  rw [String.toList_join, List.flatMap_map, List.flatMap_map]
  apply List.flatMap_congr
  intro e member
  exact (each e member).ends

/-- The comments of a listing are its remarks. -/
theorem withoutComments_ofWords (words : List Word) :
    withoutComments (ofWords words) =
      String.join (((entries words).filter (!·.isRemark)).map Entry.render) := by
  have each : ∀ e ∈ entries words, e.OnLine := by
    intro e member
    rcases exists_ofBlock member with ⟨b, -, own⟩
    exact own.onLine
  have kept : ((entries words).map Entry.line).filter (·.head? != some ';') =
      ((entries words).filter (!·.isRemark)).map Entry.line := by
    rw [List.filter_map]
    congr 1
    apply List.filter_congr
    intro e member
    have comment := (each e member).comment
    cases remark : e.isRemark <;> simp_all
  apply String.toList_inj.1
  rw [ofWords, textLines, withoutComments_eq (toList_join_render each), kept, toList_join_render]
  · intro e member
    exact each e (List.mem_of_mem_filter member)
  · intro line member
    rcases List.mem_map.1 member with ⟨e, among, rfl⟩
    exact (each e among).feedless

/-! ## Blocks without a valid instruction -/

theorem targetsOf_filter (blocks : List SweptBlock) :
    targetsOf (blocks.filter (·.validate.isOk)) = targetsOf blocks := by
  have valid : validAddresses (blocks.filter (·.validate.isOk)) = validAddresses blocks := by
    simp [validAddresses]
  have passed (addresses : Std.TreeSet Word) :
      (fun targets (b : SweptBlock) =>
        if b.validate.isOk then addTarget addresses targets b else targets) =
      addTarget addresses := by
    funext targets b
    unfold addTarget
    cases b.validate <;> rfl
  rw [targetsOf, valid, List.foldl_filter, passed]
  rfl

theorem filter_instructionEntries (targets : Targets) (cursor : Word) (b : SweptBlock)
    {op : Opcode} (valid : b.validate = .ok op) :
    (instructionEntries targets cursor b op).filter (!·.isRemark) =
      instructionEntries targets cursor b op := by
  rw [List.filter_eq_self]
  intro e member
  cases ofBlock_of_mem_instructionEntries valid member with
  | remark invalid => cases valid.symm.trans invalid
  | base _ => rfl
  | label _ _ => rfl
  | instruction _ => rfl

theorem entriesFrom_filter (targets : Targets) (cursor : Word) (blocks : List SweptBlock) :
    entriesFrom targets [] cursor (blocks.filter (·.validate.isOk)) =
      (entriesFrom targets [] cursor blocks).filter (!·.isRemark) := by
  induction blocks generalizing cursor with
  | nil => rfl
  | cons b rest ih =>
      cases checked : b.validate with
      | error defect =>
          have dropped : (b :: rest).filter (·.validate.isOk) =
              rest.filter (·.validate.isOk) := by
            rw [List.filter_cons, checked]
            rfl
          rw [dropped, entriesFrom_cons_error checked, List.filter_cons_of_neg Bool.false_ne_true,
            ih]
      | ok op =>
          have kept : (b :: rest).filter (·.validate.isOk) =
              b :: rest.filter (·.validate.isOk) := by
            rw [List.filter_cons, checked]
            rfl
          rw [kept, entriesFrom_cons_ok checked, entriesFrom_cons_ok checked, List.filter_append,
            filter_instructionEntries targets cursor b checked, ih]

/-! ## The restored image -/

section Restored

variable {words : List Word}

theorem isValid_block_restored (k : Nat) : isValid ((restored words).block k) = true := by
  by_cases bound : 4 * k < memorySize
  · rw [block_restored words bound]
    cases kept : (blockAt? words k).filter isValid with
    | none => exact isValid_zero
    | some block => exact (Option.filter_eq_some_iff.1 kept).2
  · rw [Image.block_of_le _ (Nat.le_of_not_lt bound)]
    exact isValid_zero

theorem isOk_validate (b : SweptBlock) : b.validate.isOk = isValid b.block := rfl

theorem sweptAt?_restored {k : Nat} (bound : 4 * k < memorySize) :
    sweptAt? 0 (restored words).words.toList k =
      (sweptAt? 0 words k).filter (·.validate.isOk) := by
  unfold sweptAt?
  rw [blockAt?_toList _ bound, block_restored words bound, Option.bind_some]
  cases blockAt? words k with
  | none => rfl
  | some block =>
      rw [Option.bind_some]
      by_cases zero : block = .zero
      · subst zero
        simp [Option.filter, isValid_zero]
      · cases checked : isValid block with
        | false => simp [Option.filter, isOk_validate, checked, zero]
        | true => simp [Option.filter, isOk_validate, checked, zero]

theorem sweep_restored (fits : words.length ≤ memorySize) :
    sweep (restored words).words.toList = (sweep words).filter (·.validate.isOk) := by
  have length : (restored words).words.toList.length = memorySize := Vector.length_toList ..
  have whole : (restored words).words.toList.length / 4 ≤ memorySize / 4 := by
    rw [length]
  have part : words.length / 4 ≤ memorySize / 4 := Nat.div_le_div_right fits
  rw [sweep_eq_filterMap whole, sweep_eq_filterMap part, List.filter_filterMap]
  apply List.filterMap_congr
  intro k inside
  apply sweptAt?_restored
  have number := List.mem_range.1 inside
  omega

/-- The listing of the restored image is the listing without its comments. -/
theorem ofWords_restored (fits : words.length ≤ memorySize) :
    ofWords (restored words).words.toList = withoutComments (ofWords words) := by
  rw [withoutComments_ofWords, ofWords, textLines, entries, sweep_restored fits, targetsOf_filter]
  exact congrArg (fun lines => String.join (lines.map Entry.render)) (entriesFrom_filter _ 0 _)

end Restored

/-! ## Rounds -/

/-- One round: a text is assembled, and the image is listed. -/
def relist (d : Dialect) (text : String) : Option String :=
  match assemble d (Bytes.ofString text) with
  | .error _ => none
  | .ok image => (ofBytes image.bytes).toOption

def relistTimes (d : Dialect) : Nat → String → Option String
  | 0, text => some text
  | n + 1, text => (relist d text).bind (relistTimes d n)

theorem relist_ofWords (d : Dialect) {words : List Word} (fits : words.length ≤ memorySize) :
    relist d (ofWords words) = some (withoutComments (ofWords words)) := by
  rw [relist, assemble_ofWords d fits]
  dsimp only
  rw [ofBytes_bytes, ofWords_restored fits]
  rfl

theorem relist_withoutComments (d : Dialect) {words : List Word}
    (fits : words.length ≤ memorySize) :
    relist d (withoutComments (ofWords words)) = some (withoutComments (ofWords words)) := by
  have whole : (restored words).words.toList.length ≤ memorySize :=
    Nat.le_of_eq (Vector.length_toList ..)
  rw [← ofWords_restored fits, relist_ofWords d whole, ← ofWords_restored whole,
    restored_toList isValid_block_restored]

theorem relistTimes_eq_some {d : Dialect} {text : String} (fixed : relist d text = some text)
    (n : Nat) : relistTimes d n text = some text := by
  induction n with
  | zero => rfl
  | succ n ih => rw [relistTimes, fixed, Option.bind_some, ih]

/-- A listing reaches its canonical form in one round: the image that it is assembled to is listed
as the same text without comments, and after that any number of rounds changes nothing. -/
theorem canonical_after_one_round (d : Dialect) {words : List Word}
    (fits : words.length ≤ memorySize) :
    (∃ image, assemble d (Bytes.ofString (ofWords words)) = .ok image ∧
      ofBytes image.bytes = .ok (withoutComments (ofWords words))) ∧
    ∀ n, relistTimes d (n + 1) (ofWords words) = some (withoutComments (ofWords words)) := by
  constructor
  · refine ⟨restored words, assemble_ofWords d fits, ?_⟩
    rw [ofBytes_bytes, ofWords_restored fits]
  · intro n
    rw [relistTimes, relist_ofWords d fits, Option.bind_some]
    exact relistTimes_eq_some (relist_withoutComments d fits) n

/-- An instruction that calls itself, between two blocks without an opcode. -/
def remarkedWords : List Word :=
  [0xff00000000, 1, 2, 3, 0x1000020000, 4, 0, 0, 0xff00000000, 4, 5, 6, 7]

theorem remarked_words_relisted :
    remarkedWords.length ≤ memorySize ∧
      withoutComments (ofWords remarkedWords) =
        ".base 4\nsub_0004:\n    call     :sub_0004\n" ∧
      relistTimes .strict 3 (ofWords remarkedWords) =
        some (withoutComments (ofWords remarkedWords)) := by
  have fits : remarkedWords.length ≤ memorySize := by decide
  refine ⟨fits, ?_, (canonical_after_one_round .strict fits).2 2⟩
  rw [withoutComments_ofWords]
  rfl

end WordMachine.Listing
