import Mips32.Console.Session
import Mips32.InstructionSet.Standard
import Mips32.Proofs.Additions
import Mips32.Proofs.Reassembly

namespace Mips32

open Text

namespace Mnemonic

theorem groups_append_of_blank {w b : Text} (hw : ',' ∉ w) (hb : ∀ c ∈ b.head?, isBlank c) :
    groups (w ++ b) = (groups b).modifyHead (words w ++ ·) := by
  obtain ⟨u, v, rfl, hu, hv⟩ := exists_first_group b
  have hstop : ∀ c ∈ u.head?, isBlank c := by
    cases u with
    | nil => simp
    | cons d u => exact hb
  have hcomma : ',' ∉ w ++ u := by simp [hw, hu]
  rw [← List.append_assoc, groups_append_rest hcomma hv, groups_append_rest hu hv,
    words_append_of_stop hstop, List.modifyHead_cons]

theorem groups_append_congr (w : Text) {a b : Text} (ha : ∀ c ∈ a.head?, isBlank c)
    (hb : ∀ c ∈ b.head?, isBlank c) (h : groups a = groups b) :
    groups (w ++ a) = groups (w ++ b) := by
  induction w using comma_induction with
  | last w hw => rw [groups_append_of_blank hw ha, groups_append_of_blank hw hb, h]
  | comma u w hu ih =>
    rw [List.append_assoc, List.append_assoc, List.cons_append, List.cons_append,
      groups_append_comma hu, groups_append_comma hu, ih]

theorem groups_mnemonicText_words (t : Text) :
    groups (Console.mnemonicText (words t)) = groups t := by
  unfold Console.mnemonicText
  induction hws : words t generalizing t with
  | nil =>
    rw [groups_eq_blank_iff.2 (blank_of_words_eq_nil hws)]
    rfl
  | cons w ws ih =>
    obtain ⟨a, b, rfl, ha, hb, rfl⟩ := exists_of_words_cons hws
    have hb' := ih b rfl
    rw [groups_blank_append ha]
    cases hrest : words b with
    | nil =>
      rw [List.intercalate_singleton, groups_append_blank w (blank_of_words_eq_nil hrest)]
    | cons u us =>
      rw [List.intercalate_cons_cons, ← hrest, List.append_assoc]
      refine groups_append_congr w (by simp [isBlank_space]) hb ?_
      rw [List.singleton_append, groups_cons_blank isBlank_space, hb']

def Spaced (t : Text) : Prop := ∀ c ∈ t, isBlank c → c = ' '

instance (t : Text) : Decidable (Spaced t) :=
  decidable_of_iff (t.all fun c ↦ !isBlank c || c = ' ')
    (by simp only [Spaced, List.all_eq_true, Bool.or_eq_true, Bool.not_eq_true',
      ← Bool.not_eq_true, decide_eq_true_eq, imp_iff_not_or])

theorem spaced_intercalate {separator : Text} {ts : List Text} (hs : Spaced separator)
    (hts : ∀ t ∈ ts, Spaced t) : Spaced (List.intercalate separator ts) := by
  intro c hc
  rcases mem_intercalate hc with hc | ⟨t, ht, hc⟩
  · exact hs c hc
  · exact hts t ht c hc

theorem spaced_of_solid {t : Text} (h : ∀ c ∈ t, isBlank c = false) : Spaced t := by
  intro c hc hblank
  rw [h c hc] at hblank
  contradiction

theorem spaced_space : Spaced [' '] := fun _ hc _ ↦ List.mem_singleton.1 hc

theorem spaced_mnemonicText {ws : List Text} (h : ∀ w ∈ ws, ∀ c ∈ w, isBlank c = false) :
    Spaced (Console.mnemonicText ws) :=
  spaced_intercalate spaced_space fun w hw ↦ spaced_of_solid (h w hw)

theorem spaced_normalize (t : Text) : Spaced (normalize t) := by
  have hcomma : Spaced [',', ' '] := by
    intro c hc hblank
    rcases List.mem_pair.1 hc with rfl | rfl
    · rw [isBlank_comma] at hblank
      contradiction
    · rfl
  have hunsplit : Spaced (unsplit (groups t)) := by
    refine spaced_intercalate hcomma (List.forall_mem_map.2 fun g hg ↦ ?_)
    refine spaced_mnemonicText fun w hw c hc ↦ ?_
    exact isBlank_of_isSolid ((isToken_of_mem_group hg hw).2 c hc)
  intro c hc
  rw [normalize_eq] at hc
  exact hunsplit c (mem_of_mem_trim hc)

theorem isLegal_space : isLegal ' ' = true := rfl

theorem isLegal_comma : isLegal ',' = true := rfl

theorem filter_illegal_of_spaced {t : Text} (h : Spaced t) :
    (t.filter fun c ↦ !isLegal c) = (groups t).flatten.flatten.filter fun c ↦ !isLegal c := by
  rw [flatten_groups, List.filter_filter]
  apply List.filter_congr
  intro c hc
  cases hlegal : isLegal c with
  | true => rfl
  | false =>
    have hsolid : isSolid c := by
      refine isSolid_iff.2 ⟨Bool.eq_false_iff.2 fun hblank ↦ ?_, ?_⟩
      · rw [h c hc hblank, isLegal_space] at hlegal
        contradiction
      · rintro rfl
        rw [isLegal_comma] at hlegal
        contradiction
    rw [hsolid]
    rfl

theorem eq_space_of_isLegal {c : Char} (h : isLegal c) (hblank : isBlank c) : c = ' ' := by
  rw [isLegal, not_isAlphanum_of_isBlank hblank, Bool.false_or, decide_eq_true_eq,
    List.mem_cons] at h
  refine h.resolve_right fun hmem ↦ ?_
  have hsolid : [',', '(', ')', '$', '-'].all fun d ↦ !isBlank d := by decide
  have hc := List.all_eq_true.1 hsolid c hmem
  rw [hblank] at hc
  contradiction

theorem checkCharacters_of_groups_eq {a b : Text} (h : groups a = groups b) (ha : Spaced a)
    (hb : Spaced b) : checkCharacters a = checkCharacters b := by
  unfold checkCharacters
  rw [filter_illegal_of_spaced ha, filter_illegal_of_spaced hb, h]

variable {a b : Text}

theorem countCommas_of_groups_eq (h : groups a = groups b) : countCommas a = countCommas b := by
  have hlen := length_groups a
  rw [h, length_groups] at hlen
  omega

theorem blank_iff_of_groups_eq (h : groups a = groups b) :
    (∀ c ∈ a, isBlank c) ↔ ∀ c ∈ b, isBlank c := by
  rw [← groups_eq_blank_iff, h, groups_eq_blank_iff]

end Mnemonic

open Mnemonic

/-- The error that another text of the same parts gets. -/
def AssemblyError.quoting (text : Text) : AssemblyError → AssemblyError
  | malformed _ reason => malformed text reason
  | unknownInstruction name => unknownInstruction name

namespace Operation

/-- An operation reads the words of the comma groups and quotes the text only in errors. -/
theorem assemble_of_groups_eq (op : Operation) {a b : Text} (h : groups a = groups b)
    (hcharacters : checkCharacters a = checkCharacters b) :
    op.assemble b = (op.assemble a).mapError (.quoting b) := by
  have hblank : b.all isBlank = a.all isBlank := by
    rw [Bool.eq_iff_iff, List.all_eq_true, List.all_eq_true, blank_iff_of_groups_eq h]
  have htokens := tokens_of_groups_eq h
  have hparentheses : checkParentheses op.roles b = checkParentheses op.roles a := by
    rw [checkParentheses, ← htokens, ← checkParentheses]
  rw [assemble, assemble, hblank, ← hcharacters, hparentheses, ← htokens,
    ← countCommas_of_groups_eq h]
  split
  · rfl
  split
  · rfl
  split
  · rfl
  split
  · rfl
  dsimp only
  split
  · rfl
  split
  · rfl
  split
  · rfl
  cases op.assembleTokens _ _ <;> rfl

end Operation

namespace InstructionSet

theorem assemble_of_blank (set : InstructionSet) {t : Text} (h : ∀ c ∈ t, isBlank c) :
    set.assemble t = .error (.malformed t .empty) := by
  simp [assemble, normalize_eq_nil_iff.2 h]

theorem assemble_of_groups_eq (set : InstructionSet) {a b : Text} (h : groups a = groups b)
    (hcharacters : checkCharacters a = checkCharacters b) :
    set.assemble b = (set.assemble a).mapError (.quoting b) := by
  by_cases hblank : ∀ c ∈ a, isBlank c
  · rw [set.assemble_of_blank hblank, set.assemble_of_blank ((blank_iff_of_groups_eq h).1 hblank)]
    rfl
  have hname : name b = name a := by rw [name_eq, ← h, ← name_eq]
  cases hnamed : set.named? (name a) with
  | some op =>
    rw [assemble_of_named hnamed, assemble_of_named (hname ▸ hnamed),
      op.assemble_of_groups_eq h hcharacters]
  | none =>
    rw [assemble_of_unnamed hnamed hblank,
      assemble_of_unnamed (hname ▸ hnamed) ((blank_iff_of_groups_eq h).not.1 hblank),
      ← hcharacters, hname]
    cases checkCharacters a <;> rfl

theorem assemble_of_illegal (set : InstructionSet) {t : Text} (hblank : ¬∀ c ∈ t, isBlank c)
    (h : ¬∀ c ∈ t, isLegal c) :
    set.assemble t =
      .error (.malformed t (.illegalCharacters (t.filter fun c ↦ !isLegal c))) := by
  have hcharacters := checkCharacters_of_illegal h
  cases hnamed : set.named? (name t) with
  | none => rw [assemble_of_unnamed hnamed hblank, hcharacters]
  | some op =>
    have hall : ¬t.all isBlank := by rwa [List.all_eq_true]
    rw [assemble_of_named hnamed, Operation.assemble, if_neg hall, hcharacters]

/-- An instruction keeps the tokens of its text, joined, and these assemble to it again. -/
theorem mnemonic_of_assemble {ops : List Operation} {t : Text} {i : Instruction}
    (h : (ofList ops).assemble t = .ok i) :
    i.mnemonic = join (tokens t) ∧ (ofList ops).assemble i.mnemonic = .ok i := by
  have hset := wellFormed_ofList ops
  refine ⟨?_, hset.assemble_mnemonic h⟩
  obtain ⟨op, arguments, operands, -, -, hwritten, -, rfl⟩ := hset.exists_written h
  rw [Operation.mnemonic_withOperands, hwritten.tokens]

theorem assemble_singleton {op : Operation} (hkeyed : op.name ≠ nopName → op.key?.isSome)
    {t : Text} (ht : name t = op.name) : (ofList [op]).assemble t = op.assemble t :=
  assemble_of_named
    ((wellFormed_ofList [op]).named?_eq_some_iff.2 ⟨mem_ofList_singleton hkeyed, ht.symm⟩)

theorem mnemonic_of_cramped_load :
    ∃ op i, (ofList [op]).assemble " lw$t1 ,4 ($sp)".toList = .ok i ∧
      i.mnemonic = "lw $t1, 4($sp)".toList ∧
      (ofList [op]).assemble "lw $t1, 4($sp)".toList = .ok i := by
  let op : Operation := Standard.immediate "lw" 0x23 Standard.rtAddress none "" "" 0#32
  obtain ⟨i, hi⟩ : ∃ i, op.assemble " lw$t1 ,4 ($sp)".toList = .ok i := ⟨_, rfl⟩
  rw [← assemble_singleton (by decide) rfl] at hi
  obtain ⟨hmnemonic, hagain⟩ := mnemonic_of_assemble hi
  have hjoin : join (tokens " lw$t1 ,4 ($sp)".toList) = "lw $t1, 4($sp)".toList := by decide
  rw [hjoin] at hmnemonic
  exact ⟨op, i, hi, hmnemonic, hmnemonic ▸ hagain⟩

/-- A text with no blanks but spaces fares as its normal form does and as its words with single
spaces between them. Any other blank is reported, unless the text is all blank. -/
theorem spacing_irrelevant (ops : List Operation) (t : Text) :
    (Spaced t →
      (ofList ops).assemble (normalize t) =
        ((ofList ops).assemble t).mapError (.quoting (normalize t)) ∧
      (ofList ops).assemble (Console.mnemonicText (words t)) =
        ((ofList ops).assemble t).mapError (.quoting (Console.mnemonicText (words t)))) ∧
    ((∃ c ∈ t, isBlank c = false) → (∃ c ∈ t, isBlank c ∧ c ≠ ' ') →
      (ofList ops).assemble t =
        .error (.malformed t (.illegalCharacters (t.filter fun c ↦ !isLegal c)))) := by
  constructor
  · intro ht
    have hnormal := (groups_normalize t).symm
    have hwords := (groups_mnemonicText_words t).symm
    have hspaced : Spaced (Console.mnemonicText (words t)) :=
      spaced_mnemonicText fun w hw ↦ (solid_of_mem_words hw).2
    exact ⟨assemble_of_groups_eq _ hnormal
        (checkCharacters_of_groups_eq hnormal ht (spaced_normalize t)),
      assemble_of_groups_eq _ hwords (checkCharacters_of_groups_eq hwords ht hspaced)⟩
  · rintro ⟨c, hc, hsolid⟩ ⟨d, hd, hblank, hspace⟩
    apply assemble_of_illegal
    · intro h
      rw [h c hc] at hsolid
      contradiction
    · intro h
      exact hspace (eq_space_of_isLegal (h d hd) hblank)

theorem spacing_of_short_load :
    ∃ op, (ofList [op]).assemble "lw  $t1 , ".toList =
        .error (.malformed "lw  $t1 , ".toList (.argumentCount 2 1)) ∧
      (ofList [op]).assemble "lw $t1,".toList =
        .error (.malformed "lw $t1,".toList (.argumentCount 2 1)) ∧
      (ofList [op]).assemble "lw $t1 ,".toList =
        .error (.malformed "lw $t1 ,".toList (.argumentCount 2 1)) ∧
      (ofList [op]).assemble "lw\t$t1".toList =
        .error (.malformed "lw\t$t1".toList (.illegalCharacters ['\t'])) := by
  let op : Operation := Standard.immediate "lw" 0x23 Standard.rtAddress none "" "" 0#32
  have hshort : (ofList [op]).assemble "lw  $t1 , ".toList =
      .error (.malformed "lw  $t1 , ".toList (.argumentCount 2 1)) :=
    (assemble_singleton (by decide) rfl).trans rfl
  obtain ⟨hnormal, hwords⟩ := (spacing_irrelevant [op] "lw  $t1 , ".toList).1 (by decide)
  rw [hshort] at hnormal hwords
  exact ⟨op, hshort, hnormal, hwords, (spacing_irrelevant [op] "lw\t$t1".toList).2
    ⟨'l', by decide, by decide⟩ ⟨'\t', by decide, by decide⟩⟩

end InstructionSet

end Mips32
