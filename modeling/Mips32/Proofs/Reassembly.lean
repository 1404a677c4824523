import Mathlib.Tactic.MkIffOfInductiveProp
import Mips32.Proofs.Assembly
import Mips32.Proofs.Lookup
import Mips32.Proofs.OperandTexts

namespace Mips32

open Text Mnemonic

namespace Shape

theorem has_of_mapM_readRole {format : Format} {pattern : Text} {words : List Text}
    {roles : List Role} (h : words.mapM (readRole format pattern) = .ok roles) :
    ∀ r ∈ roles, r.fields.all format.has := by
  induction words generalizing roles with
  | nil =>
    obtain rfl : [] = roles := Except.ok.inj h
    simp
  | cons word words ih =>
    rw [List.mapM_cons] at h
    obtain ⟨r, hr, h⟩ := bind_eq_ok_iff.1 h
    obtain ⟨rs, hrs, h⟩ := bind_eq_ok_iff.1 h
    obtain rfl := Except.ok.inj h
    refine List.forall_mem_cons.2 ⟨?_, ih hrs⟩
    unfold readRole at hr
    split at hr
    · contradiction
    · split at hr
      · next hall =>
        obtain rfl := Except.ok.inj hr
        exact hall
      · contradiction

theorem has_of_writes (shape : Shape) {f : Field} (h : shape.writes f) : shape.format.has f := by
  obtain ⟨role, hrole, hf⟩ := List.any_eq_true.1 h
  have hread := shape.roles_read
  unfold readRoles at hread
  split at hread
  · contradiction
  · split at hread
    · exact List.all_eq_true.1 (has_of_mapM_readRole hread role hrole) f (of_decide_eq_true hf)
    · contradiction

theorem writes_eq (shape : Shape) (f : Field) :
    shape.writes f = (Operand.lastWriter? shape.roles f).isSome := by
  rw [Bool.eq_iff_iff, writes, List.any_eq_true, Option.isSome_iff_ne_none, ne_eq,
    Operand.lastWriter?_eq_none_iff]
  simp

end Shape

theorem Hint.ofValue?_eq_none_iff (b : BitVec 5) :
    ofValue? (b.setWidth 32) = none ↔ b.toNat ∉ [0, 1, 3, 5, 6, 7] := by
  revert b
  decide

namespace Operation

/-- The operation's texts have a name of letters and digits, and every address in them is
written with its base. -/
@[mk_iff]
structure Legible (op : Operation) : Prop where
  name_ne_nil : op.name ≠ []
  name_alphanumeric : ∀ c ∈ op.name, c.isAlphanum
  address_based : .address ∈ op.roles → .rs ∉ op.roles ∧ op.name ≠ "lui".toList

instance (op : Operation) : Decidable op.Legible :=
  decidable_of_iff (op.name ≠ [] ∧ op.name.all Char.isAlphanum ∧
      (.address ∈ op.roles → .rs ∉ op.roles ∧ op.name ≠ "lui".toList))
    (by rw [legible_iff, List.all_eq_true])

variable {op : Operation}

theorem Legible.bareAddress (h : op.Legible) (haddress : .address ∈ op.roles) :
    op.bareAddress = false := by
  obtain ⟨hrs, hlui⟩ := h.address_based haddress
  rw [Operation.bareAddress, decide_eq_false hrs, decide_eq_false hlui]
  rfl

theorem written_mnemonicOf (hne : op.name ≠ []) (halnum : ∀ c ∈ op.name, c.isAlphanum) (w : Word) :
    op.Written (op.mnemonicOf w) (op.roles.map (op.operandText w)) := by
  have hargs : ∀ a ∈ op.roles.map (op.operandText w), IsToken a := by
    intro a ha
    obtain ⟨role, -, rfl⟩ := List.mem_map.1 ha
    exact op.isToken_operandText w role
  refine ⟨tokens_join halnum hne hargs, ?_, ?_, ?_, ?_⟩
  · exact hasParenthesis_of_plain fun c hc ↦ isPlain_of_isAlphanum (halnum c hc)
  · rw [Placed, List.forall₂_map_right_iff, List.forall₂_same]
    intro role _ hp
    obtain ⟨c, hc, hc'⟩ := List.any_eq_true.1 hp
    rcases op.mem_operandText w role c hc with hplain | haddress
    · rw [not_isParenthesis_of_isPlain hplain] at hc'
      contradiction
    · exact haddress.2
  · intro c hc
    rcases mem_join hc with hc | rfl | rfl | ⟨a, ha, hc⟩
    · exact isLegal_of_isPlain (isPlain_of_isAlphanum (halnum c hc))
    · decide
    · decide
    · obtain ⟨role, -, rfl⟩ := List.mem_map.1 ha
      rcases op.mem_operandText w role c hc with hplain | hparenthesis
      · exact isLegal_of_isPlain hplain
      · exact (legal_of_isParenthesis hparenthesis.1).1
  · rw [mnemonicOf, countCommas_join halnum hargs, List.length_map]
    rfl

theorem Legible.written_mnemonicOf (h : op.Legible) (w : Word) :
    op.Written (op.mnemonicOf w) (op.roles.map (op.operandText w)) :=
  Operation.written_mnemonicOf h.name_ne_nil h.name_alphanumeric w

theorem apply_ofWord (op : Operation) (bare : Bool) (w : Word) (f : Field) :
    Operand.apply (op.roles.map (Operand.ofWord bare w)) op.fixedFields f =
      ((Operand.lastWriter? op.roles f).map fun role ↦ w.written bare role f).or
        (op.fixedFields f) :=
  Operand.apply_map (fun _ ↦ rfl) op.roles op.fixedFields f

theorem word_ofFields (op : Operation) (w : Word) :
    (op.ofFields (op.format.unpack w)).word = op.format.pack fun f ↦
      if op.shape.writes f then op.format.unpack w f else op.fixedFields f := by
  apply Format.pack_congr
  intro f hf
  simp only [Fields.value, Format.unpack_eq, hf, if_true, Option.some_or]

theorem word_withOperands (op : Operation) (w : Word) (arguments : List Text) :
    (op.withOperands arguments (op.roles.map (Operand.ofWord false w))).word =
      (op.ofFields (op.format.unpack w)).word := by
  rw [word_ofFields]
  apply Format.pack_congr
  intro f hf
  rw [Fields.value, Fields.value, apply_ofWord, op.shape.writes_eq, roles, Format.unpack_eq,
    if_pos hf]
  cases Operand.lastWriter? op.shape.roles f with
  | none => rfl
  | some role => exact (Field.cut_written f w (by simp)).trans (Field.cut_part f w).symm

theorem part_ofFields (op : Operation) (w : Word) {f : Field} (hf : op.shape.writes f) :
    (op.ofFields (op.format.unpack w)).word.part f = w.part f := by
  have hhas : op.format.has f := op.shape.has_of_writes hf
  rw [word_ofFields, Format.part_pack hhas, Fields.value, if_pos hf, Format.unpack_eq,
    if_pos hhas, Option.getD_some, Field.cut_part]

theorem mnemonic_ofFields (op : Operation) (w : Word) :
    (op.ofFields (op.format.unpack w)).mnemonic = op.mnemonicOf w :=
  op.mnemonicOf_congr fun _ hf ↦ op.part_ofFields w hf

theorem hint_ofFields (op : Operation) (w : Word) :
    (op.ofFields (op.format.unpack w)).hint = op.hintOf? w := by
  change op.hintOf? (op.ofFields (op.format.unpack w)).word = _
  rw [hintOf?_eq, hintOf?_eq]
  by_cases hhint : Role.hint ∈ op.roles
  · have hwrites : op.shape.writes .rt :=
      List.any_eq_true.2 ⟨.hint, hhint, by simp [Role.fields]⟩
    rw [op.part_ofFields w hwrites]
  · rw [if_neg hhint, if_neg hhint]

theorem withOperands_ofWord (op : Operation) (w : Word) :
    op.withOperands (op.roles.map (op.operandText w)) (op.roles.map (Operand.ofWord false w)) =
      op.ofFields (op.format.unpack w) := by
  have hword := op.word_withOperands w (op.roles.map (op.operandText w))
  have hmnemonic := op.mnemonic_ofFields w
  have hhint : Operand.lastHint? (op.roles.map (Operand.ofWord false w)) =
      (op.ofFields (op.format.unpack w)).hint := by
    rw [hint_ofFields, hintOf?_eq, lastHint?_ofWord]
  exact Instruction.mk.injEq .. ▸ ⟨rfl, hword, hmnemonic.symm, hhint⟩

theorem assemble_mnemonicOf (hne : op.name ≠ []) (halnum : ∀ c ∈ op.name, c.isAlphanum) {w : Word}
    (hknown : .hint ∈ op.roles → (Hint.ofValue? (w.part .rt)).isSome) :
    op.assemble (op.mnemonicOf w) =
      .ok (op.withOperands (op.roles.map (op.operandText w))
        (op.roles.map (Operand.ofWord op.bareAddress w))) := by
  have hread : Operand.readAll op.targetInBytes op.roles (op.roles.map (op.operandText w)) =
      .ok (op.roles.map (Operand.ofWord op.bareAddress w)) := by
    apply Operand.readAll_map
    intro role hrole
    exact op.read_operandText w fun hh ↦ hknown (hh ▸ hrole)
  rw [(written_mnemonicOf hne halnum w).assemble, assembleTokens_eq, hread]
  rfl

theorem Legible.map_ofWord (h : op.Legible) (w : Word) :
    op.roles.map (Operand.ofWord op.bareAddress w) = op.roles.map (Operand.ofWord false w) := by
  apply List.map_congr_left
  intro role hrole
  by_cases haddress : role = .address
  · rw [h.bareAddress (haddress ▸ hrole)]
  · exact Operand.ofWord_of_ne_address _ w haddress

theorem Legible.assemble_mnemonicOf (h : op.Legible) {w : Word}
    (hknown : .hint ∈ op.roles → (Hint.ofValue? (w.part .rt)).isSome) :
    op.assemble (op.mnemonicOf w) = .ok (op.ofFields (op.format.unpack w)) := by
  rw [Operation.assemble_mnemonicOf h.name_ne_nil h.name_alphanumeric hknown, h.map_ofWord,
    withOperands_ofWord]

theorem Legible.assemble_unknownHint (h : op.Legible) {w : Word} (hhint : .hint ∈ op.roles)
    (hunknown : Hint.ofValue? (w.part .rt) = none) :
    op.assemble (op.mnemonicOf w) =
      .error (.malformed (op.mnemonicOf w) (.unknownHint (w.part .rt))) := by
  have herror : Operand.read op.targetInBytes .hint (op.operandText w .hint) =
      .error (.unknownHint (w.part .rt)) :=
    Operand.read_hint_of_unknown _ (readNumber_hintText op w) hunknown
  have hread : Operand.readAll op.targetInBytes op.roles (op.roles.map (op.operandText w)) =
      .error (.unknownHint (w.part .rt)) := by
    refine Operand.readAll_map_error (Operand.ofWord op.bareAddress w) ?_ ⟨.hint, hhint, herror⟩
    intro role hrole
    by_cases hrole' : role = .hint
    · exact .inr (hrole' ▸ herror)
    · exact .inl (op.read_operandText w (absurd · hrole'))
  rw [(h.written_mnemonicOf w).assemble, assembleTokens_eq, hread]
  rfl

/-- The text of a word assembles to the fields that its operands show, unless it has a hint that
is not known. -/
theorem Legible.assemble_mnemonicOf_eq (h : op.Legible) (w : Word) :
    op.assemble (op.mnemonicOf w) =
      if .hint ∈ op.roles ∧ w.rt.toNat ∉ [0, 1, 3, 5, 6, 7] then
        .error (.malformed (op.mnemonicOf w) (.unknownHint (w.rt.setWidth 32)))
      else .ok (op.ofFields (op.format.unpack w)) := by
  split
  · next hunknown =>
    exact h.assemble_unknownHint hunknown.1 ((Hint.ofValue?_eq_none_iff w.rt).2 hunknown.2)
  · next hknown =>
    refine h.assemble_mnemonicOf fun hrole ↦ Option.isSome_iff_ne_none.2 fun hnone ↦ ?_
    exact hknown ⟨hrole, (Hint.ofValue?_eq_none_iff w.rt).1 hnone⟩

theorem instruction?_disassemble (op : Operation) (w : Word) :
    (op.disassemble w).instruction? = some (op.instructionOf w) := by
  unfold disassemble
  split <;> rfl

end Operation

namespace InstructionSet

variable {set : InstructionSet} {op : Operation} {w : Word}

theorem instruction?_disassemble (h : set.find? w = some op) :
    (set.disassemble w).instruction? = some (op.instructionOf w) := by
  rw [disassemble, h]
  exact op.instruction?_disassemble w

theorem WellFormed.assemble_mnemonicOf (hset : set.WellFormed) (hop : op ∈ set.operations)
    (h : op.Legible) (w : Word) :
    set.assemble (op.mnemonicOf w) = op.assemble (op.mnemonicOf w) := by
  apply assemble_of_named
  rw [Operation.mnemonicOf, name_join h.name_alphanumeric h.name_ne_nil]
  exact hset.named?_eq_some_iff.2 ⟨hop, rfl⟩

theorem WellFormed.exists_written (hset : set.WellFormed) {t : Text} {i : Instruction}
    (h : set.assemble t = .ok i) :
    ∃ op arguments operands, op ∈ set.operations ∧ op.name = name t ∧ op.Written t arguments ∧
      Operand.readAll op.targetInBytes op.roles arguments = .ok operands ∧
      i = op.withOperands arguments operands := by
  obtain ⟨op, hnamed, hop⟩ := exists_named_of_assemble h
  obtain ⟨hmem, hname⟩ := hset.named?_eq_some_iff.1 hnamed
  obtain ⟨arguments, operands, hwritten, hread, hi⟩ := Operation.exists_written_of_assemble hop
  exact ⟨op, arguments, operands, hmem, hname, hwritten, hread, hi⟩

/-- The text that an assembled instruction keeps assembles to it again. -/
theorem WellFormed.assemble_mnemonic (hset : set.WellFormed) {t : Text} {i : Instruction}
    (h : set.assemble t = .ok i) : set.assemble i.mnemonic = .ok i := by
  obtain ⟨op, arguments, operands, hmem, hname, hwritten, hread, rfl⟩ := hset.exists_written h
  have hne := (hwritten.arguments_eq hname).1
  have hjoin : name (join (op.name :: arguments)) = op.name :=
    name_join (fun c hc ↦ isAlphanum_of_mem_name (hname ▸ hc)) hne
  have hnamed : set.named? (name (join (op.name :: arguments))) = some op := by
    rw [hjoin]
    exact hset.named?_eq_some_iff.2 ⟨hmem, rfl⟩
  rw [Operation.mnemonic_withOperands, assemble_of_named hnamed, (hwritten.join hname).assemble,
    Operation.assembleTokens_eq, hread]
  rfl

/-- What becomes of the text that a word disassembles to. A hint that is not known is
reported. Any other text gives back the operation, the text, the hint and each field that an
operand writes. -/
def Reassembles (set : InstructionSet) (op : Operation) (w : Word) : Prop :=
  ∃ d, (set.disassemble w).instruction? = some d ∧
    (.hint ∈ op.roles ∧ w.rt.toNat ∉ [0, 1, 3, 5, 6, 7] →
      set.assemble d.mnemonic =
        .error (.malformed d.mnemonic (.unknownHint (w.rt.setWidth 32)))) ∧
    (¬(.hint ∈ op.roles ∧ w.rt.toNat ∉ [0, 1, 3, 5, 6, 7]) →
      ∃ i, set.assemble d.mnemonic = .ok i ∧ i = op.ofFields (op.format.unpack w) ∧
        i.operation = op ∧ i.mnemonic = d.mnemonic ∧ i.hint = d.hint ∧
        i.word = op.format.pack fun f ↦
          if op.shape.writes f then op.format.unpack w f else op.fixedFields f)

theorem WellFormed.reassembles (hset : set.WellFormed) (hfind : set.find? w = some op)
    (h : op.Legible) : set.Reassembles op w := by
  have hassemble := (hset.assemble_mnemonicOf (hset.mem_of_find? hfind) h w).trans
    (h.assemble_mnemonicOf_eq w)
  refine ⟨op.instructionOf w, instruction?_disassemble hfind, ?_, ?_⟩
  · intro hunknown
    exact hassemble.trans (if_pos hunknown)
  · intro hknown
    exact ⟨_, hassemble.trans (if_neg hknown), rfl, rfl, op.mnemonic_ofFields w,
      op.hint_ofFields w, op.word_ofFields w⟩

end InstructionSet

end Mips32
