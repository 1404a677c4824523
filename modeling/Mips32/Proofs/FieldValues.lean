import Mips32.Proofs.RoundTrip

namespace Mips32

namespace Operation

variable {op : Operation} {fields : Fields}

theorem ofFields_unpack_word (op : Operation) (fields : Fields) :
    op.ofFields (op.format.unpack (op.ofFields fields).word) = op.ofFields fields :=
  congrArg op.instructionOf ((op.word_ofFields_eq_iff _).2 (op.encodes_ofFields fields))

theorem fields_ofFields {f : Field} {v : Word} (hwrites : op.shape.writes f)
    (hv : fields f = some v) : (op.ofFields fields).fields f = some (f.cut v) := by
  have hhas : op.format.has f := op.shape.has_of_writes hwrites
  have hpart := Format.part_pack hhas fun g ↦
    if op.shape.writes g then (fields g).or (op.fixedFields g) else op.fixedFields g
  rw [Fields.value, if_pos hwrites, hv, Option.some_or, Option.getD_some] at hpart
  exact (op.format.unpack_eq _ f).trans ((if_pos hhas).trans (congrArg some hpart))

end Operation

namespace InstructionSet

variable {op : Operation}

theorem disassemble_ofFields (hop : op ∈ Standard.operations) (fields : Fields) :
    standard.disassemble (op.ofFields fields).word =
      .valid (if op.name = "sll".toList ∧ (op.ofFields fields).word = 0#32 then
        ⟨Standard.nop, 0#32, "nop".toList, none⟩ else op.ofFields fields) := by
  have hencodes := op.encodes_ofFields fields
  rcases find?_of_encodes hop hencodes with hfind | ⟨hsll, hzero, hfind⟩
  · rw [if_neg (not_sll_of_find? hfind)]
    exact valid_of_encodes hfind hencodes
  · rw [if_pos ⟨hsll, hzero⟩, hzero]
    exact valid_of_encodes find?_zero_standard Standard.encodes_nop_zero

theorem assemble_ofFields (hop : op ∈ Standard.operations) (fields : Fields) :
    standard.assemble (op.ofFields fields).mnemonic =
      if op.name = "pref".toList ∧ (op.ofFields fields).word.rt.toNat ∉ [0, 1, 3, 5, 6, 7] then
        .error (.malformed (op.ofFields fields).mnemonic
          (.unknownHint ((op.ofFields fields).word.rt.setWidth 32)))
      else .ok (op.ofFields fields) := by
  have hentry := Standard.entry op hop
  have hassemble := (wellFormed_standard.assemble_mnemonicOf (mem_standard.2 hop) hentry.legible
    (op.ofFields fields).word).trans (hentry.legible.assemble_mnemonicOf_eq _)
  rw [op.ofFields_unpack_word fields] at hassemble
  simp only [hentry.hint_iff] at hassemble
  exact hassemble

/-- An instruction of the standard set that is made from field values holds them. Its word is read
as the instruction and its text assembles to it. The exceptions are the zero word, which is `nop`
also when `sll` makes it, and a prefetch with a hint that is not known. -/
theorem ofFields_agrees (hop : op ∈ standard.operations) (fields : Fields) {i : Instruction}
    (hi : i = op.ofFields fields) :
    standard.disassemble i.word = .valid (if op.name = "sll".toList ∧ i.word = 0#32 then
      ⟨Standard.nop, 0#32, "nop".toList, none⟩ else i) ∧
    (standard.assemble i.mnemonic =
      if op.name = "pref".toList ∧ i.word.rt.toNat ∉ [0, 1, 3, 5, 6, 7] then
        .error (.malformed i.mnemonic (.unknownHint (i.word.rt.setWidth 32)))
      else .ok i) ∧
    ∀ f v, op.shape.writes f → fields f = some v → i.fields f = some (f.cut v) := by
  subst hi
  have hmem := mem_standard.1 hop
  exact ⟨disassemble_ofFields hmem fields, assemble_ofFields hmem fields,
    fun f v hwrites hv ↦ Operation.fields_ofFields hwrites hv⟩

def strayPrefetch : Fields :=
  .ofEntries
    [(.opcode, 7#32), (.rt, 0x22#32), (.rs, 29#32), (.immediate, 0x1fffc#32), (.target, 9#32)]

theorem ofFields_prefetch_and_shift :
    (∃ op ∈ standard.operations, ∃ i, i = op.ofFields strayPrefetch ∧
      i.mnemonic = "pref 2, -4($sp)".toList ∧ standard.disassemble i.word = .valid i ∧
      standard.assemble i.mnemonic = .error (.malformed i.mnemonic (.unknownHint 2#32))) ∧
    ∃ op ∈ standard.operations, ∃ i, i = op.ofFields .empty ∧
      i.mnemonic = "sll $zero, $zero, 0".toList ∧
      standard.disassemble i.word = .valid ⟨Standard.nop, 0#32, "nop".toList, none⟩ ∧
      standard.assemble i.mnemonic = .ok i := by
  constructor
  · obtain ⟨op, hop, hname, htext, hhint⟩ : ∃ op ∈ Standard.operations,
        op.name = "pref".toList ∧ (op.ofFields strayPrefetch).mnemonic = "pref 2, -4($sp)".toList ∧
        (op.ofFields strayPrefetch).word.rt = 2#5 := by decide +kernel
    have hmem : op ∈ standard.operations := mem_standard.2 hop
    obtain ⟨hvalid, hunknown, -⟩ := ofFields_agrees hmem strayPrefetch rfl
    rw [if_neg (by simp [hname])] at hvalid
    rw [if_pos (by simp [hname, hhint]), hhint] at hunknown
    exact ⟨op, hmem, _, rfl, htext, hvalid, hunknown⟩
  · obtain ⟨op, hop, hname, htext, hzero⟩ : ∃ op ∈ Standard.operations,
        op.name = "sll".toList ∧ (op.ofFields .empty).mnemonic = "sll $zero, $zero, 0".toList ∧
        (op.ofFields .empty).word = 0#32 := by decide +kernel
    have hmem : op ∈ standard.operations := mem_standard.2 hop
    obtain ⟨hnop, hok, -⟩ := ofFields_agrees hmem .empty rfl
    rw [if_pos ⟨hname, hzero⟩] at hnop
    rw [if_neg (by simp [hname])] at hok
    exact ⟨op, hmem, _, rfl, htext, hnop, hok⟩

end InstructionSet

end Mips32
