import Mips32.InstructionSet.Standard
import Mips32.Proofs.Additions
import Mips32.Proofs.Encodings

namespace Mips32

namespace Operation

variable {op : Operation} {w : Word}

/-- Where an operand writes the field of the discriminant, the value given for it is the
discriminant. -/
def KeepsDiscriminant (op : Operation) (fields : Fields) : Prop :=
  ∀ d ∈ op.discriminant, op.shape.writes d.field → ∀ v ∈ fields d.field,
    d.field.cut v = d.value.setWidth 32

/-- The discriminant stands in a field that the operation expects to be zero. -/
def BlamesDiscriminant (op : Operation) : Prop :=
  op.format = .r ∧ op.shape.writes .rt = false ∧ ∃ v ≠ 0#8, op.discriminant = some (.rt v)

theorem part_discriminant_ofFields (hbounded : op.Bounded) {d : Discriminant}
    (hd : op.discriminant = some d) (fields : Fields) :
    (op.ofFields fields).word.part d.field =
      if op.shape.writes d.field then d.field.cut ((fields d.field).getD (d.value.setWidth 32))
      else d.value.setWidth 32 := by
  have hpart := Format.part_pack (hbounded.discriminant d hd).2 fun f ↦
    if op.shape.writes f then (fields f).or (op.fixedFields f) else op.fixedFields f
  refine hpart.trans ?_
  rw [Fields.value, fixedFields_discriminant hd]
  split
  · cases fields d.field <;> rfl
  · exact hbounded.cut_discriminant hd

theorem keepsDiscriminant_iff (hbounded : op.Bounded) (fields : Fields) :
    (∀ d ∈ op.discriminant, (op.ofFields fields).word.part d.field = d.value.setWidth 32) ↔
      op.KeepsDiscriminant fields := by
  refine forall₂_congr fun d hd ↦ ?_
  rw [part_discriminant_ofFields hbounded hd]
  split
  · next hwrites =>
    cases hv : fields d.field with
    | none => simpa [hwrites] using hbounded.cut_discriminant hd
    | some v => simp [hwrites]
  · next hwrites => simp [hwrites]

theorem key?_eq_key_iff_of_opcode (hkeyed : op.key?.isSome)
    (hopcode : w.part .opcode = op.opcode.setWidth 32) :
    op.key? = some w.key ↔ (op.opcode ∈ [0x00#8, 0x01#8, 0x1c#8] →
      ∀ d ∈ op.discriminant, w.part d.field = d.value.setWidth 32) := by
  obtain ⟨key, hkey⟩ := Option.isSome_iff_exists.1 hkeyed
  by_cases hshared : op.opcode ∈ [0x00#8, 0x01#8, 0x1c#8]
  · have hidentifies := key_eq_iff_identifies (w := w) hkey fun _ ↦ hshared
    rw [hkey, Option.some.injEq, eq_comm, hidentifies, Identifies]
    simp [hopcode, hshared]
  · obtain ⟨hzero, hone, htwo⟩ := setWidth_eq_shared_iff w.opcode
    have hw := Word.part_opcode_eq_iff.1 hopcode
    have hplain : w.key = .plain op.opcode := by
      rw [← hw] at hshared ⊢
      simp only [List.mem_cons, List.not_mem_nil, or_false, hzero, hone, htwo] at hshared
      exact Word.key_eq_plain_iff.2 ⟨by simpa using hshared, rfl⟩
    simp only [hplain, key?_eq_plain_iff, hshared]
    simp

theorem part_eq_zero_of_encodes (hencodes : op.Encodes w) {f : Field} (hhas : op.format.has f)
    (hwrites : op.shape.writes f = false) (hnone : op.fixedFields f = none) : w.part f = 0#32 := by
  rw [hencodes f hhas hwrites, Fields.value, hnone, Option.getD_none, Field.cut_zero]

theorem blamesDiscriminant_iff (hbounded : op.Bounded) (hencodes : op.Encodes w)
    (hr : op.format = .r) :
    (op.shape.writes .rt = false → w.part .rt = 0#32) ↔ ¬op.BlamesDiscriminant := by
  have hhas : op.format.has .rt := by rw [hr]; rfl
  by_cases hrt : ∃ v, op.discriminant = some (.rt v)
  · obtain ⟨v, hv⟩ := hrt
    have hpart (hwrites : op.shape.writes .rt = false) : w.part .rt = v.setWidth 32 := by
      have hcut := hbounded.cut_discriminant hv
      rw [hencodes .rt hhas hwrites, Fields.value]
      rw [show op.fixedFields .rt = some (v.setWidth 32) from fixedFields_discriminant hv]
      exact hcut
    simp only [BlamesDiscriminant, hr, hv, true_and, not_and, not_exists]
    refine forall_congr' fun hwrites ↦ ?_
    rw [hpart hwrites, setWidth_eq_zero_iff (by decide)]
    constructor
    · intro hzero u hu heq
      rw [Option.some.injEq, Discriminant.rt.injEq] at heq
      exact hu (heq ▸ hzero)
    · intro h
      exact Classical.not_not.1 fun hv ↦ h v hv rfl
  · have hnone : op.fixedFields .rt = none := by
      refine fixedFields_eq_none (by decide) (by decide) fun d hd hfield ↦ ?_
      cases d with
      | funct v => contradiction
      | rt v => exact hrt ⟨v, hd⟩
    refine iff_of_true (fun hwrites ↦ part_eq_zero_of_encodes hencodes hhas hwrites hnone) ?_
    intro h
    obtain ⟨-, -, v, -, hv⟩ := h
    exact hrt ⟨v, hv⟩

theorem violations_eq_nil_iff_of_encodes (hbounded : op.Bounded) (hencodes : op.Encodes w) :
    op.violations w = [] ↔ ¬op.BlamesDiscriminant := by
  cases hformat : op.format with
  | i | j => simp [violations, BlamesDiscriminant, hformat]
  | exit =>
    have hspare : ∀ f ∈ op.spare, w.part f = 0#32 := by
      rw [spare, if_pos hformat, List.forall_mem_singleton,
        (encodes_iff_of_exit hformat).1 hencodes, Word.part_target_shiftLeft]
    simp [(violations_eq_nil_iff_of_exit hformat).2 hspare, BlamesDiscriminant, hformat]
  | r =>
    have hothers {f : Field} (hf : f ∈ [Field.shamt, .rd, .rs])
        (hwrites : op.shape.writes f = false) : w.part f = 0#32 := by
      have hhas : ∀ f ∈ [Field.shamt, .rd, .rs], Format.r.has f := by decide
      exact part_eq_zero_of_encodes hencodes (hformat ▸ hhas f hf) hwrites
        (fixedFields_eq_none_of_mem hf)
    rw [violations_eq_nil_iff_unwritten hformat, ← blamesDiscriminant_iff hbounded hencodes hformat]
    simp only [implicitZeroes, List.forall_mem_cons]
    constructor
    · intro h
      exact h.2.2.1
    · intro h
      exact ⟨hothers (by decide), hothers (by decide), h, hothers (by decide), by simp⟩

end Operation

namespace InstructionSet

theorem exists_valid_iff {set : InstructionSet} {w : Word} {op : Operation} :
    (∃ i, set.disassemble w = .valid i ∧ i.operation = op) ↔
      set.find? w = some op ∧ op.violations w = [] := by
  constructor
  · intro h
    obtain ⟨i, hi, rfl⟩ := h
    cases hfind : set.find? w with
    | none => simp [disassemble, hfind] at hi
    | some o =>
      simp only [disassemble, hfind, Operation.disassemble] at hi
      split at hi
      · next hnil =>
        obtain rfl := Disassembly.valid.inj hi
        exact ⟨rfl, hnil⟩
      · contradiction
  · intro h
    refine ⟨op.instructionOf w, ?_, rfl⟩
    rw [disassemble, h.1]
    exact Operation.disassemble_eq_valid_iff.2 h.2

variable {ops : List Operation} {op : Operation}

/-- An instruction made from field values has the opcode of its operation. It has the
discriminant too, and is read as a valid instruction of the operation, unless an operand
overwrites the discriminant or the operation expects zero in its place. -/
theorem disassemble_ofFields_iff (hop : op ∈ (ofList ops).operations) (hname : op.name ≠ nopName)
    (hbounded : op.Bounded) (fields : Fields) :
    (op.ofFields fields).word.opcode.setWidth 8 = op.opcode ∧
    ((∀ d ∈ op.discriminant, (op.ofFields fields).word.part d.field = d.value.setWidth 32) ↔
      op.KeepsDiscriminant fields) ∧
    ((op.ofFields fields).word ≠ 0#32 →
      ((∃ i, (ofList ops).disassemble (op.ofFields fields).word = .valid i ∧ i.operation = op) ↔
        (op.opcode ∈ [0x00#8, 0x01#8, 0x1c#8] → op.KeepsDiscriminant fields) ∧
          ¬op.BlamesDiscriminant)) := by
  have hset := wellFormed_ofList ops
  have hencodes := op.encodes_ofFields fields
  have hopcode := hbounded.part_opcode hencodes
  have hkeeps := Operation.keepsDiscriminant_iff hbounded fields
  refine ⟨Word.part_opcode_eq_iff.1 hopcode, hkeeps, fun hzero ↦ ?_⟩
  have hkey := Operation.key?_eq_key_iff_of_opcode (hset.keyed op hop hname) hopcode
  rw [hkeeps] at hkey
  rw [exists_valid_iff, hset.find?_eq_some_iff hzero, ← hkey,
    ← Operation.violations_eq_nil_iff_of_encodes hbounded hencodes]
  simp only [hop, hname, ne_eq, not_false_eq_true, true_and]

def codedMove : Operation :=
  Standard.special "move" 0x20 ⟨.r, "iname rd, funct".toList, [.rd, .funct], rfl⟩ none "" "" 0#32

def taggedJump : Operation :=
  Standard.operation "jump" 0x01 (some (.rt 0x05)) Standard.rsOnly none "" "" 0#32

theorem ofFields_not_valid :
    (codedMove.Bounded ∧ codedMove ∈ (ofList [codedMove]).operations ∧
      (codedMove.ofFields (.ofEntries [(.rd, 9#32), (.funct, 0x21#32)])).word = 0x00004821#32 ∧
      codedMove.discriminant = some (.funct 0x20#8) ∧ Word.funct 0x00004821#32 = 0x21#6 ∧
      ¬∃ i, (ofList [codedMove]).disassemble 0x00004821#32 = .valid i ∧ i.operation = codedMove) ∧
    taggedJump.Bounded ∧ taggedJump ∈ (ofList [taggedJump]).operations ∧
      (taggedJump.ofFields (.ofEntries [(.rs, 9#32)])).word = 0x05250000#32 ∧
      ¬∃ i, (ofList [taggedJump]).disassemble 0x05250000#32 = .valid i ∧
        i.operation = taggedJump := by
  refine ⟨⟨⟨by decide, by decide⟩, mem_ofList_singleton (by decide), by decide, rfl, by decide, ?_⟩,
    ⟨by decide, by decide⟩, mem_ofList_singleton (by decide), by decide, ?_⟩
  · rw [exists_valid_iff, (wellFormed_ofList _).find?_eq_some_iff (by decide)]
    intro h
    exact absurd h.1.2.2 (by decide)
  · rw [exists_valid_iff]
    intro h
    exact absurd h.2 (by decide)

theorem ofFields_valid_codedMove :
    ∃ i, (ofList [codedMove]).disassemble 0x00004820#32 = .valid i ∧ i.operation = codedMove := by
  have hkeeps : codedMove.KeepsDiscriminant (.ofEntries [(.rd, 9#32), (.funct, 0x60#32)]) := by
    intro d hd _ v hv
    obtain rfl : .funct 0x20#8 = d := Option.some.inj hd
    obtain rfl : 0x60#32 = v := Option.some.inj hv
    decide
  have hblames : ¬codedMove.BlamesDiscriminant := by
    intro h
    obtain ⟨-, -, v, -, hv⟩ := h
    exact absurd (Option.some.inj hv) (by simp)
  have hmem : codedMove ∈ (ofList [codedMove]).operations := mem_ofList_singleton (by decide)
  obtain ⟨-, -, hvalid⟩ := disassemble_ofFields_iff hmem (by decide) ⟨by decide, by decide⟩
    (.ofEntries [(.rd, 9#32), (.funct, 0x60#32)])
  exact (hvalid (by decide)).2 ⟨fun _ ↦ hkeeps, hblames⟩

end InstructionSet

end Mips32
