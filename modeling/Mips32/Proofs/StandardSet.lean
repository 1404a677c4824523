import Mips32.InstructionSet.Standard
import Mips32.Proofs.Additions
import Mips32.Proofs.Encodings

namespace Mips32

namespace Standard

/-- What sets the operations of the table apart from operations at large. -/
@[mk_iff]
structure Entry (op : Operation) : Prop where
  legible : op.Legible
  fits : op.fits
  keyed : op.name ≠ InstructionSet.nopName → op.key?.isSome
  shared : op.discriminant.isSome → op.opcode ∈ [0x00#8, 0x01#8, 0x1c#8]
  eq_nop : op.name = InstructionSet.nopName → op = nop
  key_zero : op.name ≠ InstructionSet.nopName → op.key? = some (Word.key 0#32) →
    op.name = "sll".toList
  writes_once : (op.roles.flatMap Role.fields).Nodup
  funct_free : .funct ∉ op.roles
  bytes_iff : op.targetInBytes ↔ op.name = "jal".toList
  hint_iff : .hint ∈ op.roles ↔ op.name = "pref".toList
  hint_alone : .hint ∈ op.roles → .rt ∉ op.roles ∧ op.format = .i
  spare_r : op.format = .r → op.fixedFields .rt = none ∧
    (op.name ≠ InstructionSet.nopName → .funct ∉ op.spare)
  spare_i : op.format = .i → op.spare =
    if op.name ∈ ["blez".toList, "bgtz".toList, "blezl".toList, "bgtzl".toList] then [.rt]
    else if op.name = "lui".toList then [.rs] else []
  spare_j : op.format = .j → op.spare = []

set_option synthInstance.maxSize 256 in
instance (op : Operation) : Decidable (Entry op) := decidable_of_iff' _ (entry_iff op)

theorem entry : ∀ op ∈ operations, Entry op := by
  decide +kernel

theorem pairwise_compatible : operations.Pairwise Operation.Compatible := by
  decide +kernel

variable {op : Operation} {w : Word}

/-- Outside the I format an operation reports exactly the bits that its text leaves out. -/
theorem Entry.violations_eq_nil_iff (h : Entry op) (hid : op.Identifies w)
    (hnop : op.name = InstructionSet.nopName → w = 0#32) (hi : op.format ≠ .i) :
    op.violations w = [] ↔ op.Encodes w := by
  rw [Operation.encodes_iff h.fits, and_iff_right hid]
  cases hformat : op.format with
  | i => contradiction
  | exit => exact Operation.violations_eq_nil_iff_of_exit hformat
  | j => simp [Operation.violations, hformat, h.spare_j hformat]
  | r =>
    obtain ⟨hrt, hfunct⟩ := h.spare_r hformat
    rw [Operation.violations_eq_nil_iff_of_r hformat hrt]
    refine ⟨?_, fun hspare f hf _ ↦ hspare f hf⟩
    intro hspare f hf
    by_cases hzero : w = 0#32
    · subst hzero
      cases f <;> rfl
    · refine hspare f hf ?_
      intro hne
      exact hfunct (fun hname ↦ hzero (hnop hname)) (hne ▸ hf)

theorem eq_zero_of_encodes_nop (h : nop.Encodes w) : w = 0#32 := by
  have hparts : ∀ f, nop.format.has f → w.part f = Word.part 0#32 f := by
    intro f hhas
    rw [h f hhas rfl]
    cases f <;> rfl
  exact Format.word_ext hparts

theorem encodes_nop_zero : nop.Encodes 0#32 := by
  intro f _ _
  cases f <;> rfl

theorem Entry.violations_of_encodes (h : Entry op) (hencodes : op.Encodes w) :
    op.violations w = [] := by
  by_cases hi : op.format = .i
  · rw [Operation.violations, hi]
  · have hid := ((Operation.encodes_iff h.fits).1 hencodes).1
    refine (h.violations_eq_nil_iff hid ?_ hi).2 hencodes
    intro hname
    exact eq_zero_of_encodes_nop (h.eq_nop hname ▸ hencodes)

end Standard

namespace InstructionSet

variable {w : Word} {op : Operation}

theorem wellFormed_standard : standard.WellFormed := wellFormed_ofList Standard.operations

theorem operations_standard : standard.operations.toList = Standard.operations := by
  unfold standard
  exact operations_ofList (fun op hop ↦ (Standard.entry op hop).keyed) Standard.pairwise_compatible

theorem mem_standard : op ∈ standard.operations ↔ op ∈ Standard.operations := by
  rw [← Array.mem_toList_iff, operations_standard]

theorem entry_of_find? (h : standard.find? w = some op) : Standard.Entry op :=
  Standard.entry op (mem_standard.1 (wellFormed_standard.mem_of_find? h))

theorem find?_zero_standard : standard.find? 0#32 = some Standard.nop :=
  wellFormed_standard.find?_zero_eq_some_iff.2 ⟨mem_standard.2 List.mem_cons_self, rfl⟩

theorem find?_standard_iff (hzero : w ≠ 0#32) : standard.find? w = some op ↔
    op ∈ Standard.operations ∧ op.name ≠ nopName ∧ op.Identifies w := by
  rw [wellFormed_standard.find?_eq_some_iff hzero, mem_standard]
  refine and_congr_right fun hop ↦ and_congr_right fun hname ↦ ?_
  obtain ⟨key, hkey⟩ := Option.isSome_iff_exists.1 ((Standard.entry op hop).keyed hname)
  rw [← Operation.key_eq_iff_identifies hkey (Standard.entry op hop).shared, hkey,
    Option.some.injEq, eq_comm]

theorem identifies_of_find? (h : standard.find? w = some op) : op.Identifies w := by
  by_cases hzero : w = 0#32
  · subst hzero
    obtain rfl : Standard.nop = op := Option.some.inj (find?_zero_standard.symm.trans h)
    exact ⟨rfl, by simp [Standard.nop, Standard.operation]⟩
  · exact ((find?_standard_iff hzero).1 h).2.2

theorem find?_of_encodes (hop : op ∈ Standard.operations) (h : op.Encodes w) :
    standard.find? w = some op ∨
      op.name = "sll".toList ∧ w = 0#32 ∧ standard.find? w = some Standard.nop := by
  have hid := ((Operation.encodes_iff (Standard.entry op hop).fits).1 h).1
  by_cases hname : op.name = nopName
  · obtain rfl := (Standard.entry op hop).eq_nop hname
    obtain rfl := Standard.eq_zero_of_encodes_nop h
    exact .inl find?_zero_standard
  by_cases hzero : w = 0#32
  · subst hzero
    obtain ⟨key, hkey⟩ := Option.isSome_iff_exists.1 ((Standard.entry op hop).keyed hname)
    have hword : Word.key 0#32 = key :=
      (Operation.key_eq_iff_identifies hkey (Standard.entry op hop).shared).2 hid
    have hsll := (Standard.entry op hop).key_zero hname (hword ▸ hkey)
    exact .inr ⟨hsll, rfl, find?_zero_standard⟩
  · exact .inl ((find?_standard_iff hzero).2 ⟨hop, hname, hid⟩)

theorem encodes_of_assemble {t : Text} {i : Instruction} (h : standard.assemble t = .ok i) :
    i.operation ∈ Standard.operations ∧ i.operation.Encodes i.word ∧
      i.operation.hintOf? i.word = i.hint ∧ (.hint ∈ i.operation.roles → i.hint.isSome) := by
  obtain ⟨op, hnamed, hop⟩ := exists_named_of_assemble h
  have hmem := mem_standard.1 (wellFormed_standard.named?_eq_some_iff.1 hnamed).1
  obtain ⟨arguments, operands, hwritten, hread, rfl⟩ := Operation.exists_written_of_assemble hop
  have hfills := Operand.fills_of_readAll hwritten.placed.length_eq.symm hread
  have halone (hhint : .hint ∈ op.roles) : .rt ∉ op.roles :=
    ((Standard.entry op hmem).hint_alone hhint).1
  exact ⟨hmem, Operation.encodes_withOperands hfills arguments,
    Operation.hint_withOperands hfills halone arguments⟩

theorem exists_assemble {t : Text} {P : Instruction → Prop}
    (h : ∃ op ∈ Standard.operations, op.name = Mnemonic.name t ∧
      ∃ i ∈ (op.assemble t).toOption, P i) : ∃ i, standard.assemble t = .ok i ∧ P i := by
  obtain ⟨op, hop, hname, i, hi, hP⟩ := h
  rw [assemble_of_named (wellFormed_standard.named?_eq_some_iff.2 ⟨mem_standard.2 hop, hname⟩)]
  cases hresult : op.assemble t with
  | error e => simp [hresult, Except.toOption] at hi
  | ok k =>
    obtain rfl : k = i := by simpa [hresult, Except.toOption] using hi
    exact ⟨k, rfl, hP⟩

theorem exists_find? {P : Operation → Prop} (hzero : w ≠ 0#32)
    (h : ∃ op ∈ Standard.operations, op.name ≠ nopName ∧ op.key? = some w.key ∧ P op) :
    ∃ op, standard.find? w = some op ∧ P op := by
  obtain ⟨op, hop, hname, hkey, hP⟩ := h
  exact ⟨op, (wellFormed_standard.find?_eq_some_iff hzero).2 ⟨mem_standard.2 hop, hname, hkey⟩, hP⟩

end InstructionSet

end Mips32
