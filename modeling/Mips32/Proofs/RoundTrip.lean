import Mips32.Proofs.StandardSet

namespace Mips32

namespace InstructionSet

variable {w : Word} {op : Operation}

/-- Disassembling and assembling again, in any set that additions lead to and in particular in
the standard one. -/
theorem reassembles_of_find? :
    (∀ (ops : List Operation) (w : Word) (op : Operation),
      (ofList ops).find? w = some op → op.Legible → (ofList ops).Reassembles op w) ∧
    ∀ (w : Word) (op : Operation), standard.find? w = some op → standard.Reassembles op w := by
  constructor
  · intro ops w op hfind h
    exact (wellFormed_ofList ops).reassembles hfind h
  · intro w op hfind
    exact wellFormed_standard.reassembles hfind (entry_of_find? hfind).legible

theorem reassembles_hinted :
    ∃ op, op.Legible ∧ .hint ∈ op.roles ∧
      (∀ w ∈ ([0xcfa10002#32, 0xcfa20002#32] : List Word), (ofList [op]).find? w = some op ∧
        (ofList [op]).Reassembles op w) ∧
      standard.find? 0#32 = some Standard.nop ∧ standard.Reassembles Standard.nop 0#32 := by
  let op := Standard.immediate "touch" 0x33 Standard.hintAddress none "" "" 0#32
  have hlegible : op.Legible := by decide
  have hops : (ofList [op]).operations.toList = [op] := operations_ofList (by decide) (by decide)
  have hmem : op ∈ (ofList [op]).operations := by
    rw [← Array.mem_toList_iff, hops]
    exact List.mem_singleton_self op
  have hfind (w : Word) (hzero : w ≠ 0#32) (hkey : op.key? = some w.key) :
      (ofList [op]).find? w = some op :=
    ((wellFormed_ofList [op]).find?_eq_some_iff hzero).2 ⟨hmem, by decide, hkey⟩
  refine ⟨op, hlegible, by decide, ?_, find?_zero_standard,
    reassembles_of_find?.2 _ _ find?_zero_standard⟩
  intro w hw
  have hw : (ofList [op]).find? w = some op := by
    rcases List.mem_pair.1 hw with rfl | rfl
    · exact hfind _ (by decide) (by decide)
    · exact hfind _ (by decide) (by decide)
  exact ⟨hw, reassembles_of_find?.1 _ _ _ hw hlegible⟩

theorem assemble_mnemonicOf (hfind : standard.find? w = some op)
    (hknown : .hint ∈ op.roles → (Hint.ofValue? (w.part .rt)).isSome) :
    standard.assemble (op.mnemonicOf w) = .ok (op.ofFields (op.format.unpack w)) := by
  have hlegible := (entry_of_find? hfind).legible
  rw [wellFormed_standard.assemble_mnemonicOf (wellFormed_standard.mem_of_find? hfind) hlegible,
    hlegible.assemble_mnemonicOf hknown]

theorem disassemble_of_find? (hfind : standard.find? w = some op) :
    standard.disassemble w = op.disassemble w := by
  rw [disassemble, hfind]

theorem valid_of_encodes (hfind : standard.find? w = some op) (h : op.Encodes w) :
    standard.disassemble w = .valid (op.instructionOf w) := by
  rw [disassemble_of_find? hfind]
  exact Operation.disassemble_eq_valid_iff.2 ((entry_of_find? hfind).violations_of_encodes h)

theorem not_sll_of_find? (hfind : standard.find? w = some op) :
    ¬(op.name = "sll".toList ∧ w = 0#32) := by
  intro h
  obtain ⟨hname, rfl⟩ := h
  rw [← Option.some.inj (find?_zero_standard.symm.trans hfind)] at hname
  exact absurd hname (by decide)

theorem disassemble_of_encodes (hfind : standard.find? w = some op) (h : op.Encodes w)
    (hknown : .hint ∈ op.roles → (op.hintOf? w).isSome) :
    standard.disassemble w = .valid (op.instructionOf w) ∧
      ∃ k, standard.assemble (op.mnemonicOf w) = .ok k ∧ k.word = w := by
  constructor
  · exact valid_of_encodes hfind h
  · refine ⟨_, assemble_mnemonicOf hfind ?_, (op.word_ofFields_eq_iff w).2 h⟩
    intro hrole
    rw [← hknown hrole, Operation.hintOf?_eq, if_pos hrole]

/-- Assembling and disassembling gives back the word and the hint, and the text of the word
assembles to it again. Only `sll` can lose its name, to the `nop` that owns the zero word. -/
theorem disassemble_of_assemble {t : Text} {i : Instruction} (h : standard.assemble t = .ok i) :
    ∃ j, standard.disassemble i.word = .valid j ∧ j.word = i.word ∧ j.hint = i.hint ∧
      (j.operation = if i.operation.name = "sll".toList ∧ i.word = 0#32 then Standard.nop
        else i.operation) ∧
      ∃ k, standard.assemble j.mnemonic = .ok k ∧ k.word = i.word := by
  obtain ⟨hop, hencodes, hhint, hknown⟩ := encodes_of_assemble h
  rcases find?_of_encodes hop hencodes with hfind | ⟨hsll, hzero, hfind⟩
  · obtain ⟨hvalid, hagain⟩ := disassemble_of_encodes hfind hencodes (hhint ▸ hknown)
    refine ⟨_, hvalid, rfl, hhint, ?_, hagain⟩
    rw [if_neg]
    · rfl
    · intro hsll
      rw [hsll.2, find?_zero_standard] at hfind
      rw [← Option.some.inj hfind] at hsll
      exact absurd hsll.1 (by decide)
  · have hnone : .hint ∉ i.operation.roles := by
      rw [(Standard.entry _ hop).hint_iff, hsll]
      decide
    rw [Operation.hintOf?_eq, if_neg hnone] at hhint
    have hnop : Standard.nop.Encodes i.word := hzero ▸ Standard.encodes_nop_zero
    obtain ⟨hvalid, hagain⟩ := disassemble_of_encodes hfind hnop (fun hrole ↦ by contradiction)
    exact ⟨_, hvalid, rfl, hhint, (if_pos ⟨hsll, hzero⟩).symm, hagain⟩

theorem disassemble_cut_operands :
    (∃ i j, standard.assemble "pref 0x1, 0x10002($sp)".toList = .ok i ∧ i.word = 0xcfa10002#32 ∧
      standard.disassemble i.word = .valid j ∧ j.hint = some .store) ∧
    ∃ i j, standard.assemble "sll $zero, $0, 32".toList = .ok i ∧ i.word = 0#32 ∧
      standard.disassemble i.word = .valid j ∧ j.operation = Standard.nop := by
  constructor
  · obtain ⟨i, hi, hword, hhint⟩ : ∃ i, standard.assemble "pref 0x1, 0x10002($sp)".toList = .ok i ∧
        i.word = 0xcfa10002#32 ∧ i.hint = some .store := exists_assemble (by decide +kernel)
    obtain ⟨j, hj, -, hhint', -⟩ := disassemble_of_assemble hi
    exact ⟨i, j, hi, hword, hj, hhint'.trans hhint⟩
  · obtain ⟨i, hi, hword, hname⟩ : ∃ i, standard.assemble "sll $zero, $0, 32".toList = .ok i ∧
        i.word = 0#32 ∧ i.operation.name = "sll".toList := exists_assemble (by decide +kernel)
    obtain ⟨j, hj, -, -, hop, -⟩ := disassemble_of_assemble hi
    exact ⟨i, j, hi, hword, hj, hop.trans (if_pos ⟨hname, hword⟩)⟩

theorem exists_find?_of_instruction? {d : Instruction}
    (h : (standard.disassemble w).instruction? = some d) :
    ∃ op, standard.find? w = some op ∧ d = op.instructionOf w := by
  cases hfind : standard.find? w with
  | none => simp [disassemble, hfind, Disassembly.instruction?] at h
  | some op =>
    rw [instruction?_disassemble hfind] at h
    exact ⟨op, rfl, (Option.some.inj h).symm⟩

theorem eq_zero_of_find?_nop (hfind : standard.find? w = some op) (hname : op.name = nopName) :
    w = 0#32 := by
  by_cases hzero : w = 0#32
  · exact hzero
  · exact absurd hname ((find?_standard_iff hzero).1 hfind).2.1

theorem violations_eq_nil_iff_of_find? (hfind : standard.find? w = some op) (hi : op.format ≠ .i) :
    op.violations w = [] ↔ op.Encodes w :=
  (entry_of_find? hfind).violations_eq_nil_iff (identifies_of_find? hfind)
    (eq_zero_of_find?_nop hfind) hi

/-- The text of a word assembles to it exactly when the operation leaves no bit of it out. -/
theorem lossless_iff_encodes (hfind : standard.find? w = some op)
    (hknown : .hint ∈ op.roles → (Hint.ofValue? (w.part .rt)).isSome) :
    (∃ i, standard.assemble (op.mnemonicOf w) = .ok i ∧ i.word = w) ↔ op.Encodes w := by
  rw [assemble_mnemonicOf hfind hknown, ← op.word_ofFields_eq_iff]
  constructor
  · intro h
    obtain ⟨i, hi, hword⟩ := h
    rw [Except.ok.inj hi]
    exact hword
  · intro h
    exact ⟨_, rfl, h⟩

theorem valid_iff_of_find? (hfind : standard.find? w = some op) (hi : op.format ≠ .i) :
    (standard.disassemble w = .valid (op.instructionOf w) ↔
      ∃ i, standard.assemble (op.mnemonicOf w) = .ok i ∧ i.word = w) ∧
    ((∃ vs, standard.disassemble w = .suspect (op.instructionOf w) vs) ↔
      ∃ i, standard.assemble (op.mnemonicOf w) = .ok i ∧ i.word ≠ w) := by
  have hknown : .hint ∈ op.roles → (Hint.ofValue? (w.part .rt)).isSome :=
    fun hhint ↦ absurd ((entry_of_find? hfind).hint_alone hhint).2 hi
  rw [disassemble_of_find? hfind, Operation.disassemble_eq_valid_iff,
    Operation.exists_disassemble_eq_suspect_iff, Ne, violations_eq_nil_iff_of_find? hfind hi,
    lossless_iff_encodes hfind hknown, assemble_mnemonicOf hfind hknown, ← op.word_ofFields_eq_iff]
  refine ⟨Iff.rfl, fun hne ↦ ⟨_, rfl, hne⟩, ?_⟩
  intro h
  obtain ⟨i, hi, hne⟩ := h
  rw [Except.ok.inj hi]
  exact hne

theorem masked_of_spare (hfind : standard.find? w = some op) (hi : op.format = .i)
    (hhint : .hint ∉ op.roles) {f : Field} (hspare : op.spare = [f]) {mask : Word}
    (hmask : ∀ g, Format.i.has g → mask.part g = if g = f then 0#32 else Word.ones g.range.width)
    (hne : w.part f ≠ 0#32) :
    ∃ i, standard.assemble (op.mnemonicOf w) = .ok i ∧ i.word = w &&& mask ∧ i.word ≠ w := by
  have hfits := (entry_of_find? hfind).fits
  refine ⟨_, assemble_mnemonicOf hfind (absurd · hhint),
    Operation.word_ofFields_of_spare hfits hi (identifies_of_find? hfind) hspare hmask, ?_⟩
  intro hword
  have hencodes := (op.word_ofFields_eq_iff w).1 hword
  exact hne (((Operation.encodes_iff hfits).1 hencodes).2 f (by simp [hspare]))

theorem assemble_of_find?_immediate (hfind : standard.find? w = some op) (hi : op.format = .i) :
    if op.name ∈ ["blez".toList, "bgtz".toList, "blezl".toList, "bgtzl".toList] ∧ w.rt ≠ 0#5 then
      ∃ i, standard.assemble (op.mnemonicOf w) = .ok i ∧ i.word = w &&& 0xffe0ffff#32 ∧ i.word ≠ w
    else if op.name = "lui".toList ∧ w.rs ≠ 0#5 then
      ∃ i, standard.assemble (op.mnemonicOf w) = .ok i ∧ i.word = w &&& 0xfc1fffff#32 ∧ i.word ≠ w
    else if op.name = "pref".toList ∧ w.rt.toNat ∉ [0, 1, 3, 5, 6, 7] then
      ∃ e, standard.assemble (op.mnemonicOf w) = .error e
    else ∃ i, standard.assemble (op.mnemonicOf w) = .ok i ∧ i.word = w := by
  have hentry := entry_of_find? hfind
  have hspare := hentry.spare_i hi
  have hhint := hentry.hint_iff
  split
  · next hbranch =>
    obtain ⟨hname, hrt⟩ := hbranch
    rw [if_pos hname] at hspare
    refine masked_of_spare hfind hi ?_ hspare (fun g ↦ Word.part_mask_rt) ?_
    · rw [hhint]
      intro hpref
      rw [hpref] at hname
      exact absurd hname (by decide)
    · rwa [Ne, Word.part, setWidth_eq_zero_iff (by decide)]
  next hbranch =>
  split
  · next hlui =>
    obtain ⟨hname, hrs⟩ := hlui
    rw [hname, if_neg (by decide), if_pos rfl] at hspare
    refine masked_of_spare hfind hi ?_ hspare (fun g ↦ Word.part_mask_rs) ?_
    · rw [hhint, hname]
      decide
    · rwa [Ne, Word.part, setWidth_eq_zero_iff (by decide)]
  next hlui =>
  split
  · next hpref =>
    have hunknown := (Hint.ofValue?_eq_none_iff w.rt).2 hpref.2
    have hop := wellFormed_standard.mem_of_find? hfind
    exact ⟨_, (wellFormed_standard.assemble_mnemonicOf hop hentry.legible w).trans
      (hentry.legible.assemble_unknownHint (hhint.2 hpref.1) hunknown)⟩
  · next hpref =>
    refine (lossless_iff_encodes hfind ?_).2 ((Operation.encodes_iff hentry.fits).2 ?_)
    · intro hrole
      apply Option.isSome_iff_ne_none.2
      intro hnone
      exact hpref ⟨hhint.1 hrole, (Hint.ofValue?_eq_none_iff w.rt).1 hnone⟩
    · refine ⟨identifies_of_find? hfind, ?_⟩
      rw [hspare]
      intro f hf
      split at hf
      · next hname =>
        obtain rfl := List.mem_singleton.1 hf
        rw [Word.part, setWidth_eq_zero_iff (by decide)]
        exact Classical.not_not.1 fun hrt ↦ hbranch ⟨hname, hrt⟩
      · split at hf
        · next hname =>
          obtain rfl := List.mem_singleton.1 hf
          rw [Word.part, setWidth_eq_zero_iff (by decide)]
          exact Classical.not_not.1 fun hrs ↦ hlui ⟨hname, hrs⟩
        · contradiction

/-- Outside the I format a word is valid when its text assembles to it, and suspect when its
text assembles to another word. In the I format every word is valid. The branches that compare
with zero lose what stands in `rt` and `lui` what stands in `rs`, and an unknown hint does not
assemble. -/
theorem valid_iff_lossless {d : Instruction} (h : (standard.disassemble w).instruction? = some d) :
    (d.format ≠ .i →
      (standard.disassemble w = .valid d ↔
        ∃ i, standard.assemble d.mnemonic = .ok i ∧ i.word = w) ∧
      ((∃ vs, standard.disassemble w = .suspect d vs) ↔
        ∃ i, standard.assemble d.mnemonic = .ok i ∧ i.word ≠ w)) ∧
    (d.format = .i →
      standard.disassemble w = .valid d ∧
      if d.operation.name ∈ ["blez".toList, "bgtz".toList, "blezl".toList, "bgtzl".toList] ∧
          w.rt ≠ 0#5 then
        ∃ i, standard.assemble d.mnemonic = .ok i ∧ i.word = w &&& 0xffe0ffff#32 ∧ i.word ≠ w
      else if d.operation.name = "lui".toList ∧ w.rs ≠ 0#5 then
        ∃ i, standard.assemble d.mnemonic = .ok i ∧ i.word = w &&& 0xfc1fffff#32 ∧ i.word ≠ w
      else if d.operation.name = "pref".toList ∧ w.rt.toNat ∉ [0, 1, 3, 5, 6, 7] then
        ∃ e, standard.assemble d.mnemonic = .error e
      else ∃ i, standard.assemble d.mnemonic = .ok i ∧ i.word = w) := by
  obtain ⟨op, hfind, rfl⟩ := exists_find?_of_instruction? h
  refine ⟨valid_iff_of_find? hfind, fun hi ↦ ⟨?_, assemble_of_find?_immediate hfind hi⟩⟩
  have hformat : op.format = .i := hi
  rw [disassemble_of_find? hfind, Operation.disassemble_eq_valid_iff, Operation.violations, hformat]

theorem lossy_add_and_lui :
    (∃ d, (standard.disassemble 0x014b4860#32).instruction? = some d ∧ d.format = .r ∧
      (∃ vs, standard.disassemble 0x014b4860#32 = .suspect d vs) ∧
      ∃ i, standard.assemble d.mnemonic = .ok i ∧ i.word ≠ 0x014b4860#32) ∧
    ∃ d, (standard.disassemble 0x3d290004#32).instruction? = some d ∧ d.format = .i ∧
      standard.disassemble 0x3d290004#32 = .valid d ∧
      ∃ i, standard.assemble d.mnemonic = .ok i ∧ i.word = 0x3c090004#32 := by
  constructor
  · obtain ⟨op, hfind, hformat, hviolations⟩ : ∃ op, standard.find? 0x014b4860#32 = some op ∧
        op.format = .r ∧ op.violations 0x014b4860#32 ≠ [] :=
      exists_find? (by decide) (by decide +kernel)
    have hread := instruction?_disassemble hfind
    have hne : op.format ≠ .i := by rw [hformat]; decide
    have hsuspect : ∃ vs, standard.disassemble 0x014b4860#32 =
        .suspect (op.instructionOf 0x014b4860#32) vs := by
      rw [disassemble_of_find? hfind]
      exact Operation.exists_disassemble_eq_suspect_iff.2 hviolations
    exact ⟨_, hread, hformat, hsuspect, ((valid_iff_lossless hread).1 hne).2.1 hsuspect⟩
  · obtain ⟨op, hfind, hformat, hname⟩ : ∃ op, standard.find? 0x3d290004#32 = some op ∧
        op.format = .i ∧ op.name = "lui".toList := exists_find? (by decide) (by decide +kernel)
    have hread := instruction?_disassemble hfind
    obtain ⟨hvalid, hassemble⟩ := (valid_iff_lossless hread).2 hformat
    refine ⟨_, hread, hformat, hvalid, ?_⟩
    rw [if_neg, if_pos ⟨hname, by decide⟩] at hassemble
    · obtain ⟨i, hi, hword, -⟩ := hassemble
      exact ⟨i, hi, hword⟩
    · intro hbranch
      rw [show (op.instructionOf 0x3d290004#32).operation.name = "lui".toList from hname] at hbranch
      exact absurd hbranch.1 (by decide)

end InstructionSet

end Mips32
