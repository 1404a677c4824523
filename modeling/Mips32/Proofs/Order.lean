import Mips32.Proofs.Tables

namespace Mips32

theorem Operation.Compatible.symm {a b : Operation} (h : a.Compatible b) : b.Compatible a := by
  refine ⟨h.1.symm, ?_⟩
  rcases h.2 with hnone | hne
  · rw [hnone]
    cases b.storedKey? <;> simp
  · exact .inr hne.symm

namespace InstructionSet

theorem WellFormed.pairwise_compatible {set : InstructionSet} (h : set.WellFormed) :
    set.operations.toList.Pairwise Operation.Compatible := by
  apply (h.names_distinct.and h.byKey.pairwise).imp
  rintro a b ⟨hname, hkey⟩
  refine ⟨hname, ?_⟩
  cases ha : a.storedKey? with
  | none => exact .inl rfl
  | some key => exact .inr (hkey key ha).symm

theorem WellFormed.formatOf?_eq_none_iff {set : InstructionSet} (h : set.WellFormed)
    {opcode : BitVec 8} :
    set.formatOf? opcode = none ↔ ∀ op ∈ set.operations, op.opcode ≠ opcode := by
  simp [formatOf?, h.formats]

theorem WellFormed.exists_of_formatOf? {set : InstructionSet} (h : set.WellFormed)
    {opcode : BitVec 8} {format : Format} (hformat : set.formatOf? opcode = some format) :
    ∃ op ∈ set.operations, op.opcode = opcode ∧ op.format = format := by
  rw [formatOf?, h.formats, Option.map_eq_some_iff] at hformat
  obtain ⟨op, hfind, hformat⟩ := hformat
  have hopcode := List.find?_some hfind
  exact ⟨op, Array.mem_toList_iff.1 (List.mem_of_find?_eq_some hfind),
    of_decide_eq_true hopcode, hformat⟩

/-- Two sets with the same operations, in whatever order they joined. -/
structure Alike (a b : InstructionSet) : Prop where
  left : a.WellFormed
  right : b.WellFormed
  mem_iff : ∀ op, op ∈ a.operations ↔ op ∈ b.operations

namespace Alike

variable {a b : InstructionSet} (h : Alike a b)

include h

theorem named?_eq (name : Text) : a.named? name = b.named? name := by
  apply Option.ext
  intro op
  rw [h.left.named?_eq_some_iff, h.right.named?_eq_some_iff, h.mem_iff]

theorem find?_eq (w : Word) : a.find? w = b.find? w := by
  apply Option.ext
  intro op
  rw [h.left.find?_eq_some_iff_owns, h.right.find?_eq_some_iff_owns, h.mem_iff]

theorem assemble_eq (t : Text) : a.assemble t = b.assemble t := by
  simp only [assemble, h.named?_eq]

theorem formatOf?_cases (opcode : BitVec 8) :
    a.formatOf? opcode = none ∧ b.formatOf? opcode = none ∨
      ∃ x ∈ a.operations, ∃ y ∈ a.operations, x.opcode = opcode ∧ y.opcode = opcode ∧
        a.formatOf? opcode = some x.format ∧ b.formatOf? opcode = some y.format := by
  have hnone : a.formatOf? opcode = none ↔ b.formatOf? opcode = none := by
    simp only [h.left.formatOf?_eq_none_iff, h.right.formatOf?_eq_none_iff, h.mem_iff]
  cases ha : a.formatOf? opcode with
  | none => exact .inl ⟨rfl, hnone.1 ha⟩
  | some format =>
    cases hb : b.formatOf? opcode with
    | none => simp [hnone.2 hb] at ha
    | some format' =>
      obtain ⟨x, hx, hxcode, rfl⟩ := h.left.exists_of_formatOf? ha
      obtain ⟨y, hy, hycode, rfl⟩ := h.right.exists_of_formatOf? hb
      exact .inr ⟨x, hx, y, (h.mem_iff y).2 hy, hxcode, hycode, rfl, rfl⟩

theorem disassemble_cases (w : Word) : a.disassemble w = b.disassemble w ∨
    ∃ x ∈ a.operations, ∃ y ∈ a.operations, x.opcode = y.opcode ∧
      a.disassemble w = .unrecognized w (some x.format) ∧
      b.disassemble w = .unrecognized w (some y.format) := by
  unfold disassemble
  rw [h.find?_eq]
  cases b.find? w with
  | some op => exact .inl rfl
  | none =>
    rcases h.formatOf?_cases (w.opcode.setWidth 8) with
      ⟨ha, hb⟩ | ⟨x, hx, y, hy, hxcode, hycode, ha, hb⟩
    · exact .inl (by rw [ha, hb])
    · exact .inr ⟨x, hx, y, hy, hxcode.trans hycode.symm, by rw [ha], by rw [hb]⟩

end Alike

theorem alike_of_perm {ops perm : List Operation} (hperm : ops.Perm perm)
    {set other : InstructionSet} (h : (ops.forM enter).run empty = .ok () set)
    (h' : (perm.forM enter).run empty = .ok () other) : Alike set other where
  left := wellFormed_of_run h
  right := wellFormed_of_run h'
  mem_iff op := by
    rw [← Array.mem_toList_iff, ← Array.mem_toList_iff, operations_of_run h, operations_of_run h']
    exact hperm.mem_iff

theorem exists_run_of_perm {ops perm : List Operation} (hperm : ops.Perm perm)
    {set : InstructionSet} (h : (ops.forM enter).run empty = .ok () set) :
    ∃ other, (perm.forM enter).run empty = .ok () other := by
  have hset : set.WellFormed := wellFormed_of_run h
  have hops : set.operations.toList = ops := operations_of_run h
  -- that operations do not clash is a fact about pairs of them, in either order
  apply wellFormed_empty.exists_run
  · intro op hop
    exact hset.keyed op (Array.mem_toList_iff.1 (hops ▸ hperm.mem_iff.2 hop))
  · exact (hperm.pairwise_iff Operation.Compatible.symm).1 (hops ▸ hset.pairwise_compatible)

/-- The order in which operations join shows only in the format guessed for a word that none of
them owns, and there only if operations of one opcode have different formats. -/
theorem answers_of_perm {ops perm : List Operation} (hperm : ops.Perm perm) {set : InstructionSet}
    (h : (ops.forM enter).run empty = .ok () set) :
    ∃ other, (perm.forM enter).run empty = .ok () other ∧
      (∀ name, other.named? name = set.named? name) ∧ (∀ w, other.find? w = set.find? w) ∧
      (∀ t, other.assemble t = set.assemble t) ∧
      (∀ w, other.disassemble w = set.disassemble w ∨
        ∃ format format', set.disassemble w = .unrecognized w (some format) ∧
          other.disassemble w = .unrecognized w (some format')) ∧
      ((∀ x ∈ ops, ∀ y ∈ ops, x.opcode = y.opcode → x.format = y.format) →
        ∀ w, other.disassemble w = set.disassemble w) := by
  obtain ⟨other, h'⟩ := exists_run_of_perm hperm h
  have halike := alike_of_perm hperm h h'
  refine ⟨other, h', fun name ↦ (halike.named?_eq name).symm, fun w ↦ (halike.find?_eq w).symm,
    fun t ↦ (halike.assemble_eq t).symm, ?_, ?_⟩
  · intro w
    rcases halike.disassemble_cases w with heq | ⟨x, -, y, -, -, hx, hy⟩
    · exact .inl heq.symm
    · exact .inr ⟨x.format, y.format, hx, hy⟩
  · intro hformats w
    rcases halike.disassemble_cases w with heq | ⟨x, hxmem, y, hymem, hcode, hx, hy⟩
    · exact heq.symm
    · have hops : set.operations.toList = ops := operations_of_run h
      rw [← Array.mem_toList_iff, hops] at hxmem hymem
      rw [hx, hy, hformats x hxmem y hymem hcode]

theorem answers_of_swap :
    ∃ a b set other, ([a, b].forM enter).run empty = .ok () set ∧
      ([b, a].forM enter).run empty = .ok () other ∧
      (∀ t, other.assemble t = set.assemble t) ∧ (∀ w, other.find? w = set.find? w) ∧
      set.disassemble 0x041f0000#32 = .unrecognized 0x041f0000#32 (some .i) ∧
      other.disassemble 0x041f0000#32 = .unrecognized 0x041f0000#32 (some .r) := by
  let a := Standard.regimm "bltz" 0x00 none "" "" 0#32
  let b := Standard.operation "trap" 0x01 (some (.rt 0x01)) Standard.rsOnly none "" "" 0#32
  obtain ⟨set, h⟩ : ∃ set, ([a, b].forM enter).run empty = .ok () set :=
    wellFormed_empty.exists_run (by decide) (by decide)
  obtain ⟨other, h', -, hfind, hassemble, -⟩ := answers_of_perm (.swap b a []) h
  have hunrecognized {ops : List Operation} {s : InstructionSet}
      (hs : (ops.forM enter).run empty = .ok () s)
      (hnone : ∀ op ∈ ops, ¬op.Owns 0x041f0000#32) :
      s.disassemble 0x041f0000#32 = .unrecognized 0x041f0000#32
        ((ops.find? fun op ↦ op.opcode = 0x01#8).map Operation.format) := by
    have hset : s.WellFormed := wellFormed_of_run hs
    have hops : s.operations.toList = ops := operations_of_run hs
    rw [disassemble_eq_unrecognized_iff, hset.find?_eq_none_iff_owns, formatOf?, hset.formats, hops]
    refine ⟨fun op hop ↦ hnone op ?_, rfl⟩
    rwa [← Array.mem_toList_iff, hops] at hop
  exact ⟨a, b, set, other, h, h', hassemble, hfind, hunrecognized h (by decide),
    hunrecognized h' (by decide)⟩

end InstructionSet

end Mips32
