import Mathlib.Logic.ExistsUnique
import Mathlib.Tactic.MkIffOfInductiveProp
import Mips32.InstructionSet.Standard
import Mips32.Proofs.Additions

namespace Mips32

namespace Operation

@[mk_iff]
structure Matches (op : Operation) (w : Word) : Prop where
  opcode : op.opcode = w.opcode.setWidth 8
  funct : op.opcode ∈ [0x00#8, 0x1c#8] → op.discriminant = some (.funct (w.funct.setWidth 8))
  rt : op.opcode = 0x01#8 → op.discriminant = some (.rt (w.rt.setWidth 8))

/-- The zero word belongs to `nop` alone, and any other word to the operations that match it. -/
def Owns (op : Operation) (w : Word) : Prop :=
  if w = 0#32 then op.name = InstructionSet.nopName
  else op.name ≠ InstructionSet.nopName ∧ op.Matches w

theorem key?_eq_key_iff {op : Operation} {w : Word} : op.key? = some w.key ↔ op.Matches w := by
  obtain ⟨hzero, hone, htwo⟩ := setWidth_eq_shared_iff w.opcode
  rw [matches_iff]
  unfold Word.key
  split_ifs with h0 h1 h2
  · rw [key?_eq_special_iff, hzero.2 h0]
    grind
  · rw [key?_eq_regimm_iff, hone.2 h1]
    grind
  · rw [key?_eq_special2_iff, htwo.2 h2]
    grind
  · rw [key?_eq_plain_iff]
    grind

instance (op : Operation) (w : Word) : Decidable (op.Matches w) :=
  decidable_of_iff _ key?_eq_key_iff

instance (op : Operation) (w : Word) : Decidable (op.Owns w) :=
  inferInstanceAs (Decidable (if w = 0#32 then _ else _))

end Operation

namespace InstructionSet

/-- Each table of a set follows from the operations and their order. -/
structure InStep (set : InstructionSet) : Prop where
  lt_size : ∀ position, (∃ name : Text, set.byName[name]? = some position) ∨
    (∃ key, set.position? key = some position) ∨ set.nop = some position → position < set.size
  byName : ∀ (name : Text) position, set.byName[name]? = some position ↔
    ∃ op, set.operations[position]? = some op ∧ op.name = name
  names_distinct : set.operations.toList.Pairwise fun a b ↦ a.name ≠ b.name
  special : ∀ (funct : BitVec 8) position, set.special[funct]? = some position ↔
    ∃ op, set.operations[position]? = some op ∧ op.name ≠ nopName ∧
      op.opcode = 0x00#8 ∧ op.discriminant = some (.funct funct)
  regimm : ∀ (rt : BitVec 8) position, set.regimm[rt]? = some position ↔
    ∃ op, set.operations[position]? = some op ∧ op.name ≠ nopName ∧
      op.opcode = 0x01#8 ∧ op.discriminant = some (.rt rt)
  special2 : ∀ (funct : BitVec 8) position, set.special2[funct]? = some position ↔
    ∃ op, set.operations[position]? = some op ∧ op.name ≠ nopName ∧
      op.opcode = 0x1c#8 ∧ op.discriminant = some (.funct funct)
  plain : ∀ (opcode : BitVec 8) position, set.plain[opcode]? = some position ↔
    ∃ op, set.operations[position]? = some op ∧ op.name ≠ nopName ∧
      op.opcode ∉ [0x00#8, 0x01#8, 0x1c#8] ∧ op.opcode = opcode
  -- a key names a table and a place in it, so that no operation is in two tables
  stored_once : ∀ (position : Nat) (op : Operation), set.operations[position]? = some op →
    op.name ≠ nopName → ∃! key, set.position? key = some position
  nop : ∀ position, set.nop = some position ↔
    ∃ op, set.operations[position]? = some op ∧ op.name = nopName
  nop_unstored : ∀ position, set.nop = some position → ∀ key, set.position? key ≠ some position
  formats : ∀ (opcode : BitVec 8) format, set.formats[opcode]? = some format ↔
    ∃ (position : Nat) (op : Operation), set.operations[position]? = some op ∧ op.opcode = opcode ∧
      op.format = format ∧ ∀ earlier < position, ∀ o, set.operations[earlier]? = some o →
        o.opcode ≠ opcode

theorem find?_eq_some_iff_first {operations : Array Operation} {p : Operation → Bool}
    {op : Operation} : operations.toList.find? p = some op ↔
      p op ∧ ∃ position : Nat, operations[position]? = some op ∧
        ∀ earlier < position, ∀ o, operations[earlier]? = some o → p o = false := by
  rw [Array.find?_toList, Array.find?_eq_some_iff_getElem]
  refine and_congr_right fun _ ↦ exists_congr fun position ↦ ?_
  constructor
  · rintro ⟨hlt, hget, hearlier⟩
    refine ⟨Array.getElem?_eq_some_iff.2 ⟨hlt, hget⟩, ?_⟩
    intro earlier hle o ho
    obtain ⟨-, rfl⟩ := Array.getElem?_eq_some_iff.1 ho
    simpa using hearlier earlier hle
  · rintro ⟨hget, hearlier⟩
    obtain ⟨hlt, rfl⟩ := Array.getElem?_eq_some_iff.1 hget
    refine ⟨hlt, rfl, fun earlier hle ↦ ?_⟩
    have ho := hearlier earlier hle _ (Array.getElem?_eq_getElem (Nat.lt_trans hle hlt))
    simpa using ho

theorem disassemble_eq_unrecognized_iff {set : InstructionSet} {w : Word}
    {format : Option Format} : set.disassemble w = .unrecognized w format ↔
      set.find? w = none ∧ set.formatOf? (w.opcode.setWidth 8) = format := by
  unfold disassemble
  split
  · next op hfind =>
    unfold Operation.disassemble
    split <;> simp [hfind]
  · next hfind => simp [hfind]

namespace WellFormed

variable {set : InstructionSet} (h : set.WellFormed)

include h

theorem names_distinct : set.operations.toList.Pairwise fun a b ↦ a.name ≠ b.name := by
  apply h.byName.pairwise.imp
  intro a b hab heq
  exact hab a.name rfl (congrArg some heq.symm)

theorem find?_eq_some_iff_owns {w : Word} {op : Operation} :
    set.find? w = some op ↔ op ∈ set.operations ∧ op.Owns w := by
  unfold Operation.Owns
  split_ifs with hzero
  · subst hzero
    exact h.find?_zero_eq_some_iff
  · rw [h.find?_eq_some_iff hzero, Operation.key?_eq_key_iff]

theorem owners_distinct (w : Word) :
    set.operations.toList.Pairwise fun a b ↦ ¬(a.Owns w ∧ b.Owns w) := by
  unfold Operation.Owns
  split_ifs with hzero
  · apply h.names_distinct.imp
    rintro a b hab ⟨ha, hb⟩
    exact hab (ha.trans hb.symm)
  · apply h.byKey.pairwise.imp
    rintro a b hab ⟨⟨hnop, ha⟩, ⟨hnop', hb⟩⟩
    exact hab w.key (Operation.storedKey?_eq_some_iff.2 ⟨hnop, Operation.key?_eq_key_iff.2 ha⟩)
      (Operation.storedKey?_eq_some_iff.2 ⟨hnop', Operation.key?_eq_key_iff.2 hb⟩)

theorem find?_eq_none_iff_owns {w : Word} :
    set.find? w = none ↔ ∀ op ∈ set.operations, ¬op.Owns w := by
  simp only [Option.eq_none_iff_forall_ne_some, ne_eq, h.find?_eq_some_iff_owns, not_and]

theorem inStep : set.InStep where
  lt_size := by
    have hlt {position : Nat} {P : Operation → Prop}
        (hex : ∃ op, set.operations[position]? = some op ∧ P op) : position < set.size := by
      obtain ⟨op, hop, -⟩ := hex
      exact (Array.getElem?_eq_some_iff.1 hop).1
    rintro position (⟨name, hp⟩ | ⟨key, hp⟩ | hp)
    · exact hlt ((h.byName name position).1 hp)
    · exact hlt ((h.byKey key position).1 hp)
    · exact hlt ((h.nop position).1 hp)
  byName name position := by simpa only [Option.some.injEq] using h.byName name position
  names_distinct := h.names_distinct
  special funct position := by
    simpa only [position?, Operation.key?_eq_special_iff] using
      h.position?_eq_some_iff (.special funct) position
  regimm rt position := by
    simpa only [position?, Operation.key?_eq_regimm_iff] using
      h.position?_eq_some_iff (.regimm rt) position
  special2 funct position := by
    simpa only [position?, Operation.key?_eq_special2_iff] using
      h.position?_eq_some_iff (.special2 funct) position
  plain opcode position := by
    simpa only [position?, Operation.key?_eq_plain_iff] using
      h.position?_eq_some_iff (.plain opcode) position
  stored_once position op hop hname := by
    obtain ⟨key, hkey⟩ := Option.isSome_iff_exists.1 (h.keyed op (Array.mem_of_getElem? hop) hname)
    refine ⟨key, (h.position?_eq_some_iff key position).2 ⟨op, hop, hname, hkey⟩, ?_⟩
    intro key' hkey'
    obtain ⟨o, ho, -, hstored⟩ := (h.position?_eq_some_iff key' position).1 hkey'
    obtain rfl : o = op := Option.some.inj (ho.symm.trans hop)
    exact Option.some.inj (hstored.symm.trans hkey)
  nop := h.nop
  nop_unstored position hnop key hkey := by
    obtain ⟨op, hop, hname⟩ := (h.nop position).1 hnop
    obtain ⟨o, ho, hname', -⟩ := (h.position?_eq_some_iff key position).1 hkey
    obtain rfl : o = op := Option.some.inj (ho.symm.trans hop)
    exact hname' hname
  formats opcode format := by
    simp only [h.formats, Option.map_eq_some_iff, find?_eq_some_iff_first, decide_eq_true_eq,
      decide_eq_false_iff_not]
    constructor
    · rintro ⟨op, ⟨hop, position, hget, hearlier⟩, hformat⟩
      exact ⟨position, op, hget, hop, hformat, hearlier⟩
    · rintro ⟨position, op, hget, hop, hformat, hearlier⟩
      exact ⟨op, ⟨hop, position, hget, hearlier⟩, hformat⟩

end WellFormed

/-- Whichever additions were tried and whichever of them failed, the tables are in step. -/
theorem inStep_ofList (ops : List Operation) : (ofList ops).InStep :=
  (wellFormed_ofList ops).inStep

/-- Looking up a word or a name finds what a search through the operations would find. -/
theorem lookups_eq_search (ops : List Operation) :
    (∀ w op, (ofList ops).find? w = some op ↔ op ∈ (ofList ops).operations ∧ op.Owns w) ∧
    (∀ w, (ofList ops).operations.toList.Pairwise fun a b ↦ ¬(a.Owns w ∧ b.Owns w)) ∧
    (∀ name op, (ofList ops).named? name = some op ↔
      op ∈ (ofList ops).operations ∧ op.name = name) ∧
    ((ofList ops).operations.toList.Pairwise fun a b ↦ a.name ≠ b.name) ∧
    ∀ w format, (ofList ops).disassemble w = .unrecognized w (some format) ↔
      (∀ op ∈ (ofList ops).operations, ¬op.Owns w) ∧
        ((ofList ops).operations.toList.find? fun op ↦ op.opcode = w.opcode.setWidth 8).map
          Operation.format = some format := by
  have hset := wellFormed_ofList ops
  refine ⟨fun w op ↦ hset.find?_eq_some_iff_owns, hset.owners_distinct,
    fun name op ↦ hset.named?_eq_some_iff, hset.names_distinct, ?_⟩
  intro w format
  rw [disassemble_eq_unrecognized_iff, hset.find?_eq_none_iff_owns, formatOf?, hset.formats]

theorem lookups_without_nop :
    ∃ op, (ofList [op]).operations.toList = [op] ∧ op.Matches 0#32 ∧
      (ofList [op]).find? 0#32 = none ∧
      (ofList [op]).disassemble 0#32 = .unrecognized 0#32 (some .r) := by
  let op := Standard.special "sll" 0x00 Standard.rdRtShamt none "" "" 0#32
  have hops : (ofList [op]).operations.toList = [op] := operations_ofList (by decide) (by decide)
  have hnone : ∀ o ∈ (ofList [op]).operations, ¬o.Owns 0#32 := by
    simp only [← Array.mem_toList_iff, hops, List.mem_singleton, forall_eq]
    decide
  obtain ⟨hfind, -, -, -, hformat⟩ := lookups_eq_search [op]
  refine ⟨op, hops, by decide, ?_, ?_⟩
  · rw [Option.eq_none_iff_forall_ne_some]
    intro o ho
    exact hnone o ((hfind _ _).1 ho).1 ((hfind _ _).1 ho).2
  · rw [hformat, hops]
    exact ⟨hnone, rfl⟩

end InstructionSet

end Mips32
