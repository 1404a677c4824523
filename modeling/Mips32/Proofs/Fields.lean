import Mathlib.Algebra.Group.Nat.Defs
import Mips32.Format
import Mips32.Word.View

namespace Mips32

theorem Word.toNat_one_shiftLeft {n : Nat} (h : n < 32) : (1#32 <<< n).toNat = 2 ^ n := by
  have hpow : 2 ^ n < 2 ^ 32 := Nat.pow_lt_pow_right (by omega) h
  rw [BitVec.toNat_shiftLeft, Nat.shiftLeft_eq, BitVec.toNat_one (by omega), Nat.one_mul]
  exact Nat.mod_eq_of_lt hpow

theorem Word.one_le_one_shiftLeft {n : Nat} (h : n < 32) : 1#32 ≤ 1#32 <<< n := by
  rw [BitVec.le_def, toNat_one_shiftLeft h]
  exact Nat.two_pow_pos n

theorem Word.toNat_ones (width : Nat) : (Word.ones width).toNat = 2 ^ min width 32 - 1 := by
  by_cases h : width < 32
  · rw [Word.ones, if_pos h, Nat.min_eq_left (Nat.le_of_lt h),
      BitVec.toNat_sub_of_le (one_le_one_shiftLeft h), toNat_one_shiftLeft h]
    rfl
  · rw [Word.ones, if_neg h, Nat.min_eq_right (by omega), BitVec.toNat_allOnes]

theorem Word.toNat_and_ones {width : Nat} (h : width ≤ 32) (v : Word) :
    (v &&& Word.ones width).toNat = v.toNat % 2 ^ width := by
  rw [BitVec.toNat_and, toNat_ones, Nat.min_eq_left h, Nat.and_two_pow_sub_one_eq_mod]

theorem Word.getLsbD_ones (width i : Nat) :
    (Word.ones width).getLsbD i = (decide (i < width) && decide (i < 32)) := by
  rw [BitVec.getLsbD, Word.toNat_ones, Nat.testBit_two_pow_sub_one]
  simp only [Nat.lt_min, Bool.decide_and]

theorem Word.setWidth_signExtend (b : BitVec 16) : (b.signExtend 32).setWidth 16 = b := by
  apply BitVec.eq_of_getLsbD_eq
  intro i hi
  simp [BitVec.getLsbD_signExtend, hi]
  omega

namespace BitRange

theorem getLsbD_read (r : BitRange) (w : Word) (i : Nat) :
    (r.read w).getLsbD i = (decide (i < r.width) && w.getLsbD (r.low + i)) := by
  rw [read, BitVec.getLsbD_and, BitVec.getLsbD_ushiftRight, Word.getLsbD_ones]
  by_cases hi : i < 32
  · simp [hi, Bool.and_comm]
  · simp [hi, BitVec.getLsbD_of_ge w (r.low + i) (by omega)]

theorem getLsbD_write (r : BitRange) (v : Word) (i : Nat) :
    (r.write v).getLsbD i =
      (decide (i < 32 ∧ r.low ≤ i ∧ i < r.low + r.width) && v.getLsbD (i - r.low)) := by
  by_cases h : r.width = 0
  · have hi : ¬(i < 32 ∧ r.low ≤ i ∧ i < r.low + r.width) := by omega
    rw [write, if_pos h, decide_eq_false hi, BitVec.getLsbD_zero, Bool.false_and]
  rw [write, if_neg h, BitVec.getLsbD_shiftLeft, BitVec.getLsbD_and, Word.getLsbD_ones]
  by_cases hi : i < 32 ∧ r.low ≤ i ∧ i < r.low + r.width
  · obtain ⟨hw, hl, hh⟩ := hi
    simp [hw, hl, hh, show ¬i < r.low by omega, show i - r.low < r.width by omega,
      show i - r.low < 32 by omega]
  · rw [decide_eq_false hi]
    by_cases hw : i < 32 <;> by_cases hl : i < r.low <;> simp [hw, hl]
    omega

end BitRange

/-- The bits of a field. They are the same in every format that has it. -/
def Field.range : Field → BitRange
  | .opcode => ⟨26, 6⟩
  | .rs => ⟨21, 5⟩
  | .rt => ⟨16, 5⟩
  | .rd => ⟨11, 5⟩
  | .shamt => ⟨6, 5⟩
  | .funct => ⟨0, 6⟩
  | .immediate => ⟨0, 16⟩
  | .target => ⟨0, 26⟩
  | .code => ⟨0, 32⟩

theorem Field.width_le (f : Field) : f.range.width ≤ 32 := by cases f <;> decide

def Field.cut (f : Field) (value : Word) : Word := value &&& Word.ones f.range.width

def Word.part (w : Word) : Field → Word
  | .opcode => w.opcode.setWidth 32
  | .rs => w.rs.setWidth 32
  | .rt => w.rt.setWidth 32
  | .rd => w.rd.setWidth 32
  | .shamt => w.shamt.setWidth 32
  | .funct => w.funct.setWidth 32
  | .immediate => w.immediate.setWidth 32
  | .target => w.target.setWidth 32
  | .code => w

theorem Field.read_range (f : Field) (w : Word) : f.range.read w = w.part f := by
  apply BitVec.eq_of_getLsbD_eq
  intro i hi
  rw [BitRange.getLsbD_read]
  cases f <;> simp only [Field.range, Word.part, Word.opcode, Word.rs, Word.rt, Word.rd,
    Word.shamt, Word.funct, Word.immediate, Word.target, BitVec.getLsbD_setWidth,
    BitVec.getLsbD_extractLsb', hi, decide_true, Bool.true_and, Nat.zero_add] <;> rfl

theorem Field.getLsbD_part (f : Field) (w : Word) (i : Nat) :
    (w.part f).getLsbD i = (decide (i < f.range.width) && w.getLsbD (f.range.low + i)) := by
  rw [← f.read_range, BitRange.getLsbD_read]

theorem Field.getLsbD_cut (f : Field) (v : Word) (i : Nat) :
    (f.cut v).getLsbD i = (decide (i < f.range.width) && v.getLsbD i) := by
  rw [cut, BitVec.getLsbD_and, Word.getLsbD_ones]
  by_cases hi : i < 32
  · simp [hi, Bool.and_comm]
  · simp [BitVec.getLsbD_of_ge v i (by omega)]

theorem Field.toNat_cut (f : Field) (v : Word) : (f.cut v).toNat = v.toNat % 2 ^ f.range.width := by
  rw [cut, Word.toNat_and_ones f.width_le]

theorem Field.cut_of_lt {f : Field} {v : Word} (h : v.toNat < 2 ^ f.range.width) : f.cut v = v := by
  rw [← BitVec.toNat_inj, toNat_cut, Nat.mod_eq_of_lt h]

@[simp] theorem Field.cut_part (f : Field) (w : Word) : f.cut (w.part f) = w.part f := by
  apply BitVec.eq_of_getLsbD_eq
  intro i hi
  rw [getLsbD_cut, getLsbD_part, ← Bool.and_assoc, Bool.and_self]

namespace Format

theorem mem_slots_iff {format : Format} {f : Field} {r : BitRange} :
    (f, r) ∈ format.slots ↔ format.has f ∧ r = f.range := by
  cases format <;> cases f <;>
    simp [slots, slotsBelow, layout, has, Field.range, eq_comm]

theorem has_of_mem_layout {format : Format} {f : Field} {width : Nat}
    (h : (f, width) ∈ format.layout) : format.has f ∧ width = f.range.width := by
  cases format <;> cases f <;> simp_all [layout, has, Field.range]

theorem slots_disjoint (format : Format) : ∀ s ∈ format.slots, ∀ t ∈ format.slots, s = t ∨
    s.2.low + s.2.width ≤ t.2.low ∨ t.2.low + t.2.width ≤ s.2.low := by
  cases format <;> decide

theorem slots_cover (format : Format) :
    ∀ i < 32, ∃ s ∈ format.slots, s.2.low ≤ i ∧ i < s.2.low + s.2.width := by
  cases format <;> decide

theorem unpack_eq (format : Format) (w : Word) (f : Field) :
    format.unpack w f = if format.has f then some (w.part f) else none := by
  have hlookup : format.slots.lookup f = if format.has f then some f.range else none := by
    cases format <;> cases f <;> rfl
  rw [unpack, hlookup]
  split
  · rw [Option.map_some, Field.read_range]
  · rfl

theorem getLsbD_pack (format : Format) (fields : Fields) (i : Nat) :
    (format.pack fields).getLsbD i =
      format.slots.any fun s ↦ (s.2.write (fields.value s.1)).getLsbD i := by
  have hfold (slots : List (Field × BitRange)) (word : Word) :
      (slots.foldl (fun w s ↦ w ||| s.2.write (fields.value s.1)) word).getLsbD i =
        (word.getLsbD i || slots.any fun s ↦ (s.2.write (fields.value s.1)).getLsbD i) := by
    induction slots generalizing word with
    | nil => simp
    | cons s slots ih => rw [List.foldl_cons, ih, BitVec.getLsbD_or, List.any_cons, Bool.or_assoc]
  rw [pack, hfold, BitVec.getLsbD_zero, Bool.false_or]

/-- A packed field holds the low bits of its value, whatever the other fields hold. -/
theorem part_pack {format : Format} {f : Field} (h : format.has f) (fields : Fields) :
    (format.pack fields).part f = f.cut (fields.value f) := by
  have hf : (f, f.range) ∈ format.slots := mem_slots_iff.2 ⟨h, rfl⟩
  have hfit : f.range.low + f.range.width ≤ 32 := format.low_add_width_le _ hf
  apply BitVec.eq_of_getLsbD_eq
  intro i hi
  rw [f.getLsbD_part, f.getLsbD_cut]
  by_cases hw : i < f.range.width
  · rw [decide_eq_true hw, Bool.true_and, Bool.true_and, getLsbD_pack]
    apply Bool.eq_iff_iff.2
    rw [List.any_eq_true]
    constructor
    · rintro ⟨s, hs, hbit⟩
      rw [BitRange.getLsbD_write, Bool.and_eq_true, decide_eq_true_eq] at hbit
      have hsf : s = (f, f.range) := by
        rcases format.slots_disjoint s hs _ hf with heq | hlt | hlt
        · exact heq
        · dsimp only at hlt; omega
        · dsimp only at hlt; omega
      subst hsf
      simpa using hbit.2
    · intro hbit
      refine ⟨_, hf, ?_⟩
      dsimp only
      rw [BitRange.getLsbD_write, decide_eq_true (by omega), Bool.true_and]
      simpa using hbit
  · simp [hw]

/-- A word is determined by the fields of any one format. -/
theorem word_ext {format : Format} {a b : Word}
    (h : ∀ f, format.has f → a.part f = b.part f) : a = b := by
  apply BitVec.eq_of_getLsbD_eq
  intro i hi
  obtain ⟨⟨f, r⟩, hs, hl, hh⟩ := format.slots_cover i hi
  obtain ⟨hf, rfl⟩ := mem_slots_iff.1 hs
  dsimp only at hl hh
  have hbit := congrArg (fun w : Word ↦ w.getLsbD (i - f.range.low)) (h f hf)
  simp only [Field.getLsbD_part] at hbit
  simpa [show i - f.range.low < f.range.width by omega,
    show f.range.low + (i - f.range.low) = i by omega] using hbit

theorem pack_congr {format : Format} {a b : Fields}
    (h : ∀ f, format.has f → f.cut (a.value f) = f.cut (b.value f)) :
    format.pack a = format.pack b := by
  apply word_ext
  intro f hf
  rw [part_pack hf, part_pack hf, h f hf]

end Format

end Mips32
