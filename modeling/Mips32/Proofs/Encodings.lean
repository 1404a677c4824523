import Mips32.Proofs.Reassembly

namespace Mips32

theorem Field.cut_zero (f : Field) : f.cut 0#32 = 0#32 := BitVec.zero_and

theorem Field.cut_code (v : Word) : Field.code.cut v = v := BitVec.and_allOnes

theorem Hint.value_of_ofValue? {n : Word} {hint : Hint} (h : ofValue? n = some hint) :
    hint.value = n := by
  have hfound := List.find?_some h
  exact of_decide_eq_true hfound

theorem Hint.cut_of_ofValue? {n : Word} {hint : Hint} (h : ofValue? n = some hint) :
    Field.rt.cut n = n := by
  obtain rfl := value_of_ofValue? h
  cases hint <;> rfl

theorem setWidth_eq_zero_iff {m : Nat} (hm : m ≤ 32) {b : BitVec m} :
    b.setWidth 32 = 0#32 ↔ b = 0#m := by
  have hb : b.toNat < 2 ^ 32 := Nat.lt_of_lt_of_le b.isLt (Nat.pow_le_pow_right (by omega) hm)
  rw [← BitVec.toNat_inj, ← BitVec.toNat_inj, BitVec.toNat_setWidth, Nat.mod_eq_of_lt hb,
    BitVec.toNat_ofNat, BitVec.toNat_ofNat, Nat.zero_mod, Nat.zero_mod]

theorem setWidth_eq_setWidth_iff {m : Nat} (hm : m ≤ 8) {b : BitVec m} {v : BitVec 8} :
    b.setWidth 32 = v.setWidth 32 ↔ v = b.setWidth 8 := by
  have hb : b.toNat < 2 ^ 8 := Nat.lt_of_lt_of_le b.isLt (Nat.pow_le_pow_right (by omega) hm)
  have hv := v.isLt
  rw [← BitVec.toNat_inj, ← BitVec.toNat_inj, BitVec.toNat_setWidth, BitVec.toNat_setWidth,
    BitVec.toNat_setWidth]
  omega

namespace Word

theorem part_and (a b : Word) (f : Field) : part (a &&& b) f = a.part f &&& b.part f := by
  apply BitVec.eq_of_getLsbD_eq
  intro i hi
  rw [BitVec.getLsbD_and, f.getLsbD_part, f.getLsbD_part, f.getLsbD_part, BitVec.getLsbD_and]
  by_cases hlt : i < f.range.width <;> simp [hlt]

theorem part_opcode_shiftLeft (v : Word) : part (v <<< 26) .opcode = Field.opcode.cut v := by
  apply BitVec.eq_of_getLsbD_eq
  intro i hi
  rw [Field.getLsbD_part, Field.getLsbD_cut, BitVec.getLsbD_shiftLeft]
  by_cases hlt : i < 6
  · simp [Field.range, hlt, show 26 + i < 32 by omega, show ¬26 + i < 26 by omega]
  · simp [Field.range, hlt]

theorem part_target_shiftLeft (v : Word) : part (v <<< 26) .target = 0#32 := by
  apply BitVec.eq_of_getLsbD_eq
  intro i hi
  rw [Field.getLsbD_part, BitVec.getLsbD_shiftLeft, BitVec.getLsbD_zero]
  by_cases hlt : i < 26 <;> simp [Field.range, hlt]

theorem eq_iff_opcode_target {a b : Word} :
    a = b ↔ a.part .opcode = b.part .opcode ∧ a.part .target = b.part .target := by
  constructor
  · intro h
    exact ⟨h ▸ rfl, h ▸ rfl⟩
  · intro h
    have hparts : ∀ f, Format.j.has f → a.part f = b.part f := by
      intro f hhas
      cases f with
      | opcode => exact h.1
      | target => exact h.2
      | _ => contradiction
    exact Format.word_ext hparts

end Word

namespace Discriminant

def field : Discriminant → Field
  | funct _ => .funct
  | rt _ => .rt

def value : Discriminant → BitVec 8
  | funct value => value
  | rt value => value

end Discriminant

theorem Format.has_opcode {format : Format} (h : format ≠ .exit) : format.has .opcode := by
  cases format with
  | exit => contradiction
  | _ => rfl

namespace Shape

theorem writes_eq_false_iff {shape : Shape} {f : Field} :
    shape.writes f = false ↔ ∀ role ∈ shape.roles, f ∉ role.fields := by
  simp [writes]

theorem writes_identity (shape : Shape) {f : Field} (hf : f = .opcode ∨ f = .code) :
    shape.writes f = false := by
  rw [writes_eq_false_iff]
  intro role _
  rcases hf with rfl | rfl <;> cases role <;> decide

end Shape

namespace Operation

variable {op : Operation} {w : Word}

theorem fixedFields_opcode (hexit : op.format ≠ .exit) :
    op.fixedFields .opcode = some (op.opcode.setWidth 32) := by
  rcases hd : op.discriminant with _ | ⟨_ | _⟩ <;> simp [fixedFields, hd, hexit, Fields.set]

theorem fixedFields_code (hexit : op.format = .exit) :
    op.fixedFields .code = some (op.opcode.setWidth 32 <<< 26) := by
  rcases hd : op.discriminant with _ | ⟨_ | _⟩ <;> simp [fixedFields, hd, hexit, Fields.set]

theorem fixedFields_discriminant {d : Discriminant} (hd : op.discriminant = some d) :
    op.fixedFields d.field = some (d.value.setWidth 32) := by
  cases d <;> simp [fixedFields, hd, Discriminant.field, Discriminant.value]

theorem fixedFields_eq_none {f : Field} (hopcode : f ≠ .opcode) (hcode : f ≠ .code)
    (hd : ∀ d ∈ op.discriminant, d.field ≠ f) : op.fixedFields f = none := by
  have hbase : (if op.format = .exit then Fields.empty.set .code (op.opcode.setWidth 32 <<< 26)
      else Fields.empty.set .opcode (op.opcode.setWidth 32)) f = none := by
    split
    · exact Fields.set_of_ne _ _ hcode
    · exact Fields.set_of_ne _ _ hopcode
  cases hdisc : op.discriminant with
  | none =>
    simp only [fixedFields, hdisc]
    exact hbase
  | some d =>
    have hne : f ≠ d.field := (hd d hdisc).symm
    cases d with
    | _ =>
      simp only [fixedFields, hdisc]
      exact (Fields.set_of_ne _ _ hne).trans hbase

/-- The opcode and the discriminant fit their fields, the format has the field of the
discriminant, and no operand writes it. -/
def fits (op : Operation) : Bool :=
  op.opcode.toNat < 2 ^ 6 && op.discriminant.all fun d ↦
    d.value.toNat < 2 ^ d.field.range.width && op.format.has d.field && !op.shape.writes d.field

def Identifies (op : Operation) (w : Word) : Prop :=
  w.part .opcode = op.opcode.setWidth 32 ∧
    ∀ d ∈ op.discriminant, w.part d.field = d.value.setWidth 32

/-- The fields that neither the operands nor the identity of the operation determine. -/
def spare (op : Operation) : List Field :=
  if op.format = .exit then [.target]
  else Field.all.filter fun f ↦
    op.format.has f && !op.shape.writes f && (op.fixedFields f).isNone

theorem mem_spare (hexit : op.format ≠ .exit) {f : Field} :
    f ∈ op.spare ↔ op.format.has f ∧ op.shape.writes f = false ∧ op.fixedFields f = none := by
  rw [spare, if_neg hexit, List.mem_filter]
  simp [f.mem_all, and_assoc]

theorem field_cases (hexit : op.format ≠ .exit) {f : Field} (hhas : op.format.has f) :
    op.shape.writes f ∨ f = .opcode ∨ (∃ d ∈ op.discriminant, d.field = f) ∨ f ∈ op.spare := by
  by_cases hwrites : op.shape.writes f
  · exact .inl hwrites
  by_cases hopcode : f = .opcode
  · exact .inr (.inl hopcode)
  by_cases hd : ∃ d ∈ op.discriminant, d.field = f
  · exact .inr (.inr (.inl hd))
  have hcode : f ≠ .code := by
    intro hcode
    rw [hcode] at hhas
    cases hformat : op.format <;> simp_all [Format.has, Format.layout]
  have hnone : op.fixedFields f = none :=
    fixedFields_eq_none hopcode hcode fun d hd' hfield ↦ hd ⟨d, hd', hfield⟩
  exact .inr (.inr (.inr ((mem_spare hexit).2 ⟨hhas, Bool.eq_false_iff.2 hwrites, hnone⟩)))

/-- The opcode and the discriminant fit their fields, and the format has the field of the
discriminant. -/
structure Bounded (op : Operation) : Prop where
  opcode : op.opcode.toNat < 2 ^ 6
  discriminant : ∀ d ∈ op.discriminant,
    d.value.toNat < 2 ^ d.field.range.width ∧ op.format.has d.field

theorem cut_setWidth {f : Field} {v : BitVec 8} (h : v.toNat < 2 ^ f.range.width) :
    f.cut (v.setWidth 32) = v.setWidth 32 := by
  apply Field.cut_of_lt
  rw [BitVec.toNat_setWidth]
  exact Nat.lt_of_le_of_lt (Nat.mod_le _ _) h

theorem Bounded.cut_opcode (h : op.Bounded) :
    Field.opcode.cut (op.opcode.setWidth 32) = op.opcode.setWidth 32 :=
  cut_setWidth h.opcode

theorem Bounded.cut_discriminant (h : op.Bounded) {d : Discriminant}
    (hd : op.discriminant = some d) :
    d.field.cut (d.value.setWidth 32) = d.value.setWidth 32 :=
  cut_setWidth (h.discriminant d hd).1

theorem fits_iff : op.fits ↔
    op.Bounded ∧ ∀ d ∈ op.discriminant, op.shape.writes d.field = false := by
  rw [fits, Bool.and_eq_true, decide_eq_true_eq, Option.all_eq_true]
  constructor
  · intro h
    refine ⟨⟨h.1, fun d hd ↦ ?_⟩, fun d hd ↦ ?_⟩
    · have hall := h.2 d hd
      simp only [Bool.and_eq_true, decide_eq_true_eq] at hall
      exact hall.1
    · have hall := h.2 d hd
      simp only [Bool.and_eq_true, Bool.not_eq_true'] at hall
      exact hall.2
  · intro h
    refine ⟨h.1.opcode, fun d hd ↦ ?_⟩
    obtain ⟨hlt, hhas⟩ := h.1.discriminant d hd
    simp [hlt, hhas, h.2 d hd]

theorem discriminant_fits (hfits : op.fits) {d : Discriminant} (hd : op.discriminant = some d) :
    d.field.cut (d.value.setWidth 32) = d.value.setWidth 32 ∧ op.format.has d.field ∧
      op.shape.writes d.field = false := by
  obtain ⟨hbounded, hwrites⟩ := fits_iff.1 hfits
  exact ⟨hbounded.cut_discriminant hd, (hbounded.discriminant d hd).2, hwrites d hd⟩

/-- Every field that no operand writes holds what identifies the operation, or zero. -/
def Encodes (op : Operation) (w : Word) : Prop :=
  ∀ f, op.format.has f → op.shape.writes f = false → w.part f = f.cut (op.fixedFields.value f)

theorem encodes_pack {op : Operation} {fields : Fields}
    (h : ∀ f, op.shape.writes f = false → fields f = op.fixedFields f) :
    op.Encodes (op.format.pack fields) := by
  intro f hhas hwrites
  rw [Format.part_pack hhas, Fields.value, h f hwrites, Fields.value]

theorem encodes_ofFields (op : Operation) (fields : Fields) :
    op.Encodes (op.ofFields fields).word := by
  apply encodes_pack
  intro f hwrites
  rw [if_neg (Bool.eq_false_iff.1 hwrites)]

theorem encodes_withOperands {op : Operation} {operands : List Operand}
    (h : List.Forall₂ Operand.Fills op.roles operands) (arguments : List Text) :
    op.Encodes (op.withOperands arguments operands).word := by
  apply encodes_pack
  intro f hwrites
  exact Operand.apply_of_not_written h (Shape.writes_eq_false_iff.1 hwrites) op.fixedFields

/-- A word comes back from its text when it holds nothing that the text leaves out. -/
theorem word_ofFields_eq_iff (op : Operation) (w : Word) :
    (op.ofFields (op.format.unpack w)).word = w ↔ op.Encodes w := by
  constructor
  · intro h
    exact h ▸ op.encodes_ofFields _
  · intro h
    apply Format.word_ext
    intro f hhas
    by_cases hwrites : op.shape.writes f
    · exact op.part_ofFields w hwrites
    · have hfalse := Bool.eq_false_iff.2 hwrites
      rw [op.encodes_ofFields _ f hhas hfalse, h f hhas hfalse]

theorem encodes_iff_of_exit (hexit : op.format = .exit) :
    op.Encodes w ↔ w = op.opcode.setWidth 32 <<< 26 := by
  have hvalue : Field.code.cut (op.fixedFields.value .code) = op.opcode.setWidth 32 <<< 26 := by
    rw [Field.cut_code, Fields.value, fixedFields_code hexit, Option.getD_some]
  constructor
  · intro h
    exact (h .code (by rw [hexit]; rfl) (op.shape.writes_identity (.inr rfl))).trans hvalue
  · intro h f hhas _
    rw [hexit] at hhas
    cases f with
    | code => exact h.trans hvalue.symm
    | _ => contradiction

theorem Bounded.part_opcode (h : op.Bounded) (hencodes : op.Encodes w) :
    w.part .opcode = op.opcode.setWidth 32 := by
  by_cases hexit : op.format = .exit
  · rw [(encodes_iff_of_exit hexit).1 hencodes, Word.part_opcode_shiftLeft, h.cut_opcode]
  · rw [hencodes .opcode (Format.has_opcode hexit) (op.shape.writes_identity (.inl rfl)),
      Fields.value, fixedFields_opcode hexit, Option.getD_some, h.cut_opcode]

/-- A word encodes an operation when it identifies it and its spare fields are zero. -/
theorem encodes_iff (hfits : op.fits) :
    op.Encodes w ↔ op.Identifies w ∧ ∀ f ∈ op.spare, w.part f = 0#32 := by
  have hbounded := (fits_iff.1 hfits).1
  by_cases hexit : op.format = .exit
  · have hnone : op.discriminant = none := by
      apply Option.eq_none_iff_forall_ne_some.2
      intro d hd
      have hhas := (discriminant_fits hfits hd).2.1
      rw [hexit] at hhas
      cases d <;> contradiction
    rw [encodes_iff_of_exit hexit, Word.eq_iff_opcode_target, Word.part_opcode_shiftLeft,
      Word.part_target_shiftLeft, hbounded.cut_opcode, Identifies, hnone, spare, if_pos hexit]
    simp
  constructor
  · intro h
    refine ⟨⟨hbounded.part_opcode h, ?_⟩, ?_⟩
    · intro d hd
      obtain ⟨hcut, hhas, hwrites⟩ := discriminant_fits hfits hd
      rw [h d.field hhas hwrites, Fields.value, fixedFields_discriminant hd, Option.getD_some, hcut]
    · intro f hf
      obtain ⟨hhas, hwrites, hnone⟩ := (mem_spare hexit).1 hf
      rw [h f hhas hwrites, Fields.value, hnone, Option.getD_none, Field.cut_zero]
  · intro h f hhas hwrites
    obtain ⟨⟨hopcode, hdiscriminant⟩, hspare⟩ := h
    rcases field_cases hexit hhas with hwrites' | rfl | ⟨d, hd, rfl⟩ | hf
    · rw [hwrites] at hwrites'
      contradiction
    · rw [hopcode, Fields.value, fixedFields_opcode hexit, Option.getD_some,
        hbounded.cut_opcode]
    · rw [hdiscriminant d hd, Fields.value, fixedFields_discriminant hd, Option.getD_some,
        (discriminant_fits hfits hd).1]
    · rw [hspare f hf, Fields.value, ((mem_spare hexit).1 hf).2.2, Option.getD_none, Field.cut_zero]

/-- Writing a word out and reading it back clears its spare fields and keeps the others. -/
theorem part_ofFields_eq (hfits : op.fits) (hexit : op.format ≠ .exit) (h : op.Identifies w)
    {f : Field} (hhas : op.format.has f) :
    (op.ofFields (op.format.unpack w)).word.part f = if f ∈ op.spare then 0#32 else w.part f := by
  obtain ⟨⟨hopcode, hdiscriminant⟩, hspare⟩ :=
    (encodes_iff hfits).1 (op.encodes_ofFields (op.format.unpack w))
  split
  · next hf => exact hspare f hf
  · next hf =>
    rcases field_cases hexit hhas with hwrites | rfl | ⟨d, hd, rfl⟩ | hf'
    · exact op.part_ofFields w hwrites
    · exact hopcode.trans h.1.symm
    · exact (hdiscriminant d hd).trans (h.2 d hd).symm
    · exact absurd hf' hf

theorem fixedFields_eq_none_of_mem {f : Field} (hf : f ∈ [Field.shamt, .rd, .rs]) :
    op.fixedFields f = none := by
  have hfield (d : Discriminant) : d.field = .funct ∨ d.field = .rt := by
    cases d <;> simp [Discriminant.field]
  apply fixedFields_eq_none
  · rintro rfl; simp at hf
  · rintro rfl; simp at hf
  · rintro d - rfl
    rcases hfield d with h | h <;> simp [h] at hf

theorem mem_spare_of_r (hr : op.format = .r) (hrt : op.fixedFields .rt = none) {f : Field} :
    f ∈ op.spare ∧ f ≠ .funct ↔ f ∈ implicitZeroes.map Prod.fst ∧ op.shape.writes f = false := by
  have hexit : op.format ≠ .exit := by rw [hr]; decide
  rw [mem_spare hexit, hr]
  cases f with
  | opcode => simp [fixedFields_opcode hexit, implicitZeroes]
  | rt => simp [hrt, Format.has, Format.layout, implicitZeroes]
  | rs => simp [fixedFields_eq_none_of_mem, Format.has, Format.layout, implicitZeroes]
  | rd => simp [fixedFields_eq_none_of_mem, Format.has, Format.layout, implicitZeroes]
  | shamt => simp [fixedFields_eq_none_of_mem, Format.has, Format.layout, implicitZeroes]
  | _ => simp [Format.has, Format.layout, implicitZeroes]

theorem violations_eq_nil_iff_unwritten (hr : op.format = .r) :
    op.violations w = [] ↔
      ∀ e ∈ implicitZeroes, op.shape.writes e.1 = false → w.part e.1 = 0#32 := by
  have hpart : ∀ e ∈ implicitZeroes, e.2 w = 0#5 ↔ w.part e.1 = 0#32 := by
    simp [implicitZeroes, Word.part, setWidth_eq_zero_iff]
  simp only [violations, hr, List.filterMap_eq_nil_iff]
  apply forall₂_congr
  intro e he
  by_cases hwrites : op.shape.writes e.1 <;> simp [hwrites, hpart e he]

theorem violations_eq_nil_iff_of_r (hr : op.format = .r) (hrt : op.fixedFields .rt = none) :
    op.violations w = [] ↔ ∀ f ∈ op.spare, f ≠ .funct → w.part f = 0#32 := by
  rw [violations_eq_nil_iff_unwritten hr]
  constructor
  · intro h f hf hfunct
    obtain ⟨hmem, hwrites⟩ := (mem_spare_of_r hr hrt).1 ⟨hf, hfunct⟩
    obtain ⟨e, he, rfl⟩ := List.mem_map.1 hmem
    exact h e he hwrites
  · intro h e he hwrites
    obtain ⟨hf, hfunct⟩ := (mem_spare_of_r hr hrt).2 ⟨List.mem_map_of_mem he, hwrites⟩
    exact h e.1 hf hfunct

theorem violations_eq_nil_iff_of_exit (hexit : op.format = .exit) :
    op.violations w = [] ↔ ∀ f ∈ op.spare, w.part f = 0#32 := by
  rw [spare, if_pos hexit, List.forall_mem_singleton, Word.part, setWidth_eq_zero_iff (by decide)]
  simp [violations, hexit]

end Operation

namespace Word

variable {w : Word} {v : BitVec 8}

theorem key_eq_special_iff : w.key = .special v ↔ w.opcode = 0x00#6 ∧ v = w.funct.setWidth 8 := by
  grind [key]

theorem key_eq_regimm_iff : w.key = .regimm v ↔ w.opcode = 0x01#6 ∧ v = w.rt.setWidth 8 := by
  grind [key]

theorem key_eq_special2_iff :
    w.key = .special2 v ↔ w.opcode = 0x1c#6 ∧ v = w.funct.setWidth 8 := by
  grind [key]

theorem key_eq_plain_iff :
    w.key = .plain v ↔ w.opcode ∉ [0x00#6, 0x01#6, 0x1c#6] ∧ v = w.opcode.setWidth 8 := by
  grind [key]

theorem part_mask_rt {g : Field} (hg : Format.i.has g) :
    part 0xffe0ffff#32 g = if g = .rt then 0#32 else ones g.range.width := by
  cases g with
  | opcode | rs | rt | immediate => rfl
  | _ => contradiction

theorem part_mask_rs {g : Field} (hg : Format.i.has g) :
    part 0xfc1fffff#32 g = if g = .rs then 0#32 else ones g.range.width := by
  cases g with
  | opcode | rs | rt | immediate => rfl
  | _ => contradiction

theorem part_opcode_eq_iff : w.part .opcode = v.setWidth 32 ↔ w.opcode.setWidth 8 = v :=
  (setWidth_eq_setWidth_iff (by decide)).trans eq_comm

end Word

namespace Operation

variable {op : Operation} {w : Word} {key : Key}

theorem key_eq_iff_identifies (hkey : op.key? = some key)
    (hshared : op.discriminant.isSome → op.opcode ∈ [0x00#8, 0x01#8, 0x1c#8]) :
    w.key = key ↔ op.Identifies w := by
  obtain ⟨hzero, hone, htwo⟩ := setWidth_eq_shared_iff w.opcode
  rw [Identifies, Word.part_opcode_eq_iff]
  cases key with
  | special v =>
    obtain ⟨hop, hd⟩ := key?_eq_special_iff.1 hkey
    rw [Word.key_eq_special_iff, hop, hzero, ← setWidth_eq_setWidth_iff (by decide)]
    simp [hd, Word.part, Discriminant.field, Discriminant.value]
  | regimm v =>
    obtain ⟨hop, hd⟩ := key?_eq_regimm_iff.1 hkey
    rw [Word.key_eq_regimm_iff, hop, hone, ← setWidth_eq_setWidth_iff (by decide)]
    simp [hd, Word.part, Discriminant.field, Discriminant.value]
  | special2 v =>
    obtain ⟨hop, hd⟩ := key?_eq_special2_iff.1 hkey
    rw [Word.key_eq_special2_iff, hop, htwo, ← setWidth_eq_setWidth_iff (by decide)]
    simp [hd, Word.part, Discriminant.field, Discriminant.value]
  | plain v =>
    obtain ⟨hop, rfl⟩ := key?_eq_plain_iff.1 hkey
    have hnone : op.discriminant = none := by
      apply Option.eq_none_iff_forall_ne_some.2
      intro d hd
      exact hop (hshared (by rw [hd]; rfl))
    rw [Word.key_eq_plain_iff, hnone]
    constructor
    · intro h
      exact ⟨h.2.symm, by simp⟩
    · intro h
      rw [← h.1] at hop
      simp only [List.mem_cons, List.not_mem_nil, or_false, hzero, hone, htwo] at hop ⊢
      exact ⟨hop, h.1.symm⟩

theorem disassemble_eq_valid_iff :
    op.disassemble w = .valid (op.instructionOf w) ↔ op.violations w = [] := by
  unfold disassemble
  split <;> simp_all

theorem exists_disassemble_eq_suspect_iff :
    (∃ vs, op.disassemble w = .suspect (op.instructionOf w) vs) ↔ op.violations w ≠ [] := by
  unfold disassemble
  split <;> simp_all

theorem hint_withOperands {operands : List Operand}
    (h : List.Forall₂ Operand.Fills op.roles operands) (halone : .hint ∈ op.roles → .rt ∉ op.roles)
    (arguments : List Text) :
    op.hintOf? (op.withOperands arguments operands).word =
        (op.withOperands arguments operands).hint ∧
      (.hint ∈ op.roles → (op.withOperands arguments operands).hint.isSome) := by
  rw [hintOf?_eq]
  by_cases hhint : Role.hint ∈ op.roles
  · obtain ⟨n, hint, hn, hvalue, hlast⟩ :=
      Operand.lastHint?_eq_some h (halone hhint) hhint op.fixedFields
    have hlast' : (op.withOperands arguments operands).hint = some hint := hlast
    have hhas : op.format.has .rt :=
      op.shape.has_of_writes (List.any_eq_true.2 ⟨.hint, hhint, by decide⟩)
    have hpart : (op.withOperands arguments operands).word.part .rt = n := by
      rw [withOperands, Format.part_pack hhas, Fields.value, hn, Option.getD_some,
        Hint.cut_of_ofValue? hvalue]
    rw [if_pos hhint, hpart, hvalue, hlast']
    exact ⟨rfl, fun _ ↦ rfl⟩
  · rw [if_neg hhint]
    exact ⟨(Operand.lastHint?_eq_none h hhint).symm, fun hhint' ↦ absurd hhint' hhint⟩

theorem word_ofFields_of_spare (hfits : op.fits) (hi : op.format = .i) (h : op.Identifies w)
    {f : Field} (hspare : op.spare = [f]) {mask : Word}
    (hmask : ∀ g, Format.i.has g → mask.part g = if g = f then 0#32 else Word.ones g.range.width) :
    (op.ofFields (op.format.unpack w)).word = w &&& mask := by
  have hexit : op.format ≠ .exit := by rw [hi]; decide
  have hparts : ∀ g, op.format.has g →
      (op.ofFields (op.format.unpack w)).word.part g = Word.part (w &&& mask) g := by
    intro g hhas
    rw [part_ofFields_eq hfits hexit h hhas, Word.part_and, hmask g (hi ▸ hhas), hspare]
    by_cases hg : g = f
    · simp [hg]
    · simp only [List.mem_singleton, hg, if_false]
      exact (g.cut_part w).symm
  exact Format.word_ext hparts

end Operation

end Mips32
