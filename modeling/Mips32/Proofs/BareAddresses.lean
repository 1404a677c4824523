import Mips32.InstructionSet.Standard
import Mips32.Proofs.Encodings

namespace Mips32

open Text

namespace Operation

variable {op : Operation}

theorem part_withOperands_ofWord (bare : Bool) (arguments : List Text) (w : Word) {f : Field}
    {role : Role} (hlast : Operand.lastWriter? op.roles f = some role) :
    (op.withOperands arguments (op.roles.map (Operand.ofWord bare w))).word.part f =
      if role = .address ∧ f = .rs ∧ bare then 0#32 else w.part f := by
  have hhas : op.format.has f := by
    refine op.shape.has_of_writes ?_
    rw [op.shape.writes_eq, show Operand.lastWriter? op.shape.roles f = some role from hlast]
    rfl
  rw [withOperands, Format.part_pack hhas, Fields.value, apply_ofWord, hlast, Option.map_some,
    Option.some_or, Option.getD_some]
  split
  · next hbare =>
    rw [Word.written, if_pos hbare]
    exact Field.cut_zero f
  · next hbased => exact Field.cut_written f w hbased

/-- Where a pattern names the base of an address beside it, the text of a word assembles and
keeps the offset. It keeps the base if the base is named after the last address, and loses it
to that address otherwise. -/
theorem rs_of_assemble_bare (hne : op.name ≠ []) (halnum : ∀ c ∈ op.name, c.isAlphanum)
    (hrs : .rs ∈ op.roles) (haddress : .address ∈ op.roles) (hhint : .hint ∉ op.roles) (w : Word) :
    ∃ d i, (op.disassemble w).instruction? = some d ∧ op.assemble d.mnemonic = .ok i ∧
      i.word.immediate = w.immediate ∧
      (i.word.rs = w.rs ↔ Operand.lastWriter? op.roles .rs = some .rs ∨ w.rs = 0#5) ∧
      (Operand.lastWriter? op.roles .rs ≠ some .rs → i.word.rs = 0#5) := by
  have hbare : op.bareAddress = true := by simp [bareAddress, hrs]
  have hassemble := assemble_mnemonicOf hne halnum (w := w) (absurd · hhint)
  rw [hbare] at hassemble
  refine ⟨op.instructionOf w, _, op.instruction?_disassemble w, hassemble, ?_, ?_⟩
  · obtain ⟨last, hlast, -⟩ :=
      Operand.exists_lastWriter? haddress (f := .immediate) (by decide)
    refine view_eq_of_part_eq (by decide) ((part_withOperands_ofWord true _ w hlast).trans ?_)
    rw [if_neg (by simp)]
    rfl
  · obtain ⟨last, hlast, hmem⟩ := Operand.exists_lastWriter? hrs (f := .rs) (by decide)
    have hpart := part_withOperands_ofWord true (op.roles.map (op.operandText w)) w hlast
    rw [hlast]
    cases last with
    | rs =>
      have hkept := view_eq_of_part_eq (by decide) (hpart.trans (if_neg (by decide)))
      exact ⟨iff_of_true hkept (.inl rfl), fun h ↦ absurd rfl h⟩
    | address =>
      have hlost := (setWidth_eq_zero_iff (by decide)).1 (hpart.trans (if_pos (by decide)))
      refine ⟨?_, fun _ ↦ hlost⟩
      rw [show Word.rs _ = 0#5 from hlost]
      simp [eq_comm]
    | _ => contradiction

def baseFirst : Operation :=
  Standard.immediate "load" 0x23 ⟨.i, "iname rs, address".toList, [.rs, .address], rfl⟩ none "" ""
    0#32

def baseLast : Operation :=
  Standard.immediate "load" 0x23 ⟨.i, "iname address, rs".toList, [.address, .rs], rfl⟩ none "" ""
    0#32

theorem baseFirst_loses_base :
    baseFirst.name ≠ [] ∧ baseFirst.name.all Char.isAlphanum ∧
    .rs ∈ baseFirst.roles ∧ .address ∈ baseFirst.roles ∧ .hint ∉ baseFirst.roles ∧
    ∃ d i, (baseFirst.disassemble 0x8d190004#32).instruction? = some d ∧
      d.mnemonic = "load $t0, 4".toList ∧ baseFirst.assemble d.mnemonic = .ok i ∧
      Word.rs 0x8d190004#32 = 8#5 ∧ i.word.rs = 0#5 :=
  ⟨by decide, by decide, by decide, by decide, by decide, _, _, rfl, by decide, rfl, by decide,
    by decide⟩

theorem baseLast_keeps_base :
    ∃ d i, (baseLast.disassemble 0x8d190004#32).instruction? = some d ∧
      baseLast.assemble d.mnemonic = .ok i ∧ i.word.rs = 8#5 ∧ i.word.immediate = 4#16 := by
  have halnum : ∀ c ∈ baseLast.name, c.isAlphanum := List.all_eq_true.1 (by decide)
  obtain ⟨d, i, hd, hi, himmediate, hrs, -⟩ := rs_of_assemble_bare (by decide) halnum (by decide)
    (by decide) (by decide) 0x8d190004#32
  exact ⟨d, i, hd, hi, hrs.2 (.inl rfl), himmediate⟩

end Operation

end Mips32
