import Mips32.Proofs.Agreement
import Mips32.Proofs.StandardSet

namespace Mips32

open Text Mnemonic

namespace Register

theorem ofBits_eq {b : BitVec 5} {r : Register} (h : b.setWidth 32 = BitVec.ofNat 32 r.index) :
    ofBits b = r := by
  obtain ⟨index⟩ := r
  have hnat := congrArg BitVec.toNat h
  simp only [BitVec.toNat_setWidth, BitVec.toNat_ofNat] at hnat
  have hb := b.isLt
  have hindex := index.isLt
  refine congrArg Register.mk (Fin.ext ?_)
  change b.toNat = index
  omega

theorem cut_index {f : Field} (hf : f.range.width = 5) (r : Register) :
    f.cut (BitVec.ofNat 32 r.index) = BitVec.ofNat 32 r.index := by
  apply Field.cut_of_lt
  have hindex := r.index.isLt
  rw [hf, BitVec.toNat_ofNat]
  omega

end Register

theorem Word.eq_ofInt_immediate_iff {w v : Word} (h : w.part .immediate = Field.immediate.cut v) :
    v = BitVec.ofInt 32 w.immediate.toInt ↔ v = (v.setWidth 16).signExtend 32 := by
  have himmediate : w.immediate = v.setWidth 16 := by
    apply BitVec.eq_of_toNat_eq
    have hnat := congrArg BitVec.toNat h
    have hlt := w.immediate.isLt
    rw [Field.toNat_cut, Word.part, BitVec.toNat_setWidth] at hnat
    rw [BitVec.toNat_setWidth]
    simp only [Field.range] at hnat
    omega
  rw [himmediate]
  rfl

theorem signExtend_setWidth_signExtend (b : BitVec 16) :
    ((b.signExtend 32).setWidth 16).signExtend 32 = b.signExtend 32 := by
  rw [Word.setWidth_signExtend]

namespace Mnemonic

theorem offsetValue?_signedDecimal (z : Int) :
    offsetValue? (signedDecimal z) = some (BitVec.ofInt 32 z) := by
  have hne : (signedDecimal z).isEmpty = false := by simpa using signedDecimal_ne_nil z
  rw [offsetValue?, hne, Literal.parse_signedDecimal]
  rfl

theorem hasParenthesis_of_offsetValue? {t : Text} {value : Word}
    (h : offsetValue? t = some value) (ht : ∀ c ∈ t, isBlank c = false) :
    hasParenthesis t = false := by
  have hnumeral := isNumeral_of_offsetValue? h
  rw [trim_of_solid ht] at hnumeral
  exact hasParenthesis_of_plain fun c hc ↦ isPlain_of_isNumeral (hnumeral c hc)

theorem exists_based_of_tokensAgree {z : Int} {r : Register} {t : Text}
    (h : tokensAgree (signedDecimal z ++ '(' :: (r.name ++ [')'])) t) :
    ∃ offset base, AddressText.split? t = some ⟨offset, some base⟩ ∧
      offsetValue? offset = some (BitVec.ofInt 32 z) := by
  have hprinted : AddressText.split? (signedDecimal z ++ '(' :: (r.name ++ [')'])) =
      some ⟨signedDecimal z, some r.name⟩ :=
    AddressText.split?_of_plain (fun c ↦ isPlain_of_mem_signedDecimal) r.isPlain_of_mem_name
  rcases tokensAgree_cases h with rfl | ⟨s, hs, -⟩ | ⟨m, n, p, q, value, hm, hn, hvalue, hvalue', -⟩
  · exact ⟨_, _, hprinted, offsetValue?_signedDecimal z⟩
  · have hbare := hasParenthesis_of_plain (Register.isPlain_of_parse? hs)
    rw [AddressText.hasParenthesis_of_based hprinted] at hbare
    contradiction
  · obtain ⟨rfl, -⟩ := AddressText.mk.inj (Option.some.inj (hprinted.symm.trans hm))
    rw [offsetValue?_signedDecimal] at hvalue
    exact ⟨n, q, hn, hvalue'.trans hvalue.symm⟩

end Mnemonic

namespace Operand

theorem exists_parse?_of_readRegister {t : Text} {n : Word} {b : BitVec 5} {f : Field}
    (hf : f.range.width = 5) (h : readRegister t = .ok n) (hpart : b.setWidth 32 = f.cut n) :
    ∃ r, Register.parse? (Register.ofBits b).name = some r ∧ Register.parse? t = some r := by
  obtain ⟨r, hr, rfl⟩ := readRegister_eq_ok_iff.1 h
  rw [Register.cut_index hf] at hpart
  rw [Register.ofBits_eq hpart]
  exact ⟨r, Register.parse?_name r, hr⟩

theorem exists_based_of_readAddress {t : Text} {a : Word × Word} (h : readAddress t = .ok a)
    (hp : hasParenthesis t) :
    ∃ offset base, AddressText.split? t = some ⟨offset, some base⟩ ∧
      offsetValue? offset = some a.1 ∧ readRegister base = .ok a.2 := by
  obtain ⟨offset, base | base, hsplit, hvalue, hbase⟩ := exists_split_of_readAddress h
  · rw [AddressText.hasParenthesis_of_bare hsplit] at hp
    contradiction
  · exact ⟨offset, base, hsplit, hvalue, hbase⟩

theorem tokensAgree_address_iff {w : Word} {t : Text} {a : Word × Word}
    (ht : ∀ c ∈ t, isBlank c = false) (hread : readAddress t = .ok a)
    (himmediate : w.part .immediate = Field.immediate.cut a.1)
    (hrs : w.part .rs = Field.rs.cut a.2) :
    tokensAgree
        (signedDecimal w.immediate.toInt ++ '(' :: ((Register.ofBits w.rs).name ++ [')'])) t ↔
      ∃ offset base value, t = offset ++ '(' :: (base ++ [')']) ∧
        offsetValue? offset = some value ∧ value = (value.setWidth 16).signExtend 32 := by
  constructor
  · intro h
    obtain ⟨offset, base, hsplit, hvalue⟩ := exists_based_of_tokensAgree h
    exact ⟨offset, base, _, AddressText.eq_of_based hsplit ht, hvalue,
      (signExtend_setWidth_signExtend w.immediate).symm⟩
  · rintro ⟨offset, base, value, rfl, hvalue, hext⟩
    have hp : hasParenthesis (offset ++ '(' :: (base ++ [')'])) := by
      rw [hasParenthesis, List.any_eq_true]
      exact ⟨'(', by simp, rfl⟩
    obtain ⟨m, q, hsplit, hm, hq⟩ := exists_based_of_readAddress hread hp
    have heq := AddressText.eq_of_based hsplit ht
    have hoffset := hasParenthesis_of_offsetValue? hvalue fun c hc ↦ ht c (by simp [hc])
    have hm' := hasParenthesis_of_offsetValue? hm fun c hc ↦ ht c (by simp [heq, hc])
    obtain ⟨rfl, -⟩ := AddressText.append_parenthesis_inj hoffset hm' heq
    obtain rfl : value = a.1 := Option.some.inj (hvalue.symm.trans hm)
    rw [(Word.eq_ofInt_immediate_iff himmediate).2 hext] at hvalue
    refine tokensAgree_iff.2 (.inr (.inr ⟨_, offset, _, q, _, ?_, hsplit,
      offsetValue?_signedDecimal _, hvalue, .inr (exists_parse?_of_readRegister rfl hq hrs)⟩))
    exact AddressText.split?_of_plain (fun c ↦ isPlain_of_mem_signedDecimal)
      (Register.isPlain_of_mem_name _)

end Operand

namespace Operation

variable {op : Operation} {w : Word}

/-- The argument of a role is spelled so that what is printed for it agrees. A number is spelled
as it is printed, and an address has a base after an offset that the immediate holds whole. -/
def Faithful (op : Operation) (w : Word) (argument : Text) : Role → Prop
  | .shamt => argument = decimal w.shamt.toNat
  | .hint => argument = decimal w.rt.toNat
  | .offset => argument = signedDecimal w.immediate.toInt
  | .target => argument =
    decimal (if op.name = "jal".toList then w.target.toNat * 4 else w.target.toNat)
  | .address => ∃ offset base value, argument = offset ++ '(' :: (base ++ [')']) ∧
    offsetValue? offset = some value ∧ value = (value.setWidth 16).signExtend 32
  | _ => True

theorem tokensAgree_operandText_iff (hop : Standard.Entry op) {role : Role}
    (hrole : role ∈ op.roles) {argument : Text} (hsolid : ∀ c ∈ argument, isBlank c = false)
    {operand : Operand}
    (hread : Operand.read op.targetInBytes role argument = .ok operand)
    (hparts : ∀ e ∈ operand.writes, w.part e.1 = e.1.cut e.2) :
    tokensAgree (op.operandText w role) argument ↔ op.Faithful w argument role := by
  cases role with
  | rd | rs | rt =>
    obtain ⟨n, hn, rfl⟩ := map_eq_ok_iff.1 hread
    have hpart := hparts _ (List.mem_singleton_self _)
    exact iff_of_true
      (tokensAgree_iff.2 (.inr (.inl (Operand.exists_parse?_of_readRegister rfl hn hpart)))) trivial
  | shamt | hint => exact tokensAgree_iff_eq fun c hc ↦ isNumeral_of_mem_decimal hc
  | offset => exact tokensAgree_iff_eq fun c hc ↦ isNumeral_of_mem_signedDecimal hc
  | target =>
    rw [operandText, tokensAgree_iff_eq fun c hc ↦ isNumeral_of_mem_decimal hc, Faithful]
    simp only [hop.bytes_iff]
  | funct => exact absurd hrole hop.funct_free
  | address =>
    obtain ⟨a, ha, rfl⟩ := map_eq_ok_iff.1 hread
    simp only [operandText, hop.legible.bareAddress hrole, Bool.false_eq_true, if_false]
    exact Operand.tokensAgree_address_iff hsolid ha (hparts (.immediate, a.1) (by simp))
      (hparts (.rs, a.2) (by simp))

theorem part_withOperands {operands : List Operand}
    (hfills : List.Forall₂ Operand.Fills op.roles operands)
    (honce : (op.roles.flatMap Role.fields).Nodup) (arguments : List Text) {f : Field} {v : Word}
    (hv : (f, v) ∈ operands.flatMap Operand.writes) :
    (op.withOperands arguments operands).word.part f = f.cut v := by
  have hhas : op.format.has f := by
    apply op.shape.has_of_writes
    obtain ⟨role, hrole, hf⟩ := (Operand.exists_write_iff hfills f).1 ⟨v, hv⟩
    exact List.any_eq_true.2 ⟨role, hrole, decide_eq_true hf⟩
  rw [withOperands, Format.part_pack hhas, Fields.value,
    Operand.apply_of_mem hfills honce hv, Option.getD_some]

theorem agree_mnemonicOf_iff (hop : Standard.Entry op) {t : Text} {operands : List Operand}
    (hwritten : op.Written t (arguments t))
    (hread : Operand.readAll op.targetInBytes op.roles (arguments t) = .ok operands)
    (hw : (op.withOperands (arguments t) operands).word = w) :
    Mnemonic.agree (op.mnemonicOf w) t ↔
      ∀ role argument, (role, argument) ∈ op.roles.zip (arguments t) →
        op.Faithful w argument role := by
  subst hw
  have hlen := hwritten.placed.length_eq
  have hfills := Operand.fills_of_readAll hlen.symm hread
  have hname : tokensAgree op.name op.name := by simp [tokensAgree]
  rw [Mnemonic.agree_iff, (hop.legible.written_mnemonicOf _).tokens, hwritten.tokens,
    List.forall₂_cons, and_iff_right hname, List.forall₂_map_left_iff, List.forall₂_iff_zip,
    and_iff_right hlen]
  refine forall_congr' fun role ↦ forall_congr' fun argument ↦ forall_congr' fun hmem ↦ ?_
  obtain ⟨hrole, hargument⟩ := List.of_mem_zip hmem
  obtain ⟨operand, hoperand, hargumentRead⟩ := Operand.exists_read_of_mem_zip hread hmem
  refine tokensAgree_operandText_iff hop hrole ?_ hargumentRead ?_
  · intro c hc
    exact isBlank_of_isSolid ((isToken_of_mem_arguments hargument).2 c hc)
  · intro e he
    exact part_withOperands hfills hop.writes_once _ (List.mem_flatMap.2 ⟨operand, hoperand, he⟩)

theorem not_agree_nop {t : Text} (hwritten : op.Written t (arguments t))
    (hname : op.name ≠ InstructionSet.nopName) : ¬Mnemonic.agree (Standard.nop.mnemonicOf w) t := by
  intro h
  have hnop := (Standard.entry Standard.nop List.mem_cons_self).legible
  obtain ⟨others, htokens, -⟩ := exists_tokens_of_agree h (hnop.written_mnemonicOf w).tokens
    hnop.name_alphanumeric
  exact hname (List.cons.inj (hwritten.tokens.symm.trans htokens)).1

end Operation

namespace InstructionSet

theorem mnemonic?_disassemble {set : InstructionSet} {w : Word} {op : Operation}
    (h : set.find? w = some op) : (set.disassemble w).mnemonic? = some (op.mnemonicOf w) := by
  rw [Disassembly.mnemonic?, instruction?_disassemble h]
  rfl

/-- The text printed for an assembled word agrees with the assembled text unless `sll` lost its
name to `nop` or an argument is spelled in another way than the operand printed for it. -/
theorem agree_mnemonic_iff {t : Text} {i : Instruction} (h : standard.assemble t = .ok i) :
    ∃ m, (standard.disassemble i.word).mnemonic? = some m ∧
      (agree m t ↔ ¬(i.operation.name = "sll".toList ∧ i.word = 0#32) ∧
        ∀ role argument, (role, argument) ∈ i.operation.roles.zip (arguments t) →
          i.operation.Faithful i.word argument role) := by
  obtain ⟨hop, hencodes, -⟩ := encodes_of_assemble h
  obtain ⟨op, args, operands, -, hname, hwritten, hread, rfl⟩ :=
    wellFormed_standard.exists_written h
  rw [Operation.operation_withOperands] at hop hencodes ⊢
  obtain ⟨-, rfl⟩ := hwritten.arguments_eq hname
  rcases find?_of_encodes hop hencodes with hfind | ⟨hsll, hzero, hfind⟩
  · refine ⟨_, mnemonic?_disassemble hfind, ?_⟩
    rw [and_iff_right]
    · exact Operation.agree_mnemonicOf_iff (Standard.entry op hop) hwritten hread rfl
    · rintro ⟨hsll, hzero⟩
      rw [hzero, find?_zero_standard] at hfind
      rw [← Option.some.inj hfind] at hsll
      exact absurd hsll (by decide)
  · refine ⟨_, mnemonic?_disassemble hfind, iff_of_false ?_ fun h ↦ h.1 ⟨hsll, hzero⟩⟩
    exact Operation.not_agree_nop hwritten (hsll ▸ by decide)

theorem agree_load_and_not_shift :
    (∃ i m, standard.assemble "lw $9, 0x4 ($29)".toList = .ok i ∧
      (standard.disassemble i.word).mnemonic? = some m ∧ agree m "lw $9, 0x4 ($29)".toList) ∧
    ∃ i m, standard.assemble "sll $9, $t2, 0x4".toList = .ok i ∧
      (standard.disassemble i.word).mnemonic? = some m ∧ ¬agree m "sll $9, $t2, 0x4".toList := by
  constructor
  · obtain ⟨i, hi, hname, hroles⟩ : ∃ i, standard.assemble "lw $9, 0x4 ($29)".toList = .ok i ∧
        i.operation.name ≠ "sll".toList ∧ i.operation.roles = [.rt, .address] :=
      exists_assemble (by decide +kernel)
    have harguments : arguments "lw $9, 0x4 ($29)".toList = ["$9".toList, "0x4($29)".toList] := by
      decide
    obtain ⟨m, hm, hagree⟩ := agree_mnemonic_iff hi
    refine ⟨i, m, hi, hm, hagree.2 ⟨fun h ↦ hname h.1, ?_⟩⟩
    intro role argument hmem
    rw [hroles, harguments, List.zip_cons_cons, List.zip_cons_cons, List.zip_nil_left,
      List.mem_pair, Prod.mk.injEq, Prod.mk.injEq] at hmem
    rcases hmem with ⟨rfl, rfl⟩ | ⟨rfl, rfl⟩
    · trivial
    · exact ⟨"0x4".toList, "$29".toList, 4#32, rfl, by decide, by decide⟩
  · obtain ⟨i, hi, hword, hroles⟩ : ∃ i, standard.assemble "sll $9, $t2, 0x4".toList = .ok i ∧
        i.word.shamt = 4#5 ∧ i.operation.roles = [.rd, .rt, .shamt] :=
      exists_assemble (by decide +kernel)
    have harguments :
        arguments "sll $9, $t2, 0x4".toList = ["$9".toList, "$t2".toList, "0x4".toList] := by
      decide
    obtain ⟨m, hm, hagree⟩ := agree_mnemonic_iff hi
    refine ⟨i, m, hi, hm, fun h ↦ ?_⟩
    have hshamt : "0x4".toList = decimal i.word.shamt.toNat :=
      (hagree.1 h).2 .shamt "0x4".toList (by rw [hroles, harguments]; decide)
    rw [hword] at hshamt
    exact absurd hshamt (by decide)

end InstructionSet

end Mips32
