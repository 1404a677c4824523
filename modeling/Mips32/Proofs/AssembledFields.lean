import Mips32.InstructionSet.Standard
import Mips32.Proofs.Agreement
import Mips32.Proofs.Encodings

namespace Mips32

open Text Mnemonic

namespace Operand

def lastArgument? (roles : List Role) (arguments : List Text) (p : Role → Bool) :
    Option (Role × Text) :=
  ((roles.zip arguments).filter fun e ↦ p e.1).getLast?

theorem lastArgument?_cons (role : Role) (roles : List Role) (argument : Text)
    (arguments : List Text) (p : Role → Bool) :
    lastArgument? (role :: roles) (argument :: arguments) p =
      (lastArgument? roles arguments p).or (if p role then some (role, argument) else none) :=
  getLast?_filter_cons _ (role, argument) (roles.zip arguments)

theorem lastArgument?_eq_none_iff {roles : List Role} {arguments : List Text} {p : Role → Bool}
    (hlen : arguments.length = roles.length) :
    lastArgument? roles arguments p = none ↔ ∀ r ∈ roles, p r = false := by
  induction roles generalizing arguments with
  | nil => simp [lastArgument?]
  | cons role roles ih =>
    cases arguments with
    | nil => simp at hlen
    | cons argument arguments =>
      rw [lastArgument?_cons, Option.or_eq_none_iff, ih (by simpa using hlen),
        List.forall_mem_cons, and_comm]
      cases p role <;> simp

end Operand

namespace Operation

/-- The value that the argument of a role gives to a field. A jump that links takes its target
in bytes. -/
def Gives (op : Operation) (role : Role) (argument : Text) (f : Field) (v : Word) : Prop :=
  match role with
  | .rd | .rs | .rt => ∃ r, Register.parse? argument = some r ∧ v = BitVec.ofNat 32 r.index
  | .shamt | .funct | .offset | .hint => Literal.parse argument = .ok v
  | .target => ∃ n, Literal.parse argument = .ok n ∧
    v = if op.format = .j ∧ op.kind = some .jumpAndLink then n >>> 2 else n
  | .address => ∃ offset base, AddressText.split? argument = some ⟨offset, base⟩ ∧
    if f = .immediate then offsetValue? offset = some v
    else match base with
      | none => v = 0#32
      | some b => ∃ r, Register.parse? b = some r ∧ v = BitVec.ofNat 32 r.index

/-- What identifies the operation in a field that no operand writes. -/
def identity (op : Operation) (f : Field) : Nat :=
  if f = .opcode then op.opcode.toNat
  else if f = .code then (op.opcode.toNat <<< 26) % 2 ^ 32
  else match op.discriminant with
    | some d => if d.field = f then d.value.toNat else 0
    | none => 0

variable {op : Operation}

theorem gives_of_readAddress (op : Operation) {argument : Text} {a : Word × Word}
    (h : Operand.readAddress argument = .ok a) :
    op.Gives .address argument .immediate a.1 ∧ op.Gives .address argument .rs a.2 := by
  obtain ⟨offset, base | base, hsplit, hvalue, hbase⟩ := Operand.exists_split_of_readAddress h
  · exact ⟨⟨offset, none, hsplit, hvalue⟩, ⟨offset, none, hsplit, hbase⟩⟩
  · exact ⟨⟨offset, some base, hsplit, hvalue⟩,
      ⟨offset, some base, hsplit, Operand.readRegister_eq_ok_iff.1 hbase⟩⟩

theorem gives_of_read {role : Role} {argument : Text} {operand : Operand}
    (h : Operand.read op.targetInBytes role argument = .ok operand) :
    ∀ e ∈ operand.writes, op.Gives role argument e.1 e.2 := by
  cases role with
  | rd | rs | rt =>
    obtain ⟨n, hn, rfl⟩ := map_eq_ok_iff.1 h
    rw [Operand.single, List.forall_mem_singleton]
    exact Operand.readRegister_eq_ok_iff.1 hn
  | shamt | funct | offset =>
    obtain ⟨n, hn, rfl⟩ := map_eq_ok_iff.1 h
    rw [Operand.single, List.forall_mem_singleton]
    exact mapError_eq_ok_iff.1 hn
  | target =>
    obtain ⟨n, hn, rfl⟩ := map_eq_ok_iff.1 h
    rw [Operand.single, List.forall_mem_singleton]
    refine ⟨n, mapError_eq_ok_iff.1 hn, ?_⟩
    simp [targetInBytes]
  | hint =>
    obtain ⟨n, hn, h⟩ := bind_eq_ok_iff.1 h
    split at h
    · obtain rfl := Except.ok.inj h
      rw [List.forall_mem_singleton]
      exact mapError_eq_ok_iff.1 hn
    · contradiction
  | address =>
    obtain ⟨a, ha, rfl⟩ := map_eq_ok_iff.1 h
    obtain ⟨himmediate, hrs⟩ := gives_of_readAddress op ha
    rw [List.forall_mem_cons, List.forall_mem_singleton]
    exact ⟨himmediate, hrs⟩

/-- After the operands, a field holds what the last argument for it gives, or what it held if
there is none. -/
theorem apply_of_readAll {roles : List Role} {arguments : List Text} {operands : List Operand}
    (hlen : arguments.length = roles.length)
    (h : Operand.readAll op.targetInBytes roles arguments = .ok operands) (fields : Fields)
    (f : Field) :
    (∃ role argument v,
      Operand.lastArgument? roles arguments (fun r ↦ f ∈ r.fields) = some (role, argument) ∧
        op.Gives role argument f v ∧ Operand.apply operands fields f = some v) ∨
    Operand.lastArgument? roles arguments (fun r ↦ f ∈ r.fields) = none ∧
      Operand.apply operands fields f = fields f := by
  induction roles generalizing arguments operands fields with
  | nil =>
    obtain rfl : operands = [] := by simpa [Operand.readAll, eq_comm] using h
    exact .inr ⟨rfl, rfl⟩
  | cons role roles ih =>
    cases arguments with
    | nil => simp at hlen
    | cons argument arguments =>
      obtain ⟨o, os, ho, hos, rfl⟩ := Operand.readAll_cons_eq_ok_iff.1 h
      rw [Operand.apply_cons, Operand.lastArgument?_cons]
      rcases ih (by simpa using hlen) hos (Operand.apply [o] fields) with
        ⟨last, text, v, hlast, hgives, hv⟩ | ⟨hnone, hrest⟩
      · rw [hlast, Option.some_or]
        exact .inl ⟨last, text, v, rfl, hgives, hv⟩
      · rw [hnone, hrest, Option.none_or]
        have hwrites : f ∈ role.fields ↔ ∃ v, (f, v) ∈ o.writes := by
          rw [← (Operand.fills_of_read ho).fields]
          simp
        rcases Operand.apply_cases [o] fields f with ⟨v, hmem, hv⟩ | ⟨hne, hv⟩
        · rw [List.flatMap_singleton] at hmem
          refine .inl ⟨role, argument, v, ?_, gives_of_read ho _ hmem, hv⟩
          simp [hwrites.2 ⟨v, hmem⟩]
        · refine .inr ⟨?_, hv⟩
          have hnot : f ∉ role.fields := by
            intro hf
            obtain ⟨v, hmem⟩ := hwrites.1 hf
            exact hne (f, v) (by simpa using hmem) rfl
          simp [hnot]

theorem lastHint?_of_readAll {roles : List Role} {arguments : List Text} {operands : List Operand}
    (hlen : arguments.length = roles.length)
    (h : Operand.readAll op.targetInBytes roles arguments = .ok operands) :
    (∃ argument hint, Operand.lastArgument? roles arguments (· = .hint) = some (.hint, argument) ∧
      Literal.parse argument = .ok hint.value ∧ Operand.lastHint? operands = some hint) ∨
    Operand.lastArgument? roles arguments (· = .hint) = none ∧
      Operand.lastHint? operands = none := by
  induction roles generalizing arguments operands with
  | nil =>
    obtain rfl : operands = [] := by simpa [Operand.readAll, eq_comm] using h
    exact .inr ⟨rfl, rfl⟩
  | cons role roles ih =>
    cases arguments with
    | nil => simp at hlen
    | cons argument arguments =>
      obtain ⟨o, os, ho, hos, rfl⟩ := Operand.readAll_cons_eq_ok_iff.1 h
      rw [Operand.lastHint?_cons, Operand.lastArgument?_cons]
      rcases ih (by simpa using hlen) hos with ⟨text, hint, hlast, hparse, hhint⟩ | ⟨hnone, hhint⟩
      · rw [hlast, hhint, Option.some_or, Option.some_or]
        exact .inl ⟨text, hint, rfl, hparse, rfl⟩
      · rw [hnone, hhint, Option.none_or, Option.none_or]
        by_cases hrole : role = .hint
        · subst hrole
          obtain ⟨n, hint, rfl, hvalue⟩ := (Operand.fills_of_read ho).hint_written rfl
          have hparse := gives_of_read ho (.rt, n) (by simp)
          obtain rfl := Hint.value_of_ofValue? hvalue
          exact .inl ⟨argument, hint, by simp, hparse, rfl⟩
        · exact .inr ⟨by simp [hrole], (Operand.fills_of_read ho).hint_eq_none hrole⟩

theorem toNat_value_fixedFields {f : Field} (hhas : op.format.has f) :
    (op.fixedFields.value f).toNat = op.identity f := by
  have hbyte (v : BitVec 8) : (v.setWidth 32).toNat = v.toNat := by
    rw [BitVec.toNat_setWidth]
    omega
  by_cases hopcode : f = .opcode
  · subst hopcode
    have hexit : op.format ≠ .exit := by
      intro hexit
      rw [hexit] at hhas
      contradiction
    rw [Fields.value, fixedFields_opcode hexit, Option.getD_some, hbyte]
    rfl
  by_cases hcode : f = .code
  · subst hcode
    have hexit : op.format = .exit := by
      cases hformat : op.format <;> simp_all [Format.has, Format.layout]
    rw [Fields.value, fixedFields_code hexit, Option.getD_some, BitVec.toNat_shiftLeft, hbyte]
    rfl
  rw [identity, if_neg hopcode, if_neg hcode, Fields.value]
  cases hd : op.discriminant with
  | none =>
    rw [fixedFields_eq_none hopcode hcode (by simp [hd])]
    rfl
  | some d =>
    dsimp only
    split
    · next hfield => rw [← hfield, fixedFields_discriminant hd, Option.getD_some, hbyte]
    · next hfield =>
      rw [fixedFields_eq_none hopcode hcode (by simpa [hd] using hfield)]
      rfl

theorem lastArgument?_eq_none_iff_writes {arguments : List Text} {f : Field}
    (hlen : arguments.length = op.roles.length) :
    Operand.lastArgument? op.roles arguments (fun r ↦ f ∈ r.fields) = none ↔
      op.shape.writes f = false := by
  rw [Operand.lastArgument?_eq_none_iff hlen, Shape.writes_eq_false_iff]
  simp [roles]

variable {arguments : List Text} {operands : List Operand}

theorem unpack_withOperands (hlen : arguments.length = op.roles.length)
    (hread : Operand.readAll op.targetInBytes op.roles arguments = .ok operands) {f : Field}
    {width : Nat} (hmem : (f, width) ∈ op.format.layout) :
    ∃ part, op.format.unpack (op.withOperands arguments operands).word f = some part ∧
      (op.shape.writes f → ∃ role argument v,
        Operand.lastArgument? op.roles arguments (fun r ↦ f ∈ r.fields) = some (role, argument) ∧
          op.Gives role argument f v ∧ part.toNat = v.toNat % 2 ^ width) ∧
      (op.shape.writes f = false → part.toNat = op.identity f % 2 ^ width) := by
  obtain ⟨hhas, rfl⟩ := Format.has_of_mem_layout hmem
  have hnone_iff := lastArgument?_eq_none_iff_writes (f := f) hlen
  refine ⟨_, (op.format.unpack_eq _ f).trans (if_pos hhas), ?_⟩
  rw [withOperands, Format.part_pack hhas, Field.toNat_cut, ← toNat_value_fixedFields hhas,
    Fields.value]
  rcases apply_of_readAll hlen hread op.fixedFields f with
    ⟨role, argument, v, hlast, hgives, hv⟩ | ⟨hnone, hv⟩
  · refine ⟨fun _ ↦ ⟨role, argument, v, hlast, hgives, by rw [hv, Option.getD_some]⟩, ?_⟩
    intro hwrites
    rw [hnone_iff.2 hwrites] at hlast
    contradiction
  · refine ⟨?_, fun _ ↦ by rw [hv, Fields.value]⟩
    intro hwrites
    rw [hnone_iff.1 hnone] at hwrites
    contradiction

theorem hint_of_readAll (hlen : arguments.length = op.roles.length)
    (hread : Operand.readAll op.targetInBytes op.roles arguments = .ok operands) :
    (.hint ∈ op.roles → ∃ argument hint,
      Operand.lastArgument? op.roles arguments (· = .hint) = some (.hint, argument) ∧
        Literal.parse argument = .ok hint.value ∧ Operand.lastHint? operands = some hint) ∧
    (.hint ∉ op.roles → Operand.lastHint? operands = none) := by
  have hnone_iff := Operand.lastArgument?_eq_none_iff (p := (· = .hint)) hlen
  rcases lastHint?_of_readAll hlen hread with
    ⟨argument, hint, hlast, hparse, hhint⟩ | ⟨hnone, hhint⟩
  · refine ⟨fun _ ↦ ⟨argument, hint, hlast, hparse, hhint⟩, ?_⟩
    intro hmem
    have hnone := hnone_iff.2 fun r hr ↦ decide_eq_false fun heq ↦ hmem (heq ▸ hr)
    rw [hnone] at hlast
    contradiction
  · refine ⟨?_, fun _ ↦ hhint⟩
    intro hmem
    have hne := hnone_iff.1 hnone .hint hmem
    contradiction

/-- An assembled text is the operation's name and one argument for each role. Each field of the
word holds what the last argument for it gives, cut to the field, and a field for which there is
no argument holds what identifies the operation. The hint is that of the last hint operand. -/
theorem unpack_of_assemble {t : Text} {i : Instruction} (h : op.assemble t = .ok i) :
    ∃ arguments, tokens t = op.name :: arguments ∧ arguments.length = op.roles.length ∧
      (∀ f width, (f, width) ∈ op.format.layout → ∃ part, op.format.unpack i.word f = some part ∧
        (op.shape.writes f → ∃ role argument v,
          Operand.lastArgument? op.roles arguments (fun r ↦ f ∈ r.fields) = some (role, argument) ∧
            op.Gives role argument f v ∧ part.toNat = v.toNat % 2 ^ width) ∧
        (op.shape.writes f = false → part.toNat = op.identity f % 2 ^ width)) ∧
      (.hint ∈ op.roles → ∃ argument hint,
        Operand.lastArgument? op.roles arguments (· = .hint) = some (.hint, argument) ∧
          Literal.parse argument = .ok hint.value ∧ i.hint = some hint) ∧
      (.hint ∉ op.roles → i.hint = none) := by
  obtain ⟨arguments, operands, hwritten, hread, rfl⟩ := exists_written_of_assemble h
  have hlen := hwritten.placed.length_eq.symm
  exact ⟨arguments, hwritten.tokens, hlen, fun f width ↦ unpack_withOperands hlen hread,
    hint_of_readAll hlen hread⟩

theorem unpack_of_repeated_roles :
    ∃ (op : Operation) (i : Instruction), op.roles = [.rt, .hint, .address, .rs] ∧
      op.assemble "touch $t1, 0x3, -2($sp), $9".toList = .ok i ∧
      (∃ part, op.format.unpack i.word .rs = some part ∧ part.toNat = 9) ∧
      i.hint = some .loadStreamed := by
  let op : Operation := Standard.immediate "touch" 0x33
    ⟨.i, "iname rt, hint, address, rs".toList, [.rt, .hint, .address, .rs], rfl⟩ none "" "" 0#32
  obtain ⟨i, hi⟩ : ∃ i, op.assemble "touch $t1, 0x3, -2($sp), $9".toList = .ok i := ⟨_, rfl⟩
  obtain ⟨arguments, htokens, -, hfields, hhint, -⟩ := unpack_of_assemble hi
  obtain rfl : ["$t1".toList, "0x3".toList, "-2($sp)".toList, "$9".toList] = arguments :=
    (List.cons.inj htokens).2
  refine ⟨op, i, rfl, hi, ?_, ?_⟩
  · obtain ⟨part, hpart, hwritten, -⟩ := hfields .rs 5 (by decide)
    obtain ⟨role, argument, v, hlast, hgives, hnat⟩ := hwritten rfl
    obtain ⟨rfl, rfl⟩ := Prod.mk.inj (Option.some.inj hlast)
    obtain ⟨r, hr, rfl⟩ := hgives
    obtain rfl : ⟨9⟩ = r := Option.some.inj hr
    exact ⟨part, hpart, hnat⟩
  · obtain ⟨argument, hint, hlast, hparse, hhint⟩ := hhint (by decide)
    obtain ⟨-, rfl⟩ := Prod.mk.inj (Option.some.inj hlast)
    have hvalue : 3#32 = hint.value := Except.ok.inj hparse
    rw [hhint, ← Hint.ofValue?_value hint, ← hvalue]
    rfl

end Operation

end Mips32
