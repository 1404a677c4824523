import Mips32.Operation
import Mips32.Proofs.Fields
import Mips32.Proofs.Operands

namespace Mips32

open Text

/-- The value that the text of a word gives to a field in a role. An address that is written bare
gives zero for its base. -/
def Word.written (w : Word) (bare : Bool) (role : Role) (f : Field) : Word :=
  if role = .address ∧ f = .rs ∧ bare then 0#32
  else if f = .immediate then BitVec.ofInt 32 w.signedImmediate else w.part f

theorem Field.cut_written (f : Field) (w : Word) {bare : Bool} {role : Role}
    (h : ¬(role = .address ∧ f = .rs ∧ bare)) : f.cut (w.written bare role f) = w.part f := by
  rw [Word.written, if_neg h]
  by_cases hf : f = .immediate
  · subst hf
    apply BitVec.eq_of_getLsbD_eq
    intro i hi
    have hext : BitVec.ofInt 32 w.signedImmediate = w.immediate.signExtend 32 := rfl
    rw [if_pos rfl, Field.getLsbD_cut, hext, Word.part, BitVec.getLsbD_signExtend,
      BitVec.getLsbD_setWidth]
    by_cases hw : i < 16
    · simp [Field.range, hw, hi]
    · simp [Field.range, hw, BitVec.getLsbD_of_ge w.immediate i (by omega)]
  · rw [if_neg hf, Field.cut_part]

def Operand.ofWord (bare : Bool) (w : Word) (role : Role) : Operand :=
  ⟨role.fields.map fun f ↦ (f, w.written bare role f),
    if role = .hint then Hint.ofValue? (w.part .rt) else none⟩

theorem Operand.ofWord_of_ne_address (bare : Bool) (w : Word) {role : Role}
    (h : role ≠ .address) : ofWord bare w role = ofWord false w role := by
  simp [ofWord, Word.written, h]

theorem Operand.readRegister_name (b : BitVec 5) :
    readRegister (Register.ofBits b).name = .ok (b.setWidth 32) := by
  rw [readRegister, Register.parse?_name, ← BitVec.ofNat_toNat]
  rfl

theorem Operand.readNumber_decimal (n : Nat) :
    readNumber (decimal n) = .ok (BitVec.ofNat 32 n) := by
  rw [readNumber, Literal.parse_decimal]
  rfl

theorem Operand.readNumber_signedDecimal (z : Int) :
    readNumber (signedDecimal z) = .ok (BitVec.ofInt 32 z) := by
  rw [readNumber, Literal.parse_signedDecimal]
  rfl

theorem Operand.readAddress_based (z : Int) (b : BitVec 5) :
    readAddress (signedDecimal z ++ '(' :: ((Register.ofBits b).name ++ [')'])) =
      .ok (BitVec.ofInt 32 z, b.setWidth 32) := by
  have hne : (signedDecimal z).isEmpty = false := by simpa using signedDecimal_ne_nil z
  rw [readAddress, AddressText.split?_of_plain (fun c ↦ isPlain_of_mem_signedDecimal)
    (Register.isPlain_of_mem_name _)]
  simp only [hne, readNumber_signedDecimal, readRegister_name]
  rfl

theorem Operand.readAddress_signedDecimal (z : Int) :
    readAddress (signedDecimal z) = .ok (BitVec.ofInt 32 z, 0#32) := by
  have hplain : ∀ c ∈ signedDecimal z, isPlain c := fun c ↦ isPlain_of_mem_signedDecimal
  have htrim : trim (signedDecimal z) = signedDecimal z :=
    trim_of_solid fun c hc ↦ isBlank_of_isPlain (hplain c hc)
  rw [readAddress, AddressText.split?_of_bare (hasParenthesis_of_plain hplain), htrim]
  dsimp only
  rw [readNumber_signedDecimal]
  rfl

namespace Operation

variable {op : Operation}

theorem readNumber_hintText (op : Operation) (w : Word) :
    Operand.readNumber (op.operandText w .hint) = .ok (w.part .rt) := by
  rw [operandText, Operand.readNumber_decimal, BitVec.ofNat_toNat]
  rfl

/-- What an operand prints, its role reads back, but for the base of a bare address. -/
theorem read_operandText (op : Operation) (w : Word) {role : Role}
    (hhint : role = .hint → (Hint.ofValue? (w.part .rt)).isSome) :
    Operand.read op.targetInBytes role (op.operandText w role) =
      .ok (.ofWord op.bareAddress w role) := by
  cases role with
  | rd | rs | rt =>
    rw [Operand.read, operandText, Operand.readRegister_name]
    rfl
  | shamt | funct =>
    rw [Operand.read, operandText, Operand.readNumber_decimal, BitVec.ofNat_toNat]
    rfl
  | offset =>
    rw [Operand.read, operandText, Operand.readNumber_signedDecimal]
    rfl
  | address =>
    cases hbare : op.bareAddress with
    | true =>
      simp only [Operand.read, operandText, hbare, if_true, Operand.readAddress_signedDecimal]
      rfl
    | false =>
      simp only [Operand.read, operandText, hbare, Bool.false_eq_true, if_false,
        Operand.readAddress_based]
      rfl
  | target =>
    have hvalue : (if op.targetInBytes then
        BitVec.ofNat 32 (if op.targetInBytes then w.target.toNat * 4 else w.target.toNat) >>> 2
        else BitVec.ofNat 32 (if op.targetInBytes then w.target.toNat * 4 else w.target.toNat)) =
        w.target.setWidth 32 := by
      have hlt := w.target.isLt
      by_cases hb : op.targetInBytes
      · simp only [hb, if_true]
        apply BitVec.eq_of_toNat_eq
        simp [Nat.shiftRight_eq_div_pow]
        omega
      · simp [hb]
    rw [Operand.read, operandText, Operand.readNumber_decimal]
    simp only [Except.map, hvalue]
    rfl
  | hint =>
    obtain ⟨hint, hknown⟩ := Option.isSome_iff_exists.1 (hhint rfl)
    rw [Operand.read_hint_of_known _ (readNumber_hintText op w) hknown, Operand.ofWord, if_pos rfl,
      hknown]
    rfl

/-- Operands print legal characters, and parentheses only around the base of an address. -/
theorem mem_operandText (op : Operation) (w : Word) (role : Role) :
    ∀ c ∈ op.operandText w role, isPlain c ∨ isParenthesis c ∧ role = .address := by
  intro c hc
  cases role with
  | rd | rs | rt => exact .inl (Register.isPlain_of_mem_name _ c hc)
  | shamt | funct | hint | target => exact .inl (isPlain_of_mem_decimal hc)
  | offset => exact .inl (isPlain_of_mem_signedDecimal hc)
  | address =>
    simp only [operandText] at hc
    split at hc
    · exact .inl (isPlain_of_mem_signedDecimal hc)
    · simp only [List.mem_append, List.mem_cons, List.not_mem_nil, or_false] at hc
      rcases hc with hc | rfl | hc | rfl
      · exact .inl (isPlain_of_mem_signedDecimal hc)
      · exact .inr ⟨rfl, rfl⟩
      · exact .inl (Register.isPlain_of_mem_name _ c hc)
      · exact .inr ⟨rfl, rfl⟩

theorem operandText_ne_nil (op : Operation) (w : Word) (role : Role) :
    op.operandText w role ≠ [] := by
  cases role with
  | rd | rs | rt => exact Register.name_ne_nil _
  | shamt | funct | hint | target => exact Nat.toDigits_ne_nil
  | offset => exact signedDecimal_ne_nil _
  | address =>
    simp only [operandText]
    split
    · exact signedDecimal_ne_nil _
    · simp

theorem isToken_operandText (op : Operation) (w : Word) (role : Role) :
    Mnemonic.IsToken (op.operandText w role) := by
  refine ⟨op.operandText_ne_nil w role, fun c hc ↦ ?_⟩
  rcases op.mem_operandText w role c hc with h | ⟨h, -⟩
  · exact isSolid_of_isPlain h
  · exact (legal_of_isParenthesis h).2

theorem view_eq_of_part_eq {n : Nat} {x y : BitVec n} (hn : n ≤ 32)
    (h : x.setWidth 32 = y.setWidth 32) : x = y := by
  have hcut := congrArg (BitVec.setWidth n) h
  simpa [hn] using hcut

/-- The text of an operand depends only on the fields of its role. -/
theorem operandText_congr (op : Operation) {a b : Word} {role : Role}
    (h : ∀ f ∈ role.fields, a.part f = b.part f) :
    op.operandText a role = op.operandText b role := by
  have himmediate (hi : a.part .immediate = b.part .immediate) :
      a.signedImmediate = b.signedImmediate :=
    congrArg BitVec.toInt (view_eq_of_part_eq (by omega) hi)
  cases role with
  | rd | rs | rt =>
    exact congrArg (fun x ↦ (Register.ofBits x).name)
      (view_eq_of_part_eq (by omega) (h _ (List.mem_singleton_self _)))
  | shamt | funct | hint =>
    exact congrArg (fun x ↦ decimal (BitVec.toNat x))
      (view_eq_of_part_eq (by omega) (h _ (List.mem_singleton_self _)))
  | target =>
    exact congrArg
      (fun x : BitVec 26 ↦ decimal (if op.targetInBytes then x.toNat * 4 else x.toNat))
      (view_eq_of_part_eq (by omega) (h _ (List.mem_singleton_self _)))
  | offset => exact congrArg signedDecimal (himmediate (h _ (List.mem_singleton_self _)))
  | address =>
    have hrs : a.rs = b.rs := view_eq_of_part_eq (by omega) (h .rs (by simp [Role.fields]))
    simp only [operandText, himmediate (h .immediate (by simp [Role.fields])), hrs]

theorem mnemonicOf_congr (op : Operation) {a b : Word}
    (h : ∀ f, op.shape.writes f → a.part f = b.part f) : op.mnemonicOf a = op.mnemonicOf b := by
  have hmap : op.roles.map (op.operandText a) = op.roles.map (op.operandText b) := by
    apply List.map_congr_left
    intro role hrole
    apply op.operandText_congr
    intro f hf
    exact h f (List.any_eq_true.2 ⟨role, hrole, decide_eq_true hf⟩)
  rw [mnemonicOf, hmap, mnemonicOf]

theorem hintOf?_eq (op : Operation) (w : Word) :
    op.hintOf? w = if .hint ∈ op.roles then Hint.ofValue? (w.part .rt) else none := rfl

theorem lastHint?_ofWord (bare : Bool) (roles : List Role) (w : Word) :
    Operand.lastHint? (roles.map (Operand.ofWord bare w)) =
      if .hint ∈ roles then Hint.ofValue? (w.part .rt) else none := by
  induction roles with
  | nil => rfl
  | cons role roles ih =>
    rw [List.map_cons, Operand.lastHint?_cons, ih, Operand.ofWord]
    by_cases hrole : role = .hint
    · subst hrole
      by_cases hmem : Role.hint ∈ roles <;> simp [hmem]
    · simp [hrole, Ne.symm hrole]

end Operation

end Mips32
