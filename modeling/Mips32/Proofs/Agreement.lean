import Mips32.InstructionSet.Standard
import Mips32.Mnemonic.Agreement
import Mips32.Proofs.Additions
import Mips32.Proofs.Assembly

namespace Mips32

open Text

theorem Register.agree_iff {a b : Text} :
    agree a b ↔ ∃ r, parse? a = some r ∧ parse? b = some r := by
  unfold agree
  cases parse? a <;> cases parse? b <;> simp [eq_comm]

theorem Register.head_of_parse? {t : Text} {r : Register} (h : parse? t = some r) : '$' ∈ t := by
  unfold parse? at h
  split at h
  · exact List.mem_cons_self
  · contradiction

theorem AddressText.hasParenthesis_of_based {t offset base : Text}
    (h : split? t = some ⟨offset, some base⟩) : hasParenthesis t := by
  by_cases hp : hasParenthesis t
  · exact hp
  · rw [split?_of_bare (Bool.eq_false_iff.2 hp)] at h
    simp at h

theorem AddressText.eq_of_based {t offset base : Text} (h : split? t = some ⟨offset, some base⟩)
    (ht : ∀ c ∈ t, isBlank c = false) : t = offset ++ '(' :: (base ++ [')']) := by
  obtain ⟨x, y, hsplit, -, -, rfl, rfl⟩ := split?_eq_based_iff.1 h
  rw [trim_of_solid ht] at hsplit
  subst hsplit
  have hx : trim x = x := trim_of_solid fun c hc ↦ ht c (by simp [hc])
  have hy : trim y = y := trim_of_solid fun c hc ↦ ht c (by simp [hc])
  rw [hx, hy]

namespace Mnemonic

theorem tokensAgree_cases {x y : Text} (h : tokensAgree x y) :
    x = y ∨ (∃ r, Register.parse? x = some r ∧ Register.parse? y = some r) ∨
      ∃ m n p q value, AddressText.split? x = some ⟨m, some p⟩ ∧
        AddressText.split? y = some ⟨n, some q⟩ ∧ offsetValue? m = some value ∧
        offsetValue? n = some value ∧
        (p = q ∨ ∃ r, Register.parse? p = some r ∧ Register.parse? q = some r) := by
  unfold tokensAgree at h
  split at h
  · next heq => exact .inl heq
  split at h
  · exact .inr (.inl (Register.agree_iff.1 h))
  unfold addressesAgree at h
  split at h
  · next m p n q hx hy =>
    split at h
    · next u v hm hn =>
      rw [Bool.and_eq_true, decide_eq_true_eq, Bool.or_eq_true, decide_eq_true_eq,
        Register.agree_iff] at h
      obtain ⟨rfl, hbase⟩ := h
      exact .inr (.inr ⟨m, n, p, q, u, hx, hy, hm, hn, hbase⟩)
    · contradiction
  · contradiction

theorem agree_iff {a b : Text} :
    agree a b ↔ List.Forall₂ (fun x y ↦ tokensAgree x y) (tokens a) (tokens b) := by
  rw [List.forall₂_iff_zip, agree, Bool.and_eq_true, decide_eq_true_eq, List.all_eq_true]
  refine and_congr_right fun _ ↦ ?_
  exact ⟨fun h _ _ hp ↦ h _ hp, fun h p hp ↦ h hp⟩

theorem exists_tokensAgree {a b y : Text} (h : agree a b) (hy : y ∈ tokens b) :
    ∃ x ∈ tokens a, tokensAgree x y := by
  have htokens := agree_iff.1 h
  generalize tokens a = as at htokens
  generalize tokens b = bs at htokens hy
  induction htokens with
  | nil => contradiction
  | @cons x z as bs hxz _ ih =>
    rcases List.mem_cons.1 hy with rfl | hy
    · exact ⟨x, List.mem_cons_self, hxz⟩
    · obtain ⟨x', hx', hagree⟩ := ih hy
      exact ⟨x', List.mem_cons_of_mem x hx', hagree⟩

theorem tokensAgree_iff_eq {x y : Text} (hx : ∀ c ∈ x, isNumeral c) : tokensAgree x y ↔ y = x := by
  refine ⟨fun h ↦ ?_, fun h ↦ by simp [tokensAgree, h]⟩
  rcases tokensAgree_cases h with heq | ⟨r, hr, -⟩ | ⟨m, n, p, q, value, hsplit, -⟩
  · exact heq.symm
  · have hdollar := hx '$' (Register.head_of_parse? hr)
    contradiction
  · have hbare := hasParenthesis_of_plain fun c hc ↦ isPlain_of_isNumeral (hx c hc)
    rw [AddressText.hasParenthesis_of_based hsplit] at hbare
    contradiction

theorem exists_tokens_of_agree {a b n : Text} {args : List Text} (h : agree a b)
    (ha : tokens a = n :: args) (hn : ∀ c ∈ n, c.isAlphanum) :
    ∃ others, tokens b = n :: others ∧
      List.Forall₂ (fun x y ↦ tokensAgree x y) args others := by
  have htokens := agree_iff.1 h
  rw [ha] at htokens
  obtain ⟨first, others, hfirst, hothers, heq⟩ := List.forall₂_cons_left_iff.1 htokens
  obtain rfl := (tokensAgree_iff_eq fun c hc ↦ isNumeral_of_isAlphanum (hn c hc)).1 hfirst
  exact ⟨others, heq, hothers⟩

theorem name_of_tokens {t n : Text} {args : List Text} (h : tokens t = n :: args)
    (hne : name t ≠ []) : name t = n := by
  rw [tokens_of_name_ne_nil hne] at h
  exact (List.cons.inj h).1

theorem hasParenthesis_of_tokensAgree {x y : Text} (h : tokensAgree x y)
    (hy : hasParenthesis y) : hasParenthesis x := by
  rcases tokensAgree_cases h with rfl | ⟨r, -, hr⟩ | ⟨m, n, p, q, value, hsplit, -⟩
  · exact hy
  · rw [hasParenthesis_of_plain (Register.isPlain_of_parse? hr)] at hy
    contradiction
  · exact AddressText.hasParenthesis_of_based hsplit

theorem isNumeral_of_offsetValue? {t : Text} {value : Word} (h : offsetValue? t = some value) :
    ∀ c ∈ trim t, isNumeral c := by
  unfold offsetValue? at h
  split at h
  · next hempty =>
    obtain rfl := List.isEmpty_iff.1 hempty
    intro c hc
    exact absurd (mem_of_mem_trim hc) List.not_mem_nil
  · cases hparse : Literal.parse t with
    | error e => simp [hparse, Except.toOption] at h
    | ok v => exact Literal.isNumeral_of_parse hparse

theorem not_isRegisterLike_of_based {t offset base : Text} {value : Word}
    (h : AddressText.split? t = some ⟨offset, some base⟩)
    (hvalue : offsetValue? offset = some value) : isRegisterLike t = false := by
  obtain ⟨x, y, hsplit, -, -, rfl, rfl⟩ := AddressText.split?_eq_based_iff.1 h
  rw [isRegisterLike, decide_eq_false_iff_not]
  intro hhead
  have htrim : (trim t).head? = some '$' := by
    rw [head?_trim, hhead]
    rw [hhead]
    simp [show isBlank '$' = false by decide]
  have hmem : '$' ∈ x := by
    rw [hsplit] at htrim
    cases x with
    | nil => simp at htrim
    | cons c x => simp_all
  have hdollar := isNumeral_of_offsetValue? hvalue '$'
    ((mem_trim_iff (by decide)).2 ((mem_trim_iff (by decide)).2 hmem))
  contradiction

theorem tokensAgree_iff {x y : Text} : tokensAgree x y ↔
    x = y ∨ (∃ r, Register.parse? x = some r ∧ Register.parse? y = some r) ∨
      ∃ m n p q value, AddressText.split? x = some ⟨m, some p⟩ ∧
        AddressText.split? y = some ⟨n, some q⟩ ∧ offsetValue? m = some value ∧
        offsetValue? n = some value ∧
        (p = q ∨ ∃ r, Register.parse? p = some r ∧ Register.parse? q = some r) := by
  refine ⟨tokensAgree_cases, ?_⟩
  rintro (heq | ⟨r, hx, hy⟩ | ⟨m, n, p, q, value, hx, hy, hm, hn, hbase⟩)
  · simp [tokensAgree, heq]
  · have hlike : isRegisterLike x := by
      unfold Register.parse? at hx
      split at hx
      · rfl
      · contradiction
    simp [tokensAgree, hlike, Register.agree_iff.2 ⟨r, hx, hy⟩]
  · have hagree : addressesAgree x y := by
      simp [addressesAgree, hx, hy, hm, hn, hbase, Register.agree_iff]
    simp [tokensAgree, not_isRegisterLike_of_based hx hm, not_isRegisterLike_of_based hy hn, hagree]

theorem isLegal_of_tokensAgree {x y : Text} (h : tokensAgree x y) (hx : ∀ c ∈ x, isLegal c)
    (hxb : ∀ c ∈ x, isBlank c = false) (hyb : ∀ c ∈ y, isBlank c = false) :
    ∀ c ∈ y, isLegal c := by
  rcases tokensAgree_cases h with rfl | ⟨r, -, hr⟩ | ⟨m, n, p, q, value, hxs, hys, -, hn, hbase⟩
  · exact hx
  · exact fun c hc ↦ isLegal_of_isPlain (Register.isPlain_of_parse? hr c hc)
  have hxe := AddressText.eq_of_based hxs hxb
  have hye := AddressText.eq_of_based hys hyb
  have hoffset : ∀ c ∈ n, isLegal c := by
    intro c hc
    have htrim : trim n = n := trim_of_solid fun d hd ↦ hyb d (by simp [hye, hd])
    have hnumeral := isNumeral_of_offsetValue? hn c (htrim.symm ▸ hc)
    exact isLegal_of_isPlain (isPlain_of_isNumeral hnumeral)
  have hbase' : ∀ c ∈ q, isLegal c := by
    intro c hc
    rcases hbase with rfl | ⟨r, -, hr⟩
    · exact hx c (by simp [hxe, hc])
    · exact isLegal_of_isPlain (Register.isPlain_of_parse? hr c hc)
  intro c hc
  rw [hye] at hc
  simp only [List.mem_append, List.mem_cons, List.not_mem_nil, or_false] at hc
  rcases hc with hc | rfl | hc | rfl
  · exact hoffset c hc
  · decide
  · exact hbase' c hc
  · decide

/-- In a text that agrees with a legal one only blanks other than spaces can be illegal. -/
theorem isBlank_of_agree {a b : Text} (h : agree a b) (ha : ∀ c ∈ a, isLegal c) :
    ∀ c ∈ b, ¬isLegal c → isBlank c ∧ c ≠ ' ' := by
  intro c hc hillegal
  have hcomma : c ≠ ',' := by
    rintro rfl
    exact hillegal (by decide)
  have hspace : c ≠ ' ' := by
    rintro rfl
    exact hillegal (by decide)
  by_cases hblank : isBlank c
  · exact ⟨hblank, hspace⟩
  have hsolid : isSolid c := isSolid_iff.2 ⟨Bool.eq_false_iff.2 hblank, hcomma⟩
  have hmem : c ∈ (tokens b).flatten := by
    rw [flatten_tokens]
    exact List.mem_filter.2 ⟨hc, hsolid⟩
  obtain ⟨y, hy, hcy⟩ := List.mem_flatten.1 hmem
  obtain ⟨x, hx, hxy⟩ := exists_tokensAgree h hy
  refine absurd (isLegal_of_tokensAgree hxy ?_ ?_ ?_ c hcy) hillegal
  · exact fun d hd ↦ ha d (isSolid_of_mem_token hx hd).1
  · exact fun d hd ↦ isBlank_of_isSolid (isSolid_of_mem_token hx hd).2
  · exact fun d hd ↦ isBlank_of_isSolid (isSolid_of_mem_token hy hd).2

theorem checkCharacters_cases {t : Text} (h : ∀ c ∈ t, ¬isLegal c → isBlank c ∧ c ≠ ' ') :
    checkCharacters t = .ok () ∨ ∃ cs, checkCharacters t = .error (.illegalCharacters cs) ∧
      cs ≠ [] ∧ ∀ c ∈ cs, isBlank c ∧ c ≠ ' ' := by
  by_cases hlegal : ∀ c ∈ t, isLegal c
  · exact .inl (checkCharacters_of_legal hlegal)
  · refine .inr ⟨_, checkCharacters_of_illegal hlegal, ?_, ?_⟩
    · intro hnil
      rw [List.filter_eq_nil_iff] at hnil
      exact hlegal fun c hc ↦ by simpa using hnil c hc
    · intro c hc
      obtain ⟨hmem, hillegal⟩ := List.mem_filter.1 hc
      exact h c hmem (by simpa using hillegal)

end Mnemonic

namespace Operand

open Mnemonic

variable {targetInBytes : Bool} {role : Role} {operand : Operand}

theorem readRegister_of_parse? {t : Text} {r : Register} (h : Register.parse? t = some r) :
    readRegister t = .ok (BitVec.ofNat 32 r.index) := by
  rw [readRegister, h]

theorem readRegister_eq_ok_iff {t : Text} {n : Word} : readRegister t = .ok n ↔
    ∃ r, Register.parse? t = some r ∧ n = BitVec.ofNat 32 r.index := by
  unfold readRegister
  split
  · next r hr => simp [hr, eq_comm]
  · next hr => simp [hr]

theorem readNumber_of_register {t : Text} {r : Register} (h : Register.parse? t = some r)
    (n : Word) : readNumber t ≠ .ok n := by
  intro hn
  have hplain := Register.isPlain_of_parse? h
  have htrim : trim t = t := trim_of_solid fun c hc ↦ isBlank_of_isPlain (hplain c hc)
  have hdollar := Literal.mem_of_parse (mapError_eq_ok_iff.1 hn) '$'
    (htrim.symm ▸ Register.head_of_parse? h)
  revert hdollar
  decide

theorem readAddress_of_register {t : Text} {r : Register} (h : Register.parse? t = some r)
    (a : Word × Word) : readAddress t ≠ .ok a := by
  intro ha
  have hplain := Register.isPlain_of_parse? h
  have htrim : trim t = t := trim_of_solid fun c hc ↦ isBlank_of_isPlain (hplain c hc)
  rw [readAddress, AddressText.split?_of_bare (hasParenthesis_of_plain hplain), htrim] at ha
  obtain ⟨n, hn, -⟩ := map_eq_ok_iff.1 ha
  exact readNumber_of_register h n hn

theorem readOffset_eq_ok_iff {offset : Text} {n : Word} :
    (if offset.isEmpty then .ok 0#32 else readNumber offset) = .ok n ↔
      offsetValue? offset = some n := by
  unfold offsetValue?
  split
  · simp
  · rw [readNumber, mapError_eq_ok_iff]
    cases Literal.parse offset <;> simp [Except.toOption]

theorem offsetValue?_of_readNumber {t : Text} {n : Word} (h : readNumber t = .ok n) :
    offsetValue? t = some n := by
  apply readOffset_eq_ok_iff.1
  cases t with
  | nil => contradiction
  | cons c t => exact h

theorem exists_split_of_readAddress {t : Text} {a : Word × Word} (h : readAddress t = .ok a) :
    ∃ offset base, AddressText.split? t = some ⟨offset, base⟩ ∧ offsetValue? offset = some a.1 ∧
      match base with
      | none => a.2 = 0#32
      | some b => readRegister b = .ok a.2 := by
  cases hsplit : AddressText.split? t with
  | none => simp [readAddress, hsplit] at h
  | some address =>
    obtain ⟨offset, base | base⟩ := address
    · simp only [readAddress, hsplit] at h
      obtain ⟨n, hn, rfl⟩ := map_eq_ok_iff.1 h
      exact ⟨offset, none, rfl, offsetValue?_of_readNumber hn, rfl⟩
    · rw [readAddress_of_split hsplit] at h
      obtain ⟨n, hn, h⟩ := bind_eq_ok_iff.1 h
      obtain ⟨b, hb, rfl⟩ := map_eq_ok_iff.1 h
      exact ⟨offset, some base, rfl, readOffset_eq_ok_iff.1 hn, hb⟩

theorem readAddress_of_based {t offset base : Text} {value : Word}
    (h : AddressText.split? t = some ⟨offset, some base⟩)
    (hvalue : offsetValue? offset = some value) :
    readAddress t = (readRegister base).map fun b ↦ (value, b) := by
  rw [readAddress_of_split h, readOffset_eq_ok_iff.2 hvalue]
  rfl

theorem read_of_register {x y : Text} {r : Register} (hx : Register.parse? x = some r)
    (hy : Register.parse? y = some r) (h : read targetInBytes role x = .ok operand) :
    read targetInBytes role y = .ok operand := by
  have hregister : readRegister x = readRegister y := by
    rw [readRegister_of_parse? hx, readRegister_of_parse? hy]
  cases role with
  | rd | rs | rt => exact (congrArg (Except.map _) hregister).symm.trans h
  | shamt | funct | offset | target =>
    obtain ⟨n, hn, -⟩ := map_eq_ok_iff.1 h
    exact absurd hn (readNumber_of_register hx n)
  | hint =>
    obtain ⟨n, hn, -⟩ := bind_eq_ok_iff.1 h
    exact absurd hn (readNumber_of_register hx n)
  | address =>
    obtain ⟨a, ha, -⟩ := map_eq_ok_iff.1 h
    exact absurd ha (readAddress_of_register hx a)

theorem read_of_tokensAgree {x y : Text} (hagree : tokensAgree x y)
    (hplaced : hasParenthesis x → role = .address) (h : read targetInBytes role x = .ok operand) :
    read targetInBytes role y = .ok operand := by
  rcases tokensAgree_cases hagree with
    rfl | ⟨r, hx, hy⟩ | ⟨m, n, p, q, value, hx, hy, hm, hn, hbase⟩
  · exact h
  · exact read_of_register hx hy h
  · obtain rfl := hplaced (AddressText.hasParenthesis_of_based hx)
    have hregister : readRegister p = readRegister q := by
      rcases hbase with rfl | ⟨r, hp, hq⟩
      · rfl
      · rw [readRegister_of_parse? hp, readRegister_of_parse? hq]
    rw [read, readAddress_of_based hx hm, hregister] at h
    rw [read, readAddress_of_based hy hn, h]

theorem readAll_of_agree {roles : List Role} {as bs : List Text} {operands : List Operand}
    (hagree : List.Forall₂ (fun x y ↦ tokensAgree x y) as bs) (hplaced : Placed roles as)
    (h : readAll targetInBytes roles as = .ok operands) :
    Placed roles bs ∧ readAll targetInBytes roles bs = .ok operands := by
  induction hplaced generalizing bs operands with
  | nil =>
    obtain rfl : bs = [] := List.forall₂_nil_left_iff.1 hagree
    exact ⟨.nil, h⟩
  | @cons role x roles as hrole _ ih =>
    obtain ⟨y, bs, hxy, hbs, rfl⟩ := List.forall₂_cons_left_iff.1 hagree
    obtain ⟨o, os, ho, hos, rfl⟩ := readAll_cons_eq_ok_iff.1 h
    obtain ⟨hplaced, hread⟩ := ih hbs hos
    refine ⟨.cons (fun hy ↦ hrole (hasParenthesis_of_tokensAgree hxy hy)) hplaced, ?_⟩
    exact readAll_cons_eq_ok_iff.2 ⟨o, os, read_of_tokensAgree hxy hrole ho, hread, rfl⟩

end Operand

namespace InstructionSet

open Mnemonic

theorem named?_nil {set : InstructionSet} (hset : set.WellFormed)
    (hnames : ∀ op ∈ set.operations, op.name ≠ []) : set.named? [] = none := by
  apply Option.eq_none_iff_forall_ne_some.2
  intro op hop
  obtain ⟨hmem, hname⟩ := hset.named?_eq_some_iff.1 hop
  exact hnames op hmem hname

/-- A text that agrees with one that assembles gives the same instruction, unless it has
blanks other than spaces, another number of commas or no name at its start. -/
theorem assemble_of_agree {ops : List Operation}
    (hnames : ∀ op ∈ (ofList ops).operations, op.name ≠ []) {a b : Text} {i : Instruction}
    (hagree : agree a b) (h : (ofList ops).assemble a = .ok i) :
    (∃ j, (ofList ops).assemble b = .ok j ∧ j.operation = i.operation ∧ j.word = i.word ∧
      j.hint = i.hint) ∨
    (∃ cs, (ofList ops).assemble b = .error (.malformed b (.illegalCharacters cs)) ∧ cs ≠ [] ∧
      ∀ c ∈ cs, isBlank c ∧ c ≠ ' ') ∨
    ((ofList ops).assemble b =
        .error (.malformed b (.commaCount i.operation.shape.commaCount (countCommas b))) ∧
      countCommas b ≠ i.operation.shape.commaCount) ∨
    (ofList ops).assemble b = .error (.unknownInstruction []) ∧ name b = [] := by
  have hset := wellFormed_ofList ops
  obtain ⟨op, hnamed, hop⟩ := exists_named_of_assemble h
  have hname := (hset.named?_eq_some_iff.1 hnamed).2
  obtain ⟨arguments, operands, hwritten, hread, rfl⟩ := Operation.exists_written_of_assemble hop
  have hcharacters := checkCharacters_cases (isBlank_of_agree hagree hwritten.legal)
  obtain ⟨others, htokens, hothers⟩ := exists_tokens_of_agree hagree hwritten.tokens
    fun c hc ↦ isAlphanum_of_mem_name (hname ▸ hc)
  by_cases hempty : name b = []
  · -- the first token of `b` is an argument, so that no operation is looked up
    have hblank : ¬∀ c ∈ b, isBlank c := by
      intro hblank
      rw [tokens_of_blank hblank] at htokens
      contradiction
    rw [assemble_of_unnamed (hempty ▸ named?_nil hset hnames) hblank]
    rcases hcharacters with hlegal | ⟨cs, hillegal, hcs⟩
    · rw [hlegal, hempty]
      exact .inr (.inr (.inr ⟨rfl, rfl⟩))
    · rw [hillegal]
      exact .inr (.inl ⟨cs, rfl, hcs⟩)
  · have hnamedb : (ofList ops).named? (name b) = some op := by
      rw [name_of_tokens htokens hempty, hname, hnamed]
    obtain ⟨hplaced, hreadb⟩ := Operand.readAll_of_agree hothers hwritten.placed hread
    rw [assemble_of_named hnamedb, Operation.assemble_eq htokens hwritten.name_bare hplaced,
      Operation.assembleTokens_eq, hreadb]
    rcases hcharacters with hlegal | ⟨cs, hillegal, hcs⟩
    · rw [hlegal]
      by_cases hcommas : countCommas b = op.shape.commaCount
      · exact .inl ⟨op.withOperands others operands, if_neg (not_not_intro hcommas), rfl, rfl, rfl⟩
      · exact .inr (.inr (.inl ⟨if_pos hcommas, hcommas⟩))
    · rw [hillegal]
      exact .inr (.inl ⟨cs, rfl, hcs⟩)

theorem assemble_load_spellings :
    ∃ ops i j, (∀ op ∈ (ofList ops).operations, op.name ≠ []) ∧
      agree "lw $t1, 0x10($sp)".toList "lw $9, 16 ($29)".toList ∧
      (ofList ops).assemble "lw $t1, 0x10($sp)".toList = .ok i ∧
      (ofList ops).assemble "lw $9, 16 ($29)".toList = .ok j ∧
      j.operation = i.operation ∧ j.word = i.word ∧ j.hint = i.hint := by
  let op : Operation := Standard.immediate "lw" 0x23 Standard.rtAddress none "" "" 0#32
  have hops : (ofList [op]).operations.toList = [op] := operations_ofList (by decide) (by decide)
  have hmem (o : Operation) : o ∈ (ofList [op]).operations ↔ o = op := by
    rw [← Array.mem_toList_iff, hops, List.mem_singleton]
  have hassemble (t : Text) (ht : name t = op.name) : (ofList [op]).assemble t = op.assemble t :=
    assemble_of_named ((wellFormed_ofList [op]).named?_eq_some_iff.2 ⟨(hmem op).2 rfl, ht.symm⟩)
  have hnames : ∀ o ∈ (ofList [op]).operations, o.name ≠ [] := by
    intro o ho
    rw [(hmem o).1 ho]
    decide
  have hagree : agree "lw $t1, 0x10($sp)".toList "lw $9, 16 ($29)".toList := by decide
  obtain ⟨i, hi⟩ : ∃ i, op.assemble "lw $t1, 0x10($sp)".toList = .ok i := ⟨_, rfl⟩
  obtain ⟨k, hk⟩ : ∃ k, op.assemble "lw $9, 16 ($29)".toList = .ok k := ⟨_, rfl⟩
  rw [← hassemble _ rfl] at hi hk
  rcases assemble_of_agree hnames hagree hi with ⟨j, hj⟩ | ⟨cs, hcs, -⟩ | ⟨hcommas, -⟩ | ⟨hname, -⟩
  · exact ⟨[op], i, j, hnames, hagree, hi, hj⟩
  · rw [hk] at hcs
    contradiction
  · rw [hk] at hcommas
    contradiction
  · rw [hk] at hname
    contradiction

end InstructionSet

end Mips32
