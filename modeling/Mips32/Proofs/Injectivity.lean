import Mips32.Proofs.RoundTrip

namespace Mips32

open Text

theorem Text.hexadecimal_inj {m n : Nat} (hm : m < 2 ^ 32) (hn : n < 2 ^ 32)
    (h : hexadecimal m = hexadecimal n) : m = n := by
  have hparse := Literal.parse_hexadecimal m
  rw [h, Literal.parse_hexadecimal] at hparse
  have hnat := congrArg BitVec.toNat (Except.ok.inj hparse)
  simp only [BitVec.toNat_ofNat] at hnat
  omega

theorem Field.name_inj {f g : Field} (h : f.name = g.name) : f = g := by
  have hname := ofName?_name f
  rw [h, ofName?_name] at hname
  exact (Option.some.inj hname).symm

namespace Violation

theorem toList_message_nonzeroField (f : Field) (n : Nat) :
    (nonzeroField f n).message.toList = "Expected ".toList ++
      (f.name.toList ++ ' ' :: ("to be zero. Got ".toList ++ Nat.toDigits 10 n)) := by
  have happend : (nonzeroField f n).message =
      "Expected " ++ f.name ++ " to be zero. Got " ++ toString n := rfl
  have hdigits : (toString n).toList = Nat.toDigits 10 n := by
    rw [Nat.toString_eq_ofList_toDigits, String.toList_ofList]
  rw [happend, String.toList_append, String.toList_append, String.toList_append, hdigits,
    List.append_assoc, List.append_assoc]
  rfl

theorem message_nonzeroField_inj {f g : Field} {m n : Nat}
    (h : (nonzeroField f m).message = (nonzeroField g n).message) : f = g ∧ m = n := by
  have hlist := congrArg String.toList h
  rw [toList_message_nonzeroField, toList_message_nonzeroField] at hlist
  have hrest := List.append_cancel_left hlist
  have hname (f : Field) (rest : Text) :
      (f.name.toList ++ ' ' :: rest).takeWhile (· ≠ ' ') = f.name.toList := by
    cases f <;> rfl
  have hnames := congrArg (List.takeWhile (· ≠ ' ')) hrest
  rw [hname, hname] at hnames
  obtain rfl := Field.name_inj (String.toList_inj.1 hnames)
  have hdigits := List.append_cancel_left (List.cons.inj (List.append_cancel_left hrest)).2
  refine ⟨rfl, ?_⟩
  rw [← Nat.ofDigitChars_ten_toDigits (n := m), hdigits, Nat.ofDigitChars_ten_toDigits]

theorem message_nonzeroCode_inj {m n : Nat} (hm : m < 2 ^ 32) (hn : n < 2 ^ 32)
    (h : (nonzeroCode m).message = (nonzeroCode n).message) : m = n := by
  have happend (k : Nat) : (nonzeroCode k).message =
      "Expected code to be zero below the opcode. Got " ++ String.ofList (hexadecimal k) := rfl
  have hlist := congrArg String.toList h
  rw [happend, happend, String.toList_append, String.toList_append] at hlist
  have hdigits := congrArg String.ofList (List.append_cancel_left hlist)
  rw [String.ofList_toList, String.ofList_toList] at hdigits
  exact hexadecimal_inj hm hn (String.ofList_injective hdigits)

end Violation

namespace Operation

variable {op : Operation} {a b : Word}

theorem part_eq_of_operandText {role : Role} (haddress : role = .address → op.bareAddress = false)
    (h : op.operandText a role = op.operandText b role) {f : Field} (hf : f ∈ role.fields) :
    a.part f = b.part f := by
  by_cases hhint : role = .hint
  · subst hhint
    obtain rfl := List.mem_singleton.1 hf
    have hread := readNumber_hintText op a
    rw [h, readNumber_hintText] at hread
    exact (Except.ok.inj hread).symm
  · have hbased : ¬(role = .address ∧ f = .rs ∧ op.bareAddress) := by
      rintro ⟨hrole, -, hbare⟩
      rw [haddress hrole] at hbare
      contradiction
    have hread := op.read_operandText a (absurd · hhint)
    rw [h, op.read_operandText b (absurd · hhint)] at hread
    have hwrites := congrArg Operand.writes (Except.ok.inj hread)
    have hwritten : b.written op.bareAddress role f = a.written op.bareAddress role f :=
      (Prod.mk.inj (List.map_inj_left.1 hwrites f hf)).2
    rw [← Field.cut_written f a hbased, ← hwritten, Field.cut_written f b hbased]

theorem Legible.tokens_mnemonicOf (h : op.Legible) (w : Word) :
    Mnemonic.tokens (op.mnemonicOf w) = op.name :: op.roles.map (op.operandText w) :=
  (h.written_mnemonicOf w).tokens

theorem Legible.part_eq_of_mnemonicOf (h : op.Legible) (hm : op.mnemonicOf a = op.mnemonicOf b)
    {f : Field} (hf : op.shape.writes f) : a.part f = b.part f := by
  have htokens := h.tokens_mnemonicOf a
  rw [hm, h.tokens_mnemonicOf] at htokens
  obtain ⟨role, hrole, hfield⟩ := List.any_eq_true.1 hf
  have htext := List.map_inj_left.1 (List.cons.inj htokens).2 role hrole
  exact part_eq_of_operandText (fun ha ↦ h.bareAddress (ha ▸ hrole)) htext.symm
    (of_decide_eq_true hfield)

theorem Legible.part_eq_of_not_spare (h : op.Legible) (hexit : op.format ≠ .exit)
    (ha : op.Identifies a) (hb : op.Identifies b) (hm : op.mnemonicOf a = op.mnemonicOf b)
    {f : Field} (hhas : op.format.has f) (hf : f ∉ op.spare) : a.part f = b.part f := by
  rcases field_cases hexit hhas with hwrites | rfl | ⟨d, hd, rfl⟩ | hspare
  · exact h.part_eq_of_mnemonicOf hm hwrites
  · exact ha.1.trans hb.1.symm
  · exact (ha.2 d hd).trans (hb.2 d hd).symm
  · exact absurd hspare hf

theorem Legible.eq_of_spare (h : op.Legible) (ha : op.Identifies a) (hb : op.Identifies b)
    (hm : op.mnemonicOf a = op.mnemonicOf b) (hspare : ∀ f ∈ op.spare, a.part f = b.part f) :
    a = b := by
  by_cases hexit : op.format = .exit
  · refine Word.eq_iff_opcode_target.2 ⟨ha.1.trans hb.1.symm, hspare .target ?_⟩
    rw [spare, if_pos hexit]
    exact List.mem_singleton_self _
  · apply Format.word_ext
    intro f hhas
    by_cases hf : f ∈ op.spare
    · exact hspare f hf
    · exact h.part_eq_of_not_spare hexit ha hb hm hhas hf

theorem mem_violations_of_r (hr : op.format = .r) {w : Word} {v : Violation} :
    v ∈ op.violations w ↔ ∃ e ∈ implicitZeroes, op.shape.writes e.1 = false ∧ e.2 w ≠ 0#5 ∧
      v = .nonzeroField e.1 (e.2 w).toNat := by
  simp only [violations, hr, List.mem_filterMap]
  refine exists_congr fun e ↦ and_congr_right fun _ ↦ ?_
  by_cases hwrites : op.shape.writes e.1 <;> by_cases hzero : e.2 w = 0#5 <;>
    simp [hwrites, hzero, eq_comm]

theorem eq_of_message {e : Field × (Word → BitVec 5)} (hr : op.format = .r)
    (h : (op.violations a).map Violation.message = (op.violations b).map Violation.message)
    (he : e ∈ implicitZeroes) (hwrites : op.shape.writes e.1 = false) (hne : e.2 a ≠ 0#5) :
    e.2 a = e.2 b := by
  have hmem : Violation.nonzeroField e.1 (e.2 a).toNat ∈ op.violations a :=
    (mem_violations_of_r hr).2 ⟨e, he, hwrites, hne, rfl⟩
  have hmessage : (Violation.nonzeroField e.1 (e.2 a).toNat).message ∈
      (op.violations b).map Violation.message := h ▸ List.mem_map_of_mem hmem
  obtain ⟨v, hv, heq⟩ := List.mem_map.1 hmessage
  obtain ⟨d, hd, -, -, rfl⟩ := (mem_violations_of_r hr).1 hv
  obtain ⟨hfield, hvalue⟩ := Violation.message_nonzeroField_inj heq
  have hdistinct : (implicitZeroes.map Prod.fst).Nodup := by decide
  obtain rfl := List.inj_on_of_nodup_map hdistinct hd he hfield
  exact BitVec.eq_of_toNat_eq hvalue.symm

/-- The messages of an R-format word determine the fields that no operand writes. -/
theorem part_eq_of_messages_of_r (hr : op.format = .r)
    (h : (op.violations a).map Violation.message = (op.violations b).map Violation.message)
    {f : Field} (hf : f ∈ implicitZeroes.map Prod.fst) (hwrites : op.shape.writes f = false) :
    a.part f = b.part f := by
  obtain ⟨e, he, rfl⟩ := List.mem_map.1 hf
  have hpart (w : Word) : w.part e.1 = (e.2 w).setWidth 32 := by
    have hparts : ∀ e ∈ implicitZeroes, w.part e.1 = (e.2 w).setWidth 32 := by
      simp [implicitZeroes, Word.part]
    exact hparts e he
  have heq : e.2 a = e.2 b := by
    by_cases ha : e.2 a = 0#5
    · by_cases hb : e.2 b = 0#5
      · rw [ha, hb]
      · exact (eq_of_message hr h.symm he hwrites hb).symm
    · exact eq_of_message hr h he hwrites ha
  rw [hpart, hpart, heq]

theorem target_eq_of_messages_of_exit (hexit : op.format = .exit)
    (h : (op.violations a).map Violation.message = (op.violations b).map Violation.message) :
    a.target = b.target := by
  have hviolations (w : Word) : op.violations w =
      if w.target = 0#26 then [] else [.nonzeroCode w.target.toNat] := by
    rw [violations, hexit]
  rw [hviolations, hviolations] at h
  by_cases ha : a.target = 0#26 <;> by_cases hb : b.target = 0#26
  · rw [ha, hb]
  · simp [ha, hb] at h
  · simp [ha, hb] at h
  · rw [if_neg ha, if_neg hb, List.map_singleton, List.map_singleton] at h
    have ha' := a.target.isLt
    have hb' := b.target.isLt
    exact BitVec.eq_of_toNat_eq
      (Violation.message_nonzeroCode_inj (by omega) (by omega) (List.singleton_inj.1 h))

theorem violations_disassemble (op : Operation) (w : Word) :
    (op.disassemble w).violations = op.violations w := by
  unfold disassemble
  split <;> simp_all [Disassembly.violations]

end Operation

/-- Words that a mask makes equal have the same fields but for the one that it clears. -/
theorem Word.and_mask_eq_iff {a b mask : Word} {f : Field} (hmask : ∀ g, Format.i.has g →
    mask.part g = if g = f then 0#32 else Word.ones g.range.width) :
    a &&& mask = b &&& mask ↔ ∀ g, Format.i.has g → g ≠ f → a.part g = b.part g := by
  constructor
  · intro h g hg hne
    have hpart := congrArg (Word.part · g) h
    simp only [Word.part_and, hmask g hg, if_neg hne] at hpart
    exact ((g.cut_part a).symm.trans hpart).trans (g.cut_part b)
  · intro h
    have hparts : ∀ g, Format.i.has g → Word.part (a &&& mask) g = Word.part (b &&& mask) g := by
      intro g hg
      rw [Word.part_and, Word.part_and, hmask g hg]
      by_cases hne : g = f
      · simp [hne]
      · rw [h g hg hne]
    exact Format.word_ext hparts

namespace Operation

variable {op : Operation} {a b : Word}

theorem Legible.mnemonicOf_eq_iff_of_spare (h : op.Legible) (hi : op.format = .i)
    (ha : op.Identifies a) (hb : op.Identifies b) {f : Field} (hspare : op.spare = [f])
    {mask : Word} (hmask : ∀ g, Format.i.has g →
      mask.part g = if g = f then 0#32 else Word.ones g.range.width) :
    op.mnemonicOf a = op.mnemonicOf b ↔ a &&& mask = b &&& mask := by
  have hexit : op.format ≠ .exit := by rw [hi]; decide
  rw [Word.and_mask_eq_iff hmask]
  constructor
  · intro hm g hg hne
    exact h.part_eq_of_not_spare hexit ha hb hm (hi ▸ hg) (by simp [hspare, hne])
  · intro hparts
    apply op.mnemonicOf_congr
    intro g hwrites
    have hhas : op.format.has g := op.shape.has_of_writes hwrites
    refine hparts g (hi ▸ hhas) ?_
    rintro rfl
    have hspared : g ∈ op.spare := by simp [hspare]
    rw [((mem_spare hexit).1 hspared).2.1] at hwrites
    contradiction

end Operation

namespace InstructionSet

variable {a b : Word} {op : Operation}

/-- Outside the I format nothing is lost between the text and the messages. -/
theorem eq_of_find?_of_messages (ha : standard.find? a = some op) (hb : standard.find? b = some op)
    (hi : op.format ≠ .i) (hm : op.mnemonicOf a = op.mnemonicOf b)
    (hv : (op.violations a).map Violation.message = (op.violations b).map Violation.message) :
    a = b := by
  have hentry := entry_of_find? ha
  by_cases hname : op.name = nopName
  · rw [eq_zero_of_find?_nop ha hname, eq_zero_of_find?_nop hb hname]
  refine hentry.legible.eq_of_spare (identifies_of_find? ha) (identifies_of_find? hb) hm ?_
  intro f hf
  cases hformat : op.format with
  | i => contradiction
  | r =>
    obtain ⟨hrt, hfunct⟩ := hentry.spare_r hformat
    have hne : f ≠ .funct := fun h ↦ hfunct hname (h ▸ hf)
    obtain ⟨hmem, hwrites⟩ := (Operation.mem_spare_of_r hformat hrt).1 ⟨hf, hne⟩
    exact Operation.part_eq_of_messages_of_r hformat hv hmem hwrites
  | j =>
    rw [hentry.spare_j hformat] at hf
    contradiction
  | exit =>
    rw [Operation.spare, if_pos hformat, List.mem_singleton] at hf
    rw [hf, Word.part, Word.part, Operation.target_eq_of_messages_of_exit hformat hv]

theorem mnemonicOf_eq_iff_of_find? (ha : standard.find? a = some op)
    (hb : standard.find? b = some op) (hi : op.format = .i) :
    op.mnemonicOf a = op.mnemonicOf b ↔ a = b ∨
      (op.name ∈ ["blez".toList, "bgtz".toList, "blezl".toList, "bgtzl".toList] ∧
          a &&& 0xffe0ffff#32 = b &&& 0xffe0ffff#32 ∨
        op.name = "lui".toList ∧ a &&& 0xfc1fffff#32 = b &&& 0xfc1fffff#32) := by
  have hentry := entry_of_find? ha
  have hspare := hentry.spare_i hi
  have hida := identifies_of_find? ha
  have hidb := identifies_of_find? hb
  by_cases hbranch : op.name ∈ ["blez".toList, "bgtz".toList, "blezl".toList, "bgtzl".toList]
  · rw [if_pos hbranch] at hspare
    rw [hentry.legible.mnemonicOf_eq_iff_of_spare hi hida hidb hspare fun g ↦ Word.part_mask_rt]
    constructor
    · exact fun h ↦ .inr (.inl ⟨hbranch, h⟩)
    · rintro (rfl | ⟨-, h⟩ | ⟨hlui, -⟩)
      · rfl
      · exact h
      · rw [hlui] at hbranch
        exact absurd hbranch (by decide)
  rw [if_neg hbranch] at hspare
  by_cases hlui : op.name = "lui".toList
  · rw [if_pos hlui] at hspare
    rw [hentry.legible.mnemonicOf_eq_iff_of_spare hi hida hidb hspare fun g ↦ Word.part_mask_rs]
    constructor
    · exact fun h ↦ .inr (.inr ⟨hlui, h⟩)
    · rintro (rfl | ⟨h, -⟩ | ⟨-, h⟩)
      · rfl
      · exact absurd h hbranch
      · exact h
  · rw [if_neg hlui] at hspare
    simp only [hbranch, hlui, false_and, or_false]
    refine ⟨fun hm ↦ hentry.legible.eq_of_spare hida hidb hm ?_, fun h ↦ h ▸ rfl⟩
    simp [hspare]

theorem eq_of_mnemonicOf {op' : Operation} (ha : standard.find? a = some op)
    (hb : standard.find? b = some op') (hm : op.mnemonicOf a = op'.mnemonicOf b) : op = op' := by
  have htokens := (entry_of_find? ha).legible.tokens_mnemonicOf a
  rw [hm, (entry_of_find? hb).legible.tokens_mnemonicOf] at htokens
  exact wellFormed_standard.eq_of_name (wellFormed_standard.mem_of_find? ha)
    (wellFormed_standard.mem_of_find? hb) (List.cons.inj htokens).1.symm

/-- A disassembly loses no bits but `rt` of four branches and `rs` of `lui`: two words have one
text and one list of messages iff they differ at most there. -/
theorem mnemonic_and_messages_eq_iff {d d' : Instruction}
    (ha : (standard.disassemble a).instruction? = some d)
    (hb : (standard.disassemble b).instruction? = some d') :
    (d.mnemonic = d'.mnemonic ∧
        (standard.disassemble a).violations.map Violation.message =
          (standard.disassemble b).violations.map Violation.message ↔
      a = b ∨ d.operation = d'.operation ∧ d.format = .i ∧
        (d.operation.name ∈ ["blez".toList, "bgtz".toList, "blezl".toList, "bgtzl".toList] ∧
            a &&& 0xffe0ffff#32 = b &&& 0xffe0ffff#32 ∨
          d.operation.name = "lui".toList ∧ a &&& 0xfc1fffff#32 = b &&& 0xfc1fffff#32)) ∧
    (d.format ≠ .i → d'.format ≠ .i → d.mnemonic = d'.mnemonic →
      (standard.disassemble a).violations.map Violation.message =
        (standard.disassemble b).violations.map Violation.message → a = b) := by
  obtain ⟨op, hfind, rfl⟩ := exists_find?_of_instruction? ha
  obtain ⟨op', hfind', rfl⟩ := exists_find?_of_instruction? hb
  rw [disassemble_of_find? hfind, disassemble_of_find? hfind', op.violations_disassemble,
    op'.violations_disassemble]
  have hother (hi : op.format ≠ .i) (hm : op.mnemonicOf a = op'.mnemonicOf b)
      (hv : (op.violations a).map Violation.message = (op'.violations b).map Violation.message) :
      a = b := by
    obtain rfl := eq_of_mnemonicOf hfind hfind' hm
    exact eq_of_find?_of_messages hfind hfind' hi hm hv
  refine ⟨⟨?_, ?_⟩, fun hi _ ↦ hother hi⟩
  · rintro ⟨hm, hv⟩
    by_cases hi : op.format = .i
    · obtain rfl := eq_of_mnemonicOf hfind hfind' hm
      exact ((mnemonicOf_eq_iff_of_find? hfind hfind' hi).1 hm).imp_right fun h ↦ ⟨rfl, hi, h⟩
    · exact .inl (hother hi hm hv)
  · rintro (rfl | ⟨hop, hi, h⟩)
    · obtain rfl := Option.some.inj (hfind.symm.trans hfind')
      exact ⟨rfl, rfl⟩
    · obtain rfl : op = op' := hop
      have hnone (w : Word) : op.violations w = [] := by
        rw [Operation.violations, show op.format = .i from hi]
      rw [hnone, hnone]
      exact ⟨(mnemonicOf_eq_iff_of_find? hfind hfind' hi).2 (.inr h), rfl⟩

theorem mnemonic_and_messages_of_pairs :
    (∃ d d', (standard.disassemble 0x19200004#32).instruction? = some d ∧
      (standard.disassemble 0x19210004#32).instruction? = some d' ∧ d.mnemonic = d'.mnemonic ∧
      (standard.disassemble 0x19200004#32).violations.map Violation.message =
        (standard.disassemble 0x19210004#32).violations.map Violation.message) ∧
    ∃ d d', (standard.disassemble 0x014b4820#32).instruction? = some d ∧
      (standard.disassemble 0x014b4860#32).instruction? = some d' ∧ d.mnemonic = d'.mnemonic ∧
      (standard.disassemble 0x014b4820#32).violations.map Violation.message ≠
        (standard.disassemble 0x014b4860#32).violations.map Violation.message := by
  have hfound {a b : Word} {op : Operation} (ha : a ≠ 0#32) (hb : b ≠ 0#32) (hkey : a.key = b.key)
      (h : standard.find? a = some op) : standard.find? b = some op := by
    rw [wellFormed_standard.find?_eq_some_iff ha, hkey] at h
    exact (wellFormed_standard.find?_eq_some_iff hb).2 h
  constructor
  · obtain ⟨op, hfind, hname, hi⟩ : ∃ op, standard.find? 0x19200004#32 = some op ∧
        op.name = "blez".toList ∧ op.format = .i := exists_find? (by decide) (by decide +kernel)
    have hread := instruction?_disassemble hfind
    have hread' := instruction?_disassemble
      (hfound (b := 0x19210004#32) (by decide) (by decide) (by decide) hfind)
    have hbranch : op.name ∈ ["blez".toList, "bgtz".toList, "blezl".toList, "bgtzl".toList] := by
      simp [hname]
    exact ⟨_, _, hread, hread', (mnemonic_and_messages_eq_iff hread hread').1.2
      (.inr ⟨rfl, hi, .inl ⟨hbranch, by decide⟩⟩)⟩
  · obtain ⟨op, hfind, hr, hm⟩ : ∃ op, standard.find? 0x014b4820#32 = some op ∧ op.format = .r ∧
        op.mnemonicOf 0x014b4820#32 = op.mnemonicOf 0x014b4860#32 :=
      exists_find? (by decide) (by decide +kernel)
    have hread := instruction?_disassemble hfind
    have hread' := instruction?_disassemble
      (hfound (b := 0x014b4860#32) (by decide) (by decide) (by decide) hfind)
    have hne : op.format ≠ .i := by rw [hr]; decide
    refine ⟨_, _, hread, hread', hm, fun hv ↦ ?_⟩
    exact absurd ((mnemonic_and_messages_eq_iff hread hread').2 hne hne hm hv) (by decide)

end InstructionSet

end Mips32
