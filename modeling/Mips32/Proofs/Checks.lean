import Mips32.Proofs.AddressOperands
import Mips32.Proofs.Spacing

namespace Mips32

open Text Mnemonic

inductive Check
  | blank
  | characters
  | name
  | parentheses
  | arguments
  | commas
  | operands
deriving DecidableEq, Repr

namespace Check

def rank : Check → Nat
  | blank => 0
  | characters => 1
  | name => 2
  | parentheses => 3
  | arguments => 4
  | commas => 5
  | operands => 6

theorem rank_inj {a b : Check} (h : a.rank = b.rank) : a = b := by
  cases a <;> cases b <;> simp [rank] at h ⊢

end Check

def AssemblyError.check : AssemblyError → Check
  | unknownInstruction _ => .name
  | malformed _ .empty => .blank
  | malformed _ (.illegalCharacters _) => .characters
  | malformed _ .illegalParentheses => .parentheses
  | malformed _ (.argumentCount _ _) => .arguments
  | malformed _ (.commaCount _ _) => .commas
  | malformed _ _ => .operands

namespace Mnemonic

def Stray (roles : List Role) (arguments : List Text) : Prop :=
  ∃ (k : Nat) (argument : Text), arguments[k]? = some argument ∧ hasParenthesis argument ∧
    roles[k]? ≠ some .address

theorem misplaced_iff {roles : List Role} {arguments : List Text} :
    misplaced roles arguments ↔ Stray roles arguments := by
  induction arguments generalizing roles with
  | nil => simp [misplaced, Stray]
  | cons argument arguments ih =>
    rw [misplaced, Bool.or_eq_true, ih, Bool.and_eq_true, bne_iff_ne, List.head?_eq_getElem?]
    constructor
    · rintro (h | ⟨k, a, ha, h⟩)
      · exact ⟨0, argument, rfl, h⟩
      · exact ⟨k + 1, a, ha, by rwa [List.getElem?_tail] at h⟩
    · rintro ⟨k, a, ha, h⟩
      cases k with
      | zero => exact .inl (Option.some.inj ha ▸ h)
      | succ k => exact .inr ⟨k, a, ha, by rwa [List.getElem?_tail]⟩

end Mnemonic

namespace Operand

/-- The leftmost argument that its role rejects, and the reason. -/
def Rejects (targetInBytes : Bool) (roles : List Role) (arguments : List Text)
    (reason : SyntaxError) : Prop :=
  ∃ before role argument after, roles.zip arguments = before ++ (role, argument) :: after ∧
    (∀ e ∈ before, ∃ operand, read targetInBytes e.1 e.2 = .ok operand) ∧
    read targetInBytes role argument = .error reason

variable {targetInBytes : Bool} {reason : SyntaxError}

theorem readAll_eq_error_iff {roles : List Role} {arguments : List Text} :
    readAll targetInBytes roles arguments = .error reason ↔
      Rejects targetInBytes roles arguments reason := by
  induction roles generalizing arguments with
  | nil => simp [readAll, Rejects]
  | cons role roles ih =>
    cases arguments with
    | nil => simp [readAll, Rejects]
    | cons argument arguments =>
      have hread : readAll targetInBytes (role :: roles) (argument :: arguments) = .error reason ↔
          read targetInBytes role argument = .error reason ∨
            (∃ operand, read targetInBytes role argument = .ok operand) ∧
              readAll targetInBytes roles arguments = .error reason := by
        rw [readAll, bind_eq_error_iff]
        refine or_congr_right ⟨?_, ?_⟩
        · rintro ⟨o, ho, h⟩
          rcases bind_eq_error_iff.1 h with h | ⟨os, -, h⟩
          · exact ⟨⟨o, ho⟩, h⟩
          · contradiction
        · rintro ⟨⟨o, ho⟩, h⟩
          exact ⟨o, ho, bind_eq_error_iff.2 (.inl h)⟩
      rw [hread, ih]
      constructor
      · rintro (h | ⟨hok, before, r, a, after, hzip, hbefore, h⟩)
        · exact ⟨[], role, argument, _, rfl, by simp, h⟩
        · refine ⟨(role, argument) :: before, r, a, after, ?_, ?_, h⟩
          · rw [List.zip_cons_cons, hzip, List.cons_append]
          · exact List.forall_mem_cons.2 ⟨hok, hbefore⟩
      · rintro ⟨before, r, a, after, hzip, hbefore, h⟩
        rw [List.zip_cons_cons] at hzip
        cases before with
        | nil =>
          obtain ⟨rfl, rfl⟩ := Prod.mk.inj (List.cons.inj hzip).1
          exact .inl h
        | cons e before =>
          obtain ⟨rfl, hrest⟩ := List.cons.inj hzip
          rw [List.forall_mem_cons] at hbefore
          exact .inr ⟨hbefore.1, before, r, a, after, hrest, hbefore.2, h⟩

theorem check_of_readRegister (m : Text) {t : Text} (h : readRegister t = .error reason) :
    (AssemblyError.malformed m reason).check = .operands := by
  obtain ⟨rfl, -⟩ := readRegister_eq_error_iff.1 h
  rfl

theorem check_of_readNumber (m : Text) {t : Text} (h : readNumber t = .error reason) :
    (AssemblyError.malformed m reason).check = .operands := by
  obtain ⟨_, -, rfl⟩ := readNumber_eq_error_iff.1 h
  rfl

theorem check_of_readAddress (m : Text) {t : Text} (h : readAddress t = .error reason) :
    (AssemblyError.malformed m reason).check = .operands := by
  cases readAddress_eq_error_iff.1 h <;> rfl

theorem check_of_read (m : Text) {role : Role} {t : Text}
    (h : read targetInBytes role t = .error reason) :
    (AssemblyError.malformed m reason).check = .operands := by
  cases role with
  | rd | rs | rt => exact check_of_readRegister m (map_eq_error_iff.1 h)
  | shamt | funct | offset | target => exact check_of_readNumber m (map_eq_error_iff.1 h)
  | address => exact check_of_readAddress m (map_eq_error_iff.1 h)
  | hint =>
    rcases bind_eq_error_iff.1 h with hn | ⟨n, -, h⟩
    · exact check_of_readNumber m hn
    · split at h
      · contradiction
      · rw [← Except.error.inj h]
        rfl

theorem check_of_rejects (m : Text) {roles : List Role} {arguments : List Text}
    (h : Rejects targetInBytes roles arguments reason) :
    (AssemblyError.malformed m reason).check = .operands := by
  obtain ⟨_, _, _, _, -, -, hread⟩ := h
  exact check_of_read m hread

end Operand

namespace Operation

theorem assemble_of_legal {op : Operation} {t : Text} {arguments : List Text}
    (htokens : tokens t = op.name :: arguments) (hname : hasParenthesis op.name = false)
    (hlegal : ∀ c ∈ t, isLegal c) :
    op.assemble t =
      if misplaced op.roles arguments then .error (.malformed t .illegalParentheses)
      else if arguments.length ≠ op.roles.length then
        .error (.malformed t (.argumentCount op.roles.length arguments.length))
      else if countCommas t ≠ op.roles.length - 1 then
        .error (.malformed t (.commaCount (op.roles.length - 1) (countCommas t)))
      else (op.assembleTokens op.name arguments).mapError (.malformed t) := by
  have hblank : ¬t.all isBlank := by
    intro h
    rw [tokens_of_blank (List.all_eq_true.1 h)] at htokens
    contradiction
  rw [assemble, if_neg hblank, checkCharacters_of_legal hlegal, checkParentheses, htokens]
  simp only [hname, Bool.false_or]
  by_cases hmisplaced : misplaced op.roles arguments
  · simp only [hmisplaced, if_true]
  · rw [if_neg hmisplaced, if_neg hmisplaced]
    simp only [ne_eq, not_true_eq_false, if_false]
    rfl

end Operation

namespace InstructionSet

/-- The text fails a check, which gives the error. -/
def Fails (set : InstructionSet) (t : Text) (check : Check) (e : AssemblyError) : Prop :=
  match check with
  | .blank => e = .malformed t .empty ∧ ∀ c ∈ t, isBlank c
  | .characters => e = .malformed t (.illegalCharacters (t.filter fun c ↦ !isLegal c)) ∧
    ∃ c ∈ t, isLegal c = false
  | .name => e = .unknownInstruction (name t) ∧ ∀ op ∈ set.operations, op.name ≠ name t
  | .parentheses => e = .malformed t .illegalParentheses ∧
    ∃ op ∈ set.operations, op.name = name t ∧ Stray op.roles (arguments t)
  | .arguments => ∃ op ∈ set.operations, op.name = name t ∧
    e = .malformed t (.argumentCount op.roles.length (arguments t).length) ∧
    (arguments t).length ≠ op.roles.length
  | .commas => ∃ op ∈ set.operations, op.name = name t ∧
    e = .malformed t (.commaCount (op.roles.length - 1) (countCommas t)) ∧
    countCommas t ≠ op.roles.length - 1
  | .operands => ∃ op ∈ set.operations, op.name = name t ∧ ∃ reason, e = .malformed t reason ∧
    Operand.Rejects op.targetInBytes op.roles (arguments t) reason

variable {set : InstructionSet} {t : Text} {c : Check} {e : AssemblyError}

theorem WellFormed.exists_named_iff (hset : set.WellFormed) {n : Text} {op : Operation}
    (hnamed : set.named? n = some op) {P : Operation → Prop} :
    (∃ a ∈ set.operations, a.name = n ∧ P a) ↔ P op := by
  obtain ⟨hop, hname⟩ := hset.named?_eq_some_iff.1 hnamed
  constructor
  · rintro ⟨a, ha, hname', h⟩
    rwa [hset.eq_of_name ha hop (hname'.trans hname.symm)] at h
  · exact fun h ↦ ⟨op, hop, hname, h⟩

theorem WellFormed.eq_of_fails (hset : set.WellFormed) {d : AssemblyError} (h : set.Fails t c e)
    (h' : set.Fails t c d) : e = d := by
  cases c with
  | blank | characters | name | parentheses => exact h.1.trans h'.1.symm
  | arguments | commas =>
    obtain ⟨a, ha, hname, rfl, -⟩ := h
    obtain ⟨b, hb, hname', rfl, -⟩ := h'
    rw [hset.eq_of_name ha hb (hname.trans hname'.symm)]
  | operands =>
    obtain ⟨a, ha, hname, reason, rfl, hrejects⟩ := h
    obtain ⟨b, hb, hname', reason', rfl, hrejects'⟩ := h'
    rw [hset.eq_of_name ha hb (hname.trans hname'.symm), ← Operand.readAll_eq_error_iff] at hrejects
    rw [← Operand.readAll_eq_error_iff] at hrejects'
    rw [Except.error.inj (hrejects.symm.trans hrejects')]

theorem quotes_of_fails {m : Text} {reason : SyntaxError}
    (h : set.Fails t c (.malformed m reason)) : m = t := by
  cases c with
  | blank | characters | parentheses => exact (AssemblyError.malformed.inj h.1).1
  | name => exact absurd h.1 (by simp)
  | arguments | commas =>
    obtain ⟨op, -, -, he, -⟩ := h
    exact (AssemblyError.malformed.inj he).1
  | operands =>
    obtain ⟨op, -, -, r, he, -⟩ := h
    exact (AssemblyError.malformed.inj he).1

def Passes (set : InstructionSet) (t : Text) (n : Nat) : Prop :=
  ∀ c e, set.Fails t c e → n ≤ c.rank

theorem passes_zero (set : InstructionSet) (t : Text) : set.Passes t 0 :=
  fun _ _ _ ↦ Nat.zero_le _

theorem Passes.next (h : set.Passes t c.rank) (hc : ∀ e, ¬set.Fails t c e) :
    set.Passes t (c.rank + 1) := by
  intro c' e hfails
  refine Nat.lt_of_le_of_ne (h c' e hfails) fun heq ↦ ?_
  exact hc e (Check.rank_inj heq ▸ hfails)

/-- The text fails a check after passing those before it, and gets the error of that check. -/
def FailsFirst (set : InstructionSet) (t : Text) (e : AssemblyError) : Prop :=
  set.Fails t e.check e ∧ set.Passes t e.check.rank

theorem failsFirst_or_named (hset : set.WellFormed) (t : Text) :
    (∃ e, set.assemble t = .error e ∧ set.FailsFirst t e) ∨
      ∃ op, set.named? (name t) = some op ∧ (∀ c ∈ t, isLegal c) ∧
        set.Passes t Check.parentheses.rank := by
  have hzero := set.passes_zero t
  by_cases hblank : ∀ c ∈ t, isBlank c
  · exact .inl ⟨_, set.assemble_of_blank hblank, ⟨rfl, hblank⟩, hzero⟩
  have hone := Passes.next (c := .blank) hzero fun e h ↦ hblank h.2
  by_cases hlegal : ∀ c ∈ t, isLegal c
  · have htwo := Passes.next (c := .characters) hone fun e h ↦ by
      obtain ⟨-, c, hc, hillegal⟩ := h
      rw [hlegal c hc] at hillegal
      contradiction
    cases hnamed : set.named? (name t) with
    | none =>
      refine .inl ⟨.unknownInstruction (name t), ?_, ⟨rfl, fun op hop hname ↦ ?_⟩, htwo⟩
      · rw [assemble_of_unnamed hnamed hblank, checkCharacters_of_legal hlegal]
      · rw [hset.named?_eq_some_iff.2 ⟨hop, hname⟩] at hnamed
        contradiction
    | some op =>
      obtain ⟨hop, hname⟩ := hset.named?_eq_some_iff.1 hnamed
      exact .inr ⟨op, rfl, hlegal, Passes.next (c := .name) htwo fun e h ↦ h.2 op hop hname⟩
  · refine .inl ⟨_, set.assemble_of_illegal hblank hlegal, ⟨rfl, ?_⟩, hone⟩
    simpa using hlegal

theorem failsFirst_or_assembles (hset : set.WellFormed) {op : Operation}
    (hnamed : set.named? (name t) = some op) (hne : op.name ≠ []) (hlegal : ∀ c ∈ t, isLegal c)
    (hthree : set.Passes t Check.parentheses.rank) :
    (∃ e, set.assemble t = .error e ∧ set.FailsFirst t e) ∨
      ∃ i, set.assemble t = .ok i ∧ ∀ c e, ¬set.Fails t c e := by
  obtain ⟨-, hname⟩ := hset.named?_eq_some_iff.1 hnamed
  have honly {P : Operation → Prop} := hset.exists_named_iff hnamed (P := P)
  have htokens : tokens t = op.name :: arguments t := by
    rw [tokens_of_name_ne_nil (hname ▸ hne), ← hname]
  have hbare : hasParenthesis op.name = false :=
    hasParenthesis_of_plain fun c hc ↦ isPlain_of_isAlphanum (isAlphanum_of_mem_name (hname ▸ hc))
  have hassemble := (assemble_of_named hnamed).trans
    (Operation.assemble_of_legal htokens hbare hlegal)
  by_cases hstray : misplaced op.roles (arguments t)
  · rw [if_pos hstray] at hassemble
    exact .inl ⟨_, hassemble, ⟨rfl, honly.2 (misplaced_iff.1 hstray)⟩, hthree⟩
  have hfour := Passes.next (c := .parentheses) hthree fun e h ↦
    hstray (misplaced_iff.2 (honly.1 h.2))
  by_cases hlen : (arguments t).length ≠ op.roles.length
  · rw [if_neg hstray, if_pos hlen] at hassemble
    exact .inl ⟨_, hassemble, honly.2 ⟨rfl, hlen⟩, hfour⟩
  have hfive := Passes.next (c := .arguments) hfour fun e h ↦ hlen (honly.1 h).2
  by_cases hcommas : countCommas t ≠ op.roles.length - 1
  · rw [if_neg hstray, if_neg hlen, if_pos hcommas] at hassemble
    exact .inl ⟨_, hassemble, honly.2 ⟨rfl, hcommas⟩, hfive⟩
  have hsix := Passes.next (c := .commas) hfive fun e h ↦ hcommas (honly.1 h).2
  rw [if_neg hstray, if_neg hlen, if_neg hcommas, Operation.assembleTokens_eq] at hassemble
  cases hread : Operand.readAll op.targetInBytes op.roles (arguments t) with
  | error reason =>
    have hrejects := Operand.readAll_eq_error_iff.1 hread
    have hcheck := Operand.check_of_rejects t hrejects
    rw [hread] at hassemble
    refine .inl ⟨.malformed t reason, hassemble, ?_⟩
    rw [FailsFirst, hcheck]
    exact ⟨honly.2 ⟨reason, rfl, hrejects⟩, hsix⟩
  | ok operands =>
    have hseven := Passes.next (c := .operands) hsix fun e h ↦ by
      obtain ⟨reason, -, hrejects⟩ := honly.1 h
      rw [← Operand.readAll_eq_error_iff, hread] at hrejects
      contradiction
    rw [hread] at hassemble
    refine .inr ⟨_, hassemble, fun c e h ↦ ?_⟩
    have hrank := hseven c e h
    cases c <;> simp [Check.rank] at hrank

/-- A text gets the error of the first check that it fails, and is assembled if it fails none. -/
theorem assemble_eq_error_iff_first {ops : List Operation}
    (hnames : ∀ op ∈ (ofList ops).operations, op.name ≠ []) (t : Text) :
    (∀ e, (ofList ops).assemble t = .error e ↔
      (ofList ops).Fails t e.check e ∧
        ∀ c d, (ofList ops).Fails t c d → e.check.rank ≤ c.rank) ∧
    ((∃ i, (ofList ops).assemble t = .ok i) ↔ ∀ c e, ¬(ofList ops).Fails t c e) ∧
    ∀ m reason, (ofList ops).assemble t = .error (.malformed m reason) → m = t := by
  have hset := wellFormed_ofList ops
  have hcases : (∃ e, (ofList ops).assemble t = .error e ∧ (ofList ops).FailsFirst t e) ∨
      ∃ i, (ofList ops).assemble t = .ok i ∧ ∀ c e, ¬(ofList ops).Fails t c e := by
    rcases failsFirst_or_named hset t with h | ⟨op, hnamed, hlegal, hpasses⟩
    · exact .inl h
    · have hne := hnames op (hset.named?_eq_some_iff.1 hnamed).1
      exact failsFirst_or_assembles hset hnamed hne hlegal hpasses
  rcases hcases with ⟨e, he, hfails, hpasses⟩ | ⟨i, hi, hnone⟩
  · rw [he]
    refine ⟨fun d ↦ ⟨fun h ↦ Except.error.inj h ▸ ⟨hfails, hpasses⟩, ?_⟩, ?_, ?_⟩
    · rintro ⟨hfails', hpasses'⟩
      have hcheck : d.check = e.check :=
        Check.rank_inj (Nat.le_antisymm (hpasses' _ _ hfails) (hpasses _ _ hfails'))
      rw [hset.eq_of_fails hfails (hcheck ▸ hfails')]
    · exact iff_of_false (by simp) fun h ↦ h _ _ hfails
    · intro m reason h
      rw [Except.error.inj h] at hfails
      exact quotes_of_fails hfails
  · rw [hi]
    refine ⟨fun d ↦ iff_of_false (by simp) fun h ↦ hnone _ _ h.1, ?_, by simp⟩
    exact iff_of_true ⟨i, rfl⟩ hnone

theorem first_of_two_faults :
    ∃ op, (∀ o ∈ (ofList [op]).operations, o.name ≠ []) ∧
      (ofList [op]).assemble "lw ($t1 4".toList =
        .error (.malformed "lw ($t1 4".toList .illegalParentheses) ∧
      (ofList [op]).Fails "lw ($t1 4".toList .commas
        (.malformed "lw ($t1 4".toList (.commaCount 1 0)) ∧
      ∀ c d, (ofList [op]).Fails "lw ($t1 4".toList c d → Check.parentheses.rank ≤ c.rank := by
  let op : Operation := Standard.immediate "lw" 0x23 Standard.rtAddress none "" "" 0#32
  have hkeyed : op.name ≠ nopName → op.key?.isSome := by decide
  have hnames : ∀ o ∈ (ofList [op]).operations, o.name ≠ [] := by
    intro o ho
    rw [(mem_ofList_singleton_iff hkeyed).1 ho]
    decide
  have hassemble : (ofList [op]).assemble "lw ($t1 4".toList =
      .error (.malformed "lw ($t1 4".toList .illegalParentheses) :=
    (assemble_singleton hkeyed rfl).trans rfl
  have hcommas : (ofList [op]).Fails "lw ($t1 4".toList .commas
      (.malformed "lw ($t1 4".toList (.commaCount 1 0)) :=
    ⟨op, mem_ofList_singleton hkeyed, by decide, rfl, by decide⟩
  obtain ⟨hfirst, -⟩ := assemble_eq_error_iff_first hnames "lw ($t1 4".toList
  exact ⟨op, hnames, hassemble, hcommas, ((hfirst _).1 hassemble).2⟩

end InstructionSet

end Mips32
