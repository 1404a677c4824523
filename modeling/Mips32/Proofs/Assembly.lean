import Mips32.InstructionSet.Basic
import Mips32.Proofs.Operands

namespace Mips32

open Text

namespace Mnemonic

theorem checkCharacters_of_legal {t : Text} (h : ∀ c ∈ t, isLegal c) :
    checkCharacters t = .ok () := by
  have hfilter : t.filter (fun c ↦ !isLegal c) = [] := by
    rw [List.filter_eq_nil_iff]
    intro c hc
    simp [h c hc]
  rw [checkCharacters, hfilter]

theorem legal_of_checkCharacters {t : Text} (h : checkCharacters t = .ok ()) :
    ∀ c ∈ t, isLegal c := by
  unfold checkCharacters at h
  split at h
  · next hfilter =>
    rw [List.filter_eq_nil_iff] at hfilter
    intro c hc
    simpa using hfilter c hc
  · contradiction

theorem checkCharacters_of_illegal {t : Text} (h : ¬∀ c ∈ t, isLegal c) :
    checkCharacters t = .error (.illegalCharacters (t.filter fun c ↦ !isLegal c)) := by
  cases hfilter : t.filter fun c ↦ !isLegal c with
  | nil =>
    exact absurd (legal_of_checkCharacters (by rw [checkCharacters, hfilter])) h
  | cons c cs => rw [checkCharacters, hfilter]

theorem tokens_of_blank {t : Text} (h : ∀ c ∈ t, isBlank c) : tokens t = [] := by
  have hstart : trimStart t = [] := by
    rw [← List.append_nil t, trimStart_append_of_blank h]
    rfl
  rw [tokens, arguments_eq, afterName, name, hstart]
  rfl

/-- The arguments are as many as the roles, and only addresses hold parentheses. -/
abbrev Placed : List Role → List Text → Prop :=
  List.Forall₂ fun role argument ↦ hasParenthesis argument → role = .address

theorem misplaced_eq_false_iff {roles : List Role} {arguments : List Text}
    (hlen : arguments.length = roles.length) :
    misplaced roles arguments = false ↔ Placed roles arguments := by
  induction roles generalizing arguments with
  | nil =>
    obtain rfl : arguments = [] := List.length_eq_zero_iff.1 hlen
    exact ⟨fun _ ↦ .nil, fun _ ↦ rfl⟩
  | cons role roles ih =>
    cases arguments with
    | nil => simp at hlen
    | cons argument arguments =>
      rw [Placed, List.forall₂_cons, ← Placed, ← ih (by simpa using hlen)]
      by_cases hp : hasParenthesis argument <;> simp [misplaced, hp]

end Mnemonic

open Mnemonic

namespace Operation

variable {op : Operation} {t : Text} {arguments : List Text} {i : Instruction}

theorem assemble_eq (htokens : tokens t = op.name :: arguments)
    (hname : hasParenthesis op.name = false) (hplaced : Placed op.roles arguments) :
    op.assemble t =
      match checkCharacters t with
      | .error e => .error (.malformed t e)
      | .ok () =>
        if countCommas t ≠ op.shape.commaCount then
          .error (.malformed t (.commaCount op.shape.commaCount (countCommas t)))
        else (op.assembleTokens op.name arguments).mapError (.malformed t) := by
  have hblank : ¬t.all isBlank := by
    intro h
    rw [tokens_of_blank (List.all_eq_true.1 h)] at htokens
    contradiction
  have hlen : arguments.length = op.roles.length := hplaced.length_eq.symm
  have hparentheses : checkParentheses op.roles t = .ok () := by
    simp [checkParentheses, htokens, hname, (misplaced_eq_false_iff hlen).2 hplaced]
  rw [assemble, if_neg hblank, hparentheses, htokens]
  cases checkCharacters t with
  | error e => rfl
  | ok _ => simp [Shape.argumentCount, hlen, roles]

/-- What an assembled text is made of. -/
structure Written (op : Operation) (t : Text) (arguments : List Text) : Prop where
  tokens : tokens t = op.name :: arguments
  name_bare : hasParenthesis op.name = false
  placed : Placed op.roles arguments
  legal : ∀ c ∈ t, isLegal c
  commas : countCommas t = op.shape.commaCount

theorem Written.assemble (h : op.Written t arguments) :
    op.assemble t = (op.assembleTokens op.name arguments).mapError (.malformed t) := by
  rw [assemble_eq h.tokens h.name_bare h.placed, checkCharacters_of_legal h.legal]
  simp [h.commas]

def withOperands (op : Operation) (arguments : List Text) (operands : List Operand) : Instruction :=
  ⟨op, op.format.pack (Operand.apply operands op.fixedFields), join (op.name :: arguments),
    Operand.lastHint? operands⟩

@[simp] theorem operation_withOperands (op : Operation) (arguments : List Text)
    (operands : List Operand) : (op.withOperands arguments operands).operation = op := rfl

@[simp] theorem mnemonic_withOperands (op : Operation) (arguments : List Text)
    (operands : List Operand) :
    (op.withOperands arguments operands).mnemonic = join (op.name :: arguments) := rfl

theorem assembleTokens_eq (op : Operation) (arguments : List Text) :
    op.assembleTokens op.name arguments =
      (Operand.readAll op.targetInBytes op.roles arguments).map (op.withOperands arguments) := rfl

theorem exists_written_of_assemble (h : op.assemble t = .ok i) :
    ∃ arguments operands, op.Written t arguments ∧
      Operand.readAll op.targetInBytes op.roles arguments = .ok operands ∧
      i = op.withOperands arguments operands := by
  unfold assemble at h
  split at h
  · contradiction
  split at h
  · contradiction
  next hchars =>
  split at h
  · contradiction
  next hparentheses =>
  split at h
  · contradiction
  next name arguments htokens =>
  dsimp only at h
  split at h
  · contradiction
  next hname =>
  split at h
  · contradiction
  next hlen =>
  split at h
  · contradiction
  next hcommas =>
  obtain rfl : name = op.name := Classical.not_not.1 hname
  obtain ⟨operands, hread, rfl⟩ := map_eq_ok_iff.1 (mapError_eq_ok_iff.1 h)
  simp only [checkParentheses, htokens] at hparentheses
  split at hparentheses
  · contradiction
  next hplaced =>
  rw [Bool.or_eq_true, not_or, Bool.not_eq_true, Bool.not_eq_true] at hplaced
  exact ⟨arguments, operands,
    ⟨htokens, hplaced.1, (misplaced_eq_false_iff (Classical.not_not.1 hlen)).1 hplaced.2,
      legal_of_checkCharacters hchars, Classical.not_not.1 hcommas⟩, hread, rfl⟩

theorem Written.arguments_eq (h : op.Written t arguments) (hname : op.name = Mnemonic.name t) :
    op.name ≠ [] ∧ Mnemonic.arguments t = arguments := by
  have htokens := h.tokens
  rw [hname, Mnemonic.tokens] at htokens
  split at htokens
  · next hempty =>
    rw [List.isEmpty_iff.1 hempty] at htokens
    have hmem : [] ∈ Mnemonic.arguments t := htokens ▸ List.mem_cons_self
    exact absurd rfl (isToken_of_mem_arguments hmem).1
  · next hempty =>
    exact ⟨fun hnil ↦ hempty (by rw [← hname, hnil]; rfl), (List.cons.inj htokens).2⟩

theorem Written.join (h : op.Written t arguments) (hname : op.name = Mnemonic.name t) :
    op.Written (join (op.name :: arguments)) arguments := by
  obtain ⟨hne, hargs⟩ := h.arguments_eq hname
  have halnum : ∀ c ∈ op.name, c.isAlphanum := fun c hc ↦ isAlphanum_of_mem_name (hname ▸ hc)
  have htoken : ∀ a ∈ arguments, IsToken a := fun a ha ↦ isToken_of_mem_arguments (hargs ▸ ha)
  refine ⟨tokens_join halnum hne htoken, h.name_bare, h.placed, ?_, ?_⟩
  · intro c hc
    rcases mem_join hc with hc | rfl | rfl | ⟨a, ha, hc⟩
    · exact isLegal_of_isPlain (isPlain_of_isAlphanum (halnum c hc))
    · decide
    · decide
    · have hmem : a ∈ Mnemonic.tokens t := h.tokens ▸ List.mem_cons_of_mem _ ha
      exact h.legal c (isSolid_of_mem_token hmem hc).1
  · rw [countCommas_join halnum htoken, Shape.commaCount, ← h.placed.length_eq]
    rfl

end Operation

namespace InstructionSet

variable {set : InstructionSet} {op : Operation} {t : Text} {i : Instruction}

theorem assemble_of_named (h : set.named? (name t) = some op) : set.assemble t = op.assemble t := by
  have hnormal := name_normalize t
  by_cases hblank : ∀ c ∈ t, isBlank c
  · simp [assemble, normalize_eq_nil_iff.2 hblank, Operation.assemble, List.all_eq_true.2 hblank]
  · have hne : (normalize t).isEmpty = false := by
      simpa using fun h ↦ hblank (normalize_eq_nil_iff.1 h)
    simp [assemble, hne, hnormal, h]

theorem assemble_of_unnamed (h : set.named? (name t) = none) (hblank : ¬∀ c ∈ t, isBlank c) :
    set.assemble t =
      match checkCharacters t with
      | .error e => .error (.malformed t e)
      | .ok () => .error (.unknownInstruction (name t)) := by
  have hnormal := name_normalize t
  have hne : (normalize t).isEmpty = false := by
    simpa using fun h ↦ hblank (normalize_eq_nil_iff.1 h)
  simp only [assemble, hne, hnormal, h]
  cases checkCharacters t <;> rfl

theorem exists_named_of_assemble (h : set.assemble t = .ok i) :
    ∃ op, set.named? (name t) = some op ∧ op.assemble t = .ok i := by
  cases hnamed : set.named? (name t) with
  | some op => exact ⟨op, rfl, assemble_of_named hnamed ▸ h⟩
  | none =>
    by_cases hblank : ∀ c ∈ t, isBlank c
    · simp [assemble, normalize_eq_nil_iff.2 hblank] at h
    · rw [assemble_of_unnamed hnamed hblank] at h
      split at h <;> contradiction

end InstructionSet

end Mips32
