import Mips32.Proofs.StandardSet

namespace Mips32

open Text

namespace Mnemonic

def argumentGroups (t : Text) : List (List Text) :=
  ((afterName t).splitOn ',').map fun group ↦ attach (words group)

/-- The text has one comma group for each of `n` arguments, or one blank group if `n` is zero. -/
def Separated (t : Text) (n : Nat) : Prop :=
  (argumentGroups t).map List.length = if n = 0 then [0] else List.replicate n 1

instance (t : Text) (n : Nat) : Decidable (Separated t n) :=
  inferInstanceAs (Decidable (_ = _))

theorem flatten_argumentGroups (t : Text) : (argumentGroups t).flatten = arguments t := rfl

theorem argumentGroups_eq (t : Text) : argumentGroups t = (groups (afterName t)).map attach := by
  rw [argumentGroups, groups, List.map_map]
  rfl

theorem countCommas_afterName (t : Text) : countCommas (afterName t) = countCommas t := by
  obtain ⟨a, ha, ht⟩ := exists_eq_append_trimStart t
  have hblank : ',' ∉ a := fun h ↦ by simpa [isBlank_comma] using ha _ h
  have hname : ',' ∉ name t := fun h ↦ by simpa using isAlphanum_of_mem_name h
  have hcount := congrArg (List.count ',') ht
  rw [← name_append_afterName, List.count_append, List.count_append,
    List.count_eq_zero_of_not_mem hblank, List.count_eq_zero_of_not_mem hname] at hcount
  rw [countCommas, countCommas, hcount]
  omega

theorem length_argumentGroups (t : Text) : (argumentGroups t).length = countCommas t + 1 := by
  rw [argumentGroups_eq, List.length_map, length_groups, countCommas_afterName]

theorem attach_eq_nil_iff {ws : List Text} : attach ws = [] ↔ ws = [] := by
  cases ws with
  | nil => simp [attach]
  | cons w ws =>
    rw [attach]
    split <;> simp

theorem words_eq_nil_iff {t : Text} : words t = [] ↔ ∀ c ∈ t, isBlank c :=
  ⟨blank_of_words_eq_nil, words_append_blanks []⟩

theorem nil_mem_argumentGroups {t : Text} :
    [] ∈ argumentGroups t ↔ ∃ group ∈ (afterName t).splitOn ',', ∀ c ∈ group, isBlank c := by
  simp only [argumentGroups, List.mem_map, attach_eq_nil_iff, words_eq_nil_iff]

theorem length_le_of_nil_not_mem {gs : List (List Text)} (h : [] ∉ gs) :
    gs.length ≤ gs.flatten.length ∧
      (gs.flatten.length ≤ gs.length → ∀ g ∈ gs, g.length = 1) := by
  induction gs with
  | nil => simp
  | cons g gs ih =>
    rw [List.mem_cons, not_or] at h
    obtain ⟨hle, hone⟩ := ih h.2
    have hg : 0 < g.length := List.length_pos_iff.2 (Ne.symm h.1)
    rw [List.flatten_cons, List.length_append, List.length_cons, List.forall_mem_cons]
    exact ⟨by omega, fun hsum ↦ ⟨by omega, hone (by omega)⟩⟩

theorem length_le_of_forall_le_one {gs : List (List Text)} (h : ∀ g ∈ gs, g.length ≤ 1) :
    gs.flatten.length ≤ gs.length ∧
      (gs.length ≤ gs.flatten.length → ∀ g ∈ gs, g.length = 1) := by
  induction gs with
  | nil => simp
  | cons g gs ih =>
    rw [List.forall_mem_cons] at h
    obtain ⟨hle, hone⟩ := ih h.2
    have hg := h.1
    rw [List.flatten_cons, List.length_append, List.length_cons, List.forall_mem_cons]
    exact ⟨by omega, fun hsum ↦ ⟨by omega, hone (by omega)⟩⟩

theorem separated_iff {t : Text} {n : Nat} (hn : n ≠ 0)
    (hlen : (argumentGroups t).length = n) :
    Separated t n ↔ ∀ g ∈ argumentGroups t, g.length = 1 := by
  rw [Separated, if_neg hn, List.eq_replicate_iff, List.length_map, List.forall_mem_map]
  exact and_iff_right hlen

theorem separated_zero {t : Text} (hlen : (argumentGroups t).length = 1)
    (hargs : (arguments t).length = 0) : Separated t 0 := by
  obtain ⟨g, hg⟩ := List.length_eq_one_iff.1 hlen
  rw [← flatten_argumentGroups, hg, List.flatten_singleton] at hargs
  rw [Separated, if_pos rfl, hg, List.map_singleton, hargs]

variable {t : Text} {n : Nat}

theorem length_le_arguments {g : List Text} (hg : g ∈ argumentGroups t) :
    g.length ≤ (arguments t).length :=
  (List.sublist_flatten_of_mem hg).length_le

/-- With one comma less than arguments, a blank group and a group of two arguments come
together. -/
theorem separated_iff_not_blank (hlen : (argumentGroups t).length = max n 1)
    (hargs : (arguments t).length = n) : Separated t n ↔ n = 0 ∨ [] ∉ argumentGroups t := by
  by_cases hn : n = 0
  · subst hn
    exact iff_of_true (separated_zero hlen hargs) (.inl rfl)
  · have hlen' : (argumentGroups t).length = n := by omega
    rw [separated_iff hn hlen', or_iff_right hn]
    constructor
    · intro h hnil
      exact absurd (h [] hnil) (by decide)
    · intro h
      refine (length_le_of_nil_not_mem h).2 ?_
      rw [flatten_argumentGroups]
      omega

theorem separated_iff_le_one (hlen : (argumentGroups t).length = max n 1)
    (hargs : (arguments t).length = n) :
    Separated t n ↔ ∀ g ∈ argumentGroups t, g.length ≤ 1 := by
  by_cases hn : n = 0
  · subst hn
    refine iff_of_true (separated_zero hlen hargs) fun g hg ↦ ?_
    have hle := length_le_arguments hg
    omega
  · have hlen' : (argumentGroups t).length = n := by omega
    rw [separated_iff hn hlen']
    constructor
    · intro h g hg
      exact Nat.le_of_eq (h g hg)
    · intro h
      refine (length_le_of_forall_le_one h).2 ?_
      rw [flatten_argumentGroups]
      omega

theorem argumentGroups_join {n : Text} {args : List Text} (hn : ∀ c ∈ n, c.isAlphanum)
    (hne : n ≠ []) (hargs : ∀ a ∈ args, IsToken a) :
    argumentGroups (join (n :: args)) = if args = [] then [[]] else args.map fun a ↦ [a] := by
  rw [argumentGroups_eq, afterName_join hn hne, joinedTail]
  split
  · rfl
  · next h =>
    rw [groups_cons_blank isBlank_space, groups_intercalate h hargs, List.map_map]
    rfl

theorem separated_join {n : Text} {args : List Text} (hn : ∀ c ∈ n, c.isAlphanum)
    (hne : n ≠ []) (hargs : ∀ a ∈ args, IsToken a) :
    Separated (join (n :: args)) args.length := by
  rw [Separated, argumentGroups_join hn hne hargs]
  by_cases h : args = []
  · simp [h]
  · rw [if_neg h, if_neg (by simpa using h), List.map_map]
    exact List.map_const' ..

end Mnemonic

namespace InstructionSet

open Mnemonic

/-- An assembled text has the right numbers of arguments and of commas, wherever the commas
stand, and is read as if they stood between the arguments. They do so exactly when no comma
group is blank, or no group holds two arguments. -/
theorem separated_iff_of_assemble {t : Text} {i : Instruction} (h : standard.assemble t = .ok i) :
    (argumentGroups t).length = max i.operation.roles.length 1 ∧
    (arguments t).length = i.operation.roles.length ∧
    (Separated t i.operation.roles.length ↔ i.operation.roles.length = 0 ∨
      ∀ group ∈ (afterName t).splitOn ',', ¬∀ c ∈ group, isBlank c) ∧
    (Separated t i.operation.roles.length ↔
      ∀ group ∈ (afterName t).splitOn ',', (attach (words group)).length ≤ 1) ∧
    (i.operation.roles.length ≤ 1 → Separated t i.operation.roles.length) ∧
    Separated i.mnemonic i.operation.roles.length ∧ standard.assemble i.mnemonic = .ok i := by
  have hagain := wellFormed_standard.assemble_mnemonic h
  obtain ⟨op, arguments, operands, -, hname, hwritten, -, rfl⟩ :=
    wellFormed_standard.exists_written h
  obtain ⟨hne, hargs⟩ := hwritten.arguments_eq hname
  rw [Operation.operation_withOperands]
  have hcount : (Mnemonic.arguments t).length = op.roles.length := by
    rw [hargs, hwritten.placed.length_eq]
  have hlen : (argumentGroups t).length = max op.roles.length 1 := by
    rw [length_argumentGroups, hwritten.commas, Shape.commaCount]
    change op.roles.length - 1 + 1 = _
    omega
  have hblank := separated_iff_not_blank hlen hcount
  have hone := separated_iff_le_one hlen hcount
  refine ⟨hlen, hcount, ?_, ?_, ?_, ?_, hagain⟩
  · rw [nil_mem_argumentGroups] at hblank
    simpa using hblank
  · rw [argumentGroups, List.forall_mem_map] at hone
    exact hone
  · intro hle
    refine hone.2 fun g hg ↦ ?_
    have hg' := length_le_arguments hg
    omega
  · have hseparated : Separated (join (op.name :: arguments)) arguments.length :=
      separated_join (fun c hc ↦ isAlphanum_of_mem_name (hname ▸ hc)) hne
        fun a ha ↦ isToken_of_mem_arguments (hargs ▸ ha)
    rwa [← hwritten.placed.length_eq] at hseparated

theorem assemble_misplaced_comma :
    ∃ i, standard.assemble "add $t1 $t2, $t3,".toList = .ok i ∧ i.word = 0x014b4820#32 ∧
      i.operation.roles.length = 3 ∧ ¬Separated "add $t1 $t2, $t3,".toList 3 :=
  exists_assemble (by decide +kernel)

theorem separated_load :
    ∃ i, standard.assemble "lw $t1 , 4 ($sp)".toList = .ok i ∧
      Separated "lw $t1 , 4 ($sp)".toList i.operation.roles.length ∧
      standard.assemble i.mnemonic = .ok i := by
  obtain ⟨i, hi, hroles⟩ : ∃ i, standard.assemble "lw $t1 , 4 ($sp)".toList = .ok i ∧
      i.operation.roles = [.rt, .address] := exists_assemble (by decide +kernel)
  obtain ⟨-, -, -, hseparated, -, -, hagain⟩ := separated_iff_of_assemble hi
  exact ⟨i, hi, hseparated.2 (by decide), hagain⟩

end InstructionSet

end Mips32
