import Mips32.InstructionSet.Standard
import Mips32.Proofs.Lookup

namespace Mips32

namespace Operation

def LacksDiscriminant (op : Operation) : Prop :=
  op.opcode ∈ [0x00#8, 0x1c#8] ∧ (∀ v, op.discriminant ≠ some (.funct v)) ∨
    op.opcode = 0x01#8 ∧ ∀ v, op.discriminant ≠ some (.rt v)

def SharesKey (a b : Operation) : Prop :=
  a.opcode = b.opcode ∧ (b.opcode ∈ [0x00#8, 0x01#8, 0x1c#8] → a.discriminant = b.discriminant)

/-- Why an operation cannot join others: the first of three reasons that applies. -/
inductive Clashes (ops : List Operation) (op : Operation) : ClashError → Prop
  | sameName (h : ∃ o ∈ ops, o.name = op.name) : Clashes ops op (.sameName op.name)
  | missingDiscriminant (hnew : ∀ o ∈ ops, o.name ≠ op.name)
      (hname : op.name ≠ InstructionSet.nopName) (hlacks : op.LacksDiscriminant) :
      Clashes ops op (.missingDiscriminant op.name)
  | sameEncoding (hnew : ∀ o ∈ ops, o.name ≠ op.name)
      (hname : op.name ≠ InstructionSet.nopName) (hlacks : ¬op.LacksDiscriminant)
      (o : Operation) (ho : o ∈ ops) (hname' : o.name ≠ InstructionSet.nopName)
      (hkey : o.SharesKey op) : Clashes ops op (.sameEncoding op.name o.name)

variable {a b op : Operation}

theorem key?_eq_none_iff : op.key? = none ↔ op.LacksDiscriminant := by
  unfold LacksDiscriminant
  grind [key?]

instance (op : Operation) : Decidable op.LacksDiscriminant :=
  decidable_of_iff _ key?_eq_none_iff

instance (a b : Operation) : Decidable (a.SharesKey b) :=
  inferInstanceAs (Decidable (_ ∧ (_ → _)))

theorem sharesKey_iff {key : Key} (hb : b.key? = some key) :
    a.SharesKey b ↔ a.key? = some key := by
  unfold SharesKey
  cases key with
  | special v =>
    rw [key?_eq_special_iff] at hb ⊢
    simp [hb]
  | regimm v =>
    rw [key?_eq_regimm_iff] at hb ⊢
    simp [hb]
  | special2 v =>
    rw [key?_eq_special2_iff] at hb ⊢
    simp [hb]
  | plain v =>
    rw [key?_eq_plain_iff] at hb ⊢
    grind

end Operation

namespace InstructionSet

theorem operations_of_add {set larger : InstructionSet} {op : Operation}
    (h : set.add op = .ok larger) : larger.operations = set.operations.push op := by
  rcases (add_cases h).2 with ⟨-, rfl⟩ | ⟨-, key, -, -, rfl⟩
  · rfl
  · exact operations_store ..

namespace WellFormed

variable {set : InstructionSet} (h : set.WellFormed)

include h

theorem contains_iff {name : Text} :
    set.byName.contains name ↔ ∃ o ∈ set.operations.toList, o.name = name := by
  rw [← Std.HashMap.isSome_getElem?_eq_contains, Option.isSome_iff_ne_none, ne_eq,
    h.byName.eq_none_iff]
  simp

theorem clashes_of_enter {op : Operation} {e : ClashError} {left : InstructionSet}
    (hrun : (enter op).run set = .error e left) : op.Clashes set.operations.toList e := by
  rcases (enter_error_cases hrun).2 with ⟨hname, rfl⟩ | ⟨hname, hnop, hcases⟩
  · exact .sameName (h.contains_iff.1 hname)
  · have hnew : ∀ o ∈ set.operations.toList, o.name ≠ op.name := by
      simpa using mt h.contains_iff.2 hname
    rcases hcases with ⟨hkey, rfl⟩ | ⟨key, position, hkey, hposition, rfl⟩
    · exact .missingDiscriminant hnew hnop (Operation.key?_eq_none_iff.1 hkey)
    · obtain ⟨o, ho, hnop', hkey'⟩ := (h.position?_eq_some_iff key position).1 hposition
      have hlacks : ¬op.LacksDiscriminant := by simp [← Operation.key?_eq_none_iff, hkey]
      rw [ho]
      exact .sameEncoding hnew hnop hlacks o (Array.mem_toList_iff.2 (Array.mem_of_getElem? ho))
        hnop' ((Operation.sharesKey_iff hkey).2 hkey')

theorem enter_of_clashes {op : Operation} {e : ClashError}
    (hclash : op.Clashes set.operations.toList e) : (enter op).run set = .error e set := by
  have hfresh (hnew : ∀ o ∈ set.operations.toList, o.name ≠ op.name) :
      ¬set.byName.contains op.name := by simpa [h.contains_iff] using hnew
  rw [run_enter]
  cases hclash with
  | sameName hname => rw [if_pos (h.contains_iff.2 hname)]
  | missingDiscriminant hnew hnop hlacks =>
    rw [if_neg (hfresh hnew), if_neg hnop, Operation.key?_eq_none_iff.2 hlacks]
  | sameEncoding hnew hnop hlacks o ho hnop' hshares =>
    rw [if_neg (hfresh hnew), if_neg hnop]
    obtain ⟨key, hkey⟩ := Option.ne_none_iff_exists'.1 (mt Operation.key?_eq_none_iff.1 hlacks)
    obtain ⟨position, hposition⟩ := Array.mem_iff_getElem?.1 (Array.mem_toList_iff.1 ho)
    have hstored := (h.position?_eq_some_iff key position).2
      ⟨o, hposition, hnop', (Operation.sharesKey_iff hkey).1 hshares⟩
    simp [hkey, hstored, hposition]

theorem enter_eq_error_iff {op : Operation} {e : ClashError} {left : InstructionSet} :
    (enter op).run set = .error e left ↔ op.Clashes set.operations.toList e ∧ left = set := by
  constructor
  · intro hrun
    exact ⟨h.clashes_of_enter hrun, (enter_error_cases hrun).1⟩
  · rintro ⟨hclash, rfl⟩
    exact h.enter_of_clashes hclash

theorem exists_enter_eq_ok_iff {op : Operation} :
    (∃ larger, (enter op).run set = .ok () larger ∧ larger.operations = set.operations.push op) ↔
      ∀ e, ¬op.Clashes set.operations.toList e := by
  constructor
  · rintro ⟨larger, hrun, -⟩ e hclash
    rw [h.enter_of_clashes hclash] at hrun
    contradiction
  · intro hnone
    cases hrun : (enter op).run set with
    | ok _ larger => exact ⟨larger, rfl, operations_of_add (add_eq_ok_iff.2 hrun)⟩
    | error e left => exact absurd (h.clashes_of_enter hrun) (hnone e)

theorem exists_add_eq_ok {op : Operation} (hkeyed : op.name ≠ nopName → op.key?.isSome)
    (hnew : ∀ o ∈ set.operations, o.Compatible op) : ∃ larger, set.add op = .ok larger := by
  have hnone : ∀ e, ¬op.Clashes set.operations.toList e := by
    intro e hclash
    cases hclash with
    | sameName hname =>
      obtain ⟨o, ho, hname⟩ := hname
      exact (hnew o (Array.mem_toList_iff.1 ho)).1 hname
    | missingDiscriminant _ hnop hlacks =>
      have hsome := hkeyed hnop
      rw [Operation.key?_eq_none_iff.2 hlacks] at hsome
      contradiction
    | sameEncoding _ hnop _ o ho hnop' hshares =>
      obtain ⟨key, hkey⟩ := Option.isSome_iff_exists.1 (hkeyed hnop)
      have hstored := Operation.storedKey?_eq_some_iff.2 ⟨hnop, hkey⟩
      have hstored' := Operation.storedKey?_eq_some_iff.2
        ⟨hnop', (Operation.sharesKey_iff hkey).1 hshares⟩
      have hcompatible := (hnew o (Array.mem_toList_iff.1 ho)).2
      simp [hstored, hstored'] at hcompatible
  obtain ⟨larger, hrun, -⟩ := h.exists_enter_eq_ok_iff.2 hnone
  exact ⟨larger, add_eq_ok_iff.2 hrun⟩

end WellFormed

section Run

variable {set larger : InstructionSet} {op : Operation} {ops : List Operation}

theorem run_cons_eq_ok_iff : ((op :: ops).forM enter).run set = .ok () larger ↔
    ∃ next, set.add op = .ok next ∧ (ops.forM enter).run next = .ok () larger := by
  have hbind : (op :: ops).forM enter = (enter op >>= fun _ ↦ ops.forM enter) := rfl
  rw [hbind, EStateM.run_bind]
  simp only [add_eq_ok_iff]
  cases (enter op).run set <;> simp

theorem foldl_attempt_of_run (h : (ops.forM enter).run set = .ok () larger) :
    ops.foldl attempt set = larger := by
  induction ops generalizing set with
  | nil => exact (EStateM.Result.ok.inj h).2
  | cons op ops ih =>
    obtain ⟨next, hadd, hrun⟩ := run_cons_eq_ok_iff.1 h
    rw [List.foldl_cons, attempt_eq, hadd]
    exact ih hrun

theorem operations_of_run (h : (ops.forM enter).run set = .ok () larger) :
    larger.operations.toList = set.operations.toList ++ ops := by
  induction ops generalizing set with
  | nil => rw [← (EStateM.Result.ok.inj h).2, List.append_nil]
  | cons op ops ih =>
    obtain ⟨next, hadd, hrun⟩ := run_cons_eq_ok_iff.1 h
    rw [ih hrun, operations_of_add hadd, Array.toList_push, List.append_assoc,
      List.singleton_append]

theorem WellFormed.exists_run (h : set.WellFormed)
    (hkeyed : ∀ op ∈ ops, op.name ≠ nopName → op.key?.isSome)
    (hpair : (set.operations.toList ++ ops).Pairwise Operation.Compatible) :
    ∃ larger, (ops.forM enter).run set = .ok () larger := by
  induction ops generalizing set with
  | nil => exact ⟨set, rfl⟩
  | cons op ops ih =>
    rw [List.forall_mem_cons] at hkeyed
    have hnew : ∀ o ∈ set.operations, o.Compatible op := by
      intro o ho
      exact (List.pairwise_append.1 hpair).2.2 o (Array.mem_toList_iff.2 ho) op List.mem_cons_self
    obtain ⟨next, hadd⟩ := h.exists_add_eq_ok hkeyed.1 hnew
    have hlist : next.operations.toList ++ ops = set.operations.toList ++ op :: ops := by
      rw [operations_of_add hadd, Array.toList_push, List.append_assoc, List.singleton_append]
    obtain ⟨larger, hrun⟩ := ih (h.add hadd) hkeyed.2 (hlist ▸ hpair)
    exact ⟨larger, run_cons_eq_ok_iff.2 ⟨next, hadd, hrun⟩⟩

end Run

theorem wellFormed_of_run {ops : List Operation} {set : InstructionSet}
    (h : (ops.forM enter).run empty = .ok () set) : set.WellFormed :=
  foldl_attempt_of_run h ▸ wellFormed_ofList ops

theorem operations_ofList {ops : List Operation}
    (hkeyed : ∀ op ∈ ops, op.name ≠ nopName → op.key?.isSome)
    (hpair : ops.Pairwise Operation.Compatible) : (ofList ops).operations.toList = ops := by
  obtain ⟨set, hrun⟩ := wellFormed_empty.exists_run hkeyed hpair
  rw [ofList, foldl_attempt_of_run hrun]
  exact operations_of_run hrun

theorem mem_ofList_singleton_iff {op o : Operation} (h : op.name ≠ nopName → op.key?.isSome) :
    o ∈ (ofList [op]).operations ↔ o = op := by
  rw [← Array.mem_toList_iff, operations_ofList (List.forall_mem_singleton.2 h)
    (List.pairwise_singleton _ _), List.mem_singleton]

theorem mem_ofList_singleton {op : Operation} (h : op.name ≠ nopName → op.key?.isSome) :
    op ∈ (ofList [op]).operations :=
  (mem_ofList_singleton_iff h).2 rfl

/-- An operation joins at the end unless it clashes. One that clashes is turned away with the
first reason, and later additions proceed as if it had not been tried. -/
theorem enter_iff (ops : List Operation) (op : Operation) :
    (∀ e left, (enter op).run (ofList ops) = .error e left ↔
      op.Clashes (ofList ops).operations.toList e ∧ left = ofList ops) ∧
    ((∃ larger, (enter op).run (ofList ops) = .ok () larger ∧
        larger.operations = (ofList ops).operations.push op) ↔
      ∀ e, ¬op.Clashes (ofList ops).operations.toList e) ∧
    ∀ e later, op.Clashes (ofList ops).operations.toList e →
      ofList (ops ++ op :: later) = ofList (ops ++ later) := by
  have hset := wellFormed_ofList ops
  refine ⟨fun e left ↦ hset.enter_eq_error_iff, hset.exists_enter_eq_ok_iff, ?_⟩
  intro e later hclash
  have hattempt : (ofList ops).attempt op = ofList ops := by
    rw [attempt, hset.enter_of_clashes hclash]
  calc ofList (ops ++ op :: later)
      = later.foldl attempt ((ofList ops).attempt op) := by
        rw [ofList, List.foldl_append, List.foldl_cons, ofList]
    _ = ofList (ops ++ later) := by rw [hattempt, ofList, ofList, List.foldl_append]

theorem enter_alias :
    ∃ a b c, (ofList [a]).operations.toList = [a] ∧
      (enter b).run (ofList [a]) =
        .error (.sameEncoding "plus".toList "add".toList) (ofList [a]) ∧
      ofList [a, b, c] = ofList [a, c] := by
  let a := Standard.special "add" 0x20 Standard.rdRsRt none "" "" 0#32
  let b := Standard.special "plus" 0x20 Standard.rdRsRt none "" "" 0#32
  let c := Standard.special "sub" 0x22 Standard.rdRsRt none "" "" 0#32
  have hops : (ofList [a]).operations.toList = [a] := operations_ofList (by decide) (by decide)
  have hclash : b.Clashes (ofList [a]).operations.toList
      (.sameEncoding "plus".toList "add".toList) := by
    rw [hops]
    exact .sameEncoding (by decide) (by decide) (by decide) a List.mem_cons_self (by decide)
      (by decide)
  obtain ⟨herror, -, hlater⟩ := enter_iff [a] b
  exact ⟨a, b, c, hops, (herror _ _).2 ⟨hclash, rfl⟩, hlater _ [c] hclash⟩

end InstructionSet

end Mips32
