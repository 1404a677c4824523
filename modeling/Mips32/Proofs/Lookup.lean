import Mathlib.Data.List.Basic
import Mathlib.Tactic.SplitIfs
import Mips32.InstructionSet.Basic
import Std.Data.HashMap.Lemmas

namespace Mips32

/-- The key under which a set stores an operation. The one named `nop` has none. -/
def Operation.storedKey? (op : Operation) : Option Key :=
  if op.name = InstructionSet.nopName then none else op.key?

/-- Neither the names nor the keys of two operations clash. -/
def Operation.Compatible (a b : Operation) : Prop :=
  a.name ≠ b.name ∧ (a.storedKey? = none ∨ a.storedKey? ≠ b.storedKey?)

instance : DecidableRel Operation.Compatible :=
  fun a b ↦ inferInstanceAs (Decidable (a.name ≠ b.name ∧ _))

theorem setWidth_eq_shared_iff (c : BitVec 6) : (c.setWidth 8 = 0x00#8 ↔ c = 0x00#6) ∧
    (c.setWidth 8 = 0x01#8 ↔ c = 0x01#6) ∧ (c.setWidth 8 = 0x1c#8 ↔ c = 0x1c#6) := by
  revert c
  decide

namespace Operation

variable {op : Operation} {v : BitVec 8}

theorem key?_eq_special_iff :
    op.key? = some (.special v) ↔ op.opcode = 0x00#8 ∧ op.discriminant = some (.funct v) := by
  grind [key?]

theorem key?_eq_regimm_iff :
    op.key? = some (.regimm v) ↔ op.opcode = 0x01#8 ∧ op.discriminant = some (.rt v) := by
  grind [key?]

theorem key?_eq_special2_iff :
    op.key? = some (.special2 v) ↔ op.opcode = 0x1c#8 ∧ op.discriminant = some (.funct v) := by
  grind [key?]

theorem key?_eq_plain_iff :
    op.key? = some (.plain v) ↔ op.opcode ∉ [0x00#8, 0x01#8, 0x1c#8] ∧ op.opcode = v := by
  grind [key?]

theorem storedKey?_eq_some_iff {key : Key} :
    op.storedKey? = some key ↔ op.name ≠ InstructionSet.nopName ∧ op.key? = some key := by
  unfold storedKey?
  split <;> simp [*]

end Operation

/-- A look-up leads from each key to the position of the operation that has it. -/
def Indexes {α : Type} (lookup : α → Option Nat) (keyOf : Operation → Option α)
    (operations : Array Operation) : Prop :=
  ∀ key position, lookup key = some position ↔
    ∃ op, operations[position]? = some op ∧ keyOf op = some key

theorem exists_getElem?_push_iff {operations : Array Operation} {op : Operation}
    {P : Operation → Prop} {position : Nat} :
    (∃ o, (operations.push op)[position]? = some o ∧ P o) ↔
      position = operations.size ∧ P op ∨ ∃ o, operations[position]? = some o ∧ P o := by
  rw [Array.getElem?_push]
  by_cases hp : position = operations.size
  · simp [hp]
  · simp [hp]

namespace Indexes

variable {α : Type} {lookup : α → Option Nat} {keyOf : Operation → Option α}
  {operations : Array Operation} {op : Operation} {key : α}

theorem eq_none_iff (h : Indexes lookup keyOf operations) :
    lookup key = none ↔ ∀ op ∈ operations, keyOf op ≠ some key := by
  constructor
  · intro hnone op hop hkey
    obtain ⟨position, hp⟩ := Array.mem_iff_getElem?.1 hop
    rw [(h key position).2 ⟨op, hp, hkey⟩] at hnone
    contradiction
  · intro hne
    cases hp : lookup key with
    | none => rfl
    | some position =>
      obtain ⟨op, hop, hkey⟩ := (h key position).1 hp
      exact absurd hkey (hne op (Array.mem_of_getElem? hop))

/-- Looking up a position and then its operation finds the operation that has the key. -/
theorem bind_eq_some_iff (h : Indexes lookup keyOf operations) :
    ((lookup key).bind fun position ↦ operations[position]?) = some op ↔
      op ∈ operations ∧ keyOf op = some key := by
  rw [Option.bind_eq_some_iff]
  constructor
  · rintro ⟨position, hp, hop⟩
    obtain ⟨op', hop', hkey⟩ := (h key position).1 hp
    obtain rfl : op' = op := Option.some.inj (hop'.symm.trans hop)
    exact ⟨Array.mem_of_getElem? hop, hkey⟩
  · rintro ⟨hop, hkey⟩
    obtain ⟨position, hp⟩ := Array.mem_iff_getElem?.1 hop
    exact ⟨position, (h key position).2 ⟨op, hp, hkey⟩, hp⟩

theorem pairwise (h : Indexes lookup keyOf operations) :
    operations.toList.Pairwise fun a b ↦ ∀ key, keyOf a = some key → keyOf b ≠ some key := by
  rw [List.pairwise_iff_getElem]
  intro i j hi hj hij key ha hb
  have hget {k : Nat} (hk : k < operations.toList.length) :
      operations[k]? = some operations.toList[k] := by
    rw [← Array.getElem?_toList, List.getElem?_eq_getElem hk]
  have hfirst := (h key i).2 ⟨_, hget hi, ha⟩
  have hsecond := (h key j).2 ⟨_, hget hj, hb⟩
  rw [hfirst, Option.some.injEq] at hsecond
  omega

theorem push_of_none (h : Indexes lookup keyOf operations) (hop : keyOf op = none) :
    Indexes lookup keyOf (operations.push op) := by
  intro key position
  rw [h key position, exists_getElem?_push_iff]
  simp [hop]

theorem push_of_some [DecidableEq α] (h : Indexes lookup keyOf operations)
    (hop : keyOf op = some key) (hnew : lookup key = none) {lookup' : α → Option Nat}
    (hlookup : ∀ key', lookup' key' = if key = key' then some operations.size else lookup key') :
    Indexes lookup' keyOf (operations.push op) := by
  intro key' position
  rw [hlookup, exists_getElem?_push_iff, hop]
  by_cases hkey : key = key'
  · subst hkey
    have hold : ¬∃ o, operations[position]? = some o ∧ keyOf o = some key := by
      intro hex
      rw [← h key position, hnew] at hex
      contradiction
    rw [if_pos rfl, or_iff_left hold, Option.some.injEq]
    exact ⟨fun hp ↦ ⟨hp.symm, rfl⟩, fun hp ↦ hp.1.symm⟩
  · simp [hkey, h key' position]

end Indexes

namespace InstructionSet

/-- The tables of a set say what a search through its operations would say. -/
structure WellFormed (set : InstructionSet) : Prop where
  byName : Indexes (set.byName[·]?) (fun op ↦ some op.name) set.operations
  byKey : Indexes set.position? Operation.storedKey? set.operations
  nop : ∀ position, set.nop = some position ↔
    ∃ op, set.operations[position]? = some op ∧ op.name = nopName
  keyed : ∀ op ∈ set.operations, op.name ≠ nopName → op.key?.isSome
  formats : ∀ opcode, set.formats[opcode]? =
    (set.operations.toList.find? fun op ↦ op.opcode = opcode).map Operation.format

section Store

variable (set : InstructionSet) (opcode value : BitVec 8) (position : Nat)

@[simp] theorem operations_store :
    (set.store opcode value position).operations = set.operations := by
  unfold store
  split_ifs <;> rfl

@[simp] theorem byName_store : (set.store opcode value position).byName = set.byName := by
  unfold store
  split_ifs <;> rfl

@[simp] theorem nop_store : (set.store opcode value position).nop = set.nop := by
  unfold store
  split_ifs <;> rfl

@[simp] theorem formats_store : (set.store opcode value position).formats = set.formats := by
  unfold store
  split_ifs <;> rfl

theorem append_store (op : Operation) :
    (set.store opcode value position).append op = (set.append op).store opcode value position := by
  unfold store
  split_ifs <;> rfl

end Store

theorem position?_append (set : InstructionSet) (op : Operation) (key : Key) :
    (set.append op).position? key = set.position? key := by
  cases key <;> rfl

theorem position?_store {op : Operation} {key : Key} (hkey : op.key? = some key)
    (set : InstructionSet) (position : Nat) (key' : Key) :
    (set.store op.opcode key.value position).position? key' =
      if key = key' then some position else set.position? key' := by
  cases key with
  | special v =>
    rw [(Operation.key?_eq_special_iff.1 hkey).1]
    cases key' <;> simp [store, position?, Key.value, Std.HashMap.getElem?_insert]
  | regimm v =>
    rw [(Operation.key?_eq_regimm_iff.1 hkey).1]
    cases key' <;> simp [store, position?, Key.value, Std.HashMap.getElem?_insert]
  | special2 v =>
    rw [(Operation.key?_eq_special2_iff.1 hkey).1]
    cases key' <;> simp [store, position?, Key.value, Std.HashMap.getElem?_insert]
  | plain v =>
    have hop := (Operation.key?_eq_plain_iff.1 hkey).1
    simp only [List.mem_cons, List.not_mem_nil, or_false, not_or] at hop
    cases key' <;> simp [store, hop, position?, Key.value, Std.HashMap.getElem?_insert]

/-- Entering an operation fails before anything is written, or writes all tables. -/
theorem run_enter (set : InstructionSet) (op : Operation) :
    (enter op).run set =
      if set.byName.contains op.name then .error (.sameName op.name) set
      else if op.name = nopName then .ok () { set.append op with nop := some set.size }
      else match op.key? with
        | none => .error (.missingDiscriminant op.name) set
        | some key =>
          match set.position? key with
          | some position =>
            .error (.sameEncoding op.name
              ((set.operations[position]?.map Operation.name).getD [])) set
          | none => .ok () ((set.append op).store op.opcode key.value set.size) := by
  unfold enter
  simp only [EStateM.run_bind, EStateM.run_get]
  split
  · rfl
  · split
    · rfl
    · cases op.key? with
      | none => rfl
      | some key =>
        simp only [← append_store]
        cases set.position? key <;> rfl

theorem enter_error_cases {set left : InstructionSet} {op : Operation} {e : ClashError}
    (h : (enter op).run set = .error e left) :
    left = set ∧
      (set.byName.contains op.name ∧ e = .sameName op.name ∨
        ¬set.byName.contains op.name ∧ op.name ≠ nopName ∧
          (op.key? = none ∧ e = .missingDiscriminant op.name ∨
            ∃ key position, op.key? = some key ∧ set.position? key = some position ∧
              e = .sameEncoding op.name
                ((set.operations[position]?.map Operation.name).getD []))) := by
  rw [run_enter] at h
  split at h
  · next hname =>
    obtain ⟨rfl, rfl⟩ := EStateM.Result.error.inj h
    exact ⟨rfl, .inl ⟨hname, rfl⟩⟩
  · next hname =>
    split at h
    · contradiction
    · next hnop =>
      split at h
      · next hkey =>
        obtain ⟨rfl, rfl⟩ := EStateM.Result.error.inj h
        exact ⟨rfl, .inr ⟨hname, hnop, .inl ⟨hkey, rfl⟩⟩⟩
      · next key hkey =>
        split at h
        · next position hposition =>
          obtain ⟨rfl, rfl⟩ := EStateM.Result.error.inj h
          exact ⟨rfl, .inr ⟨hname, hnop, .inr ⟨key, position, hkey, hposition, rfl⟩⟩⟩
        · contradiction

theorem add_eq_ok_iff {set larger : InstructionSet} {op : Operation} :
    set.add op = .ok larger ↔ (enter op).run set = .ok () larger := by
  unfold add
  cases (enter op).run set <;> simp

theorem add_eq_error_iff {set : InstructionSet} {op : Operation} {e : ClashError} :
    set.add op = .error e ↔ (enter op).run set = .error e set := by
  unfold add
  cases h : (enter op).run set with
  | ok => simp
  | error e' left => simp [(enter_error_cases h).1]

theorem attempt_eq (set : InstructionSet) (op : Operation) :
    set.attempt op = match set.add op with
      | .ok larger => larger
      | .error _ => set := by
  cases h : set.add op with
  | ok larger => rw [attempt, add_eq_ok_iff.1 h]
  | error e => rw [attempt, add_eq_error_iff.1 h]

theorem add_cases {set larger : InstructionSet} {op : Operation} (h : set.add op = .ok larger) :
    set.byName[op.name]? = none ∧
      (op.name = nopName ∧ larger = { set.append op with nop := some set.size } ∨
        op.name ≠ nopName ∧ ∃ key, op.key? = some key ∧ set.position? key = none ∧
          larger = (set.append op).store op.opcode key.value set.size) := by
  rw [add_eq_ok_iff, run_enter] at h
  split at h
  · contradiction
  · next hname =>
    refine ⟨by simpa using hname, ?_⟩
    split at h
    · next hnop => exact .inl ⟨hnop, (EStateM.Result.ok.inj h).2.symm⟩
    · next hnop =>
      split at h
      · contradiction
      · next key hkey =>
        split at h
        · contradiction
        · next hnew => exact .inr ⟨hnop, key, hkey, hnew, (EStateM.Result.ok.inj h).2.symm⟩

theorem wellFormed_empty : WellFormed empty where
  byName := by simp [Indexes, empty]
  byKey := by
    intro key position
    cases key <;> simp [empty, position?]
  nop := by simp [empty]
  keyed := by simp [empty]
  formats := by simp [empty]

theorem formats_append {set : InstructionSet} (h : set.WellFormed) (op : Operation)
    (opcode : BitVec 8) : (set.append op).formats[opcode]? =
      ((set.append op).operations.toList.find? fun o ↦ o.opcode = opcode).map Operation.format := by
  have hmem : opcode ∈ set.formats ↔
      (set.operations.toList.find? fun o ↦ o.opcode = opcode).isSome := by
    rw [← Std.HashMap.isSome_getElem?_iff_mem, h.formats, Option.isSome_map]
  simp only [append, Std.HashMap.getElem?_insertIfNew, Array.toList_push, List.find?_append,
    h.formats]
  by_cases hop : op.opcode = opcode
  · cases hfind : set.operations.toList.find? fun o ↦ o.opcode = opcode with
    | none => simp [hop, hmem, hfind]
    | some first => simp [hop, hmem, hfind]
  · simp [hop]

theorem WellFormed.add {set larger : InstructionSet} {op : Operation} (h : set.WellFormed)
    (hadd : set.add op = .ok larger) : larger.WellFormed := by
  obtain ⟨hname, hcases⟩ := add_cases hadd
  have hbyName :
      Indexes ((set.append op).byName[·]?) (fun op ↦ some op.name) (set.append op).operations := by
    refine h.byName.push_of_some rfl hname fun name ↦ ?_
    simp [append, size, Std.HashMap.getElem?_insert]
  have hkeyed (hop : op.name ≠ nopName → op.key?.isSome) :
      ∀ o ∈ (set.append op).operations, o.name ≠ nopName → o.key?.isSome := by
    intro o ho
    rcases Array.mem_push.1 ho with ho | rfl
    · exact h.keyed o ho
    · exact hop
  rcases hcases with ⟨hnop, rfl⟩ | ⟨hnop, key, hkey, hnew, rfl⟩
  · -- the new operation owns the zero word and stays out of the tables of keys
    have hbyKey : Indexes set.position? Operation.storedKey? (set.append op).operations :=
      h.byKey.push_of_none (by simp [Operation.storedKey?, hnop])
    refine ⟨hbyName, ?_, ?_, hkeyed (absurd hnop), formats_append h op⟩
    · intro key position
      rw [← hbyKey key position]
      cases key <;> rfl
    · intro position
      have hold : ¬∃ o, set.operations[position]? = some o ∧ o.name = nopName := by
        intro hex
        obtain ⟨o, ho, hnop'⟩ := hex
        exact h.byName.eq_none_iff.1 hname o (Array.mem_of_getElem? ho) (by rw [hnop', hnop])
      simp only [append, exists_getElem?_push_iff, hold, hnop, size]
      simp [eq_comm]
  · refine ⟨?_, ?_, ?_, ?_, ?_⟩
    · simpa using hbyName
    · rw [operations_store]
      refine h.byKey.push_of_some (by simp [Operation.storedKey?, hnop, hkey]) hnew fun key' ↦ ?_
      rw [position?_store hkey, position?_append]
      rfl
    · intro position
      rw [nop_store, operations_store]
      simp only [append, exists_getElem?_push_iff, hnop, and_false, false_or]
      exact h.nop position
    · simpa using hkeyed fun _ ↦ by simp [hkey]
    · simpa using formats_append h op

theorem WellFormed.attempt {set : InstructionSet} (h : set.WellFormed) (op : Operation) :
    (set.attempt op).WellFormed := by
  rw [attempt_eq]
  split
  · next hadd => exact h.add hadd
  · exact h

/-- Every set that is built by adding operations is well-formed, whichever additions fail. -/
theorem wellFormed_ofList (ops : List Operation) : (ofList ops).WellFormed := by
  have hfold (set : InstructionSet) (h : set.WellFormed) : (ops.foldl attempt set).WellFormed := by
    induction ops generalizing set with
    | nil => exact h
    | cons op ops ih => exact ih (set.attempt op) (h.attempt op)
  exact hfold empty wellFormed_empty

namespace WellFormed

variable {set : InstructionSet} {op : Operation} {name : Text} {word : Word}

theorem position?_eq_some_iff (h : set.WellFormed) (key : Key) (position : Nat) :
    set.position? key = some position ↔
      ∃ op, set.operations[position]? = some op ∧ op.name ≠ nopName ∧ op.key? = some key := by
  simpa only [Operation.storedKey?_eq_some_iff] using h.byKey key position

theorem named?_eq_some_iff (h : set.WellFormed) :
    set.named? name = some op ↔ op ∈ set.operations ∧ op.name = name := by
  rw [named?, h.byName.bind_eq_some_iff, Option.some.injEq]

theorem eq_of_name (h : set.WellFormed) {a b : Operation} (ha : a ∈ set.operations)
    (hb : b ∈ set.operations) (hname : a.name = b.name) : a = b := by
  have hnamed := h.named?_eq_some_iff.2 ⟨ha, hname⟩
  exact Option.some.inj (hnamed.symm.trans (h.named?_eq_some_iff.2 ⟨hb, rfl⟩))

theorem find?_eq_some_iff (h : set.WellFormed) (hword : word ≠ 0#32) :
    set.find? word = some op ↔
      op ∈ set.operations ∧ op.name ≠ nopName ∧ op.key? = some word.key := by
  rw [find?, if_neg hword, h.byKey.bind_eq_some_iff, Operation.storedKey?_eq_some_iff]

theorem find?_zero_eq_some_iff (h : set.WellFormed) :
    set.find? 0#32 = some op ↔ op ∈ set.operations ∧ op.name = nopName := by
  rw [find?, if_pos rfl, Option.bind_eq_some_iff]
  constructor
  · intro hfind
    obtain ⟨position, hp, hop⟩ := hfind
    obtain ⟨o, ho, hnop⟩ := (h.nop position).1 hp
    obtain rfl : o = op := Option.some.inj (ho.symm.trans hop)
    exact ⟨Array.mem_of_getElem? hop, hnop⟩
  · intro hop
    obtain ⟨position, hp⟩ := Array.mem_iff_getElem?.1 hop.1
    exact ⟨position, (h.nop position).2 ⟨op, hp, hop.2⟩, hp⟩

theorem mem_of_find? (h : set.WellFormed) (hfind : set.find? word = some op) :
    op ∈ set.operations := by
  by_cases hword : word = 0#32
  · subst hword
    exact (h.find?_zero_eq_some_iff.1 hfind).1
  · exact ((h.find?_eq_some_iff hword).1 hfind).1

end WellFormed

end InstructionSet

end Mips32
