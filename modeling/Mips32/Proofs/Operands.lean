import Mathlib.Data.List.Forall2
import Mathlib.Data.List.Nodup
import Mips32.Operand
import Mips32.Proofs.Addresses
import Mips32.Shape

namespace Mips32

theorem bind_eq_ok_iff {ε α β : Type} {x : Except ε α} {f : α → Except ε β} {b : β} :
    x >>= f = .ok b ↔ ∃ a, x = .ok a ∧ f a = .ok b := by
  cases x with
  | error e => exact ⟨fun h ↦ by contradiction, fun ⟨_, h, _⟩ ↦ by contradiction⟩
  | ok a => exact ⟨fun h ↦ ⟨a, rfl, h⟩, fun ⟨_, h, hf⟩ ↦ Except.ok.inj h ▸ hf⟩

theorem map_eq_ok_iff {ε α β : Type} {x : Except ε α} {f : α → β} {b : β} :
    x.map f = .ok b ↔ ∃ a, x = .ok a ∧ f a = b := by
  cases x <;> simp [Except.map]

theorem mapError_eq_ok_iff {ε δ α : Type} {x : Except ε α} {f : ε → δ} {a : α} :
    x.mapError f = .ok a ↔ x = .ok a := by
  cases x <;> simp [Except.mapError]

theorem map_eq_error_iff {ε α β : Type} {x : Except ε α} {f : α → β} {e : ε} :
    x.map f = .error e ↔ x = .error e := by
  cases x <;> simp [Except.map]

theorem mapError_eq_error_iff {ε δ α : Type} {x : Except ε α} {f : ε → δ} {d : δ} :
    x.mapError f = .error d ↔ ∃ e, x = .error e ∧ f e = d := by
  cases x <;> simp [Except.mapError]

theorem bind_eq_error_iff {ε α β : Type} {x : Except ε α} {f : α → Except ε β} {e : ε} :
    x >>= f = .error e ↔ x = .error e ∨ ∃ a, x = .ok a ∧ f a = .error e := by
  cases x with
  | error d =>
    change Except.error d = Except.error e ↔ _
    simp
  | ok a =>
    refine ⟨fun h ↦ .inr ⟨a, rfl, h⟩, ?_⟩
    rintro (h | ⟨_, h, hf⟩)
    · contradiction
    · exact Except.ok.inj h ▸ hf

namespace Operand

theorem readAddress_of_split {t offset base : Text}
    (h : AddressText.split? t = some ⟨offset, some base⟩) :
    readAddress t = (if offset.isEmpty then .ok 0#32 else readNumber offset) >>= fun n ↦
      (readRegister base).map fun b ↦ (n, b) := by
  simp only [readAddress, h]
  split <;> rfl

/-- An operand as the argument of a role gives it: it writes the fields of the role, and it
names the hint that it writes if the role is that of a hint. -/
structure Fills (role : Role) (operand : Operand) : Prop where
  fields : operand.writes.map Prod.fst = role.fields
  hint_eq_none : role ≠ .hint → operand.hint = none
  hint_written : role = .hint →
    ∃ n h, operand = ⟨[(.rt, n)], some h⟩ ∧ Hint.ofValue? n = some h

theorem fills_of_read {targetInBytes : Bool} {role : Role} {text : Text} {operand : Operand}
    (h : read targetInBytes role text = .ok operand) : Fills role operand := by
  cases role with
  | hint =>
    obtain ⟨n, -, h⟩ := bind_eq_ok_iff.1 h
    split at h
    · next hint hn =>
      obtain rfl := Except.ok.inj h
      exact ⟨rfl, fun hne ↦ absurd rfl hne, fun _ ↦ ⟨n, hint, rfl, hn⟩⟩
    · contradiction
  | _ =>
    obtain ⟨v, -, rfl⟩ := map_eq_ok_iff.1 h
    exact ⟨rfl, fun _ ↦ rfl, fun hrole ↦ by contradiction⟩

theorem read_hint_of_known (targetInBytes : Bool) {text : Text} {n : Word} {hint : Hint}
    (hn : readNumber text = .ok n) (hknown : Hint.ofValue? n = some hint) :
    read targetInBytes .hint text = .ok ⟨[(.rt, n)], some hint⟩ := by
  refine bind_eq_ok_iff.2 ⟨n, hn, ?_⟩
  rw [hknown]

theorem read_hint_of_unknown (targetInBytes : Bool) {text : Text} {n : Word}
    (hn : readNumber text = .ok n) (hunknown : Hint.ofValue? n = none) :
    read targetInBytes .hint text = .error (.unknownHint n) := by
  simp [read, hn, hunknown, bind, Except.bind]

theorem readAll_cons_eq_ok_iff {targetInBytes : Bool} {role : Role} {roles : List Role}
    {text : Text} {texts : List Text} {operands : List Operand} :
    readAll targetInBytes (role :: roles) (text :: texts) = .ok operands ↔
      ∃ o os, read targetInBytes role text = .ok o ∧ readAll targetInBytes roles texts = .ok os ∧
        operands = o :: os := by
  simp only [readAll, bind_eq_ok_iff]
  constructor
  · rintro ⟨o, ho, os, hos, h⟩
    exact ⟨o, os, ho, hos, (Except.ok.inj h).symm⟩
  · rintro ⟨o, os, ho, hos, rfl⟩
    exact ⟨o, ho, os, hos, rfl⟩

variable {targetInBytes : Bool} {roles : List Role} {operands : List Operand}

theorem fills_of_readAll {texts : List Text} (hlen : texts.length = roles.length)
    (h : readAll targetInBytes roles texts = .ok operands) : List.Forall₂ Fills roles operands := by
  induction roles generalizing texts operands with
  | nil =>
    obtain rfl : operands = [] := by simpa [readAll, eq_comm] using h
    exact .nil
  | cons role roles ih =>
    cases texts with
    | nil => simp at hlen
    | cons text texts =>
      obtain ⟨o, os, ho, hos, rfl⟩ := readAll_cons_eq_ok_iff.1 h
      exact .cons (fills_of_read ho) (ih (by simpa using hlen) hos)

theorem exists_read_of_mem_zip {texts : List Text}
    (h : readAll targetInBytes roles texts = .ok operands) {role : Role} {text : Text}
    (hmem : (role, text) ∈ roles.zip texts) :
    ∃ o ∈ operands, read targetInBytes role text = .ok o := by
  induction roles generalizing texts operands with
  | nil => simp at hmem
  | cons r roles ih =>
    cases texts with
    | nil => simp at hmem
    | cons a texts =>
      obtain ⟨o, os, ho, hos, rfl⟩ := readAll_cons_eq_ok_iff.1 h
      rw [List.zip_cons_cons, List.mem_cons, Prod.mk.injEq] at hmem
      rcases hmem with ⟨rfl, rfl⟩ | hmem
      · exact ⟨o, List.mem_cons_self, ho⟩
      · obtain ⟨o', ho', hread⟩ := ih hos hmem
        exact ⟨o', List.mem_cons_of_mem o ho', hread⟩

theorem readAll_map {text : Role → Text} {operand : Role → Operand}
    (h : ∀ r ∈ roles, read targetInBytes r (text r) = .ok (operand r)) :
    readAll targetInBytes roles (roles.map text) = .ok (roles.map operand) := by
  induction roles with
  | nil => rfl
  | cons role roles ih =>
    rw [List.forall_mem_cons] at h
    exact readAll_cons_eq_ok_iff.2 ⟨_, _, h.1, ih h.2, rfl⟩

theorem readAll_map_error {text : Role → Text} (operand : Role → Operand) {e : SyntaxError}
    (h : ∀ r ∈ roles, read targetInBytes r (text r) = .ok (operand r) ∨
      read targetInBytes r (text r) = .error e)
    (he : ∃ r ∈ roles, read targetInBytes r (text r) = .error e) :
    readAll targetInBytes roles (roles.map text) = .error e := by
  induction roles with
  | nil => simp at he
  | cons role roles ih =>
    rw [List.forall_mem_cons] at h
    obtain ⟨hrole, hroles⟩ := h
    rw [List.map_cons, readAll]
    rcases hrole with hrole | hrole
    · have hne : ∃ r ∈ roles, read targetInBytes r (text r) = .error e := by
        obtain ⟨r, hr, hre⟩ := he
        rcases List.mem_cons.1 hr with rfl | hr
        · rw [hrole] at hre; contradiction
        · exact ⟨r, hr, hre⟩
      rw [hrole, ih hroles hne]
      rfl
    · rw [hrole]
      rfl

theorem apply_cons (operand : Operand) (operands : List Operand) (fields : Fields) :
    apply (operand :: operands) fields = apply operands (apply [operand] fields) := by
  simp [apply, List.foldl_append]

theorem apply_cases (operands : List Operand) (fields : Fields) (f : Field) :
    (∃ v, (f, v) ∈ operands.flatMap writes ∧ apply operands fields f = some v) ∨
      (∀ e ∈ operands.flatMap writes, e.1 ≠ f) ∧ apply operands fields f = fields f := by
  unfold apply
  induction operands.flatMap writes generalizing fields with
  | nil => exact .inr ⟨by simp, rfl⟩
  | cons e es ih =>
    rw [List.foldl_cons]
    rcases ih (fields.set e.1 e.2) with ⟨v, hv, h⟩ | ⟨hne, h⟩
    · exact .inl ⟨v, List.mem_cons_of_mem e hv, h⟩
    · by_cases hf : f = e.1
      · refine .inl ⟨e.2, by simp [hf], ?_⟩
        rw [h, hf, Fields.set_self]
      · refine .inr ⟨List.forall_mem_cons.2 ⟨fun h ↦ hf h.symm, hne⟩, ?_⟩
        rw [h, Fields.set_of_ne _ _ hf]

theorem map_fst_writes (h : List.Forall₂ Fills roles operands) :
    (operands.flatMap writes).map Prod.fst = roles.flatMap Role.fields := by
  induction h with
  | nil => rfl
  | cons ho _ ih => rw [List.flatMap_cons, List.map_append, ih, ho.fields, List.flatMap_cons]

theorem apply_of_mem (h : List.Forall₂ Fills roles operands)
    (honce : (roles.flatMap Role.fields).Nodup) {f : Field} {v : Word}
    (hv : (f, v) ∈ operands.flatMap writes) (fields : Fields) :
    apply operands fields f = some v := by
  rw [← map_fst_writes h] at honce
  rcases apply_cases operands fields f with ⟨u, hu, happly⟩ | ⟨hne, -⟩
  · have heq := List.inj_on_of_nodup_map honce hu hv rfl
    rw [happly, (Prod.mk.inj heq).2]
  · exact absurd rfl (hne _ hv)

theorem getLast?_filter_cons {α : Type} (p : α → Bool) (a : α) (l : List α) :
    ((a :: l).filter p).getLast? =
      ((l.filter p).getLast?).or (if p a then some a else none) := by
  cases hp : p a with
  | false => simp [hp]
  | true => cases hlast : (l.filter p).getLast? <;> simp [hp, List.getLast?_cons, hlast]

def lastWriter? (roles : List Role) (f : Field) : Option Role :=
  (roles.filter fun r ↦ f ∈ r.fields).getLast?

theorem lastWriter?_cons (role : Role) (roles : List Role) (f : Field) :
    lastWriter? (role :: roles) f =
      (lastWriter? roles f).or (if f ∈ role.fields then some role else none) := by
  rw [lastWriter?, getLast?_filter_cons]
  simp only [decide_eq_true_eq]
  rfl

theorem mem_of_lastWriter? {role : Role} {f : Field} (h : lastWriter? roles f = some role) :
    role ∈ roles ∧ f ∈ role.fields := by
  have hmem := List.mem_filter.1 (List.mem_of_getLast? h)
  exact ⟨hmem.1, of_decide_eq_true hmem.2⟩

theorem lastWriter?_eq_none_iff {f : Field} :
    lastWriter? roles f = none ↔ ∀ r ∈ roles, f ∉ r.fields := by
  simp [lastWriter?]

theorem exists_lastWriter? {f : Field} {role : Role} (hrole : role ∈ roles)
    (hf : f ∈ role.fields) : ∃ last, lastWriter? roles f = some last ∧ f ∈ last.fields := by
  cases hlast : lastWriter? roles f with
  | none => exact absurd hf (lastWriter?_eq_none_iff.1 hlast role hrole)
  | some last => exact ⟨last, rfl, (mem_of_lastWriter? hlast).2⟩

/-- Each role overwrites what the roles before it wrote. -/
theorem apply_map {operand : Role → Operand} {value : Role → Field → Word}
    (h : ∀ r, (operand r).writes = r.fields.map fun f ↦ (f, value r f)) (roles : List Role)
    (fields : Fields) (f : Field) :
    apply (roles.map operand) fields f =
      ((lastWriter? roles f).map fun r ↦ value r f).or (fields f) := by
  have hone (r : Role) (fields : Fields) :
      apply [operand r] fields f = if f ∈ r.fields then some (value r f) else fields f := by
    simp only [apply, List.flatMap_singleton, h]
    cases r <;> cases f <;> rfl
  induction roles generalizing fields with
  | nil => rfl
  | cons role roles ih =>
    rw [List.map_cons, apply_cons, ih, hone, lastWriter?_cons]
    cases lastWriter? roles f with
    | some r => rfl
    | none => by_cases hf : f ∈ role.fields <;> simp [hf]

theorem exists_write_iff (h : List.Forall₂ Fills roles operands) (f : Field) :
    (∃ v, (f, v) ∈ operands.flatMap writes) ↔ ∃ r ∈ roles, f ∈ r.fields := by
  induction h with
  | nil => simp
  | @cons r o roles operands ho _ ih =>
    have hfields : (∃ v, (f, v) ∈ o.writes) ↔ f ∈ r.fields := by
      rw [← ho.fields]
      simp
    simp only [List.flatMap_cons, List.mem_append, exists_or, ih, hfields, List.mem_cons,
      or_and_right, exists_eq_left]

theorem lastHint?_cons (operand : Operand) (operands : List Operand) :
    lastHint? (operand :: operands) = (lastHint? operands).or operand.hint := by
  unfold lastHint?
  cases h : operand.hint with
  | none => simp [h]
  | some hint => simp [h, List.getLast?_cons]

theorem apply_of_not_written (h : List.Forall₂ Fills roles operands) {f : Field}
    (hf : ∀ r ∈ roles, f ∉ r.fields) (fields : Fields) : apply operands fields f = fields f := by
  rcases apply_cases operands fields f with ⟨v, hv, -⟩ | ⟨-, hfields⟩
  · obtain ⟨r, hr, hrf⟩ := (exists_write_iff h f).1 ⟨v, hv⟩
    exact absurd hrf (hf r hr)
  · exact hfields

theorem lastHint?_eq_none (h : List.Forall₂ Fills roles operands) (hhint : .hint ∉ roles) :
    lastHint? operands = none := by
  induction h with
  | nil => rfl
  | @cons r o roles operands ho _ ih =>
    rw [List.mem_cons, not_or] at hhint
    rw [lastHint?_cons, ih hhint.2, ho.hint_eq_none fun hr ↦ hhint.1 hr.symm]
    rfl

/-- With no register operand in `rt`, the hint named last is the one that stands there. -/
theorem lastHint?_eq_some (h : List.Forall₂ Fills roles operands) (hrt : .rt ∉ roles)
    (hhint : .hint ∈ roles) (fields : Fields) :
    ∃ n hint, apply operands fields .rt = some n ∧ Hint.ofValue? n = some hint ∧
      lastHint? operands = some hint := by
  induction h generalizing fields with
  | nil => simp at hhint
  | @cons r o roles operands ho hrest ih =>
    rw [List.mem_cons, not_or] at hrt
    rw [lastHint?_cons, apply_cons]
    by_cases hmem : Role.hint ∈ roles
    · obtain ⟨n, hint, hn, hvalue, hlast⟩ := ih hrt.2 hmem (apply [o] fields)
      exact ⟨n, hint, hn, hvalue, by rw [hlast, Option.some_or]⟩
    · have hr : r = .hint := by simpa [hmem, eq_comm] using hhint
      obtain ⟨n, hint, rfl, hvalue⟩ := ho.hint_written hr
      have hunwritten : ∀ r ∈ roles, Field.rt ∉ r.fields := by
        intro r hr hf
        cases r <;> simp_all [Role.fields]
      refine ⟨n, hint, ?_, hvalue, ?_⟩
      · rw [apply_of_not_written hrest hunwritten]
        simp [apply]
      · rw [lastHint?_eq_none hrest hmem, Option.none_or]

end Operand

end Mips32
