import Mips32.Proofs.Numerals
import Mips32.Proofs.Registers

namespace Mips32

open Text

namespace Literal

def Writes (text : Text) (v : Word) : Prop :=
  ∃ cut : Cut text, cut.digits ≠ [] ∧ ∃ n, Denotes cut.radix cut.digits n ∧
    (v.toNat : Int) = (if cut.negative then -(n : Int) else n) % 2 ^ 32

theorem parse_eq_ok_iff_writes {t : Text} {v : Word} : parse t = .ok v ↔ Writes t v :=
  ⟨fun h ↦ ⟨.ofText t, (Cut.ofText t).parse_eq_ok_iff.1 h⟩, fun ⟨cut, h⟩ ↦ cut.parse_eq_ok_iff.2 h⟩

end Literal

namespace AddressText

/-- Up to the blanks around it, the text is `x(y)` with no other parenthesis. -/
structure Based (t x y : Text) : Prop where
  eq : trim t = x ++ '(' :: (y ++ [')'])
  offset : hasParenthesis x = false
  base : hasParenthesis y = false

/-- The text has parentheses, and they are not one pair that closes it. -/
def Misplaced (t : Text) : Prop :=
  hasParenthesis t ∧ (t.filter isParenthesis = ['(', ')'] → (trim t).getLast? ≠ some ')')

/-- An address is a number, a base in parentheses, or a number before such a base. -/
inductive Writes : Text → Word → Register → Prop
  | number {t : Text} {n : Word} (h : hasParenthesis t = false)
      (hn : Literal.Writes (trim t) n) : Writes t n .zero
  | base {t x y : Text} {r : Register} (h : Based t x y) (hx : trim x = [])
      (hr : Register.Spells (trim y) r) : Writes t 0#32 r
  | both {t x y : Text} {n : Word} {r : Register} (h : Based t x y)
      (hn : Literal.Writes (trim x) n) (hr : Register.Spells (trim y) r) : Writes t n r

/-- What is wrong with a text that is no address. A base counts only if nothing is wrong with what
stands before it. -/
inductive Fault : Text → SyntaxError → Prop
  | parentheses {t : Text} (h : Misplaced t) : Fault t (.invalidAddress t)
  | number {t : Text} {reason : LiteralError} (h : hasParenthesis t = false)
      (hn : Literal.parse (trim t) = .error reason) : Fault t (.invalidNumber (trim t) reason)
  | offset {t x y : Text} {reason : LiteralError} (h : Based t x y) (hne : trim x ≠ [])
      (hn : Literal.parse (trim x) = .error reason) : Fault t (.invalidNumber (trim x) reason)
  | base {t x y : Text} (h : Based t x y) (hx : trim x = [] ∨ ∃ n, Literal.Writes (trim x) n)
      (hr : ∀ r, ¬Register.Spells (trim y) r) : Fault t (.invalidRegister (trim y))

variable {t x y o b : Text}

theorem split?_eq_bare_iff :
    split? t = some ⟨o, none⟩ ↔ hasParenthesis t = false ∧ o = trim t := by
  constructor
  · intro h
    have hp := hasParenthesis_of_bare h
    rw [split?_of_bare hp, Option.some.injEq, AddressText.mk.injEq] at h
    exact ⟨hp, h.1.symm⟩
  · rintro ⟨hp, rfl⟩
    exact split?_of_bare hp

theorem split?_eq_some_iff_based :
    split? t = some ⟨o, some b⟩ ↔ ∃ x y, Based t x y ∧ o = trim x ∧ b = trim y := by
  rw [split?_eq_based_iff]
  constructor
  · rintro ⟨x, y, heq, hx, hy, ho, hb⟩
    exact ⟨x, y, ⟨heq, hx, hy⟩, ho, hb⟩
  · rintro ⟨x, y, ⟨heq, hx, hy⟩, ho, hb⟩
    exact ⟨x, y, heq, hx, hy, ho, hb⟩

theorem Based.split?_eq (h : Based t x y) : split? t = some ⟨trim x, some (trim y)⟩ :=
  split?_eq_some_iff_based.2 ⟨x, y, h, rfl, rfl⟩

theorem split?_eq_none_iff : split? t = none ↔ hasParenthesis t ∧ ∀ x y, ¬Based t x y := by
  constructor
  · intro h
    refine ⟨?_, fun x y hxy ↦ ?_⟩
    · by_contra hp
      rw [split?_of_bare (Bool.eq_false_iff.2 hp)] at h
      contradiction
    · rw [hxy.split?_eq] at h
      contradiction
  · rintro ⟨hp, hbased⟩
    rw [Option.eq_none_iff_forall_ne_some]
    rintro ⟨o, _ | b⟩ h
    · rw [hasParenthesis_of_bare h] at hp
      contradiction
    · obtain ⟨x, y, hxy, -⟩ := split?_eq_some_iff_based.1 h
      exact hbased x y hxy

theorem filter_isParenthesis_eq_nil_iff :
    t.filter isParenthesis = [] ↔ hasParenthesis t = false := by
  rw [List.filter_eq_nil_iff, hasParenthesis, List.any_eq_false]

theorem exists_based_iff :
    (∃ x y, Based t x y) ↔ t.filter isParenthesis = ['(', ')'] ∧ (trim t).getLast? = some ')' := by
  have hblank : ∀ c, isBlank c → isParenthesis c = false := by
    intro c hc
    refine Bool.eq_false_iff.2 fun hp ↦ ?_
    rw [Mnemonic.isBlank_of_isSolid (legal_of_isParenthesis hp).2] at hc
    contradiction
  rw [← filter_trim hblank]
  constructor
  · rintro ⟨x, y, heq, hx, hy⟩
    have hopen : (x ++ '(' :: y).filter isParenthesis = ['('] := by
      rw [List.filter_append, filter_isParenthesis_eq_nil_iff.2 hx, List.filter_cons_of_pos rfl,
        filter_isParenthesis_eq_nil_iff.2 hy, List.nil_append]
    rw [← List.cons_append, ← List.append_assoc] at heq
    rw [heq, List.filter_append, hopen, List.getLast?_concat]
    exact ⟨rfl, rfl⟩
  · rintro ⟨hfilter, hlast⟩
    obtain ⟨u, hu⟩ := List.getLast?_eq_some_iff.1 hlast
    rw [hu, List.filter_append] at hfilter
    have hopen : u.filter isParenthesis = ['('] := List.append_cancel_right hfilter
    obtain ⟨x, y, rfl, hx, -, hy⟩ := List.filter_eq_cons_iff.1 hopen
    refine ⟨x, y, by rw [hu, List.append_assoc, List.cons_append], ?_, ?_⟩
    · exact filter_isParenthesis_eq_nil_iff.1 (List.filter_eq_nil_iff.2 hx)
    · exact filter_isParenthesis_eq_nil_iff.1 hy

theorem misplaced_iff : Misplaced t ↔ hasParenthesis t ∧ ∀ x y, ¬Based t x y := by
  have hbased := exists_based_iff (t := t).not
  simp only [not_exists, not_and] at hbased
  rw [Misplaced, hbased]

theorem shape_cases (t : Text) :
    hasParenthesis t = false ∨ (∃ x y, Based t x y) ∨ Misplaced t := by
  by_cases hp : hasParenthesis t
  · by_cases h : ∃ x y, Based t x y
    · exact .inr (.inl h)
    · exact .inr (.inr (misplaced_iff.2 ⟨hp, by simpa using h⟩))
  · exact .inl (Bool.eq_false_iff.2 hp)

end AddressText

namespace Operand

open AddressText

variable {t o : Text} {n b : Word} {e : SyntaxError}

theorem readRegister_eq_ok_iff_spells :
    readRegister t = .ok n ↔ ∃ r, Register.Spells t r ∧ n = BitVec.ofNat 32 r.index := by
  simp only [readRegister_eq_ok_iff, Register.parse?_eq_some_iff]

theorem readRegister_eq_error_iff :
    readRegister t = .error e ↔ e = .invalidRegister t ∧ ∀ r, ¬Register.Spells t r := by
  simp only [← Register.parse?_eq_some_iff]
  cases h : Register.parse? t with
  | none => simp [readRegister, h, eq_comm]
  | some r => simp [readRegister, h]

theorem readNumber_eq_error_iff :
    readNumber t = .error e ↔ ∃ reason, Literal.parse t = .error reason ∧
      e = .invalidNumber t reason := by
  rw [readNumber, mapError_eq_error_iff]
  simp only [eq_comm]

theorem readOffset_eq_ok_iff_writes :
    (if o.isEmpty then .ok 0#32 else readNumber o) = .ok n ↔
      o = [] ∧ n = 0#32 ∨ Literal.Writes o n := by
  rw [← Literal.parse_eq_ok_iff_writes]
  cases o with
  | nil =>
    have hempty : Literal.parse [] = .error .empty := rfl
    simp [hempty, @eq_comm _ n]
  | cons c o => simp [readNumber, mapError_eq_ok_iff]

theorem readOffset_eq_error_iff :
    (if o.isEmpty then .ok 0#32 else readNumber o) = .error e ↔
      o ≠ [] ∧ ∃ reason, Literal.parse o = .error reason ∧ e = .invalidNumber o reason := by
  cases o with
  | nil => simp
  | cons c o => simp [readNumber_eq_error_iff]

theorem readAddress_of_bare (h : hasParenthesis t = false) :
    readAddress t = (readNumber (trim t)).map fun n ↦ (n, 0#32) := by
  rw [readAddress, split?_of_bare h]

theorem readAddress_of_misplaced (h : Misplaced t) :
    readAddress t = .error (.invalidAddress t) := by
  rw [readAddress, split?_eq_none_iff.2 (misplaced_iff.1 h)]

theorem readAddress_eq_ok_iff :
    readAddress t = .ok (n, b) ↔ ∃ r, AddressText.Writes t n r ∧ b = BitVec.ofNat 32 r.index := by
  constructor
  · intro h
    rcases shape_cases t with hp | ⟨x, y, hxy⟩ | hmisplaced
    · rw [readAddress_of_bare hp] at h
      obtain ⟨m, hm, heq⟩ := map_eq_ok_iff.1 h
      obtain ⟨rfl, rfl⟩ := Prod.mk.inj heq
      refine ⟨.zero, .number hp ?_, rfl⟩
      exact Literal.parse_eq_ok_iff_writes.1 (mapError_eq_ok_iff.1 hm)
    · rw [readAddress_of_split hxy.split?_eq] at h
      obtain ⟨m, hm, h⟩ := bind_eq_ok_iff.1 h
      obtain ⟨c, hc, heq⟩ := map_eq_ok_iff.1 h
      obtain ⟨rfl, rfl⟩ := Prod.mk.inj heq
      obtain ⟨r, hr, rfl⟩ := readRegister_eq_ok_iff_spells.1 hc
      rcases readOffset_eq_ok_iff_writes.1 hm with ⟨hx, rfl⟩ | hm
      · exact ⟨r, .base hxy hx hr, rfl⟩
      · exact ⟨r, .both hxy hm hr, rfl⟩
    · rw [readAddress_of_misplaced hmisplaced] at h
      contradiction
  · rintro ⟨r, h, rfl⟩
    cases h with
    | number hp hn =>
      rw [readAddress_of_bare hp, readNumber, Literal.parse_eq_ok_iff_writes.2 hn]
      rfl
    | base hxy hx hr =>
      rw [readAddress_of_split hxy.split?_eq, readOffset_eq_ok_iff_writes.2 (.inl ⟨hx, rfl⟩),
        readRegister_eq_ok_iff_spells.2 ⟨r, hr, rfl⟩]
      rfl
    | both hxy hn hr =>
      rw [readAddress_of_split hxy.split?_eq, readOffset_eq_ok_iff_writes.2 (.inr hn),
        readRegister_eq_ok_iff_spells.2 ⟨r, hr, rfl⟩]
      rfl

theorem readAddress_eq_error_iff : readAddress t = .error e ↔ Fault t e := by
  constructor
  · intro h
    rcases shape_cases t with hp | ⟨x, y, hxy⟩ | hmisplaced
    · rw [readAddress_of_bare hp, map_eq_error_iff] at h
      obtain ⟨reason, hreason, rfl⟩ := readNumber_eq_error_iff.1 h
      exact .number hp hreason
    · rw [readAddress_of_split hxy.split?_eq] at h
      rcases bind_eq_error_iff.1 h with h | ⟨n, hn, h⟩
      · obtain ⟨hne, reason, hreason, rfl⟩ := readOffset_eq_error_iff.1 h
        exact .offset hxy hne hreason
      · obtain ⟨rfl, hr⟩ := readRegister_eq_error_iff.1 (map_eq_error_iff.1 h)
        refine .base hxy ?_ hr
        exact (readOffset_eq_ok_iff_writes.1 hn).imp And.left fun hn ↦ ⟨n, hn⟩
    · rw [readAddress_of_misplaced hmisplaced] at h
      obtain rfl := Except.error.inj h
      exact .parentheses hmisplaced
  · intro h
    cases h with
    | parentheses h => exact readAddress_of_misplaced h
    | number hp hn =>
      rw [readAddress_of_bare hp, readNumber, hn]
      rfl
    | offset hxy hne hn =>
      rw [readAddress_of_split hxy.split?_eq, readOffset_eq_error_iff.2 ⟨hne, _, hn, rfl⟩]
      rfl
    | base hxy hx hr =>
      rw [readAddress_of_split hxy.split?_eq]
      have hregister := readRegister_eq_error_iff.2 ⟨rfl, hr⟩
      refine bind_eq_error_iff.2 (.inr ?_)
      rcases hx with hx | ⟨n, hn⟩
      · exact ⟨_, readOffset_eq_ok_iff_writes.2 (.inl ⟨hx, rfl⟩), map_eq_error_iff.2 hregister⟩
      · exact ⟨n, readOffset_eq_ok_iff_writes.2 (.inr hn), map_eq_error_iff.2 hregister⟩

/-- A text splits in one of three ways. With no parenthesis it is an offset alone, up to the blanks
around it. As `x(y)` with no other parenthesis it is an offset and a base. Else it does not split.
So it is read exactly if it is a number, a register in parentheses, or a number before one, and
then as the number's value, zero if there is none, and the register's index, that of `$zero` if
there is none. Misplaced parentheses are reported first, then what is wrong with the offset, then
what is wrong with the base. -/
theorem readAddress_exact (t : Text) :
    (∀ o, split? t = some ⟨o, none⟩ ↔ hasParenthesis t = false ∧ o = trim t) ∧
    (∀ o b, split? t = some ⟨o, some b⟩ ↔ ∃ x y, Based t x y ∧ o = trim x ∧ b = trim y) ∧
    (split? t = none ↔ hasParenthesis t ∧ ∀ x y, ¬Based t x y) ∧
    (∀ n b, readAddress t = .ok (n, b) ↔
      ∃ r, AddressText.Writes t n r ∧ b = BitVec.ofNat 32 r.index) ∧
    (∀ q, readAddress t = .error (.invalidAddress q) ↔ q = t ∧ Misplaced t) ∧
    ∀ e, readAddress t = .error e ↔ Fault t e := by
  refine ⟨fun o ↦ split?_eq_bare_iff, fun o b ↦ split?_eq_some_iff_based, split?_eq_none_iff,
    fun n b ↦ readAddress_eq_ok_iff, fun q ↦ ?_, fun e ↦ readAddress_eq_error_iff⟩
  rw [readAddress_eq_error_iff]
  constructor
  · intro h
    cases h with
    | parentheses h => exact ⟨rfl, h⟩
  · rintro ⟨rfl, h⟩
    exact .parentheses h

-- a bad number is reported before a bad base, and text after the parenthesis before both
example : readAddress "4x ( $t )".toList =
      .error (.invalidNumber "4x".toList (.invalidDigit "4x".toList 'x')) ∧
    readAddress "4x($t)9".toList = .error (.invalidAddress "4x($t)9".toList) :=
  ⟨rfl, rfl⟩

end Operand

end Mips32
