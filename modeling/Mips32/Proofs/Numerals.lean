import Mathlib.Data.Nat.Digits.Defs
import Mips32.Proofs.Operands

namespace Mips32.Literal

open Text

def IsDigit (radix d : Nat) (c : Char) : Prop :=
  d < radix ∧ (c = d.digitChar ∨ c = d.digitChar.toUpper)

/-- The digits write `n`, the most significant one first. -/
def Denotes (radix : Nat) (digits : Text) (n : Nat) : Prop :=
  ∃ ds : List Nat, List.Forall₂ (IsDigit radix) ds digits ∧ n = Nat.ofDigits radix ds.reverse

/-- The first character that is no digit of the radix. -/
def FirstStray (radix : Nat) (digits : Text) (c : Char) : Prop :=
  ∃ before after, digits = before ++ c :: after ∧ (∀ x ∈ before, ∃ d, IsDigit radix d x) ∧
    ∀ d, ¬IsDigit radix d c

inductive Signed : Text → Bool → Text → Prop
  | minus (u : Text) : Signed ('-' :: u) true u
  | plain {u : Text} (h : ∀ rest, u ≠ '-' :: rest) : Signed u false u

inductive Announced : Text → Nat → Text → Prop
  | hexadecimal {c : Char} (h : c = 'x' ∨ c = 'X') (digits : Text) :
    Announced ('0' :: c :: digits) 16 digits
  | binary {c : Char} (h : c = 'b' ∨ c = 'B') (digits : Text) :
    Announced ('0' :: c :: digits) 2 digits
  | decimal {c : Char} (h : c = 'd' ∨ c = 'D') (digits : Text) :
    Announced ('0' :: c :: digits) 10 digits
  | bare {u : Text} (h : ∀ c rest, u = '0' :: c :: rest → c ∉ ['x', 'X', 'b', 'B', 'd', 'D']) :
    Announced u 10 u

/-- A text without the blanks around it, cut into a sign, a radix and digits. -/
structure Cut (text : Text) where
  negative : Bool
  unsigned : Text
  radix : Nat
  digits : Text
  signed : Signed (trim text) negative unsigned
  announced : Announced unsigned radix digits

variable {radix d : Nat} {digits : Text} {c : Char}

theorem digit?_sixteen_iff :
    digit? 16 c = some d ↔ d < 16 ∧ (c = d.digitChar ∨ c = d.digitChar.toUpper) := by
  constructor
  · intro h
    have htable : ∀ n < 128, ∀ d ∈ digit? 16 (Char.ofNat n), d < 16 ∧
        (Char.ofNat n = d.digitChar ∨ Char.ofNat n = d.digitChar.toUpper) := by decide
    have hascii := (isAlphanum_iff c).1 (isAlphanum_of_digit? h)
    have hc := htable c.toNat (by omega) d
    rw [Char.ofNat_toNat] at hc
    exact hc h
  · rintro ⟨hlt, hc⟩
    have hupper : ∀ d < 16, digit? 16 d.digitChar.toUpper = some d := by decide
    rcases hc with rfl | rfl
    · exact digit?_digitChar (by omega) hlt
    · exact hupper d hlt

theorem digit?_eq_some_iff (h : radix ≤ 16) : digit? radix c = some d ↔ IsDigit radix d c := by
  rw [digit?_eq_some_iff_sixteen h, digit?_sixteen_iff, IsDigit]
  constructor
  · rintro ⟨⟨-, hc⟩, hlt⟩
    exact ⟨hlt, hc⟩
  · rintro ⟨hlt, hc⟩
    exact ⟨⟨by omega, hc⟩, hlt⟩

theorem accumulate_of_digits (h : radix ≤ 16) {ds : List Nat}
    (hds : List.Forall₂ (IsDigit radix) ds digits) (m : Nat) :
    accumulate radix (BitVec.ofNat 32 m) digits =
      .ok (BitVec.ofNat 32 (Nat.ofDigits radix ds.reverse + radix ^ ds.length * m)) := by
  induction hds generalizing m with
  | nil => simp [accumulate]
  | @cons d c ds digits hd _ ih =>
    rw [accumulate, (digit?_eq_some_iff h).2 hd]
    dsimp only
    rw [← BitVec.ofNat_mul, ← BitVec.ofNat_add, ih, Nat.ofDigits_reverse_cons, List.length_cons,
      pow_succ]
    congr 2
    ring

theorem exists_digits_of_accumulate (h : radix ≤ 16) {value v : Word}
    (hacc : accumulate radix value digits = .ok v) :
    ∃ ds, List.Forall₂ (IsDigit radix) ds digits := by
  fun_induction accumulate radix value digits with
  | case1 => exact ⟨[], .nil⟩
  | case2 value c digits d hd ih =>
    obtain ⟨ds, hds⟩ := ih hacc
    exact ⟨d :: ds, .cons ((digit?_eq_some_iff h).1 hd) hds⟩
  | case3 => contradiction

theorem firstStray_of_accumulate (h : radix ≤ 16) {value : Word}
    (hacc : accumulate radix value digits = .error c) : FirstStray radix digits c := by
  fun_induction accumulate radix value digits with
  | case1 => contradiction
  | case2 value x digits d hd ih =>
    obtain ⟨before, after, rfl, hbefore, hc⟩ := ih hacc
    refine ⟨x :: before, after, rfl, List.forall_mem_cons.2 ⟨?_, hbefore⟩, hc⟩
    exact ⟨d, (digit?_eq_some_iff h).1 hd⟩
  | case3 value x digits hd =>
    obtain rfl := Except.error.inj hacc
    refine ⟨[], digits, rfl, by simp, fun d hx ↦ ?_⟩
    rw [(digit?_eq_some_iff h).2 hx] at hd
    contradiction

theorem accumulate_of_firstStray (h : radix ≤ 16) (value : Word)
    (hstray : FirstStray radix digits c) : accumulate radix value digits = .error c := by
  obtain ⟨before, after, rfl, hbefore, hc⟩ := hstray
  induction before generalizing value with
  | nil =>
    have hnone : digit? radix c = none := by
      rw [Option.eq_none_iff_forall_ne_some]
      exact fun d hd ↦ hc d ((digit?_eq_some_iff h).1 hd)
    rw [List.nil_append, accumulate, hnone]
  | cons x before ih =>
    rw [List.forall_mem_cons] at hbefore
    obtain ⟨⟨d, hd⟩, hbefore⟩ := hbefore
    rw [List.cons_append, accumulate, (digit?_eq_some_iff h).2 hd]
    exact ih _ hbefore

theorem accumulate_eq_error_iff (h : radix ≤ 16) (value : Word) :
    accumulate radix value digits = .error c ↔ FirstStray radix digits c :=
  ⟨firstStray_of_accumulate h, accumulate_of_firstStray h value⟩

theorem accumulate_eq_ok_iff (h : radix ≤ 16) {v : Word} :
    accumulate radix 0#32 digits = .ok v ↔ ∃ n, Denotes radix digits n ∧ v = BitVec.ofNat 32 n := by
  have hvalue {ds : List Nat} (hds : List.Forall₂ (IsDigit radix) ds digits) :
      accumulate radix 0#32 digits = .ok (BitVec.ofNat 32 (Nat.ofDigits radix ds.reverse)) :=
    accumulate_of_digits h hds 0
  constructor
  · intro hacc
    obtain ⟨ds, hds⟩ := exists_digits_of_accumulate h hacc
    rw [hvalue hds] at hacc
    exact ⟨_, ⟨ds, hds, rfl⟩, (Except.ok.inj hacc).symm⟩
  · rintro ⟨n, ⟨ds, hds, rfl⟩, rfl⟩
    exact hvalue hds

theorem splitSign_of_signed {s u : Text} {negative : Bool} (h : Signed s negative u) :
    splitSign s = (negative, u) := by
  cases h with
  | minus => rfl
  | plain h =>
    unfold splitSign
    split
    · next rest => exact absurd rfl (h rest)
    · rfl

theorem signed_splitSign (s : Text) : Signed s (splitSign s).1 (splitSign s).2 := by
  unfold splitSign
  split
  · exact .minus _
  · next h => exact .plain h

theorem splitRadix_of_announced {u : Text} (h : Announced u radix digits) :
    splitRadix u = (radix, digits) := by
  cases h with
  | hexadecimal h => simp [splitRadix, h]
  | binary h => rcases h with rfl | rfl <;> rfl
  | decimal h => rcases h with rfl | rfl <;> rfl
  | bare h =>
    unfold splitRadix
    split
    · next c rest =>
      have hc := h c rest rfl
      simp only [List.mem_cons, List.not_mem_nil, or_false, not_or] at hc
      simp [hc]
    · rfl

theorem announced_splitRadix (u : Text) : Announced u (splitRadix u).1 (splitRadix u).2 := by
  unfold splitRadix
  split
  · next c rest =>
    split
    · next h => exact .hexadecimal h rest
    split
    · next h => exact .binary h rest
    split
    · next h => exact .decimal h rest
    · next hx hb hd =>
      refine .bare fun c' rest' heq ↦ ?_
      rw [List.cons.injEq, List.cons.injEq] at heq
      obtain ⟨-, rfl, -⟩ := heq
      simp [not_or.1 hx, not_or.1 hb, not_or.1 hd]
  · next h =>
    exact .bare fun c rest heq ↦ absurd heq (h c rest)

theorem Announced.radix_le {u : Text} (h : Announced u radix digits) : radix ≤ 16 := by
  cases h <;> omega

/-- A word that is negated or not is the number with its sign modulo 2^32. -/
theorem eq_signed_iff (negative : Bool) (n : Nat) (v : Word) :
    v = (if negative then -BitVec.ofNat 32 n else BitVec.ofNat 32 n) ↔
      (v.toNat : Int) = (if negative then -(n : Int) else n) % 2 ^ 32 := by
  have hofInt : (if negative then -BitVec.ofNat 32 n else BitVec.ofNat 32 n) =
      BitVec.ofInt 32 (if negative then -(n : Int) else n) := by
    cases negative with
    | false => rfl
    | true =>
      change -BitVec.ofInt 32 n = BitVec.ofInt 32 (-n)
      exact BitVec.ofInt_neg.symm
  rw [hofInt, ← BitVec.toNat_inj, BitVec.toNat_ofInt]
  omega

namespace Cut

variable {text : Text}

def ofText (text : Text) : Cut text :=
  ⟨_, _, _, _, signed_splitSign (trim text), announced_splitRadix (splitSign (trim text)).2⟩

theorem eq_ofText (cut : Cut text) : cut = ofText text := by
  obtain ⟨negative, unsigned, radix, digits, hsigned, hannounced⟩ := cut
  have hsign := splitSign_of_signed hsigned
  have hradix := splitRadix_of_announced hannounced
  obtain rfl : (splitSign (trim text)).1 = negative := congrArg Prod.fst hsign
  obtain rfl : (splitSign (trim text)).2 = unsigned := congrArg Prod.snd hsign
  obtain rfl : (splitRadix (splitSign (trim text)).2).1 = radix := congrArg Prod.fst hradix
  obtain rfl : (splitRadix (splitSign (trim text)).2).2 = digits := congrArg Prod.snd hradix
  rfl

theorem parse_eq (cut : Cut text) :
    parse text =
      if cut.digits = [] then .error .empty
      else ((accumulate cut.radix 0#32 cut.digits).mapError (.invalidDigit (trim text))).map
        fun value ↦ if cut.negative then -value else value := by
  simp only [parse, splitSign_of_signed cut.signed, splitRadix_of_announced cut.announced,
    List.isEmpty_iff]
  by_cases h : cut.digits = []
  · rw [if_pos h, if_pos h]
  · rw [if_neg h, if_neg h]
    cases accumulate cut.radix 0#32 cut.digits <;> rfl

theorem parse_eq_empty_iff (cut : Cut text) : parse text = .error .empty ↔ cut.digits = [] := by
  rw [cut.parse_eq]
  by_cases h : cut.digits = []
  · rw [if_pos h]
    exact iff_of_true rfl h
  · rw [if_neg h, map_eq_error_iff, mapError_eq_error_iff]
    refine iff_of_false ?_ h
    rintro ⟨digit, -, heq⟩
    contradiction

theorem parse_eq_invalidDigit_iff (cut : Cut text) {quoted : Text} {c : Char} :
    parse text = .error (.invalidDigit quoted c) ↔
      quoted = trim text ∧ FirstStray cut.radix cut.digits c := by
  rw [cut.parse_eq, ← accumulate_eq_error_iff cut.announced.radix_le 0#32]
  by_cases h : cut.digits = []
  · simp [h, accumulate]
  rw [if_neg h, map_eq_error_iff, mapError_eq_error_iff]
  constructor
  · rintro ⟨digit, hacc, heq⟩
    obtain ⟨hquoted, rfl⟩ := LiteralError.invalidDigit.inj heq
    exact ⟨hquoted.symm, hacc⟩
  · rintro ⟨rfl, hacc⟩
    exact ⟨c, hacc, rfl⟩

theorem parse_eq_ok_iff (cut : Cut text) {v : Word} :
    parse text = .ok v ↔ cut.digits ≠ [] ∧ ∃ n, Denotes cut.radix cut.digits n ∧
      (v.toNat : Int) = (if cut.negative then -(n : Int) else n) % 2 ^ 32 := by
  rw [cut.parse_eq]
  by_cases h : cut.digits = []
  · simp [h]
  rw [if_neg h, and_iff_right h, map_eq_ok_iff]
  simp only [mapError_eq_ok_iff, accumulate_eq_ok_iff cut.announced.radix_le]
  constructor
  · rintro ⟨value, ⟨n, hn, rfl⟩, hv⟩
    exact ⟨n, hn, (eq_signed_iff _ n v).1 hv.symm⟩
  · rintro ⟨n, hn, hv⟩
    exact ⟨_, ⟨n, hn, rfl⟩, ((eq_signed_iff _ n v).2 hv).symm⟩

end Cut

/-- Every text is cut in one way, and its parts settle what is read. It is empty if there are no
digits. The first character that is no digit of the radix is reported with the trimmed text.
Otherwise the value is the number that the digits write, with its sign and modulo 2^32, however
many digits there are. -/
theorem parse_iff_cut (text : Text) :
    (∃ cut : Cut text, ∀ other : Cut text, other = cut) ∧ ∀ cut : Cut text,
      (parse text = .error .empty ↔ cut.digits = []) ∧
      (∀ quoted c, parse text = .error (.invalidDigit quoted c) ↔
        quoted = trim text ∧ FirstStray cut.radix cut.digits c) ∧
      ∀ v, parse text = .ok v ↔ cut.digits ≠ [] ∧ ∃ n, Denotes cut.radix cut.digits n ∧
        (v.toNat : Int) = (if cut.negative then -(n : Int) else n) % 2 ^ 32 :=
  ⟨⟨.ofText text, fun other ↦ other.eq_ofText⟩, fun cut ↦ ⟨cut.parse_eq_empty_iff,
    fun _ _ ↦ cut.parse_eq_invalidDigit_iff, fun _ ↦ cut.parse_eq_ok_iff⟩⟩

example : parse " -0X100000005 ".toList = .ok (-5#32) := rfl

end Mips32.Literal
