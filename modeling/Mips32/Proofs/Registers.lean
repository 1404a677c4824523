import Mathlib.Algebra.Group.Nat.Defs
import Mips32.Proofs.Agreement

namespace Mips32.Register

open Text

/-- A text names a register by its symbolic name, or by its index in decimal after `$`. -/
inductive Spells : Text → Register → Prop
  | symbolic (r : Register) : Spells r.name r
  | numeric {digits : Text} {r : Register} (hne : digits ≠ []) (hdigits : ∀ c ∈ digits, c.isDigit)
      (hvalue : Nat.ofDigitChars 10 digits 0 = r.index) : Spells ('$' :: digits) r

theorem ofIndex?_eq_some_iff {n : Nat} {r : Register} : ofIndex? n = some r ↔ n = r.index := by
  constructor
  · intro h
    unfold ofIndex? at h
    split at h
    · rw [← Option.some.inj h]
    · contradiction
  · rintro rfl
    exact ofIndex?_index r

theorem ofIndex?_of_le {n : Nat} (h : 32 ≤ n) : ofIndex? n = none := dif_neg (by omega)

theorem le_ofDigitChars (digits : Text) (n : Nat) : n ≤ Nat.ofDigitChars 10 digits n := by
  induction digits generalizing n with
  | nil => simp
  | cons c digits ih =>
    have h := ih (10 * n + (c.toNat - '0'.toNat))
    rw [Nat.ofDigitChars_cons]
    omega

theorem overflow_iff (value digit : Word) :
    (BitVec.umulOverflow value 10#32 || BitVec.uaddOverflow (value * 10#32) digit) = true ↔
      2 ^ 32 ≤ 10 * value.toNat + digit.toNat := by
  have hten : (10#32).toNat = 10 := rfl
  rw [BitVec.umulOverflow, BitVec.uaddOverflow, BitVec.toNat_mul, Bool.or_eq_true,
    decide_eq_true_eq, decide_eq_true_eq, hten]
  omega

theorem readIndex?_cons {c : Char} (hc : c.isDigit) (value : Word) (digits : Text) :
    readIndex? value (c :: digits) =
      if 10 * value.toNat + (c.toNat - '0'.toNat) < 2 ^ 32 then
        readIndex? (BitVec.ofNat 32 (10 * value.toNat + (c.toNat - '0'.toNat))) digits
      else none := by
  have hbounds := (isDigit_iff c).1 hc
  have hdigit : (BitVec.ofNat 32 (c.toNat - '0'.toNat)).toNat = c.toNat - '0'.toNat := by
    rw [BitVec.toNat_ofNat]
    exact Nat.mod_eq_of_lt (by omega)
  have hnext : value * 10#32 + BitVec.ofNat 32 (c.toNat - '0'.toNat) =
      BitVec.ofNat 32 (10 * value.toNat + (c.toNat - '0'.toNat)) := by
    rw [BitVec.ofNat_add, BitVec.ofNat_mul, BitVec.ofNat_toNat, BitVec.setWidth_eq, BitVec.mul_comm]
  have hoverflow := overflow_iff value (BitVec.ofNat 32 (c.toNat - '0'.toNat))
  rw [hdigit] at hoverflow
  rw [readIndex?, hnext]
  by_cases hfit : 10 * value.toNat + (c.toNat - '0'.toNat) < 2 ^ 32
  · rw [if_pos hfit, if_neg fun h ↦ absurd (hoverflow.1 h) (by omega)]
  · rw [if_neg hfit, if_pos (hoverflow.2 (by omega))]

/-- Reading digit by digit fails exactly if the whole number does not fit in a word, since a
number never shrinks as it is continued. -/
theorem readIndex?_eq {digits : Text} (h : ∀ c ∈ digits, c.isDigit) (value : Word) :
    readIndex? value digits =
      if Nat.ofDigitChars 10 digits value.toNat < 2 ^ 32 then
        some (BitVec.ofNat 32 (Nat.ofDigitChars 10 digits value.toNat))
      else none := by
  induction digits generalizing value with
  | nil => simp [readIndex?, value.isLt]
  | cons c digits ih =>
    rw [List.forall_mem_cons] at h
    rw [readIndex?_cons h.1, Nat.ofDigitChars_cons]
    by_cases hfit : 10 * value.toNat + (c.toNat - '0'.toNat) < 2 ^ 32
    · rw [if_pos hfit, ih h.2, BitVec.toNat_ofNat, Nat.mod_eq_of_lt hfit]
    · have hle := le_ofDigitChars digits (10 * value.toNat + (c.toNat - '0'.toNat))
      rw [if_neg hfit, if_neg (by omega)]

theorem parse?_numeric {digits : Text} (hne : digits ≠ []) (h : ∀ c ∈ digits, c.isDigit) :
    parse? ('$' :: digits) = ofIndex? (Nat.ofDigitChars 10 digits 0) := by
  have hread := readIndex?_eq h 0#32
  rw [BitVec.toNat_zero] at hread
  rw [parse?, if_pos ⟨hne, List.all_eq_true.2 h⟩, hread]
  by_cases hfit : Nat.ofDigitChars 10 digits 0 < 2 ^ 32
  · rw [if_pos hfit, Option.bind_some, BitVec.toNat_ofNat, Nat.mod_eq_of_lt hfit]
  · rw [if_neg hfit, Option.bind_none, ofIndex?_of_le (by omega)]

theorem spells_of_parse? {t : Text} {r : Register} (h : parse? t = some r) : Spells t r := by
  unfold parse? at h
  split at h
  · next digits =>
    split at h
    · next hnumeric =>
      have hdigits := List.all_eq_true.1 hnumeric.2
      have hparse := parse?_numeric hnumeric.1 hdigits
      rw [parse?, if_pos hnumeric, h] at hparse
      exact .numeric hnumeric.1 hdigits (ofIndex?_eq_some_iff.1 hparse.symm)
    · have hname := List.find?_some h
      rw [← of_decide_eq_true hname]
      exact .symbolic r
  · contradiction

theorem parse?_eq_some_iff {t : Text} {r : Register} : parse? t = some r ↔ Spells t r := by
  refine ⟨spells_of_parse?, fun h ↦ ?_⟩
  cases h with
  | symbolic => exact parse?_name r
  | numeric hne hdigits hvalue =>
    rw [parse?_numeric hne hdigits]
    exact ofIndex?_eq_some_iff.2 hvalue

theorem parse?_of_le {digits : Text} (hdigits : ∀ c ∈ digits, c.isDigit)
    (h : 32 ≤ Nat.ofDigitChars 10 digits 0) : parse? ('$' :: digits) = none := by
  have hne : digits ≠ [] := by
    rintro rfl
    simp at h
  rw [parse?_numeric hne hdigits, ofIndex?_of_le h]

/-- A text is read as a register exactly if it spells it, however many digits it has. A number
that does not fit in a word is none, also when it would be an index modulo 2^32. That two texts
name one register is symmetric and transitive, and a text is related to itself exactly if it
is a spelling. -/
theorem parse?_exact :
    (∀ t r, parse? t = some r ↔ Spells t r) ∧
    (∀ t, parse? t = none ↔ ∀ r, ¬Spells t r) ∧
    (∀ digits : Text, (∀ c ∈ digits, c.isDigit) → 32 ≤ Nat.ofDigitChars 10 digits 0 →
      parse? ('$' :: digits) = none) ∧
    (∀ a b, agree a b → agree b a) ∧
    (∀ a b c, agree a b → agree b c → agree a c) ∧
    ∀ a, agree a a ↔ ∃ r, Spells a r := by
  refine ⟨fun t r ↦ parse?_eq_some_iff, fun t ↦ ?_, fun digits ↦ parse?_of_le, fun a b h ↦ ?_,
    fun a b c hab hbc ↦ ?_, fun a ↦ ?_⟩
  · rw [Option.eq_none_iff_forall_ne_some]
    exact forall_congr' fun r ↦ not_congr parse?_eq_some_iff
  · obtain ⟨r, ha, hb⟩ := agree_iff.1 h
    exact agree_iff.2 ⟨r, hb, ha⟩
  · obtain ⟨r, ha, hb⟩ := agree_iff.1 hab
    obtain ⟨s, hb', hc⟩ := agree_iff.1 hbc
    rw [hb, Option.some.injEq] at hb'
    exact agree_iff.2 ⟨r, ha, hb' ▸ hc⟩
  · rw [agree_iff]
    exact exists_congr fun r ↦ (and_self_iff).trans parse?_eq_some_iff

-- nine by its index with leading zeros, and 2^32 + 9, which is too large
example : parse? "$00000000009".toList = some ⟨9⟩ ∧ parse? "$4294967305".toList = none := by decide

end Mips32.Register
