import Mips32.Literal
import Mips32.Proofs.Words
import Mips32.Text.Numeral

namespace Mips32.Literal

open Text

theorem digit?_eq_some_iff_sixteen {radix d : Nat} {c : Char} (h : radix ≤ 16) :
    digit? radix c = some d ↔ digit? 16 c = some d ∧ d < radix := by
  simp only [digit?, Option.filter_eq_some_iff, decide_eq_true_eq]
  constructor
  · rintro ⟨hvalue, hlt⟩
    exact ⟨⟨hvalue, by omega⟩, hlt⟩
  · rintro ⟨⟨hvalue, -⟩, hlt⟩
    exact ⟨hvalue, hlt⟩

theorem digit?_digitChar {radix d : Nat} (hradix : radix ≤ 16) (h : d < radix) :
    digit? radix d.digitChar = some d := by
  have hsixteen : ∀ d < 16, digit? 16 d.digitChar = some d := by decide
  exact (digit?_eq_some_iff_sixteen hradix).2 ⟨hsixteen d (by omega), h⟩

theorem accumulate_append (radix : Nat) (value : Word) (a b : Text) :
    accumulate radix value (a ++ b) =
      (accumulate radix value a).bind fun v ↦ accumulate radix v b := by
  fun_induction accumulate radix value a with
  | case1 => rfl
  | case2 value c rest d hd ih =>
    rw [List.cons_append, accumulate, hd]
    exact ih
  | case3 value c rest hd => rw [List.cons_append, accumulate, hd]; rfl

/-- The digits of a number continue to it, modulo 2^32, in every radix that has digits. -/
theorem accumulate_toDigits {radix : Nat} (hone : 1 < radix) (hradix : radix ≤ 16) (n : Nat) :
    accumulate radix 0#32 (Nat.toDigits radix n) = .ok (BitVec.ofNat 32 n) := by
  induction n using Nat.strongRecOn with
  | ind n ih =>
    by_cases hn : n < radix
    · rw [Nat.toDigits_of_lt_base hn, accumulate, digit?_digitChar hradix hn]
      simp [accumulate]
    · have hmod : n % radix < radix := Nat.mod_lt n (by omega)
      have hdiv : n / radix < n := Nat.div_lt_self (by omega) hone
      rw [Nat.toDigits_of_base_le hone (by omega), accumulate_append, ih (n / radix) hdiv,
        Except.bind, accumulate, digit?_digitChar hradix hmod]
      dsimp only
      rw [accumulate, ← BitVec.ofNat_mul, ← BitVec.ofNat_add, Nat.div_add_mod']

theorem isDigit_of_mem_decimal {n : Nat} {c : Char} (h : c ∈ decimal n) : c.isDigit :=
  Nat.isDigit_of_mem_toDigits (by omega) (by omega) h

theorem isBlank_of_isDigit {c : Char} (h : c.isDigit) : isBlank c = false :=
  isBlank_of_isAlphanum (isAlphanum_of_isDigit h)

theorem splitRadix_of_digits {digits : Text} (h : ∀ c ∈ digits, c.isDigit) :
    splitRadix digits = (10, digits) := by
  cases digits with
  | nil => rfl
  | cons z digits =>
    cases digits with
    | nil =>
      by_cases hz : z = '0'
      · rw [hz]; rfl
      · simp [splitRadix]
    | cons c rest =>
      have hc : c.isDigit := h c (by simp)
      have hletter {l : Char} (hl : l.isDigit = false) : c ≠ l := by
        rintro rfl
        rw [hl] at hc
        contradiction
      by_cases hz : z = '0'
      · simp [splitRadix, hz, hletter (l := 'x') rfl, hletter (l := 'X') rfl,
          hletter (l := 'b') rfl, hletter (l := 'B') rfl, hletter (l := 'd') rfl,
          hletter (l := 'D') rfl]
      · simp [splitRadix, hz]

theorem parse_decimal_and_minus (n : Nat) :
    parse (decimal n) = .ok (BitVec.ofNat 32 n) ∧
      parse ('-' :: decimal n) = .ok (-BitVec.ofNat 32 n) := by
  have h : ∀ c ∈ decimal n, c.isDigit := fun c ↦ isDigit_of_mem_decimal
  have hne : decimal n ≠ [] := Nat.toDigits_ne_nil
  have hacc : accumulate 10 0#32 (decimal n) = .ok (BitVec.ofNat 32 n) :=
    accumulate_toDigits (by omega) (by omega) n
  have hsolid : ∀ c ∈ decimal n, isBlank c = false := fun c hc ↦ isBlank_of_isDigit (h c hc)
  have hminus : ∀ c ∈ '-' :: decimal n, isBlank c = false :=
    List.forall_mem_cons.2 ⟨by decide, hsolid⟩
  have hsign : splitSign (decimal n) = (false, decimal n) := by
    obtain ⟨c, rest, heq⟩ := List.exists_cons_of_ne_nil hne
    rw [heq] at h ⊢
    have hc : c ≠ '-' := by
      rintro rfl
      exact absurd (h '-' (by simp)) (by decide)
    simp [splitSign, hc]
  have hempty : (decimal n).isEmpty = false := by simpa using hne
  constructor
  · simp only [parse, trim_of_solid hsolid, hsign, splitRadix_of_digits h, hempty, hacc]
    rfl
  · simp only [parse, trim_of_solid hminus, splitSign, splitRadix_of_digits h, hempty, hacc]
    rfl

theorem parse_decimal (n : Nat) : parse (decimal n) = .ok (BitVec.ofNat 32 n) :=
  (parse_decimal_and_minus n).1

theorem parse_signedDecimal (z : Int) : parse (signedDecimal z) = .ok (BitVec.ofInt 32 z) := by
  cases z with
  | ofNat n =>
    rw [signedDecimal, parse_decimal]
    rfl
  | negSucc n =>
    rw [signedDecimal, (parse_decimal_and_minus (n + 1)).2, Int.negSucc_eq, BitVec.ofInt_neg]
    rfl

theorem isAlphanum_of_digit? {radix d : Nat} {c : Char} (h : digit? radix c = some d) :
    c.isAlphanum := by
  simp only [digit?] at h
  rw [Option.filter_eq_some_iff] at h
  obtain ⟨h, -⟩ := h
  by_cases hdigit : c.isDigit
  · exact isAlphanum_of_isDigit hdigit
  · by_cases hlower : c.isLower
    · change (c.isUpper || c.isLower || c.isDigit) = true
      rw [hlower, Bool.or_true, Bool.true_or]
    · by_cases hupper : c.isUpper
      · change (c.isUpper || c.isLower || c.isDigit) = true
        rw [hupper, Bool.true_or, Bool.true_or]
      · simp [hdigit, hlower, hupper] at h

theorem isAlphanum_of_accumulate {radix : Nat} {value result : Word} {digits : Text}
    (h : accumulate radix value digits = .ok result) : ∀ c ∈ digits, c.isAlphanum := by
  fun_induction accumulate radix value digits with
  | case1 => simp
  | case2 value c rest d hd ih => exact List.forall_mem_cons.2 ⟨isAlphanum_of_digit? hd, ih h⟩
  | case3 => simp at h

theorem isAlphanum_of_mem_hexadecimal (n : Nat) : ∀ c ∈ hexadecimal n, c.isAlphanum := by
  have hdigits : accumulate 16 0#32 (Nat.toDigits 16 n) = .ok (BitVec.ofNat 32 n) :=
    accumulate_toDigits (by omega) (by omega) n
  refine List.forall_mem_cons.2 ⟨rfl, List.forall_mem_cons.2 ⟨rfl, ?_⟩⟩
  exact isAlphanum_of_accumulate hdigits

theorem parse_hexadecimal (n : Nat) : parse (hexadecimal n) = .ok (BitVec.ofNat 32 n) := by
  have hdigits : accumulate 16 0#32 (Nat.toDigits 16 n) = .ok (BitVec.ofNat 32 n) :=
    accumulate_toDigits (by omega) (by omega) n
  have hsolid : ∀ c ∈ hexadecimal n, isBlank c = false :=
    fun c hc ↦ isBlank_of_isAlphanum (isAlphanum_of_mem_hexadecimal n c hc)
  have hempty : (Nat.toDigits 16 n).isEmpty = false := by simp
  have hsplit : splitRadix (splitSign (hexadecimal n)).2 = (16, Nat.toDigits 16 n) := rfl
  simp only [parse, trim_of_solid hsolid, hsplit, hempty, hdigits]
  rfl

theorem isAlphanum_of_splitRadix {t : Text} (h : ∀ c ∈ (splitRadix t).2, c.isAlphanum) :
    ∀ c ∈ t, c.isAlphanum := by
  unfold splitRadix at h
  split at h
  · next c rest =>
    have hletter {l u : Char} (hc : c = l ∨ c = u) (hl : l.isAlphanum) (hu : u.isAlphanum)
        (hrest : ∀ d ∈ rest, d.isAlphanum) : ∀ d ∈ '0' :: c :: rest, d.isAlphanum := by
      have hc' : c.isAlphanum := by rcases hc with rfl | rfl <;> assumption
      exact List.forall_mem_cons.2 ⟨rfl, List.forall_mem_cons.2 ⟨hc', hrest⟩⟩
    split at h
    · next hc => exact hletter hc rfl rfl h
    · split at h
      · next hc => exact hletter hc rfl rfl h
      · split at h
        · next hc => exact hletter hc rfl rfl h
        · exact h
  · exact h

theorem mem_splitSign {t : Text} {c : Char} (h : c ∈ t) : c ∈ (splitSign t).2 ∨ c = '-' := by
  unfold splitSign
  split
  · simpa [or_comm] using h
  · exact .inl h

/-- A number is written in letters and digits after an optional minus sign. -/
theorem mem_of_parse {t : Text} {value : Word} (h : parse t = .ok value) :
    ∀ c ∈ trim t, c.isAlphanum ∨ c = '-' := by
  have hdigits : ∀ c ∈ (splitRadix (splitSign (trim t)).2).2, c.isAlphanum := by
    simp only [parse] at h
    split at h
    · contradiction
    · split at h
      · contradiction
      · next hacc => exact isAlphanum_of_accumulate hacc
  intro c hc
  exact (mem_splitSign hc).imp_left (isAlphanum_of_splitRadix hdigits c)

end Mips32.Literal
