import Mips32.Mnemonic.Legality
import Mips32.Proofs.Literals
import Mips32.Proofs.Tokens
import Mips32.Register

namespace Mips32

namespace Text

def isPlain (c : Char) : Bool := c.isAlphanum || c = '$' || c = '-'

theorem isPlain_of_isAlphanum {c : Char} (h : c.isAlphanum) : isPlain c := by simp [isPlain, h]

def isNumeral (c : Char) : Bool := c.isAlphanum || c = '-'

theorem isNumeral_of_isAlphanum {c : Char} (h : c.isAlphanum) : isNumeral c := by
  simp [isNumeral, h]

theorem isPlain_of_isNumeral {c : Char} (h : isNumeral c) : isPlain c := by
  simp only [isNumeral, Bool.or_eq_true, decide_eq_true_eq] at h
  rcases h with h | rfl
  · exact isPlain_of_isAlphanum h
  · decide

theorem isLegal_of_isPlain {c : Char} (h : isPlain c) : Mnemonic.isLegal c := by
  simp only [isPlain, Bool.or_eq_true, decide_eq_true_eq] at h
  rcases h with (h | rfl) | rfl
  · simp [Mnemonic.isLegal, h]
  · decide
  · decide

theorem isSolid_of_isPlain {c : Char} (h : isPlain c) : Mnemonic.isSolid c := by
  simp only [isPlain, Bool.or_eq_true, decide_eq_true_eq] at h
  rcases h with (h | rfl) | rfl
  · exact Mnemonic.isSolid_of_isAlphanum h
  · decide
  · decide

theorem isBlank_of_isPlain {c : Char} (h : isPlain c) : isBlank c = false :=
  Mnemonic.isBlank_of_isSolid (isSolid_of_isPlain h)

theorem not_isParenthesis_of_isPlain {c : Char} (h : isPlain c) : isParenthesis c = false := by
  simp only [isParenthesis, Bool.or_eq_false_iff, decide_eq_false_iff_not]
  constructor
  all_goals
    rintro rfl
    contradiction

theorem legal_of_isParenthesis {c : Char} (h : isParenthesis c) :
    Mnemonic.isLegal c ∧ Mnemonic.isSolid c := by
  simp only [isParenthesis, Bool.or_eq_true, decide_eq_true_eq] at h
  rcases h with rfl | rfl <;> decide

theorem hasParenthesis_of_plain {t : Text} (h : ∀ c ∈ t, isPlain c) : hasParenthesis t = false := by
  rw [hasParenthesis, List.any_eq_false]
  intro c hc
  simp [not_isParenthesis_of_isPlain (h c hc)]

theorem isNumeral_of_mem_decimal {n : Nat} {c : Char} (h : c ∈ decimal n) : isNumeral c :=
  isNumeral_of_isAlphanum (isAlphanum_of_isDigit (Literal.isDigit_of_mem_decimal h))

theorem isPlain_of_mem_decimal {n : Nat} {c : Char} (h : c ∈ decimal n) : isPlain c :=
  isPlain_of_isNumeral (isNumeral_of_mem_decimal h)

theorem isNumeral_of_mem_signedDecimal {z : Int} {c : Char} (h : c ∈ signedDecimal z) :
    isNumeral c := by
  cases z with
  | ofNat n => exact isNumeral_of_mem_decimal h
  | negSucc n =>
    rcases List.mem_cons.1 h with rfl | h
    · decide
    · exact isNumeral_of_mem_decimal h

theorem isPlain_of_mem_signedDecimal {z : Int} {c : Char} (h : c ∈ signedDecimal z) : isPlain c :=
  isPlain_of_isNumeral (isNumeral_of_mem_signedDecimal h)

theorem signedDecimal_ne_nil (z : Int) : signedDecimal z ≠ [] := by
  cases z with
  | ofNat n => exact Nat.toDigits_ne_nil
  | negSucc n => exact List.cons_ne_nil _ _

end Text

open Text

theorem Literal.isNumeral_of_parse {t : Text} {value : Word} (h : parse t = .ok value) :
    ∀ c ∈ trim t, isNumeral c := by
  intro c hc
  rcases mem_of_parse h c hc with hc | rfl
  · exact isNumeral_of_isAlphanum hc
  · decide

theorem Register.isPlain_of_mem_name (r : Register) : ∀ c ∈ r.name, isPlain c := by
  have hall : ∀ i : Fin 32, (Register.mk i).name.all isPlain := by decide +kernel
  exact List.all_eq_true.1 (hall r.index)

theorem Register.name_ne_nil (r : Register) : r.name ≠ [] := by
  obtain ⟨i⟩ := r
  revert i
  decide +kernel

theorem Register.isPlain_of_parse? {t : Text} {r : Register} (h : parse? t = some r) :
    ∀ c ∈ t, isPlain c := by
  unfold parse? at h
  split at h
  · next rest =>
    split at h
    · next hdigits =>
      refine List.forall_mem_cons.2 ⟨by decide, fun c hc ↦ isPlain_of_isAlphanum ?_⟩
      exact isAlphanum_of_isDigit (List.all_eq_true.1 hdigits.2 c hc)
    · have hname := List.find?_some h
      rw [← of_decide_eq_true hname]
      exact r.isPlain_of_mem_name
  · contradiction

namespace AddressText

theorem split?_of_bare {t : Text} (h : hasParenthesis t = false) :
    split? t = some ⟨trim t, none⟩ := by
  simp [split?, h]

theorem hasParenthesis_of_bare {t offset : Text} (h : split? t = some ⟨offset, none⟩) :
    hasParenthesis t = false := by
  unfold split? at h
  split at h
  · next hp => simpa using hp
  · dsimp only at h
    split at h
    · split at h
      · simp at h
      · contradiction
    · contradiction

theorem run_append_parenthesis {t : Text} (h : hasParenthesis t = false) {c : Char}
    (hc : isParenthesis c) (rest : Text) :
    (t ++ c :: rest).takeWhile (fun d ↦ !isParenthesis d) = t ∧
      (t ++ c :: rest).dropWhile (fun d ↦ !isParenthesis d) = c :: rest := by
  have ht : ∀ d ∈ t, !isParenthesis d := by
    rw [hasParenthesis, List.any_eq_false] at h
    intro d hd
    simpa using h d hd
  rw [List.takeWhile_append_of_pos ht, List.dropWhile_append_of_pos ht]
  simp [hc]

/-- The first parenthesis splits a text in one way. -/
theorem append_parenthesis_inj {a b x y : Text} (ha : hasParenthesis a = false)
    (hb : hasParenthesis b = false) (h : a ++ '(' :: x = b ++ '(' :: y) : a = b ∧ x = y := by
  obtain ⟨htake, hdrop⟩ := run_append_parenthesis ha (c := '(') rfl x
  obtain ⟨htake', hdrop'⟩ := run_append_parenthesis hb (c := '(') rfl y
  rw [h] at htake hdrop
  exact ⟨htake.symm.trans htake', (List.cons.inj (hdrop.symm.trans hdrop')).2⟩

theorem split?_eq_based_iff {t offset base : Text} :
    split? t = some ⟨offset, some base⟩ ↔
      ∃ x y, trim t = x ++ '(' :: (y ++ [')']) ∧ hasParenthesis x = false ∧
        hasParenthesis y = false ∧ offset = trim x ∧ base = trim y := by
  let inside (c : Char) := !isParenthesis c
  have htake (u : Text) : hasParenthesis (u.takeWhile inside) = false := by
    rw [hasParenthesis, List.any_eq_false]
    intro c hc
    simpa [inside] using List.all_eq_true.1 List.all_takeWhile c hc
  constructor
  · intro h
    by_cases hp : hasParenthesis t
    · simp only [split?, hp, Bool.not_true, Bool.false_eq_true, if_false] at h
      split at h
      · next rest hopen =>
        split at h
        · next hclose =>
          simp only [Option.some.injEq, AddressText.mk.injEq] at h
          refine ⟨(trim t).takeWhile inside, rest.takeWhile inside, ?_, htake _, htake _,
            h.1.symm, h.2.symm⟩
          rw [← hclose, List.takeWhile_append_dropWhile, ← hopen, List.takeWhile_append_dropWhile]
        · contradiction
      · contradiction
    · rw [split?_of_bare (Bool.eq_false_iff.2 hp)] at h
      simp at h
  · rintro ⟨x, y, ht, hx, hy, rfl, rfl⟩
    have hp : hasParenthesis t = true := by
      rw [hasParenthesis, List.any_eq_true]
      exact ⟨'(', mem_of_mem_trim (by simp [ht]), rfl⟩
    obtain ⟨hx₁, hx₂⟩ := run_append_parenthesis hx (c := '(') rfl (y ++ [')'])
    obtain ⟨hy₁, hy₂⟩ := run_append_parenthesis hy (c := ')') rfl []
    simp [split?, hp, ht, hx₁, hx₂, hy₁, hy₂]

theorem split?_of_plain {offset base : Text} (hoffset : ∀ c ∈ offset, isPlain c)
    (hbase : ∀ c ∈ base, isPlain c) :
    split? (offset ++ '(' :: (base ++ [')'])) = some ⟨offset, some base⟩ := by
  have htrim {t : Text} (ht : ∀ c ∈ t, isPlain c) : trim t = t :=
    trim_of_solid fun c hc ↦ isBlank_of_isPlain (ht c hc)
  refine split?_eq_based_iff.2 ⟨_, _, trim_of_solid ?_, hasParenthesis_of_plain hoffset,
    hasParenthesis_of_plain hbase, (htrim hoffset).symm, (htrim hbase).symm⟩
  intro c hc
  simp only [List.mem_append, List.mem_cons, List.not_mem_nil, or_false] at hc
  rcases hc with hc | rfl | hc | rfl
  · exact isBlank_of_isPlain (hoffset c hc)
  · decide
  · exact isBlank_of_isPlain (hbase c hc)
  · decide

end AddressText

end Mips32
