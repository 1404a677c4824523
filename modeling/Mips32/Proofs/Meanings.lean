import Mips32.Proofs.Agreement

namespace Mips32.Mnemonic

open Text

/-- What a token stands for: a register, an address with a base, or nothing but its own text.
The base of an address is a register or a text itself. -/
inductive Meaning
  | register (r : Register)
  | address (offset : Word) (base : Meaning)
  | verbatim (text : Text)
deriving DecidableEq

def named (t : Text) : Meaning :=
  match Register.parse? t with
  | some r => .register r
  | none => .verbatim t

def based? (t : Text) : Option (Word × Text) :=
  match AddressText.split? t with
  | some ⟨offset, some base⟩ => (offsetValue? offset).map fun value ↦ (value, base)
  | _ => none

def meaning (t : Text) : Meaning :=
  match based? t with
  | some (value, base) => .address value (named base)
  | none => named t

theorem meaning_of_based {t : Text} {e : Word × Text} (h : based? t = some e) :
    meaning t = .address e.1 (named e.2) := by
  rw [meaning, h]

theorem meaning_of_not_based {t : Text} (h : based? t = none) : meaning t = named t := by
  rw [meaning, h]

theorem named_ne_address (t : Text) (value : Word) (base : Meaning) :
    named t ≠ .address value base := by
  unfold named
  split <;> simp

theorem named_eq_iff {x y : Text} : named x = named y ↔
    x = y ∨ ∃ r, Register.parse? x = some r ∧ Register.parse? y = some r := by
  constructor
  · intro h
    unfold named at h
    cases hx : Register.parse? x <;> cases hy : Register.parse? y <;> simp_all
  · intro h
    rcases h with rfl | ⟨r, hx, hy⟩
    · rfl
    · rw [named, named, hx, hy]

theorem based?_eq_some_iff {t base : Text} {value : Word} : based? t = some (value, base) ↔
    ∃ offset, AddressText.split? t = some ⟨offset, some base⟩ ∧
      offsetValue? offset = some value := by
  unfold based?
  split
  · next offset base' hsplit =>
    rw [Option.map_eq_some_iff]
    constructor
    · intro ⟨v, hv, heq⟩
      obtain ⟨rfl, rfl⟩ := Prod.mk.inj heq
      exact ⟨offset, hsplit, hv⟩
    · intro ⟨offset', hsplit', hvalue⟩
      obtain ⟨rfl, hbase⟩ := AddressText.mk.inj (Option.some.inj (hsplit.symm.trans hsplit'))
      obtain rfl := Option.some.inj hbase
      exact ⟨value, hvalue, rfl⟩
  · next hbare =>
    refine iff_of_false (by simp) ?_
    intro ⟨offset, hsplit, _⟩
    exact hbare offset base hsplit

theorem based?_of_register {t : Text} {r : Register} (h : Register.parse? t = some r) :
    based? t = none := by
  apply Option.eq_none_iff_forall_ne_some.2
  intro ⟨value, base⟩ hbased
  obtain ⟨offset, hsplit, -⟩ := based?_eq_some_iff.1 hbased
  have hbare := hasParenthesis_of_plain (Register.isPlain_of_parse? h)
  rw [AddressText.hasParenthesis_of_based hsplit] at hbare
  contradiction

theorem based?_of_named_eq {x y : Text} (h : named x = named y) : based? x = based? y := by
  rcases named_eq_iff.1 h with rfl | ⟨r, hx, hy⟩
  · rfl
  · rw [based?_of_register hx, based?_of_register hy]

theorem tokensAgree_iff_based {x y : Text} : tokensAgree x y ↔ named x = named y ∨
    ∃ value p q, based? x = some (value, p) ∧ based? y = some (value, q) ∧ named p = named q := by
  simp only [tokensAgree_iff, named_eq_iff, based?_eq_some_iff, or_assoc]
  refine or_congr_right (or_congr_right ⟨?_, ?_⟩)
  · intro ⟨m, n, p, q, value, hx, hy, hm, hn, hbase⟩
    exact ⟨value, p, q, ⟨m, hx, hm⟩, ⟨n, hy, hn⟩, hbase⟩
  · intro ⟨value, p, q, ⟨m, hx, hm⟩, ⟨n, hy, hn⟩, hbase⟩
    exact ⟨m, n, p, q, value, hx, hy, hm, hn, hbase⟩

theorem tokensAgree_iff_meaning {x y : Text} : tokensAgree x y ↔ meaning x = meaning y := by
  rw [tokensAgree_iff_based]
  constructor
  · intro h
    rcases h with hnamed | ⟨value, p, q, hx, hy, hbase⟩
    · rw [meaning, meaning, based?_of_named_eq hnamed, hnamed]
    · rw [meaning_of_based hx, meaning_of_based hy, hbase]
  · intro h
    cases hx : based? x with
    | none =>
      rw [meaning_of_not_based hx] at h
      cases hy : based? y with
      | none =>
        rw [meaning_of_not_based hy] at h
        exact .inl h
      | some e =>
        rw [meaning_of_based hy] at h
        exact absurd h (named_ne_address x _ _)
    | some d =>
      rw [meaning_of_based hx] at h
      cases hy : based? y with
      | none =>
        rw [meaning_of_not_based hy] at h
        exact absurd h.symm (named_ne_address y _ _)
      | some e =>
        rw [meaning_of_based hy] at h
        obtain ⟨hvalue, hbase⟩ := Meaning.address.inj h
        exact .inr ⟨d.1, d.2, e.2, rfl, by rw [hvalue], hbase⟩

theorem agree_iff_meaning {a b : Text} :
    agree a b ↔ (tokens a).map meaning = (tokens b).map meaning := by
  simp only [agree_iff, tokensAgree_iff_meaning]
  rw [← List.forall₂_eq_eq_eq, List.forall₂_map_left_iff, List.forall₂_map_right_iff]

/-- Agreement is sameness of meaning, token by token. It is therefore an equivalence of all
texts, whether they are well-formed or not. -/
theorem equivalence_agree : Equivalence (fun a b : Text ↦ agree a b) ∧
    ∀ a b, agree a b ↔ (tokens a).map meaning = (tokens b).map meaning := by
  refine ⟨⟨?_, ?_, ?_⟩, fun a b ↦ agree_iff_meaning⟩
  · intro a
    exact agree_iff_meaning.2 rfl
  · intro a b h
    exact agree_iff_meaning.2 (agree_iff_meaning.1 h).symm
  · intro a b c hab hbc
    exact agree_iff_meaning.2 ((agree_iff_meaning.1 hab).trans (agree_iff_meaning.1 hbc))

end Mips32.Mnemonic
