import Mips32.Proofs.Layouts

namespace Mips32

namespace BitRange

theorem toNat_write {r : BitRange} (h : r.low + r.width ≤ 32) (v : Word) :
    (r.write v).toNat = v.toNat % 2 ^ r.width * 2 ^ r.low := by
  by_cases hw : r.width = 0
  · rw [write, if_pos hw, hw, Nat.pow_zero, Nat.mod_one, Nat.zero_mul]
    rfl
  have hlt : v.toNat % 2 ^ r.width * 2 ^ r.low < 2 ^ 32 := by
    calc v.toNat % 2 ^ r.width * 2 ^ r.low
        < 2 ^ r.width * 2 ^ r.low :=
          Nat.mul_lt_mul_of_pos_right (Nat.mod_lt _ (Nat.two_pow_pos _)) (Nat.two_pow_pos _)
      _ = 2 ^ (r.width + r.low) := (Nat.pow_add 2 r.width r.low).symm
      _ ≤ 2 ^ 32 := Nat.pow_le_pow_right (by omega) (by omega)
  rw [write, if_neg hw, BitVec.toNat_shiftLeft, Word.toNat_and_ones (by omega), Nat.shiftLeft_eq,
    Nat.mod_eq_of_lt hlt]

/-- A range gives back what was written to it, whatever stands in the other bits. -/
theorem read_write_or {r : BitRange} (h : r.low + r.width ≤ 32) {x : Word}
    (hx : ∀ i < r.low + r.width, r.low ≤ i → x.getLsbD i = false) (v : Word) :
    r.read (r.write v ||| x) = v &&& Word.ones r.width := by
  apply BitVec.eq_of_getLsbD_eq
  intro i hi
  rw [getLsbD_read, BitVec.getLsbD_or, getLsbD_write, BitVec.getLsbD_and, Word.getLsbD_ones]
  by_cases hw : i < r.width
  · have hin : r.low + i < 32 ∧ r.low ≤ r.low + i ∧ r.low + i < r.low + r.width := by omega
    rw [hx (r.low + i) hin.2.2 hin.2.1, decide_eq_true hin, Nat.add_sub_cancel_left]
    simp [hw, hi]
  · simp [hw]

theorem toNat_read_setWidth {r : BitRange} (h : r.low + r.width ≤ 32) (word : BitVec 64) :
    (r.read (word.setWidth 32)).toNat = word.toNat / 2 ^ r.low % 2 ^ r.width := by
  apply Nat.eq_of_testBit_eq
  intro i
  rw [toNat_read (by omega), BitVec.toNat_setWidth]
  simp only [Nat.testBit_mod_two_pow, Nat.testBit_div_two_pow]
  by_cases hw : i < r.width
  · simp [hw, show i + r.low < 32 by omega]
  · simp [hw]

end BitRange

theorem extract_reversed {high low : Nat} (h : high < low) (word : BitVec 64) :
    extract word high low = .error (.reversed high low) := by
  rw [extract, BitRange.between, if_pos h]
  rfl

theorem extract_aboveWord {high low : Nat} (hl : low ≤ high) (hh : 31 < high) (word : BitVec 64) :
    extract word high low = .error (.aboveWord high) := by
  rw [extract, BitRange.between, if_neg (Nat.not_lt.2 hl), if_pos hh]
  rfl

theorem place_misfit {width shift : Nat} (h : 32 < width + shift) (value : Word) :
    place value width shift = .error (.misfit width shift) := by
  rw [place, BitRange.startingAt, if_pos h]
  rfl

theorem exists_extract_eq_error_iff {word : BitVec 64} {high low : Nat} :
    (∃ e, extract word high low = .error e) ↔ high < low ∨ 31 < high := by
  by_cases hl : high < low
  · exact ⟨fun _ ↦ .inl hl, fun _ ↦ ⟨_, extract_reversed hl word⟩⟩
  by_cases hh : 31 < high
  · exact ⟨fun _ ↦ .inr hh, fun _ ↦ ⟨_, extract_aboveWord (Nat.not_lt.1 hl) hh word⟩⟩
  · rw [extract_between (Nat.not_lt.1 hl) (Nat.not_lt.1 hh)]
    simp [hl, hh]

theorem extract_congr {word other : BitVec 64} (h : ∀ i < 32, other.getLsbD i = word.getLsbD i)
    (high low : Nat) : extract other high low = extract word high low := by
  have hlow : other.setWidth 32 = word.setWidth 32 := by
    apply BitVec.eq_of_getLsbD_eq
    intro i hi
    rw [BitVec.getLsbD_setWidth, BitVec.getLsbD_setWidth, h i hi]
  rw [extract, extract, hlow]

theorem exists_lowMask_eq_error_iff {width : Nat} :
    (∃ e, lowMask width = .error e) ↔ 32 < width := by
  by_cases h : 32 < width
  · exact ⟨fun _ ↦ h, fun _ ↦ ⟨_, if_pos h⟩⟩
  · rw [lowMask_of_le (Nat.not_lt.1 h)]
    simp [h]

theorem exists_place_eq_error_iff {value : Word} {width shift : Nat} :
    (∃ e, place value width shift = .error e) ↔ 32 < width + shift := by
  by_cases h : 32 < width + shift
  · exact ⟨fun _ ↦ h, fun _ ↦ ⟨_, place_misfit h value⟩⟩
  · rw [place_of_le (r := ⟨shift, width⟩) (by dsimp only; omega)]
    simp [h]

theorem toNat_extract {high low : Nat} (hl : low ≤ high) (hh : high ≤ 31) (word : BitVec 64) :
    (extract word high low).map BitVec.toNat =
      .ok (word.toNat / 2 ^ low % 2 ^ (high - low + 1)) := by
  rw [extract_between hl hh, Except.map, BitRange.toNat_read_setWidth (by dsimp only; omega)]

theorem toNat_lowMask {width : Nat} (h : width ≤ 32) :
    (lowMask width).map BitVec.toNat = .ok (2 ^ width - 1) := by
  rw [lowMask_of_le h, Except.map, Word.toNat_ones, Nat.min_eq_left h]

theorem toNat_place {width shift : Nat} (h : width + shift ≤ 32) (value : Word) :
    (place value width shift).map BitVec.toNat =
      .ok (value.toNat % 2 ^ width * 2 ^ shift) := by
  have hfit : shift + width ≤ 32 := by omega
  rw [place_of_le (r := ⟨shift, width⟩) hfit, Except.map, BitRange.toNat_write hfit]

theorem toNat_extract_place {width shift : Nat} (hpos : 1 ≤ width) (h : width + shift ≤ 32)
    {x : BitVec 64} (hx : ∀ i < shift + width, shift ≤ i → x.getLsbD i = false) (value : Word) :
    (place value width shift >>= fun placed ↦
      extract (placed.setWidth 64 ||| x) (shift + width - 1) shift).map BitVec.toNat =
        .ok (value.toNat % 2 ^ width) := by
  have hfit : shift + width ≤ 32 := by omega
  have hplace : place value width shift = pure (BitRange.write ⟨shift, width⟩ value) :=
    place_of_le (r := ⟨shift, width⟩) hfit value
  have hlow (w : Word) : (w.setWidth 64 ||| x).setWidth 32 = w ||| x.setWidth 32 := by
    rw [BitVec.setWidth_or, BitVec.setWidth_setWidth_of_le w (by omega), BitVec.setWidth_eq]
  have hclear : ∀ i < shift + width, shift ≤ i → (x.setWidth 32).getLsbD i = false := by
    intro i hi hge
    rw [BitVec.getLsbD_setWidth, hx i hi hge, Bool.and_false]
  rw [hplace, pure_bind, extract_of_le (r := ⟨shift, width⟩) hpos hfit, Except.map, hlow,
    BitRange.read_write_or hfit hclear, Word.toNat_and_ones (by dsimp only; omega)]

namespace Word

/-- Why a computation on words stops: a range does not lie within a word, a sum or a difference
leaves the bounds of a word, or a shift is by 32 places or more. -/
inductive Fault
  | range (error : RangeError)
  | overflow
  | overlong (amount : Nat)

def addChecked (a b : Word) : Except Fault Word :=
  if a.uaddOverflow b then .error .overflow else .ok (a + b)

def subChecked (a b : Word) : Except Fault Word :=
  if a.usubOverflow b then .error .overflow else .ok (a - b)

/-- The places to shift by. An amount of 32 is refused for a word of 64 bits too. -/
def places (amount : Word) : Except Fault Nat :=
  if amount.toNat < 32 then .ok amount.toNat else .error (.overlong amount.toNat)

variable {a b : Word}

theorem addChecked_of_lt (h : a.toNat + b.toNat < 2 ^ 32) : addChecked a b = pure (a + b) :=
  if_neg (by rw [BitVec.uaddOverflow, decide_eq_true_eq]; omega)

theorem subChecked_of_le (h : b ≤ a) : subChecked a b = pure (a - b) :=
  if_neg (by rw [BitVec.usubOverflow, decide_eq_true_eq]; exact Nat.not_lt.2 h)

theorem places_of_lt (h : a.toNat < 32) : places a = pure a.toNat := if_pos h

end Word

def lowMaskChecked (width : Word) : Except Word.Fault Word :=
  if 32 < width.toNat then .error (.range (.tooWide width.toNat))
  else if width.toNat = 32 then .ok (BitVec.allOnes 32)
  else do Word.subChecked (1#32 <<< (← width.places)) 1#32

def extractChecked (word : BitVec 64) (high low : Word) : Except Word.Fault Word :=
  if high.toNat < low.toNat then .error (.range (.reversed high.toNat low.toNat))
  else if 31 < high.toNat then .error (.range (.aboveWord high.toNat))
  else do
    let width ← Word.addChecked (← Word.subChecked high low) 1#32
    let moved := (word &&& 0xffffffff#64) >>> (← low.places)
    return moved.setWidth 32 &&& (← lowMaskChecked width)

def placeChecked (value width shift : Word) : Except Word.Fault Word := do
  let bits ← Word.addChecked width shift
  if 32 < bits.toNat then .error (.range (.misfit width.toNat shift.toNat))
  else if width.toNat = 0 then .ok 0#32
  else return (value &&& (← lowMaskChecked width)) <<< (← shift.places)

theorem lowMaskChecked_of_le {width : Word} (h : width.toNat ≤ 32) :
    lowMaskChecked width = pure (Word.ones width.toNat) := by
  rw [lowMaskChecked, if_neg (Nat.not_lt.2 h), Word.ones]
  by_cases hfull : width.toNat = 32
  · rw [if_pos hfull, if_neg (by omega)]
    rfl
  · have hlt : width.toNat < 32 := by omega
    rw [if_neg hfull, if_pos hlt, Word.places_of_lt hlt, pure_bind]
    exact Word.subChecked_of_le (Word.one_le_one_shiftLeft hlt)

theorem lowMaskChecked_eq (width : Word) :
    lowMaskChecked width = (lowMask width.toNat).mapError .range := by
  by_cases h : 32 < width.toNat
  · rw [lowMaskChecked, if_pos h, lowMask, if_pos h]
    rfl
  · rw [lowMaskChecked_of_le (Nat.not_lt.1 h), lowMask_of_le (Nat.not_lt.1 h)]
    rfl

theorem setWidth_and_ushiftRight (word : BitVec 64) (n : Nat) :
    ((word &&& 0xffffffff#64) >>> n).setWidth 32 = word.setWidth 32 >>> n := by
  apply BitVec.eq_of_getLsbD_eq
  intro i hi
  have hones : (0xffffffff#64).getLsbD (n + i) = decide (n + i < 32) :=
    Nat.testBit_two_pow_sub_one 32 (n + i)
  simp [hones, hi, Bool.and_comm]

theorem extractChecked_eq (word : BitVec 64) (high low : Word) :
    extractChecked word high low = (extract word high.toNat low.toNat).mapError .range := by
  by_cases hl : high.toNat < low.toNat
  · rw [extractChecked, if_pos hl, extract_reversed hl]
    rfl
  have hle : low.toNat ≤ high.toNat := Nat.not_lt.1 hl
  by_cases hh : 31 < high.toNat
  · rw [extractChecked, if_neg hl, if_pos hh, extract_aboveWord hle hh]
    rfl
  have hsub : (high - low).toNat = high.toNat - low.toNat := BitVec.toNat_sub_of_le hle
  have hroom : (high - low).toNat + (1#32).toNat < 2 ^ 32 := by
    rw [hsub, BitVec.toNat_one (by omega)]
    omega
  have hwidth : (high - low + 1#32).toNat = high.toNat - low.toNat + 1 := by
    rw [BitVec.toNat_add_of_lt hroom, hsub]
    rfl
  have hmask : lowMaskChecked (high - low + 1#32) =
      pure (Word.ones (high.toNat - low.toNat + 1)) := by
    rw [lowMaskChecked_of_le (by omega), hwidth]
  rw [extractChecked, if_neg hl, if_neg hh, Word.subChecked_of_le hle, pure_bind,
    Word.addChecked_of_lt hroom, pure_bind, Word.places_of_lt (by omega), pure_bind, hmask,
    pure_bind, setWidth_and_ushiftRight, extract_between hle (by omega)]
  rfl

theorem placeChecked_eq {width shift : Word} (h : width.toNat + shift.toNat < 2 ^ 32)
    (value : Word) :
    placeChecked value width shift =
      (place value width.toNat shift.toNat).mapError .range := by
  have hsum : (width + shift).toNat = width.toNat + shift.toNat := BitVec.toNat_add_of_lt h
  rw [placeChecked, Word.addChecked_of_lt h, pure_bind, hsum]
  by_cases hfit : 32 < width.toNat + shift.toNat
  · rw [if_pos hfit, place_misfit hfit]
    rfl
  rw [if_neg hfit, place_of_le (r := ⟨shift.toNat, width.toNat⟩) (by dsimp only; omega),
    BitRange.write]
  by_cases hzero : width.toNat = 0
  · rw [if_pos hzero, if_pos hzero]
    rfl
  · rw [if_neg hzero, if_neg hzero, lowMaskChecked_of_le (by omega), pure_bind,
      Word.places_of_lt (by omega), pure_bind]
    rfl

/-- Reading, masking and placing bits fail exactly on a range that does not lie within a word.
Otherwise they give a quotient cut to the width, a power of two less one, and a cut value times a
power of two. What stands above bit 31 is not read, and what is placed is read back between any
neighbours. With every sum, difference and shift checked they are the same: no other check fails,
and no shift is by 32 places. -/
theorem extract_and_place_exact :
    (∀ (word : BitVec 64) (high low : Nat),
      ((∃ e, extract word high low = .error e) ↔ high < low ∨ 31 < high) ∧
      (low ≤ high → high ≤ 31 → (extract word high low).map BitVec.toNat =
        .ok (word.toNat / 2 ^ low % 2 ^ (high - low + 1))) ∧
      ∀ other : BitVec 64, (∀ i < 32, other.getLsbD i = word.getLsbD i) →
        extract other high low = extract word high low) ∧
    (∀ width : Nat,
      ((∃ e, lowMask width = .error e) ↔ 32 < width) ∧
      (width ≤ 32 → (lowMask width).map BitVec.toNat = .ok (2 ^ width - 1))) ∧
    (∀ (value : Word) (width shift : Nat),
      ((∃ e, place value width shift = .error e) ↔ 32 < width + shift) ∧
      (width + shift ≤ 32 → (place value width shift).map BitVec.toNat =
        .ok (value.toNat % 2 ^ width * 2 ^ shift)) ∧
      ∀ x : BitVec 64, 1 ≤ width → width + shift ≤ 32 →
        (∀ i < shift + width, shift ≤ i → x.getLsbD i = false) →
          (place value width shift >>= fun placed ↦
            extract (placed.setWidth 64 ||| x) (shift + width - 1) shift).map BitVec.toNat =
              .ok (value.toNat % 2 ^ width)) ∧
    (∀ (word : BitVec 64) (high low : Word),
      extractChecked word high low = (extract word high.toNat low.toNat).mapError .range) ∧
    (∀ width : Word, lowMaskChecked width = (lowMask width.toNat).mapError .range) ∧
    ∀ value width shift : Word, width.toNat + shift.toNat < 2 ^ 32 →
      placeChecked value width shift = (place value width.toNat shift.toNat).mapError .range := by
  refine ⟨fun word high low ↦ ?_, fun width ↦ ?_, fun value width shift ↦ ?_, extractChecked_eq,
    lowMaskChecked_eq, fun value width shift h ↦ placeChecked_eq h value⟩
  · exact ⟨exists_extract_eq_error_iff, fun hl hh ↦ toNat_extract hl hh word,
      fun other h ↦ extract_congr h high low⟩
  · exact ⟨exists_lowMask_eq_error_iff, toNat_lowMask⟩
  · exact ⟨exists_place_eq_error_iff, fun h ↦ toNat_place h value,
      fun x hpos h hx ↦ toNat_extract_place hpos h hx value⟩

theorem place_at_word_end :
    (∀ i < 26 + 6, 26 ≤ i → (0xffffffff03ffffff#64).getLsbD i = false) ∧
    (place 0xfffffff5#32 6 26 >>= fun placed ↦
      extract (placed.setWidth 64 ||| 0xffffffff03ffffff#64) (26 + 6 - 1) 26).map BitVec.toNat =
        .ok 53 ∧
    (0#32).toNat + (32#32).toNat < 2 ^ 32 ∧
    placeChecked 0xfffffff5#32 0#32 32#32 = .ok 0#32 := by
  have hclear : ∀ i < 26 + 6, 26 ≤ i → (0xffffffff03ffffff#64).getLsbD i = false := by decide
  have hsum : (0#32).toNat + (32#32).toNat < 2 ^ 32 := by decide
  obtain ⟨-, -, hplace, -, -, hchecked⟩ := extract_and_place_exact
  obtain ⟨-, -, hread⟩ := hplace 0xfffffff5#32 6 26
  exact ⟨hclear, hread 0xffffffff03ffffff#64 (by decide) (by decide) hclear, hsum,
    hchecked 0xfffffff5#32 0#32 32#32 hsum⟩

end Mips32
