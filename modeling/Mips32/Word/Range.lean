namespace Mips32

abbrev Word := BitVec 32

inductive RangeError
  | reversed (high low : Nat)
  | aboveWord (high : Nat)
  | tooWide (width : Nat)
  | misfit (width shift : Nat)
deriving DecidableEq, Repr

def RangeError.message : RangeError → String
  | .reversed high low => s!"high bit ({high}) must not be below the low bit ({low})"
  | .aboveWord high => s!"high bit ({high}) must be at most 31"
  | .tooWide width => s!"a field cannot be wider than 32 bits: {width}"
  | .misfit width shift => s!"field of width {width} at bit {shift} does not fit in 32 bits"

/-- The `width` lowest bits set; every bit from width 32 on. -/
def Word.ones (width : Nat) : Word :=
  if width < 32 then (1#32 <<< width) - 1#32 else BitVec.allOnes 32

/-- The `width` bits of a word from bit `low` upwards. -/
structure BitRange where
  low : Nat
  width : Nat
deriving DecidableEq, Repr

namespace BitRange

def between (high low : Nat) : Except RangeError BitRange :=
  if high < low then .error (.reversed high low)
  else if 31 < high then .error (.aboveWord high)
  else .ok ⟨low, high - low + 1⟩

theorem between_eq_ok_iff {high low : Nat} {r : BitRange} :
    between high low = .ok r ↔ low ≤ high ∧ high ≤ 31 ∧ r = ⟨low, high - low + 1⟩ := by
  by_cases hl : high < low
  · simp only [between, hl, if_true, reduceCtorEq, false_iff]
    omega
  by_cases hh : 31 < high
  · simp only [between, hl, hh, if_true, if_false, reduceCtorEq, false_iff]
    omega
  simp only [between, hl, hh, if_false, Except.ok.injEq]
  exact ⟨fun h ↦ ⟨by omega, by omega, h.symm⟩, fun h ↦ h.2.2.symm⟩

def startingAt (shift width : Nat) : Except RangeError BitRange :=
  if 32 < width + shift then .error (.misfit width shift) else .ok ⟨shift, width⟩

def high (r : BitRange) : Nat := r.low + r.width - 1

def read (r : BitRange) (word : Word) : Word := (word >>> r.low) &&& Word.ones r.width

def write (r : BitRange) (value : Word) : Word :=
  if r.width = 0 then 0#32 else (value &&& Word.ones r.width) <<< r.low

end BitRange

def extract (word : BitVec 64) (high low : Nat) : Except RangeError Word :=
  (BitRange.between high low).map fun r ↦ r.read (word.setWidth 32)

def lowMask (width : Nat) : Except RangeError Word :=
  if 32 < width then .error (.tooWide width) else .ok (Word.ones width)

def place (value : Word) (width shift : Nat) : Except RangeError Word :=
  (BitRange.startingAt shift width).map fun r ↦ r.write value

end Mips32
