import Mips32.Text.Basic
import Mips32.Word.Range

namespace Mips32

structure Register where
  index : Fin 32
deriving DecidableEq, Repr

namespace Register

def zero : Register := ⟨0⟩

def names : Vector String 32 :=
  #v["$zero", "$at", "$v0", "$v1", "$a0", "$a1", "$a2", "$a3",
    "$t0", "$t1", "$t2", "$t3", "$t4", "$t5", "$t6", "$t7",
    "$s0", "$s1", "$s2", "$s3", "$s4", "$s5", "$s6", "$s7",
    "$t8", "$t9", "$k0", "$k1", "$gp", "$sp", "$fp", "$ra"]

def name (r : Register) : Text := (names[r.index]).toList

def all : List Register := (List.finRange 32).map Register.mk

def ofIndex? (n : Nat) : Option Register := if h : n < 32 then some ⟨⟨n, h⟩⟩ else none

@[simp] theorem ofIndex?_index (r : Register) : ofIndex? r.index = some r := by
  simp [ofIndex?]

def ofBits (b : BitVec 5) : Register := ⟨b.toFin⟩

/-- Continues the number `value` with decimal digits. Fails once it no longer fits in a word. -/
def readIndex? (value : Word) : Text → Option Word
  | [] => some value
  | c :: rest =>
    let digit := BitVec.ofNat 32 (c.toNat - '0'.toNat)
    if BitVec.umulOverflow value 10#32 || BitVec.uaddOverflow (value * 10#32) digit then none
    else readIndex? (value * 10#32 + digit) rest

def parse? : Text → Option Register
  | '$' :: rest =>
    if rest ≠ [] ∧ rest.all Char.isDigit then (readIndex? 0#32 rest).bind fun n ↦ ofIndex? n.toNat
    else all.find? fun r ↦ r.name = '$' :: rest
  | _ => none

@[simp] theorem parse?_name (r : Register) : parse? r.name = some r := by
  obtain ⟨i⟩ := r
  revert i
  decide +kernel

def agree (a b : Text) : Bool :=
  match parse? a, parse? b with
  | some x, some y => x = y
  | _, _ => false

def description (r : Register) : String :=
  match r.index.val with
  | 0 => "Constant 0"
  | 1 => "Reserved for the assembler"
  | 2 | 3 => "Function results and expression evaluation"
  | 4 | 5 | 6 | 7 => "Function argument"
  | 16 | 17 | 18 | 19 | 20 | 21 | 22 | 23 => "Saved temporary, preserved across calls"
  | 26 | 27 => "Reserved for the OS kernel"
  | 28 => "Pointer to the global area"
  | 29 => "Stack pointer"
  | 30 => "Frame pointer"
  | 31 => "Return address"
  | _ => "Temporary, not preserved across calls"

end Register

end Mips32
