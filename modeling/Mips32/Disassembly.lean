import Mips32.Instruction

namespace Mips32

inductive Violation
  | nonzeroField (field : Field) (value : Nat)
  | nonzeroCode (value : Nat)
deriving DecidableEq, Repr

def Violation.message : Violation → String
  | .nonzeroField field value => s!"Expected {field.name} to be zero. Got {value}"
  | .nonzeroCode value =>
    s!"Expected code to be zero below the opcode. Got {String.ofList (Text.hexadecimal value)}"

/-- What a word reads as. A suspect word names a known operation but has bits set that the
operation leaves at zero. -/
inductive Disassembly
  | valid (instruction : Instruction)
  | suspect (instruction : Instruction) (violations : List Violation)
  | unrecognized (word : Word) (format : Option Format)
deriving DecidableEq

namespace Disassembly

def instruction? : Disassembly → Option Instruction
  | valid i => some i
  | suspect i _ => some i
  | unrecognized _ _ => none

def word : Disassembly → Word
  | valid i => i.word
  | suspect i _ => i.word
  | unrecognized w _ => w

def format? : Disassembly → Option Format
  | valid i => some i.format
  | suspect i _ => some i.format
  | unrecognized _ f => f

def mnemonic? (d : Disassembly) : Option Text := d.instruction?.map Instruction.mnemonic

def violations : Disassembly → List Violation
  | suspect _ vs => vs
  | _ => []

end Disassembly

namespace Operation

/-- The fields of an R-format word that are zero unless an operand writes them, in the order
in which they are reported. -/
def implicitZeroes : List (Field × (Word → BitVec 5)) :=
  [(.shamt, Word.shamt), (.rd, Word.rd), (.rt, Word.rt), (.rs, Word.rs)]

def violations (op : Operation) (word : Word) : List Violation :=
  match op.format with
  | .r => implicitZeroes.filterMap fun (field, part) ↦
    if !op.shape.writes field && part word ≠ 0#5 then
      some (.nonzeroField field (part word).toNat)
    else none
  | .exit => if word.target = 0#26 then [] else [.nonzeroCode word.target.toNat]
  | _ => []

def disassemble (op : Operation) (word : Word) : Disassembly :=
  match op.violations word with
  | [] => .valid (op.instructionOf word)
  | v :: vs => .suspect (op.instructionOf word) (v :: vs)

end Operation

end Mips32
