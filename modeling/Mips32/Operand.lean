import Mips32.Hint
import Mips32.Mnemonic.Legality
import Mips32.Register

namespace Mips32

/-- What an operand says: the fields it writes and the cache hint it names. -/
structure Operand where
  writes : List (Field × Word)
  hint : Option Hint
deriving DecidableEq, Repr

namespace Operand

def readRegister (text : Text) : Except SyntaxError Word :=
  match Register.parse? text with
  | some r => .ok (BitVec.ofNat 32 r.index)
  | none => .error (.invalidRegister text)

def readNumber (text : Text) : Except SyntaxError Word :=
  (Literal.parse text).mapError (.invalidNumber text)

/-- The offset and the index of the base register. A missing base is `$zero`, and nothing
before a base is an offset of zero. -/
def readAddress (text : Text) : Except SyntaxError (Word × Word) :=
  match AddressText.split? text with
  | none => .error (.invalidAddress text)
  | some ⟨offset, none⟩ => (readNumber offset).map fun n ↦ (n, 0#32)
  | some ⟨offset, some base⟩ => do
    let n ← if offset.isEmpty then .ok 0#32 else readNumber offset
    let b ← readRegister base
    return (n, b)

def single (field : Field) (value : Word) : Operand := ⟨[(field, value)], none⟩

def read (targetInBytes : Bool) (role : Role) (text : Text) : Except SyntaxError Operand :=
  match role with
  | .rd => (readRegister text).map (single .rd)
  | .rs => (readRegister text).map (single .rs)
  | .rt => (readRegister text).map (single .rt)
  | .shamt => (readNumber text).map (single .shamt)
  | .funct => (readNumber text).map (single .funct)
  | .offset => (readNumber text).map (single .immediate)
  | .target =>
    (readNumber text).map fun (n : Word) ↦ single .target (if targetInBytes then n >>> 2 else n)
  | .hint => do
    let n ← readNumber text
    match Hint.ofValue? n with
    | some h => .ok ⟨[(.rt, n)], some h⟩
    | none => .error (.unknownHint n)
  | .address => (readAddress text).map fun a ↦ ⟨[(.immediate, a.1), (.rs, a.2)], none⟩

def readAll (targetInBytes : Bool) : List Role → List Text → Except SyntaxError (List Operand)
  | role :: roles, text :: texts => do
    let operand ← read targetInBytes role text
    let operands ← readAll targetInBytes roles texts
    return operand :: operands
  | _, _ => .ok []

/-- The fields after the operands, each overwriting what stood there. -/
def apply (operands : List Operand) (fields : Fields) : Fields :=
  (operands.flatMap writes).foldl (fun (fs : Fields) e ↦ fs.set e.1 e.2) fields

def lastHint? (operands : List Operand) : Option Hint :=
  (operands.filterMap hint).getLast?

end Operand

end Mips32
