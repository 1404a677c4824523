import Mips32.Operand
import Mips32.Shape
import Mips32.Word.View

namespace Mips32

inductive Discriminant
  | funct (value : BitVec 8)
  | rt (value : BitVec 8)
deriving DecidableEq, Repr

inductive Kind
  | branch
  | trap
  | jump
  | jumpAndLink
  | shift
  | load
  | store
  | exception
deriving DecidableEq, Repr

structure Sample where
  mnemonic : Text
  word : Word
deriving DecidableEq, Repr

/-- An operation of the machine: how it is named, told apart from others, laid out and
written. -/
structure Operation where
  name : Text
  opcode : BitVec 8
  discriminant : Option Discriminant
  shape : Shape
  kind : Option Kind
  description : String
  sample : Option Sample
deriving DecidableEq

namespace Operation

def format (op : Operation) : Format := op.shape.format

def roles (op : Operation) : List Role := op.shape.roles

def usage (op : Operation) : Text :=
  Text.replaceFirst Shape.placeholder op.name op.shape.pattern

def agree (a b : Operation) : Bool :=
  a.name = b.name && a.opcode = b.opcode && a.discriminant = b.discriminant &&
    a.format = b.format

/-- The target is written as a byte address, though the word holds a word address. -/
def targetInBytes (op : Operation) : Bool := op.format = .j && op.kind = some .jumpAndLink

/-- An address is written without its base: the base has an operand of its own, or the
operation has none. -/
def bareAddress (op : Operation) : Bool := .rs ∈ op.roles || op.name = "lui".toList

def fixedFields (op : Operation) : Fields :=
  let opcode := op.opcode.setWidth 32
  let fields :=
    if op.format = .exit then Fields.empty.set .code (opcode <<< 26)
    else Fields.empty.set .opcode opcode
  match op.discriminant with
  | none => fields
  | some (.funct value) => fields.set .funct (value.setWidth 32)
  | some (.rt value) => fields.set .rt (value.setWidth 32)

def operandText (op : Operation) (word : Word) : Role → Text
  | .rd => (Register.ofBits word.rd).name
  | .rs => (Register.ofBits word.rs).name
  | .rt => (Register.ofBits word.rt).name
  | .shamt => Text.decimal word.shamt.toNat
  | .funct => Text.decimal word.funct.toNat
  | .hint => Text.decimal word.hintBits.toNat
  | .offset => Text.signedDecimal word.signedImmediate
  | .target => Text.decimal (if op.targetInBytes then word.target.toNat * 4 else word.target.toNat)
  | .address =>
    let offset := Text.signedDecimal word.signedImmediate
    if op.bareAddress then offset
    else offset ++ '(' :: ((Register.ofBits word.rs).name ++ [')'])

def mnemonicOf (op : Operation) (word : Word) : Text :=
  Mnemonic.join (op.name :: op.roles.map (op.operandText word))

def hintOf? (op : Operation) (word : Word) : Option Hint :=
  if .hint ∈ op.roles then Hint.ofValue? (word.hintBits.setWidth 32) else none

end Operation

end Mips32
