import Mips32.Field
import Mips32.Text.Basic

namespace Mips32

/-- The part that an operand plays in a mnemonic. -/
inductive Role
  | rd
  | rs
  | rt
  | shamt
  | funct
  | offset
  | address
  | target
  | hint
deriving DecidableEq, Repr

namespace Role

def all : List Role := [rd, rs, rt, shamt, funct, offset, address, target, hint]

def name : Role → String
  | rd => "rd"
  | rs => "rs"
  | rt => "rt"
  | shamt => "shamt"
  | funct => "funct"
  | offset => "offset"
  | address => "address"
  | target => "target"
  | hint => "hint"

def ofName? (name : Text) : Option Role := all.find? fun r ↦ r.name.toList = name

@[simp] theorem ofName?_name (r : Role) : ofName? r.name.toList = some r := by cases r <;> rfl

def fields : Role → List Field
  | rd => [.rd]
  | rs => [.rs]
  | rt | hint => [.rt]
  | shamt => [.shamt]
  | funct => [.funct]
  | offset => [.immediate]
  | address => [.immediate, .rs]
  | target => [.target]

end Role

end Mips32
